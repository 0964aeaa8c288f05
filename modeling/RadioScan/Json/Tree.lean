import RadioScan.Json.Scan

/-!
# JSON trees

A tree is what a reader of JSON meets, in the order in which it meets it. Where a text stops being
JSON, its tree says so at that very place, so that a reader who goes by the tree still learns which
of two faults comes first. What follows such a place is not in the tree.
-/

namespace RadioScan

inductive Json
  | null
  | bool (b : Bool)
  | number (n : Json.Number)
  /-- A string; none when it holds half of a surrogate pair. -/
  | text (content : Option String)
  | array (items : List Json)
  /-- Members in their order; a key is none when it holds half of a surrogate pair. -/
  | object (members : List (Option String × Json))
  /-- The text is not JSON from here on. -/
  | broken

namespace Json

/-! ## Reading -/

/-- An array or object that has been opened, with what it holds so far, newest first. -/
inductive Frame
  | items (before : List Json)
  | members (before : List (Option String × Json)) (key : Option String)

/-- Closes a frame around what it holds last. -/
def Frame.close : Frame → Json → Json
  | items before, j => array (j :: before).reverse
  | members before key, j => object ((key, j) :: before).reverse

/-- What is due next. -/
inductive Due
  | value
  /-- A value, or the end of an array just opened. -/
  | item
  /-- A key, or the end of an object if it has just been opened. -/
  | key (before : List (Option String × Json))
  | colon (before : List (Option String × Json)) (key : Option String)
  /-- What follows a value inside an array or object. -/
  | next (v : Json)

/-- What a token leads to. -/
inductive Move
  | go (stack : List Frame) (due : Due)
  /-- The outermost value is complete. -/
  | done (v : Json)
  /-- Reading ends at a place that is not JSON. -/
  | halt (v : Json)

/-- Closes all frames around a value. -/
def closeAll (stack : List Frame) (j : Json) : Json := stack.foldl (fun j f => f.close j) j

/-- The tree of a text that ends, or stops being JSON, where the given thing is due. -/
def halted (stack : List Frame) : Due → Json
  | .value => closeAll stack broken
  | .item => closeAll stack (array [broken])
  | .key before => closeAll stack (object ((none, broken) :: before).reverse)
  | .colon before key => closeAll stack (object ((key, broken) :: before).reverse)
  | .next v =>
    match stack with
    | [] => v
    | .items before :: stack => closeAll stack (array (broken :: v :: before).reverse)
    | .members before key :: stack =>
      closeAll stack (object ((none, broken) :: (key, v) :: before).reverse)

/-- A value is complete. -/
def complete (stack : List Frame) (v : Json) : Move :=
  match stack with
  | [] => .done v
  | _ :: _ => .go stack (.next v)

/-- The value of a token that is a whole value. -/
def scalar? : Token → Option Json
  | .null => some null
  | .bool b => some (bool b)
  | .number n => some (number n)
  | .text content => some (text content)
  | _ => none

/-- A value is due, and the given token comes. -/
def begin (stack : List Frame) : Token → Move
  | .openBracket => .go stack .item
  | .openBrace => .go stack (.key [])
  | t =>
    match scalar? t with
    | some v => complete stack v
    | none => .halt (halted stack .value)

/-- A value inside an array or object is complete, and the given token comes. -/
def proceed (stack : List Frame) (v : Json) (t : Token) : Move :=
  match stack, t with
  | .items before :: stack, .comma => .go (.items (v :: before) :: stack) .value
  | .items before :: stack, .closeBracket => complete stack (array (v :: before).reverse)
  | .members before k :: stack, .comma => .go stack (.key ((k, v) :: before))
  | .members before k :: stack, .closeBrace => complete stack (object ((k, v) :: before).reverse)
  | stack, _ => .halt (halted stack (.next v))

/-- Takes one token. -/
def step (stack : List Frame) (due : Due) (t : Token) : Move :=
  match due, t with
  | .value, t => begin stack t
  | .item, .closeBracket => complete stack (array [])
  | .item, t => begin (.items [] :: stack) t
  | .key [], .closeBrace => complete stack (object [])
  | .key before, .text k => .go stack (.colon before k)
  | .key before, _ => .halt (halted stack (.key before))
  | .colon before k, .colon => .go (.members before k :: stack) .value
  | .colon before k, _ => .halt (halted stack (.colon before k))
  | .next v, t => proceed stack v t

/-- Reads one value: its tree, and the tokens behind it. -/
def read (stack : List Frame) (due : Due) : List Token → Json × List Token
  | [] => (halted stack due, [])
  | t :: ts =>
    match step stack due t with
    | .go stack due => read stack due ts
    | .done v => (v, ts)
    | .halt v => (v, [])

/-- The tree of a text, and the tokens behind it. -/
def parse (s : String) : Json × List Token := read [] .value (scan s.toList)

/-! ## Well-formed trees -/

mutual

/-- The tree has no broken place. -/
def isWhole : Json → Bool
  | array items => areWhole items
  | object members => membersWhole members
  | broken => false
  | _ => true

def areWhole : List Json → Bool
  | [] => true
  | j :: js => isWhole j && areWhole js

def membersWhole : List (Option String × Json) → Bool
  | [] => true
  | m :: ms => memberWhole m && membersWhole ms

def memberWhole : Option String × Json → Bool
  | (_, v) => isWhole v

end

/-! ## Tokens of a tree -/

mutual

/-- The tokens that a tree is written with. -/
def tokens : Json → List Token
  | null => [.null]
  | bool b => [.bool b]
  | number n => [.number n]
  | text content => [.text content]
  | array [] => [.openBracket, .closeBracket]
  | array (j :: js) => .openBracket :: (tokens j ++ (itemTokens js ++ [.closeBracket]))
  | object [] => [.openBrace, .closeBrace]
  | object (m :: ms) => .openBrace :: (pairTokens m ++ (memberTokens ms ++ [.closeBrace]))
  | broken => [.bad]

/-- Further items, each behind a comma. -/
def itemTokens : List Json → List Token
  | [] => []
  | j :: js => .comma :: (tokens j ++ itemTokens js)

/-- Further members, each behind a comma. -/
def memberTokens : List (Option String × Json) → List Token
  | [] => []
  | m :: ms => .comma :: (pairTokens m ++ memberTokens ms)

def pairTokens : Option String × Json → List Token
  | (k, v) => .text k :: .colon :: tokens v

end

/-- The text of a tree without blanks. -/
def compact (j : Json) : String := String.ofList (j.tokens.flatMap Token.spell)

end Json

end RadioScan
