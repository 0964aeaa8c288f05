import RadioScan.Json.Tree

/-!
# Indented JSON

Every item and member stands on a line of its own, two spaces further in than its bracket; empty
arrays and objects stay together.
-/

namespace RadioScan.Json

/-- A line break and the indentation of a depth. -/
def lineAt (depth : Nat) : List Char := '\n' :: List.replicate (2 * depth) ' '

mutual

def prettyAt (depth : Nat) : Json → List Char
  | array [] => ['[', ']']
  | array (j :: js) =>
    '[' :: (lineAt (depth + 1) ++ prettyAt (depth + 1) j ++ prettyItems (depth + 1) js ++
      lineAt depth ++ [']'])
  | object [] => ['{', '}']
  | object (m :: ms) =>
    '{' :: (lineAt (depth + 1) ++ prettyPair (depth + 1) m ++ prettyMembers (depth + 1) ms ++
      lineAt depth ++ ['}'])
  | null => Token.null.spell
  | bool b => (Token.bool b).spell
  | number n => n.spell
  | text content => (Token.text content).spell
  | broken => []

def prettyItems (depth : Nat) : List Json → List Char
  | [] => []
  | j :: js => ',' :: (lineAt depth ++ prettyAt depth j ++ prettyItems depth js)

def prettyMembers (depth : Nat) : List (Option String × Json) → List Char
  | [] => []
  | m :: ms => ',' :: (lineAt depth ++ prettyPair depth m ++ prettyMembers depth ms)

def prettyPair (depth : Nat) : Option String × Json → List Char
  | (k, v) => (Token.text k).spell ++ ':' :: ' ' :: prettyAt depth v

end

/-- The text of a tree over several lines. -/
def pretty (j : Json) : String := String.ofList (prettyAt 0 j)

end RadioScan.Json
