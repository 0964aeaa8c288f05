import RadioScan.Json.Fault

/-!
# Decoding

Reading values off trees, in the order of the text: the first fault met is the one reported, a
broken place being the fault of the text itself. Decoding a text ends with the text.
-/

namespace RadioScan.Json

abbrev Decoder (α : Type) := Json → Except Fault α

/-- The fault of meeting a tree where something else was expected. -/
def mismatch (expected : String) : Json → Fault
  | null => .mismatch .null expected
  | bool b => .mismatch (.bool b) expected
  | number n => if n.isTooLarge then .malformed else .mismatch (.number n) expected
  | text (some s) => .mismatch (.text s) expected
  | text none => .malformed
  | array _ => .mismatch .array expected
  | object _ => .mismatch .object expected
  | broken => .malformed

/-- A natural number below a bound. -/
def natBelow (bound : Nat) (expected : String) : Decoder Nat
  | number n =>
    match n.quantity with
    | .integer i =>
      if 0 ≤ i ∧ i < bound then .ok i.toNat else .error (.outOfRange i expected)
    | _ => .error (mismatch expected (number n))
  | j => .error (mismatch expected j)

def uint8 : Decoder UInt8 := fun j => (natBelow UInt8.size "u8" j).map UInt8.ofNat

def uint32 : Decoder UInt32 := fun j => (natBelow UInt32.size "u32" j).map UInt32.ofNat

/-- A count that may take all of a machine word. -/
def word : Decoder UInt64 := fun j => (natBelow UInt64.size "usize" j).map UInt64.ofNat

def string : Decoder String
  | text (some s) => .ok s
  | j => .error (mismatch "a string" j)

/-- The items of an array, one after the other. -/
def itemsOf {α : Type} (decode : Decoder α) : List Json → Except Fault (List α)
  | [] => .ok []
  | j :: js => do
    let a ← decode j
    let as ← itemsOf decode js
    return a :: as

def list {α : Type} (decode : Decoder α) : Decoder (List α)
  | array items => itemsOf decode items
  | j => .error (mismatch "a sequence" j)

/-- Nothing is written as null. -/
def optional {α : Type} (decode : Decoder α) : Decoder (Option α)
  | null => .ok none
  | j => (decode j).map some

/-- Reads a whole text as one value. -/
def decodeText {α : Type} (decode : Decoder α) (s : String) : Except Fault α := do
  let (j, rest) := parse s
  let a ← decode j
  if rest.isEmpty then return a else throw .malformed

end RadioScan.Json
