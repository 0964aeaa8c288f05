import RadioScan.Json.Decode

/-!
# Records

A record format lists the fields of a record in the order in which they are written. The same format
reads: from an object, whose members may come in any order and among unknown ones, or from an array
of the fields' values. What is left out keeps its value in a blank record, unless it is required.
-/

namespace RadioScan.Json

/-- A field of a record: how it is written, if at all, and how reading it changes a record. -/
structure Field (α : Type) where
  name : String
  required : Bool
  write : α → Option Json
  read : Json → Except Fault (α → α)

namespace Field

variable {α β : Type}

/-- A field that is always written. -/
def plain (name : String) (required : Bool) (encode : β → Json) (decode : Decoder β) (get : α → β)
    (set : β → α → α) : Field α where
  name := name
  required := required
  write a := some (encode (get a))
  read j := (decode j).map set

/-- A field without which a record is not read. -/
def needed (name : String) (encode : β → Json) (decode : Decoder β) (get : α → β)
    (set : β → α → α) : Field α := plain name true encode decode get set

/-- A field that may be left out of a text. -/
def defaulted (name : String) (encode : β → Json) (decode : Decoder β) (get : α → β)
    (set : β → α → α) : Field α := plain name false encode decode get set

/-- A field that is left out of a text when there is nothing to write. -/
def skipped (name : String) (encode : β → Json) (decode : Decoder β) (get : α → Option β)
    (set : Option β → α → α) : Field α where
  name := name
  required := false
  write a := (get a).map encode
  read j := (optional decode j).map set

end Field

/-- The fields of a record in order, and the record in which everything is left out. -/
structure Record (α : Type) where
  title : String
  blank : α
  fields : List (Field α)

namespace Record

variable {α : Type}

/-- A record as an object. -/
def encode (r : Record α) (a : α) : Json :=
  object (r.fields.filterMap fun f => (f.write a).map fun j => (some f.name, j))

/-- Reads members into a record; `seen` are the fields read before. -/
def readMembers (r : Record α) (seen : List String) (a : α) :
    List (Option String × Json) → Except Fault (List String × α)
  | [] => .ok (seen, a)
  | (some name, v) :: ms =>
    match r.fields.find? fun f => f.name == name with
    | some f =>
      if name ∈ seen then .error (.duplicateField name)
      else do
        let change ← f.read v
        readMembers r (name :: seen) (change a) ms
    | none => if v.isWhole then readMembers r seen a ms else .error .malformed
  | (none, _) :: _ => .error .malformed

/-- The length that an array should have, in words. -/
def arity (r : Record α) : String :=
  let n := r.fields.length
  r.title ++ " with " ++ toString n ++ (if n = 1 then " element" else " elements")

/-- Reads items into the fields of a record, in order; `index` counts the ones read before. -/
def readItems (r : Record α) (index : Nat) (a : α) : List (Field α) → List Json → Except Fault α
  | [], [] => .ok a
  | [], _ :: _ => .error .malformed
  | f :: fs, [] =>
    if f.required then .error (.wrongLength index r.arity) else readItems r (index + 1) a fs []
  | f :: fs, j :: js => do
    let change ← f.read j
    readItems r (index + 1) (change a) fs js

/-- Reads a record. -/
def decode (r : Record α) : Decoder α
  | object members => do
    let (seen, a) ← r.readMembers [] r.blank members
    match r.fields.find? fun f => f.required && f.name ∉ seen with
    | some f => throw (.missingField f.name)
    | none => return a
  | array items => r.readItems 0 r.blank r.fields items
  | j => .error (mismatch r.title j)

end Record

end RadioScan.Json
