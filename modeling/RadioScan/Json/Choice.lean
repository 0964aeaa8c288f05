import RadioScan.Json.Record

/-!
# Choices

A value that is one of several variants is written as the variant's name, or as an object whose one
key is that name and whose value is what the variant holds.
-/

namespace RadioScan.Json

/-- How what a variant holds is read. -/
inductive Shape (α : Type)
  /-- The variant holds nothing. -/
  | unit (value : α)
  | newtype (decode : Decoder α)
  | record (decode : Decoder α)

/-- A variant by name. -/
structure Variant (α : Type) where
  name : String
  shape : Shape α

namespace Shape

variable {α : Type}

/-- The variant's name stands alone. -/
def ofName : Shape α → Except Fault α
  | unit value => .ok value
  | newtype _ => .error (.mismatch .unitVariant "newtype variant")
  | record _ => .error (.mismatch .unitVariant "struct variant")

/-- The variant's name stands with a value. -/
def ofValue : Shape α → Decoder α
  | unit value, null => .ok value
  | unit _, j => .error (mismatch "unit" j)
  | newtype decode, j => decode j
  | record decode, j => decode j

end Shape

/-- The variant of the given name. -/
def variantOf {α : Type} (variants : List (Variant α)) (name : String) :
    Except Fault (Variant α) :=
  match variants.find? fun v => v.name == name with
  | some v => .ok v
  | none => .error (.unknownVariant name (variants.map Variant.name))

/-- Reads one of several variants. -/
def choice {α : Type} (variants : List (Variant α)) : Decoder α
  | text (some name) => do (← variantOf variants name).shape.ofName
  | object ((some name, v) :: members) => do
    let variant ← variantOf variants name
    let a ← variant.shape.ofValue v
    if members.isEmpty then return a else throw .malformed
  | _ => .error .malformed

end RadioScan.Json
