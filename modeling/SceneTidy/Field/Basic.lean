import SceneTidy.Field.Value

/-!
# A field with its declared value

A field is declared with a value and may be given one of its own.  It counts as default when it
was given none, or one that is the same as the declared value; a single number that is not a number
never counts as default, since it is not the same as itself.
-/

namespace SceneTidy

/-- A field: its declared value, and its own one if it was given any. -/
structure Field where
  declared : FieldValue
  own : Option FieldValue

namespace Field

/-- A field with a declared value. -/
def declare (v : FieldValue) : Field := ⟨v, none⟩

/-- The value the field holds. -/
def value (f : Field) : FieldValue := f.own.getD f.declared

/-- Give the field a value. -/
def set (f : Field) (v : FieldValue) : Field := { f with own := some v }

/-- Return to the declared value. -/
def reset (f : Field) : Field := { f with own := none }

/-- Put items at the end of a list; nothing changes if there are none. -/
def append (f : Field) (v : FieldValue) : Field :=
  if f.value.append v = f.value then f else f.set (f.value.append v)

/-- Drop the items of a list. -/
def clear (f : Field) : Field := f.set f.value.clear

/-- Whether a value that was never given another is default: all are but a single number that is
not a number. -/
def isOwnDefault : FieldValue → Bool
  | .one .float x | .one .time x => x.same x
  | _ => true

/-- Whether the field holds its declared value. -/
def isDefault (f : Field) : Bool :=
  match f.own with
  | none => isOwnDefault f.declared
  | some v => v.same f.declared

end Field

end SceneTidy
