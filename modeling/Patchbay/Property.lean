import Patchbay.Value

/-!
# Properties of stored values

A stored map is a bag of properties. Any other value counts as the whole content of its widget,
which the canonical property names are names for.
-/

namespace Patchbay

/-- The properties that stand for the whole of a value that is no bag. -/
def canonicalProperties : List String :=
  ["value", "selected_value", "text"]

namespace Value

def isBag : Value → Bool
  | .map _ => true
  | _ => false

/-- A property of a value; null if it has none of that name. No name, or an empty one, asks for
the whole value. -/
def property (value : Value) : Option String → Value
  | none => value
  | some name =>
    if name.isEmpty then value
    else match value with
      | .map entries => (Entries.get? (Key.text name) entries).getD .null
      | other => if canonicalProperties.contains name then other else .null

/-- Writes a property. A bag keeps its other entries; a defined value that is no bag lives on
under `value`, unless that is the property written. -/
def withProperty (old : Value) (name : String) (new : Value) : Value :=
  match old with
  | .map entries => .map (Entries.put (Key.text name) new entries)
  | .null => .map [(.text name, new)]
  | other =>
    if name = "value" then .map [(.text name, new)]
    else .map [(.text "value", other), (.text name, new)]

theorem property_withProperty_self (old : Value) {name : String} (filled : name ≠ "")
    (new : Value) : (old.withProperty name new).property (some name) = new := by
  cases old with
  | map entries => simp [withProperty, property, filled, Key.get?_put_text]
  | null => simp [withProperty, property, filled, Entries.get?, Key.beq_text_iff]
  | bool | int | float | text | list =>
    by_cases whole : name = "value"
    · simp [withProperty, property, whole, Entries.get?, Key.beq_text_iff]
    · simp [withProperty, property, filled, whole, Ne.symm whole, Entries.get?, Key.beq_text_iff]

theorem property_withProperty_of_ne {old : Value} (bag : old.isBag = true) {name other : String}
    (filled : other ≠ "") (ne : other ≠ name) (new : Value) :
    (old.withProperty name new).property (some other) = old.property (some other) := by
  cases old with
  | map entries => simp [withProperty, property, filled, Key.get?_put_text_of_ne ne]
  | null | bool | int | float | text | list => cases bag

/-- Whatever was there, writing a property leaves a bag. -/
theorem isBag_withProperty (old : Value) (name : String) (new : Value) :
    (old.withProperty name new).isBag = true := by
  cases old <;> simp only [withProperty]
  case map | null => rfl
  all_goals split <;> rfl

end Value
end Patchbay
