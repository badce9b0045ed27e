import Patchbay.Document

/-!
# Records

What documents and rules are made of, sort by sort: how a value is read as such a record, and
whether a field of it can be given another value afterwards.
-/

namespace Patchbay

inductive RecordType where
  | binding
  | action
  | rule
  | component
  | document
  deriving DecidableEq, Repr

namespace RecordType

/-- Reads a value as a record and gives the fields of that. -/
def check (t : RecordType) (value : Value) : Schema.Checked Value :=
  match t with
  | .binding => (Binding.check value).map Binding.toValue
  | .action => (Action.check value).map Action.toValue
  | .rule => (Rule.check value).map Rule.toValue
  | .component => (Component.check value).map Component.toValue
  | .document => (Document.check value).map Document.toValue

/-- Bindings, and the rules they become, stay as they were made. -/
def isFixed : RecordType → Bool
  | .binding => true
  | .action => true
  | .rule => true
  | .component => false
  | .document => false

/-- Gives a field of a record another value. A record that stays as it is names the field in its
refusal, whether it has such a field or not. -/
def assign (t : RecordType) (record : Value) (name : String) (value : Value) :
    Schema.Checked Value :=
  if t.isFixed then .error [⟨[.field name], .immutable⟩]
  else match record with
    | .map fields => .ok (.map (Entries.put (Key.text name) value fields))
    | other => .ok other

end RecordType
end Patchbay
