import Patchbay.Schema

/-!
# Rules

A rule says which actions a trigger sets off. An action names a handler by its widget and its
type, and gives it arguments that may hold templates.
-/

namespace Patchbay

/-- One call of a handler. -/
structure Action where
  type : String
  target : String
  args : Entries String Value
  deriving Inhabited

/-- What a trigger sets off, in order. -/
structure Rule where
  trigger : String
  actions : List Action
  deriving Inhabited

namespace Action

def check (value : Value) : Schema.Checked Action :=
  match Schema.object value with
  | .error issues => .error issues
  | .ok entries =>
    Schema.Checked.build Action.mk
      |> Schema.Checked.part (Schema.required entries "type" Schema.text)
      |> Schema.Checked.part (Schema.required entries "target" Schema.text)
      |> Schema.Checked.part (Schema.optional entries "args" [] Schema.fields)

def toValue (action : Action) : Value :=
  .record [("type", .text action.type), ("target", .text action.target),
    ("args", .record action.args)]

end Action

namespace Rule

def checkActions : Value → Schema.Checked (List Action)
  | .list items => Schema.Checked.each Action.check 0 items
  | _ => Schema.refuse .sequence

def check (value : Value) : Schema.Checked Rule :=
  match Schema.object value with
  | .error issues => .error issues
  | .ok entries =>
    Schema.Checked.build Rule.mk
      |> Schema.Checked.part (Schema.required entries "trigger" Schema.text)
      |> Schema.Checked.part (Schema.optional entries "actions" [] checkActions)

def toValue (rule : Rule) : Value :=
  .record [("trigger", .text rule.trigger), ("actions", .list (rule.actions.map Action.toValue))]

end Rule
end Patchbay
