import Patchbay.Program
import Patchbay.Text.Blank

/-!
# The handler registry

Handlers are registered by widget and action type. A later registration replaces an earlier one
for the same key.
-/

namespace Patchbay

inductive ActionKind where
  | setValue
  | setText
  | custom
  deriving DecidableEq, Repr

namespace ActionKind

def ofType : String → ActionKind
  | "setValue" => .setValue
  | "setText" => .setText
  | _ => .custom

def name : ActionKind → String
  | .setValue => "setValue"
  | .setText => "setText"
  | .custom => "custom"

end ActionKind

structure Registration where
  widget : String
  action : String
  handler : Handler

def Registration.kind (r : Registration) : ActionKind :=
  .ofType r.action

/-- All handlers, by widget and action type. -/
structure Registry where
  entries : Entries (String × String) Registration := []

namespace Registry

def lookup (registry : Registry) (widget action : String) : Option Registration :=
  Entries.get? (widget, action) registry.entries

/-- The handlers of a widget, in the order of their first registration. -/
def handlersOf (registry : Registry) (widget : String) : List Registration :=
  (registry.entries.filter fun entry => entry.1.1 == widget).map Prod.snd

def name? : Value → Option String
  | .text s => if (Text.trim s.toList).isEmpty then none else some s
  | _ => none

/-- Checks what is to be registered: two names that are not blank, and a handler. -/
def check (widget action : Value) (handler : Option Handler) : Except Invalid Registration :=
  match name? widget with
  | none => .error .handlerWidget
  | some widget =>
    match name? action with
    | none => .error (.handlerAction widget)
    | some action =>
      match handler with
      | none => .error (.handlerValue widget action)
      | some handler => .ok ⟨widget, action, handler⟩

def insert (registry : Registry) (r : Registration) : Registry :=
  ⟨Entries.put (r.widget, r.action) r registry.entries⟩

theorem lookup_insert_self (registry : Registry) (r : Registration) :
    (registry.insert r).lookup r.widget r.action = some r :=
  Entries.get?_put_self _ _ _

theorem lookup_insert_of_ne (registry : Registry) (r : Registration) {widget action : String}
    (ne : (widget, action) ≠ (r.widget, r.action)) :
    (registry.insert r).lookup widget action = registry.lookup widget action :=
  Entries.get?_put_of_ne ne _ _

end Registry
end Patchbay
