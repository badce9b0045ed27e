import Patchbay.Fault
import Patchbay.Json.Printer
import Patchbay.Property
import Patchbay.Template

/-!
# Resolving arguments

Each token of an argument is replaced by the text of what it refers to: the context that came with
the trigger is asked first, the store second, and what neither has is the empty text. Text that
comes from a value is never looked at again.
-/

namespace Patchbay

/-- The text of a value inside a template. Whole floating point numbers are written as integers,
lists and maps as JSON. -/
def Value.toText : Value → Except Fault String
  | .null => .ok ""
  | .bool b => .ok (if b then "true" else "false")
  | .int n => .ok (String.ofList (Decimal.integer n))
  | .float x =>
    .ok (String.ofList (match x.toInt? with
      | some n => Decimal.integer n
      | none => Decimal.plain.write x))
  | .text s => .ok s
  | value =>
    match Json.text? value 0 with
    | some s => .ok s
    | none => .error .tupleKey

/-- Where references are looked up. A context of null is no context. -/
structure Scope where
  context : Value
  store : Entries String Value

namespace Scope

/-- What the store has for a reference; null if nothing. -/
def stored (scope : Scope) (ref : Reference) : Value :=
  ((Entries.get? ref.widget scope.store).getD .null).property ref.property

/-- What a reference stands for; null if neither tier has it. A context that is no map cannot be
asked. -/
def find (scope : Scope) (ref : Reference) : Except Fault Value :=
  match scope.context with
  | .null => .ok (scope.stored ref)
  | .map entries =>
    let own := ((Entries.get? (Key.text ref.widget) entries).getD .null).property ref.property
    .ok (if own.isNull then scope.stored ref else own)
  | other => .error (.noAttribute other.kind.name "get")

end Scope

/-- The outcome of resolving, with the tokens on the way that stood for nothing. -/
structure Resolved (α : Type) where
  outcome : Except Fault α
  unresolved : List String

namespace Resolved

/-- Resolves a second part unless the first one failed. -/
def andThen {α β : Type} (first : Resolved α) (second : α → Resolved β) : Resolved β :=
  match first.outcome with
  | .error fault => ⟨.error fault, first.unresolved⟩
  | .ok a =>
    let next := second a
    ⟨next.outcome, first.unresolved ++ next.unresolved⟩

end Resolved

namespace Scope

def expandToken (scope : Scope) (body : List Char) : Resolved String :=
  match scope.find (Reference.ofBody body) with
  | .error fault => ⟨.error fault, []⟩
  | .ok value =>
    ⟨value.toText, if value.isNull then [String.ofList (Template.token body)] else []⟩

/-- Expands tokens with the texts after them, from the left. -/
def expandParts (scope : Scope) : List (List Char × List Char) → Resolved (List Char)
  | [] => ⟨.ok [], []⟩
  | (body, literal) :: rest =>
    (scope.expandToken body).andThen fun text =>
      (scope.expandParts rest).andThen fun more =>
        ⟨.ok (text.toList ++ literal ++ more), []⟩

def expand (scope : Scope) (t : Template) : Resolved String :=
  (scope.expandParts t.tail).andThen fun more => ⟨.ok (String.ofList (t.head ++ more)), []⟩

/-- Resolves an argument. Only texts change. -/
def resolve (scope : Scope) : Value → Resolved Value
  | .text s => (scope.expand (Template.parse s.toList)).andThen fun s => ⟨.ok (.text s), []⟩
  | value => ⟨.ok value, []⟩

def resolveAll {κ : Type} (scope : Scope) : Entries κ Value → Resolved (Entries κ Value)
  | [] => ⟨.ok [], []⟩
  | (name, arg) :: rest =>
    (scope.resolve arg).andThen fun arg =>
      (scope.resolveAll rest).andThen fun rest => ⟨.ok ((name, arg) :: rest), []⟩

end Scope
end Patchbay
