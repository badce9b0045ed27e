import Patchbay.Json.Limits
import Patchbay.Schema
import Patchbay.Text.Quoted

/-!
# Faults

Everything that can go wrong, by its cause. `Invalid` is what the library itself refuses;
`Fault` adds what happens when a value is not of the sort that a handler, a widget or a lookup
takes it for.
-/

namespace Patchbay

inductive Invalid where
  /-- The text of a page document is not JSON, or not a map. -/
  | documentText (cause : Json.Error)
  | documentLimit (cause : Json.Error)
  /-- A page document has a tuple for a key, so that no JSON text stands for it. -/
  | documentKeys
  | sectionMissing (name : String)
  | sectionNotList (name : String)
  /-- The parts of a page document are not what they should be. -/
  | document (issues : List Schema.Issue)
  | sharedIds (ids : List String)
  | repeatedId (id : String)
  | unknownType (name : String)
  /-- A binding in a list is not what it should be. -/
  | binding (index : Nat) (issues : List Schema.Issue)
  /-- An indirect binding names no widget to wait for. -/
  | deadBinding (source target : String)
  /-- A handler is to be registered for a blank widget id. -/
  | handlerWidget
  /-- A handler is to be registered for a blank action type. -/
  | handlerAction (widget : String)
  /-- What is to be registered as a handler is none. -/
  | handlerValue (widget action : String)
  /-- The context given with a trigger is not a JSON map. -/
  | triggerContext (trigger : String) (cause : Json.Error)

def tupleKeyMessage : String :=
  "keys must be str, int, float, bool or None, not tuple"

def Invalid.message : Invalid → String
  | .documentText cause => s!"Invalid JSON: {cause.message}"
  | .documentLimit cause => cause.message
  | .documentKeys => s!"Page config is not JSON-encodable: {tupleKeyMessage}"
  | .sectionMissing name => s!"Page config missing required '{name}' field"
  | .sectionNotList name => s!"Page config '{name}' must be a list"
  | .document _ => s!"Invalid page config: {Schema.unspecified}"
  | .sharedIds ids => "Duplicate component ids: " ++ ", ".intercalate ids
  | .repeatedId id => s!"Duplicate component id: {id}"
  | .unknownType name => s!"Unknown component type: {name}"
  | .binding index _ => s!"Invalid binding at index {index}: {Schema.unspecified}"
  | .deadBinding source target =>
    s!"Indirect binding {source} -> {target} has no 'via' widget"
  | .handlerWidget => "Handler widget_id must be a non-empty string"
  | .handlerAction widget => s!"Handler action_type for '{widget}' must be a non-empty string"
  | .handlerValue widget action => s!"Handler for {widget}.{action} is not callable"
  | .triggerContext trigger cause => s!"Invalid context for {trigger}: {cause.message}"

/-- The issues that a refusal rests on, if it rests on a schema. -/
def Invalid.issues : Invalid → List Schema.Issue
  | .document issues => issues
  | .binding _ issues => issues
  | _ => []

inductive Fault where
  | invalid (cause : Invalid)
  /-- A value or a widget is asked for something that its sort does not have. -/
  | noAttribute (found name : String)
  | notIterable (found : Kind)
  | notContainer (found : Kind)
  /-- A value that has no parts is asked for one. -/
  | notSubscriptable (found : Kind)
  /-- An item of a list of pairs has no parts. -/
  | notPair (index : Nat)
  | pairLength (index length : Nat)
  /-- A collection is used as a key. -/
  | unhashable (found : Kind)
  | textIndex
  | listIndex
  | tupleKey
  /-- A map or a page lacks an entry; the text says which. -/
  | missing (key : String)
  /-- A custom handler or observer fails, with an error of its own sort. -/
  | raised (sort message : String)
  /-- Handlers or observers set off one another without end. -/
  | tooManyNested

def Fault.message : Fault → String
  | .invalid cause => cause.message
  | .noAttribute found name => s!"'{found}' object has no attribute '{name}'"
  | .notIterable found => s!"'{found.name}' object is not iterable"
  | .notContainer found => s!"argument of type '{found.name}' is not iterable"
  | .notSubscriptable found => s!"'{found.name}' object is not subscriptable"
  | .notPair index =>
    s!"cannot convert dictionary update sequence element #{index} to a sequence"
  | .pairLength index length =>
    s!"dictionary update sequence element #{index} has length {length}; 2 is required"
  | .unhashable found => s!"unhashable type: '{found.name}'"
  | .textIndex => "string indices must be integers, not 'str'"
  | .listIndex => "list indices must be integers or slices, not str"
  | .tupleKey => tupleKeyMessage
  | .missing key => key
  | .raised _ message => message
  | .tooManyNested => "maximum recursion depth exceeded"

/-- The wording of a fault in a log line, where what is missing stands between quotes. -/
def Fault.report : Fault → String
  | .missing key => Text.quoted key
  | fault => fault.message

/-- What a collection is gone through as: the items of a list, the keys of a map, the characters
of a text. -/
def Value.elements : Value → Except Fault (List Value)
  | .list items => .ok items
  | .map entries => .ok (entries.map fun entry => entry.1.toValue)
  | .text s => .ok (s.toList.map fun c => .text (String.singleton c))
  | other => .error (.notIterable other.kind)

end Patchbay
