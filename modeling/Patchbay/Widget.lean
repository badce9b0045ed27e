import Patchbay.Document
import Patchbay.Store

/-!
# Widgets

A widget shows the value that the store holds under its id. What it shows is a function of its
properties and that value; it fails if they are not of the form that the widget expects.
-/

namespace Patchbay

structure Widget where
  id : String
  type : ComponentType
  props : Entries String Value
  /-- What was last drawn without failure. -/
  rendered : Value := .map []
  /-- What ends the subscription of a mounted widget. -/
  subscription : Option Subscription := none
  drawn : Nat := 0

def ComponentType.className : ComponentType → String
  | .calendar => "CalendarWidget"
  | .button => "ButtonWidget"
  | .chart => "ChartWidget"
  | .dropdown => "DropdownWidget"
  | .textbox => "TextboxWidget"

namespace Widget

def mounted (w : Widget) : Bool :=
  w.subscription.isSome

def describe (w : Widget) : String :=
  s!"{w.type.className}(id={Text.quoted w.id})"

/-- A property of a widget, null if it is not given. -/
def prop (w : Widget) (name : String) : Value :=
  (Entries.get? name w.props).getD .null

/-- The options of a dropdown; none if they are not given or blank. -/
def options (w : Widget) : Except Fault (List Value) :=
  let given := w.prop "options"
  if given.isBlank then .ok [] else given.elements

/-- A part of an option, which must be a map. -/
def optionPart (name : String) (default : Value) : Value → Except Fault Value
  | .map entries => .ok ((Entries.get? (Key.text name) entries).getD default)
  | other => .error (.noAttribute other.kind.name "get")

/-- The label of the first option with a value, the empty text if there is none. -/
def labelAmong (value : Value) : List Value → Except Fault Value
  | [] => .ok (.text "")
  | option :: rest =>
    match optionPart "value" .null option with
    | .error fault => .error fault
    -- What is wrong with a later option does not matter.
    | .ok own => if own.same value then optionPart "label" (.text "") option
      else labelAmong value rest

def labelFor (w : Widget) (value : Value) : Except Fault Value :=
  match w.options with
  | .error fault => .error fault
  | .ok options => labelAmong value options

/-- The options as a dropdown shows them: pairs of label and value. -/
def optionPairs : List Value → Except Fault (List Value)
  | [] => .ok []
  | option :: rest =>
    match optionPart "label" (.text "") option, optionPart "value" .null option,
      optionPairs rest with
    | .ok label, .ok value, .ok pairs => .ok (.list [label, value] :: pairs)
    | .error fault, _, _ => .error fault
    | _, .error fault, _ => .error fault
    | _, _, .error fault => .error fault

/-- A part of a data point, which must be a map that has it. -/
def pointPart (name : String) : Value → Except Fault Value
  | .map entries => match Entries.get? (Key.text name) entries with
    | some value => .ok value
    | none => .error (.missing name)
  | .text _ => .error .textIndex
  | .list _ => .error .listIndex
  | other => .error (.notSubscriptable other.kind)

def pointParts (name : String) : List Value → Except Fault (List Value)
  | [] => .ok []
  | point :: rest =>
    match pointPart name point, pointParts name rest with
    | .ok part, .ok parts => .ok (part :: parts)
    | .error fault, _ => .error fault
    | _, .error fault => .error fault

/-- The data points of a chart. A value that is no list has none. -/
def points : Value → List Value
  | .list items => items
  | _ => []

/-- What a widget shows of the value that the store holds for it. -/
def render (w : Widget) (value : Value) : Except Fault Value :=
  match w.type with
  | .button => .ok (.record [("label", (w.prop "label").orElse (.text w.id))])
  | .calendar => .ok (.record [("value", value.orElse (.text ""))])
  | .textbox =>
    .ok (.record [("value", (value.property (some "value")).orElse (.text "")),
      ("placeholder", w.prop "placeholder")])
  | .dropdown =>
    match w.options.bind optionPairs with
    | .error fault => .error fault
    | .ok pairs =>
      .ok (.record [("value", (value.property (some "selected_value")).orElse (.text "")),
        ("placeholder", w.prop "placeholder"), ("options", .list pairs)])
  | .chart =>
    match pointParts "name" (points value), pointParts "value" (points value) with
    | .ok names, .ok values =>
      .ok (.record [("categories", .list names), ("series", .list values)])
    | .error fault, _ => .error fault
    | _, .error fault => .error fault

end Widget
end Patchbay
