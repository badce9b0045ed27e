import Patchbay.Binding
import Patchbay.Json.Printer
import Patchbay.Json.Repair

/-!
# Page documents

A page document declares the components of a page and the bindings between them. It is read from
a JSON text or from a map, under a limit on its size and one on its height, and no two components
may share an id.
-/

namespace Patchbay

inductive ComponentType where
  | calendar
  | button
  | chart
  | dropdown
  | textbox
  deriving DecidableEq, Repr

namespace ComponentType

def name : ComponentType → String
  | .calendar => "calendar"
  | .button => "button"
  | .chart => "chart"
  | .dropdown => "dropdown"
  | .textbox => "textbox"

def ofName? : String → Option ComponentType
  | "calendar" => some .calendar
  | "button" => some .button
  | "chart" => some .chart
  | "dropdown" => some .dropdown
  | "textbox" => some .textbox
  | _ => none

def check : Value → Schema.Checked ComponentType
  | .text s => match ofName? s with
    | some t => .ok t
    | none => Schema.refuse .componentType
  | _ => Schema.refuse .componentType

end ComponentType

structure Component where
  id : String
  type : ComponentType
  props : Entries String Value

structure Document where
  components : List Component
  bindings : List Binding

namespace Component

def check (value : Value) : Schema.Checked Component :=
  match Schema.object value with
  | .error issues => .error issues
  | .ok entries =>
    Schema.Checked.build Component.mk
      |> Schema.Checked.part (Schema.required entries "id" Schema.text)
      |> Schema.Checked.part (Schema.required entries "type" ComponentType.check)
      |> Schema.Checked.part (Schema.optional entries "props" [] Schema.fields)

def toValue (c : Component) : Value :=
  .record [("id", .text c.id), ("type", .text c.type.name), ("props", .record c.props)]

end Component

structure Limits where
  size : Int
  depth : Int

def Limits.standard : Limits := ⟨512 * 1024, 20⟩

namespace Document

/-- Reads a section whose items are read by `check`. -/
def checkSection {α : Type} (check : Value → Schema.Checked α) :
    Value → Schema.Checked (List α)
  | .list items => Schema.Checked.each check 0 items
  | _ => Schema.refuse .list

/-- Reads a document without regard to limits. -/
def check (value : Value) : Schema.Checked Document :=
  match Schema.object value with
  | .error issues => .error issues
  | .ok entries =>
    Schema.Checked.build Document.mk
      |> Schema.Checked.part
        (Schema.optional entries "components" [] (checkSection Component.check))
      |> Schema.Checked.part (Schema.optional entries "bindings" [] (checkSection Binding.check))

/-- Refuses a document without a section, or with one that is no list. -/
def checkHasSection (value : Value) (name : String) : Except Invalid Unit :=
  match value.field? name with
  | none => .error (.sectionMissing name)
  | some (.list _) => .ok ()
  | some _ => .error (.sectionNotList name)

/-- Refuses a document over its limits, then one without its two sections. -/
def checkShape (limits : Limits) (value : Value) (text : String) : Except Invalid Unit := do
  match Json.checkSize text limits.size "Page config" with
  | .error e => throw (.documentLimit e)
  | .ok () => pure ()
  match Json.checkDepth value limits.depth with
  | .error e => throw (.documentLimit e)
  | .ok () => pure ()
  checkHasSection value "components"
  checkHasSection value "bindings"

def occursIn (part : List Char) : List Char → Bool
  | [] => part.isEmpty
  | c :: rest => part.isPrefixOf (c :: rest) || occursIn part rest

/-- What goes wrong when a section is looked up in a value that is no map: a list or a text that
seems to hold it has no parts by name, and scalars hold nothing. -/
def lookupFault? (name : String) : Value → Option Fault
  | .map _ => none
  | .list items => if items.any (Value.same (.text name)) then some .listIndex else none
  | .text s => if occursIn name.toList s.toList then some .textIndex else none
  | other => some (.notContainer other.kind)

/-- A refusal of a value that need not be a map. -/
def faultOf (value : Value) : Invalid → Fault
  | .sectionMissing name => (lookupFault? name value).getD (.invalid (.sectionMissing name))
  | cause => .invalid cause

/-- The entry that the item at `index` in a list of pairs stands for. -/
def pairOf (index : Nat) (item : Value) : Except Fault (Key × Value) :=
  match item.elements with
  | .error _ => .error (.notPair index)
  | .ok [name, value] => match Key.ofValue? name with
    | some key => .ok (key, value)
    | none => .error (.unhashable name.kind)
  | .ok parts => .error (.pairLength index parts.length)

/-- The entries of a list of pairs, its items numbered from `index` on. -/
def pairsOf (index : Nat) : List Value → Except Fault (List (Key × Value))
  | [] => .ok []
  | item :: rest => do
    let pair ← pairOf index item
    let pairs ← pairsOf (index + 1) rest
    pure (pair :: pairs)

/-- A map, which may be given as a list of pairs. -/
def asMap : Value → Except Fault Value
  | .map entries => .ok (.map entries)
  | value => do
    let items ← value.elements
    let pairs ← pairsOf 0 items
    pure (Value.ofPairs pairs)

/-- The ids that occur more than once, sorted, each once. -/
def sharedIds (ids : List String) : List String :=
  -- Once they are sorted, equal ids stand side by side.
  ((ids.filter fun id => 1 < ids.count id).mergeSort (fun a b => a ≤ b)).eraseReps

/-- Reads a document under limits. The size is that of its text, or of its JSON text if none is
given. -/
def ofValue (limits : Limits) (value : Value) (text : String) : Except Invalid Document := do
  let text ← if text.isEmpty then
      match Json.text? value 0 with
      | some text => pure text
      | none => throw .documentKeys
    else pure text
  checkShape limits value text
  match check value with
  | .error issues => throw (.document issues)
  | .ok document =>
    let shared := sharedIds (document.components.map Component.id)
    if shared.isEmpty then pure document else throw (.sharedIds shared)

/-- Reads a document from its JSON text, which may be repaired first. -/
def ofText (limits : Limits) (repair : Bool) (text : String) : Except Invalid Document :=
  match Json.readMapOrRepair repair text with
  | .error e => .error (.documentText e)
  | .ok value => ofValue limits value text

def toValue (document : Document) : Value :=
  .record [("components", .list (document.components.map Component.toValue)),
    ("bindings", .list (document.bindings.map Binding.toValue))]

end Document
end Patchbay
