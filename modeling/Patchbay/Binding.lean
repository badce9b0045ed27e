import Patchbay.Fault
import Patchbay.Rule
import Patchbay.Template
import Patchbay.Text.Blank

/-!
# Bindings

A binding wires a property of a source widget to a property of a target widget. A direct one
fires when the source changes, an indirect one when another widget is clicked. Each binding
becomes one rule with one action. An indirect binding that names no widget to click is dead: a
strict compilation refuses it, any other reports it and makes its rule all the same.
-/

namespace Patchbay

inductive Mode where
  | direct
  | indirect
  deriving DecidableEq, Repr

structure Binding where
  source : String
  target : String
  mode : Mode
  via : Option String
  sourceProperty : Option String
  targetProperty : Option String
  deriving DecidableEq

namespace Mode

def name : Mode → String
  | .direct => "direct"
  | .indirect => "indirect"

def check : Value → Schema.Checked Mode
  | .text "direct" => .ok .direct
  | .text "indirect" => .ok .indirect
  | _ => Schema.refuse .mode

end Mode

namespace Binding

/-- Reads a property name that has two spellings. The hyphenated one counts if it is there. -/
def checkProperty (entries : Entries Key Value) (hyphenated plain : String) :
    Schema.Checked (Option String) :=
  if Entries.has (Key.text hyphenated) entries then
    Schema.optional entries hyphenated none Schema.textOrNull
  else Schema.optional entries plain none Schema.textOrNull

def check (value : Value) : Schema.Checked Binding :=
  match Schema.object value with
  | .error issues => .error issues
  | .ok entries =>
    Schema.Checked.build Binding.mk
      |> Schema.Checked.part (Schema.required entries "source" Schema.text)
      |> Schema.Checked.part (Schema.required entries "target" Schema.text)
      |> Schema.Checked.part (Schema.required entries "mode" Mode.check)
      |> Schema.Checked.part (Schema.optional entries "via" none Schema.textOrNull)
      |> Schema.Checked.part (checkProperty entries "source-property" "source_property")
      |> Schema.Checked.part (checkProperty entries "target-property" "target_property")

/-- Whether a binding is indirect and names no widget to click. -/
def isDead (b : Binding) : Bool :=
  b.mode = .indirect && (Text.trim (b.via.getD "").toList).isEmpty

/-- A property name without blanks at its ends, `value` if nothing is left. -/
def propertyName (given : Option String) : String :=
  let name := Text.trimmed (given.getD "")
  if name.isEmpty then "value" else name

/-- The trigger that sets a binding off. The trigger of an indirect binding without a widget is
written with `None` in its place. -/
def trigger (b : Binding) : String :=
  match b.mode with
  | .direct => s!"{b.source}.onChange"
  | .indirect =>
    let via := b.via.getD "None"
    s!"{via}.onClick"

def expression (b : Binding) : String :=
  String.ofList (Template.token
    (b.source.toList ++ '.' :: (propertyName b.sourceProperty).toList))

/-- The action that writes the target: its text if that is the property asked for, else its
value. -/
def action (b : Binding) : Action :=
  if propertyName b.targetProperty = "text" then
    ⟨"setText", b.target, [("text", .text b.expression)]⟩
  else ⟨"setValue", b.target, [("value", .text b.expression)]⟩

def rule (b : Binding) : Rule :=
  ⟨b.trigger, [b.action]⟩

/-- The first dead binding of a list, with its place. -/
def firstDead? (start : Nat) : List Binding → Option (Nat × Binding)
  | [] => none
  | b :: rest => if b.isDead then some (start, b) else firstDead? (start + 1) rest

/-- What is wrong with a list of bindings: the cause, where it stands, and what stands there. -/
structure Malformed where
  cause : Invalid
  field : String
  value : Option String

/-- Checks bindings for dead ones, of which the first is reported. -/
def validate (bindings : List Binding) : Except Malformed (List Binding) :=
  match firstDead? 0 bindings with
  | some (i, b) => .error ⟨.deadBinding b.source b.target, s!"bindings[{i}].via", b.via⟩
  | none => .ok bindings

/-- Compiles bindings to rules, one each, in order. A strict compilation refuses dead ones. -/
def compile (strict : Bool) (bindings : List Binding) : Except Invalid (List Rule) :=
  match if strict then firstDead? 0 bindings else none with
  | some (_, b) => .error (.deadBinding b.source b.target)
  | none => .ok (bindings.map rule)

/-- Reads bindings one after another, up to the first that is refused. -/
def checkList (start : Nat) : List Value → Except Invalid (List Binding)
  | [] => .ok []
  | v :: rest =>
    match check v with
    | .error issues => .error (.binding start issues)
    | .ok b => (checkList (start + 1) rest).map (b :: ·)

def toValue (b : Binding) : Value :=
  let text? (s : Option String) : Value := (s.map Value.text).getD .null
  .record [("source", .text b.source), ("target", .text b.target), ("mode", .text b.mode.name),
    ("via", text? b.via), ("source_property", text? b.sourceProperty),
    ("target_property", text? b.targetProperty)]

end Binding
end Patchbay
