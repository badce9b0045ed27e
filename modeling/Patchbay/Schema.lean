import Patchbay.Text.Quoted
import Patchbay.Value

/-!
# Checking documents against a schema

A check reads a value as a typed one or lists what is wrong with it. Parts are checked
independently, so the list names every fault, in the order in which the parts are declared.
-/

namespace Patchbay.Schema

/-- What a value should have been. -/
inductive Complaint where
  | missing
  | text
  | mode
  | componentType
  | map
  | list
  | sequence
  | object
  | immutable
  | boolText
  | bool
  | intText
  | intSize
  | int
  | fractional
  | infinite
  | positive
  | floatText
  | float
  | nonnegative
  deriving DecidableEq, Repr

def Complaint.code : Complaint → String
  | .missing => "missing"
  | .text => "string_type"
  | .mode => "enum"
  | .componentType => "literal_error"
  | .map => "dict_type"
  | .list => "list_type"
  | .sequence => "tuple_type"
  | .object => "model_type"
  | .immutable => "frozen_instance"
  | .boolText => "bool_parsing"
  | .bool => "bool_type"
  | .intText => "int_parsing"
  | .intSize => "int_parsing_size"
  | .int => "int_type"
  | .fractional => "int_from_float"
  | .infinite => "finite_number"
  | .positive => "greater_than"
  | .floatText => "float_parsing"
  | .float => "float_type"
  | .nonnegative => "greater_than_equal"

/-- The bound of words, which are the integers of 64 bits. -/
def wordBound : Nat := 9223372036854775808

def isWord (n : Int) : Bool :=
  -(wordBound : Int) ≤ n && n < wordBound

/-- One step from a value to a part of it. -/
inductive Step where
  | field (name : String)
  | index (i : Int)
  deriving DecidableEq, Repr

structure Issue where
  path : List Step
  complaint : Complaint
  deriving DecidableEq, Repr

/-- Stands in messages where a report of issues could be spelled out. -/
def unspecified : String := "<schema>"

abbrev Checked (α : Type) := Except (List Issue) α

/-- A single issue with the value itself. -/
def refuse {α : Type} (complaint : Complaint) : Checked α :=
  .error [⟨[], complaint⟩]

namespace Checked

/-- Says where the checked part lies. -/
def within {α : Type} (step : Step) : Checked α → Checked α
  | .ok a => .ok a
  | .error issues => .error (issues.map fun issue => { issue with path := step :: issue.path })

/-- Checks two parts and keeps the issues of both. -/
def both {α β γ : Type} (f : α → β → γ) : Checked α → Checked β → Checked γ
  | .ok a, .ok b => .ok (f a b)
  | .ok _, .error issues => .error issues
  | .error issues, .ok _ => .error issues
  | .error first, .error second => .error (first ++ second)

/-- Starts to put a structure together from its parts. -/
def build {α : Type} (make : α) : Checked α :=
  .ok make

/-- Adds the next part to those checked so far. -/
def part {α β : Type} (next : Checked α) (parts : Checked (α → β)) : Checked β :=
  both (fun make a => make a) parts next

/-- Checks all items of a list, numbered from `start` on. -/
def each {α β : Type} (check : α → Checked β) (start : Nat) : List α → Checked (List β)
  | [] => .ok []
  | a :: rest => both List.cons ((check a).within (.index start)) (each check (start + 1) rest)

end Checked

def required {α : Type} (entries : Entries Key Value) (name : String)
    (check : Value → Checked α) : Checked α :=
  Checked.within (.field name) <| match Entries.get? (Key.text name) entries with
    | some v => check v
    | none => refuse .missing

def optional {α : Type} (entries : Entries Key Value) (name : String) (default : α)
    (check : Value → Checked α) : Checked α :=
  match Entries.get? (Key.text name) entries with
  | some v => (check v).within (.field name)
  | none => .ok default

def text : Value → Checked String
  | .text s => .ok s
  | _ => refuse .text

def textOrNull : Value → Checked (Option String)
  | .null => .ok none
  | .text s => .ok (some s)
  | _ => refuse .text

mutual

def shown : Key → String
  | .text s => Text.quoted s
  | .int n => toString n
  | .bool b => if b then "True" else "False"
  | .null => "None"
  | .float x => String.ofList (Decimal.plain.write x)
  | .tuple [part] => "(" ++ shown part ++ ",)"
  | .tuple parts => "(" ++ ", ".intercalate (shownParts parts) ++ ")"

def shownParts : List Key → List String
  | [] => []
  | part :: rest => shown part :: shownParts rest

end

def Step.ofKey : Key → Step
  | .text name => .field name
  | .bool b => .index b.toInt
  -- An integer that is no word is named by its digits.
  | .int n => if isWord n then .index n else .field (shown (.int n))
  | key => .field (shown key)

def keyIssues (entries : Entries Key Value) : List Issue :=
  entries.filterMap fun entry => match entry.1 with
    | .text _ => none
    | key => some ⟨[.ofKey key, .field "[key]"], .text⟩

def fields : Value → Checked (Entries String Value)
  | .map entries =>
    let issues := keyIssues entries
    if issues.isEmpty then
      .ok (entries.filterMap fun entry => match entry.1 with
        | .text name => some (name, entry.2)
        | _ => none)
    else .error issues
  | _ => refuse .map

def object : Value → Checked (Entries Key Value)
  | .map entries => .ok entries
  | _ => refuse .object

end Patchbay.Schema
