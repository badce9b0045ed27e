import Patchbay.Value

/-!
# Sizes of documents

Two measures of nesting: `height` is what a limit is set on, where an empty container is as flat
as a scalar; `nesting` counts containers, empty ones too.
-/

namespace Patchbay.Json

mutual

/-- The number of steps to the deepest value inside. -/
def height : Value → Nat
  | .list items => heightOfItems items
  | .map entries => heightOfEntries entries
  | _ => 0

/-- One more than the greatest height of the items, 0 if there are none. -/
def heightOfItems : List Value → Nat
  | [] => 0
  | v :: rest => max (height v + 1) (heightOfItems rest)

/-- One more than the greatest height of the values, 0 if there are none. -/
def heightOfEntries : List (Key × Value) → Nat
  | [] => 0
  | (_, v) :: rest => max (height v + 1) (heightOfEntries rest)

end

mutual

/-- The greatest number of containers around each other. -/
def nesting : Value → Nat
  | .list items => nestingOfItems items + 1
  | .map entries => nestingOfEntries entries + 1
  | _ => 0

def nestingOfItems : List Value → Nat
  | [] => 0
  | v :: rest => max (nesting v) (nestingOfItems rest)

def nestingOfEntries : List (Key × Value) → Nat
  | [] => 0
  | (_, v) :: rest => max (nesting v) (nestingOfEntries rest)

end

inductive Error where
  | malformed
  /-- The text could not be repaired either. -/
  | unrepairable
  | notMap (found : Kind)
  /-- The text is longer than its limit, in bytes. -/
  | tooLarge (name : String) (size : Nat) (limit : Int)
  /-- The document is nested deeper than its limit. -/
  | tooDeep (depth limit : Int)
  deriving DecidableEq, Repr

/-- Stands in messages where a reader could say at which place a text is malformed. -/
def unspecified : String := "<decoder>"

def Error.message : Error → String
  | .malformed => s!"Invalid JSON: {unspecified}"
  | .unrepairable => s!"JSON repair failed: {unspecified}"
  | .notMap found => s!"Expected dict, got {found.name}"
  | .tooLarge name size limit => s!"{name} size {size} bytes exceeds maximum {limit} bytes"
  | .tooDeep depth limit => s!"JSON nesting depth {depth} exceeds maximum {limit}"

def checkSize (text : String) (limit : Int) (name : String) : Except Error Unit :=
  if limit < text.utf8ByteSize then .error (.tooLarge name text.utf8ByteSize limit) else .ok ()

/-- Refuses a document higher than the limit. The depth it names is the first one past it. -/
def checkDepth (value : Value) (limit : Int) : Except Error Unit :=
  if limit < height value then .error (.tooDeep (max (limit + 1) 0) limit) else .ok ()

end Patchbay.Json
