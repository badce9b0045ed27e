import Patchbay.Entries
import Patchbay.Decimal.Style

/-!
# Values

What a widget stores, a document holds and a handler receives: scalars, lists and ordered maps.
Numbers of all three kinds (truth values included) compare by what they stand for.
-/

namespace Patchbay

/-- A key of a map. Documents only have text keys; a map made in code may have the others. -/
inductive Key where
  | text (s : String)
  | int (n : Int)
  | bool (b : Bool)
  | null
  | float (x : Binary64)
  | tuple (parts : List Key)
  deriving Inhabited

inductive Value where
  | null
  | bool (b : Bool)
  | int (n : Int)
  | float (x : Binary64)
  | text (s : String)
  | list (items : List Value)
  | map (entries : List (Key × Value))
  deriving Inhabited

inductive Numeric where
  | int (n : Int)
  | float (x : Binary64)

/-- Whether two numbers stand for the same number, without rounding either. -/
def Numeric.same : Numeric → Numeric → Bool
  | .int a, .int b => a == b
  | .float x, .float y => x.same y
  | .int a, .float y => y.toInt? == some a
  | .float x, .int b => x.toInt? == some b

namespace Key

def numeric? : Key → Option Numeric
  | .int n => some (.int n)
  | .bool b => some (.int b.toInt)
  | .float x => some (.float x)
  | _ => none

mutual

def same : Key → Key → Bool
  | .text s, .text t => s == t
  | .null, .null => true
  | .tuple xs, .tuple ys => sameAll xs ys
  | .int n, other => numericSame (.int n) other.numeric?
  | .bool b, other => numericSame (.int b.toInt) other.numeric?
  | .float x, other => numericSame (.float x) other.numeric?
  | _, _ => false

def sameAll : List Key → List Key → Bool
  | [], [] => true
  | x :: xs, y :: ys => same x y && sameAll xs ys
  | _, _ => false

/-- Compares with a key that may not be a number. -/
def numericSame (n : Numeric) : Option Numeric → Bool
  | some other => n.same other
  | none => false

end

instance : BEq Key := ⟨same⟩

/-- Only the text itself names the same entry as a text. -/
theorem beq_text_iff (k : Key) (name : String) : (k == .text name) = true ↔ k = .text name := by
  cases k <;> simp [BEq.beq, same, numericSame, numeric?]

theorem get?_put_text {α : Type} (name : String) (value : α) (entries : Entries Key α) :
    Entries.get? (.text name) (Entries.put (.text name) value entries) = some value := by
  induction entries with
  | nil => simp [Entries.put, Entries.get?, beq_text_iff]
  | cons entry rest ih =>
    by_cases h : entry.1 = text name
    · simp [Entries.put, Entries.get?, beq_text_iff, h]
    · simp [Entries.put, Entries.get?, beq_text_iff, h, ih]

theorem get?_put_text_of_ne {α : Type} {name other : String} (ne : other ≠ name) (value : α)
    (entries : Entries Key α) :
    Entries.get? (.text other) (Entries.put (.text name) value entries) =
      Entries.get? (.text other) entries := by
  induction entries with
  | nil => simp [Entries.put, Entries.get?, beq_text_iff, Ne.symm ne]
  | cons entry rest ih =>
    by_cases h : entry.1 = text name
    · simp [Entries.put, Entries.get?, beq_text_iff, h, Ne.symm ne]
    · simp [Entries.put, Entries.get?, beq_text_iff, h, ih]

end Key

/-- The sorts of values, as error messages name them. -/
inductive Kind where
  | null
  | bool
  | int
  | float
  | text
  | list
  | map
  deriving DecidableEq, Repr

def Kind.name : Kind → String
  | .null => "NoneType"
  | .bool => "bool"
  | .int => "int"
  | .float => "float"
  | .text => "str"
  | .list => "list"
  | .map => "dict"

namespace Value

def kind : Value → Kind
  | .null => .null
  | .bool _ => .bool
  | .int _ => .int
  | .float _ => .float
  | .text _ => .text
  | .list _ => .list
  | .map _ => .map

def isNull : Value → Bool
  | .null => true
  | _ => false

/-- Empty values, zeros and null are blank; all others are not. -/
def isBlank : Value → Bool
  | .null => true
  | .bool b => !b
  | .int n => n == 0
  | .float x => x.isZero
  | .text s => s.isEmpty
  | .list items => items.isEmpty
  | .map entries => entries.isEmpty

def orElse (value other : Value) : Value :=
  if value.isBlank then other else value

def numeric? : Value → Option Numeric
  | .int n => some (.int n)
  | .bool b => some (.int b.toInt)
  | .float x => some (.float x)
  | _ => none

def record (fields : List (String × Value)) : Value :=
  .map (fields.map fun field => (.text field.1, field.2))

/-- A map from its entries as they are written, later writes of a key replacing earlier ones. -/
def ofPairs (pairs : List (Key × Value)) : Value :=
  .map (Entries.ofPairs pairs)

def field? (name : String) : Value → Option Value
  | .map entries => Entries.get? (Key.text name) entries
  | _ => none

theorem field?_record (name : String) (fields : List (String × Value)) :
    (record fields).field? name = Entries.get? name fields := by
  simp only [record, field?]
  induction fields with
  | nil => rfl
  | cons field rest ih =>
    have key : (Key.text field.1 == Key.text name) = (field.1 == name) := by
      simp only [BEq.beq, Key.same]
    simp only [List.map_cons, Entries.get?, key, ih]

mutual

/-- Whether two values are equal: numbers by what they stand for, lists place by place, maps
entry by entry in any order. -/
def same : Value → Value → Bool
  | .null, .null => true
  | .text s, .text t => s == t
  | .list xs, .list ys => sameAll xs ys
  | .map xs, .map ys => xs.length == ys.length && sameEntries xs ys
  | .int n, other => Key.numericSame (.int n) other.numeric?
  | .bool b, other => Key.numericSame (.int b.toInt) other.numeric?
  | .float x, other => Key.numericSame (.float x) other.numeric?
  | _, _ => false

def sameAll : List Value → List Value → Bool
  | [], [] => true
  | x :: xs, y :: ys => same x y && sameAll xs ys
  | _, _ => false

/-- Whether every entry of the first map is in the second. -/
def sameEntries : List (Key × Value) → List (Key × Value) → Bool
  | [], _ => true
  | (k, v) :: rest, ys =>
    (match Entries.get? k ys with
      | some w => same v w
      | none => false) && sameEntries rest ys

end

end Value

namespace Key

mutual

def toValue : Key → Value
  | .text s => .text s
  | .int n => .int n
  | .bool b => .bool b
  | .null => .null
  | .float x => .float x
  | .tuple parts => .list (toValues parts)

def toValues : List Key → List Value
  | [] => []
  | part :: rest => toValue part :: toValues rest

end

/-- The key that a value can serve as; collections cannot. -/
def ofValue? : Value → Option Key
  | .text s => some (.text s)
  | .int n => some (.int n)
  | .bool b => some (.bool b)
  | .null => some .null
  | .float x => some (.float x)
  | .list _ => none
  | .map _ => none

end Key
end Patchbay
