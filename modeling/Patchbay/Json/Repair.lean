import Patchbay.Json.Reader

/-!
# Reading broken JSON

A forgiving reader for the faults that hand-written documents have: a comma before a closing
bracket, brackets and quotes that are never closed, and keys without quotes. What stands before
the first bracket is passed over; a text without brackets cannot be repaired.
-/

namespace Patchbay.Json

/-- Reads the rest of a text after its opening quote; the end of the document closes it. -/
def looseText (cs : List Char) : String × List Char :=
  match textRest none [] cs with
  | some read => read
  | none => (String.ofList (cs.takeWhile (· != '"')), (cs.dropWhile (· != '"')).drop 1)

def endsWord (c : Char) : Bool :=
  c == ',' || c == ':' || c == '\x7b' || c == '\x7d' || c == '[' || c == ']' || c == '"'

def wordValue (cs : List Char) : Value :=
  match cs with
  | ['t', 'r', 'u', 'e'] => .bool true
  | ['f', 'a', 'l', 's', 'e'] => .bool false
  | ['n', 'u', 'l', 'l'] => .null
  | cs => match number? cs with
    | some (v, []) => v
    | _ => .text (String.ofList cs)

def looseKey : List Char → String × List Char
  | '"' :: rest => looseText rest
  | cs =>
    let word := cs.takeWhile fun c => !endsWord c
    (String.ofList (Text.trim word), cs.drop word.length)

mutual

def looseValue : Nat → List Char → Value × List Char
  | 0, _ => (.null, [])
  | fuel + 1, cs =>
    match cs with
    | '\x7b' :: rest => looseEntries fuel [] (skip rest)
    | '[' :: rest => looseItems fuel [] (skip rest)
    | '"' :: rest =>
      let (s, rest) := looseText rest
      (.text s, rest)
    | cs =>
      let word := cs.takeWhile fun c => !endsWord c
      (if word.isEmpty then .text "" else wordValue (Text.trim word), cs.drop word.length)

/-- Reads the items of a list up to its closing bracket or the end of the text. -/
def looseItems : Nat → List Value → List Char → Value × List Char
  | 0, read, _ => (.list read.reverse, [])
  | fuel + 1, read, cs =>
    match cs with
    | [] => (.list read.reverse, [])
    | ']' :: rest => (.list read.reverse, rest)
    -- A bracket of the other sort ends the list and is left to the map around it.
    | '\x7d' :: rest => (.list read.reverse, '\x7d' :: rest)
    | ',' :: rest => looseItems fuel read (skip rest)
    | ':' :: rest => looseItems fuel read (skip rest)
    | cs =>
      let (v, rest) := looseValue fuel cs
      looseItems fuel (v :: read) (skip rest)

/-- Reads the entries of a map up to its closing bracket or the end of the text. -/
def looseEntries : Nat → List (Key × Value) → List Char → Value × List Char
  | 0, read, _ => (Value.ofPairs read.reverse, [])
  | fuel + 1, read, cs =>
    match cs with
    | [] => (Value.ofPairs read.reverse, [])
    | '\x7d' :: rest => (Value.ofPairs read.reverse, rest)
    | ']' :: rest => (Value.ofPairs read.reverse, ']' :: rest)
    | ',' :: rest => looseEntries fuel read (skip rest)
    | cs =>
      let (key, rest) := looseKey cs
      match skip rest with
      | ':' :: rest =>
        let (v, rest) := looseValue fuel (skip rest)
        looseEntries fuel ((.text key, v) :: read) (skip rest)
      -- A key without a value is dropped. Without a key either, a character is passed over.
      | rest => looseEntries fuel read (rest.drop (if key.isEmpty then 1 else 0))

end

def isOpening (c : Char) : Bool := c == '\x7b' || c == '['

/-- Reads the first container of a text, however broken. -/
def repair? (cs : List Char) : Option Value :=
  match cs.dropWhile fun c => !isOpening c with
  | [] => none
  | start => some (looseValue (2 * start.length + 1) start).1

/-- Reads a document and, if asked to, repairs one that is malformed. -/
def readMapOrRepair (repair : Bool) (text : String) : Except Error Value :=
  match readMap text with
  | .error .malformed =>
    if repair then
      match repair? text.toList with
      | some value => asMap value
      | none => .error .unrepairable
    else .error .malformed
  | result => result

end Patchbay.Json
