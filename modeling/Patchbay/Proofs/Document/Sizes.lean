import Patchbay.Proofs.Document.Decoded
import Patchbay.Proofs.Document.Grammar
import Patchbay.Proofs.Json.Compact

/-!
# The size of a document without a text

A document that is given as a value is measured by the JSON text that would be written for it. If
the compact layout takes the document, this is its compact encoding, the shortest text that it has.
Otherwise, with an integer beyond 64 bits or more than 254 containers around each other, the spaced
text is measured, which is longer: see `Document.value_measured`.
-/

namespace Patchbay

open String (utf8Len utf8Len_append utf8Len_cons utf8Len_nil)

/-- An integer beyond 64 bits is in the value, at any depth. -/
inductive Value.HasWideInteger : Value → Prop
  | here {n : Int} (wide : n < -2 ^ 63 ∨ 2 ^ 64 ≤ n) : HasWideInteger (.int n)
  | item {items : List Value} {v : Value} (member : v ∈ items) (inside : HasWideInteger v) :
    HasWideInteger (.list items)
  | entry {entries : List (Key × Value)} {k : Key} {v : Value} (member : (k, v) ∈ entries)
    (inside : HasWideInteger v) : HasWideInteger (.map entries)

namespace Json

/-! ## What the compact layout takes -/

theorem isWord_iff (n : Int) : isWord n = true ↔ ¬(n < -2 ^ 63 ∨ 2 ^ 64 ≤ n) := by
  simp only [isWord, Bool.and_eq_true, decide_eq_true_eq]
  omega

theorem arePlain_iff (items : List Value) :
    arePlain items = true ↔ ∀ v ∈ items, isPlain v = true := by
  induction items with
  | nil => simp [arePlain]
  | cons v rest ih => simp [arePlain, ih]

theorem haveTextKeys_iff (fields : List (String × Value)) :
    haveTextKeys (fields.map fun field => (.text field.1, field.2)) = true ↔
      ∀ field ∈ fields, isPlain field.2 = true := by
  induction fields with
  | nil => simp [haveTextKeys]
  | cons field rest ih =>
    rw [List.map_cons, haveTextKeys, Bool.and_eq_true, ih, List.forall_mem_cons]

/-- Where all keys are texts, only the integers count. -/
theorem isPlain_iff {v : Value} (textual : v.Textual) :
    isPlain v = true ↔ ¬v.HasWideInteger := by
  induction textual with
  | null | bool | float | text =>
    simp only [isPlain, true_iff]
    rintro ⟨⟩
  | int n =>
    rw [isPlain, isWord_iff, not_iff_not]
    constructor
    · exact .here
    · rintro ⟨wide⟩
      exact wide
  | list _ ih =>
    rw [isPlain, arePlain_iff]
    constructor
    · intro plain wide
      cases wide with
      | item member inside => exact (ih _ member).mp (plain _ member) inside
    · intro narrow v member
      exact (ih v member).mpr fun inside => narrow (.item member inside)
  | map _ _ ih =>
    rw [Value.record, isPlain, haveTextKeys_iff]
    constructor
    · intro plain wide
      cases wide with
      | entry member inside =>
        obtain ⟨field, given, same⟩ := List.mem_map.mp member
        cases same
        exact (ih field given).mp (plain field given) inside
    · intro narrow field member
      refine (ih field member).mpr fun inside => narrow ?_
      exact .entry (List.mem_map_of_mem member) inside

theorem isCompact_iff {v : Value} (textual : v.Textual) :
    isCompact v = true ↔ ¬v.HasWideInteger ∧ nesting v ≤ 254 := by
  rw [isCompact, Bool.and_eq_true, isPlain_iff textual, decide_eq_true_eq, compactNesting]

/-! ## Compact and spaced texts -/

/-- The compact encoding as a text. -/
def compactText (v : Value) : String :=
  String.ofList (encoding v)

theorem utf8ByteSize_compactText (v : Value) :
    (compactText v).utf8ByteSize = utf8Len (encoding v) :=
  String.utf8ByteSize_ofList _

/-- The encoding of a map stands for that map. -/
theorem readMap_compactText {v : Value} (exact_value : v.Exact) (textual : v.Textual)
    (map : v.kind = .map) : readMap (compactText v) = .ok v := by
  cases v with
  | map entries =>
    have read := readMap_of_print? regular_compact exact_value (print?_compact 0 _ exact_value)
    rwa [textual.reread_eq] at read
  | null | bool | int | float | text | list => cases map

/-- What stands around the first of several texts in brackets does not depend on it. -/
theorem exists_bracket_cons (layout : Layout) (level : Nat) (opening closing : Char)
    (texts : List (List Char)) : ∃ front back, ∀ text,
      bracket layout level opening closing (text :: texts) = front ++ (text ++ back) := by
  let inner := lineBreak layout.indent (level + 1)
  let separator := layout.comma.toList ++ inner
  let last := lineBreak layout.indent level ++ [closing]
  cases texts with
  | nil =>
    refine ⟨opening :: inner, last, fun text => ?_⟩
    simp [bracket, inner, last]
  | cons next others =>
    refine ⟨opening :: inner, separator ++ separator.intercalate (next :: others) ++ last,
      fun text => ?_⟩
    simp [bracket, inner, separator, last, List.intercalate_cons_cons]

/-- A map with entries takes more bytes in the spaced layout. -/
theorem encoding_lt_spaced {entries : List (Key × Value)} (nonempty : entries ≠ [])
    (exact_map : (Value.map entries).Exact) (textual : (Value.map entries).Textual)
    {cs : List Char} (printed : print? (spaced none) 0 (.map entries) = some cs) :
    utf8Len (encoding (.map entries)) < utf8Len cs := by
  cases entries with
  | nil => exact absurd rfl nonempty
  | cons entry rest =>
    obtain ⟨k, v⟩ := entry
    have parts : ∀ entry ∈ (k, v) :: rest, entry.1.Exact ∧ entry.2.Exact := by
      cases exact_map with
      | map keys parts => exact fun entry member => ⟨keys entry member, parts entry member⟩
    rw [List.forall_mem_cons] at parts
    obtain ⟨⟨exact_key, exact_value⟩, others⟩ := parts
    obtain ⟨body, first, reads⟩ := print?_reads (regular_spaced none) 1 v exact_value
    obtain ⟨texts, later, more⟩ := printEntries?_reads (regular_spaced none) 1 rest others
    rw [print?, printEntries?, keyText?_eq_label exact_key, first, later, Option.map_some,
      Option.some.injEq] at printed
    obtain ⟨front, back, around⟩ := exists_bracket_cons (spaced none) 0 '\x7b' '\x7d' texts
    -- without the blank behind its first colon, the text still stands for the map
    have tight : ReadsEntry true (printText true k.label ++ ':' :: body)
        (.text k.label, v.reread) := ⟨k.label, [], body, rfl, by simp [Blank], reads, by simp⟩
    have bytes := ((entries?_loops true).reads_bracket (regular_spaced none) 0
      (.cons tight more)).bytes
    have same : Value.ofPairs ((.text k.label, v.reread) :: Value.rereadEntries rest) =
        .map ((k, v) :: rest) := textual.reread_eq
    have colon : (spaced none).colon.toList = [':', ' '] := by decide
    have ascii : (spaced none).ascii = true := rfl
    have blank : ' '.utf8Size = 1 := rfl
    rw [List.reverse_reverse, same, around] at bytes
    rw [← printed, around, colon, ascii]
    simp only [utf8Len_append, utf8Len_cons, utf8Len_nil, blank] at bytes ⊢
    omega

theorem text?_of_compact {v : Value} (exact_value : v.Exact) (compact_value : isCompact v = true) :
    text? v 0 = some (compactText v) := by
  simp [text?, compact_value, print?_compact 0 v exact_value, compactText]

/-- The text of a map is its compact encoding, or it takes more bytes. -/
theorem utf8ByteSize_text? {v : Value} (exact_value : v.Exact) (textual : v.Textual)
    (map : v.kind = .map) {text : String} (written : text? v 0 = some text) :
    text.utf8ByteSize = (compactText v).utf8ByteSize ↔ isCompact v = true := by
  constructor
  · intro same
    by_contra other
    have layout : text? v 0 = (print? (spaced none) 0 v).map String.ofList := by
      simp [text?, other]
    rw [layout, Option.map_eq_some_iff] at written
    obtain ⟨cs, printed, rfl⟩ := written
    cases v with
    | map entries =>
      have nonempty : entries ≠ [] := by
        rintro rfl
        exact other rfl
      have longer := encoding_lt_spaced nonempty exact_value textual printed
      rw [utf8ByteSize_compactText, String.utf8ByteSize_ofList] at same
      omega
    | null | bool | int | float | text | list => cases map
  · intro compact_value
    rw [text?_of_compact exact_value compact_value, Option.some.injEq] at written
    rw [written]

end Json

/-! ## The limit on the size -/

namespace Document

/-- A value that is given without a text is refused for its size. -/
def TooLarge (limits : Limits) (v : Value) : Prop :=
  ∃ name size limit, ofValue limits v "" = .error (.documentLimit (.tooLarge name size limit))

/-- The limit is compared with this size, and the refusal names it. -/
structure Measured (v : Value) (size : Nat) : Prop where
  refused : ∀ limits : Limits, limits.size < size →
    ofValue limits v "" = .error (.documentLimit (.tooLarge "Page config" size limits.size))
  passed : ∀ limits : Limits, size ≤ limits.size → ¬TooLarge limits v

theorem Measured.tooLarge_iff {v : Value} {size : Nat} (measured : Measured v size)
    (limits : Limits) : TooLarge limits v ↔ limits.size < size := by
  constructor
  · intro refused
    by_contra within
    exact measured.passed limits (by omega) refused
  · intro exceeds
    exact ⟨_, _, _, measured.refused limits exceeds⟩

theorem checkHasSection_ne_limit (v : Value) (name : String) (cause : Json.Error) :
    checkHasSection v name ≠ .error (.documentLimit cause) := by
  unfold checkHasSection
  split <;> nofun

/-- Only a size beyond the limit is refused as such. -/
theorem lt_of_checkShape {limits : Limits} {v : Value} {text name : String} {size : Nat}
    {limit : Int}
    (refused : checkShape limits v text = .error (.documentLimit (.tooLarge name size limit))) :
    limits.size < text.utf8ByteSize := by
  rw [checkShape_eq] at refused
  split at refused
  · next exceeds => exact exceeds
  · split at refused
    · cases refused
    · split at refused
      · next first =>
        cases refused
        exact absurd first (checkHasSection_ne_limit v _ _)
      · exact absurd refused (checkHasSection_ne_limit v _ _)

/-- What is measured is the text that would be written. -/
theorem measured_of_text {v : Value} {text : String} (written : Json.text? v 0 = some text) :
    Measured v text.utf8ByteSize := by
  have own (limits : Limits) : ofValue limits v "" = accept limits v text := by
    rw [ofValue_eq, written]
    rfl
  constructor
  · intro limits exceeds
    rw [own, accept, checkShape_eq, if_pos exceeds]
  · rintro limits within ⟨name, size, limit, refused⟩
    rw [own] at refused
    unfold accept at refused
    split at refused
    · next cause shape =>
      cases refused
      have exceeds := lt_of_checkShape shape
      omega
    · split at refused
      · cases refused
      · dsimp only at refused
        split at refused <;> cases refused

/-- **The limit on the size of a document that is given as a value is set on its compact encoding,
exactly if the compact layout takes the document**: if all integers fit 64 bits and no more than 254
containers are around each other. The compact encoding is the shortest of all texts that stand for
the document. What is measured in any case is the text that would be written, so a document that
would fit may be refused, and none that does not fit is accepted. The document is a map with text
keys at every depth and without floating point numbers. -/
theorem value_measured {v : Value} (exact_value : v.Exact) (textual : v.Textual)
    (map : v.kind = .map) :
    Json.readMap (Json.compactText v) = .ok v ∧
    (∀ text, Json.readMap text = .ok v →
      (Json.compactText v).utf8ByteSize ≤ text.utf8ByteSize) ∧
    ((∀ limits : Limits, TooLarge limits v ↔ limits.size < (Json.compactText v).utf8ByteSize) ↔
      ¬v.HasWideInteger ∧ Json.nesting v ≤ 254) ∧
    ∃ text, Json.text? v 0 = some text ∧ Measured v text.utf8ByteSize ∧
      (Json.compactText v).utf8ByteSize ≤ text.utf8ByteSize := by
  have least (text : String) (read : Json.readMap text = .ok v) :
      (Json.compactText v).utf8ByteSize ≤ text.utf8ByteSize := by
    rw [Json.utf8ByteSize_compactText]
    exact Json.encoding_least read
  obtain ⟨text, written, read⟩ := Json.own_text exact_value textual map
  have measured := measured_of_text written
  refine ⟨Json.readMap_compactText exact_value textual map, least, ?_, text, written, measured,
    least text read⟩
  rw [← Json.isCompact_iff textual, ← Json.utf8ByteSize_text? exact_value textual map written]
  constructor
  · intro exactly
    -- a limit that the compact encoding reaches
    have within := exactly ⟨(Json.compactText v).utf8ByteSize, 0⟩
    rw [measured.tooLarge_iff] at within
    have shortest := least text read
    dsimp only at within
    omega
  · intro same limits
    rw [measured.tooLarge_iff, same]

/-- A document with a character of two bytes, one that is escaped by a letter and one that is
escaped by its code, and with the greatest integer of 64 bits. -/
def accented : Value :=
  .record [("components", .list []), ("bindings", .list []),
    ("é\n", .list [.int 18446744073709551615, .text "\x1f"])]

/-- All of its 70 bytes are needed. -/
theorem value_measured_accented : (accented.Exact ∧ accented.Textual ∧ accented.kind = .map) ∧
    TooLarge ⟨69, 20⟩ accented ∧ ¬TooLarge ⟨70, 20⟩ accented := by
  have exact_value : accented.Exact := Value.exact_record (by
    simpa using ⟨.list (List.forall_mem_nil _), .list (by simpa using ⟨.int _, .text _⟩)⟩)
  have textual : accented.Textual := .map (by decide) (by
    simpa using ⟨.list (List.forall_mem_nil _), .list (by simpa using ⟨.int _, .text _⟩)⟩)
  obtain ⟨-, -, exactly, -⟩ := value_measured exact_value textual rfl
  have taken : Json.isCompact accented = true := by decide +kernel
  have limit := exactly.mpr ((Json.isCompact_iff textual).mp taken)
  have bytes : (Json.compactText accented).utf8ByteSize = 70 := by decide +kernel
  refine ⟨⟨exact_value, textual, rfl⟩, ?_, ?_⟩
  · rw [limit, bytes]
    decide
  · rw [limit, bytes]
    decide

/-- A document with an integer that needs 65 bits. -/
def surplus : Value :=
  .record [("bindings", .list []), ("components", .list []), ("n", .int 18446744073709551616)]

/-- The spaced text of a document is measured where its compact encoding would be within the
limit. -/
theorem wide_document_refused :
    ¬(TooLarge ⟨56, 20⟩ surplus ↔ (56 : Int) < (Json.compactText surplus).utf8ByteSize) := by
  have compact : (Json.compactText surplus).utf8ByteSize = 56 := by decide +kernel
  have spaced : (Json.text? surplus 0).map String.utf8ByteSize = some 61 := by decide +kernel
  obtain ⟨text, written, size⟩ := Option.map_eq_some_iff.mp spaced
  have measured := measured_of_text written
  rw [measured.tooLarge_iff, size, compact]
  decide

end Document
end Patchbay
