import Patchbay.Json.Repair
import Patchbay.Proofs.Json.Made
import Patchbay.Proofs.Json.Scalars
import Patchbay.Proofs.Json.TupleKeys
import Mathlib.Data.List.Forall2

/-!
# Documents that are written and read

A map without floating point numbers and tuples is read back from its text, whichever of the two
layouts it is written in and however it is indented (`Json.text?_read_back`). Both layouts only
differ in blanks, which the reader skips, and in escapes, which it takes back. It does so with two
units of fuel for each character (`Json.Reads`), so that its own fuel is enough for the whole text.
-/

namespace Patchbay

/-! ## What is kept of a value -/

/-- A key that is no floating point number and no tuple. -/
inductive Key.Exact : Key → Prop
  | text (s : String) : Exact (.text s)
  | int (n : Int) : Exact (.int n)
  | bool (b : Bool) : Exact (.bool b)
  | null : Exact .null

/-- A value without floating point numbers and tuples, at any depth. -/
inductive Value.Exact : Value → Prop
  | null : Exact .null
  | bool (b : Bool) : Exact (.bool b)
  | int (n : Int) : Exact (.int n)
  | text (s : String) : Exact (.text s)
  | list {items : List Value} (parts : ∀ v ∈ items, Exact v) : Exact (.list items)
  | map {entries : List (Key × Value)} (keys : ∀ entry ∈ entries, entry.1.Exact)
    (parts : ∀ entry ∈ entries, Exact entry.2) : Exact (.map entries)

/-- What a key is called in a document. A tuple has no name there. -/
def Key.label : Key → String
  | .text s => s
  | .int n => toString n
  | .bool true => "true"
  | .bool false => "false"
  | .null => "null"
  | .float x => String.ofList (Json.spacedNumbers.write x)
  | .tuple _ => ""

namespace Value

mutual

/-- What is left of a value in a document: all keys are texts there. Of entries that come to have
the same key, the last one counts, at the place of the first. -/
def reread : Value → Value
  | .list items => .list (rereadItems items)
  | .map entries => .ofPairs (rereadEntries entries)
  | v => v

def rereadItems : List Value → List Value
  | [] => []
  | v :: rest => reread v :: rereadItems rest

def rereadEntries : List (Key × Value) → List (Key × Value)
  | [] => []
  | (k, v) :: rest => (.text k.label, reread v) :: rereadEntries rest

end

theorem rereadItems_eq (items : List Value) : rereadItems items = items.map reread := by
  induction items with
  | nil => rfl
  | cons v rest ih => rw [rereadItems, ih, List.map_cons]

theorem rereadEntries_eq (entries : List (Key × Value)) :
    rereadEntries entries = entries.map fun entry => (.text entry.1.label, entry.2.reread) := by
  induction entries with
  | nil => rfl
  | cons entry rest ih => rw [rereadEntries, ih, List.map_cons]

/-- Nothing changes where all keys are texts already. -/
theorem Textual.reread_eq {v : Value} (textual : v.Textual) : v.reread = v := by
  induction textual with
  | null | bool | int | float | text => rfl
  | list _ ih => rw [reread, rereadItems_eq, List.map_congr_left ih, List.map_id']
  | @map fields distinct _ ih =>
    have same : rereadEntries (fields.map fun field => (.text field.1, field.2)) =
        fields.map fun field => (.text field.1, field.2) := by
      rw [rereadEntries_eq, List.map_map]
      refine List.map_congr_left fun field member => ?_
      exact congrArg (Prod.mk (Key.text field.1)) (ih field member)
    rw [record, reread, same, ofPairs_text, Entries.ofPairs_of_nodup distinct, record]

end Value

namespace Json

/-! ## Blanks -/

/-- The text is made of blanks that may stand between values. -/
def Blank (gap : List Char) : Prop :=
  ∀ c ∈ gap, isSpace c = true

theorem Blank.append {gap more : List Char} (first : Blank gap) (second : Blank more) :
    Blank (gap ++ more) :=
  List.forall_mem_append.mpr ⟨first, second⟩

theorem skip_blank {gap : List Char} (blank : Blank gap) (rest : List Char) :
    skip (gap ++ rest) = skip rest :=
  List.dropWhile_append_of_pos blank

theorem skip_of_head {cs : List Char} {c : Char} (first : c ∈ cs.head?)
    (visible : isSpace c = false) : skip cs = cs := by
  cases cs with
  | nil => rfl
  | cons c rest =>
    cases first
    simp [skip, visible]

theorem blank_lineBreak (indent : Option Nat) (level : Nat) : Blank (lineBreak indent level) := by
  intro c member
  cases indent with
  | none => cases member
  | some width =>
    rcases List.mem_cons.mp member with rfl | member
    · decide
    · rw [List.eq_of_mem_replicate member]
      decide

/-- Commas and colons are followed by blanks at most. -/
structure Regular (layout : Layout) : Prop where
  comma : ∃ gap, Blank gap ∧ layout.comma.toList = ',' :: gap
  colon : ∃ gap, Blank gap ∧ layout.colon.toList = ':' :: gap

theorem regular_compact : Regular compact where
  comma := ⟨[], by simp [Blank], rfl⟩
  colon := ⟨[], by simp [Blank], rfl⟩

theorem regular_spaced (indent : Option Nat) : Regular (spaced indent) where
  comma := by
    cases indent with
    | none => exact ⟨[' '], by simp [Blank, isSpace], by decide⟩
    | some width => exact ⟨[], by simp [Blank], by simp [spaced]⟩
  colon := ⟨[' '], by simp [Blank, isSpace], by simp [spaced]⟩

/-- A number ends where a blank, a comma or a closing bracket follows. -/
theorem ends_of_head {c : Char} {rest : List Char}
    (stop : isSpace c = true ∨ c ∈ [',', ']', '\x7d']) : Ends (c :: rest) := by
  intro c' first
  cases first
  simp only [isSpace, Bool.or_eq_true, beq_iff_eq, List.mem_cons, List.not_mem_nil,
    or_false] at stop
  rcases stop with (((rfl | rfl) | rfl) | rfl) | rfl | rfl | rfl <;> decide

theorem Blank.ends {gap : List Char} (blank : Blank gap) {c : Char} {rest : List Char}
    (stop : c ∈ [',', ']', '\x7d']) : Ends (gap ++ c :: rest) := by
  cases gap with
  | nil => exact ends_of_head (.inr stop)
  | cons first gap => exact ends_of_head (.inl (blank first List.mem_cons_self))

/-! ## Values -/

/-- Reading this text gives the value, whatever follows, with two units of fuel for each
character. -/
structure Reads (cs : List Char) (v : Value) : Prop where
  start : ∃ c ∈ cs.head?, isSpace c = false ∧ c ≠ ']'
  read : ∀ {fuel : Nat} {rest : List Char}, 2 * cs.length ≤ fuel + 1 → Ends rest →
    value? fuel (cs ++ rest) = some (v, rest)

theorem reads_of_succ {cs : List Char} {v : Value}
    (start : ∃ c ∈ cs.head?, isSpace c = false ∧ c ≠ ']')
    (read : ∀ fuel rest, 2 * cs.length ≤ fuel + 2 → Ends rest →
      value? (fuel + 1) (cs ++ rest) = some (v, rest)) : Reads cs v := by
  refine ⟨start, fun {fuel rest} enough ends => ?_⟩
  obtain ⟨c, first, -⟩ := start
  have pos : 0 < cs.length := List.length_pos_of_mem (List.mem_of_mem_head? first)
  obtain ⟨fuel, rfl⟩ : ∃ less, fuel = less + 1 := ⟨fuel - 1, by omega⟩
  exact read fuel rest enough ends

theorem reads_null : Reads ['n', 'u', 'l', 'l'] .null :=
  reads_of_succ ⟨'n', rfl, by decide⟩ fun _ _ _ _ => rfl

theorem reads_bool (b : Bool) :
    Reads (if b then ['t', 'r', 'u', 'e'] else ['f', 'a', 'l', 's', 'e']) (.bool b) := by
  cases b with
  | true => exact reads_of_succ ⟨'t', rfl, by decide⟩ fun _ _ _ _ => rfl
  | false => exact reads_of_succ ⟨'f', rfl, by decide⟩ fun _ _ _ _ => rfl

/-- What a number starts with starts no other value, and no value is missing there. -/
theorem number_head {c : Char} (first : c = '-' ∨ isDigit c = true) :
    c ∉ ['\x7b', '[', '"', 't', 'f', 'n'] ∧ isSpace c = false ∧ c ≠ ']' := by
  refine ⟨fun other => ?_, ?_, ?_⟩
  · simp only [List.mem_cons, List.not_mem_nil, or_false] at other
    rcases other with rfl | rfl | rfl | rfl | rfl | rfl <;> revert first <;> decide
  · by_contra space
    simp only [isSpace, Bool.not_eq_false, Bool.or_eq_true, beq_iff_eq] at space
    rcases space with ((rfl | rfl) | rfl) | rfl <;> revert first <;> decide
  · rintro rfl
    revert first
    decide

theorem value?_of_number {c : Char} (first : c = '-' ∨ isDigit c = true) (fuel : Nat)
    (cs : List Char) : value? (fuel + 1) (c :: cs) = number? (c :: cs) := by
  have other := (number_head first).1
  simp only [List.mem_cons, List.not_mem_nil, or_false, not_or] at other
  simp [value?, other]

theorem reads_integer (n : Int) : Reads (Decimal.integer n) (.int n) := by
  obtain ⟨c, cs, whole, first⟩ :
      ∃ c cs, Decimal.integer n = c :: cs ∧ (c = '-' ∨ isDigit c = true) := by
    unfold Decimal.integer
    split
    · exact ⟨_, _, rfl, .inl rfl⟩
    · cases digits : Decimal.digits n.natAbs with
      | nil => exact absurd digits (digits_ne_nil _)
      | cons c cs =>
        have member : c ∈ Decimal.digits n.natAbs := by simp [digits]
        exact ⟨c, cs, rfl, .inr (isDigit_of_mem_digits member)⟩
  refine reads_of_succ ⟨c, by rw [whole]; rfl, (number_head first).2⟩ fun fuel rest _ ends => ?_
  have read := number?_integer n ends
  rw [whole, List.cons_append] at read ⊢
  rw [value?_of_number first, read]

theorem reads_text (ascii : Bool) (s : String) : Reads (printText ascii s) (.text s) := by
  refine reads_of_succ ⟨'"', rfl, by decide⟩ fun fuel rest _ _ => ?_
  simp [printText_append, value?, textRest_printed]

/-! ## Lists and maps -/

/-- What stands between two brackets is read by `loop`, one item after the other. `Item` relates
items to their texts, and `make` is given all of them, the last one first. -/
structure Loops {β : Type} (opening closing : Char)
    (loop : Nat → List β → List Char → Option (Value × List Char))
    (make : List β → Value) (Item : List Char → β → Prop) : Prop where
  opens : isSpace opening = false ∧ opening ≠ ']'
  closes : closing ∈ [']', '\x7d']
  start : ∀ {t b}, Item t b → ∃ c ∈ t.head?, isSpace c = false ∧ c ≠ closing
  empty : ∀ {fuel rest}, value? (fuel + 1) (opening :: closing :: rest) = some (make [], rest)
  enter : ∀ {fuel cs c}, c ∈ (skip cs).head? → c ≠ closing →
    value? (fuel + 1) (opening :: cs) = loop fuel [] (skip cs)
  more : ∀ {t b read fuel rest after}, Item t b → 2 * t.length ≤ fuel + 1 → Ends rest →
    skip rest = ',' :: after → loop (fuel + 1) read (t ++ rest) = loop fuel (b :: read) (skip after)
  stop : ∀ {t b read fuel rest after}, Item t b → 2 * t.length ≤ fuel + 1 → Ends rest →
    skip rest = closing :: after →
    loop (fuel + 1) read (t ++ rest) = some (make (b :: read), after)

theorem items?_loops : Loops '[' ']' items? (fun read => .list read.reverse) Reads where
  opens := by decide
  closes := by decide
  start := Reads.start
  empty := rfl
  enter := by
    intro fuel cs c first other
    simp only [value?]
    split
    · next same => simp [same, Ne.symm other] at first
    · rfl
  more := by
    intro t v read fuel rest after reads enough ends comma
    simp [items?, reads.read enough ends, comma]
  stop := by
    intro t v read fuel rest after reads enough ends closed
    simp [items?, reads.read enough ends, closed]

/-- An entry is a text, a colon and the text of its value. -/
def ReadsEntry (ascii : Bool) (cs : List Char) (entry : Key × Value) : Prop :=
  ∃ name gap body, entry.1 = .text name ∧ Blank gap ∧ Reads body entry.2 ∧
    cs = printText ascii name ++ ':' :: (gap ++ body)

/-- The key of an entry, a colon and its value come off one after the other. -/
theorem ReadsEntry.parts {ascii : Bool} {cs rest : List Char} {entry : Key × Value}
    (reads : ReadsEntry ascii cs entry) {fuel : Nat} (enough : 2 * cs.length ≤ fuel + 1)
    (ends : Ends rest) : ∃ name tail after, entry.1 = .text name ∧ cs ++ rest = '"' :: tail ∧
      textRest none [] tail = some (name, ':' :: after) ∧
      value? fuel (skip after) = some (entry.2, rest) := by
  obtain ⟨name, gap, body, named, blank, reads, rfl⟩ := reads
  refine ⟨name, _, _, named, ?_, textRest_printed ascii name (':' :: (gap ++ (body ++ rest))), ?_⟩
  · rw [← printText_append]
    simp
  · obtain ⟨c, first, visible, -⟩ := reads.start
    rw [skip_blank blank, skip_of_head (List.mem_head?_append_of_mem_head? first) visible]
    exact reads.read (by simp at enough; omega) ends

theorem skip_colon (rest : List Char) : skip (':' :: rest) = ':' :: rest :=
  rfl

theorem entries?_loops (ascii : Bool) :
    Loops '\x7b' '\x7d' entries? (fun read => .ofPairs read.reverse) (ReadsEntry ascii) where
  opens := by decide
  closes := by decide
  start := by
    rintro t entry ⟨name, gap, body, -, -, -, rfl⟩
    exact ⟨'"', rfl, by decide⟩
  empty := rfl
  enter := by
    intro fuel cs c first other
    simp only [value?]
    split
    · next same => simp [same, Ne.symm other] at first
    · rfl
  more := by
    rintro t ⟨_, v⟩ read fuel rest after reads enough ends comma
    obtain ⟨name, tail, behind, rfl, whole, key, value⟩ := reads.parts enough ends
    simp [whole, entries?, key, skip_colon, value, comma]
  stop := by
    rintro t ⟨_, v⟩ read fuel rest after reads enough ends closed
    obtain ⟨name, tail, behind, rfl, whole, key, value⟩ := reads.parts enough ends
    simp [whole, entries?, key, skip_colon, value, closed]

section

variable {β : Type} {opening closing : Char}
  {loop : Nat → List β → List Char → Option (Value × List Char)} {make : List β → Value}
  {Item : List Char → β → Prop} (loops : Loops opening closing loop make Item)
  {gap last : List Char} {texts : List (List Char)} {bs : List β}
include loops

/-- The first item stands in front, so no blank is skipped there and no bracket closes. -/
theorem Loops.head_intercalate (items : List.Forall₂ Item texts bs) (nonempty : texts ≠ [])
    (rest : List Char) : ∃ c ∈ ((',' :: gap).intercalate texts ++ rest).head?,
      isSpace c = false ∧ c ≠ closing := by
  cases items with
  | nil => exact absurd rfl nonempty
  | @cons t b texts bs item items =>
    obtain ⟨c, first, apart⟩ := loops.start item
    obtain ⟨more, whole⟩ : ∃ more, (',' :: gap).intercalate (t :: texts) ++ rest = t ++ more := by
      cases texts with
      | nil => exact ⟨rest, by rw [List.intercalate_singleton]⟩
      | cons t' texts =>
        exact ⟨_, by rw [List.intercalate_cons_cons, List.append_assoc, List.append_assoc]⟩
    exact ⟨c, whole ▸ List.mem_head?_append_of_mem_head? first, apart⟩

theorem Loops.skip_intercalate (items : List.Forall₂ Item texts bs) (nonempty : texts ≠ [])
    (rest : List Char) : skip ((',' :: gap).intercalate texts ++ rest) =
      (',' :: gap).intercalate texts ++ rest := by
  obtain ⟨c, first, visible, -⟩ := loops.head_intercalate items nonempty rest
  exact skip_of_head first visible

/-- All items are read, and the bracket behind them. -/
theorem Loops.run (blank : Blank gap) (blank' : Blank last) (items : List.Forall₂ Item texts bs)
    (nonempty : texts ≠ []) {fuel : Nat} {read : List β} {rest : List Char}
    (enough : 2 * ((',' :: gap).intercalate texts).length ≤ fuel) :
    loop fuel read ((',' :: gap).intercalate texts ++ (last ++ closing :: rest)) =
      some (make (bs.reverse ++ read), rest) := by
  induction items generalizing fuel read with
  | nil => exact absurd rfl nonempty
  | @cons t b texts bs item items ih =>
    have pos : 0 < t.length := by
      obtain ⟨c, first, -⟩ := loops.start item
      exact List.length_pos_of_mem (List.mem_of_mem_head? first)
    cases items with
    | nil =>
      rw [List.intercalate_singleton] at enough ⊢
      obtain ⟨fuel, rfl⟩ : ∃ less, fuel = less + 1 := ⟨fuel - 1, by omega⟩
      have bracket : skip (last ++ closing :: rest) = closing :: rest := by
        have closes := loops.closes
        simp only [List.mem_cons, List.not_mem_nil, or_false] at closes
        rw [skip_blank blank']
        rcases closes with rfl | rfl <;> rfl
      rw [loops.stop item (by omega) (blank'.ends (List.mem_cons_of_mem _ loops.closes)) bracket]
      rfl
    | @cons t' b' texts bs item' items =>
      simp only [List.intercalate_cons_cons, List.append_assoc, List.length_append,
        List.length_cons] at enough ⊢
      obtain ⟨fuel, rfl⟩ : ∃ less, fuel = less + 1 := ⟨fuel - 1, by omega⟩
      have later : 2 * ((',' :: gap).intercalate (t' :: texts)).length ≤ fuel := by omega
      rw [List.cons_append, loops.more item (by omega) (ends_of_head (.inr (by decide))) rfl,
        skip_blank blank, loops.skip_intercalate (.cons item' items) (by simp),
        ih (by simp) later]
      simp

/-- A value in brackets is read, with blanks behind the first bracket and before the last. -/
theorem Loops.value?_eq {front : List Char} (blank : Blank front) (blank' : Blank gap)
    (blank'' : Blank last) (items : List.Forall₂ Item texts bs) (nonempty : texts ≠ [])
    {fuel : Nat} {rest : List Char} (enough : 2 * ((',' :: gap).intercalate texts).length ≤ fuel) :
    value? (fuel + 1) (opening :: (front ++ ((',' :: gap).intercalate texts ++
      (last ++ closing :: rest)))) = some (make bs.reverse, rest) := by
  have skipped : skip (front ++ ((',' :: gap).intercalate texts ++ (last ++ closing :: rest))) =
      (',' :: gap).intercalate texts ++ (last ++ closing :: rest) := by
    rw [skip_blank blank, loops.skip_intercalate items nonempty]
  obtain ⟨c, first, -, other⟩ :
      ∃ c ∈ ((',' :: gap).intercalate texts ++ (last ++ closing :: rest)).head?,
        isSpace c = false ∧ c ≠ closing := loops.head_intercalate items nonempty _
  rw [← skipped] at first
  rw [loops.enter first other, skipped, loops.run blank' blank'' items nonempty enough,
    List.append_nil]

/-- What stands between brackets is read back, however it is laid out. -/
theorem Loops.reads_bracket {layout : Layout} (regular : Regular layout) (level : Nat)
    (items : List.Forall₂ Item texts bs) :
    Reads (bracket layout level opening closing texts) (make bs.reverse) := by
  obtain ⟨gap, blank, comma⟩ := regular.comma
  have inner := blank_lineBreak layout.indent (level + 1)
  have outer := blank_lineBreak layout.indent level
  by_cases nonempty : texts = []
  · subst nonempty
    cases items
    exact reads_of_succ ⟨opening, rfl, loops.opens⟩ fun fuel rest _ _ => loops.empty
  · have shape : bracket layout level opening closing texts =
        opening :: (lineBreak layout.indent (level + 1) ++
          ((',' :: (gap ++ lineBreak layout.indent (level + 1))).intercalate texts ++
            (lineBreak layout.indent level ++ [closing]))) := by
      simp [bracket, nonempty, comma]
    refine reads_of_succ ⟨opening, by rw [shape]; rfl, loops.opens⟩ fun fuel rest enough _ => ?_
    simp only [shape, List.cons_append, List.append_assoc, List.length_cons, List.length_append,
      List.nil_append] at enough ⊢
    exact loops.value?_eq inner (blank.append inner) outer items nonempty (by omega)

end

/-! ## Documents -/

theorem ofList_integer (n : Int) : String.ofList (Decimal.integer n) = toString n := by
  cases n with
  | ofNat n => rfl
  | negSucc n =>
    have negative : Int.negSucc n < 0 := Int.negSucc_lt_zero n
    have shape : toString (Int.negSucc n) = "-" ++ String.ofList (Decimal.digits (n + 1)) := rfl
    rw [shape, Decimal.integer, if_pos negative, ← String.toList_inj]
    simp

theorem keyText?_eq_label {k : Key} (exact_key : k.Exact) (numbers : Decimal.Style) :
    keyText? numbers k = some k.label := by
  cases exact_key with
  | text | null => rfl
  | bool b => cases b <;> rfl
  | int n => simp [keyText?, Key.label, ofList_integer]

mutual

/-- Every value without floating point numbers and tuples has a text, from which it is read. -/
theorem print?_reads {layout : Layout} (regular : Regular layout) (level : Nat) (v : Value)
    (exact_value : v.Exact) : ∃ cs, print? layout level v = some cs ∧ Reads cs v.reread := by
  match v with
  | .null => exact ⟨_, rfl, reads_null⟩
  | .bool b => exact ⟨_, rfl, reads_bool b⟩
  | .int n => exact ⟨_, rfl, reads_integer n⟩
  | .text s => exact ⟨_, rfl, reads_text layout.ascii s⟩
  | .float _ => cases exact_value
  | .list items =>
    have parts : ∀ v ∈ items, v.Exact := by
      cases exact_value with
      | list parts => exact parts
    obtain ⟨texts, printed, reads⟩ := printItems?_reads regular (level + 1) items parts
    refine ⟨_, by rw [print?, printed]; rfl, ?_⟩
    simpa [Value.reread] using items?_loops.reads_bracket regular level reads
  | .map entries =>
    have parts : ∀ entry ∈ entries, entry.1.Exact ∧ entry.2.Exact := by
      cases exact_value with
      | map keys parts => exact fun entry member => ⟨keys entry member, parts entry member⟩
    obtain ⟨texts, printed, reads⟩ := printEntries?_reads regular (level + 1) entries parts
    refine ⟨_, by rw [print?, printed]; rfl, ?_⟩
    simpa [Value.reread] using (entries?_loops layout.ascii).reads_bracket regular level reads

theorem printItems?_reads {layout : Layout} (regular : Regular layout) (level : Nat)
    (items : List Value) (parts : ∀ v ∈ items, v.Exact) :
    ∃ texts, printItems? layout level items = some texts ∧
      List.Forall₂ Reads texts (Value.rereadItems items) := by
  match items with
  | [] => exact ⟨[], rfl, .nil⟩
  | v :: rest =>
    rw [List.forall_mem_cons] at parts
    obtain ⟨cs, printed, reads⟩ := print?_reads regular level v parts.1
    obtain ⟨texts, others, more⟩ := printItems?_reads regular level rest parts.2
    exact ⟨cs :: texts, by rw [printItems?, printed, others], .cons reads more⟩

theorem printEntries?_reads {layout : Layout} (regular : Regular layout) (level : Nat)
    (entries : List (Key × Value))
    (parts : ∀ entry ∈ entries, entry.1.Exact ∧ entry.2.Exact) :
    ∃ texts, printEntries? layout level entries = some texts ∧
      List.Forall₂ (ReadsEntry layout.ascii) texts (Value.rereadEntries entries) := by
  match entries with
  | [] => exact ⟨[], rfl, .nil⟩
  | (k, v) :: rest =>
    rw [List.forall_mem_cons] at parts
    obtain ⟨⟨exact_key, exact_value⟩, others⟩ := parts
    obtain ⟨cs, printed, reads⟩ := print?_reads regular level v exact_value
    obtain ⟨texts, printed', more⟩ := printEntries?_reads regular level rest others
    obtain ⟨gap, blank, colon⟩ := regular.colon
    refine ⟨_, by rw [printEntries?, keyText?_eq_label exact_key, printed, printed'], .cons ?_ more⟩
    exact ⟨k.label, gap, cs, rfl, blank, reads, by simp [colon]⟩

end

/-- Nothing is cut off at the ends of the text of a map. -/
theorem trim_bracket (layout : Layout) (level : Nat) (texts : List (List Char)) :
    Text.trim (bracket layout level '\x7b' '\x7d' texts) =
      bracket layout level '\x7b' '\x7d' texts := by
  obtain ⟨middle, shape⟩ : ∃ middle, bracket layout level '\x7b' '\x7d' texts =
      '\x7b' :: (middle ++ ['\x7d']) := by
    unfold bracket
    split
    · exact ⟨[], rfl⟩
    · exact ⟨_, rfl⟩
  have front : Text.isBlank '\x7b' = false := by decide
  have back : Text.isBlank '\x7d' = false := by decide
  simp [Text.trim, shape, front, back]

theorem Reads.read? {cs : List Char} {v : Value} (reads : Reads cs v) : read? cs = some v := by
  obtain ⟨c, first, visible, -⟩ := reads.start
  have whole : value? (2 * cs.length + 1) (cs ++ []) = some (v, []) :=
    reads.read (by omega) Ends.nil
  rw [List.append_nil] at whole
  rw [Json.read?, skip_of_head first visible, whole]
  rfl

/-- Whichever layout is chosen, it is one that is read back. -/
theorem exists_layout (v : Value) (indent : Int) : ∃ layout, Regular layout ∧
    text? v indent = (print? layout 0 v).map String.ofList := by
  unfold text?
  dsimp only
  split
  · exact ⟨compact, regular_compact, rfl⟩
  · exact ⟨_, regular_spaced _, rfl⟩

/-- A map is read back from what any of the layouts writes. -/
theorem readMap_of_print? {layout : Layout} (regular : Regular layout)
    {entries : List (Key × Value)} (exact_map : (Value.map entries).Exact) {cs : List Char}
    (printed : print? layout 0 (.map entries) = some cs) :
    readMap (String.ofList cs) = .ok (Value.map entries).reread := by
  obtain ⟨cs', printed', reads⟩ := print?_reads regular 0 _ exact_map
  obtain rfl : cs' = cs := Option.some.inj (printed'.symm.trans printed)
  have trimmed : Text.trim cs' = cs' := by
    rw [print?, Option.map_eq_some_iff] at printed
    obtain ⟨texts, -, rfl⟩ := printed
    exact trim_bracket layout 0 texts
  rw [readMap, String.toList_ofList, trimmed, reads.read?, Value.reread]
  rfl

theorem readMap_text? {entries : List (Key × Value)} (exact_map : (Value.map entries).Exact)
    (indent : Int) : ∃ text, text? (.map entries) indent = some text ∧
      readMap text = .ok (Value.map entries).reread := by
  obtain ⟨layout, regular, chosen⟩ := exists_layout (.map entries) indent
  obtain ⟨cs, printed, -⟩ := print?_reads regular 0 _ exact_map
  exact ⟨String.ofList cs, by rw [chosen, printed]; rfl,
    readMap_of_print? regular exact_map printed⟩

/-- **A map without floating point numbers and tuples has a JSON text, and from that text it is
read back**, up to the names of keys that are no texts; if all keys are texts, the map itself is
read back. This holds for every indentation. A value with a tuple for a key has no text. -/
theorem text?_read_back (v : Value) (indent : Int) :
    (v.Exact → v.kind = .map → ∃ text, text? v indent = some text ∧
      ∀ repair, readMapOrRepair repair text = .ok v.reread) ∧
    (v.Textual → v.reread = v) ∧ (v.HasTupleKey → text? v indent = none) := by
  refine ⟨fun exact_value map => ?_, Value.Textual.reread_eq, (text?_eq_none_iff v indent).mpr⟩
  cases v with
  | map entries =>
    obtain ⟨text, written, read⟩ := readMap_text? exact_value indent
    refine ⟨text, written, fun repair => ?_⟩
    -- nothing is to be repaired
    simp [readMapOrRepair, read]
  | null | bool | int | float | text | list => cases map

/-- An integer and the text of it come to be the same key; a tuple cannot be one. -/
theorem text?_read_back_shared_key :
    (∃ text, text? (.map [(.int 1, .text "é"), (.text "1", .bool true)]) 0 = some text ∧
      ∀ repair, readMapOrRepair repair text = .ok (.record [("1", .bool true)])) ∧
    text? (.map [(.tuple [.null], .null)]) 3 = none := by
  constructor
  · refine (text?_read_back _ 0).1 (.map ?_ ?_) rfl
    · simp only [List.forall_mem_cons, List.not_mem_nil, false_implies, implies_true, and_true]
      exact ⟨.int 1, .text "1"⟩
    · simp only [List.forall_mem_cons, List.not_mem_nil, false_implies, implies_true, and_true]
      exact ⟨.text "é", .bool true⟩
  · exact (text?_read_back _ 3).2.2 (.key List.mem_cons_self)

end Json
end Patchbay
