import Patchbay.Json.Reader
import Patchbay.Proofs.Entries

/-!
# What the strict reader makes

The reader makes scalars, lists of what it has made, and maps of pairs of a text and what it has
made. Whatever is closed under this holds of every value that is read (`Json.makes`). So all keys
of such a value are texts, and different in each map (`Json.read?_textual`).
-/

namespace Patchbay

/-- A value whose keys are texts, different in each map, at every depth. -/
inductive Value.Textual : Value → Prop
  | null : Textual .null
  | bool (b : Bool) : Textual (.bool b)
  | int (n : Int) : Textual (.int n)
  | float (x : Binary64) : Textual (.float x)
  | text (s : String) : Textual (.text s)
  | list {items : List Value} (parts : ∀ v ∈ items, Textual v) : Textual (.list items)
  | map {fields : List (String × Value)} (distinct : (fields.map Prod.fst).Nodup)
    (parts : ∀ field ∈ fields, Textual field.2) : Textual (.record fields)

theorem Value.Textual.items {items : List Value} (textual : (Value.list items).Textual) :
    ∀ v ∈ items, v.Textual := by
  cases textual with
  | list parts => exact parts

theorem Value.Textual.eq_record {entries : List (Key × Value)}
    (textual : (Value.map entries).Textual) :
    ∃ fields, Value.map entries = record fields := by
  cases textual with
  | @map fields => exact ⟨fields, rfl⟩

theorem Value.Textual.field? {v : Value} (textual : v.Textual) {name : String} {part : Value}
    (found : v.field? name = some part) : part.Textual := by
  cases textual with
  | map _ parts =>
    rw [field?_record] at found
    exact parts _ (Entries.mem_of_get?_eq_some found)
  | null | bool | int | float | text | list => cases found

/-- A map with text keys is made of its pairs. -/
theorem Value.ofPairs_text (fields : List (String × Value)) :
    ofPairs (fields.map fun field => (.text field.1, field.2)) =
      .record (Entries.ofPairs fields) :=
  congrArg Value.map (Entries.ofPairs_text fields)

namespace Json

/-- What holds of everything that the reader makes: of scalars, of lists of such values, and of
maps made of pairs of a text and such a value. -/
structure Closed (good : Value → Prop) (fits : Key × Value → Prop) : Prop where
  null : good .null
  bool : ∀ b, good (.bool b)
  int : ∀ n, good (.int n)
  float : ∀ x, good (.float x)
  text : ∀ s, good (.text s)
  list : ∀ {items : List Value}, (∀ v ∈ items, good v) → good (.list items)
  pair : ∀ {name : String} {v : Value}, good v → fits (.text name, v)
  map : ∀ {pairs : List (Key × Value)}, (∀ pair ∈ pairs, fits pair) → good (Value.ofPairs pairs)

/-- What is read with so much fuel is good, if what has been read before is. -/
structure Makes (good : Value → Prop) (fits : Key × Value → Prop) (fuel : Nat) : Prop where
  value : ∀ {cs rest : List Char} {v : Value}, value? fuel cs = some (v, rest) → good v
  items : ∀ {read : List Value} {cs rest : List Char} {v : Value}, (∀ item ∈ read, good item) →
    items? fuel read cs = some (v, rest) → good v
  entries : ∀ {read : List (Key × Value)} {cs rest : List Char} {v : Value},
    (∀ entry ∈ read, fits entry) → entries? fuel read cs = some (v, rest) → good v

section

variable {good : Value → Prop} {fits : Key × Value → Prop} (closed : Closed good fits)
include closed

theorem Closed.number {cs rest : List Char} {v : Value} (read : number? cs = some (v, rest)) :
    good v := by
  have unsigned {negative : Bool} {cs : List Char}
      (read : unsigned? negative cs = some (v, rest)) : good v := by
    unfold unsigned? at read
    dsimp only at read
    split at read
    · cases read
    · simp only [Option.bind_eq_bind, Option.bind_eq_some_iff] at read
      obtain ⟨⟨fraction, after⟩, -, ⟨exponent, last⟩, -, read⟩ := read
      dsimp only at read
      split at read
      · cases read
        exact closed.int _
      · split at read
        · cases read
        · cases read
          exact closed.float _
  unfold number? at read
  split at read
  · exact unsigned read
  · exact unsigned read

theorem Closed.reversed {items : List Value} (parts : ∀ v ∈ items, good v) :
    good (.list items.reverse) :=
  closed.list fun v member => parts v (List.mem_reverse.mp member)

theorem Closed.pairs {pairs : List (Key × Value)} (parts : ∀ pair ∈ pairs, fits pair) :
    good (Value.ofPairs pairs.reverse) :=
  closed.map fun pair member => parts pair (List.mem_reverse.mp member)

theorem makes (fuel : Nat) : Makes good fits fuel := by
  -- The three readers call one another with less fuel. What has been read so far is kept along.
  induction fuel with
  | zero =>
    constructor
    · intro cs rest v read
      simp [value?] at read
    · intro _ cs rest v _ read
      simp [items?] at read
    · intro _ cs rest v _ read
      simp [entries?] at read
  | succ fuel ih =>
    constructor
    · intro cs rest v read
      unfold value? at read
      split at read
      · split at read
        · cases read
          exact closed.map (List.forall_mem_nil _)
        · exact ih.entries (List.forall_mem_nil _) read
      · split at read
        · cases read
          exact closed.list (List.forall_mem_nil _)
        · exact ih.items (List.forall_mem_nil _) read
      · simp only [Option.map_eq_some_iff, Prod.mk.injEq] at read
        obtain ⟨_, -, rfl, -⟩ := read
        exact closed.text _
      · cases read
        exact closed.bool true
      · cases read
        exact closed.bool false
      · cases read
        exact closed.null
      · exact closed.number read
    · intro before cs rest v parts read
      unfold items? at read
      split at read
      · cases read
      · next item after found =>
        have longer := List.forall_mem_cons.mpr ⟨ih.value found, parts⟩
        split at read
        · exact ih.items longer read
        · cases read
          exact closed.reversed longer
        · cases read
    · intro before cs rest v parts read
      unfold entries? at read
      split at read
      · split at read
        · cases read
        · next key after _ =>
          split at read
          · split at read
            · cases read
            · next item later found =>
              have new : fits (.text key, item) := closed.pair (ih.value found)
              have longer := List.forall_mem_cons.mpr ⟨new, parts⟩
              split at read
              · exact ih.entries longer read
              · cases read
                exact closed.pairs longer
              · cases read
          · cases read
      · cases read

theorem Closed.read? {cs : List Char} {v : Value} (read : read? cs = some v) : good v := by
  unfold Json.read? at read
  split at read
  · next found =>
    split at read
    · cases read
      exact (makes closed _).value found
    · cases read
  · cases read

end

theorem textual_closed : Closed Value.Textual fun pair =>
    (∃ name, pair.1 = .text name) ∧ pair.2.Textual := by
  constructor
  · exact .null
  · exact .bool
  · exact .int
  · exact .float
  · exact .text
  · exact .list
  · exact fun good => ⟨⟨_, rfl⟩, good⟩
  · intro pairs parts
    -- the pairs are fields, and they are written as such
    obtain ⟨fields, rfl⟩ : ∃ fields : List (String × Value),
        pairs = fields.map fun field => (.text field.1, field.2) := by
      induction pairs with
      | nil => exact ⟨[], rfl⟩
      | cons pair rest ih =>
        rw [List.forall_mem_cons] at parts
        obtain ⟨⟨⟨name, named⟩, -⟩, others⟩ := parts
        obtain ⟨fields, rfl⟩ := ih others
        exact ⟨(name, pair.2) :: fields, by rw [List.map_cons, ← named]⟩
    obtain ⟨distinct, sources⟩ := Entries.ofPairs_spec fields
    rw [Value.ofPairs_text]
    refine .map distinct fun field member => ?_
    exact (parts _ (List.mem_map_of_mem (sources field member))).2

/-- All keys of what is read are texts. -/
theorem read?_textual {cs : List Char} {v : Value} (read : read? cs = some v) : v.Textual :=
  textual_closed.read? read

end Json
end Patchbay
