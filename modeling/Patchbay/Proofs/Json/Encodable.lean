import Patchbay.Fault
import Patchbay.Json.Repair
import Patchbay.Property
import Patchbay.Proofs.Json.Made
import Patchbay.Proofs.Json.TupleKeys

/-!
# Encodable values

A value is encodable if it has a JSON text, so if no tuple is a key in it. Reading and writing
properties keeps values so, and whatever is read from a text is so:
`Json.readMapOrRepair_encodable`.
-/

namespace Patchbay

namespace Value

/-- A value that has a JSON text. -/
abbrev Encodable (v : Value) : Prop :=
  ¬v.HasTupleKey

/-- An entry of a map that has a JSON text. -/
def Storable (entry : Key × Value) : Prop :=
  (∀ parts, entry.1 ≠ .tuple parts) ∧ entry.2.Encodable

theorem encodable_list_iff (items : List Value) :
    (list items).Encodable ↔ ∀ v ∈ items, v.Encodable := by
  simp [Encodable, hasTupleKey_list_iff]

theorem encodable_map_iff (entries : List (Key × Value)) :
    (map entries).Encodable ↔ ∀ entry ∈ entries, Storable entry := by
  simp only [Encodable, Storable, hasTupleKey_map_iff, not_exists, not_and, not_or]

theorem Storable.of_text {name : String} {v : Value} (encodable : v.Encodable) :
    Storable (.text name, v) :=
  ⟨nofun, encodable⟩

theorem encodable_record {fields : List (String × Value)}
    (parts : ∀ field ∈ fields, field.2.Encodable) : (record fields).Encodable := by
  rw [record, encodable_map_iff]
  intro entry member
  obtain ⟨field, inside, rfl⟩ := List.mem_map.mp member
  exact .of_text (parts field inside)

theorem Encodable.get? {entries : List (Key × Value)} (encodable : (map entries).Encodable)
    {key : Key} {v : Value} (found : Entries.get? key entries = some v) : v.Encodable := by
  obtain ⟨own, member⟩ := Entries.exists_mem_of_get? found
  exact ((encodable_map_iff entries).mp encodable _ member).2

theorem Encodable.getD {entries : List (Key × Value)} (encodable : (map entries).Encodable)
    (key : Key) {default : Value} (other : default.Encodable) :
    ((Entries.get? key entries).getD default).Encodable := by
  cases found : Entries.get? key entries with
  | none => exact other
  | some v => exact encodable.get? found

theorem Encodable.field? {v : Value} (encodable : v.Encodable) {name : String} {part : Value}
    (found : v.field? name = some part) : part.Encodable := by
  cases v with
  | map entries => exact encodable.get? found
  | null | bool | int | float | text | list => cases found

theorem Encodable.put {entries : List (Key × Value)} (encodable : (map entries).Encodable)
    {key : Key} {v : Value} (new : Storable (key, v)) :
    (map (Entries.put key v entries)).Encodable := by
  rw [encodable_map_iff] at encodable ⊢
  rintro ⟨own, inside⟩ member
  rcases Entries.mem_of_mem_put member with before | ⟨rfl, rfl | ⟨old, before⟩⟩
  · exact encodable _ before
  · exact new
  · exact ⟨(encodable _ before).1, new.2⟩

theorem encodable_ofPairs {pairs : List (Key × Value)} (parts : ∀ pair ∈ pairs, Storable pair) :
    (ofPairs pairs).Encodable := by
  -- for any map that the pairs are written into
  have written (entries : List (Key × Value)) (encodable : (map entries).Encodable) :
      (map (pairs.foldl (fun entries pair => Entries.put pair.1 pair.2 entries)
        entries)).Encodable := by
    induction pairs generalizing entries with
    | nil => exact encodable
    | cons pair rest ih =>
      rw [List.forall_mem_cons] at parts
      exact ih parts.2 _ (encodable.put parts.1)
  exact written [] ((encodable_map_iff []).mpr (List.forall_mem_nil _))

theorem Encodable.property {v : Value} (encodable : v.Encodable) (name : Option String) :
    (v.property name).Encodable := by
  cases name with
  | none => exact encodable
  | some name =>
    unfold Value.property
    dsimp only
    split
    · exact encodable
    · split
      · exact encodable.getD _ (by rintro ⟨⟩)
      · split
        · exact encodable
        · rintro ⟨⟩

theorem Encodable.withProperty {old : Value} (encodable : old.Encodable) (name : String)
    {v : Value} (new : v.Encodable) : (old.withProperty name v).Encodable := by
  have single (name : String) {v : Value} (encodable : v.Encodable) :
      (map [(.text name, v)]).Encodable := by
    rw [encodable_map_iff, List.forall_mem_singleton]
    exact .of_text encodable
  cases old with
  | map entries => exact encodable.put (.of_text new)
  | null => exact single name new
  -- a scalar lives on as `value`, unless just that is written
  | bool | int | float | text | list =>
    unfold Value.withProperty
    dsimp only
    split
    · exact single name new
    · rw [encodable_map_iff, List.forall_mem_cons, List.forall_mem_singleton]
      exact ⟨.of_text encodable, .of_text new⟩

theorem Encodable.elements {v : Value} (encodable : v.Encodable) {items : List Value}
    (parts : v.elements = .ok items) : ∀ item ∈ items, item.Encodable := by
  cases v with
  | list => cases parts; exact (encodable_list_iff _).mp encodable
  -- a map is gone through by its keys, none of which is a tuple
  | map entries =>
    cases parts
    intro item member
    obtain ⟨entry, inside, rfl⟩ := List.mem_map.mp member
    have key := ((encodable_map_iff entries).mp encodable entry inside).1
    cases own : entry.1 with
    | tuple parts => exact absurd own (key parts)
    | text | int | bool | null | float => exact nofun
  | text s =>
    cases parts
    intro item member
    obtain ⟨c, -, rfl⟩ := List.mem_map.mp member
    rintro ⟨⟩
  | null | bool | int | float => cases parts

end Value

/-! ## What readers give -/

namespace Json

open Value

theorem encodable_closed : Closed Value.Encodable Storable := by
  constructor
  · rintro ⟨⟩
  · rintro b ⟨⟩
  · rintro n ⟨⟩
  · rintro x ⟨⟩
  · rintro s ⟨⟩
  · exact (encodable_list_iff _).mpr
  · exact .of_text
  · exact encodable_ofPairs

theorem wordValue_encodable (cs : List Char) : (wordValue cs).Encodable := by
  unfold wordValue
  split
  · rintro ⟨⟩
  · rintro ⟨⟩
  · rintro ⟨⟩
  · split
    · next read => exact encodable_closed.number read
    · rintro ⟨⟩

/-- What the forgiving reader makes of a text is encodable as well. -/
structure Loose (fuel : Nat) : Prop where
  value : ∀ cs, (looseValue fuel cs).1.Encodable
  items : ∀ {read : List Value} (cs : List Char), (∀ item ∈ read, item.Encodable) →
    (looseItems fuel read cs).1.Encodable
  entries : ∀ {read : List (Key × Value)} (cs : List Char), (∀ entry ∈ read, Storable entry) →
    (looseEntries fuel read cs).1.Encodable

theorem loose (fuel : Nat) : Loose fuel := by
  -- These readers call one another with less fuel and do not fail: one that is out of fuel gives
  -- what it has.
  induction fuel with
  | zero =>
    constructor
    · intro cs
      simp only [looseValue]
      rintro ⟨⟩
    · intro read cs parts
      exact encodable_closed.reversed parts
    · intro read cs parts
      exact encodable_closed.pairs parts
  | succ fuel ih =>
    constructor
    · intro cs
      unfold looseValue
      split
      · exact ih.entries _ (List.forall_mem_nil _)
      · exact ih.items _ (List.forall_mem_nil _)
      · rintro ⟨⟩
      · dsimp only
        split
        · rintro ⟨⟩
        · exact wordValue_encodable _
    · intro read cs parts
      unfold looseItems
      split
      · exact encodable_closed.reversed parts
      · exact encodable_closed.reversed parts
      · exact encodable_closed.reversed parts
      · exact ih.items _ parts
      · exact ih.items _ parts
      · exact ih.items _ (List.forall_mem_cons.mpr ⟨ih.value _, parts⟩)
    · intro read cs parts
      unfold looseEntries
      split
      · exact encodable_closed.pairs parts
      · exact encodable_closed.pairs parts
      · exact encodable_closed.pairs parts
      · exact ih.entries _ parts
      · dsimp only
        split
        · exact ih.entries _ (List.forall_mem_cons.mpr ⟨.of_text (ih.value _), parts⟩)
        · exact ih.entries _ parts

theorem asMap_encodable {given value : Value} (encodable : given.Encodable)
    (map : asMap given = .ok value) : value.Encodable := by
  unfold asMap at map
  split at map
  · cases map
    exact encodable
  · cases map

theorem readMapOrRepair_encodable {repair : Bool} {text : String} {value : Value}
    (read : readMapOrRepair repair text = .ok value) : value.Encodable := by
  have map (read : readMap text = .ok value) : value.Encodable := by
    unfold readMap at read
    split at read
    · next found => exact asMap_encodable (encodable_closed.read? found) read
    · cases read
  -- both readers give encodable values, and one of them has been successful
  unfold readMapOrRepair at read
  split at read
  · split at read
    · split at read
      · next found =>
        unfold repair? at found
        split at found
        · cases found
        · cases found
          exact asMap_encodable ((loose _).value _) read
      · cases read
    · cases read
  · exact map read

end Json

end Patchbay
