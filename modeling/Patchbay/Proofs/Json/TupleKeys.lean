import Patchbay.Json.Printer

/-!
# Tuple keys

A document has a JSON text unless a tuple is a key of some map in it. Main statement:
`Json.text?_eq_none_iff`, for every layout that the indentation may ask for.
-/

namespace Patchbay

/-- A tuple is a key of the value itself or of a map inside it, at any depth. -/
inductive Value.HasTupleKey : Value → Prop
  | key {entries : List (Key × Value)} {parts : List Key} {v : Value}
    (member : (Key.tuple parts, v) ∈ entries) : HasTupleKey (.map entries)
  | entry {entries : List (Key × Value)} {k : Key} {v : Value}
    (member : (k, v) ∈ entries) (inside : HasTupleKey v) : HasTupleKey (.map entries)
  | item {items : List Value} {v : Value}
    (member : v ∈ items) (inside : HasTupleKey v) : HasTupleKey (.list items)

namespace Value

theorem hasTupleKey_list_iff (items : List Value) :
    HasTupleKey (.list items) ↔ ∃ v ∈ items, HasTupleKey v := by
  constructor
  · intro h
    cases h with
    | item member inside => exact ⟨_, member, inside⟩
  · rintro ⟨v, member, inside⟩
    exact .item member inside

theorem hasTupleKey_map_iff (entries : List (Key × Value)) :
    HasTupleKey (.map entries) ↔
      ∃ entry ∈ entries, (∃ parts, entry.1 = .tuple parts) ∨ HasTupleKey entry.2 := by
  constructor
  · intro h
    cases h with
    | key member => exact ⟨_, member, .inl ⟨_, rfl⟩⟩
    | entry member inside => exact ⟨_, member, .inr inside⟩
  · rintro ⟨⟨k, v⟩, member, ⟨parts, rfl⟩ | inside⟩
    · exact .key member
    · exact .entry member inside

end Value

namespace Json

open Value

theorem keyText?_eq_none_iff (numbers : Decimal.Style) (k : Key) :
    keyText? numbers k = none ↔ ∃ parts, k = .tuple parts := by
  cases k <;> simp [keyText?]

mutual

private theorem print?_eq_none_iff (layout : Layout) (level : Nat) (v : Value) :
    print? layout level v = none ↔ HasTupleKey v := by
  match v with
  -- What is no collection has a text and no keys.
  | .null | .bool _ | .int _ | .float _ | .text _ =>
    simp only [print?, reduceCtorEq, false_iff]
    exact nofun
  | .list items =>
    simp only [print?, Option.map_eq_none_iff, hasTupleKey_list_iff]
    exact printItems?_eq_none_iff layout (level + 1) items
  | .map entries =>
    simp only [print?, Option.map_eq_none_iff, hasTupleKey_map_iff]
    exact printEntries?_eq_none_iff layout (level + 1) entries

private theorem printItems?_eq_none_iff (layout : Layout) (level : Nat) (items : List Value) :
    printItems? layout level items = none ↔ ∃ v ∈ items, HasTupleKey v := by
  match items with
  | [] => simp [printItems?]
  | v :: rest =>
    -- The items have no text as soon as one of them has none.
    have head := print?_eq_none_iff layout level v
    have tail := printItems?_eq_none_iff layout level rest
    simp only [printItems?, List.mem_cons, exists_eq_or_imp, ← head, ← tail]
    cases print? layout level v <;> cases printItems? layout level rest <;> simp

private theorem printEntries?_eq_none_iff (layout : Layout) (level : Nat)
    (entries : List (Key × Value)) :
    printEntries? layout level entries = none ↔
      ∃ entry ∈ entries, (∃ parts, entry.1 = .tuple parts) ∨ HasTupleKey entry.2 := by
  match entries with
  | [] => simp [printEntries?]
  | (k, v) :: rest =>
    have key := keyText?_eq_none_iff layout.numbers k
    have head := print?_eq_none_iff layout level v
    have tail := printEntries?_eq_none_iff layout level rest
    simp only [printEntries?, List.mem_cons, exists_eq_or_imp, ← key, ← head, ← tail]
    cases keyText? layout.numbers k <;> cases print? layout level v <;>
      cases printEntries? layout level rest <;> simp

end

/-- A document has no text exactly if a tuple is a key in it. The layout that is chosen does not
matter, and neither does the indentation. -/
theorem text?_eq_none_iff (v : Value) (indent : Int) : text? v indent = none ↔ v.HasTupleKey := by
  simp only [text?, Option.map_eq_none_iff]
  exact print?_eq_none_iff _ 0 v

end Json
end Patchbay
