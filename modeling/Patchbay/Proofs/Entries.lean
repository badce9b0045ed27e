import Patchbay.Value
import Mathlib.Algebra.Ring.Nat
import Mathlib.Data.List.Nodup

/-!
# Writing into ordered maps

What is in a map after a write, for keys that may be equal without being the same
(`Entries.mem_of_mem_put`), and what becomes of pairs that are written one after another: no key is
written twice (`Entries.ofPairs_spec`), pairs with different keys are found afterwards
(`Entries.get?_foldl_put`) and stay as they are (`Entries.ofPairs_of_nodup`), and texts as keys are
written as the names of fields are (`Entries.ofPairs_text`).
-/

namespace Patchbay.Entries

section

variable {κ α : Type} [BEq κ]

theorem exists_mem_of_get? {key : κ} {entries : Entries κ α} {value : α}
    (found : get? key entries = some value) : ∃ own, (own, value) ∈ entries := by
  induction entries with
  | nil => simp [get?] at found
  | cons entry rest ih =>
    obtain ⟨k, v⟩ := entry
    rw [get?] at found
    split at found
    · cases found
      exact ⟨k, List.mem_cons_self⟩
    · obtain ⟨own, member⟩ := ih found
      exact ⟨own, List.mem_cons_of_mem _ member⟩

/-- To write what is there already changes nothing. -/
theorem put_of_get? {key : κ} {entries : Entries κ α} {value : α}
    (found : get? key entries = some value) : put key value entries = entries := by
  induction entries with
  | nil => cases found
  | cons entry rest ih =>
    obtain ⟨k, v⟩ := entry
    rw [get?] at found
    rw [put]
    split at found
    next same =>
      cases found
      rw [if_pos same]
    next other => rw [if_neg other, ih found]

/-- What is there after a write was there before, or its key or its value is new. -/
theorem mem_of_mem_put {key own : κ} {value v : α} {entries : Entries κ α}
    (member : (own, v) ∈ put key value entries) :
    (own, v) ∈ entries ∨ v = value ∧ (own = key ∨ ∃ old, (own, old) ∈ entries) := by
  induction entries with
  | nil =>
    simp only [put, List.mem_singleton, Prod.mk.injEq] at member
    exact .inr ⟨member.2, .inl member.1⟩
  | cons entry rest ih =>
    obtain ⟨k, old⟩ := entry
    rw [put] at member
    -- a write in place stops there, so the entries behind it are the old ones
    split at member
    · rcases List.mem_cons.mp member with here | there
      · cases here
        exact .inr ⟨rfl, .inr ⟨old, List.mem_cons_self⟩⟩
      · exact .inl (List.mem_cons_of_mem _ there)
    · rcases List.mem_cons.mp member with here | there
      · cases here
        exact .inl List.mem_cons_self
      · rcases ih there with before | ⟨new, rfl | ⟨old', before⟩⟩
        · exact .inl (List.mem_cons_of_mem _ before)
        · exact .inr ⟨new, .inl rfl⟩
        · exact .inr ⟨new, .inr ⟨old', List.mem_cons_of_mem _ before⟩⟩

variable [LawfulBEq κ]

theorem nodup_keys_put {key : κ} {value : α} {entries : Entries κ α}
    (distinct : (keys entries).Nodup) : (keys (put key value entries)).Nodup := by
  rw [keys_put]
  split
  · exact distinct
  next new =>
    rw [has_iff_mem_keys] at new
    refine List.nodup_append.mpr ⟨distinct, List.nodup_singleton key, ?_⟩
    intro own member last here same
    rw [same, List.mem_singleton.mp here] at member
    exact new member

theorem get?_of_mem {entries : Entries κ α} (distinct : (keys entries).Nodup) {entry : κ × α}
    (member : entry ∈ entries) : get? entry.1 entries = some entry.2 := by
  induction entries with
  | nil => cases member
  | cons first rest ih =>
    simp only [keys, List.map_cons, List.nodup_cons] at distinct
    rcases List.mem_cons.mp member with rfl | later
    · simp [get?]
    · have other : first.1 ≠ entry.1 := fun same =>
        distinct.1 (same ▸ List.mem_map_of_mem later)
      rw [get?, if_neg (by simpa using other)]
      exact ih distinct.2 later

theorem put_of_not_mem {key : κ} {entries : Entries κ α} (new : key ∉ keys entries) (value : α) :
    put key value entries = entries ++ [(key, value)] := by
  induction entries with
  | nil => rfl
  | cons entry rest ih =>
    simp only [keys, List.map_cons, List.mem_cons, not_or] at new
    simp [put, Ne.symm new.1, ih new.2]

theorem foldl_put_of_nodup {before pairs : Entries κ α}
    (distinct : (keys (before ++ pairs)).Nodup) :
    pairs.foldl (fun entries pair => put pair.1 pair.2 entries) before = before ++ pairs := by
  induction pairs generalizing before with
  | nil => simp
  | cons pair rest ih =>
    have new : pair.1 ∉ keys before := by
      simp only [keys, List.map_append, List.map_cons] at distinct ⊢
      exact fun known => (List.nodup_append.mp distinct).2.2 _ known _ List.mem_cons_self rfl
    rw [List.foldl_cons, put_of_not_mem new, ih (by simpa using distinct)]
    simp

theorem nodup_keys_foldl_put (pairs : List (κ × α)) {before : Entries κ α}
    (distinct : (keys before).Nodup) :
    (keys (pairs.foldl (fun entries pair => put pair.1 pair.2 entries) before)).Nodup :=
  List.foldlRecOn (motive := fun entries => (keys entries).Nodup) _ _ distinct
    fun _ distinct _ _ => nodup_keys_put distinct

/-- Pairs with different keys are found once they are written, and all else is found as before. -/
theorem get?_foldl_put {pairs : List (κ × α)} (distinct : (keys pairs).Nodup) (key : κ)
    (before : Entries κ α) :
    get? key (pairs.foldl (fun entries pair => put pair.1 pair.2 entries) before) =
      (get? key pairs).or (get? key before) := by
  induction pairs generalizing before with
  | nil => rfl
  | cons pair rest ih =>
    obtain ⟨k, v⟩ := pair
    rw [keys, List.map_cons, List.nodup_cons] at distinct
    rw [List.foldl_cons, ih distinct.2, get?]
    by_cases same : k = key
    · subst same
      have absent : get? k rest = none := by
        rw [← Option.not_isSome_iff_eq_none]
        exact fun known => distinct.1 ((has_iff_mem_keys k rest).mp known)
      rw [absent, get?_put_self, if_pos (beq_self_eq_true k)]
      rfl
    · rw [get?_put_of_ne (Ne.symm same), if_neg (by simpa using same)]

theorem get?_filter (keep : κ → Bool) (key : κ) (entries : Entries κ α) :
    get? key (entries.filter fun entry => keep entry.1) =
      if keep key then get? key entries else none := by
  induction entries with
  | nil => simp [get?]
  | cons entry rest ih =>
    obtain ⟨k, v⟩ := entry
    by_cases same : k = key
    · subst same
      cases kept : keep k with
      | false => simpa [kept] using ih
      | true => simp [kept, get?]
    · cases kept : keep k <;> simp [kept, get?, same, ih]

/-- Pairs with different keys are all kept as they are. -/
theorem ofPairs_of_nodup {pairs : List (κ × α)} (distinct : (keys pairs).Nodup) :
    ofPairs pairs = pairs :=
  foldl_put_of_nodup distinct

/-- No key is written twice, and what is written comes from the pairs. -/
theorem ofPairs_spec (pairs : List (κ × α)) :
    (keys (ofPairs pairs)).Nodup ∧ ∀ entry ∈ ofPairs pairs, entry ∈ pairs := by
  have written (before : Entries κ α) :
      ∀ entry ∈ pairs.foldl (fun entries pair => put pair.1 pair.2 entries) before,
        entry ∈ before ∨ entry ∈ pairs := by
    induction pairs generalizing before with
    | nil => exact fun entry member => .inl member
    | cons pair rest ih =>
      intro entry member
      rcases ih _ entry member with new | later
      · rcases eq_or_mem_of_mem_put new with rfl | old
        · exact .inr List.mem_cons_self
        · exact .inl old
      · exact .inr (List.mem_cons_of_mem _ later)
  exact ⟨nodup_keys_foldl_put pairs List.nodup_nil,
    fun entry member => (written [] entry member).resolve_left List.not_mem_nil⟩

theorem sum_put_le (weight : κ × α → Nat) (key : κ) (value : α) (entries : Entries κ α) :
    ((put key value entries).map weight).sum ≤ (entries.map weight).sum + weight (key, value) := by
  induction entries with
  | nil => simp [put]
  | cons entry rest ih =>
    obtain ⟨k, v⟩ := entry
    rw [put]
    split
    · next same =>
      obtain rfl := eq_of_beq same
      simp only [List.map_cons, List.sum_cons]
      omega
    · simp only [List.map_cons, List.sum_cons]
      omega

/-- What is overwritten does not weigh anything. -/
theorem sum_ofPairs_le (weight : κ × α → Nat) (pairs : List (κ × α)) :
    ((ofPairs pairs).map weight).sum ≤ (pairs.map weight).sum := by
  have written (before : Entries κ α) :
      ((pairs.foldl (fun entries pair => put pair.1 pair.2 entries) before).map weight).sum ≤
        (before.map weight).sum + (pairs.map weight).sum := by
    induction pairs generalizing before with
    | nil => simp
    | cons pair rest ih =>
      have first : _ ≤ _ + weight pair := sum_put_le weight pair.1 pair.2 before
      have later := ih (put pair.1 pair.2 before)
      rw [List.foldl_cons, List.map_cons, List.sum_cons]
      omega
  simpa [ofPairs] using written []

end

/-! ## Texts as keys -/

variable {α : Type}

theorem put_text (name : String) (value : α) (fields : Entries String α) :
    put (Key.text name) value (fields.map fun field => (.text field.1, field.2)) =
      (put name value fields).map fun field => (.text field.1, field.2) := by
  have same (other : String) : (Key.text other == .text name) = (other == name) := rfl
  induction fields with
  | nil => rfl
  | cons field rest ih =>
    simp only [put, List.map_cons, same]
    split
    · rfl
    · rw [ih, List.map_cons]

/-- Pairs with texts for keys are written like fields. -/
theorem ofPairs_text (fields : List (String × α)) :
    ofPairs (fields.map fun field => (Key.text field.1, field.2)) =
      (ofPairs fields).map fun field => (.text field.1, field.2) := by
  have written (before : Entries String α) :
      (fields.map fun field => (Key.text field.1, field.2)).foldl
          (fun entries pair => put pair.1 pair.2 entries)
          (before.map fun field => (.text field.1, field.2)) =
        (fields.foldl (fun entries pair => put pair.1 pair.2 entries) before).map
          fun field => (.text field.1, field.2) := by
    induction fields generalizing before with
    | nil => rfl
    | cons field rest ih =>
      simp only [List.map_cons, List.foldl_cons, put_text]
      exact ih _
  exact written []

end Patchbay.Entries
