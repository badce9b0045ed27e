/-!
# Ordered maps

A map is the list of its entries. The first write of a key fixes its place and a later write
replaces the value where it stands, so the order of the entries is the order of first writes.
-/

namespace Patchbay

/-- The entries of an ordered map, the key that was written first at the front. -/
abbrev Entries (κ : Type u) (α : Type v) := List (κ × α)

namespace Entries

variable {κ : Type u} {α : Type v} [BEq κ]

def get? (key : κ) : Entries κ α → Option α
  | [] => none
  | (k, v) :: rest => if k == key then some v else get? key rest

/-- Writes a key: in place if it is there, at the end otherwise. -/
def put (key : κ) (value : α) : Entries κ α → Entries κ α
  | [] => [(key, value)]
  | (k, v) :: rest =>
    if k == key then (k, value) :: rest else (k, v) :: put key value rest

def erase (key : κ) (entries : Entries κ α) : Entries κ α :=
  entries.filter fun entry => !(entry.1 == key)

def has (key : κ) (entries : Entries κ α) : Bool :=
  (get? key entries).isSome

/-- Writes pairs one after another into an empty map. -/
def ofPairs (pairs : List (κ × α)) : Entries κ α :=
  pairs.foldl (fun entries pair => put pair.1 pair.2 entries) []

def keys (entries : List (κ × α)) : List κ :=
  entries.map Prod.fst

theorem get?_put_self [ReflBEq κ] (key : κ) (value : α) (entries : Entries κ α) :
    get? key (put key value entries) = some value := by
  induction entries with
  | nil => simp [put, get?]
  | cons entry rest ih =>
    by_cases h : entry.1 == key
    · simp [put, get?, h]
    · simp [put, get?, h, ih]

theorem get?_put_of_ne [LawfulBEq κ] {key other : κ} (ne : other ≠ key) (value : α)
    (entries : Entries κ α) : get? other (put key value entries) = get? other entries := by
  induction entries with
  | nil => simp [put, get?, Ne.symm ne]
  | cons entry rest ih =>
    by_cases h : entry.1 = key
    · simp [put, get?, h, Ne.symm ne]
    · simp [put, get?, h, ih]

theorem put_put [ReflBEq κ] (key : κ) (first second : α) (entries : Entries κ α) :
    put key second (put key first entries) = put key second entries := by
  induction entries with
  | nil => simp [put]
  | cons entry rest ih =>
    by_cases h : entry.1 == key
    · simp [put, h]
    · simp [put, h, ih]

theorem get?_erase_self [LawfulBEq κ] (key : κ) (entries : Entries κ α) :
    get? key (erase key entries) = none := by
  induction entries with
  | nil => rfl
  | cons entry rest ih =>
    by_cases h : entry.1 = key
    · simpa [erase, h] using ih
    · simpa [erase, get?, h] using ih

theorem get?_erase_of_ne [LawfulBEq κ] {key other : κ} (ne : other ≠ key)
    (entries : Entries κ α) : get? other (erase key entries) = get? other entries := by
  induction entries with
  | nil => rfl
  | cons entry rest ih =>
    by_cases h : entry.1 = key
    · have apart : (entry.1 == other) = false := by simp [h, Ne.symm ne]
      simpa [erase, get?, h, apart, Ne.symm ne] using ih
    · by_cases here : entry.1 = other
      · simp [erase, get?, here, ne]
      · simpa [erase, get?, h, here] using ih

theorem mem_of_get?_eq_some [LawfulBEq κ] {key : κ} {entries : Entries κ α} {value : α}
    (found : get? key entries = some value) : (key, value) ∈ entries := by
  induction entries with
  | nil => simp [get?] at found
  | cons entry rest ih =>
    by_cases h : entry.1 = key
    · simp only [get?, h, beq_self_eq_true, ↓reduceIte, Option.some.injEq] at found
      simp [← h, ← found]
    · simp only [get?, beq_iff_eq, h, ↓reduceIte] at found
      exact List.mem_cons_of_mem entry (ih found)

/-- What is there after a write has just been written, or was there before. -/
theorem eq_or_mem_of_mem_put [LawfulBEq κ] {key : κ} {value : α} {entries : Entries κ α}
    {entry : κ × α} (member : entry ∈ put key value entries) :
    entry = (key, value) ∨ entry ∈ entries := by
  induction entries with
  | nil => simpa [put] using member
  | cons first rest ih =>
    by_cases h : first.1 = key
    · simp only [put, h, beq_self_eq_true, ↓reduceIte, List.mem_cons] at member ⊢
      exact member.imp_right .inr
    · simp only [put, h, beq_iff_eq, ↓reduceIte, List.mem_cons] at member ⊢
      rcases member with here | later
      · exact .inr (.inl here)
      · exact (ih later).imp_right .inr

theorem has_iff_mem_keys [LawfulBEq κ] (key : κ) (entries : Entries κ α) :
    has key entries = true ↔ key ∈ keys entries := by
  induction entries with
  | nil => simp [has, get?, keys]
  | cons entry rest ih =>
    by_cases h : entry.1 = key
    · simp [has, get?, keys, h]
    · have apart : key ≠ entry.1 := Ne.symm h
      simpa [has, get?, keys, h, apart] using ih

/-- A new key comes last, a known one stays where it is. -/
theorem keys_put (key : κ) (value : α) (entries : Entries κ α) :
    keys (put key value entries) =
      if has key entries then keys entries else keys entries ++ [key] := by
  induction entries with
  | nil => rfl
  | cons entry rest ih =>
    by_cases h : entry.1 == key
    · simp [put, has, get?, keys, h]
    · simp only [put, has, get?, keys, h] at ih ⊢
      simp only [Bool.false_eq_true, ↓reduceIte, List.map_cons, ih]
      by_cases known : (get? key rest).isSome = true <;> simp [known]

theorem keys_subset_put (key : κ) (value : α) (entries : Entries κ α) :
    keys entries ⊆ keys (put key value entries) := by
  rw [keys_put]
  split
  · exact List.Subset.refl _
  · exact List.subset_append_left _ _

end Entries
end Patchbay
