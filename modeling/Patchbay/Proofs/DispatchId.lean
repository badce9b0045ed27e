import Patchbay.DispatchId
import Mathlib

/-!
# Recognizing dispatch ids

The texts that are taken for numbers are the ones that write a number below `2 ^ 128` in 26 digits,
with letters in either case (`DispatchId.isNumber_iff`). A dispatch id is its mark and such a
number. Everything that is one is recognized, but so is whatever goes on behind a second underscore
(`DispatchId.recognized_iff`).
-/

namespace Patchbay.DispatchId

/-! ## Numbers -/

/-- The text writes a number below `2 ^ 128` in 26 digits. -/
def Numeral (cs : List Char) : Prop :=
  ∃ n < 2 ^ 128, cs.map Char.toUpper = writeDigits 26 n

theorem not_isLower_of_mem_digits {c : Char} (member : c ∈ digits) : ¬c.isLower := by
  have all : digits.all (fun d => !d.isLower) = true := by decide
  simpa using List.all_eq_true.mp all c member

theorem isDigit_iff {c : Char} : isDigit c = true ↔ c.toUpper ∈ digits := by
  simp only [isDigit, Bool.or_eq_true, Bool.and_eq_true, List.contains_iff_mem]
  by_cases lower : c.isLower = true
  · -- no digit is a small letter
    have other : c ∉ digits := fun member => not_isLower_of_mem_digits member lower
    simp [other, lower]
  · simp [lower, Char.toUpper_eq_of_not_isLower lower]

/-- Whether a character is one of the digits below 8 does not hang on its case. -/
theorem octal_toUpper (c : Char) :
    ('0' ≤ c.toUpper ∧ c.toUpper ≤ '7') ↔ ('0' ≤ c ∧ c ≤ '7') := by
  by_cases lower : c.isLower = true
  · have small : c.toUpper.isUpper = true := by
      rw [Char.isUpper_toUpper_eq_isAlpha, Char.isAlpha, lower, Bool.or_true]
    simp only [Char.isLower, Char.isUpper, Bool.and_eq_true, decide_eq_true_eq, Char.le_def,
      ge_iff_le, UInt32.le_iff_toNat_le] at lower small ⊢
    have a : 'a'.val.toNat = 97 := rfl
    have capital : 'A'.val.toNat = 65 := rfl
    have seven : '7'.val.toNat = 55 := rfl
    omega
  · rw [Char.toUpper_eq_of_not_isLower lower]

theorem exists_digit {c : Char} (member : c ∈ digits) : ∃ i < 32, digits.getD i '0' = c := by
  obtain ⟨i, bound, found⟩ := List.getElem_of_mem member
  exact ⟨i, bound, by rw [← found, List.getD_eq_getElem _ _ bound]⟩

theorem getD_digits_mem {i : Nat} (small : i < 32) : digits.getD i '0' ∈ digits := by
  have all : ∀ i < 32, digits.getD i '0' ∈ digits := by decide
  exact all i small

theorem octal_digit {i : Nat} (small : i < 32) :
    ('0' ≤ digits.getD i '0' ∧ digits.getD i '0' ≤ '7') ↔ i < 8 := by
  have all : ∀ i < 32, ('0' ≤ digits.getD i '0' ∧ digits.getD i '0' ≤ '7') ↔ i < 8 := by decide
  exact all i small

theorem mem_digits_of_mem_writeDigits {count n : Nat} {c : Char}
    (member : c ∈ writeDigits count n) : c ∈ digits := by
  induction count generalizing n with
  | zero => cases member
  | succ count ih =>
    rw [writeDigits, List.mem_append, List.mem_singleton] at member
    rcases member with before | rfl
    · exact ih before
    · exact getD_digits_mem (Nat.mod_lt n (by omega))

/-- Every sequence of digits is what some number is written as. -/
theorem exists_writeDigits {cs : List Char} (parts : ∀ c ∈ cs, c ∈ digits) :
    ∃ n < 32 ^ cs.length, writeDigits cs.length n = cs := by
  -- the last digit is the one that is split off from the number
  induction cs using List.reverseRecOn with
  | nil => exact ⟨0, by simp, rfl⟩
  | append_singleton cs c ih =>
    rw [List.forall_mem_append, List.forall_mem_singleton] at parts
    obtain ⟨n, bound, written⟩ := ih parts.1
    obtain ⟨i, small, digit⟩ := exists_digit parts.2
    refine ⟨n * 32 + i, ?_, ?_⟩
    · rw [List.length_append, List.length_singleton, Nat.pow_succ]
      omega
    · have front : (n * 32 + i) / 32 = n := by omega
      have last : (n * 32 + i) % 32 = i := by omega
      rw [List.length_append, List.length_singleton, writeDigits, front, last, written, digit]

theorem head?_writeDigits (count n : Nat) :
    (writeDigits (count + 1) n).head? = some (digits.getD (n / 32 ^ count % 32) '0') := by
  induction count generalizing n with
  | zero => simp [writeDigits]
  | succ count ih =>
    have nonempty : writeDigits (count + 1) (n / 32) ≠ [] := by
      rw [← List.length_pos_iff, length_writeDigits]
      omega
    rw [writeDigits, List.head?_append_of_ne_nil _ nonempty, ih, Nat.div_div_eq_div_mul,
      Nat.pow_succ']

/-- Of 26 digits, the first one says whether 128 bits are enough. -/
theorem octal_head_iff {n : Nat} (bound : n < 32 ^ 26) :
    (∃ c ∈ (writeDigits 26 n).head?, '0' ≤ c ∧ c ≤ '7') ↔ n < 2 ^ 128 := by
  have first : n / 32 ^ 25 < 32 := Nat.div_lt_of_lt_mul (by rwa [← Nat.pow_succ])
  have split : 2 ^ 128 = 8 * 32 ^ 25 := by norm_num
  rw [head?_writeDigits, Nat.mod_eq_of_lt first, split, ← Nat.div_lt_iff_lt_mul (by norm_num)]
  simp only [Option.mem_def, Option.some.injEq, exists_eq_left']
  exact octal_digit first

/-- A text is taken for a number exactly if it writes one. -/
theorem isNumber_iff {cs : List Char} : isNumber cs = true ↔ Numeral cs := by
  have head : (cs.head?.any fun c => '0' ≤ c && c ≤ '7') = true ↔
      ∃ c ∈ (cs.map Char.toUpper).head?, '0' ≤ c ∧ c ≤ '7' := by
    cases cs with
    | nil => simp
    | cons c cs => simp [octal_toUpper]
  have all : cs.all isDigit = true ↔ ∀ c ∈ cs.map Char.toUpper, c ∈ digits := by
    simp [isDigit_iff]
  rw [isNumber, Bool.and_eq_true, Bool.and_eq_true, decide_eq_true_eq, head, all, Numeral]
  constructor
  · rintro ⟨⟨length, parts⟩, octal⟩
    obtain ⟨n, bound, written⟩ := exists_writeDigits parts
    rw [List.length_map, length] at bound written
    rw [← written, octal_head_iff bound] at octal
    exact ⟨n, octal, written.symm⟩
  · rintro ⟨n, bound, written⟩
    have length : cs.length = 26 := by
      rw [← List.length_map Char.toUpper, written, length_writeDigits]
    have wide : n < 32 ^ 26 := bound.trans_le (by norm_num)
    rw [written]
    exact ⟨⟨length, fun c => mem_digits_of_mem_writeDigits⟩, (octal_head_iff wide).mpr bound⟩

theorem Numeral.not_mem {cs : List Char} (numeral : Numeral cs) : '_' ∉ cs := by
  intro member
  obtain ⟨n, -, written⟩ := numeral
  have digit : '_'.toUpper ∈ digits := by
    apply mem_digits_of_mem_writeDigits
    rw [← written]
    exact List.mem_map_of_mem member
  revert digit
  decide

/-! ## Ids -/

/-- A dispatch id: the mark and a number, and nothing else. -/
def Proper (id : String) : Prop :=
  ∃ number : String, Numeral number.toList ∧ id = mark ++ number

/-- The mark ends in the only underscore of an id. -/
theorem Proper.count {id : String} (proper : Proper id) : id.toList.count '_' = 1 := by
  obtain ⟨number, numeral, rfl⟩ := proper
  have own : mark.toList.count '_' = 1 := by decide
  rw [String.toList_append, List.count_append, own, List.count_eq_zero_of_not_mem numeral.not_mem]

theorem map_toUpper_writeDigits (count n : Nat) :
    (writeDigits count n).map Char.toUpper = writeDigits count n := by
  have capital : ∀ c ∈ writeDigits count n, c.toUpper = c := by
    intro c member
    apply Char.toUpper_eq_of_not_isLower
    exact not_isLower_of_mem_digits (mem_digits_of_mem_writeDigits member)
  rw [List.map_congr_left capital, List.map_id']

/-- The ids that are made are such. -/
theorem proper_ofNat (n : Nat) : Proper (ofNat n) := by
  refine ⟨String.ofList (writeDigits 26 (n % 2 ^ 128)), ⟨_, Nat.mod_lt n (by norm_num), ?_⟩, ?_⟩
  · rw [String.toList_ofList, map_toUpper_writeDigits]
  · rw [ofNat, String.ofList_append, String.ofList_toList]
    rfl

theorem numberPart_mark (tail : List Char) :
    numberPart (mark.toList ++ tail) = tail.takeWhile (· != '_') := by
  simp [numberPart, mark]

/-- An id is recognized by its mark and by what stands between its first two underscores. -/
theorem isDispatchId_iff {id : String} : isDispatchId id = true ↔
    ∃ tail, id.toList = mark.toList ++ tail ∧ Numeral (tail.takeWhile (· != '_')) := by
  rw [isDispatchId, Bool.and_eq_true, List.isPrefixOf_iff_prefix, isValid]
  constructor
  · rintro ⟨⟨tail, whole⟩, valid⟩
    rw [← whole, numberPart_mark, isNumber_iff] at valid
    exact ⟨tail, whole.symm, valid⟩
  · rintro ⟨tail, whole, numeral⟩
    rw [whole, numberPart_mark, isNumber_iff]
    exact ⟨List.prefix_append _ _, numeral⟩

/-- Whatever comes behind an id, it does not matter from an underscore on. -/
theorem Proper.recognized {own id : String} (proper : Proper own) (rest : List Char)
    (whole : id.toList = own.toList ++ rest) (stops : ∀ c ∈ rest.head?, c = '_') :
    isDispatchId id = true := by
  obtain ⟨number, numeral, rfl⟩ := proper
  have inside : ∀ c ∈ number.toList, (c != '_') = true := by
    intro c member
    rw [bne_iff_ne]
    rintro rfl
    exact numeral.not_mem member
  have behind : rest.takeWhile (· != '_') = [] := by
    cases rest with
    | nil => rfl
    | cons c rest => simp [stops c rfl]
  refine isDispatchId_iff.mpr ⟨number.toList ++ rest, ?_, ?_⟩
  · rw [whole, String.toList_append, List.append_assoc]
  · rwa [List.takeWhile_append_of_pos inside, behind, List.append_nil]

/-- The number of an id that is recognized ends at an underscore or with the text. -/
theorem exists_proper_of_recognized {id : String} (recognized : isDispatchId id = true) :
    ∃ own, Proper own ∧ (id = own ∨ ∃ more, id = own ++ "_" ++ more) := by
  obtain ⟨tail, whole, numeral⟩ := isDispatchId_iff.mp recognized
  have split := List.takeWhile_append_dropWhile (p := (· != '_')) (l := tail)
  have stop := List.head?_dropWhile_not (· != '_') tail
  generalize tail.takeWhile (· != '_') = number at numeral split
  refine ⟨mark ++ String.ofList number, ⟨_, by rwa [String.toList_ofList], rfl⟩, ?_⟩
  cases rest : tail.dropWhile (· != '_') with
  | nil =>
    left
    rw [rest, List.append_nil] at split
    rw [← String.toList_inj, whole, ← split, String.toList_append, String.toList_ofList]
  | cons c more =>
    right
    rw [rest] at split stop
    obtain rfl : c = '_' := by simpa using stop
    refine ⟨String.ofList more, ?_⟩
    rw [← String.toList_inj, whole, ← split]
    simp

/-- **What is recognized is a dispatch id, or one with an underscore and anything else behind it.**
So every dispatch id is recognized, the ones that are made included, and what is recognized
without a second underscore is a dispatch id. -/
theorem recognized_iff (id : String) :
    (isDispatchId id = true ↔
      ∃ own, Proper own ∧ (id = own ∨ ∃ more, id = own ++ "_" ++ more)) ∧
    (Proper id ↔ isDispatchId id = true ∧ id.toList.count '_' = 1) ∧
    ∀ n, isDispatchId (ofNat n) = true := by
  have alone {own : String} (proper : Proper own) : isDispatchId own = true :=
    proper.recognized [] (by simp) nofun
  refine ⟨⟨exists_proper_of_recognized, ?_⟩, ⟨fun proper => ⟨alone proper, proper.count⟩, ?_⟩,
    fun n => alone (proper_ofNat n)⟩
  · rintro ⟨own, proper, rfl | ⟨more, rfl⟩⟩
    · exact alone proper
    · exact proper.recognized ('_' :: more.toList) (by simp) (by simp)
  · rintro ⟨recognized, count⟩
    obtain ⟨own, proper, rfl | ⟨more, rfl⟩⟩ := exists_proper_of_recognized recognized
    · exact proper
    · -- one underscore is in the mark, and there is a second one
      have first := proper.count
      simp only [String.toList_append, List.count_append, first] at count
      have second : "_".toList.count '_' = 1 := by decide
      omega

/-- What stands behind a second underscore is not looked at, so a text that is no dispatch id can
be recognized. -/
theorem trailing_text_recognized :
    ¬(isDispatchId "dsp_01ARZ3NDEKTSV4RRFFQ69G5FAV_tail" = true ↔
      Proper "dsp_01ARZ3NDEKTSV4RRFFQ69G5FAV_tail") := by
  intro same
  have recognized : isDispatchId "dsp_01ARZ3NDEKTSV4RRFFQ69G5FAV_tail" = true := by decide +kernel
  have count := (same.mp recognized).count
  revert count
  decide +kernel

end Patchbay.DispatchId
