import Patchbay.Json.Printer
import Patchbay.Json.Reader
import Mathlib.Data.List.Basic
import Mathlib.Tactic.IntervalCases

/-!
# Scalars that are written and read

The reader takes a number back from its digits (`Json.number?_integer`) and a text from its
characters and escapes, with or without those for characters beyond ASCII
(`Json.textRest_printed`), whatever follows as long as it does not go on with a number.
-/

namespace Patchbay.Json

/-! ## Numbers -/

/-- A number ends where this text begins. -/
def Ends (rest : List Char) : Prop :=
  ∀ c ∈ rest.head?, isDigit c = false ∧ c ≠ '.' ∧ c ≠ 'e' ∧ c ≠ 'E'

theorem Ends.nil : Ends [] :=
  nofun

theorem isDigit_of_mem_digits {n : Nat} {c : Char} (member : c ∈ Decimal.digits n) :
    isDigit c = true :=
  Nat.isDigit_of_mem_toDigits (by omega) (by omega) member

theorem natural_digits (n : Nat) : natural (Decimal.digits n) = n := by
  have same : natural (Decimal.digits n) = Nat.ofDigitChars 10 (Nat.toDigits 10 n) 0 := by
    simp only [natural, Nat.ofDigitChars, Decimal.digits, Nat.mul_comm 10]
    rfl
  rw [same, Nat.ofDigitChars_ten_toDigits]

theorem digits_ne_nil (n : Nat) : Decimal.digits n ≠ [] :=
  Nat.toDigits_ne_nil

/-- Only zero is written with a zero in front. -/
theorem head?_digits_ne_zero {n : Nat} (pos : 0 < n) : (Decimal.digits n).head? ≠ some '0' := by
  induction n using Nat.strong_induction_on with
  | _ n ih =>
    unfold Decimal.digits at ih ⊢
    by_cases small : n < 10
    · rw [Nat.toDigits_of_lt_base small]
      interval_cases n <;> decide
    · rw [Nat.toDigits_of_base_le (by omega) (by omega),
        List.head?_append_of_ne_nil _ Nat.toDigits_ne_nil]
      exact ih (n / 10) (by omega) (by omega)

theorem fraction?_of_ends {rest : List Char} (ends : Ends rest) :
    fraction? rest = some (none, rest) := by
  unfold fraction?
  split
  · exact absurd rfl (ends '.' rfl).2.1
  · rfl

theorem exponent?_of_ends {rest : List Char} (ends : Ends rest) :
    exponent? rest = some (none, rest) := by
  cases rest with
  | nil => rfl
  | cons c rest =>
    obtain ⟨-, -, small, large⟩ := ends c rfl
    simp [exponent?, small, large]

theorem unsigned?_digits (negative : Bool) (n : Nat) {rest : List Char} (ends : Ends rest) :
    unsigned? negative (Decimal.digits n ++ rest) =
      some (.int (if negative then -n else n), rest) := by
  have stops : rest.takeWhile isDigit = [] ∧ rest.dropWhile isDigit = rest := by
    cases rest with
    | nil => simp
    | cons c rest => simp [(ends c rfl).1]
  have whole : (Decimal.digits n ++ rest).takeWhile isDigit = Decimal.digits n := by
    rw [List.takeWhile_append_of_pos fun _ => isDigit_of_mem_digits, stops.1, List.append_nil]
  have after : (Decimal.digits n ++ rest).dropWhile isDigit = rest := by
    rw [List.dropWhile_append_of_pos fun _ => isDigit_of_mem_digits, stops.2]
  have leading : ((Decimal.digits n).isEmpty || ((Decimal.digits n).head? == some '0' &&
      (Decimal.digits n).length != 1)) = false := by
    rcases Nat.eq_zero_or_pos n with rfl | pos
    · decide
    · simp [digits_ne_nil, head?_digits_ne_zero pos]
  simp [unsigned?, whole, after, leading, fraction?_of_ends ends, exponent?_of_ends ends,
    natural_digits]

/-- A number is read back, of whatever size it is. -/
theorem number?_integer (n : Int) {rest : List Char} (ends : Ends rest) :
    number? (Decimal.integer n ++ rest) = some (.int n, rest) := by
  unfold Decimal.integer
  by_cases negative : n < 0
  · have value : -(n.natAbs : Int) = n := by omega
    rw [if_pos negative, List.cons_append, number?, unsigned?_digits true _ ends, if_pos rfl, value]
  · have value : (n.natAbs : Int) = n := by omega
    rw [if_neg negative]
    unfold number?
    split
    next tail cut =>
      -- the first character is a digit, so it is no sign
      have first : '-' ∈ Decimal.digits n.natAbs := by
        cases digits : Decimal.digits n.natAbs with
        | nil => exact absurd digits (digits_ne_nil _)
        | cons c cs =>
          rw [digits, List.cons_append] at cut
          cases cut
          exact List.mem_cons_self
      exact absurd (isDigit_of_mem_digits first) (by decide)
    · rw [unsigned?_digits false _ ends, if_neg Bool.false_ne_true, value]

/-! ## Texts -/

theorem hexDigit?_digitChar {n : Nat} (small : n < 16) : hexDigit? n.digitChar = some n := by
  interval_cases n <;> decide

/-- The last digit is split off, and so is a zero in front if there are no more. -/
theorem hex_succ (width n : Nat) :
    Text.hex (width + 2) n = Text.hex (width + 1) (n / 16) ++ [(n % 16).digitChar] := by
  unfold Text.hex
  by_cases small : n < 16
  · rw [Nat.toDigits_of_lt_base small, Nat.div_eq_of_lt small, Nat.mod_eq_of_lt small]
    simp [Nat.toDigits_of_lt_base, List.replicate_succ']
  · rw [Nat.toDigits_of_base_le (by omega) (by omega)]
    simp

/-- Four hexadecimal digits are read back as a unit. -/
theorem exists_hex_four {n : Nat} (small : n < 0x10000) :
    ∃ a b c d, Text.hex 4 n = [a, b, c, d] ∧ unit? a b c d = some n := by
  have single : Text.hex 1 (n / 16 / 16 / 16) = [(n / 16 / 16 / 16).digitChar] := by
    rw [Text.hex, Nat.toDigits_of_lt_base (by omega)]
    rfl
  refine ⟨(n / 16 / 16 / 16).digitChar, (n / 16 / 16 % 16).digitChar, (n / 16 % 16).digitChar,
    (n % 16).digitChar, ?_, ?_⟩
  · rw [hex_succ, hex_succ, hex_succ, single]
    rfl
  · simp only [unit?, hexDigit?_digitChar (n := n / 16 / 16 / 16) (by omega),
      hexDigit?_digitChar (Nat.mod_lt _ (by omega : 16 > 0)), Option.some.injEq]
    omega

theorem scalar_cases (c : Char) :
    c.toNat < 0xD800 ∨ (0xDFFF < c.toNat ∧ c.toNat < 0x110000) :=
  c.valid

section

variable (read rest : List Char)

/-- An escaped unit that is no half of a pair stands for its character. -/
theorem textRest_escapeUnit (c : Char) (small : c.toNat < 0x10000) :
    textRest none read (escapeUnit c.toNat ++ rest) = textRest none (c :: read) rest := by
  obtain ⟨p, q, r, s, digits, unit⟩ := exists_hex_four small
  have scalar := scalar_cases c
  have high : isHighHalf c.toNat = false := by
    simp [isHighHalf]
    omega
  have low : isLowHalf c.toNat = false := by
    simp [isLowHalf]
    omega
  simp [escapeUnit, digits, textRest, unit, high, low]

/-- Beyond 16 bits, the halves of a pair are put together again. -/
theorem textRest_pair (c : Char) (large : 0x10000 ≤ c.toNat) :
    textRest none read (escapeUnit (0xD800 + (c.toNat - 0x10000) / 0x400) ++
        (escapeUnit (0xDC00 + (c.toNat - 0x10000) % 0x400) ++ rest)) =
      textRest none (c :: read) rest := by
  have scalar := scalar_cases c
  generalize first : 0xD800 + (c.toNat - 0x10000) / 0x400 = high
  generalize second : 0xDC00 + (c.toNat - 0x10000) % 0x400 = low
  obtain ⟨p, q, r, s, digits, unit⟩ := exists_hex_four (n := high) (by omega)
  obtain ⟨p', q', r', s', digits', unit'⟩ := exists_hex_four (n := low) (by omega)
  have isHigh : isHighHalf high = true := by
    simp only [isHighHalf, Bool.and_eq_true, decide_eq_true_eq]
    omega
  have isLow : isLowHalf low = true := by
    simp only [isLowHalf, Bool.and_eq_true, decide_eq_true_eq]
    omega
  have joined : joinHalves high low = c := by
    have point : 0x10000 + (high - 0xD800) * 0x400 + (low - 0xDC00) = c.toNat := by omega
    rw [joinHalves, point, Char.ofNat_toNat]
  simp [escapeUnit, digits, digits', textRest, unit, unit', isHigh, isLow, joined]

/-- Whatever a character is written as, it is read back. -/
theorem textRest_escape (ascii : Bool) (c : Char) :
    textRest none read (escape ascii c ++ rest) = textRest none (c :: read) rest := by
  by_cases letter : c ∈ ['"', '\\', '\n', '\r', '\t', '\x08', '\x0c']
  · simp only [List.mem_cons, List.not_mem_nil, or_false] at letter
    rcases letter with rfl | rfl | rfl | rfl | rfl | rfl | rfl <;>
      simp [escape, textRest, unescape?]
  · simp only [List.mem_cons, List.not_mem_nil, or_false, not_or] at letter
    simp only [escape, letter, beq_iff_eq, ↓reduceIte]
    split
    · exact textRest_escapeUnit read rest c (by omega)
    next visible =>
      split
      · split
        · next small => exact textRest_escapeUnit read rest c small
        · rw [List.append_assoc]
          exact textRest_pair read rest c (by omega)
      · -- it stands for itself, being neither a quote nor a backslash nor a control character
        have itself : (decide (c.toNat < 0x20) || c == '\\') = false := by
          simp [visible, letter]
        simp [textRest, itself, letter]

end

theorem textRest_escaped (ascii : Bool) (cs read rest : List Char) :
    textRest none read (cs.flatMap (escape ascii) ++ '"' :: rest) =
      some (String.ofList (read.reverse ++ cs), rest) := by
  induction cs generalizing read with
  | nil => simp [textRest]
  | cons c cs ih =>
    rw [List.flatMap_cons, List.append_assoc, textRest_escape, ih]
    simp

theorem printText_append (ascii : Bool) (s : String) (rest : List Char) :
    printText ascii s ++ rest = '"' :: (s.toList.flatMap (escape ascii) ++ '"' :: rest) := by
  simp [printText]

/-- A text is read back, whatever characters it has. -/
theorem textRest_printed (ascii : Bool) (s : String) (rest : List Char) :
    textRest none [] (s.toList.flatMap (escape ascii) ++ '"' :: rest) = some (s, rest) := by
  simp [textRest_escaped]

end Patchbay.Json
