import Patchbay.Proofs.Json.Scalars

/-!
# JSON on one line

Without an indentation the text of a document stands on one line: line feeds inside texts are
escaped, and nothing else breaks a line (`Json.text?_line`).
-/

namespace Patchbay

/-- A text that stands on one line. -/
def Unbroken (cs : List Char) : Prop :=
  '\n' ∉ cs

theorem Unbroken.append {cs ds : List Char} (first : Unbroken cs) (second : Unbroken ds) :
    Unbroken (cs ++ ds) := by
  rw [Unbroken, List.mem_append, not_or]
  exact ⟨first, second⟩

theorem Unbroken.cons {c : Char} {cs : List Char} (other : c ≠ '\n') (rest : Unbroken cs) :
    Unbroken (c :: cs) := by
  rw [Unbroken, List.mem_cons, not_or]
  exact ⟨other.symm, rest⟩

theorem Unbroken.of_subset {cs ds : List Char} (unbroken : Unbroken ds) (subset : cs ⊆ ds) :
    Unbroken cs :=
  fun member => unbroken (subset member)

theorem unbroken_nil : Unbroken [] :=
  List.not_mem_nil

theorem unbroken_replicate (n : Nat) {c : Char} (other : c ≠ '\n') :
    Unbroken (List.replicate n c) :=
  fun member => other (List.eq_of_mem_replicate member).symm

theorem unbroken_intercalate {separator : List Char} (between : Unbroken separator)
    {texts : List (List Char)} (parts : ∀ text ∈ texts, Unbroken text) :
    Unbroken (separator.intercalate texts) := by
  induction texts with
  | nil => exact unbroken_nil
  | cons text rest ih =>
    rw [List.forall_mem_cons] at parts
    cases rest with
    | nil =>
      rw [List.intercalate_singleton]
      exact parts.1
    | cons next others =>
      rw [List.intercalate_cons_cons]
      exact (parts.1.append between).append (ih parts.2)

namespace Decimal

theorem unbroken_toDigits {base : Nat} (positive : 1 < base) (small : base ≤ 16) (n : Nat) :
    Unbroken (Nat.toDigits base n) := by
  have digit : ∀ d < 16, d.digitChar ≠ '\n' := by decide
  -- the last digit is split off until none is left
  induction n using Nat.strongRecOn with
  | ind n ih =>
    by_cases last : n < base
    · rw [Nat.toDigits_of_lt_base last]
      exact .cons (digit n (by omega)) unbroken_nil
    · have below : n % base < base := Nat.mod_lt n (by omega)
      rw [Nat.toDigits_of_base_le positive (by omega)]
      exact (ih (n / base) (Nat.div_lt_self (by omega) positive)).append
        (.cons (digit _ (by omega)) unbroken_nil)

theorem unbroken_digits (n : Nat) : Unbroken (digits n) :=
  unbroken_toDigits (by decide) (by decide) n

theorem unbroken_integer (n : Int) : Unbroken (integer n) := by
  unfold integer
  split
  · exact .cons (by decide) (unbroken_digits _)
  · exact unbroken_digits _

theorem unbroken_pointed {ds : List Char} (unbroken : Unbroken ds) (places : Nat) :
    Unbroken (pointed ds places) := by
  unfold pointed
  refine .append (unbroken.of_subset (List.take_subset _ _)) (.cons (by decide) ?_)
  split
  · exact .cons (by decide) unbroken_nil
  · exact unbroken.of_subset (List.drop_subset _ _)

theorem unbroken_positional {ds : List Char} (unbroken : Unbroken ds) (point : Int) :
    Unbroken (positional ds point) := by
  have zeros (n : Nat) : Unbroken (List.replicate n '0') := unbroken_replicate n (by decide)
  unfold positional
  split
  · exact .cons (by decide) (.cons (by decide) ((zeros _).append unbroken))
  · exact unbroken_pointed (unbroken.append (zeros _)) _

theorem unbroken_scientific {ds : List Char} (unbroken : Unbroken ds) (width : Nat)
    (exponent : Int) : Unbroken (scientific width ds exponent) := by
  have power := (unbroken_replicate (width - (digits exponent.natAbs).length) (c := '0')
    (by decide)).append (unbroken_digits exponent.natAbs)
  have sign : (if exponent < 0 then '-' else '+') ≠ '\n' := by split <;> decide
  unfold scientific
  refine .append ?_ (.cons (by decide) (.cons sign power))
  split
  · exact unbroken_nil
  · exact unbroken
  · -- a point is put behind the first digit
    rename_i d rest _
    simp only [Unbroken, List.mem_cons, not_or] at unbroken ⊢
    exact ⟨unbroken.1, by decide, unbroken.2⟩

/-- A style in which the names of what is no number stand on one line. -/
structure Style.Unbroken (style : Style) : Prop where
  nan : Patchbay.Unbroken style.nan.toList
  infinity : Patchbay.Unbroken style.infinity.toList
  negativeInfinity : Patchbay.Unbroken style.negativeInfinity.toList

theorem Style.Unbroken.write {style : Style} (names : style.Unbroken) (x : Binary64) :
    Patchbay.Unbroken (style.write x) := by
  cases x with
  | nan => exact names.nan
  | infinity negative =>
    cases negative with
    | true => exact names.negativeInfinity
    | false => exact names.infinity
  | finite negative m q =>
    have body {ds : List Char} (unbroken : Patchbay.Unbroken ds) (exponent : Int) :
        Patchbay.Unbroken (if style.lowest ≤ exponent && exponent ≤ style.highest then
          positional ds (exponent + 1) else scientific style.exponentDigits ds exponent) := by
      split
      · exact unbroken_positional unbroken _
      · exact unbroken_scientific unbroken _ _
    have written := body (unbroken_digits (shortest m q).coefficient)
      ((shortest m q).exponent + (digits (shortest m q).coefficient).length - 1)
    unfold Style.write
    dsimp only
    split
    · exact .cons (by decide) written
    · exact written

end Decimal

namespace Json

theorem unbroken_escapeUnit (n : Nat) : Unbroken (escapeUnit n) := by
  have hex : Unbroken (Text.hex 4 n) := (unbroken_replicate _ (by decide)).append
    (Decimal.unbroken_toDigits (by decide) (by decide) n)
  exact .cons (by decide) (.cons (by decide) hex)

/-- Line feeds are escaped. -/
theorem unbroken_escape (ascii : Bool) (c : Char) : Unbroken (escape ascii c) := by
  unfold escape
  split_ifs with quote slash feed
  all_goals first
    | exact unbroken_escapeUnit _
    | exact (unbroken_escapeUnit _).append (unbroken_escapeUnit _)
    | exact .cons (by simpa using feed) unbroken_nil
    | simp [Unbroken]

theorem unbroken_printText (ascii : Bool) (s : String) : Unbroken (printText ascii s) := by
  refine .cons (by decide) (.append (fun member => ?_) (.cons (by decide) unbroken_nil))
  obtain ⟨c, -, inside⟩ := List.mem_flatMap.mp member
  exact unbroken_escape ascii c inside

/-- A layout that breaks no lines. -/
structure Layout.Unbroken (layout : Layout) : Prop where
  comma : Patchbay.Unbroken layout.comma.toList
  colon : Patchbay.Unbroken layout.colon.toList
  numbers : layout.numbers.Unbroken
  indent : layout.indent = none

theorem unbroken_compact : compact.Unbroken where
  comma := by simp [compact, Unbroken]
  colon := by simp [compact, Unbroken]
  numbers := by constructor <;> simp [compact, compactNumbers, Unbroken]
  indent := rfl

theorem unbroken_spaced : (spaced none).Unbroken where
  comma := by simp [spaced, Unbroken]
  colon := by simp [spaced, Unbroken]
  numbers := by constructor <;> simp [spaced, spacedNumbers, Unbroken]
  indent := rfl

theorem unbroken_bracket {layout : Layout} (unbroken : layout.Unbroken) (level : Nat)
    {opening closing : Char} (opens : opening ≠ '\n') (closes : closing ≠ '\n')
    {items : List (List Char)} (parts : ∀ item ∈ items, Unbroken item) :
    Unbroken (bracket layout level opening closing items) := by
  unfold bracket
  split
  · exact .cons opens (.cons closes unbroken_nil)
  · have comma : Unbroken (layout.comma.toList ++ []) := unbroken.comma.append unbroken_nil
    simp only [lineBreak, unbroken.indent, List.nil_append]
    exact .cons opens (.append (.append (unbroken_intercalate comma parts) unbroken_nil)
      (.cons closes unbroken_nil))

mutual

theorem print?_unbroken {layout : Layout} (unbroken : layout.Unbroken) (level : Nat) (v : Value)
    (cs : List Char) (printed : print? layout level v = some cs) : Unbroken cs := by
  match v with
  | .null =>
    cases printed
    simp [Unbroken]
  | .bool b =>
    cases printed
    cases b <;> simp [Unbroken]
  | .int n =>
    cases printed
    exact Decimal.unbroken_integer n
  | .float x =>
    cases printed
    exact unbroken.numbers.write x
  | .text s =>
    cases printed
    exact unbroken_printText _ s
  | .list items =>
    rw [print?, Option.map_eq_some_iff] at printed
    obtain ⟨texts, printed, rfl⟩ := printed
    exact unbroken_bracket unbroken level (by decide) (by decide)
      (printItems?_unbroken unbroken (level + 1) items texts printed)
  | .map entries =>
    rw [print?, Option.map_eq_some_iff] at printed
    obtain ⟨texts, printed, rfl⟩ := printed
    exact unbroken_bracket unbroken level (by decide) (by decide)
      (printEntries?_unbroken unbroken (level + 1) entries texts printed)

theorem printItems?_unbroken {layout : Layout} (unbroken : layout.Unbroken) (level : Nat)
    (items : List Value) (texts : List (List Char))
    (printed : printItems? layout level items = some texts) : ∀ text ∈ texts, Unbroken text := by
  match items with
  | [] =>
    cases printed
    exact List.forall_mem_nil _
  | v :: rest =>
    rw [printItems?] at printed
    split at printed
    · next text others first more =>
      cases printed
      exact List.forall_mem_cons.mpr ⟨print?_unbroken unbroken level v text first,
        printItems?_unbroken unbroken level rest others more⟩
    · cases printed

theorem printEntries?_unbroken {layout : Layout} (unbroken : layout.Unbroken) (level : Nat)
    (entries : List (Key × Value)) (texts : List (List Char))
    (printed : printEntries? layout level entries = some texts) :
    ∀ text ∈ texts, Unbroken text := by
  match entries with
  | [] =>
    cases printed
    exact List.forall_mem_nil _
  | (k, v) :: rest =>
    rw [printEntries?] at printed
    split at printed
    · next key text others named first more =>
      cases printed
      exact List.forall_mem_cons.mpr
        ⟨((unbroken_printText _ key).append unbroken.colon).append
          (print?_unbroken unbroken level v text first),
          printEntries?_unbroken unbroken level rest others more⟩
    · cases printed

end

/-- Without an indentation, a document is written on one line. -/
theorem text?_line {v : Value} {text : String} (written : text? v 0 = some text) :
    '\n' ∉ text.toList := by
  obtain ⟨layout, unbroken, chosen⟩ : ∃ layout : Layout, layout.Unbroken ∧
      text? v 0 = (print? layout 0 v).map String.ofList := by
    unfold text?
    dsimp only
    split
    · exact ⟨compact, unbroken_compact, rfl⟩
    · exact ⟨_, unbroken_spaced, rfl⟩
  rw [chosen, Option.map_eq_some_iff] at written
  obtain ⟨cs, printed, rfl⟩ := written
  rw [String.toList_ofList]
  exact print?_unbroken unbroken 0 v cs printed

end Json
end Patchbay
