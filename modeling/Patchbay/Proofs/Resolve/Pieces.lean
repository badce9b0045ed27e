import Patchbay.Template
import Mathlib.Data.List.TakeWhile

/-!
# The pieces of a template

A text can be cut into tokens and literals in one way only, if no token is to begin inside a
literal, not even one that goes on behind it: `Template.decomposes_iff`. So it does not matter from
which side tokens are looked for, and an opening that is never closed, or that closes at once, is
part of a literal.
-/

namespace Patchbay.Template

/-- What a token can hold: a text that is not empty and has no closing brace in it. -/
def IsBody (body : List Char) : Prop :=
  body ≠ [] ∧ '\x7d' ∉ body

/-- A text begins with a complete token. -/
def Opens (cs : List Char) : Prop :=
  ∃ body rest, IsBody body ∧ cs = token body ++ rest

/-- No complete token begins inside a literal that is followed by a text. -/
def Bare (literal rest : List Char) : Prop :=
  ∀ i < literal.length, ¬Opens ((literal ++ rest).drop i)

/-- The text of tokens with the literals after them. -/
def printParts (parts : List (List Char × List Char)) : List Char :=
  parts.flatMap fun part => token part.1 ++ part.2

/-- Every token has a proper body, and the literals after them are bare. -/
def AreExact : List (List Char × List Char) → Prop
  | [] => True
  | (body, literal) :: rest => IsBody body ∧ Bare literal (printParts rest) ∧ AreExact rest

/-- A text consists of the pieces of a template, and no token begins inside a literal. -/
structure Decomposes (t : Template) (cs : List Char) : Prop where
  whole : t.print = cs
  head : Bare t.head (printParts t.tail)
  parts : AreExact t.tail

theorem bare_nil (rest : List Char) : Bare [] rest :=
  fun i inside => absurd inside (Nat.not_lt_zero i)

theorem printParts_cons (body literal : List Char) (rest : List (List Char × List Char)) :
    printParts ((body, literal) :: rest) = token body ++ (literal ++ printParts rest) := by
  simp [printParts]

theorem AreExact.isBody {parts : List (List Char × List Char)} (exact_ : AreExact parts) :
    ∀ part ∈ parts, IsBody part.1 := by
  induction parts with
  | nil => simp
  | cons first rest ih =>
    intro part member
    rcases List.mem_cons.mp member with rfl | later
    · exact exact_.1
    · exact ih exact_.2.2 part later

/-! ## Finding a token -/

theorem token?_append {body : List Char} (isBody : IsBody body) (rest : List Char) :
    token? (token body ++ rest) = some body := by
  obtain ⟨filled, within⟩ := isBody
  have inside : ∀ c ∈ body, (c != '\x7d') = true := by
    intro c member
    simp only [bne_iff_ne, ne_eq]
    rintro rfl
    exact within member
  have taken : (body ++ '\x7d' :: rest).takeWhile (· != '\x7d') = body := by
    rw [List.takeWhile_append_of_pos inside]
    simp
  have left : (body ++ '\x7d' :: rest).dropWhile (· != '\x7d') = '\x7d' :: rest := by
    rw [List.dropWhile_append_of_pos inside]
    simp
  simp [token, token?, taken, left, filled]

/-- A token is found just where a text begins with one. -/
theorem token?_isSome_iff (cs : List Char) : (token? cs).isSome = true ↔ Opens cs := by
  rw [Option.isSome_iff_exists]
  constructor
  · rintro ⟨body, found⟩
    exact ⟨body, _, body_of_token? found, eq_token_append_of_token? found⟩
  · rintro ⟨body, rest, isBody, rfl⟩
    exact ⟨body, token?_append isBody rest⟩

theorem token?_eq_none_iff (cs : List Char) : token? cs = none ↔ ¬Opens cs := by
  rw [← token?_isSome_iff, Bool.not_eq_true, Option.isSome_eq_false_iff, Option.isNone_iff_eq_none]

/-! ## Cutting what has been put together -/

/-- What belongs to a token that has been found is passed over. -/
theorem cut_append (taken rest : List Char) : cut taken.length (taken ++ rest) = cut 0 rest := by
  induction taken with
  | nil => rfl
  | cons c taken ih => exact ih

theorem cut_token {body : List Char} (isBody : IsBody body) (rest : List Char) :
    cut 0 (token body ++ rest) = ⟨[], (body, (cut 0 rest).head) :: (cut 0 rest).tail⟩ := by
  have found := token?_append isBody rest
  have behind := cut_append (body ++ ['\x7d']) rest
  simp only [List.length_append, List.length_cons, List.length_nil, Nat.zero_add] at behind
  simp only [token, List.cons_append] at found behind ⊢
  simp only [cut, found, behind]

theorem cut_literal {literal rest : List Char} (bare : Bare literal rest) :
    cut 0 (literal ++ rest) = ⟨literal ++ (cut 0 rest).head, (cut 0 rest).tail⟩ := by
  induction literal with
  | nil => rfl
  | cons c literal ih =>
    have none := (token?_eq_none_iff _).mpr (bare 0 (Nat.zero_lt_succ _))
    have later : Bare literal rest := fun i inside => bare (i + 1) (Nat.succ_lt_succ inside)
    simp only [List.cons_append, List.drop_zero] at none ⊢
    simp only [cut, none, ih later]

theorem cut_parts {parts : List (List Char × List Char)} (exact_ : AreExact parts) :
    cut 0 (printParts parts) = ⟨[], parts⟩ := by
  induction parts with
  | nil => rfl
  | cons part rest ih =>
    obtain ⟨body, literal⟩ := part
    obtain ⟨isBody, bare, others⟩ := exact_
    rw [printParts_cons, cut_token isBody, cut_literal bare, ih others, List.append_nil]

theorem Decomposes.parse_eq {t : Template} {cs : List Char} (decomposes : t.Decomposes cs) :
    parse cs = t := by
  have printed : t.head ++ printParts t.tail = cs := decomposes.whole
  rw [← printed, parse, cut_literal decomposes.head, cut_parts decomposes.parts, List.append_nil]

/-! ## The pieces that are found -/

/-- No token begins inside a literal that is left when a text is cut. -/
theorem cut_exact (taken : Nat) (cs : List Char) :
    Bare (cut taken cs).head (printParts (cut taken cs).tail) ∧ AreExact (cut taken cs).tail := by
  fun_induction cut taken cs with
  | case1 => exact ⟨bare_nil _, trivial⟩
  | case2 taken c rest ih => exact ih
  | case3 c rest body found t ih =>
    exact ⟨bare_nil _, body_of_token? found, ih.1, ih.2⟩
  | case4 c rest none t ih =>
    -- the pieces of the rest make up the rest again, so no token begins in front of it
    have whole : t.head ++ printParts t.tail = rest := print_cut 0 rest
    refine ⟨fun i inside => ?_, ih.2⟩
    cases i with
    | zero =>
      rw [List.cons_append, whole]
      exact (token?_eq_none_iff _).mp none
    | succ i => exact ih.1 i (Nat.lt_of_succ_lt_succ inside)

theorem decomposes_parse (cs : List Char) : (parse cs).Decomposes cs :=
  ⟨print_parse cs, (cut_exact 0 cs).1, (cut_exact 0 cs).2⟩

/-- A text has one decomposition, and parsing finds it. -/
theorem decomposes_iff (t : Template) (cs : List Char) : t.Decomposes cs ↔ t = parse cs := by
  constructor
  · exact fun decomposes => decomposes.parse_eq.symm
  · rintro rfl
    exact decomposes_parse cs

/-- The first of two openings counts, one that closes at once does not, and one that is never closed
does not either. -/
example : parse "$$\x7ba$\x7bb\x7d$\x7b\x7d$\x7bc".toList =
    ⟨['$'], [("a$\x7bb".toList, "$\x7b\x7d$\x7bc".toList)]⟩ := by decide +kernel

end Patchbay.Template
