import Patchbay.Value

/-!
# Templates

A template is a text with tokens `${…}` in it. The body of a token refers to a widget and,
after a point, to one of its properties. Tokens are found from the left; a body is not empty and
ends at the first closing brace.
-/

namespace Patchbay

structure Reference where
  widget : String
  property : Option String
  deriving DecidableEq, Repr

/-- Splits the body of a token at its points. The first part is the widget, the second the
property; further parts count for nothing. -/
def Reference.ofBody (body : List Char) : Reference where
  widget := String.ofList (body.takeWhile (· != '.'))
  property := match body.dropWhile (· != '.') with
    | [] => none
    | _ :: rest => some (String.ofList (rest.takeWhile (· != '.')))

/-- A text cut at its tokens: the text before the first token, then each token's body with the
text that follows it. -/
structure Template where
  head : List Char
  tail : List (List Char × List Char)
  deriving DecidableEq, Repr

namespace Template

def token (body : List Char) : List Char :=
  '$' :: '\x7b' :: (body ++ ['\x7d'])

def print (t : Template) : List Char :=
  t.head ++ t.tail.flatMap fun part => token part.1 ++ part.2

/-- The body of the token that a text starts with. -/
def token? : List Char → Option (List Char)
  | '$' :: '\x7b' :: rest =>
    let body := rest.takeWhile (· != '\x7d')
    if body.isEmpty || (rest.dropWhile (· != '\x7d')).isEmpty then none else some body
  | _ => none

/-- Cuts a text at its tokens. The first `taken` characters belong to a token that has been found
already. -/
def cut : Nat → List Char → Template
  | _, [] => ⟨[], []⟩
  | taken + 1, _ :: rest => cut taken rest
  | 0, c :: rest =>
    match token? (c :: rest) with
    | some body =>
      -- The dollar sign is gone already, so two characters are left beside the body.
      let t := cut (body.length + 2) rest
      ⟨[], (body, t.head) :: t.tail⟩
    | none =>
      let t := cut 0 rest
      ⟨c :: t.head, t.tail⟩

def parse (cs : List Char) : Template :=
  cut 0 cs

def bodies (t : Template) : List (List Char) :=
  t.tail.map Prod.fst

/-- A token that is found is what the text starts with. -/
theorem eq_token_append_of_token? {cs body : List Char} (h : token? cs = some body) :
    cs = token body ++ cs.drop (body.length + 3) := by
  unfold token? at h
  split at h
  next rest =>
    simp only [Option.ite_none_left_eq_some, Option.some.injEq] at h
    obtain ⟨found, rfl⟩ := h
    have whole := List.takeWhile_append_dropWhile (p := (· != '\x7d')) (l := rest)
    cases tail : rest.dropWhile (· != '\x7d') with
    | nil => simp [tail] at found
    | cons c others =>
      have closing : c = '\x7d' := by
        have := List.head?_dropWhile_not (· != '\x7d') rest
        simpa [tail] using this
      rw [tail, closing] at whole
      generalize rest.takeWhile (· != '\x7d') = body at whole
      subst whole
      simp [token]
  next => simp at h

/-- A token's body is not empty and has no closing brace. -/
theorem body_of_token? {cs body : List Char} (h : token? cs = some body) :
    body ≠ [] ∧ '\x7d' ∉ body := by
  unfold token? at h
  split at h
  next rest =>
    simp only [Option.ite_none_left_eq_some, Option.some.injEq] at h
    obtain ⟨found, rfl⟩ := h
    refine ⟨fun empty => by simp [empty] at found, fun inside => ?_⟩
    have := List.all_eq_true.mp (List.all_takeWhile (p := (· != '\x7d')) (l := rest)) _ inside
    simp at this
  next => simp at h

/-- The pieces of a cut text make up what had not been taken from it. -/
theorem print_cut (taken : Nat) (cs : List Char) : (cut taken cs).print = cs.drop taken := by
  fun_induction cut taken cs with
  | case1 => simp [print]
  | case2 taken c rest ih => simpa using ih
  | case3 c rest body found t ih =>
    have whole := eq_token_append_of_token? found
    simp only [List.drop_succ_cons] at whole
    simp only [List.drop_zero]
    rw [whole, ← ih]
    simp [print, t]
  | case4 c rest none t ih => simpa [print, t] using ih

/-- Cutting a text loses nothing. -/
theorem print_parse (cs : List Char) : (parse cs).print = cs :=
  print_cut 0 cs

end Template

/-- The widgets that the tokens of an argument refer to, from left to right. Only texts have
tokens. -/
def Value.referencedIds : Value → List String
  | .text s => (Template.parse s.toList).bodies.map fun body => (Reference.ofBody body).widget
  | _ => []

end Patchbay
