import Patchbay.Engine.Dispatch
import Patchbay.Proofs.Resolve.Filling
import Patchbay.Proofs.Resolve.Pieces

/-!
# Expanding is weaving

Expanding a template looks up its tokens from the left and puts the texts of what they refer to
between its literals. Nothing else of the text, the store or the context plays a part, and a text
that comes from a value goes into the result as it is (`Engine.template_expands`).
-/

namespace Patchbay

namespace Template

/-- The texts of tokens, each with the literal after its token. -/
def weaveParts : List (List Char × List Char) → List String → List Char
  | (_, literal) :: rest, text :: texts => text.toList ++ literal ++ weaveParts rest texts
  | _, _ => []

/-- The literals of a template with texts between them, one in the place of each token. -/
def weave (t : Template) (texts : List String) : String :=
  String.ofList (t.head ++ weaveParts t.tail texts)

end Template

namespace Scope

variable (scope : Scope)

/-- The text of what a token refers to. -/
def textOf (body : List Char) : Except Fault String :=
  (scope.find (Reference.ofBody body)).bind Value.toText

/-- Whether what a token refers to has a text. -/
def reads (body : List Char) : Bool :=
  (scope.textOf body).isOk

/-- Whether a token refers to nothing. -/
def lacks (body : List Char) : Bool :=
  match scope.find (Reference.ofBody body) with
  | .ok value => value.isNull
  | .error _ => false

/-- What is absent has the empty text. -/
theorem textOf_of_lacks {scope : Scope} {body : List Char} (absent : scope.lacks body = true) :
    scope.textOf body = .ok "" := by
  unfold lacks at absent
  unfold textOf
  cases found : scope.find (Reference.ofBody body) with
  | error fault => simp [found] at absent
  | ok value =>
    cases value with
    | null => rfl
    | bool | int | float | text | list | map => simp [found, Value.isNull] at absent

theorem expandToken_text (body : List Char) :
    (scope.expandToken body).outcome = scope.textOf body := by
  unfold expandToken textOf
  cases scope.find (Reference.ofBody body) <;> rfl

theorem expandToken_unresolved (body : List Char) :
    (scope.expandToken body).unresolved.length = if scope.lacks body then 1 else 0 := by
  unfold expandToken lacks
  cases scope.find (Reference.ofBody body) with
  | error fault => rfl
  | ok value => cases value <;> rfl

/-- Tokens are expanded to their texts, unless one of them has none. -/
theorem expandParts_outcome_eq (parts : List (List Char × List Char)) :
    (scope.expandParts parts).outcome =
      ((parts.map Prod.fst).mapM scope.textOf).map (Template.weaveParts parts) := by
  induction parts with
  | nil => rfl
  | cons part rest ih =>
    obtain ⟨body, literal⟩ := part
    rw [expandParts, Resolved.andThen_outcome, expandToken_text, List.map_cons, List.mapM_cons]
    cases scope.textOf body with
    | error fault => rfl
    | ok text =>
      simp only [Except.bind, Resolved.andThen_outcome, ih]
      cases (rest.map Prod.fst).mapM scope.textOf <;> rfl

/-- What is noted as unresolved are the absent ones among the tokens up to the first without a
text. -/
theorem expandParts_unresolved (parts : List (List Char × List Char)) :
    (scope.expandParts parts).unresolved.length =
      ((parts.map Prod.fst).takeWhile scope.reads).countP scope.lacks := by
  induction parts with
  | nil => rfl
  | cons part rest ih =>
    obtain ⟨body, literal⟩ := part
    have here := scope.expandToken_unresolved body
    have outcome := scope.expandToken_text body
    rw [expandParts, Resolved.andThen, List.map_cons]
    cases text : scope.textOf body with
    | error fault =>
      -- the token that fails is not absent, since what is absent has a text
      have present : scope.lacks body = false := by
        by_contra absent
        rw [Bool.not_eq_false] at absent
        cases text.symm.trans (textOf_of_lacks absent)
      have stops : scope.reads body = false := by simp only [reads, text]; rfl
      rw [outcome, text]
      simp only [List.takeWhile_cons, stops, here, present]
      rfl
    | ok text' =>
      have goes : scope.reads body = true := by simp only [reads, text]; rfl
      rw [outcome, text]
      simp only [List.takeWhile_cons, goes, if_true, List.countP_cons, List.length_append, here,
        Resolved.andThen]
      cases (scope.expandParts rest).outcome <;> simp [ih, Nat.add_comm]

end Scope

/-- The first part of a text that is split at a character is what stands in front of it. -/
theorem headD_splitOn (c : Char) (cs : List Char) :
    (cs.splitOn c).headD [] = cs.takeWhile (· != c) := by
  induction cs with
  | nil => rfl
  | cons d rest ih =>
    rw [List.splitOn, List.splitOnP_cons_eq_if_modifyHead, List.takeWhile_cons]
    by_cases same : d = c
    · simp [same]
    · rw [← ih, List.splitOn]
      cases parts : rest.splitOnP (· == c) with
      | nil => exact absurd parts (List.splitOnP_ne_nil _ _)
      | cons first others => simp [same]

namespace Engine

theorem noteUnresolved_unresolved (e : Engine) (tokens : List String) :
    (e.noteUnresolved tokens).shared.counters.unresolved =
      e.shared.counters.unresolved + tokens.length := by
  unfold noteUnresolved
  induction tokens generalizing e with
  | nil => rfl
  | cons token rest ih =>
    rw [List.foldl_cons, ih, List.length_cons, Nat.add_comm rest.length, ← Nat.add_assoc]
    rfl

/-- What resolving a text comes to whose pieces are those of a template. -/
structure Expands (e : Engine) (context : Value) (s : String) (t : Template) : Prop where
  /-- The texts of the tokens take their places, up to the first token without a text. -/
  outcome : (e.resolve (.text s) context).1 =
    (t.bodies.mapM (Scope.textOf ⟨context, e.board.store.values⟩)).map fun texts =>
      .text (t.weave texts)
  absent : ∀ body, Scope.lacks ⟨context, e.board.store.values⟩ body = true →
    Scope.textOf ⟨context, e.board.store.values⟩ body = .ok ""
  unchanged : t.bodies = [] → (e.resolve (.text s) context).1 = .ok (.text s)
  /-- Each token that is looked up and found absent is counted. -/
  counted : (e.resolve (.text s) context).2.shared.counters.unresolved =
    e.shared.counters.unresolved +
      (t.bodies.takeWhile (Scope.reads ⟨context, e.board.store.values⟩)).countP
        (Scope.lacks ⟨context, e.board.store.values⟩)

theorem resolve_text_outcome (e : Engine) (context : Value) (s : String) :
    (e.resolve (.text s) context).1 =
      ((Template.parse s.toList).bodies.mapM
        (Scope.textOf ⟨context, e.board.store.values⟩)).map fun texts =>
          .text ((Template.parse s.toList).weave texts) := by
  simp only [resolve, Scope.resolve, Scope.expand, Resolved.andThen_outcome,
    Scope.expandParts_outcome_eq, Template.bodies]
  cases ((Template.parse s.toList).tail.map Prod.fst).mapM
    (Scope.textOf ⟨context, e.board.store.values⟩) <;> rfl

theorem resolve_text_unresolved (e : Engine) (context : Value) (s : String) :
    (Scope.resolve ⟨context, e.board.store.values⟩ (.text s)).unresolved.length =
      ((Template.parse s.toList).bodies.takeWhile
        (Scope.reads ⟨context, e.board.store.values⟩)).countP
          (Scope.lacks ⟨context, e.board.store.values⟩) := by
  rw [Template.bodies, ← Scope.expandParts_unresolved]
  simp only [Scope.resolve, Scope.expand, Resolved.andThen]
  cases (Scope.expandParts ⟨context, e.board.store.values⟩ (Template.parse s.toList).tail).outcome
    <;> simp

theorem expands_parse (e : Engine) (context : Value) (s : String) :
    e.Expands context s (Template.parse s.toList) := by
  have outcome := e.resolve_text_outcome context s
  refine ⟨outcome, fun body absent => Scope.textOf_of_lacks absent, fun none => ?_, ?_⟩
  · -- without tokens the head is the whole text
    have tail : (Template.parse s.toList).tail = [] := List.map_eq_nil_iff.mp none
    have head : (Template.parse s.toList).head = s.toList := by
      have whole := Template.print_parse s.toList
      rwa [Template.print, tail, List.flatMap_nil, List.append_nil] at whole
    rw [outcome, none, List.mapM_nil]
    simp [Template.weave, tail, head, Template.weaveParts, pure, Except.pure, Except.map]
  · rw [← resolve_text_unresolved, resolve, noteUnresolved_unresolved]

/-- A text has one decomposition into literals and tokens. Resolving it, in whatever store and
context, puts the texts of what the tokens refer to between the literals, and the widgets that it
refers to are the first parts of the bodies. -/
theorem template_expands (s : String) : ∃ t : Template, t.Decomposes s.toList ∧
    (∀ other : Template, other.Decomposes s.toList → other = t) ∧
    (Value.text s).referencedIds =
      t.bodies.map (fun body => String.ofList ((body.splitOn '.').headD [])) ∧
    ∀ (e : Engine) (context : Value), e.Expands context s t := by
  refine ⟨Template.parse s.toList, Template.decomposes_parse _,
    fun other decomposes => decomposes.parse_eq.symm, ?_, fun e context => e.expands_parse context s⟩
  simp only [headD_splitOn]
  rfl

end Engine
end Patchbay
