import Patchbay.Proofs.Json.TupleKeys
import Patchbay.Resolve
import Mathlib.Data.List.Basic

/-!
# Resolving is filling in

What resolving gives depends on one thing only: the value that each reference stands for. A
template is *filled* from such a reading, and `Scope.resolveAll_outcome` says that resolving the
arguments of an action fills each of them from the reading of the scope. Filling fails exactly if
some token stands for a value without a text, and looks at no reference but those of the tokens.
-/

namespace Patchbay

/-- What each reference stands for. -/
abbrev Reading := Reference → Value

namespace Template

/-- The text of tokens with the texts after them, each token replaced by the text of what it
stands for. -/
def fillParts (read : Reading) : List (List Char × List Char) → Except Fault (List Char)
  | [] => .ok []
  | (body, literal) :: rest => do
    let text ← (read (Reference.ofBody body)).toText
    let more ← fillParts read rest
    pure (text.toList ++ literal ++ more)

/-- A template with each token replaced by the text of what it stands for. -/
def fill (read : Reading) (t : Template) : Except Fault String :=
  (fillParts read t.tail).map fun more => String.ofList (t.head ++ more)

end Template

namespace Value

/-- An argument with its tokens replaced. Only texts have tokens. -/
def fill (read : Reading) : Value → Except Fault Value
  | .text s => ((Template.parse s.toList).fill read).map .text
  | value => .ok value

/-- Arguments with their tokens replaced. -/
def fillAll {κ : Type} (read : Reading) : Entries κ Value → Except Fault (Entries κ Value)
  | [] => .ok []
  | (name, arg) :: rest => do
    let arg ← arg.fill read
    let rest ← fillAll read rest
    pure ((name, arg) :: rest)

/-- The bodies of the tokens of an argument. -/
def tokens : Value → List (List Char)
  | .text s => (Template.parse s.toList).bodies
  | _ => []

theorem referencedIds_eq (arg : Value) :
    arg.referencedIds = arg.tokens.map fun body => (Reference.ofBody body).widget := by
  cases arg <;> rfl

/-- A value without a text is one that has a tuple for a key. -/
theorem toText_eq_error_iff (v : Value) :
    (∃ fault, v.toText = .error fault) ↔ v.HasTupleKey := by
  cases v with
  | null | bool b | int n | float x | text s =>
    simp only [toText, reduceCtorEq, exists_false, false_iff]
    rintro ⟨⟩
  -- a collection has a text just if it has a JSON form
  | list items =>
    rw [← Json.text?_eq_none_iff _ 0]
    simp only [toText]
    cases Json.text? (.list items) 0 <;> simp
  | map entries =>
    rw [← Json.text?_eq_none_iff _ 0]
    simp only [toText]
    cases Json.text? (.map entries) 0 <;> simp

theorem exists_toText {v : Value} (h : ¬v.HasTupleKey) : ∃ s, v.toText = .ok s := by
  cases text : v.toText with
  | ok s => exact ⟨s, rfl⟩
  | error fault => exact absurd ((toText_eq_error_iff v).mp ⟨fault, text⟩) h

end Value

/-! ## When filling fails -/

/-- Two results that are put together are there unless one of them fails. -/
private theorem both_eq_error_iff {α β γ : Type} (first : Except Fault α) (second : Except Fault β)
    (join : α → β → γ) :
    (∃ fault, (do let a ← first; let b ← second; pure (join a b)) = .error fault) ↔
      (∃ fault, first = .error fault) ∨ ∃ fault, second = .error fault := by
  cases first <;> cases second <;> simp [bind, Except.bind, pure, Except.pure]

namespace Template

theorem fillParts_eq_error_iff (read : Reading) (parts : List (List Char × List Char)) :
    (∃ fault, fillParts read parts = .error fault) ↔
      ∃ body ∈ parts.map Prod.fst, (read (Reference.ofBody body)).HasTupleKey := by
  -- A failure is that of the first part or one of the rest.
  induction parts with
  | nil => simp [fillParts]
  | cons part rest ih =>
    obtain ⟨body, literal⟩ := part
    rw [List.map_cons, List.exists_mem_cons_iff, ← ih, ← Value.toText_eq_error_iff]
    exact both_eq_error_iff _ _ _

theorem fillParts_congr {read other : Reading} (parts : List (List Char × List Char))
    (same : ∀ body ∈ parts.map Prod.fst,
      read (Reference.ofBody body) = other (Reference.ofBody body)) :
    fillParts read parts = fillParts other parts := by
  induction parts with
  | nil => rfl
  | cons part rest ih =>
    simp only [List.map_cons, List.mem_cons, forall_eq_or_imp] at same
    simp only [fillParts, same.1, ih same.2]

end Template

namespace Value

theorem fill_eq_error_iff (read : Reading) (arg : Value) :
    (∃ fault, arg.fill read = .error fault) ↔
      ∃ body ∈ arg.tokens, (read (Reference.ofBody body)).HasTupleKey := by
  cases arg with
  | text s =>
    simp only [fill, tokens, Template.bodies, ← Template.fillParts_eq_error_iff, Template.fill]
    cases Template.fillParts read (Template.parse s.toList).tail <;> simp [Except.map]
  | null | bool b | int n | float x | list items | map entries => simp [fill, tokens]

/-- Filling arguments fails exactly if a token of one of them stands for a value without a
text. -/
theorem fillAll_eq_error_iff {κ : Type} (read : Reading) (args : Entries κ Value) :
    (∃ fault, fillAll read args = .error fault) ↔
      ∃ arg ∈ args, ∃ body ∈ arg.2.tokens, (read (Reference.ofBody body)).HasTupleKey := by
  induction args with
  | nil => simp [fillAll]
  | cons arg rest ih =>
    rw [List.exists_mem_cons_iff, ← ih, ← fill_eq_error_iff]
    exact both_eq_error_iff _ _ _

theorem fill_congr {read other : Reading} (arg : Value)
    (same : ∀ body ∈ arg.tokens, read (Reference.ofBody body) = other (Reference.ofBody body)) :
    arg.fill read = arg.fill other := by
  cases arg with
  | text s => simp only [fill, Template.fill, Template.fillParts_congr _ same]
  | null | bool b | int n | float x | list items | map entries => rfl

/-- Filling arguments looks at no reference but those of their tokens. -/
theorem fillAll_congr {κ : Type} {read other : Reading} (args : Entries κ Value)
    (same : ∀ arg ∈ args, ∀ body ∈ arg.2.tokens,
      read (Reference.ofBody body) = other (Reference.ofBody body)) :
    fillAll read args = fillAll other args := by
  induction args with
  | nil => rfl
  | cons arg rest ih =>
    simp only [List.mem_cons, forall_eq_or_imp] at same
    simp only [fillAll, fill_congr arg.2 same.1, ih same.2]

end Value

/-! ## Scopes as readings -/

namespace Scope

/-- What a context has for a reference; null if nothing. -/
def given (scope : Scope) (ref : Reference) : Value :=
  ((scope.context.field? ref.widget).getD .null).property ref.property

/-- What a reference stands for: what the context has for it, else what the store has. -/
def reading (scope : Scope) : Reading := fun ref =>
  if (scope.given ref).isNull then scope.stored ref else scope.given ref

/-- A context is absent, or it is a map. -/
def Askable (scope : Scope) : Prop :=
  scope.context = .null ∨ ∃ entries, scope.context = .map entries

theorem property_null (name : Option String) : Value.null.property name = .null := by
  cases name with
  | none => rfl
  | some name => simp [Value.property]

/-- A context that is absent or a map can be asked for every reference. -/
theorem find_eq_reading {scope : Scope} (askable : scope.Askable) (ref : Reference) :
    scope.find ref = .ok (scope.reading ref) := by
  rcases askable with absent | ⟨entries, map⟩
  · simp [find, reading, given, absent, Value.field?, property_null, Value.isNull]
  · simp only [find, reading, given, map, Value.field?]

theorem expandToken_outcome {scope : Scope} (askable : scope.Askable) (body : List Char) :
    (scope.expandToken body).outcome = (scope.reading (Reference.ofBody body)).toText := by
  simp only [expandToken, find_eq_reading askable]

end Scope

theorem Resolved.andThen_outcome {α β : Type} (first : Resolved α) (second : α → Resolved β) :
    (first.andThen second).outcome = first.outcome.bind fun a => (second a).outcome := by
  unfold andThen
  cases h : first.outcome <;> simp [Except.bind]

namespace Scope

theorem expandParts_outcome {scope : Scope} (askable : scope.Askable)
    (parts : List (List Char × List Char)) :
    (scope.expandParts parts).outcome = Template.fillParts scope.reading parts := by
  induction parts with
  | nil => rfl
  | cons part rest ih =>
    simp only [expandParts, Resolved.andThen_outcome, expandToken_outcome askable, ih,
      Template.fillParts]
    rfl

theorem resolve_outcome {scope : Scope} (askable : scope.Askable) (arg : Value) :
    (scope.resolve arg).outcome = arg.fill scope.reading := by
  cases arg with
  | text s =>
    simp only [resolve, expand, Resolved.andThen_outcome, expandParts_outcome askable, Value.fill,
      Template.fill]
    cases Template.fillParts scope.reading (Template.parse s.toList).tail <;> rfl
  | null | bool b | int n | float x | list items | map entries => rfl

/-- Resolving the arguments of an action fills them from the reading of the scope. -/
theorem resolveAll_outcome {κ : Type} {scope : Scope} (askable : scope.Askable)
    (args : Entries κ Value) :
    (scope.resolveAll args).outcome = Value.fillAll scope.reading args := by
  induction args with
  | nil => rfl
  | cons arg rest ih =>
    simp only [resolveAll, Resolved.andThen_outcome, resolve_outcome askable, ih, Value.fillAll]
    rfl

/-! ## What resolving reads -/

section

variable {scope other : Scope}

theorem expandParts_congr {parts : List (List Char × List Char)}
    (same : ∀ body ∈ parts.map Prod.fst,
      scope.find (Reference.ofBody body) = other.find (Reference.ofBody body)) :
    scope.expandParts parts = other.expandParts parts := by
  induction parts with
  | nil => rfl
  | cons part rest ih =>
    simp only [List.map_cons, List.mem_cons, forall_eq_or_imp] at same
    simp only [expandParts, expandToken, same.1, ih same.2]

theorem resolve_congr {arg : Value} (same : ∀ id ∈ arg.referencedIds, ∀ property,
      scope.find ⟨id, property⟩ = other.find ⟨id, property⟩) :
    scope.resolve arg = other.resolve arg := by
  cases arg with
  | text s =>
    simp only [Value.referencedIds, List.forall_mem_map] at same
    simp only [resolve, expand, expandParts_congr fun body member => same body member _]
  | null | bool b | int n | float x | list items | map entries => rfl

/-- Resolving arguments looks up no widgets but those that their tokens refer to. -/
theorem resolveAll_congr {κ : Type} {args : Entries κ Value}
    (same : ∀ arg ∈ args, ∀ id ∈ arg.2.referencedIds, ∀ property,
      scope.find ⟨id, property⟩ = other.find ⟨id, property⟩) :
    scope.resolveAll args = other.resolveAll args := by
  induction args with
  | nil => rfl
  | cons arg rest ih =>
    simp only [List.mem_cons, forall_eq_or_imp] at same
    simp only [resolveAll, resolve_congr same.1, ih same.2]

end

/-- A reference reads the entry of its widget only, whatever the context is. -/
theorem find_congr {context : Value} {values values' : Entries String Value} {ref : Reference}
    (same : Entries.get? ref.widget values = Entries.get? ref.widget values') :
    find ⟨context, values⟩ ref = find ⟨context, values'⟩ ref := by
  simp only [find, stored, same]

/-- Whatever the context is, a text is resolved to a text. -/
theorem resolve_text {scope : Scope} {s : String} {v : Value}
    (resolved : (scope.resolve (.text s)).outcome = .ok v) : ∃ t, v = .text t := by
  rw [resolve, Resolved.andThen_outcome] at resolved
  cases expanded : (scope.expand (Template.parse s.toList)).outcome with
  | error fault => simp [expanded, Except.bind] at resolved
  | ok t =>
    simp only [expanded, Except.bind, Except.ok.injEq] at resolved
    exact ⟨t, resolved.symm⟩

theorem resolveAll_single {κ : Type} {scope : Scope} {name : κ} {arg : Value}
    {args : Entries κ Value} (resolved : (scope.resolveAll [(name, arg)]).outcome = .ok args) :
    ∃ v, (scope.resolve arg).outcome = .ok v ∧ args = [(name, v)] := by
  rw [resolveAll, Resolved.andThen_outcome] at resolved
  cases own : (scope.resolve arg).outcome with
  | error fault => simp [own, Except.bind] at resolved
  | ok v =>
    simp only [own, Except.bind, resolveAll, Resolved.andThen, List.append_nil,
      Except.ok.injEq] at resolved
    exact ⟨v, rfl, resolved.symm⟩

end Scope
end Patchbay
