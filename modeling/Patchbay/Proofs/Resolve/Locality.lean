import Patchbay.Store
import Patchbay.Proofs.Resolve.Filling

/-!
# What resolving reads

Resolving arguments reads the entries of the widgets that their tokens refer to, in the store and in
the context, and nothing else: where two stores and two contexts have the same for these widgets,
the outcome is the same (`Scope.resolveAll_reads`).
-/

namespace Patchbay.Scope

/-- Two scopes have the same for a widget. What is absent counts as null. -/
structure SameFor (scope other : Scope) (id : String) : Prop where
  stored : (Entries.get? id scope.store).getD .null = (Entries.get? id other.store).getD .null
  given : (scope.context.field? id).getD .null = (other.context.field? id).getD .null

theorem SameFor.find_eq {scope other : Scope} {id : String} (same : scope.SameFor other id)
    (askable : scope.Askable) (askable' : other.Askable) (property : Option String) :
    scope.find ⟨id, property⟩ = other.find ⟨id, property⟩ := by
  have stored_ : scope.stored ⟨id, property⟩ = other.stored ⟨id, property⟩ :=
    congrArg (Value.property · property) same.stored
  have given_ : scope.given ⟨id, property⟩ = other.given ⟨id, property⟩ :=
    congrArg (Value.property · property) same.given
  rw [find_eq_reading askable, find_eq_reading askable', reading, reading, stored_, given_]

theorem resolve_of_no_text (scope : Scope) {arg : Value} (other : ∀ s, arg ≠ .text s) :
    scope.resolve arg = ⟨.ok arg, []⟩ := by
  cases arg with
  | text s => exact absurd rfl (other s)
  | null | bool | int | float | list | map => rfl

/-- A resolved argument has the name of the argument that it comes from, and is that argument if this
is no text. -/
def ComesFrom {κ : Type} (arg resolved : κ × Value) : Prop :=
  resolved.1 = arg.1 ∧ ((∀ s, arg.2 ≠ .text s) → resolved.2 = arg.2)

theorem resolveAll_comesFrom {κ : Type} {scope : Scope} {args resolved : Entries κ Value}
    (ok : (scope.resolveAll args).outcome = .ok resolved) :
    List.Forall₂ ComesFrom args resolved := by
  induction args generalizing resolved with
  | nil =>
    cases ok
    exact .nil
  | cons arg rest ih =>
    obtain ⟨name, value⟩ := arg
    rw [resolveAll, Resolved.andThen_outcome] at ok
    cases first : (scope.resolve value).outcome with
    | error fault => simp [first, Except.bind] at ok
    | ok v =>
      simp only [first, Except.bind, Resolved.andThen_outcome] at ok
      cases others : (scope.resolveAll rest).outcome with
      | error fault => simp [others] at ok
      | ok more =>
        simp only [others, Except.ok.injEq] at ok
        subst ok
        refine .cons ⟨rfl, fun other => ?_⟩ (ih others)
        rw [resolve_of_no_text scope other] at first
        exact (Except.ok.inj first).symm

/-- Resolving arguments comes to the same where two stores and two contexts have the same for all
widgets that the arguments refer to. Whatever is no text stays as it is. -/
theorem resolveAll_reads {κ : Type} {args : Entries κ Value} {store store' : Store}
    {context context' : Value} (askable : Askable ⟨context, store.values⟩)
    (askable' : Askable ⟨context', store'.values⟩)
    (same : ∀ arg ∈ args, ∀ id ∈ arg.2.referencedIds, store.get id = store'.get id ∧
      (context.field? id).getD .null = (context'.field? id).getD .null) :
    resolveAll ⟨context, store.values⟩ args = resolveAll ⟨context', store'.values⟩ args ∧
      ∀ resolved, (resolveAll ⟨context, store.values⟩ args).outcome = .ok resolved →
        List.Forall₂ ComesFrom args resolved := by
  refine ⟨resolveAll_congr fun arg member id referenced property => ?_,
    fun resolved ok => resolveAll_comesFrom ok⟩
  obtain ⟨stored_, given_⟩ := same arg member id referenced
  have sameFor : SameFor ⟨context, store.values⟩ ⟨context', store'.values⟩ id := ⟨stored_, given_⟩
  exact sameFor.find_eq askable askable' property

/-- An argument that refers to a property of one widget and to the whole of another, and one that
refers to none. -/
def mixedArgs : Entries String Value :=
  [("value", .text "$\x7ba.value\x7d of $\x7bb\x7d"), ("count", .int 3)]

/-- Two stores that differ in a widget that is not referred to, and in whether there is an entry for
one without a value. -/
def sparseStore : Store where
  values := [("a", .record [("value", .text "one")]), ("c", .int 1)]

def otherStore : Store where
  values := [("c", .int 2), ("b", .null), ("a", .record [("value", .text "one")])]

/-- A context without anything for the widgets that are referred to. -/
def idleContext : Value :=
  .record [("c", .text "three"), ("a", .null)]

theorem resolveAll_reads_mixed :
    (∀ arg ∈ mixedArgs, ∀ id ∈ arg.2.referencedIds, sparseStore.get id = otherStore.get id ∧
      (Value.null.field? id).getD .null = (idleContext.field? id).getD .null) ∧
    resolveAll ⟨.null, sparseStore.values⟩ mixedArgs =
      resolveAll ⟨idleContext, otherStore.values⟩ mixedArgs ∧
    ∃ resolved, (resolveAll ⟨.null, sparseStore.values⟩ mixedArgs).outcome = .ok resolved ∧
      List.Forall₂ ComesFrom mixedArgs resolved := by
  have same : ∀ arg ∈ mixedArgs, ∀ id ∈ arg.2.referencedIds,
      sparseStore.get id = otherStore.get id ∧
        (Value.null.field? id).getD .null = (idleContext.field? id).getD .null := by
    intro arg member id referenced
    have ids : ∀ arg ∈ mixedArgs, ∀ id ∈ arg.2.referencedIds, id = "a" ∨ id = "b" := by
      decide +kernel
    rcases ids arg member id referenced with rfl | rfl
    · exact ⟨rfl, rfl⟩
    · exact ⟨rfl, rfl⟩
  obtain ⟨alike, comesFrom⟩ := resolveAll_reads (.inl rfl) (.inr ⟨_, rfl⟩) same
  have succeeds : (resolveAll ⟨.null, sparseStore.values⟩ mixedArgs).outcome.isOk = true := by
    decide +kernel
  cases outcome : (resolveAll ⟨.null, sparseStore.values⟩ mixedArgs).outcome with
  | error fault =>
    rw [outcome] at succeeds
    cases succeeds
  | ok resolved => exact ⟨same, alike, resolved, rfl, comesFrom resolved outcome⟩

end Patchbay.Scope
