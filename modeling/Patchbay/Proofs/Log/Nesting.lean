import Patchbay.Log
import Patchbay.Proofs.Entries
import Mathlib.Logic.Function.Basic

/-!
# Log variables under nested contexts

Contexts are entered and left like brackets, and may bind the same names. While they are nested, the
innermost binding of each name is the one that is seen, and leaving a context brings back what was
seen before it was entered (`Log.Scene.nested`).
-/

namespace Patchbay.Log

/-! ## One context -/

namespace Binder

theorem get?_enter {b : Binder} (distinct : (Entries.keys b.own).Nodup) (vars : Vars)
    (name : String) :
    Entries.get? name (b.enter vars).2 = (Entries.get? name b.own).or (Entries.get? name vars) :=
  Entries.get?_foldl_put distinct name vars

/-- A context remembers what it hides. -/
theorem get?_hidden (b : Binder) (vars : Vars) (name : String) :
    Entries.get? name (b.enter vars).1.hidden =
      if Entries.has name b.own then Entries.get? name vars else none :=
  Entries.get?_filter (fun name => Entries.has name b.own) name vars

theorem nodup_hidden (b : Binder) {vars : Vars} (distinct : (Entries.keys vars).Nodup) :
    (Entries.keys (b.enter vars).1.hidden).Nodup :=
  distinct.sublist (List.filter_sublist.map Prod.fst)

theorem nodup_enter (b : Binder) {vars : Vars} (distinct : (Entries.keys vars).Nodup) :
    (Entries.keys (b.enter vars).2).Nodup :=
  Entries.nodup_keys_foldl_put b.own distinct

theorem get?_exit {b : Binder} (distinct : (Entries.keys b.hidden).Nodup) (vars : Vars)
    (name : String) : Entries.get? name (b.exit vars) =
      (Entries.get? name b.hidden).or
        (if Entries.has name b.own then none else Entries.get? name vars) := by
  rw [exit, Entries.get?_foldl_put distinct,
    Entries.get?_filter fun name => !Entries.has name b.own]
  cases Entries.has name b.own <;> rfl

theorem nodup_exit (b : Binder) {vars : Vars} (distinct : (Entries.keys vars).Nodup) :
    (Entries.keys (b.exit vars)).Nodup :=
  Entries.nodup_keys_foldl_put b.hidden (distinct.sublist (List.filter_sublist.map Prod.fst))

/-- Whatever has been bound and unbound meanwhile, leaving a context restores what was there. -/
theorem get?_exit_enter {b : Binder} (distinct : (Entries.keys b.own).Nodup) {vars now : Vars}
    (clear : (Entries.keys vars).Nodup)
    (same : ∀ name, Entries.get? name now = Entries.get? name (b.enter vars).2) (name : String) :
    Entries.get? name ((b.enter vars).1.exit now) = Entries.get? name vars := by
  have own : (b.enter vars).1.own = b.own := rfl
  rw [get?_exit (b.nodup_hidden clear), get?_hidden, own, same, get?_enter distinct, Entries.has]
  cases Entries.get? name b.own <;> simp

end Binder

/-! ## Many contexts -/

/-- A context is entered or left. Contexts are known by number. -/
inductive Crossing where
  | enter (context : Nat)
  | exit (context : Nat)

/-- The variables that are bound, and the contexts that can be entered. -/
structure Scene where
  vars : Vars
  contexts : Nat → Binder

/-- The contexts that are active after some crossings, the innermost first, provided that none is
entered that is active, and none is left but the innermost. -/
def activeAfter (active : List Nat) : List Crossing → Option (List Nat)
  | [] => some active
  | .enter i :: rest => if i ∈ active then none else activeAfter (i :: active) rest
  | .exit i :: rest =>
    match active with
    | [] => none
    | j :: outer => if i = j then activeAfter outer rest else none

namespace Scene

def cross (s : Scene) : Crossing → Scene
  | .enter i =>
    let (entered, vars) := (s.contexts i).enter s.vars
    ⟨vars, Function.update s.contexts i entered⟩
  | .exit i => { s with vars := (s.contexts i).exit s.vars }

def after (s : Scene) (crossings : List Crossing) : Scene :=
  crossings.foldl cross s

/-- Names are bound at most once, at the start and by each context. -/
structure Clear (s : Scene) : Prop where
  vars : (Entries.keys s.vars).Nodup
  own : ∀ i, (Entries.keys (s.contexts i).own).Nodup

/-- What is seen under a name inside of contexts: what the innermost of them binds that binds the
name, and what has been bound from the start if none does. -/
def seen (start : Scene) (active : List Nat) (name : String) : Option Value :=
  (active.findSome? fun i => Entries.get? name (start.contexts i).own).or
    (Entries.get? name start.vars)

theorem seen_cons (start : Scene) (i : Nat) (outer : List Nat) (name : String) :
    start.seen (i :: outer) name =
      (Entries.get? name (start.contexts i).own).or (start.seen outer name) := by
  rw [seen, List.findSome?_cons]
  cases Entries.get? name (start.contexts i).own <;> rfl

/-- Each active context remembers what is seen around it of the names that it binds. -/
def Remembers (start s : Scene) : List Nat → Prop
  | [] => True
  | i :: outer => (Entries.keys (s.contexts i).hidden).Nodup ∧
    (∀ name, Entries.get? name (s.contexts i).hidden =
      if Entries.has name (start.contexts i).own then start.seen outer name else none) ∧
    Remembers start s outer

/-- Some contexts have been entered and not been left yet. -/
structure Inside (start s : Scene) (active : List Nat) : Prop where
  distinct : (Entries.keys s.vars).Nodup
  own : ∀ i, (s.contexts i).own = (start.contexts i).own
  sees : ∀ name, Entries.get? name s.vars = start.seen active name
  remembers : Remembers start s active

variable {start s : Scene} {active : List Nat}

theorem Clear.inside (clear : start.Clear) : Inside start start [] :=
  ⟨clear.vars, fun _ => rfl, fun _ => rfl, trivial⟩

/-- What others remember is not touched when a context is entered that is not among them. -/
theorem Remembers.enter {i : Nat} (new : i ∉ active) (remembers : Remembers start s active) :
    Remembers start (s.cross (.enter i)) active := by
  induction active with
  | nil => trivial
  | cons j outer ih =>
    rw [List.mem_cons, not_or] at new
    obtain ⟨distinct, hides, others⟩ := remembers
    have same : (s.cross (.enter i)).contexts j = s.contexts j :=
      Function.update_of_ne (Ne.symm new.1) _ _
    rw [Remembers, same]
    exact ⟨distinct, hides, ih new.2 others⟩

theorem Inside.enter (clear : start.Clear) (inside : Inside start s active) {i : Nat}
    (new : i ∉ active) : Inside start (s.cross (.enter i)) (i :: active) where
  distinct := Binder.nodup_enter _ inside.distinct
  own j := by
    by_cases same : j = i
    · subst same
      have entered : (s.cross (.enter j)).contexts j = ((s.contexts j).enter s.vars).1 :=
        Function.update_self _ _ _
      rw [entered]
      exact inside.own j
    · have untouched : (s.cross (.enter i)).contexts j = s.contexts j :=
        Function.update_of_ne same _ _
      rw [untouched, inside.own]
  sees name := by
    have distinct : (Entries.keys (s.contexts i).own).Nodup := by
      rw [inside.own]
      exact clear.own i
    refine (Binder.get?_enter distinct s.vars name).trans ?_
    rw [inside.own, inside.sees, seen_cons]
  remembers := by
    have entered : (s.cross (.enter i)).contexts i = ((s.contexts i).enter s.vars).1 :=
      Function.update_self _ _ _
    refine ⟨?_, fun name => ?_, inside.remembers.enter new⟩
    · rw [entered]
      exact Binder.nodup_hidden _ inside.distinct
    · rw [entered, Binder.get?_hidden, inside.own, inside.sees]

/-- The innermost context has kept what it hides, so that leaving it restores what is around it. -/
theorem Inside.exit {i : Nat} (inside : Inside start s (i :: active)) :
    Inside start (s.cross (.exit i)) active := by
  obtain ⟨distinct, hides, others⟩ := inside.remembers
  refine ⟨Binder.nodup_exit _ inside.distinct, inside.own, fun name => ?_, ?_⟩
  · refine (Binder.get?_exit distinct s.vars name).trans ?_
    rw [hides, inside.own, inside.sees, seen_cons, Entries.has]
    cases Entries.get? name (start.contexts i).own <;> simp
  · -- what the others remember does not depend on the variables
    clear inside hides distinct
    induction active with
    | nil => trivial
    | cons j outer ih => exact ⟨others.1, others.2.1, ih others.2.2⟩

theorem Inside.after (clear : start.Clear) {crossings : List Crossing} {now : List Nat}
    (inside : Inside start s active) (crossed : activeAfter active crossings = some now) :
    Inside start (s.after crossings) now := by
  induction crossings generalizing s active with
  | nil =>
    cases crossed
    exact inside
  | cons crossing rest ih =>
    cases crossing with
    | enter i =>
      simp only [activeAfter, Option.ite_none_left_eq_some] at crossed
      exact ih (inside.enter clear crossed.1) crossed.2
    | exit i =>
      cases active with
      | nil => cases crossed
      | cons j outer =>
        simp only [activeAfter, Option.ite_none_right_eq_some] at crossed
        obtain ⟨rfl, crossed⟩ := crossed
        exact ih inside.exit crossed

theorem activeAfter_append (active : List Nat) (first second : List Crossing) :
    activeAfter active (first ++ second) =
      (activeAfter active first).bind fun now => activeAfter now second := by
  induction first generalizing active with
  | nil => rfl
  | cons crossing rest ih =>
    cases crossing with
    | enter i =>
      simp only [List.cons_append, activeAfter]
      split
      · rfl
      · exact ih _
    | exit i =>
      cases active with
      | nil => rfl
      | cons j outer =>
        simp only [List.cons_append, activeAfter]
        split
        · exact ih _
        · rfl

/-- What is bound after crossings that are nested. -/
structure Nested (start : Scene) (crossings : List Crossing) (active : List Nat) : Prop where
  distinct : (Entries.keys (start.after crossings).vars).Nodup
  sees : ∀ name, Entries.get? name (start.after crossings).vars = start.seen active name
  /-- Whatever is crossed between entering a context and leaving it, the same is bound afterwards as
  before. -/
  restored : ∀ i inner, i ∉ active → activeAfter (i :: active) inner = some (i :: active) →
    ∀ name, Entries.get? name
        (start.after (crossings ++ .enter i :: inner ++ [.exit i])).vars =
      Entries.get? name (start.after crossings).vars

theorem nested (clear : start.Clear) {crossings : List Crossing}
    (crossed : activeAfter [] crossings = some active) : Nested start crossings active := by
  have inside := clear.inside.after clear crossed
  refine ⟨inside.distinct, inside.sees, fun i inner new within name => ?_⟩
  have back : activeAfter [] (crossings ++ .enter i :: inner ++ [.exit i]) = some active := by
    rw [List.append_assoc, activeAfter_append, crossed, Option.bind_some, List.cons_append,
      activeAfter, if_neg new, activeAfter_append, within, Option.bind_some]
    simp [activeAfter]
  rw [(clear.inside.after clear back).sees, inside.sees]

end Scene
end Patchbay.Log
