import Mathlib.Data.List.Nodup
import Patchbay.Store

/-!
# Watches and the functions that end them

Whoever watches an entry is given a function that ends the watch. The store does not know which
watch a function belongs to: a call takes the first one away that is left of the same observer on
the same entry. `lasting` are the watches that are left in this way, `uncancelled` those whose own
functions have not been called. They are the same exactly as long as the watch that each call takes
away is its own (`lasting_eq_iff`), as it always is where no observer watches an entry twice
(`Marked.heeded_of_unalike`).
-/

namespace Patchbay

/-- A watch, with the name of the function that ends it. -/
structure Watch where
  handle : String
  subscription : Subscription

/-- A watch begins, or the function of a watch is called. -/
inductive Mark where
  | made (w : Watch)
  | asked (w : Watch)

theorem Observer.same_refl (o : Observer) : o.same o = true := by
  cases o <;> simp [same]

theorem Observer.same_eq_of_same {o other : Observer} (same : o.same other = true)
    (third : Observer) : o.same third = other.same third := by
  cases o <;> cases other <;> cases third <;> simp_all [Observer.same]

/-- Whether another watch is of the same observer on the same entry. -/
def Watch.alike (w other : Watch) : Bool :=
  other.subscription.id == w.subscription.id &&
    other.subscription.observer.same w.subscription.observer

theorem Watch.alike_self (w : Watch) : w.alike w = true := by
  simp [alike, Observer.same_refl]

theorem Watch.alike_eq_of_alike {v w : Watch} (alike : w.alike v = true) (third : Watch) :
    third.alike v = third.alike w := by
  simp only [Watch.alike, Bool.and_eq_true, beq_iff_eq] at alike
  simp only [Watch.alike, alike.1, Observer.same_eq_of_same alike.2]

/-- The watches that have been made. -/
def madeIn (marks : List Mark) : List Watch :=
  marks.filterMap fun
    | .made w => some w
    | .asked _ => none

/-- The watches whose functions have been called, once for each call. -/
def askedIn (marks : List Mark) : List Watch :=
  marks.filterMap fun
    | .made _ => none
    | .asked w => some w

/-- The watches that are left if each call takes away the first one that is alike. -/
def lasting (marks : List Mark) : List Watch :=
  marks.foldl (fun watches mark => match mark with
    | .made w => watches ++ [w]
    | .asked w => watches.eraseP w.alike) []

/-- The watches that are left if each call takes away its own. -/
def uncancelled (marks : List Mark) : List Watch :=
  marks.foldl (fun watches mark => match mark with
    | .made w => watches ++ [w]
    | .asked w => watches.filter (·.handle != w.handle)) []

/-- Whenever the function of a watch is called, the first watch left that is alike is this one, if
there is any. -/
def Heeded (marks : List Mark) : Prop :=
  ∀ before w, before ++ [.asked w] <+: marks →
    ∀ v, (uncancelled before).find? w.alike = some v → v.handle = w.handle

/-- Functions belong to watches that have been made before, and each to another one. -/
inductive Marked : List Mark → Prop
  | nil : Marked []
  | made {marks : List Mark} {w : Watch} (earlier : Marked marks)
    (new : w.handle ∉ (madeIn marks).map Watch.handle) : Marked (marks ++ [.made w])
  | asked {marks : List Mark} {w : Watch} (earlier : Marked marks) (known : w ∈ madeIn marks) :
    Marked (marks ++ [.asked w])

section

variable (marks : List Mark) (w : Watch)

theorem madeIn_append (later : List Mark) :
    madeIn (marks ++ later) = madeIn marks ++ madeIn later :=
  List.filterMap_append

theorem madeIn_made : madeIn (marks ++ [.made w]) = madeIn marks ++ [w] := by
  simp [madeIn]

theorem madeIn_asked : madeIn (marks ++ [.asked w]) = madeIn marks := by
  simp [madeIn]

theorem askedIn_made : askedIn (marks ++ [.made w]) = askedIn marks := by
  simp [askedIn]

theorem askedIn_asked : askedIn (marks ++ [.asked w]) = askedIn marks ++ [w] := by
  simp [askedIn]

theorem lasting_made : lasting (marks ++ [.made w]) = lasting marks ++ [w] := by
  simp [lasting]

theorem lasting_asked : lasting (marks ++ [.asked w]) = (lasting marks).eraseP w.alike := by
  simp [lasting]

theorem uncancelled_made : uncancelled (marks ++ [.made w]) = uncancelled marks ++ [w] := by
  simp [uncancelled]

theorem uncancelled_asked : uncancelled (marks ++ [.asked w]) =
    (uncancelled marks).filter (·.handle != w.handle) := by
  simp [uncancelled]

end

namespace Marked

theorem nodup_made {marks : List Mark} (marked : Marked marks) :
    ((madeIn marks).map Watch.handle).Nodup := by
  induction marked with
  | nil => exact List.nodup_nil
  | made _ new ih =>
    rw [madeIn_made, List.map_append]
    exact ih.append (List.nodup_singleton _) (List.disjoint_singleton.mpr new)
  | asked _ _ ih => rwa [madeIn_asked]

theorem uncancelled_sublist {marks : List Mark} (marked : Marked marks) :
    (uncancelled marks).Sublist (madeIn marks) := by
  induction marked with
  | nil => exact .slnil
  | made _ _ ih =>
    rw [uncancelled_made, madeIn_made]
    exact ih.append (.refl _)
  | asked _ _ ih =>
    rw [uncancelled_asked, madeIn_asked]
    exact List.filter_sublist.trans ih

theorem lasting_sublist {marks : List Mark} (marked : Marked marks) :
    (lasting marks).Sublist (madeIn marks) := by
  induction marked with
  | nil => exact .slnil
  | made _ _ ih =>
    rw [lasting_made, madeIn_made]
    exact ih.append (.refl _)
  | asked _ _ ih =>
    rw [lasting_asked, madeIn_asked]
    exact List.eraseP_sublist.trans ih

/-- A handle is the name of one watch. -/
theorem eq_of_handle {marks : List Mark} (marked : Marked marks) {v w : Watch}
    (member : v ∈ madeIn marks) (member' : w ∈ madeIn marks) (same : v.handle = w.handle) :
    v = w :=
  List.inj_on_of_nodup_map marked.nodup_made member member' same

theorem nodup_uncancelled {marks : List Mark} (marked : Marked marks) :
    ((uncancelled marks).map Watch.handle).Nodup :=
  marked.nodup_made.sublist (marked.uncancelled_sublist.map Watch.handle)

theorem mem_uncancelled {marks : List Mark} (marked : Marked marks) {v : Watch}
    (member : v ∈ madeIn marks) (unasked : v ∉ askedIn marks) : v ∈ uncancelled marks := by
  induction marked with
  | nil => exact member
  | made _ _ ih =>
    rw [madeIn_made] at member
    rw [askedIn_made] at unasked
    rw [uncancelled_made]
    rcases List.mem_append.mp member with earlier | last
    · exact List.mem_append_left _ (ih earlier unasked)
    · exact List.mem_append_right _ last
  | asked earlier known ih =>
    rw [madeIn_asked] at member
    rw [askedIn_asked, List.mem_append, not_or] at unasked
    rw [uncancelled_asked]
    refine List.mem_filter.mpr ⟨ih member unasked.1, bne_iff_ne.mpr fun same => unasked.2 ?_⟩
    exact List.mem_singleton.mpr (earlier.eq_of_handle member known same)

/-- To take a watch away by its name leaves all others. -/
theorem filter_eq_of_split {watches earlier later : List Watch} {v : Watch}
    (distinct : (watches.map Watch.handle).Nodup) (split : watches = earlier ++ v :: later) :
    watches.filter (·.handle != v.handle) = earlier ++ later := by
  rw [split, List.map_append, List.map_cons, List.nodup_middle, ← List.map_append] at distinct
  have rest : ∀ u ∈ earlier ++ later, (u.handle != v.handle) = true := by
    intro u member
    rw [bne_iff_ne]
    exact fun equal => distinct.notMem (equal ▸ List.mem_map_of_mem member)
  rw [List.forall_mem_append] at rest
  simp [split, List.filter_eq_self.mpr rest.1, List.filter_eq_self.mpr rest.2]

/-- As long as no function is called twice, as many watches last of an observer on an entry as are
not cancelled. -/
theorem countP_lasting {marks : List Mark} (marked : Marked marks) (once : (askedIn marks).Nodup)
    (v : Watch) : (lasting marks).countP v.alike = (uncancelled marks).countP v.alike := by
  induction marked generalizing v with
  | nil => rfl
  | made _ _ ih =>
    rw [askedIn_made] at once
    rw [lasting_made, uncancelled_made, List.countP_append, List.countP_append, ih once]
  | @asked marks w earlier known ih =>
    rw [askedIn_asked] at once
    have unasked : w ∉ askedIn marks := fun before =>
      (List.nodup_append.mp once).2.2 _ before _ (List.mem_singleton_self w) rfl
    have own := earlier.mem_uncancelled known unasked
    have same := ih (List.nodup_append.mp once).1
    -- the watch itself is not cancelled, so one that is alike lasts
    have some : 0 < (lasting marks).countP w.alike := by
      rw [same, List.countP_pos_iff]
      exact ⟨w, own, w.alike_self⟩
    obtain ⟨x, lasts, alike⟩ := List.countP_pos_iff.mp some
    obtain ⟨first, before, after, _, likewise, split, erased⟩ := List.exists_of_eraseP lasts alike
    obtain ⟨before', after', split'⟩ := List.append_of_mem own
    have counts := same v
    rw [lasting_asked, uncancelled_asked, erased,
      filter_eq_of_split earlier.nodup_uncancelled split']
    rw [split, split'] at counts
    simp only [List.countP_append, List.countP_cons, Watch.alike_eq_of_alike likewise] at counts ⊢
    omega

/-- To take away the first watch that is alike is to take away a certain one, exactly if that is the
first. -/
theorem eraseP_eq_iff {marks : List Mark} (marked : Marked marks) {w : Watch}
    (known : w ∈ madeIn marks) :
    (uncancelled marks).eraseP w.alike = (uncancelled marks).filter (·.handle != w.handle) ↔
      ∀ v, (uncancelled marks).find? w.alike = some v → v.handle = w.handle := by
  have sublist := marked.uncancelled_sublist
  have distinct := marked.nodup_uncancelled
  cases found : (uncancelled marks).find? w.alike with
  | none =>
    -- the watch itself is no longer left, and no other one is alike
    have unalike := List.find?_eq_none.mp found
    have gone : ∀ v ∈ uncancelled marks, (v.handle != w.handle) = true := by
      intro v member
      rw [bne_iff_ne]
      intro same
      rw [marked.eq_of_handle (sublist.subset member) known same] at member
      exact unalike w member w.alike_self
    simp [List.eraseP_of_forall_not unalike, List.filter_eq_self.mpr gone]
  | some v =>
    obtain ⟨alike, earlier, later, split, others⟩ := List.find?_eq_some_iff_append.mp found
    have erased : (uncancelled marks).eraseP w.alike = earlier ++ later := by
      rw [split, List.eraseP_append_right _ (by simpa using others), List.eraseP_cons, alike]
      rfl
    have named := filter_eq_of_split distinct split
    simp only [Option.some.injEq, forall_eq']
    rw [erased]
    constructor
    · -- were it another watch, it would be left
      intro same
      by_contra other
      have member : v ∈ (uncancelled marks).filter (·.handle != w.handle) :=
        List.mem_filter.mpr ⟨by simp [split], by simpa using other⟩
      rw [← same, ← named] at member
      simp at member
    · intro same
      rw [← same, named]

theorem heeded_append_iff {marks : List Mark} (mark : Mark) : Heeded (marks ++ [mark]) ↔
    Heeded marks ∧ ∀ w, mark = .asked w →
      ∀ v, (uncancelled marks).find? w.alike = some v → v.handle = w.handle := by
  constructor
  · intro heeded
    refine ⟨fun before w within => heeded before w (within.trans (List.prefix_append _ _)), ?_⟩
    rintro w rfl
    exact heeded marks w (List.prefix_refl _)
  · rintro ⟨earlier, last⟩ before w within
    rcases List.prefix_concat_iff.mp within with whole | within
    · obtain ⟨rfl, same⟩ := List.append_inj' whole rfl
      exact last w (List.singleton_inj.mp same).symm
    · exact earlier before w within

/-- Exactly while calls are heeded, the watches that last are those that are not cancelled. -/
theorem lasting_eq_iff {marks : List Mark} (marked : Marked marks) :
    (∀ before, before <+: marks → lasting before = uncancelled before) ↔ Heeded marks := by
  have extend (marks : List Mark) (mark : Mark) :
      (∀ before, before <+: marks ++ [mark] → lasting before = uncancelled before) ↔
        (∀ before, before <+: marks → lasting before = uncancelled before) ∧
          lasting (marks ++ [mark]) = uncancelled (marks ++ [mark]) := by
    simp only [List.prefix_concat_iff, or_imp, forall_and, forall_eq]
    exact and_comm
  induction marked with
  | nil =>
    constructor
    · intro _ before w within
      simp at within
    · intro _ before within
      rw [List.prefix_nil.mp within]
      rfl
  | made _ _ ih =>
    rw [extend, heeded_append_iff]
    refine (and_congr_left' ih).trans (and_congr_right fun heeded => ?_)
    have same := ih.mpr heeded _ (List.prefix_refl _)
    simp [lasting_made, uncancelled_made, same]
  | asked earlier known ih =>
    rw [extend, heeded_append_iff]
    refine (and_congr_left' ih).trans (and_congr_right fun heeded => ?_)
    have same := ih.mpr heeded _ (List.prefix_refl _)
    simp only [lasting_asked, uncancelled_asked, same, earlier.eraseP_eq_iff known,
      Mark.asked.injEq, forall_eq']

/-- Where no observer watches an entry twice, every call is heeded. -/
theorem heeded_of_unalike {marks : List Mark} (marked : Marked marks)
    (unalike : ∀ v ∈ madeIn marks, ∀ w ∈ madeIn marks, w.alike v → v = w) : Heeded marks := by
  induction marked with
  | nil =>
    intro before w within
    simp at within
  | made _ _ ih =>
    rw [heeded_append_iff]
    rw [madeIn_made] at unalike
    refine ⟨ih fun v member w member' => ?_, nofun⟩
    exact unalike v (List.mem_append_left _ member) w (List.mem_append_left _ member')
  | asked earlier known ih =>
    rw [heeded_append_iff]
    rw [madeIn_asked] at unalike
    refine ⟨ih unalike, ?_⟩
    rintro w ⟨⟩ v found
    have member := earlier.uncancelled_sublist.subset (List.mem_of_find?_eq_some found)
    rw [unalike v member _ known (List.find?_some found)]

end Marked

/-! ## Observers of an entry -/

/-- Who watches an entry, among some watches. -/
def observing (watches : List Watch) (id : String) : List Observer :=
  (watches.filter (·.subscription.id == id)).map (·.subscription.observer)

theorem observing_concat (watches : List Watch) (w : Watch) (id : String) :
    observing (watches ++ [w]) id = if id = w.subscription.id
      then observing watches id ++ [w.subscription.observer] else observing watches id := by
  by_cases same : id = w.subscription.id
  · simp [observing, same]
  · simp [observing, same, Ne.symm same]

/-- The store takes away the watch that it finds first. -/
theorem observing_eraseP (watches : List Watch) (w : Watch) (id : String) :
    observing (watches.eraseP w.alike) id = if id = w.subscription.id
      then Store.removeFirst w.subscription.observer (observing watches id)
      else observing watches id := by
  induction watches with
  | nil => simp [observing, Store.removeFirst]
  | cons v rest ih =>
    have unfolded (rest : List Watch) : observing (v :: rest) id =
        if v.subscription.id = id then v.subscription.observer :: observing rest id
        else observing rest id := by
      by_cases here : v.subscription.id = id <;> simp [observing, here]
    rw [List.eraseP_cons]
    by_cases alike : w.alike v = true
    · have both := alike
      simp only [Watch.alike, Bool.and_eq_true, beq_iff_eq] at both
      rw [alike, unfolded, both.1]
      by_cases same : id = w.subscription.id
      · simp [same, Store.removeFirst, both.2]
      · simp [same, Ne.symm same]
    · rw [Bool.not_eq_true] at alike
      rw [alike, cond_false, unfolded, unfolded, ih]
      by_cases same : id = w.subscription.id
      · subst same
        by_cases here : v.subscription.id = w.subscription.id
        · have other : v.subscription.observer.same w.subscription.observer = false := by
            simpa [Watch.alike, here] using alike
          simp [here, Store.removeFirst, other]
        · simp [here]
      · simp [same]

end Patchbay
