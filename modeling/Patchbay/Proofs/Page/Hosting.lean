import Patchbay.Proofs.Page.Attention
import Patchbay.Proofs.Page.Opening

/-!
# Boards that anyone may use

Hosts add widgets, mount and unmount them and watch entries with observers of their own, in any
order and between any programs (`Engine.BoardMoves`). A widget then still watches its own entry
while it is mounted and no entry otherwise (`Engine.BoardMoves.attentive`). Opening and closing
pages is made of such moves.
-/

namespace Patchbay

open Relation (ReflTransGen)

namespace Engine

/-! ## Watches that begin and end -/

theorem attends_updateWidget (e : Engine) {ref : Nat} {w : Widget}
    (found : e.board.widgets[ref]? = some w) (f : Widget → Widget) (place : Nat) (id : String) :
    (e.updateWidget ref f).attends place id =
      if place = ref then (f w).mounted && (f w).id == id else e.attends place id := by
  split
  next same =>
    subst same
    exact attends_of_found (by simp [updateWidget, found]) id
  next other => simp [attends, still, updateWidget, Ne.symm other]

theorem still_updateWidget (e : Engine) {ref place : Nat} {f : Widget → Widget} {now : Widget}
    (found : (e.updateWidget ref f).still[place]? = some now) :
    e.still[place]? = some now ∨
      place = ref ∧ ∃ w, e.board.widgets[ref]? = some w ∧ now = (f w).still := by
  simp only [still, updateWidget, List.getElem?_map, List.getElem?_modify] at found ⊢
  by_cases same : ref = place
  · subst same
    cases there : e.board.widgets[ref]? with
    | none => simp [there] at found
    | some w => exact .inr ⟨rfl, w, rfl, by simpa [there, eq_comm] using found⟩
  · exact .inl (by simpa [same] using found)

/-- If one widget begins or ends the watch of its own entry, all widgets are attentive as before. -/
theorem Attentive.rewatched {e : Engine} (attentive : e.Attentive) {ref : Nat} {w : Widget}
    (found : e.board.widgets[ref]? = some w) {store : Store} {s : Option Subscription}
    (own : ∀ t, s = some t → t = ⟨w.id, .view ref⟩)
    (counts : ∀ place id, store.watches place id =
      if place = ref then if s.isSome ∧ id = w.id then 1 else 0
      else e.board.store.watches place id) :
    ((e.withStore store).updateWidget ref fun w => { w with subscription := s }).Attentive where
  watching place id := by
    have there : (e.withStore store).board.widgets[ref]? = some w := found
    rw [attends_updateWidget _ there]
    refine (counts place id).trans ?_
    split
    · simp [Widget.mounted, eq_comm (a := id)]
    · exact attentive.watching place id
  own place now there t subscribed := by
    rcases still_updateWidget _ there with before | ⟨rfl, w', found', rfl⟩
    · exact attentive.own place now before t subscribed
    · cases found.symm.trans found'
      exact own t subscribed
  handles := attentive.handles

/-- A widget that begins to watch its entry has not watched it before. -/
theorem Attentive.watches {e : Engine} (attentive : e.Attentive) {ref : Nat} {w : Widget}
    (found : e.board.widgets[ref]? = some w) (waiting : w.mounted = false) :
    (e.watching ref w.id).Attentive := by
  refine attentive.rewatched found (fun t is => (Option.some.inj is).symm) fun place id => ?_
  refine (Store.watches_subscribe e.board.store ⟨w.id, .view ref⟩ place id).trans ?_
  by_cases same : place = ref
  · subst same
    rw [attentive.watching, attends_of_found found, waiting]
    simp [Observer.isView]
  · simp [Observer.isView, same, Ne.symm same]

/-- A widget that watches its entry no longer. -/
def unwatching (ref : Nat) (id : String) (e : Engine) : Engine :=
  (e.withStore (e.board.store.unsubscribe ⟨id, .view ref⟩)).updateWidget ref fun w =>
    { w with subscription := none }

/-- The watch that a widget ends is its only one. -/
theorem Attentive.unwatches {e : Engine} (attentive : e.Attentive) {ref : Nat} {w : Widget}
    (found : e.board.widgets[ref]? = some w) : (e.unwatching ref w.id).Attentive := by
  refine attentive.rewatched found (fun _ ended => by cases ended) fun place id => ?_
  refine (Store.watches_unsubscribe e.board.store ⟨w.id, .view ref⟩ place id).trans ?_
  by_cases same : place = ref
  · subst same
    rw [attentive.watching, attends_of_found found]
    by_cases mine : id = w.id
    · cases w.mounted <;> simp [mine, Observer.isView]
    · simp [mine, Ne.symm mine]
  · simp [Observer.isView, same, Ne.symm same]

/-- To unmount a widget is to end its watch, if it has one. -/
theorem Attentive.unmount_eq {e : Engine} (attentive : e.Attentive) {ref : Nat} {w : Widget}
    (found : e.board.widgets[ref]? = some w) :
    e.unmount ref = if w.mounted then e.unwatching ref w.id else e := by
  have there : e.still[ref]? = some w.still := by simp [Engine.still, found]
  have own := attentive.own ref w.still there
  simp only [Engine.unmount, found, Option.bind_some]
  cases subscription : w.subscription with
  | none => simp [Widget.mounted, subscription]
  | some s =>
    rw [own s subscription]
    simp only [Widget.mounted, subscription, Option.isSome_some, ↓reduceIte]
    rfl

theorem unmount_of_absent {e : Engine} {ref : Nat} (absent : e.board.widgets[ref]? = none) :
    e.unmount ref = e := by
  simp only [unmount, absent, Option.bind_none]

theorem Attentive.unmount {e : Engine} (attentive : e.Attentive) (ref : Nat) :
    (e.unmount ref).Attentive := by
  cases found : e.board.widgets[ref]? with
  | none => rwa [unmount_of_absent found]
  | some w =>
    rw [attentive.unmount_eq found]
    split
    · exact attentive.unwatches found
    · exact attentive

/-! ## Mounting -/

/-- What mounting a widget comes to: nothing that matters here, be it that the widget is mounted or
that a handler is refused, or else the widget begins to watch, and appears if it can be drawn. -/
inductive Mounting (ref : Nat) (e : Engine) : Except Fault Unit × Engine → Prop
  | idle {result : Except Fault Unit} {after : Engine} (same : Aside e after)
    (settled : result = .ok () → ∀ w, e.board.widgets[ref]? = some w → w.mounted = true) :
    Mounting ref e (result, after)
  | hidden {w : Widget} {between : Engine} (found : e.board.widgets[ref]? = some w)
    (waiting : w.mounted = false) (board : between.board.widgets = e.board.widgets)
    (same : Aside e between) {fault : Fault}
    (failed : w.render (e.board.store.get w.id) = .error fault) :
    Mounting ref e (.error fault, between.watching ref w.id)
  | appears {w : Widget} {between : Engine} (found : e.board.widgets[ref]? = some w)
    (waiting : w.mounted = false) (board : between.board.widgets = e.board.widgets)
    (same : Aside e between) {view : Value}
    (drawn : w.render (e.board.store.get w.id) = .ok view) :
    Mounting ref e (.ok (), between.appeared ref w view)

theorem mount_mounting (ref : Nat) (e : Engine) : Mounting ref e (e.mount ref) := by
  cases found : e.board.widgets[ref]? with
  | none =>
    have idle : e.mount ref = (.ok (), e) := by simp only [mount, found]
    rw [idle]
    exact .idle (.of_board rfl) fun _ w there => by cases found.symm.trans there
  | some w =>
    by_cases mounted : w.mounted = true
    · have idle : e.mount ref = (.ok (), e) := by simp only [mount, found, mounted, ↓reduceIte]
      rw [idle]
      refine .idle (.of_board rfl) fun _ w' there => ?_
      cases found.symm.trans there
      exact mounted
    · have waiting : w.mounted = false := Bool.eq_false_iff.mpr mounted
      obtain ⟨lines, registry, done⟩ := registerAll_eq w.id (w.handlers ref) e
      -- the registry has changed, but nothing that mounting depends on
      have same : Aside e (e.registerAll w.id (w.handlers ref)).2 := by
        rw [done]
        exact ⟨rfl, rfl, rfl⟩
      have board : (e.registerAll w.id (w.handlers ref)).2.board.widgets = e.board.widgets := by
        rw [done]
      rw [mount_eq found waiting]
      cases registered : e.registerAll w.id (w.handlers ref) with
      | mk result between =>
        rw [registered] at same board
        cases result with
        | error fault => exact .idle same fun settled => by cases settled
        | ok ready =>
          have store : between.board.store = e.board.store := same.store
          dsimp only
          rw [store]
          cases drawn : w.render (e.board.store.get w.id) with
          | error fault => exact .hidden found waiting board same drawn
          | ok view => exact .appears found waiting board same drawn

theorem Attentive.mount {e : Engine} (attentive : e.Attentive) (ref : Nat) :
    (e.mount ref).2.Attentive := by
  have mounting := mount_mounting ref e
  generalize e.mount ref = mounted at mounting ⊢
  cases mounting with
  | idle same => exact attentive.of_stands same.stands
  | hidden found waiting board same failed =>
    exact (attentive.of_stands same.stands).watches (board ▸ found) waiting
  | appears found waiting board same drawn =>
    have watches := (attentive.of_stands same.stands).watches (board ▸ found) waiting
    refine watches.of_stands (.of_same ?_ rfl rfl)
    exact map_modify_of_same _ ref _ fun _ => rfl

theorem addWidget_still (w : Widget) (e : Engine) (ref : Nat) :
    (e.addWidget w).2.still[ref]? = if ref < e.still.length then e.still[ref]?
      else [w.still][ref - e.still.length]? := by
  rw [← List.getElem?_append]
  simp [addWidget, still]

/-- A widget that is added watches nothing until it is mounted. -/
theorem Attentive.addWidget {e : Engine} (attentive : e.Attentive) {w : Widget}
    (waiting : w.subscription = none) : (e.addWidget w).2.Attentive where
  watching ref id := by
    have attends : (e.addWidget w).2.attends ref id = e.attends ref id := by
      rw [Engine.attends, addWidget_still, Engine.attends]
      split
      · rfl
      next beyond =>
        have mounted : w.still.mounted = false := by simp [Widget.still, Widget.mounted, waiting]
        have absent : e.still[ref]? = none := List.getElem?_eq_none (Nat.le_of_not_lt beyond)
        cases there : [w.still][ref - e.still.length]? with
        | none => simp [absent]
        | some now => simp [absent, List.mem_singleton.mp (List.mem_of_getElem? there), mounted]
    rw [attends]
    exact attentive.watching ref id
  own ref now there s own := by
    rw [addWidget_still] at there
    split at there
    · exact attentive.own ref now there s own
    · cases List.mem_singleton.mp (List.mem_of_getElem? there)
      cases waiting.symm.trans own
  handles := attentive.handles

/-- A host watches an entry with an observer of its own, under a handle. -/
theorem Attentive.subscribe {e : Engine} (attentive : e.Attentive) (handle id name : String)
    (react : String → Value → Program) :
    (e.subscribe handle ⟨id, .custom name react⟩).Attentive where
  watching ref other := by
    have watched : (e.subscribe handle ⟨id, .custom name react⟩).board.store.watches ref other =
        e.board.store.watches ref other :=
      (Store.watches_subscribe e.board.store ⟨id, .custom name react⟩ ref other).trans
        (by simp [Observer.isView])
    rw [watched]
    exact attentive.watching ref other
  own := attentive.own
  handles := by
    intro other s found ref
    by_cases same : other = handle
    · subst same
      cases (Entries.get?_put_self _ _ _).symm.trans found
      rfl
    · exact attentive.handles other s ((Entries.get?_put_of_ne same _ _).symm.trans found) ref

/-! ## Boards that anyone may use -/

/-- No widget has been added yet, nobody watches, and no watch can be ended. -/
structure Bare (e : Engine) : Prop where
  widgets : e.board.widgets = []
  observers : e.board.store.observers = []
  handles : e.board.handles = []

theorem Bare.attentive {e : Engine} (bare : e.Bare) : e.Attentive where
  watching ref id := by
    simp [Store.watches, Store.observersOf, bare.observers, Entries.get?, attends, still,
      bare.widgets]
  own ref w found := by simp [still, bare.widgets] at found
  handles handle s found := by simp [bare.handles, Entries.get?] at found

/-- What may happen on a board: programs do something, or a host watches an entry, adds a widget,
mounts one or unmounts it. -/
inductive BoardMoves : Engine → Engine → Prop
  | stride {depth : Nat} {e after : Engine} (stride : Stride (fun _ => True) depth e after) :
    BoardMoves e after
  | watch (handle id name : String) (react : String → Value → Program) (e : Engine) :
    BoardMoves e (e.subscribe handle ⟨id, .custom name react⟩)
  | add {w : Widget} (waiting : w.subscription = none) (e : Engine) :
    BoardMoves e (e.addWidget w).2
  | mount (ref : Nat) (e : Engine) : BoardMoves e (e.mount ref).2
  | unmount (ref : Nat) (e : Engine) : BoardMoves e (e.unmount ref)

theorem BoardMoves.attentive {e after : Engine} (move : BoardMoves e after)
    (attentive : e.Attentive) : after.Attentive := by
  cases move with
  | stride stride => exact attentive.of_stands (Strides.stands (.single stride) attentive)
  | watch handle id name react => exact attentive.subscribe handle id name react
  | add waiting => exact attentive.addWidget waiting
  | mount ref => exact attentive.mount ref
  | unmount ref => exact attentive.unmount ref

theorem Attentive.of_moves {start e : Engine} (attentive : start.Attentive)
    (moves : ReflTransGen BoardMoves start e) : e.Attentive := by
  induction moves with
  | refl => exact attentive
  | tail _ move attentive => exact move.attentive attentive

theorem attentive_of_moves {start e : Engine} (bare : start.Bare)
    (moves : ReflTransGen BoardMoves start e) : e.Attentive :=
  bare.attentive.of_moves moves

theorem Strides.moves {may : String → Prop} {depth : Nat} {e after : Engine}
    (strides : Strides may depth e after) : ReflTransGen BoardMoves e after := by
  have wider : Strides (fun _ => True) depth e after :=
    strides.mono (fun _ _ => trivial) (Nat.le_refl depth)
  exact ReflTransGen.mono (fun _ _ => .stride) e after wider

theorem Aside.moves {e after : Engine} (same : Aside e after) :
    ReflTransGen BoardMoves e after := by
  have strides : Strides (fun _ => True) 0 e after := same.strides
  exact strides.moves

/-- Opening a page, be it completed or not, is something that may happen on a board. -/
theorem openDocument_moves (strict : Bool) (reading : Except Invalid Document) (e : Engine) :
    ReflTransGen BoardMoves e (e.openDocument strict reading).2 := by
  have kept : KeptByOpening (ReflTransGen BoardMoves e) := by
    refine ⟨fun lines counters page moves => ?_, fun waiting moves => moves.tail (.add waiting _),
      fun ref moves => moves.tail (.mount ref _)⟩
    exact moves.trans (Aside.moves (.of_board rfl))
  exact openDocument_keeps kept strict reading .refl

theorem closePage_moves (e : Engine) : ReflTransGen BoardMoves e e.closePage := by
  have unmounting (refs : List Nat) (e : Engine) :
      ReflTransGen BoardMoves e (refs.foldl (fun e ref => e.unmount ref) e) := by
    induction refs generalizing e with
    | nil => exact .refl
    | cons ref rest ih => exact .head (.unmount ref e) (ih (e.unmount ref))
  exact (unmounting _ e).trans (Aside.moves (.of_board rfl))

end Engine
end Patchbay
