import Patchbay.Proofs.Page.Freshness
import Patchbay.Proofs.Page.Hosting

/-!
# Views that are never stale

On a board that anyone may use, what a mounted widget shows is what is stored for it, whenever it
can be drawn of that (`Engine.views_never_stale`). Each write has the effect that one expects of it
(`Engine.Delivers`): the value stays, widgets that can be drawn of it show it, those that cannot
show what they have shown, and all others that watch are told. Observers of a host may write the
store themselves; where the effect of a write depends on that, it is stated for entries that they
spare.
-/

namespace Patchbay

open Relation (ReflTransGen)

/-- What a widget shows once it has been told of a value. -/
def Widget.look (w : Widget) (value : Value) : Value :=
  match w.render value with
  | .ok view => view
  | .error _ => w.rendered

namespace Engine

/-! ## One write -/

/-- No observer of a host writes an entry. -/
def Spared (e : Engine) (id : String) : Prop :=
  e.Confined (· ≠ id)

/-- Those who watch an entry have been told, and it has not been written meanwhile. -/
structure Announced (id : String) (e after : Engine) : Prop extends Stands e after where
  stored : after.board.store.get id = e.board.store.get id
  kept : ∀ (ref : Nat) (w : Widget), e.board.widgets[ref]? = some w → w.id = id →
    (∀ view, w.render (e.board.store.get id) ≠ .ok view) → after.showing ref = e.showing ref

theorem Announced.refl (id : String) (e : Engine) : Announced id e e :=
  ⟨.refl e, rfl, fun _ _ _ _ _ => rfl⟩

theorem Announced.trans {id : String} {first second third : Engine}
    (earlier : Announced id first second) (later : Announced id second third) :
    Announced id first third where
  toStands := earlier.toStands.trans later.toStands
  stored := later.stored.trans earlier.stored
  kept ref w found own fails := by
    obtain ⟨now, there, still⟩ := widget_of_still earlier.still found
    obtain ⟨id, -, render⟩ := Widget.eq_of_still still
    refine (later.kept ref now there (id.trans own) fun view drawn => fails view ?_).trans
      (earlier.kept ref w found own fails)
    rwa [earlier.stored, render] at drawn

section

variable {e : Engine} (attentive : e.Attentive) {id : String} (spared : e.Spared id) (depth : Nat)
  (value : Value)
include attentive spared

/-- One more observer is told, which has watched from the beginning. -/
theorem notifyWith_announced {o : Observer} (member : o ∈ e.board.store.observersOf id)
    {between : Engine} (stands : Stands e between) :
    Announced id between (between.notifyWith (Program.runAt depth) id value o) := by
  cases o with
  | view place =>
    have store := (notify_view (Program.runAt depth) id value between place).1
    refine ⟨notify_view_stands _ id value between place, by rw [store], ?_⟩
    intro ref w found own fails
    by_cases same : ref = place
    · -- the widget cannot be drawn, which is only logged
      subst same
      subst own
      cases drawn : w.render (between.board.store.get w.id) with
      | ok view => exact absurd drawn (fails view)
      | error fault =>
        simp only [notifyWith, redraw, found, drawn]
        rfl
    · exact notify_showing _ id value between same
  | custom name react =>
    -- the program spares the entry, and so do all observers that it sets off
    have writes := spared id name react member id value
    have ran := (runAt_strides depth writes between).untouched (attentive.of_stands stands)
      (Confined.of_stands spared stands)
    have told := ran.trans
      (notify_custom_aside (Program.runAt depth) id value between name react).untouched
    refine ⟨told.toStands, told.values id (by simp), fun ref w found own _ => ?_⟩
    refine told.showing ref fun w' found' _ => ?_
    cases found.symm.trans found'
    simp [own]

theorem foldl_notify_announced {observers : List Observer}
    (known : ∀ o ∈ observers, o ∈ e.board.store.observersOf id) :
    Announced id e (observers.foldl (notifyWith (Program.runAt depth) id value) e) :=
  List.foldlRecOn (motive := Announced id e) _ _ (.refl id e) fun _ announced o member =>
    announced.trans (notifyWith_announced attentive spared depth value (known o member)
      announced.toStands)

end

/-- A value has been written, and everyone who watches has been told of it. -/
structure Delivers (depth : Nat) (id : String) (value : Value) (e after : Engine) : Prop where
  stays : e.Spared id → after.board.store.get id = value
  /-- What a widget shows changes only if it is mounted under the id and can be drawn of the value.
  The others show what they have shown, and those that are not mounted do so whatever the observers
  write. -/
  shows : ∀ (ref : Nat) (w : Widget), e.board.widgets[ref]? = some w →
    (w.mounted = true → e.Spared w.id) →
      after.showing ref = some (if w.mounted ∧ w.id = id then w.look value else w.rendered)
  /-- An observer of a host has its program run between what those before it do and what those behind
  it do, while the value is stored. -/
  told : ∀ earlier later name react,
    e.board.store.observersOf id = earlier ++ .custom name react :: later →
      ∃ between, Effects True e between ∧
        (e.Spared id → between.board.store.get id = value) ∧
        Effects True (Program.runAt depth (react id value) between).2 after

section

variable {e : Engine} (attentive : e.Attentive) (depth : Nat) (value : Value)
include attentive

theorem write_announced {id : String} (spared : e.Spared id) : Announced id (e.storing id value)
    (e.writeWith (Program.runAt depth) id value) := by
  rw [writeWith_eq]
  exact foldl_notify_announced (attentive.of_stands (storing_stands id value e))
    (Confined.of_stands spared (storing_stands id value e)) depth value fun o member => member

/-- A widget that is mounted under the id shows the value, as far as it can be drawn of that. -/
theorem write_shows_own {ref : Nat} {w : Widget} (found : e.board.widgets[ref]? = some w)
    (mounted : w.mounted = true) (spared : e.Spared w.id) :
    (e.writeWith (Program.runAt depth) w.id value).showing ref = some (w.look value) := by
  have announced := write_announced attentive depth value spared
  unfold Widget.look
  cases drawn : w.render value with
  | ok view =>
    -- it has been told, so it is current, and the entry still holds the value
    have watches : .view ref ∈ e.board.store.observersOf w.id :=
      attentive.mem_observersOf_iff.mpr (attends_iff.mpr ⟨w, found, mounted, rfl⟩)
    have current : (e.writeWith (Program.runAt depth) w.id value).Current ref := by
      rw [writeWith_eq]
      exact foldl_notify_current runAt_serves w.id
        (attentive.of_stands (storing_stands w.id value e)) value watches
    obtain ⟨now, there, still⟩ := widget_of_still announced.still found
    obtain ⟨id, subscribed, render⟩ := Widget.eq_of_still still
    have shows : now.rendered = view := by
      refine current now view there (subscribed.trans mounted) ?_
      rw [id, render, announced.stored, storing_get, drawn]
    rw [showing, there, Option.map_some, shows]
  | error fault =>
    have fails (view : Value) :
        w.render ((e.storing w.id value).board.store.get w.id) ≠ .ok view := by
      rw [storing_get, drawn]
      exact fun shown => by cases shown
    rw [announced.kept ref w found rfl fails]
    simp [showing, storing, withStore, found]

/-- A widget shows what it has shown, if it is not mounted or the entry is another one. -/
theorem write_shows_other {ref : Nat} {w : Widget} (found : e.board.widgets[ref]? = some w)
    {id : String} (spared : w.mounted = true → e.Spared w.id)
    (other : ¬(w.mounted = true ∧ w.id = id)) :
    (e.writeWith (Program.runAt depth) id value).showing ref = some w.rendered := by
  have before : e.showing ref = some w.rendered := by rw [showing, found, Option.map_some]
  by_cases mounted : w.mounted = true
  · -- the write is elsewhere, so it is one of those that the entry is spared by
    have stride : Strides (· ≠ w.id) (depth + 1) e (e.writeWith (Program.runAt depth) id value) :=
      .single (.write (fun own => other ⟨mounted, own.symm⟩) (Nat.lt_succ_self depth) value e)
    refine ((stride.untouched attentive (spared mounted)).showing ref fun w' found' _ => ?_).trans
      before
    cases found.symm.trans found'
    simp
  · -- whoever is not mounted is not told, whatever the observers do
    have stride : Strides (fun _ => True) (depth + 1) e
        (e.writeWith (Program.runAt depth) id value) :=
      .single (.write trivial (Nat.lt_succ_self depth) value e)
    refine ((stride.untouched attentive (confined_of_all (fun _ => trivial) e)).showing ref
      fun w' found' mounted' => ?_).trans before
    cases found.symm.trans found'
    exact absurd mounted' mounted

end

theorem notifyWith_custom_effects (run : Runner) (id : String) (value : Value) (e : Engine)
    (name : String) (react : String → Value → Program) :
    Effects True (run (react id value) e).2 (e.notifyWith run id value (.custom name react)) := by
  simp only [notifyWith]
  split
  next fault after ran =>
    rw [ran]
    exact .single (.log after _ _ _)
  next stop after _ ran =>
    rw [ran]

theorem foldl_notify_effects (depth : Nat) (id : String) (value : Value) (e : Engine)
    (observers : List Observer) :
    Effects True e (observers.foldl (notifyWith (Program.runAt depth) id value) e) := by
  refine foldl_effects _ _ (fun o _ e store => ?_) e (Store.within_of_fires trivial _)
  refine notifyWith_effects (runAt_chains True depth) id value e o ?_ store
  cases o with
  | view place => trivial
  | custom name react => exact fun own value => (react own value).within_of_fires trivial

theorem Attentive.delivers {e : Engine} (attentive : e.Attentive) (depth : Nat) (id : String)
    (value : Value) : Delivers depth id value e (e.writeWith (Program.runAt depth) id value) where
  stays spared :=
    (write_announced attentive depth value spared).stored.trans (storing_get id value e)
  shows ref w found spared := by
    by_cases own : w.mounted = true ∧ w.id = id
    · obtain ⟨mounted, rfl⟩ := own
      rw [if_pos ⟨mounted, rfl⟩]
      exact write_shows_own attentive depth value found mounted (spared mounted)
    · rw [if_neg own]
      exact write_shows_other attentive depth value found spared own
  told := by
    intro earlier later name react observers
    have stored : Effects True e (e.storing id value) := .single (.write e id value)
    refine ⟨earlier.foldl (notifyWith (Program.runAt depth) id value) (e.storing id value),
      stored.trans (foldl_notify_effects depth id value _ earlier), fun spared => ?_, ?_⟩
    · have known : ∀ o ∈ earlier, o ∈ (e.storing id value).board.store.observersOf id := by
        intro o member
        change o ∈ e.board.store.observersOf id
        rw [observers]
        exact List.mem_append_left _ member
      have stands := storing_stands id value e
      have announced := foldl_notify_announced (attentive.of_stands stands)
        (Confined.of_stands spared stands) depth value known
      exact announced.stored.trans (storing_get id value e)
    · rw [writeWith_eq, observers, List.foldl_append, List.foldl_cons]
      exact (notifyWith_custom_effects _ id value _ name react).trans
        (foldl_notify_effects depth id value _ later)

/-! ## All that may happen on a board -/

/-- A change of one widget leaves the others current, and that one too if it is drawn anew or need
not be. -/
theorem updateWidget_current {e : Engine} {ref : Nat} {f : Widget → Widget}
    (others : ∀ place, place ≠ ref → e.Current place)
    (own : ∀ (w : Widget) view, e.board.widgets[ref]? = some w → (f w).mounted = true →
      (f w).render (e.board.store.get (f w).id) = .ok view → (f w).rendered = view) :
    ∀ place, (e.updateWidget ref f).Current place := by
  intro place now view found mounted drawn
  by_cases same : place = ref
  · subst same
    obtain ⟨w, there, rfl⟩ : ∃ w, e.board.widgets[place]? = some w ∧ f w = now := by
      simpa [updateWidget] using found
    exact own w view there mounted drawn
  · have there : e.board.widgets[place]? = some now := by
      simpa [updateWidget, Ne.symm same] using found
    exact others place same now view there mounted drawn

theorem mount_current (ref : Nat) {e : Engine} (current : ∀ place, e.Current place) :
    ∀ place, (e.mount ref).2.Current place := by
  have mounting := mount_mounting ref e
  generalize e.mount ref = mounted at mounting ⊢
  cases mounting with
  | idle same => exact fun place => same.current (current place)
  | @hidden w between found waiting board same fault failed =>
    -- what cannot be drawn need not be shown
    refine updateWidget_current (fun place _ => (same.current (current place)).of_widget rfl rfl) ?_
    intro w' view there _ drawn
    cases found.symm.trans (board ▸ there)
    change w.render (between.board.store.get w.id) = .ok view at drawn
    rw [same.store, failed] at drawn
    cases drawn
  | @appears w between found waiting board same view drawn =>
    have there : between.board.widgets[ref]? = some w := board ▸ found
    refine updateWidget_current (e := between.watching ref w.id) (fun place other => ?_) ?_
    · refine (same.current (current place)).of_widget ?_ rfl
      simp [watching, updateWidget, withStore, Ne.symm other]
    · intro w' view' found' _ drawn'
      cases (watching_widget there).symm.trans found'
      change w.render (between.board.store.get w.id) = .ok view' at drawn'
      rw [same.store, drawn] at drawn'
      exact Except.ok.inj drawn'

theorem BoardMoves.current {e after : Engine} (move : BoardMoves e after)
    (attentive : e.Attentive) (current : ∀ ref, e.Current ref) : ∀ ref, after.Current ref := by
  cases move with
  | stride stride =>
    exact fun ref => (Strides.serves (.single stride) attentive).current ref (current ref)
  | watch => exact fun ref => (current ref).of_widget rfl rfl
  | @add w waiting =>
    intro ref now view found mounted drawn
    simp only [addWidget, List.getElem?_append] at found
    split at found
    · exact current ref now view found mounted drawn
    · cases List.mem_singleton.mp (List.mem_of_getElem? found)
      simp [Widget.mounted, waiting] at mounted
  | mount ref => exact mount_current ref current
  | unmount ref =>
    cases found : e.board.widgets[ref]? with
    | none => rwa [unmount_of_absent found]
    | some w =>
      rw [attentive.unmount_eq found]
      split
      · exact updateWidget_current (fun place _ => (current place).of_widget rfl rfl)
          fun _ _ _ mounted => by cases mounted
      · exact current

/-- Views are faithful to the store: mounted widgets are current, whatever is written is delivered,
and widgets can be unmounted and mounted again. What programs, users, tasks and pages do comes down
to moves that leave such a board behind. -/
structure Faithful (e : Engine) : Prop where
  current : ∀ ref, e.Current ref
  write : ∀ depth id value,
    Delivers depth id value e (e.writeWith (Program.runAt depth) id value)
  writeProperty : ∀ depth id name value,
    Delivers depth id ((e.board.store.get id).withProperty name value) e
      (e.writePropertyWith (Program.runAt depth) id name value)
  /-- A widget that is unmounted shows what it has shown. -/
  unmount : ∀ ref place, (e.unmount ref).showing place = e.showing place
  unmounted : ∀ (ref : Nat) (w : Widget), (e.unmount ref).board.widgets[ref]? = some w →
    w.mounted = false
  remount : ∀ (ref : Nat) (w : Widget) after, e.board.widgets[ref]? = some w →
    w.mounted = false → e.mount ref = (.ok (), after) →
      ∃ view, w.render (after.board.store.get w.id) = .ok view ∧ after.showing ref = some view
  runs : ∀ depth p, ReflTransGen BoardMoves e (Program.runAt depth p e).2
  dispatches : ∀ trigger context, ReflTransGen BoardMoves e (e.dispatch trigger context)
  gestures : ∀ w gesture, ReflTransGen BoardMoves e (e.performOn w gesture).2
  turns : ∀ turn, ReflTransGen BoardMoves e (e.turn turn)
  opens : ∀ strict reading, ReflTransGen BoardMoves e (e.openDocument strict reading).2
  closes : ReflTransGen BoardMoves e e.closePage

theorem current_of_moves {start e : Engine} (bare : start.Bare)
    (moves : ReflTransGen BoardMoves start e) (ref : Nat) : e.Current ref := by
  induction moves generalizing ref with
  | refl =>
    intro w view found
    simp [bare.widgets] at found
  | tail before move current => exact move.current (attentive_of_moves bare before) current ref

theorem Attentive.unmount_showing {e : Engine} (attentive : e.Attentive) (ref place : Nat) :
    (e.unmount ref).showing place = e.showing place := by
  cases found : e.board.widgets[ref]? with
  | none => rw [unmount_of_absent found]
  | some w =>
    rw [attentive.unmount_eq found]
    split
    · have same : (e.unwatching ref w.id).board.widgets.map Widget.rendered =
          e.board.widgets.map Widget.rendered :=
        map_modify_of_same e.board.widgets ref _ fun _ => rfl
      rw [showing, ← List.getElem?_map, same, List.getElem?_map, showing]
    · rfl

theorem Attentive.unmount_unmounted {e : Engine} (attentive : e.Attentive) {ref : Nat}
    {now : Widget} (found : (e.unmount ref).board.widgets[ref]? = some now) :
    now.mounted = false := by
  cases there : e.board.widgets[ref]? with
  | none =>
    rw [unmount_of_absent there] at found
    cases there.symm.trans found
  | some w =>
    rw [attentive.unmount_eq there] at found
    split at found
    · have ended : { w with subscription := none } = now := by
        simpa [unwatching, updateWidget, withStore, there] using found
      rw [← ended]
      rfl
    next waiting =>
      cases there.symm.trans found
      exact Bool.eq_false_iff.mpr waiting

theorem remount_shows {e after : Engine} {ref : Nat} {w : Widget}
    (found : e.board.widgets[ref]? = some w) (waiting : w.mounted = false)
    (mounted : e.mount ref = (.ok (), after)) :
    ∃ view, w.render (after.board.store.get w.id) = .ok view ∧ after.showing ref = some view := by
  have mounting := mount_mounting ref e
  rw [mounted] at mounting
  cases mounting with
  | idle _ settled => cases waiting.symm.trans (settled rfl w found)
  | @appears w' between found' _ board same view drawn =>
    cases found.symm.trans found'
    refine ⟨view, ?_, appeared_showing (board ▸ found) view⟩
    change w.render (between.board.store.get w.id) = .ok view
    rw [same.store, drawn]

/-- Whatever has happened on a board since nobody was on it, views are faithful to the store. -/
theorem views_never_stale {start e : Engine} (bare : start.Bare)
    (moves : ReflTransGen BoardMoves start e) : e.Faithful where
  current := current_of_moves bare moves
  write := (attentive_of_moves bare moves).delivers
  writeProperty depth id _ _ := (attentive_of_moves bare moves).delivers depth id _
  unmount := (attentive_of_moves bare moves).unmount_showing
  unmounted _ _ := (attentive_of_moves bare moves).unmount_unmounted
  remount _ _ _ := remount_shows
  runs depth p := (runAt_strides depth (p.writes_of_all fun _ => trivial) e).moves
  dispatches trigger context := (dispatch_strides trigger context e).moves
  gestures w gesture := (performOn_strides w gesture e).moves
  turns turn := (turn_strides e turn).moves
  opens strict reading := openDocument_moves strict reading e
  closes := closePage_moves e

/-- The chart of the sales page has been drawn, and then a value has come that is no data. -/
def unplotted : Engine :=
  (sales.write "sales" (.list [.record [("name", .text "A"), ("value", .int 1)]])).write "sales"
    (.list [.int 1])

theorem views_never_stale_unplotted : vacant.Bare ∧ ReflTransGen BoardMoves vacant unplotted ∧
    unplotted.Faithful ∧ unplotted.board.store.get "sales" = .list [.int 1] ∧
    unplotted.showing 2 = some (.record [("categories", .list [.text "A"]),
      ("series", .list [.int 1])]) := by
  have bare : vacant.Bare := ⟨rfl, rfl, rfl⟩
  have opened : ReflTransGen BoardMoves vacant sales :=
    openDocument_moves false (.ok salesDocument) vacant
  have moves : ReflTransGen BoardMoves vacant unplotted :=
    (opened.trans (write_strides _ _ _).moves).trans (write_strides _ _ _).moves
  exact ⟨bare, moves, views_never_stale bare moves, rfl, rfl⟩

end Engine
end Patchbay
