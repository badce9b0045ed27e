import Patchbay.Proofs.Page.Attention

/-!
# What programs do to views

A widget is *current* if it shows what is stored for it, as far as it can be drawn of that. Whatever
programs do, it is current afterwards, since whoever writes its entry has it told
(`Engine.Strides.serves`). Where programs do not write, nothing changes: the entry keeps its value,
and a widget that is mounted under its id shows what it has shown (`Engine.Strides.untouched`).
-/

namespace Patchbay

namespace Engine

/-- If the widget at a place is mounted, it shows what is stored for it, as far as it can be drawn
of that. -/
def Current (e : Engine) (ref : Nat) : Prop :=
  ∀ (w : Widget) view, e.board.widgets[ref]? = some w → w.mounted = true →
    w.render (e.board.store.get w.id) = .ok view → w.rendered = view

theorem Current.of_widget {e after : Engine} {ref : Nat} (current : e.Current ref)
    (widget : after.board.widgets[ref]? = e.board.widgets[ref]?)
    (values : after.board.store.values = e.board.store.values) : after.Current ref := by
  intro w view found mounted drawn
  rw [Store.get, values] at drawn
  exact current w view (widget ▸ found) mounted drawn

theorem Aside.widget {e after : Engine} (same : Aside e after) {ref : Nat} {now : Widget}
    (found : after.board.widgets[ref]? = some now) :
    ∃ w, e.board.widgets[ref]? = some w ∧ w.face = now.face := by
  have faces := congrArg (fun widgets : List Widget => widgets[ref]?) same.faces
  simp only [Engine.faces, List.getElem?_map, found, Option.map_some] at faces
  exact Option.map_eq_some_iff.mp faces.symm

theorem Aside.current {e after : Engine} (same : Aside e after) {ref : Nat}
    (current : e.Current ref) : after.Current ref := by
  intro now view found mounted drawn
  obtain ⟨w, there, face⟩ := same.widget found
  have shown : w.face.rendered = now.face.rendered := congrArg Widget.rendered face
  have still : w.face.still = now.face.still := congrArg Widget.still face
  obtain ⟨id, subscribed, render⟩ : w.id = now.id ∧ _ := Widget.eq_of_still still
  rw [same.store, ← id, ← render] at drawn
  exact shown.symm.trans (current w view there (subscribed.trans mounted) drawn)

theorem Aside.showing {e after : Engine} (same : Aside e after) (ref : Nat) :
    after.showing ref = e.showing ref := by
  have shown (e : Engine) : e.showing ref = e.faces[ref]?.map Widget.rendered := by
    simp only [Engine.showing, Engine.faces, List.getElem?_map, Option.map_map]
    rfl
  rw [shown, shown, same.faces]

/-! ## Widgets that are told in time -/

/-- Widgets stand, and those that were current are current. -/
structure Serves (e after : Engine) : Prop extends Stands e after where
  current : ∀ ref, e.Current ref → after.Current ref

theorem Serves.refl (e : Engine) : Serves e e :=
  ⟨.refl e, fun _ current => current⟩

theorem Serves.trans {first second third : Engine} (earlier : Serves first second)
    (later : Serves second third) : Serves first third :=
  ⟨earlier.toStands.trans later.toStands,
    fun ref current => later.current ref (earlier.current ref current)⟩

theorem Aside.serves {e after : Engine} (same : Aside e after) : Serves e after :=
  ⟨same.stands, fun _ => same.current⟩

theorem notify_view_current (run : Runner) (id : String) (value : Value) (e : Engine)
    (ref : Nat) : (e.notifyWith run id value (.view ref)).Current ref := by
  intro w view found _ drawn
  rw [(notify_view run id value e ref).1] at drawn
  exact notify_shows found drawn

section

variable {run : Runner} (runs : ∀ p (e : Engine), e.Attentive → Serves e (run p e).2)
  (id : String) {e : Engine} (attentive : e.Attentive)
include runs attentive

theorem notifyWith_serves (value : Value) (o : Observer) :
    Serves e (e.notifyWith run id value o) := by
  cases o with
  | view place =>
    refine ⟨notify_view_stands run id value e place, fun ref current => ?_⟩
    by_cases same : ref = place
    · subst same
      exact notify_view_current run id value e ref
    · exact current.of_widget (notify_widget run id value e same)
        (congrArg Store.values (notify_view run id value e place).1)
  | custom name react =>
    exact (runs (react id value) e attentive).trans
      (notify_custom_aside run id value e name react).serves

theorem foldl_notify_serves (value : Value) (observers : List Observer) :
    Serves e (observers.foldl (notifyWith run id value) e) :=
  List.foldlRecOn (motive := Serves e) _ _ (.refl e) fun _ serves o _ =>
    serves.trans (notifyWith_serves runs id (attentive.of_stands serves.toStands) value o)

/-- Once a widget has been told it is current, and it stays so while others are told. -/
theorem foldl_notify_current (value : Value) {observers : List Observer} {ref : Nat}
    (member : .view ref ∈ observers) :
    (observers.foldl (notifyWith run id value) e).Current ref := by
  -- what happens before it is told does not matter
  obtain ⟨earlier, later, rfl⟩ := List.append_of_mem member
  rw [List.foldl_append, List.foldl_cons]
  have first := foldl_notify_serves runs id attentive value earlier
  have between := attentive.of_stands first.toStands
  have telling := notifyWith_serves runs id between value (.view ref)
  have others := foldl_notify_serves runs id (between.of_stands telling.toStands) value later
  exact others.current ref (notify_view_current run id value _ ref)

/-- A write tells all widgets that are mounted under the id; for the others nothing changes. -/
theorem write_serves (value : Value) : Serves e (e.writeWith run id value) := by
  have stored := storing_stands id value e
  have attentive' := attentive.of_stands stored
  have told := foldl_notify_serves runs id attentive' value (e.board.store.observersOf id)
  rw [writeWith_eq]
  refine ⟨stored.trans told.toStands, fun ref current => ?_⟩
  by_cases attends : e.attends ref id
  · exact foldl_notify_current runs id attentive' value
      (attentive.mem_observersOf_iff.mpr attends)
  · -- not told, so it must have been current before, and its entry is another one
    refine told.current ref fun w view found mounted drawn => ?_
    have other : w.id ≠ id := fun own => attends (attends_iff.mpr ⟨w, found, mounted, own⟩)
    have kept : (e.storing id value).board.store.get w.id = e.board.store.get w.id :=
      Store.get_set_of_ne e.board.store other value
    rw [kept] at drawn
    exact current w view found mounted drawn

end

theorem serves_closed :
    StrideClosed (fun _ => True) fun e after => e.Attentive → Serves e after where
  refl e _ := .refl e
  trans earlier later attentive :=
    (earlier attentive).trans (later (attentive.of_stands (earlier attentive).toStands))
  aside same _ := same.serves
  write := by
    intro id _ run runs value e attentive
    exact write_serves (fun p e => runs (p.writes_of_all fun _ => trivial) e) id attentive value
  leave := by
    intro handle s e found attentive
    exact ⟨stands_closed.leave found attentive, fun ref current => current.of_widget rfl rfl⟩

/-- Whatever programs do, no widget becomes stale. -/
theorem Strides.serves {may : String → Prop} {depth : Nat} {e after : Engine}
    (strides : Strides may depth e after) (attentive : e.Attentive) : Serves e after :=
  (strides.mono (fun _ _ => trivial) (Nat.le_refl depth)).closed serves_closed attentive

theorem runAt_serves {depth : Nat} (p : Program) (e : Engine) (attentive : e.Attentive) :
    Serves e (Program.runAt depth p e).2 :=
  (runAt_strides depth (p.writes_of_all fun _ => trivial) e).serves attentive

/-! ## Entries that are not written -/

/-- The observers that are no widgets write only where they `may`. -/
def Confined (may : String → Prop) (e : Engine) : Prop :=
  ∀ id name react, .custom name react ∈ e.board.store.observersOf id →
    ∀ own value, (react own value).Writes may

/-- The widget at a place is not mounted under an id where something may be written. -/
def Rests (may : String → Prop) (e : Engine) (ref : Nat) : Prop :=
  ∀ (w : Widget), e.board.widgets[ref]? = some w → w.mounted = true → ¬may w.id

/-- Where nothing may be written, entries and what widgets show are as they were. -/
structure Untouched (may : String → Prop) (e after : Engine) : Prop extends Stands e after where
  values : ∀ id, ¬may id → after.board.store.get id = e.board.store.get id
  showing : ∀ ref, e.Rests may ref → after.showing ref = e.showing ref

section

variable {may : String → Prop} {e after : Engine}

theorem confined_of_all (all : ∀ id, may id) (e : Engine) : e.Confined may :=
  fun _ _ react _ own value => (react own value).writes_of_all all

theorem Confined.of_stands (confined : e.Confined may) (stands : Stands e after) :
    after.Confined may :=
  fun id name react member => confined id name react (stands.observers id _ member)

theorem Rests.of_stands {ref : Nat} (rests : e.Rests may ref) (stands : Stands e after) :
    after.Rests may ref := by
  intro now found mounted
  obtain ⟨w, there, still⟩ := widget_of_still stands.still.symm found
  obtain ⟨id, subscribed, -⟩ := Widget.eq_of_still still
  rw [← id]
  exact rests w there (subscribed.trans mounted)

theorem Untouched.refl (may : String → Prop) (e : Engine) : Untouched may e e :=
  ⟨.refl e, fun _ _ => rfl, fun _ _ => rfl⟩

theorem Untouched.trans {first second third : Engine} (earlier : Untouched may first second)
    (later : Untouched may second third) : Untouched may first third where
  toStands := earlier.toStands.trans later.toStands
  values id spared := (later.values id spared).trans (earlier.values id spared)
  showing ref rests :=
    (later.showing ref (rests.of_stands earlier.toStands)).trans (earlier.showing ref rests)

theorem Aside.untouched (same : Aside e after) : Untouched may e after :=
  ⟨same.stands, fun id _ => by rw [same.store], fun ref _ => same.showing ref⟩

end

section

variable {may : String → Prop} {run : Runner}
  (runs : ∀ p (e : Engine), p.Writes may → e.Attentive → e.Confined may →
    Untouched may e (run p e).2)
  {e : Engine} (attentive : e.Attentive) (confined : e.Confined may)
include runs attentive confined

/-- Those who observe an entry that may be written leave alone where nothing may be written. -/
theorem notifyWith_untouched {id : String} (allowed : may id) (value : Value) {o : Observer}
    (member : o ∈ e.board.store.observersOf id) {between : Engine} (stands : Stands e between) :
    Untouched may between (between.notifyWith run id value o) := by
  cases o with
  | view place =>
    -- whoever watches is mounted under this id, where something may be written: it does not rest
    have attends := attentive.mem_observersOf_iff.mp member
    rw [← stands.attends] at attends
    obtain ⟨w, found, mounted, own⟩ := attends_iff.mp attends
    refine ⟨notify_view_stands run id value between place, fun other _ => ?_, fun ref rests => ?_⟩
    · rw [(notify_view run id value between place).1]
    · refine notify_showing run id value between fun same => ?_
      subst same
      exact rests w found mounted (own ▸ allowed)
  | custom name react =>
    exact (runs (react id value) between (confined id name react member id value)
      (attentive.of_stands stands) (confined.of_stands stands)).trans
        (notify_custom_aside run id value between name react).untouched

theorem write_untouched {id : String} (allowed : may id) (value : Value) :
    Untouched may e (e.writeWith run id value) := by
  have stored : Untouched may e (e.storing id value) := by
    refine ⟨storing_stands id value e, fun other spared => ?_, fun _ _ => rfl⟩
    have ne : other ≠ id := fun same => spared (same.symm ▸ allowed)
    exact Store.get_set_of_ne e.board.store ne value
  rw [writeWith_eq]
  refine List.foldlRecOn (motive := Untouched may e) _ _ stored ?_
  intro between untouched o member
  exact untouched.trans
    (notifyWith_untouched runs attentive confined allowed value member untouched.toStands)

end

theorem untouched_closed (may : String → Prop) :
    StrideClosed may fun e after => e.Attentive → e.Confined may → Untouched may e after where
  refl e _ _ := .refl may e
  trans earlier later attentive confined :=
    have first := earlier attentive confined
    first.trans (later (attentive.of_stands first.toStands) (confined.of_stands first.toStands))
  aside same _ _ := same.untouched
  write := by
    intro id allowed run runs value e attentive confined
    exact write_untouched (fun p e writes => runs writes e) attentive confined allowed value
  leave := by
    intro handle s e found attentive _
    exact ⟨stands_closed.leave found attentive, fun _ _ => rfl, fun _ _ => rfl⟩

/-- Programs that may not write an entry leave it alone, if observers may not write it either. -/
theorem Strides.untouched {may : String → Prop} {depth : Nat} {e after : Engine}
    (strides : Strides may depth e after) (attentive : e.Attentive)
    (confined : e.Confined may) : Untouched may e after :=
  strides.closed (untouched_closed may) attentive confined

end Engine
end Patchbay
