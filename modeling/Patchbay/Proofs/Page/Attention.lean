import Patchbay.Proofs.Engine.Strides
import Patchbay.Proofs.Widget.Handling

/-!
# Who attends to which entry

A mounted widget watches the entry under its own id once and no other entry; a widget that is not
mounted watches nothing (`Engine.Attentive`). Programs cannot change that: they neither mount nor
unmount widgets, and the watches that they can end are not those of widgets
(`Engine.Strides.stands`).
-/

namespace Patchbay

/-- Whether an observer is the widget at a place. -/
def Observer.isView (ref : Nat) : Observer → Bool
  | .view place => place == ref
  | .custom .. => false

theorem Observer.isView_iff {ref : Nat} {o : Observer} : o.isView ref ↔ o = .view ref := by
  cases o with
  | view place => simp [isView]
  | custom name react => simp [isView]

/-- Observers that are the same are views at the same place, or no views. -/
theorem Observer.isView_of_same {o other : Observer} (same : o.same other) (ref : Nat) :
    o.isView ref = other.isView ref := by
  cases o with
  | view place =>
    cases other with
    | view place' =>
      have equal : place = place' := by simpa [Observer.same] using same
      rw [equal]
    | custom name react => simp [Observer.same] at same
  | custom name react =>
    cases other with
    | view place => simp [Observer.same] at same
    | custom name' react' => rfl

/-! ## Watches in the store -/

namespace Store

/-- How often an entry is watched by the widget at a place. -/
def watches (store : Store) (ref : Nat) (id : String) : Nat :=
  (store.observersOf id).countP (Observer.isView ref)

theorem watches_pos_iff {store : Store} {ref : Nat} {id : String} :
    0 < store.watches ref id ↔ .view ref ∈ store.observersOf id := by
  simp only [watches, List.countP_pos_iff, Observer.isView_iff]
  exact ⟨fun ⟨o, member, is⟩ => is ▸ member, fun member => ⟨_, member, rfl⟩⟩

theorem watches_subscribe (store : Store) (s : Subscription) (ref : Nat) (id : String) :
    (store.subscribe s).watches ref id =
      store.watches ref id + if id = s.id ∧ s.observer.isView ref then 1 else 0 := by
  rw [watches, observersOf_subscribe]
  by_cases same : id = s.id
  · simp [same, watches, List.countP_append, List.countP_singleton]
  · simp [same, watches]

theorem countP_removeFirst (ref : Nat) (observer : Observer) (observers : List Observer) :
    (removeFirst observer observers).countP (Observer.isView ref) =
      observers.countP (Observer.isView ref) - if observer.isView ref then 1 else 0 := by
  induction observers with
  | nil => simp [removeFirst]
  | cons o rest ih =>
    by_cases same : o.same observer
    · rw [removeFirst, if_pos same, List.countP_cons, Observer.isView_of_same same ref]
      simp
    · rw [removeFirst, if_neg same, List.countP_cons, List.countP_cons, ih]
      by_cases removed : observer.isView ref
      · -- it is the view that is looked for, so this one is another
        have other : o.isView ref = false := by
          rw [Bool.eq_false_iff]
          intro is
          rw [Observer.isView_iff] at is removed
          rw [is, removed] at same
          exact same (by simp [Observer.same])
        simp [other]
      · simp [removed]

theorem watches_unsubscribe (store : Store) (s : Subscription) (ref : Nat) (id : String) :
    (store.unsubscribe s).watches ref id =
      store.watches ref id - if id = s.id ∧ s.observer.isView ref then 1 else 0 := by
  rw [watches, observersOf_unsubscribe]
  by_cases same : id = s.id
  · simp [same, watches, countP_removeFirst]
  · simp [same, watches]

end Store

/-! ## Widgets apart from what they show -/

/-- A widget apart from what it shows and what it has drawn. -/
def Widget.still (w : Widget) : Widget :=
  { w with rendered := .map [], drawn := 0 }

/-- What a widget shows matters neither for its id and its watch nor for how it is drawn. -/
theorem Widget.eq_of_still {w now : Widget} (still : now.still = w.still) :
    now.id = w.id ∧ now.mounted = w.mounted ∧ now.render = w.render := by
  have id : now.still.id = w.still.id := congrArg Widget.id still
  have mounted : now.still.mounted = w.still.mounted := congrArg Widget.mounted still
  have render : now.still.render = w.still.render := congrArg Widget.render still
  exact ⟨id, mounted, render⟩

namespace Engine

def still (e : Engine) : List Widget :=
  e.board.widgets.map Widget.still

/-- Whether the widget at a place is mounted under an id. -/
def attends (e : Engine) (ref : Nat) (id : String) : Bool :=
  e.still[ref]?.any fun w => w.mounted && w.id == id

theorem attends_iff {e : Engine} {ref : Nat} {id : String} : e.attends ref id ↔
    ∃ w, e.board.widgets[ref]? = some w ∧ w.mounted = true ∧ w.id = id := by
  simp only [attends, still, List.getElem?_map, Option.any_map, Option.any_eq_true,
    Bool.and_eq_true, beq_iff_eq]
  rfl

theorem attends_of_found {e : Engine} {ref : Nat} {w : Widget}
    (found : e.board.widgets[ref]? = some w) (id : String) :
    e.attends ref id = (w.mounted && w.id == id) := by
  simp only [attends, still, List.getElem?_map, found, Option.map_some, Option.any_some]
  rfl

/-- A mounted widget watches its own entry once; the others watch nothing. What anyone else can end
is no watch of a widget. -/
structure Attentive (e : Engine) : Prop where
  watching : ∀ ref id, e.board.store.watches ref id = if e.attends ref id then 1 else 0
  own : ∀ (ref : Nat) (w : Widget), e.still[ref]? = some w →
    ∀ s, w.subscription = some s → s = ⟨w.id, .view ref⟩
  handles : ∀ handle s, Entries.get? handle e.board.handles = some s →
    ∀ ref, s.observer.isView ref = false

theorem Attentive.mem_observersOf_iff {e : Engine} (attentive : e.Attentive) {ref : Nat}
    {id : String} : .view ref ∈ e.board.store.observersOf id ↔ e.attends ref id := by
  rw [← Store.watches_pos_iff, attentive.watching]
  split <;> simp [*]

/-- The widgets are the same but for what they show, and so are their watches. Others may have
ended theirs. -/
structure Stands (e after : Engine) : Prop where
  still : after.still = e.still
  handles : after.board.handles = e.board.handles
  watches : ∀ ref id, after.board.store.watches ref id = e.board.store.watches ref id
  observers : ∀ id, ∀ o ∈ after.board.store.observersOf id, o ∈ e.board.store.observersOf id

theorem Stands.refl (e : Engine) : Stands e e :=
  ⟨rfl, rfl, fun _ _ => rfl, fun _ _ member => member⟩

theorem Stands.trans {first second third : Engine} (earlier : Stands first second)
    (later : Stands second third) : Stands first third where
  still := later.still.trans earlier.still
  handles := later.handles.trans earlier.handles
  watches ref id := (later.watches ref id).trans (earlier.watches ref id)
  observers id o member := earlier.observers id o (later.observers id o member)

theorem Stands.of_same {e after : Engine} (still : after.still = e.still)
    (handles : after.board.handles = e.board.handles)
    (observers : after.board.store.observers = e.board.store.observers) : Stands e after := by
  have same (id : String) : after.board.store.observersOf id = e.board.store.observersOf id := by
    rw [Store.observersOf, observers, Store.observersOf]
  refine ⟨still, handles, fun ref id => ?_, fun id o member => ?_⟩
  · rw [Store.watches, same, Store.watches]
  · rwa [same] at member

theorem Stands.attends {e after : Engine} (stands : Stands e after) (ref : Nat) (id : String) :
    after.attends ref id = e.attends ref id := by
  rw [Engine.attends, stands.still, Engine.attends]

theorem Attentive.of_stands {e after : Engine} (attentive : e.Attentive)
    (stands : Stands e after) : after.Attentive where
  watching ref id := by
    rw [stands.watches, stands.attends]
    exact attentive.watching ref id
  own := by
    rw [stands.still]
    exact attentive.own
  handles := by
    rw [stands.handles]
    exact attentive.handles

/-- A widget is still where it was, the same but for what it shows. -/
theorem widget_of_still {e after : Engine} (still : after.still = e.still) {ref : Nat} {w : Widget}
    (found : e.board.widgets[ref]? = some w) :
    ∃ now, after.board.widgets[ref]? = some now ∧ now.still = w.still := by
  have same := congrArg (fun widgets : List Widget => widgets[ref]?) still
  simp only [Engine.still, List.getElem?_map, found, Option.map_some] at same
  exact Option.map_eq_some_iff.mp same

/-! ## What programs leave alone -/

theorem Aside.still {e after : Engine} (same : Aside e after) : after.still = e.still := by
  have stills (e : Engine) : e.still = e.faces.map Widget.still := by
    simp only [Engine.still, Engine.faces, List.map_map]
    rfl
  rw [stills, stills, same.faces]

theorem Aside.stands {e after : Engine} (same : Aside e after) : Stands e after :=
  .of_same same.still same.handles (congrArg Store.observers same.store)

theorem notify_view_stands (run : Runner) (id : String) (value : Value) (e : Engine) (ref : Nat) :
    Stands e (e.notifyWith run id value (.view ref)) := by
  obtain ⟨store, keeps⟩ := notify_view run id value e ref
  refine .of_same ?_ (by rw [keeps.board]) (congrArg Store.observers store)
  simp only [notifyWith, redraw]
  cases e.board.widgets[ref]? with
  | none => rfl
  | some w =>
    cases drawn : w.render (e.board.store.get w.id) with
    | error fault => simp only [drawn]; rfl
    | ok view =>
      simp only [drawn]
      exact map_modify_of_same e.board.widgets ref _ fun _ => rfl

/-- Beyond what its program does, an observer only leaves a line about its failure. -/
theorem notify_custom_aside (run : Runner) (id : String) (value : Value) (e : Engine)
    (name : String) (react : String → Value → Program) :
    Aside (run (react id value) e).2 (e.notifyWith run id value (.custom name react)) := by
  simp only [notifyWith]
  split
  next fault after ran =>
    rw [ran]
    exact .of_board rfl
  next stop after _ ran =>
    rw [ran]
    exact .of_board rfl

theorem notifyWith_stands {run : Runner}
    (runs : ∀ p (e : Engine), e.Attentive → Stands e (run p e).2) (id : String) (value : Value)
    {e : Engine} (attentive : e.Attentive) (o : Observer) :
    Stands e (e.notifyWith run id value o) := by
  cases o with
  | view ref => exact notify_view_stands run id value e ref
  | custom name react =>
    exact (runs (react id value) e attentive).trans
      (notify_custom_aside run id value e name react).stands

theorem foldl_notify_stands {run : Runner}
    (runs : ∀ p (e : Engine), e.Attentive → Stands e (run p e).2) (id : String) (value : Value)
    {e : Engine} (attentive : e.Attentive) (observers : List Observer) :
    Stands e (observers.foldl (notifyWith run id value) e) :=
  List.foldlRecOn (motive := Stands e) _ _ (.refl e) fun _ stands o _ =>
    stands.trans (notifyWith_stands runs id value (attentive.of_stands stands) o)

theorem storing_stands (id : String) (value : Value) (e : Engine) :
    Stands e (e.storing id value) :=
  .of_same rfl rfl rfl

theorem stands_closed :
    StrideClosed (fun _ => True) fun e after => e.Attentive → Stands e after where
  refl e _ := .refl e
  trans earlier later attentive :=
    (earlier attentive).trans (later (attentive.of_stands (earlier attentive)))
  aside same _ := same.stands
  write := by
    intro id _ run runs value e attentive
    rw [writeWith_eq]
    have stored := storing_stands id value e
    exact stored.trans (foldl_notify_stands
      (fun p e => runs (p.writes_of_all fun _ => trivial) e) id value
      (attentive.of_stands stored) _)
  leave := by
    -- this is where it matters that handles are not for the watches of widgets
    intro handle s e found attentive
    refine ⟨rfl, rfl, fun ref id => ?_, Store.observersOf_unsubscribe_subset e.board.store s⟩
    have other := attentive.handles handle s found ref
    exact (Store.watches_unsubscribe _ s ref id).trans (by simp [other])

/-- Programs leave widgets as they are, but for what they show, and with the same watches. -/
theorem Strides.stands {may : String → Prop} {depth : Nat} {e after : Engine}
    (strides : Strides may depth e after) (attentive : e.Attentive) : Stands e after :=
  (strides.mono (fun _ _ => trivial) (Nat.le_refl depth)).closed stands_closed attentive

end Engine
end Patchbay
