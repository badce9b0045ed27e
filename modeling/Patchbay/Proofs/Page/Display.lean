import Patchbay.Proofs.Page.Moves

/-!
# What the widgets of a page show

Every widget of a page watches its own entry and no other. A write has it drawn anew
(`Engine.Redrawn`), so at all times a widget shows what is stored for it, as long as it can be drawn
of that (`Engine.Displayed.move`). Charts are left alone by all that a page does short of a step.
-/

namespace Patchbay

open Relation (ReflTransGen)

namespace Engine

/-- A widget at a place watches its own entry only, and shows what is stored there if it can be
drawn of it. -/
structure Displays (e : Engine) (ref : Nat) (w : Widget) : Prop where
  watches : ∀ id, .view ref ∈ e.board.store.observersOf id ↔ id = w.id
  shows : ∀ view, w.render (e.board.store.get w.id) = .ok view → e.showing ref = some view

/-- Every widget shows what is stored for it. -/
def Displayed (e : Engine) : Prop :=
  ∀ (ref : Nat) (w : Widget), e.declared[ref]? = some w → e.Displays ref w

theorem Displays.of_same {e after : Engine} {ref : Nat} {w : Widget} (displays : e.Displays ref w)
    (store : after.board.store = e.board.store) (showing : after.showing ref = e.showing ref) :
    after.Displays ref w := by
  constructor
  · rw [store]
    exact displays.watches
  · rw [store, showing]
    exact displays.shows

theorem showing_of_widgets {e after : Engine} (widgets : after.board.widgets = e.board.widgets)
    (ref : Nat) : after.showing ref = e.showing ref := by
  rw [showing, showing, widgets]

theorem Displayed.of_same {e after : Engine} (displayed : e.Displayed)
    (store : after.board.store = e.board.store) (widgets : after.board.widgets = e.board.widgets) :
    after.Displayed := by
  intro ref w found
  rw [declared, widgets] at found
  exact (displayed ref w found).of_same store (showing_of_widgets widgets ref)

/-- A write leaves alone what the widgets with other ids show. -/
theorem Displays.others {e after : Engine} {id : String} {ref : Nat} {w : Widget}
    (displays : e.Displays ref w) (redrawn : Redrawn id e after) (other : w.id ≠ id) :
    after.showing ref = e.showing ref :=
  redrawn.others ref fun watching => other ((displays.watches id).mp watching).symm

/-- After a write, all widgets show what is stored. -/
theorem Displayed.redrawn {e after : Engine} {id : String} {value : Value}
    (displayed : e.Displayed) (redrawn : Redrawn id e after)
    (values : after.board.store.values = Entries.put id value e.board.store.values)
    (declared : after.declared = e.declared) : after.Displayed := by
  intro ref w found
  have known := found
  rw [declared] at known
  have displays := displayed ref w known
  have watches : ∀ id, .view ref ∈ after.board.store.observersOf id ↔ id = w.id := by
    intro id
    rw [Store.observersOf, redrawn.observers]
    exact displays.watches id
  refine ⟨watches, fun view drawn => ?_⟩
  by_cases own : w.id = id
  · -- the widget has been told
    rw [declared_getElem?, Option.map_eq_some_iff] at found
    obtain ⟨now, there, rfl⟩ := found
    have watching := (displays.watches id).mpr own.symm
    have shows := redrawn.watching ref watching now view there drawn
    rw [showing, there, Option.map_some, shows]
  · rw [displays.others redrawn own]
    refine displays.shows view ?_
    rw [← drawn, Store.get, Store.get, values, Entries.get?_put_of_ne own]

theorem Does.displayed {good : Value → Prop} {e after : Engine} (does : Does good e after)
    (displayed : e.Displayed) : after.Displayed := by
  cases does with
  | note same => exact displayed.of_same (by rw [same]) (by rw [same])
  | take found takes isGood took redrawn =>
    exact displayed.redrawn redrawn took.values took.declared
  | start found chart args target dispatchId =>
    exact displayed.of_same (schedule_store _ _ _ _) (by rw [schedule_board])

theorem Stepped.displayed {e after : Engine} {ref : Nat} (stepped : Stepped e ref after)
    (declared : after.declared = e.declared) (displayed : e.Displayed) : after.Displayed := by
  cases stepped with
  | stays same => exact displayed.of_same (by rw [same]) (by rw [same])
  | ends _ _ board => exact displayed.of_same (by rw [board]) (by rw [board])
  | pauses _ _ _ board => exact displayed.of_same (by rw [board]) (by rw [board])
  | renews _ _ _ _ _ _ values _ _ redrawn => exact displayed.redrawn redrawn values declared

/-- Whatever happens on a page, its widgets show what is stored for them. -/
theorem Displayed.move {e after : Engine} (displayed : e.Displayed) (orderly : e.Orderly)
    (move : PageMoves e after) : after.Displayed := by
  cases move.kinds orderly.wired with
  | ran start same effects does =>
    have started : start.Displayed := displayed.of_same (by rw [same]) (by rw [same])
    exact (does_invariant does started fun _ does displayed' => does.displayed displayed').2
  | stepped ref is =>
    subst is
    exact (stepTask_stepped orderly.wired orderly.chores ref).displayed
      (stepTask_steady e ref).declared displayed
  | noted ref task found is =>
    subst is
    have board := settleTask_board found
    exact displayed.of_same (by rw [board]; rfl) (by rw [board]; rfl)

/-- While no task is stepped, charts show what they have shown. -/
theorem does_showing {good : Value → Prop} {start e : Engine}
    (does : ReflTransGen (Does good) start e) (displayed : start.Displayed)
    (distinct : (start.declared.map Widget.id).Nodup) {ref : Nat} {w : Widget}
    (found : start.declared[ref]? = some w) (chart : w.type = .chart) :
    e.showing ref = start.showing ref := by
  refine (@does_invariant good start e does
    (fun e => e.Displayed ∧ e.showing ref = start.showing ref) ⟨displayed, rfl⟩
    fun {between after} declared does holds => ?_).2.2
  obtain ⟨displayed', same⟩ := holds
  refine ⟨does.displayed displayed', Eq.trans ?_ same⟩
  cases does with
  | note board => exact showing_of_widgets (by rw [board]) ref
  | take found' takes isGood took redrawn =>
    -- what takes a value is no chart, so it has another id
    rw [declared] at found'
    refine (displayed' ref w (declared ▸ found)).others redrawn fun own => ?_
    obtain ⟨-, rfl⟩ := same_place distinct found found' own
    exact takes.2 chart
  | start => exact showing_of_widgets (by rw [schedule_board]) ref

end Engine
end Patchbay
