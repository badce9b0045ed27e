import Patchbay.Proofs.Engine.Accounting
import Patchbay.Proofs.Engine.Reachable
import Patchbay.Proofs.Widget.Handling

/-!
# What actions do on a page

On a page, exactly the handlers of its widgets are registered, and only widgets watch the store
(`Engine.Wired`). An action then does one of three things (`Engine.runAction_carried`): nothing, or
it has a widget take a value, or it schedules a refresh of a chart. All that a page does while no
task is stepped is a chain of these (`Engine.Does`).
-/

namespace Patchbay

open Relation (ReflTransGen)

/-- What a widget does depends on its declaration only. -/
theorem Widget.handlers_declared (w : Widget) (ref : Nat) :
    w.declared.handlers ref = w.handlers ref := by
  unfold Widget.handlers
  cases sort : w.type <;> simp only [declared, sort] <;> rfl

namespace Engine

/-- The widgets of the board, as they were declared. -/
def declared (e : Engine) : List Widget :=
  e.board.widgets.map Widget.declared

theorem declared_of_board {e after : Engine} (same : after.board = e.board) :
    after.declared = e.declared :=
  congrArg (fun board => board.widgets.map Widget.declared) same

/-- Exactly the handlers of the widgets are registered, no two widgets have the same id, and only
widgets watch the store. -/
structure Wired (e : Engine) : Prop where
  distinct : (e.declared.map Widget.id).Nodup
  served : ∀ (ref : Nat) (w : Widget), e.declared[ref]? = some w →
    ∀ type h, (type, h) ∈ w.handlers ref →
      e.board.registry.lookup w.id type = some ⟨w.id, type, h⟩
  serving : ∀ target type r, e.board.registry.lookup target type = some r →
    ∃ (ref : Nat) (w : Widget), e.declared[ref]? = some w ∧ w.id = target ∧
      (type, r.handler) ∈ w.handlers ref
  labelled : ∀ w ∈ e.declared, w.Labelled
  viewed : e.Viewed

theorem Wired.of_same {e after : Engine} (wired : e.Wired) (declared : after.declared = e.declared)
    (registry : after.board.registry = e.board.registry) (viewed : after.Viewed) :
    after.Wired := by
  constructor
  · rw [declared]
    exact wired.distinct
  · rw [declared, registry]
    exact wired.served
  · rw [declared, registry]
    exact wired.serving
  · rw [declared]
    exact wired.labelled
  · exact viewed

theorem Wired.of_board {e after : Engine} (wired : e.Wired) (same : after.board = e.board) :
    after.Wired := by
  have viewed := wired.viewed.of_same (congrArg (fun b => b.store.observers) same)
  exact wired.of_same (declared_of_board same) (congrArg Board.registry same) viewed

theorem Wired.of_effects {fires : Prop} {e after : Engine} (wired : e.Wired)
    (effects : Effects fires e after) : after.Wired :=
  wired.of_same effects.steady.declared effects.steady.registry fun id o member =>
    wired.viewed id o (effects.observers id o member)

/-- Where ids are distinct, widgets with the same id are the same one. -/
theorem same_place {widgets : List Widget} (distinct : (widgets.map Widget.id).Nodup)
    {ref ref' : Nat} {w w' : Widget} (found : widgets[ref]? = some w)
    (found' : widgets[ref']? = some w') (same : w.id = w'.id) : ref = ref' ∧ w = w' := by
  have ids : (widgets.map Widget.id)[ref]? = (widgets.map Widget.id)[ref']? := by
    simp [found, found', same]
  have inside : ref < (widgets.map Widget.id).length := by
    rw [List.length_map]
    exact (List.getElem?_eq_some_iff.mp found).1
  have here := (List.getElem?_inj inside distinct).mp ids
  subst here
  exact ⟨rfl, Option.some.inj (found.symm.trans found')⟩

/-! ## One action -/

/-- A widget has taken a value, and nothing else has changed on the board but what widgets show. -/
structure Took (w : Widget) (value : Value) (e after : Engine) : Prop where
  values : after.board.store.values =
    Entries.put w.id (w.taking value (e.board.store.get w.id)) e.board.store.values
  board : after.board =
    { e.board with store := after.board.store, widgets := after.board.widgets }
  declared : after.declared = e.declared

theorem Took.of_wrote {w : Widget} {value : Value} {e start after : Engine}
    (wrote : Wrote w.id (w.taking value (start.board.store.get w.id)) start after)
    (same : start.board = e.board) : Took w value e after := by
  have declared : after.declared = start.declared := wrote.keeps.declared
  have values := wrote.values
  have board := wrote.keeps.board
  rw [same] at values board
  refine ⟨values, board, ?_⟩
  rw [declared, Engine.declared, same]
  rfl

/-- One outcome has been counted, once. -/
def Counts (e after : Engine) (outcome : Outcome) : Prop :=
  ∀ o, after.shared.counters.count o =
    e.shared.counters.count o + if outcome = o then 1 else 0

/-- What an action has come to, and how it has been counted. -/
inductive Carried (context : Value) (dispatchId : String) (e : Engine) (action : Action) :
    Engine → Prop
  | unresolved {after : Engine} {fault : Fault}
    (failed : ((e.scope context).resolveAll action.args).outcome = .error fault)
    (same : after.board = e.board) (counts : Counts e after .resolutionError) :
    Carried context dispatchId e action after
  | missing {after : Engine} {args : Entries String Value}
    (resolved : ((e.scope context).resolveAll action.args).outcome = .ok args)
    (unknown : e.board.registry.lookup action.target action.type = none)
    (same : after.board = e.board) (counts : Counts e after .missingHandler) :
    Carried context dispatchId e action after
  | took {after : Engine} {args : Entries String Value} {ref : Nat} {w : Widget}
    (resolved : ((e.scope context).resolveAll action.args).outcome = .ok args)
    (found : e.declared[ref]? = some w) (target : w.id = action.target)
    (other : w.type ≠ .chart) (handles : action.type ∈ (w.handlers ref).map Prod.fst)
    (took : Took w (argumentOf action.type args) e after) (counts : Counts e after .ok)
    (redrawn : Redrawn w.id e after) :
    Carried context dispatchId e action after
  | scheduled {args : Entries String Value} {ref : Nat} {w : Widget}
    (resolved : ((e.scope context).resolveAll action.args).outcome = .ok args)
    (found : e.declared[ref]? = some w) (target : w.id = action.target)
    (chart : w.type = .chart) (handles : action.type ∈ (w.handlers ref).map Prod.fst)
    (calling : Engine) (same : calling.board = e.board) (loop : calling.shared.loop = e.shared.loop)
    (uncounted : ∀ o, calling.shared.counters.count o = e.shared.counters.count o) :
    Carried context dispatchId e action
      (calling.schedule (w.refresh ref (.record args)) action dispatchId)

theorem runAction_carried {e : Engine} (wired : e.Wired) (context : Value) (dispatchId : String)
    (action : Action) : Carried context dispatchId e action
      (e.runActionWith Program.run context dispatchId action) := by
  have board := e.calling_board context action
  have counted (outcome o : Outcome) :
      ((e.calling context action).shared.counters.record outcome).count o =
        e.shared.counters.count o + if outcome = o then 1 else 0 := by
    rw [Counters.count_record, e.calling_count context action o]
  have ran : e.runActionWith Program.run context dispatchId action =
      (e.calling context action).carryOutWith Program.run dispatchId action
        ((e.scope context).resolveAll action.args).outcome := rfl
  rw [ran]
  cases resolved : ((e.scope context).resolveAll action.args).outcome with
  | error fault => exact .unresolved resolved board (counted .resolutionError)
  | ok args =>
    cases known : e.board.registry.lookup action.target action.type with
    | none =>
      simp only [carryOutWith, board, known]
      exact .missing resolved known board (counted .missingHandler)
    | some r =>
      -- Whatever is registered is the handler of a widget.
      obtain ⟨ref, w, found, target, handles⟩ := wired.serving _ _ r known
      have types := List.mem_map_of_mem (f := Prod.fst) handles
      simp only [carryOutWith, board, known]
      by_cases chart : w.type = .chart
      · rw [handler_chart chart handles]
        exact .scheduled resolved found target chart types (e.calling context action) board
          (e.calling_loop context action) (e.calling_count context action)
      · have viewed : (e.calling context action).Viewed :=
          wired.viewed.of_same (congrArg (fun b => b.store.observers) board)
        obtain ⟨after, stops, wrote⟩ := handler_run (Program.runAt (nestingLimit - 1)) viewed
          (wired.labelled w (List.mem_of_getElem? found)) chart handles args
        rw [← Program.run_eq] at stops
        rw [stops]
        have took := Took.of_wrote wrote board
        have counters : after.shared.counters = (e.calling context action).shared.counters := by
          rw [wrote.keeps.shared]
        have shown (ref : Nat) : e.showing ref = (e.calling context action).showing ref := by
          rw [showing, showing, board]
        refine .took resolved found target chart types ⟨took.values, took.board, took.declared⟩ ?_
          (wrote.redrawn.of_same (by rw [board]) shown rfl rfl)
        intro o
        rw [← counted .ok o, ← counters]
        rfl

/-! ## Everything short of a step -/

/-- What a page does while no task is stepped, as far as its board is concerned. Widgets take good
values only. -/
inductive Does (good : Value → Prop) : Engine → Engine → Prop
  | note {e after : Engine} (same : after.board = e.board) : Does good e after
  | take {e after : Engine} {ref : Nat} {w : Widget} {value : Value}
    (found : e.declared[ref]? = some w) (takes : w.type ≠ .button ∧ w.type ≠ .chart)
    (isGood : good value) (took : Took w value e after) (redrawn : Redrawn w.id e after) :
    Does good e after
  | start {e : Engine} {ref : Nat} {w : Widget} (found : e.declared[ref]? = some w)
    (chart : w.type = .chart) (args : Value) {action : Action} (target : w.id = action.target)
    (dispatchId : String) : Does good e (e.schedule (w.refresh ref args) action dispatchId)

/-- The values that an action may have a widget take. -/
def Gives (good : Value → Prop) (context : Value) (action : Action) : Prop :=
  ∀ e args, ((scope e context).resolveAll action.args).outcome = .ok args →
    good (argumentOf action.type args)

theorem Carried.does {good : Value → Prop} {context : Value} {dispatchId : String}
    {e after : Engine} {action : Action} (carried : Carried context dispatchId e action after)
    (gives : Gives good context action) : ReflTransGen (Does good) e after := by
  cases carried with
  | unresolved failed same => exact .single (.note same)
  | missing resolved unknown same => exact .single (.note same)
  | @took _ args place w resolved found target other handles took _ redrawn =>
    have handled : w.type ≠ .button := fun button => by simp [Widget.handlers, button] at handles
    exact .single (.take found ⟨handled, other⟩ (gives e _ resolved) took redrawn)
  | scheduled resolved found target chart handles calling same =>
    have widgets : calling.declared = e.declared := declared_of_board same
    rw [← widgets] at found
    exact .tail (.single (.note same)) (.start found chart _ target dispatchId)

theorem actions_do {good : Value → Prop} {e : Engine} (wired : e.Wired) (context : Value)
    (dispatchId : String) (actions : List Action)
    (gives : ∀ action ∈ actions, Gives good context action) :
    ReflTransGen (Does good) e
      (actions.foldl (runActionWith Program.run context dispatchId) e) := by
  -- An action leaves the page wired, so the next one is of the same kind.
  induction actions generalizing e with
  | nil => exact .refl
  | cons action rest ih =>
    have first := (runAction_carried wired context dispatchId action).does
      (gives action List.mem_cons_self)
    have effects := runActionWith_effects (run_chains True) trivial context dispatchId e action
    exact first.trans (ih (wired.of_effects effects) fun action member =>
      gives action (List.mem_cons_of_mem _ member))

theorem dispatch_does {good : Value → Prop} {e : Engine} (wired : e.Wired) (trigger : String)
    (context : Value) (gives : ∀ action ∈ e.actionsOn trigger, Gives good context action) :
    ReflTransGen (Does good) e (e.dispatch trigger context) := by
  have begins := beginDispatch_effects trivial trigger e
  have begun : (e.beginDispatch trigger).board = e.board := by
    obtain ⟨lines, eq⟩ := e.beginDispatch_eq trigger
    rw [eq]
  have acts := actions_do (wired.of_effects begins) context e.nextDispatchId (e.actionsOn trigger)
    gives
  exact .tail (.head (.note begun) acts) (.note rfl)

end Engine
end Patchbay
