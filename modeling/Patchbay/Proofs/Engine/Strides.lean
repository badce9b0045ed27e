import Patchbay.Proofs.Engine.Accounting
import Patchbay.Proofs.Engine.Serialization

/-!
# Runs as chains of whole writes

A run can be told effect by effect (`Engine.runAt_chains`), but then a write comes apart: between
the moment when a value is stored and the moment when the last observer knows of it there is a state
that nobody is meant to look at. Here a write counts as one *stride* together with everything that
its observers do. Besides writes there are only the ends of watches, and what goes on aside of the
store and the widgets. Every run is a chain of strides (`Engine.runAt_strides`), and so are
dispatches, gestures and the turns of tasks.
-/

namespace Patchbay

open Relation (ReflTransGen)

/-! ## What programs may write -/

/-- A program that writes only where it `may`, up to its end or its first stop. Whoever fires a
trigger may write anywhere, since handlers may. -/
inductive Program.Writes (may : String → Prop) : Program → Prop
  | done (result : Value) : Writes may (.done result)
  | fail (fault : Fault) : Writes may (.fail fault)
  | defer (coroutine : Bool) (body : Program) : Writes may (.defer coroutine body)
  | pause (next : Program) : Writes may (.pause next)
  | report {what : Value} {next : Program} (rest : Writes may next) :
    Writes may (.report what next)
  | log {level : Log.Level} {event : String} {fields : List (String × Value)} {next : Program}
    (rest : Writes may next) : Writes may (.log level event fields next)
  | askVars {next : Log.Vars → Program} (rest : ∀ vars, Writes may (next vars)) :
    Writes may (.askVars next)
  | read {id : String} {next : Value → Program} (rest : ∀ value, Writes may (next value)) :
    Writes may (.read id next)
  | write {id : String} {value : Value} {next : Program} (allowed : may id)
    (rest : Writes may next) : Writes may (.write id value next)
  | writeProperty {id name : String} {value : Value} {next : Program} (allowed : may id)
    (rest : Writes may next) : Writes may (.writeProperty id name value next)
  | unsubscribe {handle : String} {next : Program} (rest : Writes may next) :
    Writes may (.unsubscribe handle next)
  | draw {chart : Nat} {next : Binary64 → Program} (rest : ∀ x, Writes may (next x)) :
    Writes may (.draw chart next)
  | dispatch {trigger : String} {context : Value} {next : Program} (allowed : ∀ id, may id)
    (rest : Writes may next) : Writes may (.dispatch trigger context next)

theorem Program.writes_of_all {may : String → Prop} (all : ∀ id, may id) (p : Program) :
    p.Writes may := by
  induction p with
  | done result => exact .done result
  | fail fault => exact .fail fault
  | defer coroutine body => exact .defer coroutine body
  | pause next => exact .pause next
  | report what next ih => exact .report ih
  | log level event fields next ih => exact .log ih
  | askVars next ih => exact .askVars ih
  | read id next ih => exact .read ih
  | write id value next ih => exact .write (all id) ih
  | writeProperty id name value next ih => exact .writeProperty (all id) ih
  | unsubscribe handle next ih => exact .unsubscribe ih
  | draw chart next ih => exact .draw ih
  | dispatch trigger context next ih => exact .dispatch all ih

/-! ## What goes on aside -/

/-- A widget apart from how many random numbers it has drawn. -/
def Widget.face (w : Widget) : Widget :=
  { w with drawn := 0 }

namespace Engine

def faces (e : Engine) : List Widget :=
  e.board.widgets.map Widget.face

/-- Nothing has happened to the store, to the watches that can be ended, or to the widgets, what
they show included. -/
structure Aside (e after : Engine) : Prop where
  store : after.board.store = e.board.store
  handles : after.board.handles = e.board.handles
  faces : after.faces = e.faces

theorem Aside.of_board {e after : Engine} (same : after.board = e.board) : Aside e after :=
  ⟨by rw [same], by rw [same], by rw [Engine.faces, same, Engine.faces]⟩

theorem Aside.trans {first second third : Engine} (earlier : Aside first second)
    (later : Aside second third) : Aside first third :=
  ⟨later.store.trans earlier.store, later.handles.trans earlier.handles,
    later.faces.trans earlier.faces⟩

theorem schedule_aside (e : Engine) (body : Program) (action : Action) (id : String) :
    Aside e (e.schedule body action id) := by
  have board := schedule_board e body action id
  exact ⟨by rw [board], by rw [board], by rw [faces, faces, board]⟩

theorem conclude_aside (dispatchId : String) (action : Action) (e : Engine) (stop : Stop) :
    Aside e (e.conclude dispatchId action stop) := by
  cases stop with
  | failed fault => exact .of_board rfl
  | done result => exact .of_board rfl
  | deferred coroutine body => exact schedule_aside e body action dispatchId
  | paused rest => exact schedule_aside e rest action dispatchId

theorem noteUnresolved_aside (e : Engine) (tokens : List String) :
    Aside e (e.noteUnresolved tokens) := by
  obtain ⟨lines, unresolved, noted⟩ := e.noteUnresolved_eq tokens
  exact .of_board (by rw [noted])

theorem beginDispatch_aside (trigger : String) (e : Engine) :
    Aside e (e.beginDispatch trigger) := by
  obtain ⟨lines, begun⟩ := e.beginDispatch_eq trigger
  exact .of_board (by rw [begun])

theorem draw_aside (e : Engine) (chart : Nat) :
    Aside e (e.updateWidget chart fun w => { w with drawn := w.drawn + 1 }) :=
  ⟨rfl, rfl, map_modify_of_same e.board.widgets chart _ fun _ => rfl⟩

theorem settleTask_aside (e : Engine) (ref : Nat) : Aside e (e.settleTask ref) := by
  cases found : e.board.tasks[ref]? with
  | none => exact .of_board (by simp only [settleTask, found])
  | some task =>
    have board := settleTask_board found
    exact ⟨by rw [board]; rfl, by rw [board]; rfl, by rw [faces, faces, board]; rfl⟩

/-! ## Strides -/

/-- One thing that a program does, at most so deep: it writes where it `may`, and the observers of
the entry have their say; or it ends the watch under a handle; or it does something aside. -/
inductive Stride (may : String → Prop) (depth : Nat) : Engine → Engine → Prop
  | aside {e after : Engine} (same : Aside e after) : Stride may depth e after
  | write {id : String} (allowed : may id) {inner : Nat} (lower : inner < depth) (value : Value)
    (e : Engine) : Stride may depth e (e.writeWith (Program.runAt inner) id value)
  | leave {handle : String} {s : Subscription} {e : Engine}
    (found : Entries.get? handle e.board.handles = some s) :
    Stride may depth e (e.withStore (e.board.store.unsubscribe s))

abbrev Strides (may : String → Prop) (depth : Nat) : Engine → Engine → Prop :=
  ReflTransGen (Stride may depth)

variable {may : String → Prop} {depth : Nat} {e after : Engine}

theorem Aside.strides (same : Aside e after) : Strides may depth e after :=
  .single (.aside same)

theorem Strides.mono {more : String → Prop} {deeper : Nat} (wider : ∀ id, may id → more id)
    (le : depth ≤ deeper) (strides : Strides may depth e after) : Strides more deeper e after := by
  refine Relation.ReflTransGen.mono ?_ e after strides
  intro e after stride
  cases stride with
  | aside same => exact .aside same
  | write allowed lower value => exact .write (wider _ allowed) (Nat.lt_of_lt_of_le lower le) value e
  | leave found => exact .leave found

/-- Programs that run one level deeper take strides at that depth. -/
theorem Strides.deepen (strides : Strides may depth e after) : Strides may (depth + 1) e after :=
  strides.mono (fun _ allowed => allowed) (Nat.le_succ depth)

theorem foldl_strides {α : Type} {f : Engine → α → Engine}
    (step : ∀ e a, Strides may depth e (f e a)) (xs : List α) (e : Engine) :
    Strides may depth e (xs.foldl f e) := by
  induction xs generalizing e with
  | nil => exact .refl
  | cons a rest ih => exact (step e a).trans (ih (f e a))

section

variable {run : Runner} (runs : ∀ p e, Strides may depth e (run p e).2)
include runs

theorem carryOutWith_strides (dispatchId : String) (action : Action) (e : Engine)
    (args : Except Fault (Entries String Value)) :
    Strides may depth e (e.carryOutWith run dispatchId action args) := by
  cases args with
  | error fault => exact Aside.strides (.of_board rfl)
  | ok args =>
    simp only [carryOutWith]
    split
    · exact Aside.strides (.of_board rfl)
    next r _ =>
      exact (runs _ e).trans (conclude_aside dispatchId action _ _).strides

theorem runActionWith_strides (context : Value) (dispatchId : String) (e : Engine)
    (action : Action) :
    Strides may depth e (e.runActionWith run context dispatchId action) :=
  (noteUnresolved_aside e _).strides.trans (carryOutWith_strides runs dispatchId action _ _)

theorem dispatchWith_strides (trigger : String) (context : Value) (e : Engine) :
    Strides may depth e (e.dispatchWith run trigger context) := by
  have begun : Strides may depth e (e.beginDispatch trigger) :=
    (beginDispatch_aside trigger e).strides
  have actions := foldl_strides (runActionWith_strides runs context e.nextDispatchId)
    (e.actionsOn trigger) (e.beginDispatch trigger)
  exact (begun.trans actions).tail (.aside (.of_board rfl))

end

/-- Every run is a chain of strides. What it writes it writes at a lower depth, where the observers
run. -/
theorem runAt_strides (depth : Nat) {may : String → Prop} {p : Program} (writes : p.Writes may)
    (e : Engine) : Strides may depth e (Program.runAt depth p e).2 := by
  induction depth generalizing may p e with
  | zero => exact .refl
  | succ depth ih =>
    change Strides may (depth + 1) e (Program.runWith (Program.runAt depth) p e).2
    induction writes generalizing e with
    | done | fail | defer | pause => exact .refl
    | @report what _ _ rest =>
      have told : Aside e (e.report what) := .of_board rfl
      exact told.strides.trans (rest _)
    | @log level event fields _ _ rest =>
      have logged : Aside e (e.log level event fields) := .of_board rfl
      exact logged.strides.trans (rest _)
    | askVars _ rest | read _ rest => exact rest _ e
    | write allowed _ rest =>
      exact .head (.write allowed (Nat.lt_succ_self depth) _ e) (rest _)
    | @writeProperty id name value _ allowed _ rest =>
      exact .head (.write allowed (Nat.lt_succ_self depth)
        ((e.board.store.get id).withProperty name value) e) (rest _)
    | unsubscribe _ rest =>
      simp only [Program.runWith]
      split
      · -- the handle is unknown: the run stops here
        exact .refl
      next s found => exact .head (.leave found) (rest _)
    | @draw chart _ _ rest => exact .head (.aside (draw_aside e chart)) (rest _ _)
    | @dispatch trigger context _ allowed _ rest =>
      -- the handlers may write anywhere, and so may this program
      have handlers (p : Program) (e : Engine) :
          Strides may depth e (Program.runAt depth p e).2 :=
        ih (p.writes_of_all allowed) e
      exact (dispatchWith_strides handlers trigger context e).deepen.trans (rest _)

/-- Something that holds from one state to a later one, whatever programs do that write only where
they `may`. To be shown for a write, it may be assumed for what the observers do. -/
structure StrideClosed (may : String → Prop) (holds : Engine → Engine → Prop) : Prop where
  refl : ∀ e, holds e e
  trans : ∀ {first second third}, holds first second → holds second third → holds first third
  aside : ∀ {e after}, Aside e after → holds e after
  write : ∀ {id}, may id → ∀ {run : Runner},
    (∀ {p : Program}, p.Writes may → ∀ e, holds e (run p e).2) → ∀ value e,
      holds e (e.writeWith run id value)
  leave : ∀ {handle s e}, Entries.get? handle e.board.handles = some s →
    holds e (e.withStore (e.board.store.unsubscribe s))

/-- What is closed under strides holds across every chain of them, however deep they reach. -/
theorem Strides.closed {holds : Engine → Engine → Prop} (closed : StrideClosed may holds)
    (strides : Strides may depth e after) : holds e after := by
  -- over the depth, since a write is made of runs at lower depths, then over the chain
  induction depth using Nat.strongRecOn generalizing e after with
  | _ depth ih =>
    induction strides with
    | refl => exact closed.refl e
    | tail _ stride before =>
      refine closed.trans before ?_
      cases stride with
      | aside same => exact closed.aside same
      | leave found => exact closed.leave found
      | @write _ allowed inner lower value =>
        exact closed.write allowed
          (fun writes e => ih inner lower (runAt_strides inner writes e)) value _

/-! ## Dispatches, gestures and turns -/

/-- What is done by programs that may do anything, nested as deep as programs can be. -/
abbrev FullStrides : Engine → Engine → Prop :=
  Strides (fun _ => True) (nestingLimit + 1)

theorem run_strides (p : Program) (e : Engine) : FullStrides e (p.run e).2 :=
  (runAt_strides nestingLimit (p.writes_of_all fun _ => trivial) e).deepen

theorem write_strides (id : String) (value : Value) (e : Engine) :
    FullStrides e (e.write id value) :=
  .single (.write trivial (Nat.lt_succ_self nestingLimit) value e)

theorem dispatch_strides (trigger : String) (context : Value) (e : Engine) :
    FullStrides e (e.dispatch trigger context) :=
  dispatchWith_strides run_strides trigger context e

theorem fire_strides (w : Widget) (event : String) (context : Value) (e : Engine) :
    FullStrides e (e.fire w event context) := by
  have logged : Aside e (e.log .debug "widget_fired"
      [("widget_id", .text w.id), ("trigger", .text s!"{w.id}.{event}")]) := .of_board rfl
  exact logged.strides.trans (dispatch_strides _ context _)

theorem afterwards_strides {result : Stop × Engine} {next : Value → Engine → Engine}
    (before : FullStrides e result.2) (later : ∀ value e, FullStrides e (next value e)) :
    FullStrides e (afterwards result next).2 := by
  obtain ⟨stop, between⟩ := result
  cases stop with
  | done value => exact before.trans (later value between)
  | failed | deferred | paused => exact before

/-- Whatever a user does to a widget comes down to strides. -/
theorem performOn_strides (w : Widget) (gesture : Gesture) (e : Engine) :
    FullStrides e (e.performOn w gesture).2 := by
  unfold performOn
  split
  · exact .refl
  · cases gesture with
    | select value => exact afterwards_strides (run_strides _ e) fun _ e => fire_strides w _ _ e
    | typeText text => exact afterwards_strides (run_strides _ e) fun _ e => fire_strides w _ _ e
    | pick date => exact (write_strides w.id date e).trans (fire_strides w _ _ _)
    | click => exact fire_strides w _ _ e

theorem stepTask_strides (e : Engine) (ref : Nat) : FullStrides e (e.stepTask ref) := by
  unfold stepTask
  split
  · exact .refl
  next task _ =>
    split
    · -- what the body does comes between what is set aside before and after it
      have begun : FullStrides e (e.withVars task.vars) := Aside.strides (.of_board rfl)
      have ran := begun.trans (run_strides task.body _)
      dsimp only
      split <;> exact ran.tail (.aside ⟨rfl, rfl, rfl⟩)
    · exact Aside.strides ⟨rfl, rfl, rfl⟩
    · exact .refl

theorem turn_strides (e : Engine) (turn : Turn) : FullStrides e (e.turn turn) := by
  cases turn with
  | step ref => exact stepTask_strides e ref
  | settle ref => exact (settleTask_aside e ref).strides

end Engine
end Patchbay
