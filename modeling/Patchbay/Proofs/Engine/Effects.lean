import Patchbay.Engine.Execution
import Mathlib.Logic.Relation

/-!
# What running a program can do

A run is a chain of single effects (`Engine.runAt_chains`), however deep the observers and
handlers that it sets off are nested. What holds of every run is proved of one effect at a time.

A program that is *quiet* fires no trigger before it ends or stops, and a quiet run only writes the
store, draws widgets and leaves lines and reports: `Engine.run_keeps`.
-/

namespace Patchbay

open Relation (ReflTransGen)

/-! ## Programs that fire triggers -/

/-- A program that fires triggers only if `fires`, up to its end or its first stop. What it leaves
behind for later is not looked at. -/
inductive Program.Within (fires : Prop) : Program → Prop
  | done (result : Value) : Within fires (.done result)
  | fail (fault : Fault) : Within fires (.fail fault)
  | defer (coroutine : Bool) (body : Program) : Within fires (.defer coroutine body)
  | pause (next : Program) : Within fires (.pause next)
  | report {what : Value} {next : Program} (rest : Within fires next) :
    Within fires (.report what next)
  | log {level : Log.Level} {event : String} {fields : List (String × Value)} {next : Program}
    (rest : Within fires next) : Within fires (.log level event fields next)
  | askVars {next : Log.Vars → Program} (rest : ∀ vars, Within fires (next vars)) :
    Within fires (.askVars next)
  | read {id : String} {next : Value → Program} (rest : ∀ value, Within fires (next value)) :
    Within fires (.read id next)
  | write {id : String} {value : Value} {next : Program} (rest : Within fires next) :
    Within fires (.write id value next)
  | writeProperty {id name : String} {value : Value} {next : Program}
    (rest : Within fires next) : Within fires (.writeProperty id name value next)
  | unsubscribe {handle : String} {next : Program} (rest : Within fires next) :
    Within fires (.unsubscribe handle next)
  | draw {chart : Nat} {next : Binary64 → Program} (rest : ∀ x, Within fires (next x)) :
    Within fires (.draw chart next)
  | dispatch {trigger : String} {context : Value} {next : Program} (allowed : fires)
    (rest : Within fires next) : Within fires (.dispatch trigger context next)

/-- A program that fires no trigger. -/
abbrev Program.Quiet : Program → Prop :=
  Program.Within False

theorem Program.within_of_fires {fires : Prop} (allowed : fires) (p : Program) :
    p.Within fires := by
  induction p with
  | done result => exact .done result
  | fail fault => exact .fail fault
  | defer coroutine body => exact .defer coroutine body
  | pause next => exact .pause next
  | report what next ih => exact .report ih
  | log level event fields next ih => exact .log ih
  | askVars next ih => exact .askVars ih
  | read id next ih => exact .read ih
  | write id value next ih => exact .write ih
  | writeProperty id name value next ih => exact .writeProperty ih
  | unsubscribe handle next ih => exact .unsubscribe ih
  | draw chart next ih => exact .draw ih
  | dispatch trigger context next ih => exact .dispatch allowed ih

/-- An observer whose programs fire triggers only if `fires`. -/
def Observer.Within (fires : Prop) : Observer → Prop
  | .view _ => True
  | .custom _ react => ∀ id value, (react id value).Within fires

/-- A store whose observers fire triggers only if `fires`. -/
def Store.Within (fires : Prop) (store : Store) : Prop :=
  ∀ id, ∀ o ∈ store.observersOf id, o.Within fires

theorem Store.within_of_fires {fires : Prop} (allowed : fires) (store : Store) :
    store.Within fires := by
  intro id o _
  cases o with
  | view widget => trivial
  | custom name react => exact fun id value => Program.within_of_fires allowed (react id value)

theorem Store.removeFirst_subset (observer : Observer) (observers : List Observer) :
    ∀ o ∈ removeFirst observer observers, o ∈ observers := by
  induction observers with
  | nil => exact fun o member => member
  | cons head rest ih =>
    intro o member
    simp only [removeFirst] at member
    split at member
    · exact List.mem_cons_of_mem head member
    · rcases List.mem_cons.mp member with rfl | member
      · exact List.mem_cons_self
      · exact List.mem_cons_of_mem head (ih o member)

theorem Store.observersOf_subscribe (store : Store) (s : Subscription) (id : String) :
    (store.subscribe s).observersOf id =
      if id = s.id then store.observersOf id ++ [s.observer] else store.observersOf id := by
  split
  next same =>
    subst same
    rw [observersOf, subscribe, Entries.get?_put_self, Option.getD_some]
  next other => rw [observersOf, subscribe, Entries.get?_put_of_ne other, observersOf]

theorem Store.observersOf_unsubscribe (store : Store) (s : Subscription) (id : String) :
    (store.unsubscribe s).observersOf id =
      if id = s.id then removeFirst s.observer (store.observersOf id)
      else store.observersOf id := by
  split
  next same =>
    subst same
    rw [observersOf, unsubscribe, Entries.get?_put_self, Option.getD_some]
  next other => rw [observersOf, unsubscribe, Entries.get?_put_of_ne other, observersOf]

theorem Store.observersOf_unsubscribe_subset (store : Store) (s : Subscription) (id : String) :
    ∀ o ∈ (store.unsubscribe s).observersOf id, o ∈ store.observersOf id := by
  intro o member
  rw [observersOf_unsubscribe] at member
  split at member
  · exact removeFirst_subset _ _ o member
  · exact member

/-- A widget as it was declared, without what it has come to since. -/
def Widget.declared (w : Widget) : Widget :=
  { id := w.id, type := w.type, props := w.props }

/-! ## Single effects -/

namespace Engine

/-- The counts that go with tasks are the same: of those scheduled, and of failures noted. -/
def SameTaskCounts (before after : Counters) : Prop :=
  after.scheduled = before.scheduled ∧ after.asyncError = before.asyncError

theorem SameTaskCounts.recordDispatch (c : Counters) (rules : Nat) :
    SameTaskCounts c (c.recordDispatch rules) := by
  unfold Counters.recordDispatch
  split <;> exact ⟨rfl, rfl⟩

/-- One thing that happens to the engine while a program runs. The last four happen only where
triggers are fired. -/
inductive Effect (fires : Prop) : Engine → Engine → Prop
  | log (e : Engine) (level : Log.Level) (event : String) (fields : List (String × Value)) :
    Effect fires e (e.log level event fields)
  | report (e : Engine) (what : Value) : Effect fires e (e.report what)
  | write (e : Engine) (id : String) (value : Value) :
    Effect fires e (e.withStore (e.board.store.set id value))
  | unsubscribe (e : Engine) (s : Subscription) :
    Effect fires e (e.withStore (e.board.store.unsubscribe s))
  | draw (e : Engine) (chart : Nat) :
    Effect fires e (e.updateWidget chart fun w => { w with drawn := w.drawn + 1 })
  | display (e : Engine) (widget : Nat) (view : Value) :
    Effect fires e (e.updateWidget widget fun w => { w with rendered := view })
  | count (allowed : fires) (e : Engine) {counters : Counters}
    (tasks : SameTaskCounts e.shared.counters counters) :
    Effect fires e { e with shared.counters := counters }
  | bind (allowed : fires) (e : Engine) (vars : Log.Vars) : Effect fires e (e.withVars vars)
  | number (allowed : fires) (e : Engine) (n : Nat) :
    Effect fires e { e with shared.nextId := n }
  | schedule (allowed : fires) (e : Engine) (body : Program) (action : Action) (id : String) :
    Effect fires e (e.schedule body action id)

/-- What happens to the engine in the course of a run. -/
abbrev Effects (fires : Prop) : Engine → Engine → Prop :=
  ReflTransGen (Effect fires)

/-- A task that supersedes another changes that task, a counter and the log. -/
theorem supersede_cases (e : Engine) (target : String) :
    e.supersede target = e ∨ ∃ ref, Entries.get? target e.board.inFlight = some ref ∧
      e.supersede target =
        ((e.updateTask ref fun task => { task with progress := .cancelling }).record
          .superseded).log .debug "async_handler_superseded" [("target", .text target)] := by
  unfold supersede
  split
  · exact .inl rfl
  next ref inFlight =>
    split
    · exact .inl rfl
    next previous =>
      split
      · exact .inl rfl
      · exact .inr ⟨ref, inFlight, rfl⟩

theorem supersede_board (e : Engine) (target : String) :
    (e.supersede target).board = { e.board with tasks := (e.supersede target).board.tasks } := by
  rcases supersede_cases e target with same | ⟨ref, -, same⟩
  · rw [same]
  · rw [same]
    rfl

theorem occupy_board (e : Engine) (target : String) (ref : Nat) :
    (e.occupy target ref).board = { e.board with
      tasks := (e.occupy target ref).board.tasks
      inFlight := (e.occupy target ref).board.inFlight } := by
  unfold occupy
  split
  · dsimp only
    rw [supersede_board]
  · rfl

/-- Scheduling changes nothing on the board but its tasks. -/
theorem schedule_board (e : Engine) (body : Program) (action : Action) (id : String) :
    (e.schedule body action id).board = { e.board with
      tasks := (e.schedule body action id).board.tasks
      unsettled := (e.schedule body action id).board.unsettled
      inFlight := (e.schedule body action id).board.inFlight } := by
  unfold schedule
  split
  · rfl
  · dsimp only [record]
    rw [occupy_board]
    rfl

theorem schedule_store (e : Engine) (body : Program) (action : Action) (id : String) :
    (e.schedule body action id).board.store = e.board.store := by
  rw [schedule_board]

/-- Who serves which action, which rules there are, what widgets have been declared and how tasks
are run: no effect changes any of it. -/
structure Steady (before after : Engine) : Prop where
  registry : after.board.registry = before.board.registry
  page : after.page = before.page
  serialize : after.board.serialize = before.board.serialize
  loop : after.shared.loop = before.shared.loop
  random : after.shared.random = before.shared.random
  declared : after.board.widgets.map Widget.declared = before.board.widgets.map Widget.declared

theorem Steady.refl (e : Engine) : Steady e e :=
  ⟨rfl, rfl, rfl, rfl, rfl, rfl⟩

theorem Steady.trans {first second third : Engine} (earlier : Steady first second)
    (later : Steady second third) : Steady first third where
  registry := later.registry.trans earlier.registry
  page := later.page.trans earlier.page
  serialize := later.serialize.trans earlier.serialize
  loop := later.loop.trans earlier.loop
  random := later.random.trans earlier.random
  declared := later.declared.trans earlier.declared

theorem supersede_steady (e : Engine) (target : String) : Steady e (e.supersede target) := by
  rcases supersede_cases e target with same | ⟨ref, -, same⟩
  · rw [same]
    exact .refl e
  · rw [same]
    exact ⟨rfl, rfl, rfl, rfl, rfl, rfl⟩

theorem schedule_steady (e : Engine) (body : Program) (action : Action) (id : String) :
    Steady e (e.schedule body action id) := by
  unfold schedule occupy
  split
  · exact ⟨rfl, rfl, rfl, rfl, rfl, rfl⟩
  · split
    · have added : Steady e (e.addTask (e.taskOf body action id)) := ⟨rfl, rfl, rfl, rfl, rfl, rfl⟩
      have superseded := supersede_steady (e.addTask (e.taskOf body action id)) action.target
      exact (added.trans superseded).trans ⟨rfl, rfl, rfl, rfl, rfl, rfl⟩
    · exact ⟨rfl, rfl, rfl, rfl, rfl, rfl⟩

/-- What a change of one widget leaves alone is the same for all widgets. -/
theorem map_modify_of_same {α : Type} {part : Widget → α} (widgets : List Widget) (ref : Nat)
    (f : Widget → Widget) (same : ∀ w, part (f w) = part w) :
    (widgets.modify ref f).map part = widgets.map part := by
  induction widgets generalizing ref with
  | nil => simp
  | cons w rest ih =>
    cases ref with
    | zero => simp [same]
    | succ ref => simp [ih]

theorem Effect.steady {fires : Prop} {e after : Engine} (effect : Effect fires e after) :
    Steady e after := by
  cases effect with
  | log | report | write | unsubscribe | count | bind | number =>
    exact ⟨rfl, rfl, rfl, rfl, rfl, rfl⟩
  | draw | display => exact ⟨rfl, rfl, rfl, rfl, rfl, map_modify_of_same _ _ _ fun _ => rfl⟩
  | schedule => exact schedule_steady _ _ _ _

theorem Effects.steady {fires : Prop} {e after : Engine} (effects : Effects fires e after) :
    Steady e after := by
  induction effects with
  | refl => exact .refl e
  | tail _ effect ih => exact ih.trans effect.steady

/-- Nobody watches after an effect who did not watch before. -/
theorem Effect.observers {fires : Prop} {e after : Engine} (effect : Effect fires e after)
    (id : String) : ∀ o ∈ after.board.store.observersOf id, o ∈ e.board.store.observersOf id := by
  intro o member
  cases effect with
  | log | report | write | draw | display | count | bind | number => exact member
  | unsubscribe _ s => exact Store.observersOf_unsubscribe_subset _ s id o member
  | schedule => rwa [schedule_store] at member

theorem Effects.observers {fires : Prop} {e after : Engine} (effects : Effects fires e after)
    (id : String) : ∀ o ∈ after.board.store.observersOf id, o ∈ e.board.store.observersOf id := by
  induction effects with
  | refl => exact fun o member => member
  | tail _ effect ih => exact fun o member => ih o (effect.observers id o member)

theorem Effects.within {fires : Prop} {e after : Engine} (effects : Effects fires e after)
    (store : e.board.store.Within fires) : after.board.store.Within fires :=
  fun id o member => store id o (effects.observers id o member)

/-! ## Writes -/

/-- A value has been stored, and nobody has been told yet. -/
def storing (id : String) (value : Value) (e : Engine) : Engine :=
  e.withStore (e.board.store.set id value)

theorem storing_get (id : String) (value : Value) (e : Engine) :
    (e.storing id value).board.store.get id = value :=
  Store.get_set_self e.board.store id value

/-- To write is to store the value, and then to tell the observers one after another. -/
theorem writeWith_eq (run : Runner) (id : String) (value : Value) (e : Engine) :
    e.writeWith run id value =
      (e.board.store.observersOf id).foldl (notifyWith run id value) (e.storing id value) := by
  have told : e.writeWith run id value = (e.board.store.observersOf id).foldl
      (notifyWith run id ((e.storing id value).board.store.get id)) (e.storing id value) := rfl
  rw [told, storing_get]

/-! ## Runs as chains of effects -/

/-- A way to run programs whose runs are chains of effects. -/
def Chains (fires : Prop) (run : Runner) : Prop :=
  ∀ p e, p.Within fires → e.board.store.Within fires → Effects fires e (run p e).2

theorem redraw_effects {fires : Prop} {e after : Engine} {ref : Nat}
    (drawn : e.redraw ref = .ok after) : Effects fires e after := by
  unfold redraw at drawn
  split at drawn
  · cases drawn
    exact .refl
  · split at drawn
    · cases drawn
      exact .single (.display e ref _)
    · cases drawn

theorem foldl_effects {fires : Prop} {α : Type} (f : Engine → α → Engine) (xs : List α)
    (step : ∀ a ∈ xs, ∀ e : Engine, e.board.store.Within fires → Effects fires e (f e a))
    (e : Engine) (store : e.board.store.Within fires) : Effects fires e (xs.foldl f e) := by
  -- What a step asks of the observers still holds at the next one: no effect adds an observer.
  induction xs generalizing e with
  | nil => exact .refl
  | cons a rest ih =>
    have first := step a List.mem_cons_self e store
    have others := ih (fun b member => step b (List.mem_cons_of_mem a member)) (f e a)
      (first.within store)
    exact first.trans others

/-- Most outcomes of an action have nothing to do with tasks. -/
theorem record_effect {fires : Prop} (allowed : fires) (e : Engine) (outcome : Outcome)
    (other : outcome ≠ .scheduled ∧ outcome ≠ .asyncError) : Effect fires e (e.record outcome) := by
  refine .count allowed e ?_
  cases outcome with
  | scheduled => exact absurd rfl other.1
  | asyncError => exact absurd rfl other.2
  | ok | missingHandler | handlerError | noLoop | resolutionError | superseded => exact ⟨rfl, rfl⟩

theorem noteUnresolved_effects {fires : Prop} (allowed : fires) (tokens : List String)
    (e : Engine) : Effects fires e (e.noteUnresolved tokens) := by
  refine foldl_effects _ _ (fun token _ e _ => ?_) e (Store.within_of_fires allowed _)
  have counted : Effect fires e
      { e with shared.counters.unresolved := e.shared.counters.unresolved + 1 } :=
    .count allowed e ⟨rfl, rfl⟩
  exact .tail (.single counted) (.log _ _ _ _)

theorem conclude_effects {fires : Prop} (allowed : fires) (dispatchId : String) (action : Action)
    (e : Engine) (stop : Stop) : Effects fires e (e.conclude dispatchId action stop) := by
  cases stop with
  | failed fault =>
    exact .tail (.single (record_effect allowed e .handlerError ⟨nofun, nofun⟩)) (.log _ _ _ _)
  | done result => exact .single (record_effect allowed e .ok ⟨nofun, nofun⟩)
  | deferred coroutine body => exact .single (.schedule allowed e _ _ _)
  | paused rest => exact .single (.schedule allowed e _ _ _)

theorem beginDispatch_effects {fires : Prop} (allowed : fires) (trigger : String) (e : Engine) :
    Effects fires e (e.beginDispatch trigger) := by
  have begun := ReflTransGen.tail (.single (Effect.number allowed e (e.shared.nextId + 1)))
    (.bind allowed _ (e.bindDispatch trigger).2)
  unfold beginDispatch
  dsimp only
  split
  · exact .tail begun (.log _ _ _ _)
  · exact .tail begun (.log _ _ _ _)

theorem endDispatch_effects {fires : Prop} (allowed : fires) (start e : Engine) (trigger : String) :
    Effects fires e (endDispatch start trigger e) := by
  have counted := Effect.count allowed e
    (.recordDispatch e.shared.counters (matching start.page.rules trigger).length)
  exact .tail (.single counted) (.bind allowed _ _)

section

variable {fires : Prop} {run : Runner} (chains : Chains fires run)
include chains

theorem notifyWith_effects (id : String) (value : Value) (e : Engine) (o : Observer)
    (quiet : o.Within fires) (store : e.board.store.Within fires) :
    Effects fires e (e.notifyWith run id value o) := by
  cases o with
  | view ref =>
    simp only [notifyWith]
    split
    next after drawn => exact redraw_effects drawn
    next fault _ => exact .single (.log e _ _ _)
  | custom name react =>
    -- a failure of a custom observer is logged on top of what it has done
    have effects := chains (react id value) e (quiet id value) store
    simp only [notifyWith]
    split
    next fault after ran =>
      rw [ran] at effects
      exact effects.tail (.log after _ _ _)
    next stop after _ ran => rwa [ran] at effects

theorem announceWith_effects (id : String) (e : Engine) (store : e.board.store.Within fires) :
    Effects fires e (e.announceWith run id) :=
  foldl_effects _ _ (fun o member e => notifyWith_effects chains id _ e o (store id o member)) e
    store

theorem writeWith_effects (id : String) (value : Value) (e : Engine)
    (store : e.board.store.Within fires) : Effects fires e (e.writeWith run id value) := by
  have write : Effect fires e (e.withStore (e.board.store.set id value)) := .write e id value
  exact .head write (announceWith_effects chains id _ (Effects.within (.single write) store))

theorem carryOutWith_effects (allowed : fires) (dispatchId : String) (action : Action)
    (e : Engine) (args : Except Fault (Entries String Value)) :
    Effects fires e (e.carryOutWith run dispatchId action args) := by
  cases args with
  | error fault =>
    exact .tail (.single (record_effect allowed e .resolutionError ⟨nofun, nofun⟩)) (.log _ _ _ _)
  | ok args =>
    simp only [carryOutWith]
    split
    · exact .tail (.single (record_effect allowed e .missingHandler ⟨nofun, nofun⟩)) (.log _ _ _ _)
    next r _ =>
      have effects := chains (r.handler.call (.record args)) e
        (Program.within_of_fires allowed _) (Store.within_of_fires allowed _)
      exact effects.trans (conclude_effects allowed dispatchId action _ _)

theorem runActionWith_effects (allowed : fires) (context : Value) (dispatchId : String)
    (e : Engine) (action : Action) :
    Effects fires e (e.runActionWith run context dispatchId action) :=
  (noteUnresolved_effects allowed _ e).trans
    (carryOutWith_effects chains allowed dispatchId action _ _)

theorem dispatchWith_effects (allowed : fires) (trigger : String) (context : Value) (e : Engine) :
    Effects fires e (e.dispatchWith run trigger context) := by
  have actions := foldl_effects (runActionWith run context e.nextDispatchId)
    (e.actionsOn trigger) (fun action _ e _ => runActionWith_effects chains allowed context _ e
      action) (e.beginDispatch trigger) (Store.within_of_fires allowed _)
  exact (beginDispatch_effects allowed trigger e).trans
    (actions.trans (endDispatch_effects allowed e _ trigger))

theorem runWith_chains : Chains fires (Program.runWith run) := by
  intro p
  -- Over the program's steps. What a step sets off runs one level deeper, where `chains` holds.
  induction p with
  | done | fail | defer | pause => exact fun e _ _ => .refl
  | report what next ih =>
    rintro e ⟨⟩ store
    next rest => exact .head (.report e what) (ih _ rest store)
  | log level event fields next ih =>
    rintro e ⟨⟩ store
    next rest => exact .head (.log e level event fields) (ih _ rest store)
  | askVars next ih =>
    rintro e ⟨⟩ store
    next rest => exact ih _ e (rest _) store
  | read id next ih =>
    rintro e ⟨⟩ store
    next rest => exact ih _ e (rest _) store
  | write id value next ih =>
    rintro e ⟨⟩ store
    next rest =>
      have effects := writeWith_effects chains id value e store
      exact effects.trans (ih _ rest (effects.within store))
  | writeProperty id name value next ih =>
    rintro e ⟨⟩ store
    next rest =>
      have effects := writeWith_effects chains id ((e.board.store.get id).withProperty name value)
        e store
      exact effects.trans (ih _ rest (effects.within store))
  | unsubscribe handle next ih =>
    rintro e ⟨⟩ store
    next rest =>
      simp only [Program.runWith]
      split
      · -- The handle is unknown: the run stops here.
        exact .refl
      next s _ =>
        have effect : Effect fires e (e.withStore (e.board.store.unsubscribe s)) :=
          .unsubscribe e s
        exact .head effect (ih _ rest (Effects.within (.single effect) store))
  | draw chart next ih =>
    rintro e ⟨⟩ store
    next rest => exact .head (.draw e chart) (ih _ _ (rest _) store)
  | dispatch trigger context next ih =>
    rintro e ⟨⟩ store
    next allowed rest =>
      have effects := dispatchWith_effects chains allowed trigger context e
      exact effects.trans (ih _ rest (effects.within store))

end

/-- Every run is a chain of effects, at any depth of nesting. -/
theorem runAt_chains (fires : Prop) (depth : Nat) : Chains fires (Program.runAt depth) := by
  induction depth with
  | zero => exact fun p e _ _ => .refl
  | succ depth ih => exact runWith_chains ih

theorem run_chains (fires : Prop) : Chains fires Program.run :=
  runAt_chains fires nestingLimit

theorem dispatch_effects (trigger : String) (context : Value) (e : Engine) :
    Effects True e (e.dispatch trigger context) :=
  dispatchWith_effects (run_chains True) trivial trigger context e

theorem Steady.actionsOn {e after : Engine} (steady : Steady e after) (trigger : String) :
    after.actionsOn trigger = e.actionsOn trigger := by
  rw [Engine.actionsOn, Engine.actionsOn, steady.page]

/-! ## Quiet runs -/

/-- Nothing has changed but the store, what widgets show, the log and the reports. -/
structure Keeps (before after : Engine) : Prop where
  shared : after.shared =
    { before.shared with lines := after.shared.lines, reports := after.shared.reports }
  board : after.board =
    { before.board with store := after.board.store, widgets := after.board.widgets }
  page : after.page = before.page
  declared : after.board.widgets.map Widget.declared = before.board.widgets.map Widget.declared

theorem Keeps.refl (e : Engine) : Keeps e e :=
  ⟨rfl, rfl, rfl, rfl⟩

theorem Keeps.trans {first second third : Engine} (earlier : Keeps first second)
    (later : Keeps second third) : Keeps first third where
  shared := by rw [later.shared, earlier.shared]
  board := by rw [later.board, earlier.board]
  page := later.page.trans earlier.page
  declared := later.declared.trans earlier.declared

theorem Effect.keeps {e after : Engine} (effect : Effect False e after) : Keeps e after := by
  cases effect with
  | log | report | write | unsubscribe => exact ⟨rfl, rfl, rfl, rfl⟩
  | draw | display => exact ⟨rfl, rfl, rfl, map_modify_of_same _ _ _ fun _ => rfl⟩
  -- The rest happens only where a trigger is fired.
  | count allowed | bind allowed | number allowed | schedule allowed => exact allowed.elim

theorem Effects.keeps {e after : Engine} (effects : Effects False e after) : Keeps e after := by
  induction effects with
  | refl => exact .refl e
  | tail _ effect ih => exact ih.trans effect.keeps

/-- A quiet run changes the store, what widgets show, the log and the reports only. -/
theorem run_keeps {p : Program} (quiet : p.Quiet) {e : Engine}
    (store : e.board.store.Within False) : Keeps e (p.run e).2 :=
  (run_chains False p e quiet store).keeps

end Engine
end Patchbay
