import Patchbay.Proofs.Engine.Bookkeeping
import Patchbay.Proofs.Widget.Handling

/-!
# Refreshes that are left to themselves

A run can be made with the writes listed that the program makes itself (`Program.trace`), and so a
history lists what each task writes. Where targets are not occupied, nothing but a cancellation
keeps a task from going on; so a refresh of a chart that has ended has written its chart once:
`Engine.tasks_tracked`.
-/

namespace Patchbay

/-- Runs a program and lists what it writes itself, as entries. What is written by observers and
handlers that it sets off is left out. -/
def Program.trace (nested : Runner) :
    Program → Engine → List (String × Value) × Stop × Engine
  | .done result, e => ([], .done result, e)
  | .fail fault, e => ([], .failed fault, e)
  | .defer coroutine body, e => ([], .deferred coroutine body, e)
  | .pause next, e => ([], .paused next, e)
  | .report what next, e => next.trace nested (e.report what)
  | .log level event fields next, e => next.trace nested (e.log level event fields)
  | .askVars next, e => (next e.shared.vars).trace nested e
  | .read id next, e => (next (e.board.store.get id)).trace nested e
  | .write id value next, e =>
    let (writes, out) := next.trace nested (e.writeWith nested id value)
    ((id, value) :: writes, out)
  | .writeProperty id name value next, e =>
    let (writes, out) := next.trace nested (e.writePropertyWith nested id name value)
    ((id, (e.board.store.get id).withProperty name value) :: writes, out)
  | .unsubscribe handle next, e =>
    match Entries.get? handle e.board.handles with
    | none => ([], .failed (.missing handle), e)
    | some s => next.trace nested (e.withStore (e.board.store.unsubscribe s))
  | .draw chart next, e =>
    let count := (e.board.widgets[chart]?.map Widget.drawn).getD 0
    (next (e.shared.random chart count)).trace nested
      (e.updateWidget chart fun w => { w with drawn := w.drawn + 1 })
  | .dispatch trigger context next, e =>
    next.trace nested (e.dispatchWith nested trigger context)

/-- Listing what is written does not change the run. -/
theorem Program.trace_run (nested : Runner) (p : Program) (e : Engine) :
    (p.trace nested e).2 = p.runWith nested e := by
  induction p generalizing e with
  | done | fail | defer | pause => rfl
  | report what next ih => exact ih _
  | log level event fields next ih => exact ih _
  | askVars next ih => exact ih _ _
  | read id next ih => exact ih _ _
  | write id value next ih => exact ih _
  | writeProperty id name value next ih => exact ih _
  | unsubscribe handle next ih =>
    simp only [trace, runWith]
    cases Entries.get? handle e.board.handles with
    | none => rfl
    | some s => exact ih _
  | draw chart next ih => exact ih _ _
  | dispatch trigger context next ih => exact ih _

/-- How far a task has come, and what is left of it. -/
def Task.stage (task : Task) : Progress × Program :=
  (task.progress, task.body)

namespace Engine

/-! ## What a history says about its tasks -/

/-- A run of the body of a task, with what the body itself writes listed. -/
def traceBody (e : Engine) (task : Task) : List (String × Value) × Stop × Engine :=
  task.body.trace (Program.runAt (nestingLimit - 1)) (e.withVars task.vars)

theorem traceBody_run (e : Engine) (task : Task) :
    (e.traceBody task).2 = task.body.run (e.withVars task.vars) :=
  Program.trace_run _ _ _

/-- What a task writes in its next step. -/
def stepWrites (e : Engine) (ref : Nat) : List (String × Value) :=
  match e.board.tasks[ref]? with
  | none => []
  | some task =>
    match task.progress with
    | .pending => (e.traceBody task).1
    | _ => []

/-- What is listed of a step is what it does to the store: the step of a task that may go on leaves
the store as the listed run of its body does, and any other step writes nothing. -/
structure Listed (e : Engine) (ref : Nat) : Prop where
  runs : ∀ task, e.board.tasks[ref]? = some task → task.progress = .pending →
    e.stepWrites ref = (e.traceBody task).1 ∧
      (e.stepTask ref).board.store = (e.traceBody task).2.2.board.store
  rests : (∀ task, e.board.tasks[ref]? = some task → task.progress ≠ .pending) →
    e.stepWrites ref = [] ∧ (e.stepTask ref).board.store = e.board.store

theorem listed (e : Engine) (ref : Nat) : e.Listed ref := by
  constructor
  · intro task found pending
    refine ⟨by simp only [stepWrites, found, pending], ?_⟩
    simp only [stepTask, found, pending, ← traceBody_run]
    cases (e.traceBody task).2 with
    | mk stop after => cases stop <;> rfl
  · intro stopped
    cases found : e.board.tasks[ref]? with
    | none => simp only [stepWrites, stepTask, found, and_self]
    | some task =>
      have still := stopped task found
      refine ⟨?_, stepTask_store found still⟩
      simp only [stepWrites, found]

def actWrites (e : Engine) (ref : Nat) : Act → List (String × Value)
  | .step place => if place = ref then e.stepWrites ref else []
  | _ => []

/-- What a task writes in the course of a history, in order. -/
def writes (ref : Nat) (e : Engine) : List Act → List (String × Value)
  | [] => []
  | a :: rest => e.actWrites ref a ++ (e.act a).writes ref rest

/-- The bodies that tasks are scheduled with in the course of a history, in order. -/
def bodies (e : Engine) : List Act → List Program
  | [] => []
  | a :: rest =>
    ((e.act a).board.tasks.drop e.board.tasks.length).map Task.body ++ (e.act a).bodies rest

/-! ## Tasks that nobody cancels -/

/-- Without serialization, programs add tasks and leave the others as they are. -/
theorem Effect.appended {fires : Prop} {e after : Engine} (effect : Effect fires e after)
    (off : e.board.serialize = false) : ∃ new, after.board.tasks = e.board.tasks ++ new ∧
      ∀ task ∈ new, task.progress = .pending := by
  have same (tasks : after.board.tasks = e.board.tasks) :
      ∃ new, after.board.tasks = e.board.tasks ++ new ∧ ∀ task ∈ new, task.progress = .pending :=
    ⟨[], by rw [tasks, List.append_nil], List.forall_mem_nil _⟩
  cases effect with
  | log | report | write | unsubscribe | draw | display | count | bind | number => exact same rfl
  | schedule _ e body action id =>
    unfold Engine.schedule Engine.occupy
    split
    · exact ⟨[], (List.append_nil _).symm, List.forall_mem_nil _⟩
    · have added : (e.addTask (e.taskOf body action id)).board.serialize = false := off
      rw [added]
      refine ⟨[e.taskOf body action id], rfl, fun task member => ?_⟩
      rw [List.mem_singleton.mp member]
      rfl

theorem Effects.appended {fires : Prop} {e after : Engine} (effects : Effects fires e after)
    (off : e.board.serialize = false) : ∃ new, after.board.tasks = e.board.tasks ++ new ∧
      ∀ task ∈ new, task.progress = .pending := by
  induction effects with
  | refl => exact ⟨[], (List.append_nil _).symm, List.forall_mem_nil _⟩
  | tail earlier effect ih =>
    obtain ⟨first, tasks, pending⟩ := ih
    obtain ⟨second, tasks', pending'⟩ :=
      effect.appended ((Effects.steady earlier).serialize.trans off)
    refine ⟨first ++ second, by rw [tasks', tasks, List.append_assoc], ?_⟩
    exact List.forall_mem_append.mpr ⟨pending, pending'⟩

/-- What an act makes of the tasks, if it is no cancellation: new ones are added, and the others
come no further, but for the one that is stepped. -/
structure Adds (e after : Engine) (a : Act) (new : List Task) : Prop where
  pending : ∀ task ∈ new, task.progress = .pending
  length : after.board.tasks.length = e.board.tasks.length + new.length
  stage : ∀ place, (∀ ref, a = .step ref → place ≠ ref) →
    (after.board.tasks[place]?).map Task.stage = ((e.board.tasks ++ new)[place]?).map Task.stage

theorem Adds.of_same {e after : Engine} (a : Act) (tasks : after.board.tasks = e.board.tasks) :
    Adds e after a [] where
  pending := List.forall_mem_nil _
  length := by rw [tasks]; rfl
  stage place _ := by rw [tasks, List.append_nil]

theorem Effects.adds {e after : Engine} (effects : Effects True e after) (a : Act)
    (off : e.board.serialize = false) : ∃ new, Adds e after a new := by
  obtain ⟨new, tasks, pending⟩ := effects.appended off
  exact ⟨new, pending, by rw [tasks, List.length_append], fun place _ => by rw [tasks]⟩

/-- A change of the task that is stepped makes no difference to the others. -/
theorem Adds.updateTask {e after : Engine} {ref : Nat} {new : List Task}
    (adds : Adds e after (.step ref) new) (f : Task → Task) :
    Adds e (after.updateTask ref f) (.step ref) new where
  pending := adds.pending
  length := by
    rw [← adds.length]
    exact List.length_modify ..
  stage place other := by
    rw [← adds.stage place other, updateTask_tasks]
    have elsewhere : changeAt ref f place = id := by
      funext task
      exact if_neg (Ne.symm (other ref rfl))
    rw [elsewhere, Option.map_id, id]

theorem Adds.leaves {e between after : Engine} {a : Act} {new : List Task}
    (adds : Adds e between a new) (tasks : after.board.tasks = between.board.tasks) :
    Adds e after a new where
  pending := adds.pending
  length := by rw [tasks, adds.length]
  stage place other := by rw [tasks, adds.stage place other]

theorem stepTask_adds (e : Engine) (ref : Nat) (off : e.board.serialize = false) :
    ∃ new, Adds e (e.stepTask ref) (.step ref) new := by
  unfold stepTask
  cases e.board.tasks[ref]? with
  | none => exact ⟨[], .of_same _ rfl⟩
  | some task =>
    dsimp only
    cases task.progress with
    | completed | failed | cancelled => exact ⟨[], .of_same _ rfl⟩
    | cancelling => exact ⟨[], ((Adds.of_same (.step ref) rfl).updateTask _).leaves rfl⟩
    | pending =>
      obtain ⟨new, adds⟩ := (run_effects task.body (e.withVars task.vars)).adds (.step ref) off
      dsimp only
      cases out : task.body.run (e.withVars task.vars) with
      | mk stop after =>
        rw [out] at adds
        have ran : Adds e after (.step ref) new := ⟨adds.pending, adds.length, adds.stage⟩
        have bound := ran.updateTask fun task => { task with vars := after.shared.vars }
        have kept : Adds e ((after.updateTask ref fun task =>
            { task with vars := after.shared.vars }).withVars e.shared.vars) (.step ref) new :=
          bound.leaves rfl
        refine ⟨new, ?_⟩
        cases stop with
        | done | failed | deferred | paused => exact (kept.updateTask _).leaves rfl

theorem act_adds (e : Engine) {a : Act} (allowed : e.Allows a) (off : e.board.serialize = false)
    (uncancelled : ∀ ref, a ≠ .cancel ref) : ∃ new, Adds e (e.act a) a new := by
  cases a with
  | run p => exact (run_effects p e).adds _ off
  | dispatch rules trigger context =>
    obtain ⟨new, adds⟩ := (dispatch_effects trigger context
      { e with page.rules := rules }).adds (.dispatch rules trigger context) off
    exact ⟨new, adds.pending, adds.length, adds.stage⟩
  | gesture w g => exact (performOn_effects w g e).adds _ off
  | step ref => exact stepTask_adds e ref off
  | cancel ref => exact absurd rfl (uncancelled ref)
  | settle ref =>
    obtain ⟨task, found, -⟩ := allowed
    have tasks : (e.act (.settle ref)).board.tasks = (e.updateTask ref noted).board.tasks :=
      settleTask_tasks found
    refine ⟨[], List.forall_mem_nil _, ?_, fun place _ => ?_⟩
    · rw [tasks]
      exact List.length_modify ..
    · -- a task comes no further when its end is taken note of
      rw [tasks, updateTask_tasks, List.append_nil, Option.map_map]
      congr 1
      funext task
      rw [Function.comp_apply, changeAt]
      split <;> rfl
  | host change => exact ⟨[], .of_same _ allowed.tasks⟩

theorem act_serialize (e : Engine) {a : Act} (allowed : e.Allows a) :
    (e.act a).board.serialize = e.board.serialize := by
  cases a with
  | run p => exact (run_effects p e).steady.serialize
  | dispatch rules trigger context =>
    exact (dispatch_effects trigger context
      { e with page.rules := rules }).steady.serialize
  | gesture w g => exact (performOn_effects w g e).steady.serialize
  | step ref => exact (stepTask_steady e ref).serialize
  | cancel ref =>
    rw [act, cancelTask]
    split <;> rfl
  | settle ref =>
    obtain ⟨task, found, -⟩ := allowed
    rw [act, settleTask_board found]
    rfl
  | host change => exact allowed.serialize

/-- How far a refresh of a chart has come, and what it has written so far. -/
inductive Refreshing (w : Widget) (chart : Nat) (args : Value) :
    Progress × Program → List (String × Value) → Prop
  | waiting : Refreshing w chart args (.pending, w.refresh chart args) []
  | begun : Refreshing w chart args (.pending, renewal chart w) []
  | finished (body : Program) (a b c : Binary64) : Refreshing w chart args (.completed, body)
    [(w.id, .list [Widget.dataPoint "A" a, Widget.dataPoint "B" b, Widget.dataPoint "C" c])]

theorem renewal_trace (nested : Runner) (chart : Nat) (w : Widget) (e : Engine) :
    ∃ a b c result after, (renewal chart w).trace nested e =
      ([(w.id, .list [Widget.dataPoint "A" a, Widget.dataPoint "B" b, Widget.dataPoint "C" c])],
        .done result, after) :=
  ⟨_, _, _, _, _, rfl⟩

theorem updateTask_found {e : Engine} {ref : Nat} {task : Task} (f : Task → Task)
    (found : e.board.tasks[ref]? = some task) :
    (e.updateTask ref f).board.tasks[ref]? = some (f task) := by
  rw [updateTask_tasks, found, Option.map_some, changeAt, if_pos rfl]

section

variable {e after : Engine} {ref : Nat} {task now : Task}
  (found : e.board.tasks[ref]? = some task) (pending : task.progress = .pending)
include found pending

theorem stepTask_paused {rest : Program} (ran : task.body.run (e.withVars task.vars) =
    (.paused rest, after)) (there : after.board.tasks[ref]? = some now) :
    (e.stepTask ref).board.tasks[ref]? =
      some { now with vars := after.shared.vars, body := rest } := by
  simp only [stepTask, found, pending, ran]
  exact updateTask_found _ (updateTask_found _ there)

theorem stepTask_done {result : Value} (ran : task.body.run (e.withVars task.vars) =
    (.done result, after)) (there : after.board.tasks[ref]? = some now) :
    (e.stepTask ref).board.tasks[ref]? =
      some { now with vars := after.shared.vars, progress := .completed } := by
  simp only [stepTask, found, pending, ran]
  exact updateTask_found _ (updateTask_found _ there)

end

section

variable {w : Widget} {chart : Nat} {args : Value} {e : Engine} {ref : Nat} {task : Task}
  {written : List (String × Value)} (found : e.board.tasks[ref]? = some task)
  (refreshing : Refreshing w chart args task.stage written)
include found refreshing

/-- A refresh takes two steps, and writes in the second one. -/
theorem Refreshing.step (off : e.board.serialize = false) :
    ∃ now, (e.stepTask ref).board.tasks[ref]? = some now ∧
      Refreshing w chart args now.stage (written ++ e.stepWrites ref) := by
  generalize stage : task.stage = reached at refreshing
  cases refreshing with
  | waiting =>
    obtain ⟨pending, body⟩ := Prod.mk.inj stage
    have ran : task.body.run (e.withVars task.vars) = (.paused (renewal chart w),
        (e.withVars task.vars).log .debug "chart_refresh_started"
          [("widget_id", .text w.id), ("args", args)]) := by
      rw [body]
      rfl
    have nothing : e.stepWrites ref = [] := by
      rw [((e.listed ref).runs task found pending).1, traceBody, body]
      rfl
    refine ⟨_, stepTask_paused found pending ran found, ?_⟩
    rw [nothing, Task.stage, pending]
    exact .begun
  | begun =>
    obtain ⟨pending, body⟩ := Prod.mk.inj stage
    obtain ⟨a, b, c, result, after, traced⟩ := renewal_trace
      (Program.runAt (nestingLimit - 1)) chart w (e.withVars task.vars)
    rw [← body] at traced
    have ran : task.body.run (e.withVars task.vars) = (.done result, after) := by
      rw [← traceBody_run, traceBody, traced]
    -- the body leaves its own task as it is
    have effects := run_effects task.body (e.withVars task.vars)
    rw [ran] at effects
    obtain ⟨new, tasks, -⟩ := effects.appended off
    have there : after.board.tasks[ref]? = some task := by
      rw [tasks]
      exact (List.getElem?_append_left (List.getElem?_eq_some_iff.mp found).1).trans found
    have wrote : e.stepWrites ref = [(w.id, .list [Widget.dataPoint "A" a,
        Widget.dataPoint "B" b, Widget.dataPoint "C" c])] := by
      rw [((e.listed ref).runs task found pending).1, traceBody, traced]
    refine ⟨_, stepTask_done found pending ran there, ?_⟩
    rw [wrote]
    exact .finished _ a b c
  | finished body a b c =>
    obtain ⟨completed, -⟩ := Prod.mk.inj stage
    have same : e.stepTask ref = e := by simp only [stepTask, found, completed]
    have nothing : e.stepWrites ref = [] := by simp only [stepWrites, found, completed]
    refine ⟨task, by rw [same, found], ?_⟩
    rw [nothing, stage]
    exact .finished body a b c

theorem Refreshing.act {a : Act} (allowed : e.Allows a) (off : e.board.serialize = false)
    (uncancelled : ∀ ref, a ≠ .cancel ref) :
    ∃ now, (e.act a).board.tasks[ref]? = some now ∧
      Refreshing w chart args now.stage (written ++ e.actWrites ref a) := by
  by_cases own : a = .step ref
  · subst own
    rw [actWrites, if_pos rfl]
    exact refreshing.step found off
  · obtain ⟨new, adds⟩ := act_adds e allowed off uncancelled
    have other (place : Nat) (stepped : a = .step place) : ref ≠ place := by
      rintro rfl
      exact own stepped
    have same := adds.stage ref other
    rw [List.getElem?_append_left (List.getElem?_eq_some_iff.mp found).1, found, Option.map_some,
      Option.map_eq_some_iff] at same
    obtain ⟨now, there, stage⟩ := same
    have nothing : e.actWrites ref a = [] := by
      cases a with
      | step place => exact if_neg (other place rfl).symm
      | run | dispatch | gesture | cancel | settle | host => rfl
    rw [nothing, List.append_nil]
    exact ⟨now, there, stage ▸ refreshing⟩

end

/-- A refresh that has been scheduled goes its way, whatever else happens. -/
theorem Refreshing.after {w : Widget} {chart : Nat} {args : Value} {e : Engine}
    {history : List Act} (legal : e.Legal history) (off : e.board.serialize = false)
    (uncancelled : ∀ ref, Act.cancel ref ∉ history) {ref : Nat} {task : Task}
    {written : List (String × Value)} (found : e.board.tasks[ref]? = some task)
    (refreshing : Refreshing w chart args task.stage written) :
    ∃ now, (e.after history).board.tasks[ref]? = some now ∧
      Refreshing w chart args now.stage (written ++ e.writes ref history) := by
  induction history generalizing e task written with
  | nil => exact ⟨task, found, by rwa [writes, List.append_nil]⟩
  | cons a rest ih =>
    have first (ref : Nat) : a ≠ .cancel ref := fun same =>
      uncancelled ref (same ▸ List.mem_cons_self)
    obtain ⟨now, there, onward⟩ := refreshing.act found legal.1 off first
    rw [writes, ← List.append_assoc]
    exact ih legal.2 ((act_serialize e legal.1).trans off)
      (fun ref member => uncancelled ref (List.mem_cons_of_mem a member)) there onward

/-- A task does nothing before it is scheduled. -/
theorem actWrites_of_beyond {e : Engine} {ref : Nat} (beyond : e.board.tasks.length ≤ ref)
    (a : Act) : e.actWrites ref a = [] := by
  cases a with
  | step place =>
    rw [actWrites]
    split
    · rw [stepWrites, List.getElem?_eq_none beyond]
    · rfl
  | run | dispatch | gesture | cancel | settle | host => rfl

theorem refreshing_of_bodies {w : Widget} {chart : Nat} {args : Value} {e : Engine}
    {history : List Act} (legal : e.Legal history) (off : e.board.serialize = false)
    (uncancelled : ∀ ref, Act.cancel ref ∉ history) {place : Nat}
    (scheduled : (e.bodies history)[place]? = some (w.refresh chart args)) :
    ∃ now, (e.after history).board.tasks[e.board.tasks.length + place]? = some now ∧
      Refreshing w chart args now.stage (e.writes (e.board.tasks.length + place) history) := by
  induction history generalizing e place with
  | nil => simp [bodies] at scheduled
  | cons a rest ih =>
    have first (ref : Nat) : a ≠ .cancel ref := fun same =>
      uncancelled ref (same ▸ List.mem_cons_self)
    have others (ref : Nat) : Act.cancel ref ∉ rest := fun member =>
      uncancelled ref (List.mem_cons_of_mem a member)
    have off' := (act_serialize e legal.1).trans off
    obtain ⟨new, adds⟩ := act_adds e legal.1 off first
    have length := adds.length
    rw [writes, actWrites_of_beyond (Nat.le_add_right _ place), List.nil_append]
    rw [bodies, List.getElem?_append, List.length_map, List.length_drop] at scheduled
    split at scheduled
    · -- it is one of the tasks that this act has scheduled
      rw [List.getElem?_map, List.getElem?_drop, Option.map_eq_some_iff] at scheduled
      obtain ⟨task, found, body⟩ := scheduled
      have unborn : e.board.tasks[e.board.tasks.length + place]? = none :=
        List.getElem?_eq_none (Nat.le_add_right _ _)
      have unstepped (ref : Nat) (stepped : a = .step ref) :
          e.board.tasks.length + place ≠ ref := by
        rintro rfl
        have same : e.act a = e := by simp only [stepped, act, stepTask, unborn]
        rw [same, unborn] at found
        cases found
      have stage := adds.stage (e.board.tasks.length + place) unstepped
      rw [found, Option.map_some, List.getElem?_append_right (Nat.le_add_right _ _)] at stage
      obtain ⟨fresh, added, same⟩ := Option.map_eq_some_iff.mp stage.symm
      have waiting : task.stage = (.pending, w.refresh chart args) := by
        have pending := adds.pending fresh (List.mem_of_getElem? added)
        rw [← same, Task.stage, pending, ← body]
        exact congrArg (Progress.pending, ·) (congrArg Prod.snd same)
      have started : Refreshing w chart args task.stage [] := waiting ▸ .waiting
      exact started.after legal.2 off' others found
    next beyond =>
      have later := ih legal.2 off' others scheduled
      have place' : (e.act a).board.tasks.length +
          (place - ((e.act a).board.tasks.length - e.board.tasks.length)) =
            e.board.tasks.length + place := by omega
      rwa [place'] at later

theorem length_bodies {e : Engine} {history : List Act} (legal : e.Legal history)
    (off : e.board.serialize = false) (uncancelled : ∀ ref, Act.cancel ref ∉ history) :
    (e.after history).board.tasks.length = e.board.tasks.length + (e.bodies history).length := by
  induction history generalizing e with
  | nil => rfl
  | cons a rest ih =>
    obtain ⟨new, adds⟩ := act_adds e legal.1 off fun ref same =>
      uncancelled ref (same ▸ List.mem_cons_self)
    have length := adds.length
    have later := ih legal.2 ((act_serialize e legal.1).trans off)
      fun ref member => uncancelled ref (List.mem_cons_of_mem a member)
    have split : (e.after (a :: rest)) = (e.act a).after rest := rfl
    rw [split, later, bodies, List.length_append, List.length_map, List.length_drop]
    omega

/-! ## What is known about tasks at any time -/

/-- What the engine knows about its tasks, next to what has become of them in a history since
`start`. -/
structure Tracked (start : Engine) (history : List Act) (e : Engine) : Prop where
  /-- The tasks given as pending are those that have not ended. -/
  pending : ∀ ref, ref ∈ e.pendingTasks ↔
    ∃ task, e.board.tasks[ref]? = some task ∧ task.progress.isDone = false
  /-- The tasks in the list are those whose end has not been taken note of, each once. -/
  unsettled : ∀ ref, ref ∈ e.board.unsettled ↔
    ref < e.board.tasks.length ∧ Act.settle ref ∉ history
  distinct : e.board.unsettled.Nodup
  /-- Each action counted as scheduled is a task with one fate. -/
  scheduled : e.shared.counters.scheduled = start.shared.counters.scheduled +
    (e.tally .unfinished + e.tally .completed + e.tally .failed + e.tally .cancelled)
  /-- The failures counted are the tasks that have failed and whose end has been taken note of. -/
  failures : e.shared.counters.asyncError = start.shared.counters.asyncError +
    (List.range e.board.tasks.length).countP fun ref =>
      decide (e.fate? ref = some .failed) && decide (ref ∈ endings history)
  /-- Whoever waits for all tasks is done only when all have ended, whenever it began to wait. -/
  waited : ∀ waiter : Waiter, waiter ≠ .finished → waiter.resume e = .finished →
    ∀ task ∈ e.board.tasks, task.progress.isDone = true
  /-- There is no need to wait only if all have ended. -/
  unwaited : e.gather = .finished → ∀ task ∈ e.board.tasks, task.progress.isDone = true

theorem Ledger.tracked {start e : Engine} {history : List Act}
    (ledger : Ledger start (endings history) e) (once : (endings history).Nodup) :
    Tracked start history e where
  pending := ledger.mem_pendingTasks_iff
  unsettled ref := by rw [ledger.unsettled, mem_endings_iff]
  distinct := ledger.distinct
  scheduled := by
    rw [ledger.scheduled, length_eq_count_fates]
    rfl
  failures := by rw [ledger.failures, countP_range once fun ref => ledger.bounded]
  waited waiter waiting finished := by
    cases waiter with
    | gathering gathered => exact (ledger.finished_iff gathered).mp finished
    | finished => exact absurd rfl waiting
  unwaited := ledger.gather_iff.mp

/-- **No task is lost or forgotten, in whatever order things happen**, as long as no end is taken
note of twice: the lists and counts that the engine keeps agree with what has become of the tasks,
so that a wait for all tasks ends only when all have ended. Then, if targets are not occupied and
nobody cancels a task, every refresh that has been scheduled has written three points to its chart,
and nothing else. -/
theorem tasks_tracked {start : Engine} (unused : start.Unused) {history : List Act}
    (legal : start.Legal history) (once : (endings history).Nodup) :
    Tracked start history (start.after history) ∧
      (start.board.serialize = false → (∀ ref, Act.cancel ref ∉ history) →
        (start.bodies history).length = (start.after history).board.tasks.length ∧
        (∀ e ref, Listed e ref) ∧
        ((∀ task ∈ (start.after history).board.tasks, task.progress.isDone = true) →
          ∀ ref chart w args, (start.bodies history)[ref]? = some (Widget.refresh chart w args) →
            ∃ a b c, start.writes ref history = [(w.id, .list [Widget.dataPoint "A" a,
              Widget.dataPoint "B" b, Widget.dataPoint "C" c])])) := by
  refine ⟨(legal.ledger unused.ledger).tracked once, fun off uncancelled => ?_⟩
  have none : start.board.tasks.length = 0 := by rw [unused.tasks, List.length_nil]
  refine ⟨by rw [length_bodies legal off uncancelled, none, Nat.zero_add], listed, ?_⟩
  intro ended ref chart w args scheduled
  obtain ⟨now, there, refreshing⟩ := refreshing_of_bodies legal off uncancelled scheduled
  rw [none, Nat.zero_add] at there refreshing
  have done := ended now (List.mem_of_getElem? there)
  -- a refresh that is waiting or has begun has not ended
  generalize stage : now.stage = reached at refreshing
  generalize start.writes ref history = written at refreshing ⊢
  cases refreshing with
  | finished body a b c => exact ⟨a, b, c, rfl⟩
  | waiting =>
    rw [(Prod.mk.inj stage).1] at done
    cases done
  | begun =>
    rw [(Prod.mk.inj stage).1] at done
    cases done

/-- A chart that is also asked to leave a task that fires a trigger, and one that fails. -/
def restless : Engine where
  shared := { loop := true, random := fun _ _ => default }
  board := {
    widgets := [{ id := "c", type := .chart, props := [] }]
    registry := ⟨[
      (("c", "setValue"), ⟨"c", "setValue", ⟨true, fun args =>
        .defer true (Widget.refresh 0 { id := "c", type := .chart, props := [] } args)⟩⟩),
      (("c", "again"), ⟨"c", "again", ⟨true, fun _ =>
        .defer true (.dispatch "more" .null (.done .null))⟩⟩),
      (("c", "fail"), ⟨"c", "fail", ⟨true, fun _ => .defer true (.fail (.missing "b"))⟩⟩)]⟩
    serialize := false }
  page := { rules := [] }

/-- The second refresh is scheduled by a task, and the failure is taken note of before the
refreshes have written. -/
def unrest : List Act :=
  [.dispatch [⟨"go", [⟨"setValue", "c", []⟩, ⟨"again", "c", []⟩]⟩,
      ⟨"more", [⟨"setValue", "c", []⟩, ⟨"fail", "c", []⟩]⟩] "go" .null,
    .step 1, .step 0, .step 3, .settle 3, .step 2, .step 0, .step 2]

theorem tasks_tracked_restless : restless.Unused ∧ restless.Legal unrest ∧
    (endings unrest).Nodup ∧ Tracked restless unrest (restless.after unrest) ∧
    3 ∉ (restless.after unrest).board.unsettled ∧
    (restless.after unrest).shared.counters.asyncError = 1 ∧
    ∃ a b c, restless.writes 2 unrest = [("c", .list [Widget.dataPoint "A" a,
      Widget.dataPoint "B" b, Widget.dataPoint "C" c])] := by
  have unused : restless.Unused := ⟨⟨rfl, rfl⟩, rfl⟩
  have legal : restless.Legal unrest :=
    ⟨trivial, trivial, trivial, trivial, ⟨_, rfl, rfl⟩, trivial, trivial, trivial, trivial⟩
  have once : (endings unrest).Nodup := by decide
  obtain ⟨tracked, refreshed⟩ := tasks_tracked unused legal once
  have uncancelled (ref : Nat) : Act.cancel ref ∉ unrest := by simp [unrest]
  have ended : ∀ task ∈ (restless.after unrest).board.tasks, task.progress.isDone = true := by
    decide +kernel
  have struck : 3 ∉ (restless.after unrest).board.unsettled := by
    rw [tracked.unsettled]
    exact fun open_ => open_.2 (by simp [unrest])
  refine ⟨unused, legal, once, tracked, struck, by decide +kernel, ?_⟩
  exact (refreshed rfl uncancelled).2.2 ended 2 0 _ _ rfl

end Engine
end Patchbay
