import Patchbay.Proofs.Engine.Reachable

/-!
# What the engine keeps about its tasks

A task is entered in the list of unsettled tasks when it is scheduled and struck out when its end is
taken note of, which may be long after it has ended. Whatever comes in between, the list and the
counters agree with what has become of the tasks and with which ends have been taken note of:
`Engine.Ledger`, an invariant of every history (`Engine.Legal.ledger`). So whoever waits for the
tasks that have not ended, and looks again whenever these have ended, is done only when no task is
left (`Engine.Ledger.finished_iff`).
-/

namespace Patchbay

open Relation (ReflTransGen)

/-- What has become of a task. -/
inductive Fate where
  | unfinished
  | completed
  | failed
  | cancelled
  deriving DecidableEq, Repr

def Task.fate (task : Task) : Fate :=
  match task.progress with
  | .pending => .unfinished
  | .cancelling => .unfinished
  | .completed => .completed
  | .failed _ => .failed
  | .cancelled => .cancelled

/-- Each task has one fate. -/
theorem length_eq_count_fates (tasks : List Task) :
    tasks.length = (tasks.map Task.fate).count .unfinished +
      (tasks.map Task.fate).count .completed +
      (tasks.map Task.fate).count .failed + (tasks.map Task.fate).count .cancelled := by
  induction tasks with
  | nil => rfl
  | cons task rest ih =>
    simp only [List.length_cons, List.map_cons, List.count_cons, ih]
    cases task.fate <;> simp <;> omega

/-- Numbers below a bound that are in a list without duplicates are counted in either of them. -/
theorem countP_range {numbers : List Nat} {bound : Nat} (distinct : numbers.Nodup)
    (below : ∀ n ∈ numbers, n < bound) (p : Nat → Bool) :
    (List.range bound).countP (fun n => p n && decide (n ∈ numbers)) = numbers.countP p := by
  have same : ((List.range bound).filter fun n => decide (n ∈ numbers)).Perm numbers := by
    refine (List.perm_ext_iff_of_nodup (List.nodup_range.filter _) distinct).mpr fun n => ?_
    simp only [List.mem_filter, List.mem_range, decide_eq_true_eq, and_iff_right_iff_imp]
    exact below n
  rw [← List.countP_filter, same.countP_eq]

namespace Engine

/-- The tasks with a certain fate. -/
def tally (e : Engine) (fate : Fate) : Nat :=
  (e.board.tasks.map Task.fate).count fate

/-- What has become of the task at a place. -/
def fate? (e : Engine) (ref : Nat) : Option Fate :=
  (e.board.tasks[ref]?).map Task.fate

/-- The lists and counts that the engine keeps about tasks since `start`, when there were none.
`ends` lists the tasks whose end has been taken note of since then. -/
structure Ledger (start : Engine) (ends : List Nat) (e : Engine) : Prop where
  unsettled : ∀ ref, ref ∈ e.board.unsettled ↔ ref < e.board.tasks.length ∧ ref ∉ ends
  distinct : e.board.unsettled.Nodup
  ended : ∀ ref ∈ ends, ∃ task, e.board.tasks[ref]? = some task ∧ task.progress.isDone = true
  scheduled : e.shared.counters.scheduled = start.shared.counters.scheduled + e.board.tasks.length
  failures : e.shared.counters.asyncError =
    start.shared.counters.asyncError + ends.countP fun ref => e.fate? ref = some .failed

/-- Nothing about tasks has changed. -/
structure LeavesTasks (e after : Engine) : Prop where
  tasks : after.board.tasks = e.board.tasks
  unsettled : after.board.unsettled = e.board.unsettled
  serialize : after.board.serialize = e.board.serialize
  counts : SameTaskCounts e.shared.counters after.shared.counters

/-- It makes no difference when a task is counted that supersedes another. -/
theorem occupy_record_scheduled (e : Engine) (target : String) (ref : Nat) :
    (e.occupy target ref).record .scheduled = (e.record .scheduled).occupy target ref := by
  have board : (e.record .scheduled).board = e.board := rfl
  unfold occupy supersede
  rw [board]
  cases e.board.serialize with
  | false => rfl
  | true =>
    cases Entries.get? target e.board.inFlight with
    | none => rfl
    | some previous =>
      cases found : e.board.tasks[previous]? with
      | none => simp [found]; rfl
      | some task => cases done : task.progress.isDone <;> simp [found, done] <;> rfl

/-- A failure is counted when it is taken note of. -/
theorem settleTask_counters {e : Engine} {ref : Nat} {task : Task}
    (found : e.board.tasks[ref]? = some task) : (e.settleTask ref).shared.counters =
      if task.fate = .failed then e.shared.counters.record .asyncError
      else e.shared.counters := by
  simp only [settleTask, found]
  cases ended : task.progress <;>
    by_cases flying : Entries.get? task.target e.board.inFlight = some ref <;>
    simp [Task.fate, ended, flying, updateTask, Engine.log, withVars, record]

/-- Taking note of an end makes no difference to what has become of any task. -/
theorem settleTask_fate? {e : Engine} {ref : Nat} {task : Task}
    (found : e.board.tasks[ref]? = some task) (place : Nat) :
    (e.settleTask ref).fate? place = e.fate? place := by
  rw [fate?, settleTask_tasks found, updateTask_tasks, Option.map_map, fate?]
  congr 1
  funext old
  rw [Function.comp_apply, Task.fate, Task.fate, changeAt_noted_progress]

/-- An engine in which no task has been scheduled, and none is waited for. -/
structure Unused (e : Engine) : Prop extends Idle e where
  unsettled : e.board.unsettled = []

theorem Unused.ledger {start : Engine} (unused : start.Unused) : Ledger start [] start where
  unsettled ref := by simp [unused.unsettled, unused.tasks]
  distinct := by simp [unused.unsettled]
  ended := List.forall_mem_nil _
  scheduled := by simp [unused.tasks]
  failures := rfl

section

variable {start e : Engine} {ends : List Nat} (ledger : Ledger start ends e)
include ledger

theorem Ledger.leaves {after : Engine} (leaves : LeavesTasks e after) : Ledger start ends after := by
  obtain ⟨scheduled, failures⟩ := leaves.counts
  constructor
  · rw [leaves.tasks, leaves.unsettled]
    exact ledger.unsettled
  · rw [leaves.unsettled]
    exact ledger.distinct
  · rw [leaves.tasks]
    exact ledger.ended
  · rw [leaves.tasks, scheduled]
    exact ledger.scheduled
  · unfold fate?
    rw [leaves.tasks, failures]
    exact ledger.failures

theorem Ledger.bounded {ref : Nat} (member : ref ∈ ends) : ref < e.board.tasks.length := by
  obtain ⟨task, found, -⟩ := ledger.ended ref member
  exact (List.getElem?_eq_some_iff.mp found).1

/-- No end is taken note of before it is there. -/
theorem Ledger.not_mem_of_running {ref : Nat} {task : Task}
    (found : e.board.tasks[ref]? = some task) (running : task.progress.isDone = false) :
    ref ∉ ends := by
  intro member
  obtain ⟨same, found', done⟩ := ledger.ended ref member
  cases found.symm.trans found'
  rw [done] at running
  cases running

/-- The tasks that have not ended are among those whose end has not been taken note of. -/
theorem Ledger.mem_pendingTasks_iff (ref : Nat) : ref ∈ e.pendingTasks ↔
    ∃ task, e.board.tasks[ref]? = some task ∧ task.progress.isDone = false := by
  simp only [pendingTasks, List.mem_filter, ledger.unsettled, isDone, Bool.not_eq_true']
  constructor
  · rintro ⟨⟨inside, -⟩, running⟩
    rw [List.getElem?_eq_getElem inside] at running ⊢
    exact ⟨_, rfl, running⟩
  · rintro ⟨task, found, running⟩
    exact ⟨⟨(List.getElem?_eq_some_iff.mp found).1, ledger.not_mem_of_running found running⟩,
      by rw [found]; exact running⟩

theorem Ledger.pendingTasks_eq_nil_iff :
    e.pendingTasks = [] ↔ ∀ task ∈ e.board.tasks, task.progress.isDone = true := by
  rw [List.eq_nil_iff_forall_not_mem]
  constructor
  · intro none task member
    obtain ⟨ref, found⟩ := List.mem_iff_getElem?.mp member
    cases running : task.progress.isDone with
    | true => rfl
    | false =>
      exact absurd ((ledger.mem_pendingTasks_iff ref).mpr ⟨task, found, running⟩) (none ref)
  · intro all ref member
    obtain ⟨task, found, running⟩ := (ledger.mem_pendingTasks_iff ref).mp member
    rw [all task (List.mem_of_getElem? found)] at running
    cases running

/-- Whoever starts to wait need not wait if all tasks have ended, and only then. -/
theorem Ledger.gather_iff : e.gather = .finished ↔
    ∀ task ∈ e.board.tasks, task.progress.isDone = true := by
  rw [← ledger.pendingTasks_eq_nil_iff, gather]
  cases e.pendingTasks <;> simp

/-- Whoever waits is done if all tasks have ended, and only then, whichever tasks have been
gathered before. -/
theorem Ledger.finished_iff (gathered : List Nat) :
    Waiter.resume e (.gathering gathered) = .finished ↔
    ∀ task ∈ e.board.tasks, task.progress.isDone = true := by
  rw [Waiter.resume]
  split
  · exact ledger.gather_iff
  next waiting =>
    -- a task that is waited for has not ended
    simp only [reduceCtorEq, false_iff]
    intro all
    apply waiting
    rw [List.all_eq_true]
    intro ref _
    rw [isDone, Option.all_eq_true]
    exact fun task found => all task (List.mem_of_getElem? found)

/-! ## What programs do -/

/-- What has been counted stands as long as the tasks whose end has been taken note of stay as they
are. -/
theorem Ledger.failures_eq {after : Engine}
    (same : ∀ ref ∈ ends, after.fate? ref = e.fate? ref) :
    e.shared.counters.asyncError = start.shared.counters.asyncError +
      ends.countP fun ref => after.fate? ref = some .failed := by
  rw [ledger.failures]
  congr 1
  exact List.countP_congr fun ref member => by rw [same ref member]

theorem Ledger.addTask (task : Task) :
    Ledger start ends ((e.addTask task).record .scheduled) := by
  have tasks : ((e.addTask task).record .scheduled).board.tasks = e.board.tasks ++ [task] := rfl
  have before {ref : Nat} (member : ref ∈ ends) :
      ((e.addTask task).record .scheduled).board.tasks[ref]? = e.board.tasks[ref]? := by
    rw [tasks, List.getElem?_append_left (ledger.bounded member)]
  constructor
  · intro ref
    have entered : ((e.addTask task).record .scheduled).board.unsettled =
        e.board.unsettled ++ [e.board.tasks.length] := rfl
    rw [entered, tasks, List.mem_append, List.mem_singleton, ledger.unsettled, List.length_append,
      List.length_singleton]
    constructor
    · rintro (⟨inside, open_⟩ | rfl)
      · exact ⟨Nat.lt_succ_of_lt inside, open_⟩
      · exact ⟨Nat.lt_succ_self _, fun member => Nat.lt_irrefl _ (ledger.bounded member)⟩
    · rintro ⟨inside, open_⟩
      rcases Nat.lt_succ_iff_lt_or_eq.mp inside with inside | new
      · exact .inl ⟨inside, open_⟩
      · exact .inr new
  · refine List.nodup_append.mpr ⟨ledger.distinct, by simp, fun ref member new other => ?_⟩
    rw [List.mem_singleton.mp other]
    exact Nat.ne_of_lt ((ledger.unsettled ref).mp member).1
  · intro ref member
    rw [before member]
    exact ledger.ended ref member
  · have counted : ((e.addTask task).record .scheduled).shared.counters.scheduled =
        e.shared.counters.scheduled + 1 := rfl
    rw [counted, tasks, ledger.scheduled, List.length_append, List.length_singleton]
    omega
  · exact ledger.failures_eq fun ref member => by rw [fate?, fate?, before member]

/-- A task may change as long as its end has not been taken note of, and may do so afterwards in
what has no part in how it has ended. -/
theorem Ledger.updateTask (ref : Nat) {f : Task → Task}
    (kept : ref ∈ ends → ∀ task, (f task).progress = task.progress) :
    Ledger start ends (e.updateTask ref f) := by
  have progress {place : Nat} (member : place ∈ ends) (task : Task) :
      (changeAt ref f place task).progress = task.progress := by
    unfold changeAt
    split
    next here => exact kept (here ▸ member) task
    · rfl
  have length : (e.updateTask ref f).board.tasks.length = e.board.tasks.length :=
    List.length_modify ..
  constructor
  · rw [length]
    exact ledger.unsettled
  · exact ledger.distinct
  · intro place member
    obtain ⟨task, found, done⟩ := ledger.ended place member
    refine ⟨changeAt ref f place task, ?_, ?_⟩
    · rw [updateTask_tasks, found, Option.map_some]
    · rw [progress member, done]
  · rw [length]
    exact ledger.scheduled
  · refine ledger.failures_eq fun place member => ?_
    rw [fate?, updateTask_tasks, Option.map_map, fate?]
    congr 1
    funext task
    rw [Function.comp_apply, Task.fate, Task.fate, progress member]

/-- Ending a task that has not ended, and requesting its end, is left to be noted. -/
theorem Ledger.changeProgress {ref : Nat} (progress : Progress) (open_ : ref ∉ ends) :
    Ledger start ends (e.updateTask ref fun task => { task with progress := progress }) :=
  ledger.updateTask ref fun member => absurd member open_

theorem Ledger.cancelTask (ref : Nat) : Ledger start ends (e.cancelTask ref) := by
  unfold Engine.cancelTask
  split
  · exact ledger
  next running =>
    refine ledger.changeProgress .cancelling fun member => running ?_
    obtain ⟨task, found, done⟩ := ledger.ended ref member
    rw [isDone, found]
    exact done

theorem Ledger.supersede (target : String) : Ledger start ends (e.supersede target) := by
  unfold Engine.supersede
  split
  · exact ledger
  next ref _ =>
    split
    · exact ledger
    next previous found =>
      split
      · exact ledger
      next running =>
        have requested := ledger.changeProgress .cancelling
          (ledger.not_mem_of_running found (Bool.not_eq_true _ ▸ running))
        exact requested.leaves ⟨rfl, rfl, rfl, rfl, rfl⟩

theorem Ledger.schedule (body : Program) (action : Action) (dispatchId : String) :
    Ledger start ends (e.schedule body action dispatchId) := by
  unfold Engine.schedule
  split
  · exact ledger.leaves ⟨rfl, rfl, rfl, rfl, rfl⟩
  · have added := ledger.addTask (e.taskOf body action dispatchId)
    rw [occupy_record_scheduled, Engine.occupy]
    split
    · exact (added.supersede action.target).leaves ⟨rfl, rfl, rfl, rfl, rfl⟩
    · exact added

/-! ## What happens to an engine -/

theorem Ledger.effect {fires : Prop} {after : Engine} (effect : Effect fires e after) :
    Ledger start ends after := by
  cases effect with
  | log | report | write | unsubscribe | draw | display | bind | number =>
    exact ledger.leaves ⟨rfl, rfl, rfl, rfl, rfl⟩
  | count _ _ tasks => exact ledger.leaves ⟨rfl, rfl, rfl, tasks⟩
  | schedule => exact ledger.schedule _ _ _

theorem Ledger.effects {fires : Prop} {after : Engine} (effects : Effects fires e after) :
    Ledger start ends after := by
  induction effects with
  | refl => exact ledger
  | tail _ effect ih => exact ih.effect effect

theorem Ledger.finishTask {ref : Nat} (progress : Progress) (open_ : ref ∉ ends) :
    Ledger start ends (e.finishTask ref progress) :=
  (ledger.changeProgress progress open_).leaves ⟨rfl, rfl, rfl, rfl, rfl⟩

theorem Ledger.stepTask (ref : Nat) : Ledger start ends (e.stepTask ref) := by
  unfold Engine.stepTask
  cases found : e.board.tasks[ref]? with
  | none => exact ledger
  | some task =>
    have running (stopped : task.progress.isDone = false) : ref ∉ ends :=
      ledger.not_mem_of_running found stopped
    dsimp only
    cases progress : task.progress with
    | completed | failed | cancelled => exact ledger
    | cancelling => exact ledger.finishTask .cancelled (running (by rw [progress]; rfl))
    | pending =>
      -- no end is taken note of while the body runs
      have open_ := running (by rw [progress]; rfl)
      have started : Ledger start ends (e.withVars task.vars) :=
        ledger.leaves ⟨rfl, rfl, rfl, rfl, rfl⟩
      have ran := started.effects (run_effects task.body (e.withVars task.vars))
      dsimp only
      cases out : task.body.run (e.withVars task.vars) with
      | mk stop after =>
        rw [out] at ran
        have bound := ran.updateTask ref
          (f := fun task => { task with vars := after.shared.vars }) fun _ _ => rfl
        have kept : Ledger start ends ((after.updateTask ref fun task =>
            { task with vars := after.shared.vars }).withVars e.shared.vars) :=
          bound.leaves ⟨rfl, rfl, rfl, rfl, rfl⟩
        cases stop with
        | done | failed | deferred => exact kept.finishTask _ open_
        | paused rest =>
          have left := kept.updateTask ref (f := fun task => { task with body := rest })
            fun _ _ => rfl
          exact left.leaves ⟨rfl, rfl, rfl, rfl, rfl⟩

/-- When the end of a task is taken note of, the task is struck out of the list, and its failure is
counted if it has failed. -/
theorem Ledger.settleTask {ref : Nat} {task : Task} (found : e.board.tasks[ref]? = some task)
    (done : task.progress.isDone = true) : Ledger start (ends ++ [ref]) (e.settleTask ref) := by
  have length : (e.settleTask ref).board.tasks.length = e.board.tasks.length := by
    rw [settleTask_tasks found]
    exact List.length_modify ..
  have struck : (e.settleTask ref).board.unsettled = e.board.unsettled.erase ref := by
    rw [settleTask_board found]
  constructor
  · intro place
    rw [struck, ledger.distinct.mem_erase_iff, ledger.unsettled, length, List.mem_append,
      List.mem_singleton, not_or, and_comm, and_assoc]
  · rw [struck]
    exact ledger.distinct.erase ref
  · intro place member
    obtain ⟨old, was, ended⟩ : ∃ old, e.board.tasks[place]? = some old ∧
        old.progress.isDone = true := by
      rcases List.mem_append.mp member with before | here
      · exact ledger.ended place before
      · exact ⟨task, List.mem_singleton.mp here ▸ found, done⟩
    refine ⟨changeAt ref noted place old, ?_, ?_⟩
    · rw [settleTask_tasks found, updateTask_tasks, was, Option.map_some]
    · rw [changeAt_noted_progress, ended]
  · rw [length, ← ledger.scheduled, settleTask_counters found]
    split <;> rfl
  · have own : e.fate? ref = some task.fate := by rw [fate?, found, Option.map_some]
    simp only [settleTask_fate? found, List.countP_append, List.countP_singleton, own,
      Option.some.injEq, decide_eq_true_eq]
    rw [settleTask_counters found, ← Nat.add_assoc, ← ledger.failures]
    split <;> rfl

end

/-- One thing that happens to an engine: a program of the host is run, a trigger is fired against
some rules, a user does something, a task is stepped, its cancellation is requested, its end is
taken note of, or the host does something that has no part in tasks. -/
inductive Act where
  | run (p : Program)
  | dispatch (rules : List Rule) (trigger : String) (context : Value)
  | gesture (w : Widget) (g : Gesture)
  | step (ref : Nat)
  | cancel (ref : Nat)
  | settle (ref : Nat)
  | host (change : Engine → Engine)

def act (e : Engine) : Act → Engine
  | .run p => (p.run e).2
  | .dispatch rules trigger context => dispatch trigger context { e with page.rules := rules }
  | .gesture w g => (e.performOn w g).2
  | .step ref => e.stepTask ref
  | .cancel ref => e.cancelTask ref
  | .settle ref => e.settleTask ref
  | .host change => change e

/-- The end of a task is taken note of any time after it has ended. -/
def Allows (e : Engine) : Act → Prop
  | .settle ref => ∃ task, e.board.tasks[ref]? = some task ∧ task.progress.isDone = true
  | .host change => LeavesTasks e (change e)
  | _ => True

/-- The engine after all that has happened. -/
def after (e : Engine) (history : List Act) : Engine :=
  history.foldl act e

/-- Each act of a history is one that can happen then. -/
def Legal (e : Engine) : List Act → Prop
  | [] => True
  | a :: rest => e.Allows a ∧ (e.act a).Legal rest

/-- The task whose end is taken note of by an act. -/
def Act.ending? : Act → Option Nat
  | .settle ref => some ref
  | _ => none

/-- The tasks whose end is taken note of in the course of a history, in order. -/
def endings (history : List Act) : List Nat :=
  history.filterMap Act.ending?

theorem mem_endings_iff {history : List Act} {ref : Nat} :
    ref ∈ endings history ↔ Act.settle ref ∈ history := by
  rw [endings, List.mem_filterMap]
  constructor
  · rintro ⟨a, member, is⟩
    cases a with
    | settle place =>
      cases is
      exact member
    | run | dispatch | gesture | step | cancel | host => cases is
  · exact fun member => ⟨_, member, rfl⟩

theorem Ledger.act {start e : Engine} {ends : List Nat} (ledger : Ledger start ends e) {a : Act}
    (allowed : e.Allows a) : Ledger start (ends ++ endings [a]) (e.act a) := by
  have quiet (none : a.ending? = .none) : ends ++ endings [a] = ends := by
    rw [endings, List.filterMap_cons_none none, List.filterMap_nil, List.append_nil]
  cases a with
  | settle ref =>
    obtain ⟨task, found, done⟩ := allowed
    exact ledger.settleTask found done
  | run p =>
    rw [quiet rfl]
    exact ledger.effects (run_effects p e)
  | dispatch rules trigger context =>
    have ruled : Ledger start ends { e with page.rules := rules } :=
      ledger.leaves ⟨rfl, rfl, rfl, rfl, rfl⟩
    rw [quiet rfl]
    exact ruled.effects (dispatch_effects trigger context _)
  | gesture w g =>
    rw [quiet rfl]
    exact ledger.effects (performOn_effects w g e)
  | step ref =>
    rw [quiet rfl]
    exact ledger.stepTask ref
  | cancel ref =>
    rw [quiet rfl]
    exact ledger.cancelTask ref
  | host change =>
    rw [quiet rfl]
    exact ledger.leaves allowed

theorem Legal.ledger {start e : Engine} {ends : List Nat} {history : List Act}
    (legal : e.Legal history) (ledger : Ledger start ends e) :
    Ledger start (ends ++ endings history) (e.after history) := by
  induction history generalizing e ends with
  | nil => rwa [endings, List.filterMap_nil, List.append_nil]
  | cons a rest ih =>
    have split : endings (a :: rest) = endings [a] ++ endings rest :=
      List.filterMap_append (l := [a])
    rw [split, ← List.append_assoc]
    exact ih legal.2 (ledger.act legal.1)

end Engine
end Patchbay
