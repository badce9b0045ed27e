import Patchbay.Engine.Gesture
import Patchbay.Engine.EventLoop
import Patchbay.Proofs.Engine.Effects

/-!
# One task for each target

With serialization, a task that is scheduled supersedes the one before it for the same target.
Cancellation is requested at one moment, delivered at another, and the end of a task is taken note
of at a third, so all three can come in any order with new tasks. The invariant `Engine.Serial`
relates the table of tasks in flight to the list of all tasks, and every move of the engine keeps
it: `Moves.serial`.
-/

namespace Patchbay

open Relation (ReflTransGen)

/-- The task at `ref` is the one that was scheduled last for its target. -/
def Latest (tasks : List Task) (ref : Nat) (task : Task) : Prop :=
  tasks[ref]? = some task ∧
    ∀ later other, ref < later → tasks[later]? = some other → other.target ≠ task.target

/-- Of two tasks for one target only one was scheduled last. -/
theorem Latest.unique {tasks : List Task} {ref ref' : Nat} {task task' : Task}
    (latest : Latest tasks ref task) (latest' : Latest tasks ref' task')
    (same : task'.target = task.target) : ref' = ref := by
  rcases Nat.lt_trichotomy ref ref' with before | equal | after
  · exact absurd same (latest.2 ref' task' before latest'.1)
  · exact equal.symm
  · exact absurd same.symm (latest'.2 ref task after latest.1)

namespace Engine

/-- The tasks in flight are those that were scheduled last for their targets and whose end has not
been taken note of. All others have ended, or their cancellation has been requested. -/
structure Serial (e : Engine) : Prop where
  inFlight : ∀ (target : String) (ref : Nat), Entries.get? target e.board.inFlight = some ref ↔
    ∃ task, Latest e.board.tasks ref task ∧ task.target = target ∧ task.settled = false
  pending : ∀ (ref : Nat) (task : Task), e.board.tasks[ref]? = some task →
    task.progress = .pending → Latest e.board.tasks ref task
  settled : ∀ (ref : Nat) (task : Task), e.board.tasks[ref]? = some task →
    task.settled = true → task.progress.isDone = true
  uncancelled : ∀ ref task, Latest e.board.tasks ref task →
    task.progress ≠ .cancelling ∧ task.progress ≠ .cancelled

/-- An engine in which no task has been scheduled. -/
structure Idle (e : Engine) : Prop where
  tasks : e.board.tasks = []
  inFlight : e.board.inFlight = []

theorem Idle.serial {e : Engine} (idle : e.Idle) : e.Serial where
  inFlight target ref := by simp [idle.tasks, idle.inFlight, Entries.get?, Latest]
  pending ref task found := by simp [idle.tasks] at found
  settled ref task found := by simp [idle.tasks] at found
  uncancelled ref task latest := by
    have found := latest.1
    simp [idle.tasks] at found

theorem Serial.of_same {e after : Engine} (serial : e.Serial)
    (tasks : after.board.tasks = e.board.tasks)
    (inFlight : after.board.inFlight = e.board.inFlight) : after.Serial := by
  constructor
  · rw [tasks, inFlight]
    exact serial.inFlight
  · rw [tasks]
    exact serial.pending
  · rw [tasks]
    exact serial.settled
  · rw [tasks]
    exact serial.uncancelled

/-! ## Scheduling -/

theorem Serial.bounded {e : Engine} (serial : e.Serial) {target : String} {ref : Nat}
    (inFlight : Entries.get? target e.board.inFlight = some ref) : ref < e.board.tasks.length := by
  obtain ⟨task, latest, -, -⟩ := (serial.inFlight target ref).mp inFlight
  exact (List.getElem?_eq_some_iff.mp latest.1).1

/-- A task is in flight for its own target only. -/
theorem Serial.target_of_inFlight {e : Engine} (serial : e.Serial) {target : String} {ref : Nat}
    (inFlight : Entries.get? target e.board.inFlight = some ref) {task : Task}
    (found : e.board.tasks[ref]? = some task) : task.target = target := by
  obtain ⟨same, latest, own, -⟩ := (serial.inFlight target ref).mp inFlight
  cases found.symm.trans latest.1
  exact own

/-- A task whose cancellation is requested if it is the one in flight. -/
def cancelIf (inFlight : Option Nat) (ref : Nat) (task : Task) : Task :=
  if inFlight = some ref ∧ task.progress.isDone = false then
    { task with progress := .cancelling }
  else task

theorem cancelIf_target (inFlight : Option Nat) (ref : Nat) (task : Task) :
    (cancelIf inFlight ref task).target = task.target := by
  unfold cancelIf
  split <;> rfl

theorem cancelIf_settled (inFlight : Option Nat) (ref : Nat) (task : Task) :
    (cancelIf inFlight ref task).settled = task.settled := by
  unfold cancelIf
  split <;> rfl

theorem cancelIf_of_ne {inFlight : Option Nat} {ref : Nat} (other : inFlight ≠ some ref) :
    cancelIf inFlight ref = id := by
  funext task
  simp [cancelIf, other]

theorem cancelIf_of_done {inFlight : Option Nat} {ref : Nat} {task : Task}
    (done : task.progress.isDone = true) : cancelIf inFlight ref task = task := by
  simp [cancelIf, done]

theorem supersede_tasks (e : Engine) (target : String) (ref : Nat) :
    (e.supersede target).board.tasks[ref]? =
      (e.board.tasks[ref]?).map (cancelIf (Entries.get? target e.board.inFlight) ref) := by
  unfold supersede
  -- The task in flight is the only one that changes, and only if it has not ended.
  cases flying : Entries.get? target e.board.inFlight with
  | none => simp [cancelIf_of_ne]
  | some old =>
    dsimp only
    by_cases here : old = ref
    · subst here
      cases found : e.board.tasks[old]? with
      | none => simp [found]
      | some previous =>
        cases done : previous.progress.isDone with
        | true => simp [found, done, cancelIf_of_done]
        | false => simp [Engine.log, record, updateTask, found, done, cancelIf]
    · -- tasks at other places stay as they are
      have other : some old ≠ some ref := fun same => here (Option.some.inj same)
      rw [cancelIf_of_ne other, Option.map_id, id]
      cases e.board.tasks[old]? with
      | none => rfl
      | some previous =>
        dsimp only
        split
        · rfl
        · simp [Engine.log, record, updateTask, here]

theorem supersede_inFlight (e : Engine) (target : String) :
    (e.supersede target).board.inFlight = e.board.inFlight := by
  rcases supersede_cases e target with same | ⟨ref, -, same⟩
  · rw [same]
  · rw [same]
    rfl

/-- The tasks after one more has been scheduled. -/
theorem schedule_tasks {e : Engine} (serial : e.Serial) (serialize : e.board.serialize = true)
    (loop : e.shared.loop = true) (body : Program) (action : Action) (dispatchId : String)
    (ref : Nat) :
    (e.schedule body action dispatchId).board.tasks[ref]? =
      if ref = e.board.tasks.length then some (e.taskOf body action dispatchId)
      else (e.board.tasks[ref]?).map
        (cancelIf (Entries.get? action.target e.board.inFlight) ref) := by
  have scheduled : (e.schedule body action dispatchId).board.tasks =
      ((e.addTask (e.taskOf body action dispatchId)).supersede action.target).board.tasks := by
    have on : (e.addTask (e.taskOf body action dispatchId)).board.serialize = true := serialize
    simp only [schedule, loop, Bool.not_true, Bool.false_eq_true, ↓reduceIte, occupy, on]
    rfl
  have added : (e.addTask (e.taskOf body action dispatchId)).board.tasks[ref]? =
      if ref = e.board.tasks.length then some (e.taskOf body action dispatchId)
      else e.board.tasks[ref]? := by
    simp only [addTask, enqueue, List.getElem?_append, List.getElem?_singleton]
    split
    · next inside => simp [Nat.ne_of_lt inside]
    · next outside =>
      by_cases last : ref = e.board.tasks.length
      · simp [last]
      · have beyond : e.board.tasks[ref]? = none := List.getElem?_eq_none (by omega)
        rw [if_neg (by omega), if_neg last, beyond]
  rw [scheduled, supersede_tasks, added]
  by_cases last : ref = e.board.tasks.length
  · -- the new task is not the one in flight, which was there before
    have other : Entries.get? action.target e.board.inFlight ≠ some ref := by
      intro flying
      have := serial.bounded flying
      omega
    rw [if_pos last, if_pos last, Option.map_some]
    exact congrArg some (congrFun (cancelIf_of_ne other) _)
  · rw [if_neg last, if_neg last]
    rfl

theorem schedule_inFlight {e : Engine} (serialize : e.board.serialize = true)
    (loop : e.shared.loop = true) (body : Program) (action : Action) (dispatchId : String) :
    (e.schedule body action dispatchId).board.inFlight =
      Entries.put action.target e.board.tasks.length e.board.inFlight := by
  have on : (e.addTask (e.taskOf body action dispatchId)).board.serialize = true := serialize
  simp only [schedule, loop, Bool.not_true, Bool.false_eq_true, ↓reduceIte, occupy, on]
  exact congrArg (Entries.put action.target e.board.tasks.length) (supersede_inFlight _ _)

/-- A new task is the latest one for its target; for other targets nothing has changed. -/
theorem latest_schedule_iff {e : Engine} (serial : e.Serial)
    (serialize : e.board.serialize = true) (loop : e.shared.loop = true) (body : Program)
    (action : Action) (dispatchId : String) (ref : Nat) (task : Task) :
    Latest (e.schedule body action dispatchId).board.tasks ref task ↔
      (ref = e.board.tasks.length ∧ task = e.taskOf body action dispatchId) ∨
      (Latest e.board.tasks ref task ∧ task.target ≠ action.target) := by
  have tasks := schedule_tasks serial serialize loop body action dispatchId
  have target : (e.taskOf body action dispatchId).target = action.target := rfl
  have beyond {at_ : Nat} {other : Task} (found : e.board.tasks[at_]? = some other) :
      at_ < e.board.tasks.length := (List.getElem?_eq_some_iff.mp found).1
  constructor
  · rintro ⟨found, last⟩
    rw [tasks] at found
    by_cases new : ref = e.board.tasks.length
    · rw [if_pos new] at found
      exact .inl ⟨new, (Option.some.inj found).symm⟩
    · right
      rw [if_neg new] at found
      obtain ⟨old, was, rfl⟩ := Option.map_eq_some_iff.mp found
      -- the new task comes later, so it is for another target
      have different : old.target ≠ action.target := by
        have new := last e.board.tasks.length (e.taskOf body action dispatchId) (beyond was)
          (by rw [tasks, if_pos rfl])
        rw [cancelIf_target] at new
        exact fun same => new same.symm
      have other : Entries.get? action.target e.board.inFlight ≠ some ref := fun flying =>
        different (serial.target_of_inFlight flying was)
      rw [cancelIf_of_ne other, id]
      refine ⟨⟨was, fun later task after found => ?_⟩, different⟩
      have now := last later
        (cancelIf (Entries.get? action.target e.board.inFlight) later task) after
        (by rw [tasks, if_neg (Nat.ne_of_lt (beyond found)), found, Option.map_some])
      rwa [cancelIf_target, cancelIf_target] at now
  · rintro (⟨rfl, rfl⟩ | ⟨⟨was, last⟩, different⟩)
    · refine ⟨by rw [tasks, if_pos rfl], fun later other after found => ?_⟩
      rw [tasks, if_neg (Nat.ne_of_gt after), List.getElem?_eq_none (Nat.le_of_lt after)] at found
      cases found
    · have other : Entries.get? action.target e.board.inFlight ≠ some ref := fun flying =>
        different (serial.target_of_inFlight flying was)
      constructor
      · rw [tasks, if_neg (Nat.ne_of_lt (beyond was)), was, Option.map_some, cancelIf_of_ne other]
        rfl
      · intro later task after found
        rw [tasks] at found
        by_cases new : later = e.board.tasks.length
        · rw [if_pos new] at found
          cases found
          exact fun same => different same.symm
        · rw [if_neg new] at found
          obtain ⟨old, was, rfl⟩ := Option.map_eq_some_iff.mp found
          rw [cancelIf_target]
          exact last later old after was

theorem schedule_serial {e : Engine} (serial : e.Serial) (serialize : e.board.serialize = true)
    (body : Program) (action : Action) (dispatchId : String) :
    (e.schedule body action dispatchId).Serial := by
  cases loop : e.shared.loop with
  | false =>
    have same : e.schedule body action dispatchId =
        (e.record .noLoop).log .warning "async_handler_without_loop" (actionFields action) := by
      simp [schedule, loop]
    rw [same]
    exact serial.of_same rfl rfl
  | true =>
    -- with a loop there is one more task, and the one in flight for its target is cancelled
    have latest := latest_schedule_iff serial serialize loop body action dispatchId
    have tasks := schedule_tasks serial serialize loop body action dispatchId
    have inFlight := schedule_inFlight serialize loop body action dispatchId
    constructor
    · -- in flight: the target of the action now has the new task, the others what they had
      intro target ref
      rw [inFlight]
      by_cases same : target = action.target
      · subst same
        rw [Entries.get?_put_self, Option.some.injEq]
        constructor
        · rintro rfl
          exact ⟨_, (latest _ _).mpr (.inl ⟨rfl, rfl⟩), rfl, rfl⟩
        · rintro ⟨task, newest, same, -⟩
          rcases (latest _ _).mp newest with ⟨rfl, -⟩ | ⟨-, different⟩
          · rfl
          · exact absurd same different
      · rw [Entries.get?_put_of_ne same, serial.inFlight]
        constructor
        · rintro ⟨task, newest, rfl, unsettled⟩
          exact ⟨task, (latest _ _).mpr (.inr ⟨newest, same⟩), rfl, unsettled⟩
        · rintro ⟨task, newest, rfl, unsettled⟩
          rcases (latest _ _).mp newest with ⟨-, rfl⟩ | ⟨newest, -⟩
          · exact absurd rfl same
          · exact ⟨task, newest, rfl, unsettled⟩
    · -- pending: a task that still is one was not the one in flight for this target
      intro ref task found pending
      rw [tasks] at found
      by_cases new : ref = e.board.tasks.length
      · rw [if_pos new] at found
        exact (latest _ _).mpr (.inl ⟨new, (Option.some.inj found).symm⟩)
      · rw [if_neg new] at found
        obtain ⟨old, was, rfl⟩ := Option.map_eq_some_iff.mp found
        by_cases cancelled : Entries.get? action.target e.board.inFlight = some ref ∧
            old.progress.isDone = false
        · rw [cancelIf, if_pos cancelled] at pending
          cases pending
        · rw [cancelIf, if_neg cancelled] at pending ⊢
          have newest := serial.pending ref old was pending
          have running : old.progress.isDone = false := by
            rw [pending]
            rfl
          have unsettled : old.settled = false := by
            apply Bool.eq_false_iff.mpr
            intro settled
            rw [serial.settled ref old was settled] at running
            cases running
          refine (latest _ _).mpr (.inr ⟨newest, fun same => cancelled ⟨?_, running⟩⟩)
          exact (serial.inFlight _ _).mpr ⟨old, newest, same, unsettled⟩
    · -- settled: no task that has ended is touched
      intro ref task found settled
      rw [tasks] at found
      by_cases new : ref = e.board.tasks.length
      · rw [if_pos new] at found
        cases found
        cases settled
      · rw [if_neg new] at found
        obtain ⟨old, was, rfl⟩ := Option.map_eq_some_iff.mp found
        rw [cancelIf_settled] at settled
        have done := serial.settled ref old was settled
        rwa [cancelIf_of_done done]
    · -- uncancelled: what is cancelled here is no longer the latest
      intro ref task newest
      rcases (latest _ _).mp newest with ⟨-, rfl⟩ | ⟨newest, -⟩
      · exact ⟨nofun, nofun⟩
      · exact serial.uncancelled ref task newest

/-! ## Moves -/

theorem Effect.serial {fires : Prop} {e after : Engine} (effect : Effect fires e after)
    (serial : e.Serial) (serialize : e.board.serialize = true) : after.Serial := by
  cases effect with
  | log | report | write | unsubscribe | draw | display | count | bind | number =>
    exact serial.of_same rfl rfl
  | schedule => exact schedule_serial serial serialize _ _ _

theorem Effects.serial {fires : Prop} {e after : Engine} (effects : Effects fires e after)
    (serial : e.Serial) (serialize : e.board.serialize = true) : after.Serial := by
  induction effects with
  | refl => exact serial
  | tail earlier effect ih =>
    have on := (Effects.steady earlier).serialize.trans serialize
    exact effect.serial ih on

/-- A task by its place, after the one at `ref` has changed. -/
def changeAt (ref : Nat) (f : Task → Task) (place : Nat) (task : Task) : Task :=
  if ref = place then f task else task

theorem updateTask_tasks (e : Engine) (ref : Nat) (f : Task → Task) (place : Nat) :
    (e.updateTask ref f).board.tasks[place]? = (e.board.tasks[place]?).map (changeAt ref f place) :=
  List.getElem?_modify ..

section

variable {f : Task → Task} (target : ∀ task, (f task).target = task.target)
include target

theorem changeAt_target (ref place : Nat) (task : Task) :
    (changeAt ref f place task).target = task.target := by
  unfold changeAt
  split
  · exact target task
  · rfl

/-- Which tasks are the latest ones does not depend on anything but their targets. -/
theorem latest_updateTask_iff (e : Engine) (ref place : Nat) (task : Task) :
    Latest (e.updateTask ref f).board.tasks place task ↔
      ∃ old, Latest e.board.tasks place old ∧ changeAt ref f place old = task := by
  unfold Latest
  rw [updateTask_tasks, Option.map_eq_some_iff]
  constructor
  · rintro ⟨⟨old, was, rfl⟩, last⟩
    refine ⟨old, ⟨was, fun later other after found => ?_⟩, rfl⟩
    have different := last later (changeAt ref f later other) after
      (by rw [updateTask_tasks, found, Option.map_some])
    rwa [changeAt_target target, changeAt_target target] at different
  · rintro ⟨old, ⟨was, last⟩, rfl⟩
    refine ⟨⟨old, was, rfl⟩, fun later other after found => ?_⟩
    rw [updateTask_tasks, Option.map_eq_some_iff] at found
    obtain ⟨old', was', rfl⟩ := found
    rw [changeAt_target target, changeAt_target target]
    exact last later old' after was'

/-- A change that at most ends a task keeps the invariant. Only a task whose cancellation has been
requested may end as cancelled. -/
theorem Serial.updateTask {e : Engine} (serial : e.Serial) (ref : Nat)
    (settled : ∀ task, (f task).settled = task.settled)
    (progress : ∀ task, e.board.tasks[ref]? = some task →
      (f task).progress = task.progress ∨ (f task).progress.isDone = true ∧
        ((f task).progress = .cancelled → task.progress = .cancelling)) :
    (e.updateTask ref f).Serial := by
  have latest := latest_updateTask_iff target e ref
  have settled' (place : Nat) (task : Task) :
      (changeAt ref f place task).settled = task.settled := by
    unfold changeAt
    split
    · exact settled task
    · rfl
  have progress' {place : Nat} {task : Task} (found : e.board.tasks[place]? = some task) :
      (changeAt ref f place task).progress = task.progress ∨
        (changeAt ref f place task).progress.isDone = true ∧
        ((changeAt ref f place task).progress = .cancelled → task.progress = .cancelling) := by
    unfold changeAt
    split
    · next here =>
      subst here
      exact progress task found
    · exact .inl rfl
  constructor
  · -- in flight: targets stay, and nobody takes note of an end
    intro target' place
    have same : (e.updateTask ref f).board.inFlight = e.board.inFlight := rfl
    rw [same, serial.inFlight]
    constructor
    · rintro ⟨task, newest, rfl, unsettled⟩
      exact ⟨_, (latest _ _).mpr ⟨task, newest, rfl⟩, changeAt_target target _ _ _,
        (settled' _ _).trans unsettled⟩
    · rintro ⟨task, newest, rfl, unsettled⟩
      obtain ⟨old, was, rfl⟩ := (latest _ _).mp newest
      exact ⟨old, was, (changeAt_target target _ _ _).symm, (settled' _ _).symm.trans unsettled⟩
  · -- a task that is pending now was pending before, since otherwise it has ended
    intro place task found pending
    rw [updateTask_tasks, Option.map_eq_some_iff] at found
    obtain ⟨old, was, rfl⟩ := found
    apply (latest _ _).mpr
    rcases progress' was with same | ⟨done, -⟩
    · exact ⟨old, serial.pending place old was (same.symm.trans pending), rfl⟩
    · rw [pending] at done
      cases done
  · -- settled: a task that has ended does not begin anew
    intro place task found settled
    rw [updateTask_tasks, Option.map_eq_some_iff] at found
    obtain ⟨old, was, rfl⟩ := found
    rw [settled'] at settled
    rcases progress' was with same | ⟨done, -⟩
    · rw [same]
      exact serial.settled place old was settled
    · exact done
  · -- uncancelled: only a requested cancellation is delivered, and none was for the latest task
    intro place task newest
    obtain ⟨old, was, rfl⟩ := (latest _ _).mp newest
    obtain ⟨uncancelling, uncancelled⟩ := serial.uncancelled place old was
    rcases progress' was.1 with same | ⟨done, only⟩
    · rw [same]
      exact ⟨uncancelling, uncancelled⟩
    · constructor
      · intro cancelling
        rw [cancelling] at done
        cases done
      · exact fun cancelled => uncancelling (only cancelled)

end

theorem finishTask_serial {e : Engine} (serial : e.Serial) (ref : Nat) {progress : Progress}
    (done : progress.isDone = true)
    (only : progress = .cancelled → ∀ task : Task, e.board.tasks[ref]? = some task →
      task.progress = .cancelling) : (e.finishTask ref progress).Serial := by
  have updated := serial.updateTask (f := fun task => { task with progress := progress })
    (fun _ => rfl) ref (fun _ => rfl)
    fun task found => .inr ⟨done, fun cancelled => only cancelled task found⟩
  exact updated.of_same rfl rfl

theorem run_effects (p : Program) (e : Engine) : Effects True e (p.run e).2 :=
  run_chains True p e (Program.within_of_fires trivial p) (Store.within_of_fires trivial _)

theorem stepTask_steady (e : Engine) (ref : Nat) : Steady e (e.stepTask ref) := by
  unfold stepTask
  cases e.board.tasks[ref]? with
  | none => exact .refl e
  | some task =>
    dsimp only
    cases task.progress with
    | completed | failed | cancelled => exact .refl e
    | cancelling => exact ⟨rfl, rfl, rfl, rfl, rfl, rfl⟩
    | pending =>
      -- the body runs with the log variables of its task
      have started : Steady e (e.withVars task.vars) := ⟨rfl, rfl, rfl, rfl, rfl, rfl⟩
      have ran := started.trans (run_effects task.body (e.withVars task.vars)).steady
      dsimp only
      cases out : task.body.run (e.withVars task.vars) with
      | mk stop after =>
        rw [out] at ran
        cases stop with
        | done | failed | deferred | paused =>
          exact ran.trans ⟨rfl, rfl, rfl, rfl, rfl, rfl⟩

theorem stepTask_serial {e : Engine} (serial : e.Serial) (serialize : e.board.serialize = true)
    (ref : Nat) : (e.stepTask ref).Serial := by
  unfold stepTask
  cases found : e.board.tasks[ref]? with
  | none => exact serial
  | some task =>
    dsimp only
    cases progress : task.progress with
    | completed | failed | cancelled => exact serial
    | cancelling =>
      -- The request is delivered: this is where a task may end as cancelled.
      apply finishTask_serial serial ref rfl
      intro _ same found'
      cases found.symm.trans found'
      exact progress
    | pending =>
      -- Whatever the body does to other tasks, its own task ends or waits afterwards.
      have started : (e.withVars task.vars).Serial := serial.of_same rfl rfl
      have ran := (run_effects task.body (e.withVars task.vars)).serial started serialize
      dsimp only
      cases out : task.body.run (e.withVars task.vars) with
      | mk stop after =>
        rw [out] at ran
        have kept : ((after.updateTask ref fun task =>
            { task with vars := after.shared.vars }).withVars e.shared.vars).Serial :=
          Serial.of_same (ran.updateTask (f := fun task => { task with vars := after.shared.vars })
            (fun _ => rfl) ref (fun _ => rfl) fun _ _ => .inl rfl) rfl rfl
        cases stop with
        | done result => exact finishTask_serial kept ref rfl nofun
        | failed fault => exact finishTask_serial kept ref rfl nofun
        | deferred coroutine body => exact finishTask_serial kept ref rfl nofun
        | paused rest =>
          have left := kept.updateTask (f := fun task => { task with body := rest })
            (fun _ => rfl) ref (fun _ => rfl) fun _ _ => .inl rfl
          exact left.of_same rfl rfl

/-- A task whose end has been taken note of. -/
def noted (task : Task) : Task :=
  { task with settled := true }

theorem changeAt_noted_progress (ref place : Nat) (task : Task) :
    (changeAt ref noted place task).progress = task.progress := by
  unfold changeAt
  split <;> rfl

/-- The end of a task frees its target only if the task is the one in flight. -/
theorem settleTask_board {e : Engine} {ref : Nat} {task : Task}
    (found : e.board.tasks[ref]? = some task) :
    (e.settleTask ref).board = { (e.updateTask ref noted).board with
      unsettled := e.board.unsettled.erase ref
      inFlight := if Entries.get? task.target e.board.inFlight = some ref then
        Entries.erase task.target e.board.inFlight else e.board.inFlight } := by
  simp only [settleTask, found]
  cases task.progress <;>
    by_cases flying : Entries.get? task.target e.board.inFlight = some ref <;>
    simp [flying, updateTask, Engine.log, withVars, record] <;> rfl

theorem settleTask_tasks {e : Engine} {ref : Nat} {task : Task}
    (found : e.board.tasks[ref]? = some task) :
    (e.settleTask ref).board.tasks = (e.updateTask ref noted).board.tasks := by
  rw [settleTask_board found]

theorem settleTask_inFlight {e : Engine} (serial : e.Serial) {ref : Nat} {task : Task}
    (found : e.board.tasks[ref]? = some task) (target : String) :
    Entries.get? target (e.settleTask ref).board.inFlight =
      if Entries.get? target e.board.inFlight = some ref then none
      else Entries.get? target e.board.inFlight := by
  rw [settleTask_board found]
  by_cases own : target = task.target
  · subst own
    by_cases flying : Entries.get? task.target e.board.inFlight = some ref
    · simp only [flying, ↓reduceIte, Entries.get?_erase_self]
    · simp only [flying, ↓reduceIte]
  · have other : Entries.get? target e.board.inFlight ≠ some ref := fun flying =>
      own (serial.target_of_inFlight flying found).symm
    rw [if_neg other]
    dsimp only
    split
    · exact Entries.get?_erase_of_ne own _
    · rfl

theorem settleTask_serial {e : Engine} (serial : e.Serial) {ref : Nat} {task : Task}
    (found : e.board.tasks[ref]? = some task) (done : task.progress.isDone = true) :
    (e.settleTask ref).Serial := by
  have latest := latest_updateTask_iff (f := noted) (fun _ => rfl) e ref
  have get := updateTask_tasks e ref noted
  have tasks := settleTask_tasks found
  have target (place : Nat) (old : Task) : (changeAt ref noted place old).target = old.target :=
    changeAt_target (f := noted) (fun _ => rfl) _ _ _
  have progress := changeAt_noted_progress ref
  -- nothing but the table and the note has changed, so only the first field takes an argument
  constructor
  · intro target' place
    rw [settleTask_inFlight serial found, tasks]
    by_cases flying : Entries.get? target' e.board.inFlight = some ref
    · -- its latest task is the one that has been settled
      rw [if_pos flying]
      constructor
      · nofun
      · rintro ⟨now, newest, same, unsettled⟩
        obtain ⟨old, was, rfl⟩ := (latest _ _).mp newest
        obtain ⟨mine, latest', rfl, -⟩ := (serial.inFlight _ _).mp flying
        have here := latest'.unique was ((target place old).symm.trans same)
        rw [changeAt, if_pos here.symm] at unsettled
        cases unsettled
    · rw [if_neg flying, serial.inFlight]
      constructor
      · rintro ⟨old, was, rfl, unsettled⟩
        have elsewhere : ref ≠ place := by
          rintro rfl
          exact flying ((serial.inFlight _ _).mpr ⟨old, was, rfl, unsettled⟩)
        exact ⟨_, (latest _ _).mpr ⟨old, was, rfl⟩, target _ _,
          by rw [changeAt, if_neg elsewhere, unsettled]⟩
      · rintro ⟨now, newest, rfl, unsettled⟩
        obtain ⟨old, was, rfl⟩ := (latest _ _).mp newest
        refine ⟨old, was, (target _ _).symm, ?_⟩
        unfold changeAt at unsettled
        split at unsettled
        · -- the task that has been settled is not unsettled
          cases unsettled
        · exact unsettled
  · intro place now found' pending
    rw [tasks, get, Option.map_eq_some_iff] at found'
    obtain ⟨old, was, rfl⟩ := found'
    rw [tasks]
    rw [progress] at pending
    exact (latest _ _).mpr ⟨old, serial.pending place old was pending, rfl⟩
  · intro place now found' settled
    rw [tasks, get, Option.map_eq_some_iff] at found'
    obtain ⟨old, was, rfl⟩ := found'
    rw [progress]
    by_cases here : ref = place
    · subst here
      cases found.symm.trans was
      exact done
    · rw [changeAt, if_neg here] at settled
      exact serial.settled place old was settled
  · intro place now newest
    rw [tasks] at newest
    obtain ⟨old, was, rfl⟩ := (latest _ _).mp newest
    rw [progress]
    exact serial.uncancelled place old was

/-- One move of the engine: a program of the host is run, a trigger is fired against some rules, a
user does something, a task is stepped, or the end of a task is taken note of. -/
inductive Moves : Engine → Engine → Prop
  | run (p : Program) (e : Engine) : Moves e (p.run e).2
  | dispatch (rules : List Rule) (trigger : String) (context : Value) (e : Engine) :
    Moves e (dispatch trigger context { e with page.rules := rules })
  | gesture (w : Widget) (g : Gesture) (e : Engine) : Moves e (e.performOn w g).2
  | step (ref : Nat) (e : Engine) : Moves e (e.stepTask ref)
  | settle {e : Engine} {ref : Nat} {task : Task} (found : e.board.tasks[ref]? = some task)
    (done : task.progress.isDone = true) : Moves e (e.settleTask ref)

theorem fire_effects (w : Widget) (event : String) (context : Value) (e : Engine) :
    Effects True e (e.fire w event context) :=
  .head (.log e _ _ _) (dispatch_effects _ _ _)

theorem afterwards_effects {e : Engine} (p : Program) {next : Value → Engine → Engine}
    (effects : ∀ value after, Effects True after (next value after)) :
    Effects True e (afterwards (p.run e) next).2 := by
  have ran := run_effects p e
  unfold afterwards
  cases out : p.run e with
  | mk stop after =>
    rw [out] at ran
    cases stop with
    | done value => exact ran.trans (effects value after)
    | failed | deferred | paused => exact ran

theorem performOn_effects (w : Widget) (g : Gesture) (e : Engine) :
    Effects True e (e.performOn w g).2 := by
  unfold performOn
  split
  · exact .refl
  · cases g with
    | select value => exact afterwards_effects _ fun _ after => fire_effects w _ _ after
    | typeText text => exact afterwards_effects _ fun _ after => fire_effects w _ _ after
    | pick date =>
      have wrote := writeWith_effects (run_chains True) w.id date e
        (Store.within_of_fires trivial _)
      exact wrote.trans (fire_effects w _ _ _)
    | click => exact fire_effects w _ _ e

/-- Whatever happens, the latest task of each target stays the only one that may go on. -/
theorem Moves.serial {e after : Engine} (moves : Moves e after) (serial : e.Serial)
    (serialize : e.board.serialize = true) :
    after.Serial ∧ after.board.serialize = true := by
  cases moves with
  | run p =>
    have effects := run_effects p e
    exact ⟨effects.serial serial serialize, effects.steady.serialize.trans serialize⟩
  | dispatch rules trigger context =>
    have effects := dispatch_effects trigger context
      { e with page.rules := rules }
    have same : ({ e with page.rules := rules } : Engine).Serial := serial.of_same rfl rfl
    exact ⟨effects.serial same serialize, effects.steady.serialize.trans serialize⟩
  | gesture w g =>
    have effects := performOn_effects w g e
    exact ⟨effects.serial serial serialize, effects.steady.serialize.trans serialize⟩
  | step ref =>
    have same := (stepTask_steady e ref).serialize
    exact ⟨stepTask_serial serial serialize ref, same.trans serialize⟩
  | settle found done =>
    refine ⟨settleTask_serial serial found done, ?_⟩
    rw [settleTask_board found]
    exact serialize

end Engine
end Patchbay
