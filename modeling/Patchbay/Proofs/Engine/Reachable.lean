import Patchbay.Proofs.Engine.Serialization

/-!
# What becomes of tasks

Whatever happens, a task stays where it is and keeps its target. So a task that has been superseded
stays superseded. With the invariant of serialization, this is what holds in every state that can be
reached: `Engine.Serialized`.
-/

namespace Patchbay

open Relation (ReflTransGen)

namespace Engine

/-! ## What becomes of a task -/

/-- A task stays as it is, or has its cancellation requested before its end. -/
def Lapses (task now : Task) : Prop :=
  now = task ∨ task.progress.isDone = false ∧ now = { task with progress := .cancelling }

theorem Lapses.trans {first second third : Task} (earlier : Lapses first second)
    (later : Lapses second third) : Lapses first third := by
  rcases earlier with rfl | ⟨running, rfl⟩
  · exact later
  · rcases later with rfl | ⟨-, rfl⟩
    · exact .inr ⟨running, rfl⟩
    · exact .inr ⟨running, rfl⟩

theorem Lapses.target {task now : Task} (lapses : Lapses task now) : now.target = task.target := by
  rcases lapses with rfl | ⟨-, rfl⟩ <;> rfl

theorem Lapses.settled {task now : Task} (lapses : Lapses task now) :
    now.settled = task.settled := by
  rcases lapses with rfl | ⟨-, rfl⟩ <;> rfl

theorem Lapses.body {task now : Task} (lapses : Lapses task now) : now.body = task.body := by
  rcases lapses with rfl | ⟨-, rfl⟩ <;> rfl

theorem cancelIf_lapses (inFlight : Option Nat) (ref : Nat) (task : Task) :
    Lapses task (cancelIf inFlight ref task) := by
  unfold cancelIf
  split
  · next cancelled => exact .inr ⟨cancelled.2, rfl⟩
  · exact .inl rfl

theorem Effect.task {fires : Prop} {e after : Engine} (effect : Effect fires e after) {ref : Nat}
    {task : Task} (found : e.board.tasks[ref]? = some task) :
    ∃ now, after.board.tasks[ref]? = some now ∧ Lapses task now := by
  cases effect with
  | log | report | write | unsubscribe | draw | display | count | bind | number =>
    exact ⟨task, found, .inl rfl⟩
  | schedule _ e body action dispatchId =>
    have inside := (List.getElem?_eq_some_iff.mp found).1
    have added : (e.addTask (e.taskOf body action dispatchId)).board.tasks[ref]? = some task :=
      (List.getElem?_append_left inside).trans found
    unfold Engine.schedule Engine.occupy
    split
    · exact ⟨task, found, .inl rfl⟩
    · split
      · have superseded := supersede_tasks (e.addTask (e.taskOf body action dispatchId))
          action.target ref
        rw [added, Option.map_some] at superseded
        exact ⟨_, superseded, cancelIf_lapses _ _ _⟩
      · exact ⟨task, added, .inl rfl⟩

/-- A task that is there after one has been scheduled was there before, or it is that one. -/
theorem task_of_schedule {e : Engine} {body : Program} {action : Action} {dispatchId : String}
    {ref : Nat} {task : Task}
    (found : (e.schedule body action dispatchId).board.tasks[ref]? = some task) :
    (∃ old, e.board.tasks[ref]? = some old ∧ Lapses old task) ∨
      Lapses (e.taskOf body action dispatchId) task := by
  -- the new task stands behind all others; superseding comes after that
  have of_added {old : Task} (lapses : Lapses old task)
      (added : (e.addTask (e.taskOf body action dispatchId)).board.tasks[ref]? = some old) :
      (∃ old, e.board.tasks[ref]? = some old ∧ Lapses old task) ∨
        Lapses (e.taskOf body action dispatchId) task := by
    simp only [addTask, enqueue, List.getElem?_append, List.getElem?_singleton] at added
    split at added
    · exact .inl ⟨old, added, lapses⟩
    · split at added
      · cases added
        exact .inr lapses
      · cases added
  unfold schedule occupy at found
  split at found
  · exact .inl ⟨task, found, .inl rfl⟩
  · split at found
    · have superseded := supersede_tasks (e.addTask (e.taskOf body action dispatchId))
        action.target ref
      obtain ⟨old, added, rfl⟩ := Option.map_eq_some_iff.mp (superseded.symm.trans found)
      exact of_added (cancelIf_lapses _ _ _) added
    · exact of_added (.inl rfl) found

/-- Tasks that are there after programs have run were there before, or they have not ended. -/
theorem Effects.origin {fires : Prop} {e after : Engine} (effects : Effects fires e after)
    {ref : Nat} {task : Task} (found : after.board.tasks[ref]? = some task) :
    (∃ old, e.board.tasks[ref]? = some old ∧ Lapses old task) ∨ task.progress.isDone = false := by
  induction effects generalizing task with
  | refl => exact .inl ⟨task, found, .inl rfl⟩
  | tail _ effect ih =>
    cases effect with
    | log | report | write | unsubscribe | draw | display | count | bind | number =>
      exact ih found
    | schedule allowed between body action dispatchId =>
      -- A task that has ended was not scheduled in this run, and none ends while programs run.
      rcases task_of_schedule found with ⟨old, was, later⟩ | new
      · rcases ih was with ⟨first, there, earlier⟩ | running
        · exact .inl ⟨first, there, earlier.trans later⟩
        · rcases later with rfl | ⟨-, rfl⟩
          · exact .inr running
          · exact .inr rfl
      · rcases new with rfl | ⟨-, rfl⟩
        · exact .inr rfl
        · exact .inr rfl

/-- Whatever programs run, a task goes on waiting or is cancelled. -/
theorem Effects.task {fires : Prop} {e after : Engine} (effects : Effects fires e after) {ref : Nat}
    {task : Task} (found : e.board.tasks[ref]? = some task) :
    ∃ now, after.board.tasks[ref]? = some now ∧ Lapses task now := by
  induction effects with
  | refl => exact ⟨task, found, .inl rfl⟩
  | tail _ effect ih =>
    obtain ⟨now, found, earlier⟩ := ih
    obtain ⟨last, found, later⟩ := effect.task found
    exact ⟨last, found, earlier.trans later⟩

/-- Each task is still there, for the same target and with its end noted or not as before. -/
def Carries (e after : Engine) : Prop :=
  ∀ (ref : Nat) (task : Task), e.board.tasks[ref]? = some task →
    ∃ now, after.board.tasks[ref]? = some now ∧ now.target = task.target ∧
      now.settled = task.settled

theorem Carries.trans {first second third : Engine} (earlier : Carries first second)
    (later : Carries second third) : Carries first third := by
  intro ref task found
  obtain ⟨now, found, target, settled⟩ := earlier ref task found
  obtain ⟨last, found, target', settled'⟩ := later ref now found
  exact ⟨last, found, target'.trans target, settled'.trans settled⟩

theorem Carries.of_same {e after : Engine} (tasks : after.board.tasks = e.board.tasks) :
    Carries e after :=
  fun _ task found => ⟨task, tasks ▸ found, rfl, rfl⟩

theorem Effects.carries {fires : Prop} {e after : Engine} (effects : Effects fires e after) :
    Carries e after := by
  intro ref task found
  obtain ⟨now, found', lapses⟩ := effects.task found
  exact ⟨now, found', lapses.target, lapses.settled⟩

theorem updateTask_carries (e : Engine) (ref : Nat) {f : Task → Task}
    (target : ∀ task, (f task).target = task.target)
    (settled : ∀ task, (f task).settled = task.settled) : Carries e (e.updateTask ref f) := by
  intro place task found
  refine ⟨changeAt ref f place task, ?_, changeAt_target target _ _ _, ?_⟩
  · rw [updateTask_tasks, found, Option.map_some]
  · unfold changeAt
    split
    · exact settled task
    · rfl

theorem finishTask_carries (e : Engine) (ref : Nat) (progress : Progress) :
    Carries e (e.finishTask ref progress) := by
  have ended := updateTask_carries e ref (f := fun task => { task with progress := progress })
    (fun _ => rfl) fun _ => rfl
  exact ended.trans (.of_same rfl)

theorem stepTask_carries (e : Engine) (ref : Nat) : Carries e (e.stepTask ref) := by
  unfold stepTask
  cases e.board.tasks[ref]? with
  | none => exact .of_same rfl
  | some task =>
    dsimp only
    cases task.progress with
    | completed | failed | cancelled => exact .of_same rfl
    | cancelling => exact finishTask_carries e ref _
    | pending =>
      -- the body runs with its own log variables, which are put back when it stops
      have started : Carries e (e.withVars task.vars) := .of_same rfl
      have ran := started.trans (run_effects task.body (e.withVars task.vars)).carries
      dsimp only
      cases out : task.body.run (e.withVars task.vars) with
      | mk stop after =>
        rw [out] at ran
        have bound := updateTask_carries after ref
          (f := fun task => { task with vars := after.shared.vars }) (fun _ => rfl) fun _ => rfl
        have kept : Carries e ((after.updateTask ref fun task =>
            { task with vars := after.shared.vars }).withVars e.shared.vars) :=
          (ran.trans bound).trans (.of_same rfl)
        cases stop with
        | done | failed | deferred => exact kept.trans (finishTask_carries _ ref _)
        | paused rest =>
          have left := updateTask_carries ((after.updateTask ref fun task =>
            { task with vars := after.shared.vars }).withVars e.shared.vars) ref
            (f := fun task => { task with body := rest }) (fun _ => rfl) fun _ => rfl
          exact (kept.trans left).trans (.of_same rfl)

/-- Each task is still there, for the same target. -/
def Targets (e after : Engine) : Prop :=
  ∀ (ref : Nat) (task : Task), e.board.tasks[ref]? = some task →
    ∃ now, after.board.tasks[ref]? = some now ∧ now.target = task.target

/-- What has been superseded stays so. -/
theorem Targets.not_latest {e after : Engine} {ref : Nat} {task now : Task}
    (targets : Targets e after) (found : e.board.tasks[ref]? = some task)
    (superseded : ¬Latest e.board.tasks ref task)
    (later : after.board.tasks[ref]? = some now) : ¬Latest after.board.tasks ref now := by
  rintro ⟨-, last⟩
  -- A later task for the target would be there now as well.
  apply superseded
  refine ⟨found, fun place other beyond there => ?_⟩
  obtain ⟨same, found', target⟩ := targets ref task found
  cases found'.symm.trans later
  obtain ⟨other', there', target'⟩ := targets place other there
  have different := last place other' beyond there'
  rwa [target, target'] at different

/-- A move keeps every task with its target. It takes note of the end of a task only where that is
its purpose. -/
theorem Moves.task {e after : Engine} (moves : Moves e after) {ref : Nat} {task : Task}
    (found : e.board.tasks[ref]? = some task) :
    ∃ now, after.board.tasks[ref]? = some now ∧ now.target = task.target ∧
      (now.settled = true → task.settled = true ∨ after = e.settleTask ref) := by
  -- All moves but one leave it open whether the end of a task has been taken note of.
  have carried (carries : Carries e after) :
      ∃ now, after.board.tasks[ref]? = some now ∧ now.target = task.target ∧
        (now.settled = true → task.settled = true ∨ after = e.settleTask ref) := by
    obtain ⟨now, found', target, settled⟩ := carries ref task found
    exact ⟨now, found', target, fun noted => .inl (settled.symm.trans noted)⟩
  cases moves with
  | run p => exact carried (run_effects p e).carries
  | dispatch rules trigger context =>
    have same : Carries e { e with page.rules := rules } := .of_same rfl
    exact carried (same.trans (dispatch_effects trigger context
      _).carries)
  | gesture w g => exact carried (performOn_effects w g e).carries
  | step ref' => exact carried (stepTask_carries e ref')
  | @settle e ref' task' found' done =>
    rw [settleTask_board found']
    refine ⟨changeAt ref' noted ref task, ?_, changeAt_target (f := noted) (fun _ => rfl) _ _ _,
      ?_⟩
    · rw [updateTask_tasks, found, Option.map_some]
    · unfold changeAt
      split
      · next here => exact fun _ => .inr (congrArg e.settleTask here)
      · exact .inl

theorem Moves.targets {e after : Engine} (moves : Moves e after) : Targets e after := by
  intro ref task found
  obtain ⟨now, found', target, -⟩ := moves.task found
  exact ⟨now, found', target⟩

/-! ## Every state that can be reached -/

/-- A step of a task that is not to go on runs nothing of it. -/
theorem stepTask_store {e : Engine} {ref : Nat} {task : Task}
    (found : e.board.tasks[ref]? = some task) (stopped : task.progress ≠ .pending) :
    (e.stepTask ref).board.store = e.board.store := by
  simp only [stepTask, found]
  cases progress : task.progress with
  | pending => exact absurd progress stopped
  | cancelling | completed | failed | cancelled => rfl

/-- What serialization comes to. -/
structure Serialized (e : Engine) : Prop where
  /-- A task that may go on was scheduled last for its target. -/
  latest : ∀ (ref : Nat) (task : Task), e.board.tasks[ref]? = some task →
    task.progress = .pending → Latest e.board.tasks ref task
  /-- So there is at most one of them for each target. -/
  alone : ∀ (ref ref' : Nat) (task task' : Task), e.board.tasks[ref]? = some task →
    e.board.tasks[ref']? = some task' → task.progress = .pending → task'.progress = .pending →
    task.target = task'.target → ref = ref'
  /-- The latest task of a target is in flight until its end has been taken note of. -/
  inFlight : ∀ ref task, Latest e.board.tasks ref task →
    Entries.get? task.target e.board.inFlight = if task.settled then none else some ref
  /-- The note of its end is what frees the target. -/
  freed : ∀ ref task, Latest e.board.tasks ref task →
    Entries.get? task.target (e.settleTask ref).board.inFlight = none
  /-- The end of another task does not change that. -/
  held : ∀ ref task, Latest e.board.tasks ref task → ∀ old, old ≠ ref →
    Entries.get? task.target (e.settleTask old).board.inFlight =
      Entries.get? task.target e.board.inFlight
  /-- A task that has been superseded does not write. -/
  silent : ∀ (ref : Nat) (task : Task), e.board.tasks[ref]? = some task →
    ¬Latest e.board.tasks ref task → (e.stepTask ref).board.store = e.board.store
  /-- What has been superseded stays so, and only its own note settles a task. -/
  lasting : ∀ after, Moves e after → ∀ (ref : Nat) (task : Task),
    e.board.tasks[ref]? = some task → ∃ now, after.board.tasks[ref]? = some now ∧
      now.target = task.target ∧
      (¬Latest e.board.tasks ref task → ¬Latest after.board.tasks ref now) ∧
      (now.settled = true → task.settled = true ∨ after = e.settleTask ref)

/-- The latest task of a target is in flight until its end has been taken note of. -/
theorem Serial.inFlight_latest {e : Engine} (serial : e.Serial) {ref : Nat} {task : Task}
    (newest : Latest e.board.tasks ref task) :
    Entries.get? task.target e.board.inFlight = if task.settled then none else some ref := by
  cases settled : task.settled with
  | false => exact (serial.inFlight _ _).mpr ⟨task, newest, rfl, settled⟩
  | true =>
    cases flying : Entries.get? task.target e.board.inFlight with
    | none => rfl
    | some ref' =>
      -- the task in flight would be the same one, whose end has been taken note of
      obtain ⟨task', newest', same, unsettled⟩ := (serial.inFlight _ _).mp flying
      cases newest.unique newest' same
      cases newest.1.symm.trans newest'.1
      rw [settled] at unsettled
      cases unsettled

theorem Serial.serialized {e : Engine} (serial : e.Serial) : e.Serialized where
  latest := serial.pending
  alone ref ref' task task' found found' pending pending' same :=
    (serial.pending ref' task' found' pending').unique (serial.pending ref task found pending) same
  inFlight ref task newest := serial.inFlight_latest newest
  freed ref task newest := by
    rw [settleTask_inFlight serial newest.1, serial.inFlight_latest newest]
    cases task.settled <;> simp
  held ref task newest old other := by
    cases found : e.board.tasks[old]? with
    | none => simp only [settleTask, found]
    | some task' =>
      rw [settleTask_inFlight serial found]
      apply if_neg
      intro flying
      obtain ⟨task', newest', same, -⟩ := (serial.inFlight _ _).mp flying
      exact other (newest.unique newest' same)
  silent ref task found superseded :=
    stepTask_store found fun pending => superseded (serial.pending ref task found pending)
  lasting after moves ref task found := by
    obtain ⟨now, found', target, settled⟩ := moves.task found
    refine ⟨now, found', target, fun superseded => ?_, settled⟩
    exact moves.targets.not_latest found superseded found'

/-- The invariant holds in every state that an idle engine can come to. -/
theorem serial_of_moves {start e : Engine} (idle : start.Idle)
    (serialize : start.board.serialize = true) (moves : ReflTransGen Moves start e) :
    e.Serial ∧ e.board.serialize = true := by
  induction moves with
  | refl => exact ⟨idle.serial, serialize⟩
  | tail _ move ih => exact move.serial ih.1 ih.2

end Engine
end Patchbay
