import Patchbay.Proofs.Page.Charts
import Patchbay.Proofs.Page.Deeds
import Patchbay.Proofs.Page.Faultless

/-!
# The end of what waits in the background

A refresh takes two steps at most, and the next step of each task that has not ended waits in the
queue. So two rounds of the event loop end all tasks that there are, and none is added
(`Engine.settle_ends`). Then a chart has its points exactly if a task was scheduled for it, and no
other entry has changed (`Engine.Primed.settled`).
-/

namespace Patchbay

open Relation (ReflTransGen)

/-- A task ends within some steps: it has ended, it is not to go on or has paused, or it is any
task of a page. -/
def Task.Due (task : Task) : Nat → Prop
  | 0 => task.progress.isDone = true
  | 1 => task.progress = .pending → ∃ place w, task.body = Engine.renewal place w
  | _ + 2 => True

theorem Task.Due.of_done {task : Task} (done : task.progress.isDone = true) :
    ∀ n, task.Due n
  | 0 => done
  | 1 => fun pending => by
    rw [pending] at done
    cases done
  | _ + 2 => trivial

theorem Task.Due.succ {task : Task} {n : Nat} (due : task.Due n) : task.Due (n + 1) := by
  match n, due with
  | 0, done => exact .of_done done 1
  | _ + 1, _ => trivial

theorem Task.Due.of_same {task now : Task} {n : Nat} (due : task.Due n)
    (progress : now.progress = task.progress) (body : now.body = task.body) : now.Due n := by
  match n, due with
  | 0, done =>
    rw [Due, progress]
    exact done
  | 1, renews =>
    rw [Due, progress, body]
    exact renews
  | _ + 2, _ => trivial

namespace Engine

/-! ## What waits in the queue -/

/-- A step of a task waits among some turns. -/
def Waits (ref : Nat) (turns : List Patchbay.Ready) : Prop :=
  ∃ r ∈ turns, r.turn = .step ref

theorem Waits.append {ref : Nat} {turns : List Patchbay.Ready} (waits : Waits ref turns)
    (more : List Patchbay.Ready) : Waits ref (turns ++ more) := by
  obtain ⟨r, member, step⟩ := waits
  exact ⟨r, List.mem_append_left _ member, step⟩

theorem Waits.of_cons {ref : Nat} {r : Patchbay.Ready} {rest : List Patchbay.Ready}
    (waits : Waits ref (r :: rest)) (other : r.turn ≠ .step ref) : Waits ref rest := by
  obtain ⟨r', member, step⟩ := waits
  rcases List.mem_cons.mp member with rfl | later
  · exact absurd step other
  · exact ⟨r', later, step⟩

/-- The next step of every task that has not ended waits in the queue. -/
def Queued (e : Engine) : Prop :=
  ∀ (ref : Nat) (task : Task), e.board.tasks[ref]? = some task → task.progress.isDone = false →
    Waits ref e.shared.queue

theorem Queued.of_same {e after : Engine} (queued : e.Queued)
    (tasks : after.board.tasks = e.board.tasks) (queue : after.shared.queue = e.shared.queue) :
    after.Queued := by
  intro ref task found
  rw [tasks] at found
  rw [queue]
  exact queued ref task found

/-- What the tasks are for, in the order in which they were scheduled. -/
def targets (e : Engine) : List String :=
  e.board.tasks.map Task.target

theorem mem_targets {e : Engine} {id : String} : id ∈ e.targets ↔
    ∃ (ref : Nat) (task : Task), e.board.tasks[ref]? = some task ∧ task.target = id := by
  unfold targets
  rw [List.mem_map]
  constructor
  · rintro ⟨task, member, own⟩
    obtain ⟨ref, found⟩ := List.mem_iff_getElem?.mp member
    exact ⟨ref, task, found, own⟩
  · rintro ⟨ref, task, found, own⟩
    exact ⟨task, List.mem_of_getElem? found, own⟩

theorem updateTask_targets (e : Engine) (ref : Nat) {f : Task → Task}
    (target : ∀ task, (f task).target = task.target) :
    (e.updateTask ref f).targets = e.targets := by
  refine List.ext_getElem? fun place => ?_
  simp only [targets, List.getElem?_map, updateTask_tasks, Option.map_map]
  congr 1
  funext task
  exact changeAt_target target ref place task

theorem targets_of_tasks {e after : Engine} (tasks : after.board.tasks = e.board.tasks) :
    after.targets = e.targets :=
  congrArg (List.map Task.target) tasks

theorem occupy_targets (e : Engine) (target : String) (ref : Nat) :
    (e.occupy target ref).targets = e.targets := by
  unfold occupy
  split
  · rcases supersede_cases e target with same | ⟨old, -, same⟩
    · rw [same]
      rfl
    · rw [same]
      exact updateTask_targets e old fun _ => rfl
  · rfl

theorem schedule_targets {e : Engine} (loop : e.shared.loop = true) (body : Program)
    (action : Action) (id : String) :
    (e.schedule body action id).targets = e.targets ++ [action.target] := by
  simp only [schedule, loop, Bool.not_true, Bool.false_eq_true, ↓reduceIte]
  refine (occupy_targets _ action.target _).trans ?_
  simp [targets, addTask, enqueue, taskOf]

theorem occupy_queue (e : Engine) (target : String) (ref : Nat) :
    (e.occupy target ref).shared.queue = e.shared.queue := by
  unfold occupy
  split
  · rcases supersede_cases e target with same | ⟨old, -, same⟩
    · rw [same]
    · rw [same]
      rfl
  · rfl

/-- What is scheduled is put into the queue. -/
theorem Effect.queued {fires : Prop} {e after : Engine} (effect : Effect fires e after)
    (queued : e.Queued) : after.Queued := by
  cases effect with
  | log | report | write | unsubscribe | draw | display | count | bind | number =>
    exact queued.of_same rfl rfl
  | schedule allowed e body action id =>
    intro ref task found running
    cases loop : e.shared.loop with
    | false =>
      have tasks : (e.schedule body action id).board.tasks = e.board.tasks := by
        simp [Engine.schedule, loop, record, Engine.log]
      have queue : (e.schedule body action id).shared.queue = e.shared.queue := by
        simp [Engine.schedule, loop, record, Engine.log]
      rw [tasks] at found
      rw [queue]
      exact queued ref task found running
    | true =>
      have queue : (e.schedule body action id).shared.queue =
          e.shared.queue ++ [⟨e.board.index, .step e.board.tasks.length⟩] := by
        simp [Engine.schedule, loop, record, occupy_queue, addTask, enqueue]
      rw [queue]
      rcases Nat.lt_or_ge ref e.board.tasks.length with before | new
      · -- an old task has not ended now, so it had not before
        have was := List.getElem?_eq_getElem before
        obtain ⟨now, there, lapses⟩ := (Effect.schedule allowed e body action id).task was
        cases there.symm.trans found
        refine (queued ref _ was ?_).append _
        rwa [← isDone_of_lapses lapses]
      · have bound := (List.getElem?_eq_some_iff.mp found).1
        have here : ref = e.board.tasks.length := by
          have length := congrArg List.length (schedule_targets loop body action id)
          simp only [targets, List.length_map, List.length_append, List.length_singleton] at length
          omega
        subst here
        exact ⟨_, List.mem_append_right _ List.mem_cons_self, rfl⟩

theorem Effects.queued {fires : Prop} {e after : Engine} (effects : Effects fires e after)
    (queued : e.Queued) : after.Queued := by
  induction effects with
  | refl => exact queued
  | tail _ effect ih => exact effect.queued ih

/-! ## Turns -/

theorem Stepped.queue {e after : Engine} {ref : Nat} (stepped : Stepped e ref after) :
    ∃ more, after.shared.queue = e.shared.queue ++ more := by
  cases stepped with
  | stays same => exact ⟨[], by rw [same, List.append_nil]⟩
  | ends _ _ _ queue | renews _ _ _ _ _ _ _ _ _ _ queue =>
    obtain ⟨r, grown⟩ := queue
    exact ⟨[r], grown⟩
  | pauses _ _ _ _ _ _ _ _ queue =>
    obtain ⟨r, -, grown⟩ := queue
    exact ⟨[r], grown⟩

/-- A step changes no task but the one that is stepped. -/
theorem Stepped.elsewhere {e after : Engine} {ref place : Nat} (stepped : Stepped e ref after)
    (other : ref ≠ place) : after.board.tasks[place]? = e.board.tasks[place]? := by
  cases stepped with
  | stays same => rw [same]
  | ends _ _ board | pauses _ _ _ board | renews _ _ _ _ _ _ _ _ board =>
    rw [board]
    exact List.getElem?_modify_ne _ _ other

/-- A task that is stepped is one step nearer to its end, and its next step waits behind all
others. -/
theorem Stepped.due {e after : Engine} {ref n : Nat} (stepped : Stepped e ref after)
    (due : ∀ task, e.board.tasks[ref]? = some task → task.Due (n + 1)) (task : Task)
    (found : after.board.tasks[ref]? = some task) :
    task.Due n ∧ (task.progress.isDone = false → Waits ref after.shared.queue) := by
  have ended {now : Task} (done : now.progress.isDone = true) (same : now = task) :
      task.Due n ∧ (task.progress.isDone = false → Waits ref after.shared.queue) := by
    subst same
    refine ⟨.of_done done n, fun running => ?_⟩
    rw [done] at running
    cases running
  have changed {f : Task → Task} {old : Task} (was : e.board.tasks[ref]? = some old)
      (tasks : after.board.tasks = e.board.tasks.modify ref f) : f old = task := by
    rw [tasks, List.getElem?_modify_eq, was] at found
    exact Option.some.inj found
  cases stepped with
  | stays same done =>
    rw [same] at found
    exact ended (done task found) rfl
  | ends was _ board =>
    have same := changed was (congrArg Board.tasks board)
    exact ended rfl same
  | @pauses old place w was pending vars board _ _ _ begins queue =>
    have same := changed was (congrArg Board.tasks board)
    subst same
    obtain ⟨r, step, grown⟩ := queue
    refine ⟨?_, fun _ => ⟨r, by rw [grown]; exact List.mem_append_right _ List.mem_cons_self, step⟩⟩
    match n, due old was with
    | 0, renewed =>
      -- a refresh that has not begun is not to end in one step
      obtain ⟨args, body⟩ := begins
      obtain ⟨place', w', body'⟩ := renewed pending
      cases body.symm.trans body'
    | 1, _ => exact fun _ => ⟨place, w, rfl⟩
    | _ + 2, _ => trivial
  | renews was _ _ _ _ _ _ _ board =>
    have same := changed was (congrArg Board.tasks board)
    exact ended rfl same

theorem settleTask_queue (e : Engine) (ref : Nat) :
    (e.settleTask ref).shared.queue = e.shared.queue := by
  unfold settleTask
  cases e.board.tasks[ref]? with
  | none => rfl
  | some task =>
    dsimp only
    split <;> split <;> rfl

/-- The end of a task that is not there is not noted. -/
theorem settleTask_of_none {e : Engine} {ref : Nat} (none : e.board.tasks[ref]? = none) :
    e.settleTask ref = e := by
  rw [settleTask, none]

theorem Orderly.after_turn {e : Engine} (orderly : e.Orderly) (t : Turn) :
    (e.turn t).Orderly ∧ (e.turn t).declared = e.declared := by
  cases t with
  | step ref =>
    have steady := stepTask_steady e ref
    exact ⟨orderly.after_step (stepTask_stepped orderly.wired orderly.chores ref) steady,
      steady.declared⟩
  | settle ref =>
    cases found : e.board.tasks[ref]? with
    | none =>
      rw [turn, settleTask_of_none found]
      exact ⟨orderly, rfl⟩
    | some task => exact orderly.after_note found

/-! ## Rounds -/

/-- In a round, of which some turns are left, a task ends within `n` more rounds if its turn in this
one has been or it has none, and else within one more. -/
def Underway (n : Nat) (rest : List Patchbay.Ready) (e : Engine) : Prop :=
  ∀ (ref : Nat) (task : Task), e.board.tasks[ref]? = some task →
    (task.Due n ∧ (task.progress.isDone = false → Waits ref e.shared.queue)) ∨
    (task.Due (n + 1) ∧ Waits ref rest)

theorem Underway.due {n : Nat} {rest : List Patchbay.Ready} {e : Engine}
    (underway : Underway n rest e) {ref : Nat} {task : Task}
    (found : e.board.tasks[ref]? = some task) : task.Due (n + 1) :=
  (underway ref task found).elim (fun h => h.1.succ) And.left

/-- A turn brings the task that it steps nearer to its end, and leaves the others where they are. -/
theorem Underway.next {n : Nat} {r : Patchbay.Ready} {rest : List Patchbay.Ready} {e after : Engine}
    (underway : Underway n (r :: rest) e)
    (queue : ∃ more, after.shared.queue = e.shared.queue ++ more)
    (own : ∀ ref task, r.turn = .step ref → after.board.tasks[ref]? = some task →
      task.Due n ∧ (task.progress.isDone = false → Waits ref after.shared.queue))
    (others : ∀ ref task, r.turn ≠ .step ref → after.board.tasks[ref]? = some task →
      ∃ old, e.board.tasks[ref]? = some old ∧ task.progress = old.progress ∧ task.body = old.body) :
    Underway n rest after := by
  intro ref task found
  by_cases here : r.turn = .step ref
  · exact .inl (own ref task here found)
  · obtain ⟨old, was, progress, body⟩ := others ref task here found
    rcases underway ref old was with ⟨due, waits⟩ | ⟨due, waits⟩
    · obtain ⟨more, grown⟩ := queue
      refine .inl ⟨due.of_same progress body, fun running => ?_⟩
      rw [progress] at running
      rw [grown]
      exact (waits running).append more
    · exact .inr ⟨due.of_same progress body, waits.of_cons here⟩

theorem Underway.after_turn {n : Nat} {r : Patchbay.Ready} {rest : List Patchbay.Ready} {e : Engine}
    (orderly : e.Orderly) (underway : Underway n (r :: rest) e) :
    Underway n rest (e.turn r.turn) := by
  cases whose : r.turn with
  | step ref =>
    have stepped := stepTask_stepped orderly.wired orderly.chores ref
    refine underway.next stepped.queue (fun place task own => ?_) fun place task other found => ?_
    · cases whose.symm.trans own
      exact stepped.due (fun task found => underway.due found) task
    · have elsewhere : ref ≠ place := fun same => other (by rw [whose, same])
      rw [turn, stepped.elsewhere elsewhere] at found
      exact ⟨task, found, rfl, rfl⟩
  | settle ref =>
    refine underway.next ⟨[], ?_⟩ (fun place task own => ?_) fun place task _ found => ?_
    · rw [List.append_nil]
      exact settleTask_queue e ref
    · rw [whose] at own
      cases own
    · cases there : e.board.tasks[ref]? with
      | none =>
        rw [Engine.turn, settleTask_of_none there] at found
        exact ⟨task, found, rfl, rfl⟩
      | some noted' =>
        rw [Engine.turn, settleTask_tasks there, updateTask_tasks, Option.map_eq_some_iff] at found
        obtain ⟨old, was, rfl⟩ := found
        refine ⟨old, was, ?_⟩
        unfold changeAt
        split <;> exact ⟨rfl, rfl⟩

/-- Every task ends within some rounds, and its next step waits as long as it has not ended. -/
structure Ending (n : Nat) (e : Engine) : Prop where
  queued : e.Queued
  due : ∀ (ref : Nat) (task : Task), e.board.tasks[ref]? = some task → task.Due n

theorem Underway.after_turns {n : Nat} {rest : List Patchbay.Ready} {e : Engine}
    (orderly : e.Orderly) (underway : Underway n rest e) :
    Underway n [] (rest.foldl (fun e r => e.turn r.turn) e) := by
  induction rest generalizing e with
  | nil => exact underway
  | cons r rest ih => exact ih (orderly.after_turn r.turn).1 (underway.after_turn orderly)

/-- Each round brings every task nearer to its end. -/
theorem Ending.after_tick {n : Nat} {e : Engine} (orderly : e.Orderly) (ending : Ending (n + 1) e) :
    Ending n (eventLoop.tick e) := by
  have cleared : ({ e with shared.queue := [] } : Engine).Orderly := orderly.of_board rfl
  have begun : Underway n e.shared.queue { e with shared.queue := [] } := by
    intro ref task found
    cases running : task.progress.isDone with
    | true => exact .inl ⟨.of_done running n, nofun⟩
    | false => exact .inr ⟨ending.due ref task found, ending.queued ref task found running⟩
  have ended := begun.after_turns cleared
  -- at the end of the round no turn of it is left
  have last : ∀ (ref : Nat) (task : Task), (eventLoop.tick e).board.tasks[ref]? = some task →
      task.Due n ∧ (task.progress.isDone = false → Waits ref (eventLoop.tick e).shared.queue) := by
    intro ref task found
    rcases ended ref task found with here | ⟨-, r, member, -⟩
    · exact here
    · cases member
  exact ⟨fun ref task found => (last ref task found).2,
    fun ref task found => (last ref task found).1⟩

end Engine

namespace EventLoop

variable {σ : Type} (l : EventLoop σ) {holds : σ → Prop} (clear : ∀ s, holds s → holds (l.clear s))
  (run : ∀ r s, holds s → holds (l.run r s))
include clear run

/-- What every turn preserves is preserved by a round. -/
theorem tick_invariant (s : σ) (before : holds s) : holds (l.tick s) := by
  have turns (waiting : List Ready) (s : σ) (before : holds s) :
      holds (waiting.foldl (fun s r => l.run r s) s) := by
    induction waiting generalizing s with
    | nil => exact before
    | cons r rest ih => exact ih (l.run r s) (run r s before)
  exact turns (l.queue s) (l.clear s) (clear s before)

theorem drain_invariant (fuel : Nat) (s : σ) (before : holds s) : holds (l.drain fuel s) := by
  induction fuel generalizing s with
  | zero => exact before
  | succ fuel ih =>
    unfold drain
    split
    · exact before
    · exact ih (l.tick s) (l.tick_invariant clear run s before)

theorem settle_invariant (s : σ) (before : holds s) : holds (l.settle s) :=
  l.drain_invariant clear run roundLimit s before

end EventLoop

namespace Engine

theorem Orderly.after_tick {e : Engine} (orderly : e.Orderly) : (eventLoop.tick e).Orderly :=
  eventLoop.tick_invariant (fun _ orderly => orderly.of_board rfl)
    (fun r _ orderly => (orderly.after_turn r.turn).1) e orderly

/-- Enough rounds end every task. -/
theorem Ending.drain {n fuel : Nat} (enough : n ≤ fuel) {e : Engine} (orderly : e.Orderly)
    (ending : Ending n e) (ref : Nat) (task : Task)
    (found : (eventLoop.drain fuel e).board.tasks[ref]? = some task) :
    task.progress.isDone = true := by
  induction fuel generalizing n e with
  | zero =>
    obtain rfl : n = 0 := Nat.le_zero.mp enough
    exact ending.due ref task found
  | succ fuel ih =>
    unfold EventLoop.drain at found
    split at found
    · next empty =>
      -- nobody waits, so all have ended
      by_contra running
      obtain ⟨r, member, -⟩ := ending.queued ref task found (by simpa using running)
      have none : e.shared.queue = [] := List.isEmpty_iff.mp empty
      rw [none] at member
      cases member
    · refine ih (n := n - 1) (by omega) orderly.after_tick (.after_tick orderly ?_) found
      refine ⟨ending.queued, fun ref task found => ?_⟩
      match n, ending.due ref task found with
      | 0, due => exact due.succ
      | _ + 1, due => exact due

/-- The event loop ends all refreshes of a page whose next steps wait. -/
theorem settle_ends {e : Engine} (orderly : e.Orderly) (queued : e.Queued) (ref : Nat)
    (task : Task) (found : (eventLoop.settle e).board.tasks[ref]? = some task) :
    task.progress.isDone = true := by
  have ending : Ending 2 e := ⟨queued, fun _ _ _ => trivial⟩
  exact ending.drain (by decide) orderly ref task found

/-! ## What turns do to tasks and charts -/

/-- What a turn comes to. -/
inductive Turned (e after : Engine) : Prop
  | same (board : after.board = e.board)
  /-- A task has ended without a result, or has come no further. -/
  | changed {ref : Nat} {f : Task → Task}
    (tasks : after.board.tasks = e.board.tasks.modify ref f)
    (target : ∀ task, (f task).target = task.target)
    (progress : ∀ task, e.board.tasks[ref]? = some task → (f task).progress = task.progress ∨
      (task.progress = .cancelling ∧ (f task).progress = .cancelled))
    (values : after.board.store.values = e.board.store.values)
  /-- A task has ended with new points for its chart. -/
  | renewed {ref : Nat} {f : Task → Task} {task : Task} (found : e.board.tasks[ref]? = some task)
    (tasks : after.board.tasks = e.board.tasks.modify ref f)
    (target : ∀ task, (f task).target = task.target)
    (completed : ∀ task, (f task).progress = .completed) {place : Nat} {w : Widget}
    (known : e.declared[place]? = some w) (chart : w.type = .chart) (own : w.id = task.target)
    (values : after.board.store.values =
      Entries.put w.id (e.nextPoints place) e.board.store.values)

theorem turn_turned {e : Engine} (orderly : e.Orderly) (t : Turn) : Turned e (e.turn t) := by
  cases t with
  | step ref =>
    cases stepTask_stepped orderly.wired orderly.chores ref with
    | stays same => exact .same (congrArg Engine.board same)
    | ends found cancelling board =>
      refine .changed (congrArg Board.tasks board) (fun _ => rfl) (fun task there => ?_)
        (congrArg (fun b => b.store.values) board)
      cases found.symm.trans there
      exact .inr ⟨cancelling, rfl⟩
    | pauses found _ vars board =>
      exact .changed (congrArg Board.tasks board) (fun _ => rfl) (fun _ _ => .inl rfl)
        (congrArg (fun b => b.store.values) board)
    | renews found _ vars known chart own values _ board =>
      exact .renewed found (congrArg Board.tasks board) (fun _ => rfl) (fun _ => rfl) known chart
        own values
  | settle ref =>
    cases found : e.board.tasks[ref]? with
    | none => exact .same (congrArg Engine.board (settleTask_of_none found))
    | some task =>
      exact .changed (f := noted) (settleTask_tasks found) (fun _ => rfl) (fun _ _ => .inl rfl)
        (settleTask_values found)

/-- The latest task for a target is not to be cancelled. -/
def Lasting (e : Engine) : Prop :=
  ∀ ref task, Latest e.board.tasks ref task →
    task.progress ≠ .cancelling ∧ task.progress ≠ .cancelled

theorem Lasting.updateTask {e after : Engine} (lasting : e.Lasting) {ref : Nat} {f : Task → Task}
    (tasks : after.board.tasks = e.board.tasks.modify ref f)
    (target : ∀ task, (f task).target = task.target)
    (change : ∀ task, Latest e.board.tasks ref task →
      (f task).progress ≠ .cancelling ∧ (f task).progress ≠ .cancelled) : after.Lasting := by
  intro place task newest
  obtain ⟨old, was, -, rfl⟩ := latest_before newest tasks target
  unfold changeAt
  split
  · next here =>
    subst here
    exact change old was
  · exact lasting place old was

theorem Turned.lasting {e after : Engine} (turned : Turned e after) (lasting : e.Lasting) :
    after.Lasting := by
  cases turned with
  | same board =>
    intro ref task newest
    rw [board] at newest
    exact lasting ref task newest
  | changed tasks target progress =>
    refine lasting.updateTask tasks target fun task newest => ?_
    rcases progress task newest.1 with same | ⟨cancelling, -⟩
    · rw [same]
      exact lasting _ task newest
    · exact absurd cancelling (lasting _ task newest).1
  | renewed _ tasks target completed =>
    refine lasting.updateTask tasks target fun task _ => ?_
    rw [completed]
    exact ⟨nofun, nofun⟩

theorem Turned.targets {e after : Engine} (turned : Turned e after) :
    after.targets = e.targets := by
  cases turned with
  | same board => exact targets_of_tasks (congrArg Board.tasks board)
  | @changed ref f tasks target | @renewed ref f _ _ tasks target =>
    have modified : after.targets = (e.updateTask ref f).targets := targets_of_tasks tasks
    exact modified.trans (updateTask_targets e ref target)

/-- No id is written twice in the store. -/
def Keyed (e : Engine) : Prop :=
  (Entries.keys e.board.store.values).Nodup

theorem Effects.keyed {fires : Prop} {e after : Engine} (effects : Effects fires e after)
    (keyed : e.Keyed) : after.Keyed := by
  induction effects with
  | refl => exact keyed
  | tail _ effect ih =>
    cases effect with
    | log | report | draw | display | count | bind | number | unsubscribe => exact ih
    | write => exact Entries.nodup_keys_put ih
    | schedule =>
      rw [Keyed, schedule_store]
      exact ih

theorem Turned.keyed {e after : Engine} (turned : Turned e after) (keyed : e.Keyed) :
    after.Keyed := by
  cases turned with
  | same board =>
    rw [Keyed, board]
    exact keyed
  | changed _ _ _ values =>
    rw [Keyed, values]
    exact keyed
  | renewed _ _ _ _ _ _ _ values =>
    rw [Keyed, values]
    exact Entries.nodup_keys_put keyed

/-- What a page stores has a JSON text. -/
theorem Used.encodable_snapshot {document : Document} {e : Engine} (used : Used document e)
    (keyed : e.Keyed) : e.board.store.snapshot.Encodable :=
  Value.encodable_record fun entry member =>
    used.encodable entry.1 entry.2 (Entries.get?_of_mem keyed member)

/-- Three data points. -/
def IsPoints (v : Value) : Prop :=
  ∃ a b c, v = .list [Widget.dataPoint "A" a, Widget.dataPoint "B" b, Widget.dataPoint "C" c]

/-- A chart has an entry only if a task was scheduled for it, and surely once one has ended with a
result. -/
structure Charted (e : Engine) (id : String) : Prop where
  points : ∀ v, Entries.get? id e.board.store.values = some v → IsPoints v
  drawn : ∀ (ref : Nat) (task : Task), e.board.tasks[ref]? = some task → task.target = id →
    task.progress = .completed → (Entries.get? id e.board.store.values).isSome
  asked : (Entries.get? id e.board.store.values).isSome → id ∈ e.targets

theorem Charted.updateTask {e after : Engine} {id : String} (charted : e.Charted id) {ref : Nat}
    {f : Task → Task} (tasks : after.board.tasks = e.board.tasks.modify ref f)
    (target : ∀ task, (f task).target = task.target)
    (entry : Entries.get? id after.board.store.values = Entries.get? id e.board.store.values)
    (completed : ∀ task, e.board.tasks[ref]? = some task → task.target = id →
      (f task).progress = .completed → task.progress = .completed) : after.Charted id := by
  have modified : after.targets = (e.updateTask ref f).targets := targets_of_tasks tasks
  constructor
  · rw [entry]
    exact charted.points
  · intro place task found own done
    have found' : (e.updateTask ref f).board.tasks[place]? = some task := by rwa [tasks] at found
    rw [updateTask_tasks, Option.map_eq_some_iff] at found'
    obtain ⟨old, was, rfl⟩ := found'
    rw [changeAt_target target] at own
    rw [entry]
    refine charted.drawn place old was own ?_
    unfold changeAt at done
    split at done
    · next here =>
      subst here
      exact completed old was own done
    · exact done
  · rw [entry, modified, updateTask_targets e ref target]
    exact charted.asked

theorem Turned.charted {e after : Engine} (turned : Turned e after) {id : String}
    (charted : e.Charted id) : after.Charted id := by
  have targets := turned.targets
  cases turned with
  | same board =>
    constructor
    · rw [board]
      exact charted.points
    · rw [board]
      exact charted.drawn
    · rw [board, targets]
      exact charted.asked
  | changed tasks target progress values =>
    refine charted.updateTask tasks target (by rw [values]) fun task found _ completed => ?_
    rcases progress task found with same | ⟨-, cancelled⟩
    · rwa [← same]
    · cases completed.symm.trans cancelled
  | @renewed ref f task found tasks target completed place w known chart own values =>
    by_cases here : w.id = id
    · -- the chart has just got its points
      have entry : Entries.get? id after.board.store.values = some (e.nextPoints place) := by
        rw [values, ← here, Entries.get?_put_self]
      constructor
      · intro v there
        cases entry.symm.trans there
        exact ⟨_, _, _, rfl⟩
      · intro _ _ _ _ _
        rw [entry]
        rfl
      · intro _
        rw [targets]
        exact mem_targets.mpr ⟨ref, task, found, own.symm.trans here⟩
    · refine charted.updateTask tasks target ?_ fun task' found' own' => ?_
      · rw [values, Entries.get?_put_of_ne (Ne.symm here)]
      · cases found.symm.trans found'
        exact absurd (own.trans own') here

/-! ## What the event loop leaves behind -/

/-- An id that no chart has. -/
def Uncharted (e : Engine) (id : String) : Prop :=
  ∀ w ∈ e.declared, w.type = .chart → w.id ≠ id

/-- A page as the event loop may have left it after any turn. -/
structure Settling (start e : Engine) : Prop where
  orderly : e.Orderly
  declared : e.declared = start.declared
  targets : e.targets = start.targets
  lasting : e.Lasting
  charted : ∀ w ∈ start.declared, w.type = .chart → e.Charted w.id
  others : ∀ id, start.Uncharted id →
    Entries.get? id e.board.store.values = Entries.get? id start.board.store.values

theorem Turned.others {e after : Engine} (turned : Turned e after) {id : String}
    (uncharted : e.Uncharted id) :
    Entries.get? id after.board.store.values = Entries.get? id e.board.store.values := by
  cases turned with
  | same board => rw [board]
  | changed _ _ _ values => rw [values]
  | renewed _ _ _ _ known chart own values =>
    have other := uncharted _ (List.mem_of_getElem? known) chart
    rw [values, Entries.get?_put_of_ne other.symm]

theorem Settling.after_turn {start e : Engine} (settling : Settling start e) (t : Turn) :
    Settling start (e.turn t) := by
  obtain ⟨orderly, declared⟩ := settling.orderly.after_turn t
  have turned := turn_turned settling.orderly t
  refine ⟨orderly, declared.trans settling.declared, turned.targets.trans settling.targets,
    turned.lasting settling.lasting, fun w member chart => ?_, fun id uncharted => ?_⟩
  · exact turned.charted (settling.charted w member chart)
  · have still : e.Uncharted id := by
      rw [Uncharted, settling.declared]
      exact uncharted
    exact (turned.others still).trans (settling.others id uncharted)

/-- Of the tasks for a target one was scheduled last. -/
theorem exists_latest {tasks : List Task} {id : String} (asked : id ∈ tasks.map Task.target) :
    ∃ ref task, Latest tasks ref task ∧ task.target = id := by
  induction tasks with
  | nil => cases asked
  | cons first rest ih =>
    by_cases more : id ∈ rest.map Task.target
    · obtain ⟨ref, task, ⟨found, last⟩, own⟩ := ih more
      refine ⟨ref + 1, task, ⟨found, fun later other after found' => ?_⟩, own⟩
      cases later with
      | zero => omega
      | succ later => exact last later other (by omega) found'
    · have own : first.target = id := by
        rcases List.mem_cons.mp asked with here | later
        · exact here.symm
        · exact absurd later more
      refine ⟨0, first, ⟨rfl, fun later other after found' => ?_⟩, own⟩
      cases later with
      | zero => omega
      | succ later =>
        intro same
        have member : other ∈ rest := List.mem_of_getElem? found'
        exact more (List.mem_map.mpr ⟨other, member, same.trans own⟩)

/-- A page on which refreshes wait to be run, none of which has begun. -/
structure Primed (e : Engine) : Prop where
  queued : e.Queued
  lasting : e.Lasting
  running : ∀ (ref : Nat) (task : Task), e.board.tasks[ref]? = some task →
    task.progress.isDone = false
  blank : ∀ w ∈ e.declared, w.type = .chart → Entries.get? w.id e.board.store.values = none

theorem Primed.settling {e : Engine} (primed : e.Primed) (orderly : e.Orderly) :
    Settling e e := by
  refine ⟨orderly, rfl, rfl, primed.lasting, fun w member chart => ?_, fun _ _ => rfl⟩
  have blank := primed.blank w member chart
  refine ⟨fun v found => ?_, fun ref task found _ completed => ?_, fun stored => ?_⟩
  · cases blank.symm.trans found
  · have running := primed.running ref task found
    rw [completed] at running
    cases running
  · rw [blank] at stored
    cases stored

/-- What the store holds after the event loop has run all refreshes that waited in `start`. -/
structure Settled (start e : Engine) : Prop where
  others : ∀ id, start.Uncharted id →
    Entries.get? id e.board.store.values = Entries.get? id start.board.store.values
  charts : ∀ w ∈ start.declared, w.type = .chart →
    ((Entries.get? w.id e.board.store.values).isSome ↔ w.id ∈ start.targets)
  points : ∀ w ∈ start.declared, w.type = .chart → ∀ v,
    Entries.get? w.id e.board.store.values = some v → IsPoints v

/-- The event loop draws exactly the charts that have a refresh waiting, and it writes nothing
else. -/
theorem Primed.settled {e : Engine} (primed : e.Primed) (orderly : e.Orderly)
    (unfailed : (eventLoop.settle e).Unfailed) : Settled e (eventLoop.settle e) := by
  have settling : Settling e (eventLoop.settle e) := by
    refine eventLoop.settle_invariant (fun between h => ?_) (fun r between h => h.after_turn r.turn)
      e (primed.settling orderly)
    exact ⟨h.orderly.of_board rfl, h.declared, h.targets, h.lasting, fun w member chart =>
      ⟨(h.charted w member chart).points, (h.charted w member chart).drawn,
        (h.charted w member chart).asked⟩, h.others⟩
  refine ⟨settling.others, fun w member chart => ?_,
    fun w member chart => (settling.charted w member chart).points⟩
  have charted := settling.charted w member chart
  rw [← settling.targets]
  refine ⟨charted.asked, fun asked => ?_⟩
  obtain ⟨ref, task, newest, own⟩ := exists_latest asked
  have ended := settle_ends orderly primed.queued ref task newest.1
  have lasts := settling.lasting ref task newest
  -- the latest refresh has ended, it has not failed and was not cancelled
  refine charted.drawn ref task newest.1 own ?_
  cases progress : task.progress with
  | completed => rfl
  | failed fault => exact absurd progress (unfailed ref task newest.1 fault)
  | cancelled => exact absurd progress lasts.2
  | pending | cancelling =>
    rw [progress] at ended
    cases ended

end Engine
end Patchbay
