import Patchbay.Proofs.Page.Moves
import Patchbay.Proofs.Page.Opening

/-!
# The points of a chart

On a page whose tasks are serialized, the points that a chart has are those of the refresh that was
scheduled last for it, whenever no task is pending: `Engine.refreshes_serialized`. A refresh writes
only while it may go on, so only while it is the latest one (`Engine.Serial`). No other refresh of
the chart writes after it, and nothing else ever writes the entry of a chart (`Engine.does_entry`).
-/

namespace Patchbay.Engine

open Relation (ReflTransGen)

/-- The state of a page whose tasks are serialized. -/
structure Live (e : Engine) : Prop where
  orderly : e.Orderly
  serial : e.Serial
  serialize : e.board.serialize = true

theorem Live.move {e after : Engine} (live : e.Live) (move : PageMoves e after) : after.Live := by
  obtain ⟨serial, serialize⟩ := move.moves.serial live.serial live.serialize
  exact ⟨(move.orderly live.orderly).1, serial, serialize⟩

/-- The entries of charts are as they were. -/
def Spares (e after : Engine) : Prop :=
  ∀ (place : Nat) (w : Widget), e.declared[place]? = some w → w.type = .chart →
    after.board.store.get w.id = e.board.store.get w.id

/-- What programs do leaves the entry of a chart alone. -/
theorem Does.entry {good : Value → Prop} {e after : Engine} (does : Does good e after)
    (distinct : (e.declared.map Widget.id).Nodup) {place : Nat} {w : Widget}
    (found : e.declared[place]? = some w) (chart : w.type = .chart) :
    Entries.get? w.id after.board.store.values = Entries.get? w.id e.board.store.values := by
  cases does with
  | note same => rw [same]
  | take found' takes isGood took =>
    rw [took.values, Entries.get?_put_of_ne]
    intro same
    obtain ⟨-, rfl⟩ := same_place distinct found found' same
    exact takes.2 chart
  | start => rw [schedule_store]

/-- Only a step writes the entry of a chart. -/
theorem does_entry {good : Value → Prop} {e after : Engine}
    (does : ReflTransGen (Does good) e after) (distinct : (e.declared.map Widget.id).Nodup)
    {place : Nat} {w : Widget} (found : e.declared[place]? = some w) (chart : w.type = .chart) :
    Entries.get? w.id after.board.store.values = Entries.get? w.id e.board.store.values := by
  refine (@does_invariant good e after does (fun between =>
    Entries.get? w.id between.board.store.values = Entries.get? w.id e.board.store.values) rfl
    fun declared does same => ?_).2
  rw [← declared] at distinct found
  exact (does.entry distinct found chart).trans same

theorem does_spares {good : Value → Prop} {e after : Engine}
    (does : ReflTransGen (Does good) e after) (distinct : (e.declared.map Widget.id).Nodup) :
    Spares e after := by
  intro place w found chart
  rw [Store.get, Store.get, does_entry does distinct found chart]

/-! ## What the last refresh has written -/

/-- The entry of a chart holds what the task at `ref` has written in its last step, since which
the run has come to `e`. -/
def Written (start e : Engine) (place : Nat) (w : Widget) (ref : Nat) : Prop :=
  ∃ before, ReflTransGen PageMoves start before ∧
    ReflTransGen PageMoves (before.stepTask ref) e ∧
    (∃ task, before.board.tasks[ref]? = some task ∧ task.progress = .pending) ∧
    (∃ task, (before.stepTask ref).board.tasks[ref]? = some task ∧ task.progress = .completed) ∧
    (before.stepTask ref).board.store.get w.id = before.nextPoints place ∧
    e.board.store.get w.id = before.nextPoints place

/-- If the refresh that was scheduled last for a chart has ended, its points are there. -/
def Recorded (start e : Engine) : Prop :=
  ∀ (place : Nat) (w : Widget), e.declared[place]? = some w → w.type = .chart →
    ∀ ref task, Latest e.board.tasks ref task → task.target = w.id →
      task.progress.isDone = true → Written start e place w ref

theorem Written.move {start e after : Engine} {place : Nat} {w : Widget} {ref : Nat}
    (written : Written start e place w ref) (move : PageMoves e after)
    (same : after.board.store.get w.id = e.board.store.get w.id) :
    Written start after place w ref := by
  obtain ⟨before, reached, since, pending, completed, wrote, kept⟩ := written
  exact ⟨before, reached, since.tail move, pending, completed, wrote, same.trans kept⟩

/-- The latest tasks were so before one of them changed. -/
theorem latest_before {e after : Engine} {ref place : Nat} {f : Task → Task} {task : Task}
    (newest : Latest after.board.tasks place task)
    (tasks : after.board.tasks = e.board.tasks.modify ref f)
    (target : ∀ task, (f task).target = task.target) :
    ∃ old, Latest e.board.tasks place old ∧ old.target = task.target ∧
      changeAt ref f place old = task := by
  rw [tasks] at newest
  obtain ⟨old, was, rfl⟩ := (latest_updateTask_iff target e ref place task).mp newest
  exact ⟨old, was, (changeAt_target target ref place old).symm, rfl⟩

/-- A step of a task records its own points, and no others change. -/
theorem Recorded.step {start e : Engine} {ref : Nat} (recorded : Recorded start e) (live : e.Live)
    (reached : ReflTransGen PageMoves start e) : Recorded start (e.stepTask ref) := by
  intro place w found chart last task newest target done
  have declared : (e.stepTask ref).declared = e.declared := (stepTask_steady e ref).declared
  rw [declared] at found
  have move : PageMoves e (e.stepTask ref) := .step ref e
  -- a task that was the latest one already, and whose chart has the same points
  have as_before {old : Task} (was : Latest e.board.tasks last old) (same : old = task)
      (entry : (e.stepTask ref).board.store.get w.id = e.board.store.get w.id) :
      Written start (e.stepTask ref) place w last := by
    subst same
    exact (recorded place w found chart last old was target done).move move entry
  cases stepTask_stepped live.orderly.wired live.orderly.chores ref with
  | stays same =>
    rw [same] at newest
    exact as_before newest rfl (by rw [same])
  | ends there cancelling board =>
    obtain ⟨old, was, -, rfl⟩ := latest_before newest (congrArg Board.tasks board) fun _ => rfl
    have elsewhere : ref ≠ last := by
      rintro rfl
      cases was.1.symm.trans there
      exact (live.serial.uncancelled _ _ was).1 cancelling
    exact as_before was (if_neg elsewhere).symm (by rw [board])
  | @pauses task' _ _ there pending vars board =>
    obtain ⟨old, was, -, rfl⟩ := latest_before newest (congrArg Board.tasks board) fun _ => rfl
    have elsewhere : ref ≠ last := by
      rintro rfl
      cases was.1.symm.trans there
      rw [changeAt, if_pos rfl] at done
      simp [pending, Progress.isDone] at done
    exact as_before was (if_neg elsewhere).symm (by rw [board])
  | @renews task' place' w' there pending vars known chart' own values observers board =>
    have points : (e.stepTask ref).board.store.get w'.id = e.nextPoints place' := by
      rw [Store.get, values, Entries.get?_put_self]
      rfl
    have ended : (e.stepTask ref).board.tasks[ref]? =
        some { task' with vars := vars, progress := .completed } := by
      rw [board]
      exact (List.getElem?_modify_eq ..).trans (by rw [there]; rfl)
    obtain ⟨old, was, same, rfl⟩ := latest_before newest (congrArg Board.tasks board) fun _ => rfl
    by_cases here : ref = last
    · subst here
      cases was.1.symm.trans there
      obtain ⟨rfl, rfl⟩ := same_place live.orderly.wired.distinct known found
        (own.trans (same.trans target))
      exact ⟨e, reached, .refl, ⟨_, was.1, pending⟩, ⟨_, ended, rfl⟩, points, points⟩
    · -- the other chart has another id, as only the latest task of a target is pending
      have other : w.id ≠ w'.id := by
        intro equal
        have newest' := live.serial.pending ref task' there pending
        exact here (was.unique newest' (own.symm.trans (equal.symm.trans
          (same.trans target).symm)))
      refine as_before was (if_neg here).symm ?_
      rw [Store.get, values, Entries.get?_put_of_ne other, Store.get]

theorem Recorded.move {start e after : Engine} (recorded : Recorded start e) (live : e.Live)
    (reached : ReflTransGen PageMoves start e) (move : PageMoves e after) :
    Recorded start after := by
  have declared := (move.orderly live.orderly).2
  cases move.kinds live.orderly.wired with
  | ran begun same effects does =>
    have declared' := declared_of_board same
    have spares := does_spares does (live.orderly.wired.of_board same).distinct
    intro place w found chart ref task newest target done
    rw [declared] at found
    -- the task was the latest one before the programs ran if it was there
    have before {old : Task} (was : e.board.tasks[ref]? = some old) :
        Latest e.board.tasks ref old := by
      by_contra superseded
      exact move.moves.targets.not_latest was superseded newest.1 newest
    rcases effects.origin newest.1 with ⟨old, was, rfl | ⟨-, rfl⟩⟩ | running
    · rw [same] at was
      have entry := spares place w (by rwa [declared']) chart
      rw [same] at entry
      exact (recorded place w found chart ref task (before was) target done).move move entry
    · cases done
    · rw [running] at done
      cases done
  | stepped ref is =>
    subst is
    exact recorded.step live reached
  | noted ref' task' found' is =>
    subst is
    intro place w found chart ref task newest target done
    rw [declared] at found
    obtain ⟨old, was, same, rfl⟩ := latest_before newest (settleTask_tasks found') fun _ => rfl
    rw [changeAt_noted_progress] at done
    have written := recorded place w found chart ref old was (same.trans target) done
    exact written.move move (by rw [settleTask_board found']; rfl)

theorem Opened.live {document : Document} {start : Engine} (opened : Opened document start)
    (serialize : start.board.serialize = true) : start.Live := by
  have fresh := opened.fresh
  have idle : start.Idle := ⟨fresh.tasks, fresh.inFlight⟩
  exact ⟨fresh.orderly, idle.serial, serialize⟩

/-- All that has been scheduled on a page is recorded, in whatever order it has happened. -/
theorem Opened.recorded {document : Document} {start e : Engine} (opened : Opened document start)
    (serialize : start.board.serialize = true) (moves : ReflTransGen PageMoves start e) :
    e.Live ∧ Recorded start e := by
  induction moves with
  | refl =>
    refine ⟨opened.live serialize, fun place w found chart ref task newest => ?_⟩
    have there := newest.1
    simp [opened.fresh.tasks] at there
  | tail earlier move ih => exact ⟨ih.1.move move, ih.2.move ih.1 earlier move⟩

/-- In every state that can be reached with serialization, only the latest task of a target may go
on and write, and it is in flight until its own end is noted. So when no task of a page is pending,
each chart has the points that the latest of its refreshes has written. -/
theorem refreshes_serialized :
    (∀ start e : Engine, start.Idle → start.board.serialize = true →
      ReflTransGen Moves start e → e.Serialized) ∧
    ∀ (document : Document) (start e : Engine), Opened document start →
      start.board.serialize = true → ReflTransGen PageMoves start e →
      e.Serialized ∧
      (e.pending = [] → ∀ (place : Nat) (w : Widget), e.declared[place]? = some w →
        w.type = .chart → ∀ ref task, Latest e.board.tasks ref task → task.target = w.id →
        Written start e place w ref) := by
  constructor
  · intro start e idle serialize moves
    exact (serial_of_moves idle serialize moves).1.serialized
  · intro document start e opened serialize moves
    obtain ⟨live, recorded⟩ := opened.recorded serialize moves
    refine ⟨live.serial.serialized, fun none place w found chart ref task newest target => ?_⟩
    -- once no task is pending, the latest one of the chart has ended
    have ended : task.progress.isDone = true := by
      by_contra running
      have member : task ∈ e.pending :=
        List.mem_filter.mpr ⟨List.mem_of_getElem? newest.1, by simpa using running⟩
      simp [none] at member
    exact recorded place w found chart ref task newest target ended

/-- The sales page after two choices, of which the second has cancelled the refresh of the first,
and after the steps of both refreshes. -/
def chosenTwice : Engine :=
  let first := dispatch "region.onChange" .null sales
  let second := dispatch "region.onChange" .null first
  ((second.stepTask 1).stepTask 0).stepTask 1

theorem refreshes_serialized_sales :
    sales.Idle ∧ sales.board.serialize = true ∧ ReflTransGen Moves sales chosenTwice ∧
    Opened salesDocument sales ∧ ReflTransGen PageMoves sales chosenTwice ∧
    chosenTwice.Serialized ∧ chosenTwice.pending = [] ∧
    ∃ place w task, chosenTwice.declared[place]? = some w ∧ w.type = .chart ∧
      Latest chosenTwice.board.tasks 1 task ∧ task.target = w.id ∧
      Written sales chosenTwice place w 1 := by
  have moves : ReflTransGen PageMoves sales chosenTwice := by
    have first : ReflTransGen PageMoves sales _ := .single (.fired "region.onChange" .null sales)
    have second := first.tail (.fired "region.onChange" .null _)
    exact ((second.tail (.step 1 _)).tail (.step 0 _)).tail (.step 1 _)
  have serialize : sales.board.serialize = true := by decide +kernel
  have idle : sales.Idle := ⟨sales_opened.fresh.tasks, sales_opened.fresh.inFlight⟩
  have general : ReflTransGen Moves sales chosenTwice :=
    ReflTransGen.mono (fun _ _ move => move.moves) _ _ moves
  have ended : chosenTwice.pending = [] := List.length_eq_zero_iff.mp (by decide +kernel)
  obtain ⟨every, pages⟩ := refreshes_serialized
  obtain ⟨serialized, charts⟩ := pages salesDocument sales chosenTwice sales_opened serialize moves
  obtain ⟨w, found⟩ : ∃ w, chosenTwice.declared[2]? = some w :=
    Option.isSome_iff_exists.mp (by decide +kernel)
  obtain ⟨task, there⟩ : ∃ task, chosenTwice.board.tasks[1]? = some task :=
    Option.isSome_iff_exists.mp (by decide +kernel)
  have chart : w.type = .chart := eq_of_map found (f := Widget.type) (by decide +kernel)
  have own : w.id = "sales" := eq_of_map found (f := Widget.id) (by decide +kernel)
  have target : task.target = "sales" := eq_of_map there (f := Task.target) (by decide +kernel)
  have newest : Latest chosenTwice.board.tasks 1 task := by
    refine ⟨there, fun later other after found' => ?_⟩
    have count : chosenTwice.board.tasks.length = 2 := by decide +kernel
    have inside := (List.getElem?_eq_some_iff.mp found').1
    omega
  have same := target.trans own.symm
  have written := charts ended 2 w found chart 1 task newest same
  exact ⟨idle, serialize, general, sales_opened, moves,
    every sales chosenTwice idle serialize general, ended,
    2, w, task, found, chart, newest, same, written⟩

end Patchbay.Engine
