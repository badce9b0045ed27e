import Patchbay.Engine.Execution

/-!
# The event loop

Tasks take turns in a queue. A task runs up to its next pause and then queues again; when it has
ended, its end is taken note of in a turn of its own. A round runs the turns that are in the queue
when it begins.
-/

namespace Patchbay

/-- Rounds of turns over any state that has a queue. -/
structure EventLoop (σ : Type) where
  queue : σ → List Ready
  clear : σ → σ
  run : Ready → σ → σ

namespace EventLoop

/-- Runs the turns that are in the queue now. -/
def tick {σ : Type} (l : EventLoop σ) (s : σ) : σ :=
  (l.queue s).foldl (fun s r => l.run r s) (l.clear s)

/-- Runs rounds until the queue is empty, at most so many. -/
def drain {σ : Type} (l : EventLoop σ) : Nat → σ → σ
  | 0, s => s
  | fuel + 1, s => if (l.queue s).isEmpty then s else l.drain fuel (l.tick s)

/-- The most rounds that are run without a pause of the loop. -/
def roundLimit : Nat := 100000

def settle {σ : Type} (l : EventLoop σ) (s : σ) : σ :=
  l.drain roundLimit s

end EventLoop

namespace Engine

def finishTask (e : Engine) (ref : Nat) (progress : Progress) : Engine :=
  (e.updateTask ref fun task => { task with progress := progress }).enqueue (.settle ref)

/-- Runs a task to its next pause or its end, under its own log variables. -/
def stepTask (e : Engine) (ref : Nat) : Engine :=
  match e.board.tasks[ref]? with
  | none => e
  | some task =>
    match task.progress with
    | .pending =>
      let outer := e.shared.vars
      let (stop, e) := task.body.run (e.withVars task.vars)
      -- What the body has bound stays with the task.
      let e := (e.updateTask ref fun task => { task with vars := e.shared.vars }).withVars outer
      match stop with
      | .failed fault => e.finishTask ref (.failed fault)
      | .paused rest =>
        (e.updateTask ref fun task => { task with body := rest }).enqueue (.step ref)
      -- A body that leaves another one behind has ended all the same.
      | _ => e.finishTask ref .completed
    | .cancelling => e.finishTask ref .cancelled
    | _ => e

/-- Takes note of the end of a task: the target has it in flight no longer, and a failure is
logged. -/
def settleTask (e : Engine) (ref : Nat) : Engine :=
  match e.board.tasks[ref]? with
  | none => e
  | some task =>
    let e := e.updateTask ref fun task => { task with settled := true }
    let e := { e with board.unsettled := e.board.unsettled.erase ref }
    -- A newer task of the target keeps its place.
    let e := if Entries.get? task.target e.board.inFlight = some ref then
        { e with board.inFlight := Entries.erase task.target e.board.inFlight }
      else e
    match task.progress with
    | .failed fault =>
      let outer := e.shared.vars
      (((e.record .asyncError).withVars task.vars).log .error "async_handler_failed"
        [("dispatch_id", .text task.dispatchId), ("target", .text task.target),
          ("action_type", .text task.action), ("error", .text fault.report)]).withVars outer
    | _ => e

def turn (e : Engine) : Turn → Engine
  | .step ref => e.stepTask ref
  | .settle ref => e.settleTask ref

def eventLoop : EventLoop Engine where
  queue e := e.shared.queue
  clear e := { e with shared.queue := [] }
  run r e := e.turn r.turn

/-! ## Waiting -/

/-- Requests the cancellation of a task, unless it has ended. -/
def cancelTask (e : Engine) (ref : Nat) : Engine :=
  if e.isDone ref then e
  else e.updateTask ref fun task => { task with progress := .cancelling }

/-- Someone who waits until no task is left. -/
inductive Waiter where
  /-- Waits for the tasks that had not ended when it looked last. -/
  | gathering (tasks : List Nat)
  | finished

/-- Waits for the tasks that have not ended now, if there are any. -/
def gather (e : Engine) : Waiter :=
  if e.pendingTasks.isEmpty then .finished else .gathering e.pendingTasks

/-- Looks again once all tasks that were waited for have ended; there may be new ones. -/
def Waiter.resume (e : Engine) : Waiter → Waiter
  | .gathering tasks => if tasks.all e.isDone then e.gather else .gathering tasks
  | .finished => .finished

end Engine
end Patchbay
