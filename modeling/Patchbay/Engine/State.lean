import Patchbay.Counters
import Patchbay.DispatchId
import Patchbay.Registry
import Patchbay.Widget

/-!
# The state of the engine

What all pages share (log, counters, the queue of the event loop), what the pages on one board
share (store, registry, widgets, background tasks), and what a page has of its own (its rules and
the names of its widgets).
-/

namespace Patchbay

inductive Progress where
  | pending
  /-- It is to end at its next step, without running anything further. -/
  | cancelling
  | completed
  | failed (fault : Fault)
  | cancelled

def Progress.isDone : Progress → Bool
  | .pending => false
  | .cancelling => false
  | _ => true

/-- A background task: the body of a handler that goes on after its dispatch. -/
structure Task where
  target : String
  action : String
  dispatchId : String
  /-- The log variables bound where it was scheduled; it keeps them. -/
  vars : Log.Vars
  body : Program
  progress : Progress := .pending
  /-- Whether its end has been taken note of. -/
  settled : Bool := false

/-- What waits in the queue of the event loop: the next step of a task, or the note of its end. -/
inductive Turn where
  | step (task : Nat)
  | settle (task : Nat)
  deriving DecidableEq, Repr

structure Ready where
  board : Nat
  turn : Turn
  deriving DecidableEq, Repr

/-- What all pages of a program share. -/
structure Shared where
  vars : Log.Vars := []
  /-- The log, the last line first. -/
  lines : List Log.Line := []
  /-- What programs told the host, the last first. -/
  reports : List Value := []
  counters : Counters := {}
  loop : Bool
  queue : List Ready := []
  nextId : Nat := 0
  /-- The random numbers of charts, by chart and count. -/
  random : Nat → Nat → Binary64

/-- What the pages on one board share. -/
structure Board where
  index : Nat := 0
  store : Store := {}
  registry : Registry := {}
  widgets : List Widget := []
  handles : Entries String Subscription := []
  tasks : List Task := []
  /-- The tasks whose end has not been taken note of. -/
  unsettled : List Nat := []
  /-- The task scheduled last for each target, until its end is taken note of. -/
  inFlight : Entries String Nat := []
  /-- Whether only the latest task of a target may go on. -/
  serialize : Bool

structure Page where
  rules : List Rule := []
  /-- Its widgets by id, as places among the widgets of the board. -/
  widgets : Entries String Nat := []

structure Engine where
  shared : Shared
  board : Board
  page : Page

namespace Engine

def log (e : Engine) (level : Log.Level) (event : String) (fields : List (String × Value)) :
    Engine :=
  { e with shared.lines := ⟨level, event, fields, e.shared.vars⟩ :: e.shared.lines }

def report (e : Engine) (what : Value) : Engine :=
  { e with shared.reports := what :: e.shared.reports }

def record (e : Engine) (outcome : Outcome) : Engine :=
  { e with shared.counters := e.shared.counters.record outcome }

def withVars (e : Engine) (vars : Log.Vars) : Engine :=
  { e with shared.vars := vars }

def withStore (e : Engine) (store : Store) : Engine :=
  { e with board.store := store }

def enqueue (e : Engine) (turn : Turn) : Engine :=
  { e with shared.queue := e.shared.queue ++ [⟨e.board.index, turn⟩] }

def updateWidget (e : Engine) (ref : Nat) (f : Widget → Widget) : Engine :=
  { e with board.widgets := e.board.widgets.modify ref f }

def updateTask (e : Engine) (task : Nat) (f : Task → Task) : Engine :=
  { e with board.tasks := e.board.tasks.modify task f }

def pending (e : Engine) : List Task :=
  e.board.tasks.filter fun task => !task.progress.isDone

/-- Whether a task has ended, be it noted or not. -/
def isDone (e : Engine) (ref : Nat) : Bool :=
  (e.board.tasks[ref]?).all fun task => task.progress.isDone

/-- The tasks that have not ended, among those whose end has not been taken note of. -/
def pendingTasks (e : Engine) : List Nat :=
  e.board.unsettled.filter fun ref => !e.isDone ref

end Engine
end Patchbay
