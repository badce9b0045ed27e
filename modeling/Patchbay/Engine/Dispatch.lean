import Patchbay.Engine.State
import Patchbay.Resolve

/-!
# Writing and dispatching

Both run programs that others have left: a write runs the observers of the id, a dispatch the
handlers of the actions. How a program is run is a parameter here; the runner itself is built on
these two. Neither stops at a fault: it is logged, and the next observer or action follows.
-/

namespace Patchbay

/-- How a program ends, or where it stops. -/
inductive Stop where
  | done (result : Value)
  | failed (fault : Fault)
  | deferred (coroutine : Bool) (body : Program)
  | paused (rest : Program)

abbrev Runner := Program → Engine → Stop × Engine

namespace Engine

/-! ## Writing -/

def logObserverFailure (e : Engine) (id : String) (fault : Fault) : Engine :=
  e.log .error "observer_failed" [("widget_id", .text id), ("error", .text fault.report)]

/-- Draws a widget anew. A failure leaves what it showed. -/
def redraw (e : Engine) (ref : Nat) : Except Fault Engine :=
  match e.board.widgets[ref]? with
  | none => .ok e
  | some w =>
    match w.render (e.board.store.get w.id) with
    | .ok view => .ok (e.updateWidget ref fun w => { w with rendered := view })
    | .error fault => .error fault

def notifyWith (run : Runner) (id : String) (value : Value) (e : Engine) (o : Observer) :
    Engine :=
  match o with
  | .view ref =>
    match e.redraw ref with
    | .ok e => e
    | .error fault => e.logObserverFailure id fault
  | .custom _ react =>
    match run (react id value) e with
    | (.failed fault, e) => e.logObserverFailure id fault
    -- What an observer leaves for later is dropped.
    | (_, e) => e

/-- Tells those who observe an id now what its value has become. -/
def announceWith (run : Runner) (id : String) (e : Engine) : Engine :=
  (e.board.store.observersOf id).foldl (notifyWith run id (e.board.store.get id)) e

def writeWith (run : Runner) (id : String) (value : Value) (e : Engine) : Engine :=
  (e.withStore (e.board.store.set id value)).announceWith run id

def writePropertyWith (run : Runner) (id name : String) (value : Value) (e : Engine) : Engine :=
  (e.withStore (e.board.store.setProperty id name value)).announceWith run id

/-! ## Background tasks -/

def actionFields (action : Action) : List (String × Value) :=
  [("target", .text action.target), ("action_type", .text action.type)]

/-- Cancels the task that is in flight for a target, unless it has ended. -/
def supersede (e : Engine) (target : String) : Engine :=
  match Entries.get? target e.board.inFlight with
  | none => e
  | some ref =>
    match e.board.tasks[ref]? with
    | none => e
    | some previous =>
      -- A task that has ended may still wait for the note of its end.
      if previous.progress.isDone then e
      else
        ((e.updateTask ref fun task => { task with progress := .cancelling }).record
          .superseded).log .debug "async_handler_superseded" [("target", .text target)]

def addTask (task : Task) (e : Engine) : Engine :=
  { e with
    board.tasks := e.board.tasks ++ [task]
    board.unsettled := e.board.unsettled ++ [e.board.tasks.length] }.enqueue
      (.step e.board.tasks.length)

/-- Has a target occupied by a task, which supersedes the one before it. Without serialization
targets are not occupied. -/
def occupy (target : String) (ref : Nat) (e : Engine) : Engine :=
  if e.board.serialize then
    let e := e.supersede target
    { e with board.inFlight := Entries.put target ref e.board.inFlight }
  else e

/-- The task that the rest of an action becomes. -/
def taskOf (body : Program) (action : Action) (dispatchId : String) (e : Engine) : Task :=
  ⟨action.target, action.type, dispatchId, e.shared.vars, body, .pending, false⟩

/-- Schedules the rest of an action as a task, if an event loop is running. -/
def schedule (body : Program) (action : Action) (dispatchId : String) (e : Engine) : Engine :=
  if !e.shared.loop then
    (e.record .noLoop).log .warning "async_handler_without_loop" (actionFields action)
  else
    ((e.addTask (e.taskOf body action dispatchId)).occupy action.target
      e.board.tasks.length).record .scheduled

/-! ## Dispatching -/

/-- Takes note of tokens that stood for nothing. -/
def noteUnresolved (e : Engine) (tokens : List String) : Engine :=
  tokens.foldl (fun e token =>
    { e with shared.counters.unresolved := e.shared.counters.unresolved + 1 }.log .debug
      "unresolved_reference" [("token", .text token)]) e

def resolve (value context : Value) (e : Engine) : Except Fault Value × Engine :=
  let resolved := Scope.resolve ⟨context, e.board.store.values⟩ value
  (resolved.outcome, e.noteUnresolved resolved.unresolved)

def logActionFailure (e : Engine) (event : String) (action : Action) (fault : Fault) : Engine :=
  e.log .error event (actionFields action ++ [("error", .text fault.report)])

/-- Takes note of what the call of a handler has come to. What it leaves behind is scheduled. -/
def conclude (dispatchId : String) (action : Action) (e : Engine) : Stop → Engine
  | .failed fault => (e.record .handlerError).logActionFailure "handler_failed" action fault
  | .done _ => e.record .ok
  | .deferred _ body => e.schedule body action dispatchId
  | .paused rest => e.schedule rest action dispatchId

/-- Carries out an action whose arguments have been resolved: looks up its handler and calls it. -/
def carryOutWith (run : Runner) (dispatchId : String) (action : Action) (e : Engine) :
    Except Fault (Entries String Value) → Engine
  | .error fault => (e.record .resolutionError).logActionFailure "resolution_failed" action fault
  | .ok args =>
    match e.board.registry.lookup action.target action.type with
    | none => (e.record .missingHandler).log .warning "handler_missing" (actionFields action)
    | some r =>
      let (stop, e) := run (r.handler.call (.record args)) e
      e.conclude dispatchId action stop

def runActionWith (run : Runner) (context : Value) (dispatchId : String) (e : Engine)
    (action : Action) : Engine :=
  let resolved := Scope.resolveAll ⟨context, e.board.store.values⟩ action.args
  (e.noteUnresolved resolved.unresolved).carryOutWith run dispatchId action resolved.outcome

def matching (rules : List Rule) (trigger : String) : List Rule :=
  rules.filter fun rule => rule.trigger == trigger

def actionsOn (e : Engine) (trigger : String) : List Action :=
  (matching e.page.rules trigger).flatMap Rule.actions

def nextDispatchId (e : Engine) : String :=
  DispatchId.ofNat e.shared.nextId

/-- Binds the trigger and the id of a dispatch around log lines. -/
def bindDispatch (e : Engine) (trigger : String) : Log.Binder × Log.Vars :=
  Log.Binder.enter
    ⟨[("dispatch_id", .text e.nextDispatchId), ("trigger", .text trigger)], []⟩ e.shared.vars

/-- Begins a dispatch: takes its id and logs whether some rule waits for the trigger. -/
def beginDispatch (e : Engine) (trigger : String) : Engine :=
  let rules := matching e.page.rules trigger
  let begun := { e with shared.nextId := e.shared.nextId + 1 }.withVars (e.bindDispatch trigger).2
  if rules.isEmpty then begun.log .debug "no_matching_rules" []
  else begun.log .debug "dispatch_started" [("rules", .int rules.length)]

/-- Ends a dispatch that began in `start`: counts it and unbinds what it has bound. -/
def endDispatch (start : Engine) (trigger : String) (e : Engine) : Engine :=
  let rules := matching start.page.rules trigger
  let e := { e with shared.counters := e.shared.counters.recordDispatch rules.length }
  e.withVars ((start.bindDispatch trigger).1.exit e.shared.vars)

/-- Fires a trigger: runs the actions of the matching rules, rule by rule. Meanwhile the trigger
and a fresh id are bound around log lines. -/
def dispatchWith (run : Runner) (trigger : String) (context : Value) (e : Engine) : Engine :=
  endDispatch e trigger
    ((e.actionsOn trigger).foldl (runActionWith run context e.nextDispatchId)
      (e.beginDispatch trigger))

end Engine
end Patchbay
