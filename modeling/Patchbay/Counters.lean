/-!
# Counters

How often things have happened since the program started.
-/

namespace Patchbay

/-- What became of an action. The last two befall an action that had been scheduled before. -/
inductive Outcome where
  | ok
  | scheduled
  | missingHandler
  | handlerError
  | noLoop
  | resolutionError
  | superseded
  | asyncError
  deriving DecidableEq, Repr

def Outcome.name : Outcome → String
  | .ok => "ok"
  | .scheduled => "scheduled"
  | .missingHandler => "missing_handler"
  | .handlerError => "handler_error"
  | .noLoop => "no_loop"
  | .resolutionError => "resolution_error"
  | .superseded => "superseded"
  | .asyncError => "async_error"

structure Counters where
  /-- Dispatches of triggers that some rule waits for. -/
  matched : Nat := 0
  /-- Dispatches of triggers that no rule waits for. -/
  unmatched : Nat := 0
  ok : Nat := 0
  scheduled : Nat := 0
  missingHandler : Nat := 0
  handlerError : Nat := 0
  noLoop : Nat := 0
  resolutionError : Nat := 0
  superseded : Nat := 0
  asyncError : Nat := 0
  /-- Tokens that stood for nothing. -/
  unresolved : Nat := 0
  compiled : Nat := 0
  dead : Nat := 0
  deriving DecidableEq, Repr

namespace Counters

def count (c : Counters) : Outcome → Nat
  | .ok => c.ok
  | .scheduled => c.scheduled
  | .missingHandler => c.missingHandler
  | .handlerError => c.handlerError
  | .noLoop => c.noLoop
  | .resolutionError => c.resolutionError
  | .superseded => c.superseded
  | .asyncError => c.asyncError

def record (c : Counters) : Outcome → Counters
  | .ok => { c with ok := c.ok + 1 }
  | .scheduled => { c with scheduled := c.scheduled + 1 }
  | .missingHandler => { c with missingHandler := c.missingHandler + 1 }
  | .handlerError => { c with handlerError := c.handlerError + 1 }
  | .noLoop => { c with noLoop := c.noLoop + 1 }
  | .resolutionError => { c with resolutionError := c.resolutionError + 1 }
  | .superseded => { c with superseded := c.superseded + 1 }
  | .asyncError => { c with asyncError := c.asyncError + 1 }

/-- Records a dispatch by the number of rules that it matched. -/
def recordDispatch (c : Counters) (rules : Nat) : Counters :=
  if rules = 0 then { c with unmatched := c.unmatched + 1 }
  else { c with matched := c.matched + 1 }

def recordCompiled (c : Counters) (rules dead : Nat) : Counters :=
  { c with compiled := c.compiled + rules, dead := c.dead + dead }

/-- All counters by name. Each dispatch is timed once, so that the number of timings is that of
the dispatches. -/
def toList (c : Counters) : List (String × Nat) :=
  [("dispatches_total:yes", c.matched), ("dispatches_total:no", c.unmatched),
    ("dispatch_duration_seconds_count", c.matched + c.unmatched)] ++
  ([Outcome.ok, .scheduled, .missingHandler, .handlerError, .noLoop, .resolutionError,
    .superseded, .asyncError].map fun o => (s!"actions_total:{o.name}", c.count o)) ++
  [("unresolved_references_total", c.unresolved), ("rules_compiled_total", c.compiled),
    ("dead_rules_total", c.dead)]

/-- What the counters have risen by since they stood as before, without those that have not. -/
def since (c before : Counters) : List (String × Nat) :=
  (c.toList.zip before.toList).filterMap fun pair =>
    let rise := pair.1.2 - pair.2.2
    if rise = 0 then none else some (pair.1.1, rise)

/-- Recording an outcome raises its own count by one and no other. -/
theorem count_record (c : Counters) (recorded o : Outcome) :
    (c.record recorded).count o = c.count o + if recorded = o then 1 else 0 := by
  cases recorded <;> cases o <;> rfl

/-- Recording a dispatch raises no count of an outcome. -/
theorem count_recordDispatch (c : Counters) (rules : Nat) (o : Outcome) :
    (c.recordDispatch rules).count o = c.count o := by
  unfold recordDispatch
  split <;> cases o <;> rfl

end Counters
end Patchbay
