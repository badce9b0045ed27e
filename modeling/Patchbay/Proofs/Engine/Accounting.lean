import Patchbay.Proofs.Engine.Indifference
import Patchbay.Proofs.Resolve.Filling
import Mathlib.Algebra.GroupWithZero.Nat

/-!
# What becomes of the actions of a dispatch

A dispatch processes the actions of the matching rules one after another. Each ends in one of six
ways, leaves its mark on one counter and hands its store on to the next one. An action that is
skipped, because its arguments have no text or because nobody serves it, might as well not be in
the rule table.

Main statement: `Engine.dispatch_accounts`. It rests on `runAction_processed` for one action and
on `exists_processes` for a list of them; that skipped actions go unnoticed is
`Processes.thinned`.
-/

namespace Patchbay

/-- The ways in which an action can end while it is dispatched. -/
def Outcome.immediate : List Outcome :=
  [.ok, .scheduled, .missingHandler, .handlerError, .noLoop, .resolutionError]

/-- Whether no handler has been called. -/
def Outcome.isSkip (o : Outcome) : Bool :=
  o = .missingHandler || o = .resolutionError

/-- How many actions have been processed. -/
def Counters.processed (c : Counters) : Nat :=
  (Outcome.immediate.map c.count).sum

/-- The outcome of an action by what the call of its handler comes to. A body that is left to be run
in the background needs an event loop. -/
def Stop.outcome (loop : Bool) : Stop → Outcome
  | .failed _ => .handlerError
  | .done _ => .ok
  | _ => if loop then .scheduled else .noLoop

theorem Stop.outcome_ne_resolutionError (stop : Stop) (loop : Bool) :
    stop.outcome loop ≠ .resolutionError := by
  cases stop <;> cases loop <;> simp [Stop.outcome]

namespace Engine

/-- Where the references of an action are looked up when its turn comes. -/
def scope (e : Engine) (context : Value) : Scope :=
  ⟨context, e.board.store.values⟩

/-- The engine in which the handler of an action is called: tokens that stand for nothing have
been taken note of. -/
def calling (e : Engine) (context : Value) (action : Action) : Engine :=
  e.noteUnresolved ((e.scope context).resolveAll action.args).unresolved

/-- The handler of an action is called with its arguments filled in, and the call comes to
`stop`. -/
def Called (context : Value) (e : Engine) (action : Action) (stop : Stop) (after : Engine) :
    Prop :=
  ∃ args r, Value.fillAll (e.scope context).reading action.args = .ok args ∧
    e.board.registry.lookup action.target action.type = some r ∧
    (r.handler.call (.record args)).run (e.calling context action) = (stop, after)

/-- How an action ends, and the store that it leaves. -/
inductive Ends (context : Value) (e : Engine) (action : Action) : Outcome → Store → Prop
  | unresolved (fault : Fault)
    (failed : Value.fillAll (e.scope context).reading action.args = .error fault) :
    Ends context e action .resolutionError e.board.store
  | missing (args : Entries String Value)
    (filled : Value.fillAll (e.scope context).reading action.args = .ok args)
    (unknown : e.board.registry.lookup action.target action.type = none) :
    Ends context e action .missingHandler e.board.store
  | called (stop : Stop) (after : Engine) (called : e.Called context action stop after) :
    Ends context e action (stop.outcome e.shared.loop) after.board.store

/-- No dispatch has been counted. -/
structure SameAccount (e after : Engine) : Prop where
  matched : after.shared.counters.matched = e.shared.counters.matched
  unmatched : after.shared.counters.unmatched = e.shared.counters.unmatched

/-- Some token of an argument stands for a value that has no text. -/
def Unreadable (context : Value) (e : Engine) (action : Action) : Prop :=
  ∃ arg ∈ action.args, ∃ body ∈ arg.2.tokens,
    ((e.scope context).reading (Reference.ofBody body)).HasTupleKey

/-- An action has been processed: it has ended in one way, that outcome has been counted once and
no other. -/
structure Processed (context : Value) (e : Engine) (action : Action) (outcome : Outcome)
    (after : Engine) : Prop where
  ends : e.Ends context action outcome after.board.store
  unreadable : outcome = .resolutionError ↔ e.Unreadable context action
  counted : ∀ o ∈ Outcome.immediate, after.shared.counters.count o =
    e.shared.counters.count o + if outcome = o then 1 else 0
  same : SameAccount e after

/-- Actions are processed in their order, each in the engine that the one before it left. -/
inductive Processes (context : Value) (dispatchId : String) :
    Engine → List (Action × Outcome) → Engine → Prop
  | nil (e : Engine) : Processes context dispatchId e [] e
  | cons {e last : Engine} {action : Action} {outcome : Outcome} {rest : List (Action × Outcome)}
    (first : e.Processed context action outcome
      (e.runActionWith Program.run context dispatchId action))
    (later : Processes context dispatchId (e.runActionWith Program.run context dispatchId action)
      rest last) : Processes context dispatchId e ((action, outcome) :: rest) last

/-- What is left of a list of actions when some are taken out that have been skipped. -/
inductive Thins : List (Action × Outcome) → List Action → Prop
  | nil : Thins [] []
  | keep {rest : List (Action × Outcome)} {actions : List Action} (action : Action)
    (outcome : Outcome) (others : Thins rest actions) :
    Thins ((action, outcome) :: rest) (action :: actions)
  | drop {rest : List (Action × Outcome)} {actions : List Action} {outcome : Outcome}
    (action : Action) (skipped : outcome.isSkip) (others : Thins rest actions) :
    Thins ((action, outcome) :: rest) actions

/-- Nothing that a dispatch sets off fires a trigger itself: neither a handler, nor an observer of
what it writes. -/
structure Quiet (e : Engine) : Prop where
  handlers : ∀ widget action r, e.board.registry.lookup widget action = some r →
    ∀ args, (r.handler.call args).Quiet
  observers : e.board.store.Within False

/-! ## One action -/

theorem noteUnresolved_eq (e : Engine) (tokens : List String) :
    ∃ lines unresolved, e.noteUnresolved tokens =
      { e with shared.lines := lines, shared.counters.unresolved := unresolved } := by
  unfold noteUnresolved
  induction tokens generalizing e with
  | nil => exact ⟨_, _, rfl⟩
  | cons token rest ih =>
    obtain ⟨lines, unresolved, eq⟩ := ih ({ e with
      shared.counters.unresolved := e.shared.counters.unresolved + 1 }.log .debug
        "unresolved_reference" [("token", .text token)])
    exact ⟨lines, unresolved, eq⟩

theorem supersede_sameAccount (e : Engine) (target : String) :
    SameAccount e (e.supersede target) := by
  rcases supersede_cases e target with same | ⟨ref, -, same⟩
  · rw [same]
    exact ⟨rfl, rfl⟩
  · rw [same]
    exact ⟨rfl, rfl⟩

theorem occupy_sameAccount (e : Engine) (target : String) (ref : Nat) :
    SameAccount e (e.occupy target ref) := by
  obtain ⟨matched, unmatched⟩ := supersede_sameAccount e target
  unfold occupy
  split
  · exact ⟨matched, unmatched⟩
  · exact ⟨rfl, rfl⟩

theorem schedule_sameAccount (e : Engine) (body : Program) (action : Action) (id : String) :
    SameAccount e (e.schedule body action id) := by
  unfold schedule
  split
  · exact ⟨rfl, rfl⟩
  · obtain ⟨matched, unmatched⟩ := occupy_sameAccount
      (e.addTask (e.taskOf body action id)) action.target e.board.tasks.length
    exact ⟨matched, unmatched⟩

/-- A superseded task is counted under a name of its own. -/
theorem supersede_count (e : Engine) (target : String) {o : Outcome}
    (member : o ∈ Outcome.immediate) :
    (e.supersede target).shared.counters.count o = e.shared.counters.count o := by
  rcases supersede_cases e target with same | ⟨ref, -, same⟩
  · rw [same]
  · have other : Outcome.superseded ≠ o := by
      rintro rfl
      simp [Outcome.immediate] at member
    rw [same]
    exact (Counters.count_record _ _ o).trans (by simp [other, updateTask])

theorem occupy_count (e : Engine) (target : String) (ref : Nat) {o : Outcome}
    (member : o ∈ Outcome.immediate) :
    (e.occupy target ref).shared.counters.count o = e.shared.counters.count o := by
  unfold occupy
  split
  · exact supersede_count e target member
  · rfl

theorem schedule_count (e : Engine) (body : Program) (action : Action) (id : String)
    {o : Outcome} (member : o ∈ Outcome.immediate) :
    (e.schedule body action id).shared.counters.count o = e.shared.counters.count o +
      if (if e.shared.loop then Outcome.scheduled else .noLoop) = o then 1 else 0 := by
  unfold schedule
  cases e.shared.loop with
  | false => exact Counters.count_record _ _ o
  | true => exact (Counters.count_record _ _ o).trans (congrArg (· + _) (occupy_count _ _ _ member))

/-- What the call of a handler comes to is counted once. -/
theorem conclude_count (dispatchId : String) (action : Action) (e : Engine) (stop : Stop)
    {o : Outcome} (member : o ∈ Outcome.immediate) :
    (e.conclude dispatchId action stop).shared.counters.count o = e.shared.counters.count o +
      if stop.outcome e.shared.loop = o then 1 else 0 := by
  cases stop with
  | failed fault => exact Counters.count_record _ _ o
  | done result => exact Counters.count_record _ _ o
  | deferred coroutine body => exact schedule_count e body action dispatchId member
  | paused rest => exact schedule_count e rest action dispatchId member

theorem conclude_sameAccount (dispatchId : String) (action : Action) (e : Engine) (stop : Stop) :
    SameAccount e (e.conclude dispatchId action stop) := by
  cases stop with
  | failed fault => exact ⟨rfl, rfl⟩
  | done result => exact ⟨rfl, rfl⟩
  | deferred coroutine body => exact schedule_sameAccount e body action dispatchId
  | paused rest => exact schedule_sameAccount e rest action dispatchId

theorem conclude_store (dispatchId : String) (action : Action) (e : Engine) (stop : Stop) :
    (e.conclude dispatchId action stop).board.store = e.board.store := by
  cases stop with
  | failed fault => rfl
  | done result => rfl
  | deferred coroutine body => exact schedule_store e body action dispatchId
  | paused rest => exact schedule_store e rest action dispatchId

theorem calling_eq (e : Engine) (context : Value) (action : Action) :
    ∃ lines unresolved, e.calling context action =
      { e with shared.lines := lines, shared.counters.unresolved := unresolved } :=
  e.noteUnresolved_eq _

theorem calling_count (e : Engine) (context : Value) (action : Action) (o : Outcome) :
    (e.calling context action).shared.counters.count o = e.shared.counters.count o := by
  obtain ⟨lines, unresolved, eq⟩ := e.calling_eq context action
  rw [eq]
  cases o <;> rfl

theorem Quiet.of_effects {e after : Engine} (quiet : e.Quiet) (effects : Effects True e after) :
    after.Quiet where
  handlers widget action r := by
    rw [effects.steady.registry]
    exact quiet.handlers widget action r
  observers id o member := quiet.observers id o (effects.observers id o member)

theorem calling_board (e : Engine) (context : Value) (action : Action) :
    (e.calling context action).board = e.board := by
  obtain ⟨lines, unresolved, eq⟩ := e.calling_eq context action
  rw [eq]

theorem calling_loop (e : Engine) (context : Value) (action : Action) :
    (e.calling context action).shared.loop = e.shared.loop := by
  obtain ⟨lines, unresolved, eq⟩ := e.calling_eq context action
  rw [eq]

/-- To run an action is to fill in its arguments and to carry it out with them. -/
theorem runActionWith_eq {e : Engine} {context : Value} (askable : (e.scope context).Askable)
    (dispatchId : String) (action : Action) :
    e.runActionWith Program.run context dispatchId action =
      (e.calling context action).carryOutWith Program.run dispatchId action
        (Value.fillAll (e.scope context).reading action.args) := by
  rw [← Scope.resolveAll_outcome askable]
  rfl

theorem calling_sameAccount (e : Engine) (context : Value) (action : Action) :
    SameAccount e (e.calling context action) := by
  obtain ⟨lines, unresolved, eq⟩ := e.calling_eq context action
  rw [eq]
  exact ⟨rfl, rfl⟩

theorem Keeps.sameAccount {e after : Engine} (keeps : Keeps e after) : SameAccount e after where
  matched := by rw [keeps.shared]
  unmatched := by rw [keeps.shared]

theorem SameAccount.trans {first second third : Engine} (earlier : SameAccount first second)
    (later : SameAccount second third) : SameAccount first third where
  matched := later.matched.trans earlier.matched
  unmatched := later.unmatched.trans earlier.unmatched

/-- The arguments of an action cannot be resolved exactly if one of their tokens stands for a value
without a text. -/
theorem Ends.unreadable_iff {context : Value} {e : Engine} {action : Action} {outcome : Outcome}
    {store : Store} (ends : e.Ends context action outcome store) :
    outcome = .resolutionError ↔ e.Unreadable context action := by
  -- Only the first of the three ends comes with arguments that cannot be filled.
  have failing := Value.fillAll_eq_error_iff (e.scope context).reading action.args
  unfold Unreadable
  rw [← failing]
  cases ends with
  | unresolved fault failed => exact ⟨fun _ => ⟨fault, failed⟩, fun _ => rfl⟩
  | missing args filled unknown => simp [filled]
  | called stop after called =>
    obtain ⟨args, r, filled, known, ran⟩ := called
    simp [filled, Stop.outcome_ne_resolutionError]

theorem Processed.of_ends {context : Value} {e after : Engine} {action : Action}
    {outcome : Outcome} (ends : e.Ends context action outcome after.board.store)
    (counted : ∀ o ∈ Outcome.immediate, after.shared.counters.count o =
      e.shared.counters.count o + if outcome = o then 1 else 0) (same : SameAccount e after) :
    e.Processed context action outcome after :=
  ⟨ends, ends.unreadable_iff, counted, same⟩

theorem Ends.immediate {context : Value} {e : Engine} {action : Action} {outcome : Outcome}
    {store : Store} (ends : e.Ends context action outcome store) :
    outcome ∈ Outcome.immediate := by
  cases ends with
  | unresolved => decide
  | missing => decide
  | called stop after called =>
    cases stop <;> cases e.shared.loop <;> simp [Stop.outcome, Outcome.immediate]

/-- The six counters together rise by one with each action. -/
theorem Processed.one_more {context : Value} {e after : Engine} {action : Action}
    {outcome : Outcome} (processed : e.Processed context action outcome after) :
    after.shared.counters.processed = e.shared.counters.processed + 1 := by
  have counted := processed.counted
  have member := processed.ends.immediate
  simp only [Outcome.immediate, List.mem_cons, List.not_mem_nil, or_false, forall_eq_or_imp,
    forall_eq] at counted member
  obtain ⟨ok, scheduled, missing, failed, noLoop, unresolved⟩ := counted
  simp only [Counters.processed, Outcome.immediate, List.map_cons, List.map_nil, List.sum_cons,
    List.sum_nil, ok, scheduled, missing, failed, noLoop, unresolved]
  -- Whichever outcome it is, one of the six summands is greater by one.
  rcases member with rfl | rfl | rfl | rfl | rfl | rfl <;> simp <;> omega

/-- One action ends in one way, which is counted. -/
theorem runAction_processed {e : Engine} (quiet : e.Quiet) {context : Value}
    (askable : (e.scope context).Askable) (dispatchId : String) (action : Action) :
    ∃ outcome, e.Processed context action outcome
      (e.runActionWith Program.run context dispatchId action) := by
  -- taking note of unresolved tokens comes first, and moves none of the counters in question
  have board := e.calling_board context action
  have account := e.calling_sameAccount context action
  have count (o : Outcome) := e.calling_count context action o
  rw [runActionWith_eq askable]
  cases filled : Value.fillAll (e.scope context).reading action.args with
  | error fault =>
    have store : ((e.calling context action).carryOutWith Program.run dispatchId action
        (.error fault)).board.store = e.board.store := congrArg Board.store board
    refine ⟨.resolutionError, .of_ends ?_ (fun o _ => ?_)
      (account.trans ⟨rfl, rfl⟩)⟩
    · rw [store]
      exact .unresolved fault filled
    · rw [← count]
      exact Counters.count_record _ _ o
  | ok args =>
    cases known : e.board.registry.lookup action.target action.type with
    | none =>
      have carried : (e.calling context action).carryOutWith Program.run dispatchId action
          (.ok args) = ((e.calling context action).record .missingHandler).log .warning
            "handler_missing" (actionFields action) := by
        simp only [carryOutWith, board, known]
      rw [carried]
      have store : (((e.calling context action).record .missingHandler).log .warning
          "handler_missing" (actionFields action)).board.store = e.board.store :=
        congrArg Board.store board
      refine ⟨.missingHandler, .of_ends ?_ (fun o _ => ?_)
        (account.trans ⟨rfl, rfl⟩)⟩
      · rw [store]
        exact .missing args filled known
      · rw [← count]
        exact Counters.count_record _ _ o
    | some r =>
      cases ran : (r.handler.call (.record args)).run (e.calling context action) with
      | mk stop after =>
        -- the handler itself counts nothing, as it fires no trigger
        have keeps : Keeps (e.calling context action) after := by
          have kept := run_keeps (quiet.handlers _ _ r known (.record args))
            (e := e.calling context action) (by rw [board]; exact quiet.observers)
          rwa [ran] at kept
        have called : e.Called context action stop after := ⟨args, r, filled, known, ran⟩
        have carried : (e.calling context action).carryOutWith Program.run dispatchId action
            (.ok args) = after.conclude dispatchId action stop := by
          simp only [carryOutWith, board, known, ran]
        have loop : after.shared.loop = e.shared.loop := by
          rw [keeps.shared]
          exact calling_loop e context action
        rw [carried]
        refine ⟨stop.outcome e.shared.loop, .of_ends ?_ (fun o member => ?_)
          ((account.trans keeps.sameAccount).trans (conclude_sameAccount _ _ _ _))⟩
        · rw [conclude_store]
          exact .called stop after called
        · rw [conclude_count _ _ _ _ member, loop, keeps.shared]
          exact congrArg (· + _) (count o)

/-! ## A list of actions -/

theorem SameAccount.refl (e : Engine) : SameAccount e e :=
  ⟨rfl, rfl⟩

theorem Quiet.runAction {e : Engine} (quiet : e.Quiet) (context : Value) (dispatchId : String)
    (action : Action) : (e.runActionWith Program.run context dispatchId action).Quiet :=
  quiet.of_effects (runActionWith_effects (run_chains True) trivial context dispatchId e action)

/-- Actions are all processed, whatever becomes of each of them. -/
theorem exists_processes {e : Engine} (quiet : e.Quiet) {context : Value}
    (askable : (e.scope context).Askable) (dispatchId : String) (actions : List Action) :
    ∃ outcomes, outcomes.map Prod.fst = actions ∧ Processes context dispatchId e outcomes
      (actions.foldl (runActionWith Program.run context dispatchId) e) := by
  induction actions generalizing e with
  | nil => exact ⟨[], rfl, .nil e⟩
  | cons action rest ih =>
    obtain ⟨outcome, first⟩ := runAction_processed quiet askable dispatchId action
    -- the context stays the same, so it can be asked in the next engine as well
    obtain ⟨outcomes, actions, later⟩ := ih (quiet.runAction context dispatchId action) askable
    refine ⟨(action, outcome) :: outcomes, ?_, .cons first later⟩
    rw [List.map_cons, actions]

section

variable {context : Value} {dispatchId : String} {e last : Engine}
  {outcomes : List (Action × Outcome)} (processes : Processes context dispatchId e outcomes last)
include processes

theorem Processes.same : SameAccount e last := by
  induction processes with
  | nil e => exact .refl e
  | cons first later ih => exact first.same.trans ih

/-- An outcome is counted as often as it has come about. -/
theorem Processes.counted {o : Outcome} (member : o ∈ Outcome.immediate) :
    last.shared.counters.count o =
      e.shared.counters.count o + (outcomes.map Prod.snd).count o := by
  induction processes with
  | nil => rfl
  | cons first later ih =>
    rw [ih, first.counted o member, List.map_cons, List.count_cons]
    simp only [beq_iff_eq]
    omega

theorem Processes.processed :
    last.shared.counters.processed = e.shared.counters.processed + outcomes.length := by
  induction processes with
  | nil => rfl
  | cons first later ih =>
    rw [ih, first.one_more, List.length_cons]
    omega

end

/-! ## Skipped actions go unnoticed -/

theorem Quiet.alike {e other : Engine} (quiet : e.Quiet) (alike : Alike e other) :
    other.Quiet where
  handlers := by rw [alike.board]; exact quiet.handlers
  observers := by rw [alike.board]; exact quiet.observers

section

variable {e other : Engine} (alike : Alike e other)
include alike

theorem scope_alike (context : Value) : other.scope context = e.scope context := by
  simp only [scope, alike.board]

theorem calling_alike (context : Value) (action : Action) :
    Alike (e.calling context action) (other.calling context action) :=
  (noteUnresolved_alike e _).symm.trans (alike.trans (noteUnresolved_alike other _))

theorem calling_run_alike (context : Value) (quiet : e.Quiet) (action : Action) {r : Registration}
    (known : e.board.registry.lookup action.target action.type = some r)
    (args : Entries String Value) :
    ((r.handler.call (.record args)).run (other.calling context action)).1 =
        ((r.handler.call (.record args)).run (e.calling context action)).1 ∧
      Alike ((r.handler.call (.record args)).run (e.calling context action)).2
        ((r.handler.call (.record args)).run (other.calling context action)).2 := by
  -- The handler is quiet, and so are the observers of what it writes.
  have within : (e.calling context action).board.store.Within False := by
    rw [calling_board]
    exact quiet.observers
  have calling := calling_alike alike context action
  exact run_indifferent _ _ _ (quiet.handlers _ _ r known _) within calling

/-- An action does the same in engines that are alike. -/
theorem runAction_alike (quiet : e.Quiet) {context : Value} (askable : (e.scope context).Askable)
    (dispatchId : String) (action : Action) :
    Alike (e.runActionWith Program.run context dispatchId action)
      (other.runActionWith Program.run context dispatchId action) := by
  have calling := calling_alike alike context action
  -- both look up the same arguments and the same handler
  rw [runActionWith_eq askable, runActionWith_eq (e := other) askable, scope_alike alike context]
  cases Value.fillAll (e.scope context).reading action.args with
  | error fault =>
    exact calling.map (f := fun e => (e.record .resolutionError).logActionFailure
      "resolution_failed" action fault) fun _ _ _ _ => ⟨_, _, _, rfl⟩
  | ok args =>
    simp only [carryOutWith, calling_board, alike.board]
    cases known : e.board.registry.lookup action.target action.type with
    | none =>
      exact calling.map (f := fun e => (e.record .missingHandler).log .warning "handler_missing"
        (actionFields action)) fun _ _ _ _ => ⟨_, _, _, rfl⟩
    | some r =>
      obtain ⟨stop, after⟩ := calling_run_alike alike context quiet action known args
      simp only [stop]
      exact conclude_alike after dispatchId action _

/-- An action ends in the same way in engines that are alike. -/
theorem Ends.outcome_eq (quiet : e.Quiet) {context : Value} {action : Action}
    {outcome outcome' : Outcome} {store store' : Store}
    (ends : e.Ends context action outcome store)
    (ends' : other.Ends context action outcome' store') : outcome' = outcome := by
  have scopes := scope_alike alike context
  have board := alike.board
  have loop : other.shared.loop = e.shared.loop := by
    obtain ⟨lines, counters, rules, rfl⟩ := alike
    rfl
  -- both have the same scope and registry, so unequal ends contradict each other
  cases ends with
  | unresolved fault failed =>
    cases ends' with
    | unresolved => rfl
    | missing args filled unknown =>
      rw [scopes, failed] at filled
      cases filled
    | called stop after called =>
      obtain ⟨args, r, filled, known, ran⟩ := called
      rw [scopes, failed] at filled
      cases filled
  | missing args filled unknown =>
    cases ends' with
    | unresolved fault failed =>
      rw [scopes, filled] at failed
      cases failed
    | missing => rfl
    | called stop after called =>
      obtain ⟨args, r, filled, known, ran⟩ := called
      rw [board, unknown] at known
      cases known
  | called stop after called =>
    obtain ⟨args, r, filled, known, ran⟩ := called
    cases ends' with
    | unresolved fault failed =>
      rw [scopes, filled] at failed
      cases failed
    | missing args filled unknown =>
      rw [board, known] at unknown
      cases unknown
    | called stop' after' called' =>
      obtain ⟨args', r', filled', known', ran'⟩ := called'
      rw [scopes, filled] at filled'
      rw [board, known] at known'
      cases filled'
      cases known'
      have same := (calling_run_alike alike context quiet action known args).1
      rw [ran, ran'] at same
      exact congrArg₂ Stop.outcome loop same

end

/-- An action that is skipped leaves lines and counts, nothing else. -/
theorem Ends.alike_of_skip {context : Value} {e : Engine} {action : Action} {outcome : Outcome}
    {store : Store} (ends : e.Ends context action outcome store)
    (askable : (e.scope context).Askable) (skipped : outcome.isSkip) (dispatchId : String) :
    Alike e (e.runActionWith Program.run context dispatchId action) := by
  have calling : Alike e (e.calling context action) := noteUnresolved_alike e _
  rw [runActionWith_eq askable]
  cases ends with
  | unresolved fault failed =>
    rw [failed]
    exact calling.trans ⟨_, _, _, rfl⟩
  | missing args filled unknown =>
    simp only [filled, carryOutWith, calling_board, unknown]
    exact calling.trans ⟨_, _, _, rfl⟩
  | called stop after called =>
    -- a handler that has been called is counted otherwise
    have ran : (stop.outcome e.shared.loop).isSkip = false := by
      cases stop <;> cases e.shared.loop <;> rfl
    simp [ran] at skipped

/-- Leaving out actions that are skipped changes neither the rest of the run nor the counts of
what is not skipped. -/
theorem Processes.thinned {context : Value} {dispatchId : String} {e last other : Engine}
    {outcomes : List (Action × Outcome)} {actions : List Action}
    (processes : Processes context dispatchId e outcomes last) (thins : Thins outcomes actions)
    (quiet : e.Quiet) (askable : (e.scope context).Askable) (alike : Alike e other) :
    Alike last (actions.foldl (runActionWith Program.run context dispatchId) other) ∧
      ∀ o ∈ Outcome.immediate, ¬o.isSkip →
        (actions.foldl (runActionWith Program.run context dispatchId) other).shared.counters.count
          o = other.shared.counters.count o + (outcomes.map Prod.snd).count o := by
  have askableIn (e : Engine) : (e.scope context).Askable := askable
  -- on what is left of the actions: both runs stay alike, but for the marks of what is skipped
  induction thins generalizing e other with
  | nil =>
    cases processes
    exact ⟨alike, fun o _ _ => rfl⟩
  | @keep rest actions action outcome others ih =>
    cases processes with
    | cons first later =>
      -- the action is processed in both runs, and ends in the same way
      obtain ⟨outcome', step⟩ :=
        runAction_processed (quiet.alike alike) (askableIn other) dispatchId action
      have same : outcome' = outcome := first.ends.outcome_eq alike quiet step.ends
      obtain ⟨end_, counts⟩ := ih later (quiet.runAction context dispatchId action) askable
        (runAction_alike alike quiet askable dispatchId action)
      refine ⟨end_, fun o member called => ?_⟩
      have counted := step.counted o member
      rw [List.foldl_cons, counts o member called, counted, same, List.map_cons, List.count_cons]
      simp only [beq_iff_eq]
      omega
  | @drop rest actions outcome action skipped others ih =>
    cases processes with
    | cons first later =>
      -- the engine in which the rest runs is alike to the one before the action
      have unnoticed := first.ends.alike_of_skip askable skipped dispatchId
      obtain ⟨end_, counts⟩ := ih later (quiet.runAction context dispatchId action) askable
        (unnoticed.symm.trans alike)
      refine ⟨end_, fun o member called => ?_⟩
      have other : outcome ≠ o := by
        rintro rfl
        exact called skipped
      rw [counts o member called, List.map_cons, List.count_cons]
      simp [other]

/-! ## The dispatch -/

/-- An account of a dispatch: what has become of each action, and what it comes to together. -/
structure Accounts (trigger : String) (context : Value) (e : Engine)
    (outcomes : List (Action × Outcome)) : Prop where
  /-- A program that fires the trigger goes on after the dispatch, whatever has happened in it. -/
  returns : ∀ depth next, (Program.dispatch trigger context next).runAt (depth + 1) e =
    next.runAt (depth + 1) (e.dispatchWith (Program.runAt depth) trigger context)
  actions : outcomes.map Prod.fst =
    (e.page.rules.filter fun rule => rule.trigger == trigger).flatMap Rule.actions
  /-- The first action finds the board of the engine, and the last one leaves that of the end. -/
  processes : ∃ first last, first.board = e.board ∧
    Processes context e.nextDispatchId first outcomes last ∧
    last.board = (e.dispatch trigger context).board
  counted : ∀ o ∈ Outcome.immediate, (e.dispatch trigger context).shared.counters.count o =
    e.shared.counters.count o + (outcomes.map Prod.snd).count o
  processed : (e.dispatch trigger context).shared.counters.processed =
    e.shared.counters.processed + outcomes.length
  matched : (e.dispatch trigger context).shared.counters.matched = e.shared.counters.matched +
    if ∃ rule ∈ e.page.rules, rule.trigger = trigger then 1 else 0
  unmatched : (e.dispatch trigger context).shared.counters.unmatched =
    e.shared.counters.unmatched + if ∃ rule ∈ e.page.rules, rule.trigger = trigger then 0 else 1
  /-- With rules that lack actions which are skipped, the dispatch does the same. -/
  unnoticed : ∀ rules, Thins outcomes ((matching rules trigger).flatMap Rule.actions) →
    Alike (e.dispatch trigger context)
        (dispatch trigger context { e with page.rules := rules }) ∧
      ∀ o ∈ Outcome.immediate, ¬o.isSkip →
        (dispatch trigger context { e with page.rules := rules }).shared.counters.count o =
          (e.dispatch trigger context).shared.counters.count o

theorem beginDispatch_eq (e : Engine) (trigger : String) :
    ∃ lines, e.beginDispatch trigger = { e with
      shared.nextId := e.shared.nextId + 1
      shared.vars := (e.bindDispatch trigger).2
      shared.lines := lines } := by
  unfold beginDispatch
  dsimp only
  split
  · exact ⟨_, rfl⟩
  · exact ⟨_, rfl⟩

theorem endDispatch_count (start e : Engine) (trigger : String) (o : Outcome) :
    (endDispatch start trigger e).shared.counters.count o = e.shared.counters.count o :=
  Counters.count_recordDispatch _ _ o

theorem endDispatch_processed (start e : Engine) (trigger : String) :
    (endDispatch start trigger e).shared.counters.processed = e.shared.counters.processed := by
  unfold Counters.processed
  exact congrArg List.sum (List.map_congr_left fun o _ => endDispatch_count start e trigger o)

theorem matching_length_eq_zero_iff (rules : List Rule) (trigger : String) :
    (matching rules trigger).length = 0 ↔ ¬∃ rule ∈ rules, rule.trigger = trigger := by
  simp [matching]

theorem endDispatch_matched (start e : Engine) (trigger : String) :
    (endDispatch start trigger e).shared.counters.matched = e.shared.counters.matched +
      if ∃ rule ∈ start.page.rules, rule.trigger = trigger then 1 else 0 := by
  have none := matching_length_eq_zero_iff start.page.rules trigger
  simp only [endDispatch, withVars, Counters.recordDispatch, none]
  split <;> simp_all

theorem endDispatch_unmatched (start e : Engine) (trigger : String) :
    (endDispatch start trigger e).shared.counters.unmatched = e.shared.counters.unmatched +
      if ∃ rule ∈ start.page.rules, rule.trigger = trigger then 0 else 1 := by
  have none := matching_length_eq_zero_iff start.page.rules trigger
  simp only [endDispatch, withVars, Counters.recordDispatch, none]
  split <;> simp_all

/-- Dispatches that begin in engines that are alike end in engines that are alike. -/
theorem endDispatch_alike {e other : Engine} (alike : Alike e other) (start : Engine)
    (rules : List Rule) (trigger : String) :
    Alike (endDispatch start trigger e)
      (endDispatch { start with page.rules := rules } trigger other) := by
  obtain ⟨lines, counters, others, rfl⟩ := alike
  exact ⟨_, _, _, rfl⟩

/-- A dispatch processes exactly the actions of the matching rules, in their order and each in the
store that the one before it left. It counts each of them once, and itself once. -/
theorem dispatch_accounts {e : Engine} (quiet : e.Quiet) (trigger : String) {context : Value}
    (askable : context = .null ∨ ∃ entries, context = .map entries) :
    ∃ outcomes, e.Accounts trigger context outcomes := by
  obtain ⟨lines, begun⟩ := e.beginDispatch_eq trigger
  have counters : (e.beginDispatch trigger).shared.counters = e.shared.counters := by rw [begun]
  have quietly : (e.beginDispatch trigger).Quiet := by
    rw [begun]
    exact ⟨quiet.handlers, quiet.observers⟩
  obtain ⟨outcomes, actions, processes⟩ :=
    exists_processes quietly askable e.nextDispatchId (e.actionsOn trigger)
  refine ⟨outcomes, fun depth next => rfl, actions,
    ⟨e.beginDispatch trigger, _, by rw [begun], processes, rfl⟩, ?_, ?_, ?_, ?_, ?_⟩
  · intro o member
    rw [← counters, ← processes.counted member]
    exact endDispatch_count _ _ trigger o
  · rw [← counters, ← processes.processed]
    exact endDispatch_processed _ _ trigger
  · rw [← counters, ← processes.same.matched]
    exact endDispatch_matched _ _ trigger
  · rw [← counters, ← processes.same.unmatched]
    exact endDispatch_unmatched _ _ trigger
  · intro rules thins
    -- both dispatches begin alike, for the rules are only logged
    obtain ⟨lines', begun'⟩ := beginDispatch_eq { e with page.rules := rules } trigger
    have alike : Alike (e.beginDispatch trigger)
        (beginDispatch { e with page.rules := rules } trigger) := by
      rw [begun, begun']
      exact ⟨_, _, _, rfl⟩
    obtain ⟨last, counts⟩ := processes.thinned thins quietly askable alike
    refine ⟨endDispatch_alike last e rules trigger, fun o member called => ?_⟩
    have thinned := counts o member called
    have whole := processes.counted member
    rw [begun'] at thinned
    rw [counters] at whole
    calc (dispatch trigger context { e with page.rules := rules }).shared.counters.count o
        = e.shared.counters.count o + (outcomes.map Prod.snd).count o :=
          (endDispatch_count _ _ trigger o).trans (by rw [← thinned, ← begun']; rfl)
      _ = (e.dispatch trigger context).shared.counters.count o :=
          whole.symm.trans (endDispatch_count _ _ trigger o).symm

/-- A page whose trigger `go` sets off five actions that come to five different ends. -/
def motley : Engine where
  shared := { loop := false, random := fun _ _ => default }
  board := {
    registry := ⟨[
      (("a", "write"), ⟨"a", "write", ⟨false, fun _ => .write "a" (.text "1") (.done .null)⟩⟩),
      (("a", "fail"), ⟨"a", "fail", ⟨false, fun _ => .fail (.missing "b")⟩⟩),
      (("a", "later"), ⟨"a", "later", ⟨true, fun _ => .defer true (.done .null)⟩⟩)]⟩
    store := { values := [("b", .map [(.tuple [], .null)])] }
    serialize := true }
  page := { rules := [
    ⟨"go", [⟨"write", "a", [("value", .text "$\x7bb.size\x7d")]⟩, ⟨"fail", "a", []⟩]⟩,
    ⟨"stop", [⟨"write", "a", []⟩]⟩,
    ⟨"go", [⟨"later", "a", []⟩, ⟨"unknown", "a", []⟩,
      ⟨"write", "a", [("value", .text "$\x7bb\x7d")]⟩]⟩] }

theorem dispatch_accounts_motley : motley.Quiet ∧
    ∃ outcomes, motley.Accounts "go" .null outcomes ∧ outcomes.length = 5 ∧
      (outcomes.map Prod.snd).count .resolutionError = 1 := by
  have quiet : motley.Quiet := by
    constructor
    · intro widget action r known args
      have member := List.mem_map_of_mem (f := Prod.snd) (Entries.mem_of_get?_eq_some known)
      simp only [motley, List.map_cons, List.map_nil, List.mem_cons, List.not_mem_nil,
        or_false] at member
      rcases member with rfl | rfl | rfl
      · exact .write (.done _)
      · exact .fail _
      · exact .defer _ _
    · intro id o member
      simp [motley, Store.observersOf, Entries.get?] at member
  obtain ⟨outcomes, accounts⟩ := dispatch_accounts quiet "go" (.inl rfl)
  refine ⟨quiet, outcomes, accounts, ?_, ?_⟩
  · have actions := congrArg List.length accounts.actions
    rw [List.length_map] at actions
    exact actions.trans (by decide)
  · have counted := accounts.counted .resolutionError (by decide)
    have zero : motley.shared.counters.count .resolutionError = 0 := rfl
    rw [zero, Nat.zero_add] at counted
    exact counted.symm.trans (by decide +kernel)

end Engine
end Patchbay
