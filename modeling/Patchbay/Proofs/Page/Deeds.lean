import Patchbay.Proofs.Page.Moves

/-!
# What actions come to, by what is stored

On a page, what an action comes to is settled by its arguments and the widgets of the page: its
`Deed`. The deed says which entry is written, which outcome is counted and which chart is occupied
(`Engine.runAction_did`). So a whole list of actions can be followed on the stored values alone.
-/

namespace Patchbay

/-- What an action on a page comes to. -/
inductive Deed where
  /-- Its arguments cannot be resolved. -/
  | unresolved
  /-- No widget serves it. -/
  | unserved
  | takes (w : Widget) (value : Value)
  | refreshes (w : Widget) (args : Entries String Value)

/-- Whether a widget has a handler for an action. -/
def Widget.serves (w : Widget) (action : Action) : Bool :=
  w.id == action.target && ((w.handlers 0).map Prod.fst).contains action.type

/-- Which handlers a widget has does not depend on its place. -/
theorem Widget.types_eq (w : Widget) (ref : Nat) :
    (w.handlers ref).map Prod.fst = (w.handlers 0).map Prod.fst := by
  unfold handlers
  cases w.type <;> rfl

theorem Widget.serves_iff {w : Widget} {action : Action} (ref : Nat) : w.serves action = true ↔
    w.id = action.target ∧ action.type ∈ (w.handlers ref).map Prod.fst := by
  rw [w.types_eq ref]
  simp [serves]

namespace Deed

/-- What an action with these arguments comes to. -/
def of (widgets : List Widget) (action : Action) :
    Except Fault (Entries String Value) → Deed
  | .error _ => .unresolved
  | .ok args =>
    match widgets.find? fun w => w.serves action with
    | none => .unserved
    | some w =>
      if w.type = .chart then .refreshes w args
      else .takes w (Engine.argumentOf action.type args)

def outcome (loop : Bool) : Deed → Outcome
  | .unresolved => .resolutionError
  | .unserved => .missingHandler
  | .takes _ _ => .ok
  | .refreshes _ _ => if loop then .scheduled else .noLoop

/-- What is stored afterwards. -/
def write (values : Entries String Value) : Deed → Entries String Value
  | .takes w value =>
    Entries.put w.id (w.taking value ((Entries.get? w.id values).getD .null)) values
  | .unresolved | .unserved | .refreshes _ _ => values

/-- The chart that is to be refreshed, if the refresh is scheduled. -/
def chart? (loop : Bool) : Deed → Option String
  | .refreshes w _ => if loop then some w.id else none
  | .unresolved | .unserved | .takes _ _ => none

/-- How far a deed raises the count of an outcome, given which charts are busy. -/
def adds (loop : Bool) (busy : String → Bool) (o : Outcome) (deed : Deed) : Nat :=
  (if deed.outcome loop = o then 1 else 0) +
    if o = .superseded ∧ (deed.chart? loop).any busy then 1 else 0

/-- The course that actions take one after another, by what is stored: the arguments that each is
carried out with, and what it comes to. -/
def course (widgets : List Widget) (context : Value) :
    Entries String Value → List Action → List (Except Fault (Entries String Value) × Deed)
  | _, [] => []
  | values, action :: rest =>
    let args := (Scope.resolveAll ⟨context, values⟩ action.args).outcome
    let deed := of widgets action args
    (args, deed) :: course widgets context (deed.write values) rest

/-- What is stored after deeds have been done. -/
def writeAll (values : Entries String Value) (deeds : List Deed) : Entries String Value :=
  deeds.foldl write values

/-- How far deeds raise the count of an outcome together. Where targets are occupied, each chart
that is refreshed is busy for the deeds that follow. -/
def addsAll (loop serialize : Bool) (o : Outcome) : (String → Bool) → List Deed → Nat
  | _, [] => 0
  | busy, deed :: rest =>
    deed.adds loop busy o + addsAll loop serialize o
      (fun target => busy target || (serialize && (deed.chart? loop).any (· == target))) rest

/-- A deed that schedules nothing supersedes nothing. -/
theorem adds_of_none {loop : Bool} {deed : Deed} (none : deed.chart? loop = none)
    (busy : String → Bool) (o : Outcome) :
    deed.adds loop busy o = if deed.outcome loop = o then 1 else 0 := by
  simp [adds, none]

end Deed

namespace Engine

/-- Whether a task for a target is in flight that would be superseded. -/
def busy (e : Engine) (target : String) : Bool :=
  e.board.serialize && (Entries.get? target e.board.inFlight).any fun ref => !e.isDone ref

/-- The deed of an action has been done. -/
inductive Did (dispatchId : String) (action : Action) (e : Engine) : Deed → Engine → Prop
  | unresolved {after : Engine} (same : after.board = e.board)
    (counts : Counts e after .resolutionError) : Did dispatchId action e .unresolved after
  | unserved {after : Engine} (same : after.board = e.board)
    (counts : Counts e after .missingHandler) : Did dispatchId action e .unserved after
  | takes {after : Engine} {w : Widget} {value : Value} (known : w ∈ e.declared)
    (target : w.id = action.target) (other : w.type ≠ .chart) (took : Took w value e after)
    (counts : Counts e after .ok) : Did dispatchId action e (.takes w value) after
  | refreshes {ref : Nat} {w : Widget} {args : Entries String Value}
    (found : e.declared[ref]? = some w) (target : w.id = action.target) (chart : w.type = .chart)
    {calling : Engine} (same : calling.board = e.board) (loop : calling.shared.loop = e.shared.loop)
    (uncounted : ∀ o, calling.shared.counters.count o = e.shared.counters.count o) :
    Did dispatchId action e (.refreshes w args)
      (calling.schedule (w.refresh ref (.record args)) action dispatchId)

/-- The widget that is found to serve an action is the one that is registered for it. -/
theorem Wired.find_serving {e : Engine} (wired : e.Wired) {action : Action} {ref : Nat}
    {w : Widget} (found : e.declared[ref]? = some w) (target : w.id = action.target)
    (handles : action.type ∈ (w.handlers ref).map Prod.fst) :
    (e.declared.find? fun w => w.serves action) = some w := by
  have serves : w.serves action = true := (Widget.serves_iff ref).mpr ⟨target, handles⟩
  have some_ : (e.declared.find? fun w => w.serves action).isSome :=
    List.find?_isSome.mpr ⟨w, List.mem_of_getElem? found, serves⟩
  obtain ⟨other, chosen⟩ := Option.isSome_iff_exists.mp some_
  have serves' : other.serves action = true := by simpa using List.find?_some chosen
  have own := ((Widget.serves_iff 0).mp serves').1
  obtain ⟨place, found'⟩ := List.mem_iff_getElem?.mp (List.mem_of_find?_eq_some chosen)
  obtain ⟨-, rfl⟩ := same_place wired.distinct found' found (own.trans target.symm)
  exact chosen

theorem Wired.find_none {e : Engine} (wired : e.Wired) {action : Action}
    (unknown : e.board.registry.lookup action.target action.type = none) :
    (e.declared.find? fun w => w.serves action) = none := by
  rw [List.find?_eq_none]
  intro w member serves
  obtain ⟨ref, found⟩ := List.mem_iff_getElem?.mp member
  obtain ⟨target, handles⟩ := (Widget.serves_iff ref).mp serves
  obtain ⟨⟨type, h⟩, inside, named⟩ := List.mem_map.mp handles
  rw [← target, ← named, wired.served ref w found type h inside] at unknown
  cases unknown

/-- An action does its deed. -/
theorem runAction_did {e : Engine} (wired : e.Wired) (context : Value) (dispatchId : String)
    (action : Action) : Did dispatchId action e
      (.of e.declared action ((e.scope context).resolveAll action.args).outcome)
      (e.runActionWith Program.run context dispatchId action) := by
  have carried := runAction_carried wired context dispatchId action
  generalize e.runActionWith Program.run context dispatchId action = after at carried ⊢
  cases carried with
  | unresolved failed same counts =>
    rw [failed]
    exact .unresolved same counts
  | missing resolved unknown same counts =>
    rw [resolved, Deed.of, wired.find_none unknown]
    exact .unserved same counts
  | took resolved found target other handles took counts =>
    simp only [resolved, Deed.of, wired.find_serving found target handles, if_neg other]
    exact .takes (List.mem_of_getElem? found) target other took counts
  | scheduled resolved found target chart handles calling same loop uncounted =>
    simp only [resolved, Deed.of, wired.find_serving found target handles, if_pos chart]
    exact .refreshes found target chart same loop uncounted

theorem Did.values {dispatchId : String} {action : Action} {e after : Engine} {deed : Deed}
    (did : Did dispatchId action e deed after) :
    after.board.store.values = deed.write e.board.store.values := by
  cases did with
  | unresolved same | unserved same =>
    rw [same]
    rfl
  | takes _ _ _ took => exact took.values
  | refreshes _ _ _ same =>
    rw [schedule_store, same]
    rfl

/-! ## Charts that are occupied -/

/-- Where targets are occupied, what is in flight is as it should be. -/
def Tended (e : Engine) : Prop :=
  e.board.serialize = true → e.Serial

theorem Tended.of_effects {e after : Engine} (tended : e.Tended)
    (effects : Effects True e after) : after.Tended := by
  intro serialize
  have on := effects.steady.serialize.symm.trans serialize
  exact effects.serial (tended on) on

theorem Tended.of_board {e after : Engine} (tended : e.Tended) (same : after.board = e.board) :
    after.Tended := by
  intro serialize
  rw [same] at serialize
  exact (tended serialize).of_same (by rw [same]) (by rw [same])

theorem PageMoves.serialize {e after : Engine} (move : PageMoves e after) (wired : e.Wired) :
    after.board.serialize = e.board.serialize := by
  cases move.kinds wired with
  | ran start same effects => rw [effects.steady.serialize, same]
  | stepped ref is => rw [is, (stepTask_steady e ref).serialize]
  | noted ref task found is =>
    rw [is, settleTask_board found]
    rfl

theorem Tended.move {e after : Engine} (tended : e.Tended) (wired : e.Wired)
    (move : PageMoves e after) : after.Tended := by
  intro serialize
  have on : e.board.serialize = true := (move.serialize wired).symm.trans serialize
  exact (move.moves.serial (tended on) on).1

theorem busy_of_same {e after : Engine} (serialize : after.board.serialize = e.board.serialize)
    (inFlight : after.board.inFlight = e.board.inFlight)
    (tasks : after.board.tasks = e.board.tasks) (target : String) :
    after.busy target = e.busy target := by
  simp only [busy, isDone, serialize, inFlight, tasks]

theorem busy_of_board {e after : Engine} (same : after.board = e.board) (target : String) :
    after.busy target = e.busy target :=
  busy_of_same (by rw [same]) (by rw [same]) (by rw [same]) target

theorem isDone_of_lapses {task now : Task} (lapses : Lapses task now) :
    now.progress.isDone = task.progress.isDone := by
  rcases lapses with rfl | ⟨running, rfl⟩
  · rfl
  · exact running.symm

theorem supersede_counts (e : Engine) (target : String) (serialize : e.board.serialize = true)
    (o : Outcome) : (e.supersede target).shared.counters.count o = e.shared.counters.count o +
      if o = .superseded ∧ e.busy target then 1 else 0 := by
  unfold supersede busy isDone
  cases Entries.get? target e.board.inFlight with
  | none => simp
  | some ref =>
    cases found : e.board.tasks[ref]? with
    | none => simp [found]
    | some task =>
      cases done : task.progress.isDone with
      | true => simp [found, done]
      | false =>
        -- the task is in flight, so the new one supersedes it
        have counted := Counters.count_record e.shared.counters .superseded o
        simpa [found, done, serialize, Engine.log, record, updateTask, eq_comm] using counted

/-- One more task is in flight for no target yet. -/
theorem busy_addTask {e : Engine} (tended : e.Tended) (task : Task) (target : String) :
    (e.addTask task).busy target = e.busy target := by
  unfold busy
  cases serialize : e.board.serialize with
  | false =>
    have same : (e.addTask task).board.serialize = false := serialize
    rw [same, Bool.false_and, Bool.false_and]
  | true =>
    have same : (e.addTask task).board.serialize = true := serialize
    have inFlight : (e.addTask task).board.inFlight = e.board.inFlight := rfl
    rw [same, inFlight]
    cases flying : Entries.get? target e.board.inFlight with
    | none => rfl
    | some ref =>
      have inside := (tended serialize).bounded flying
      have found : (e.addTask task).board.tasks[ref]? = e.board.tasks[ref]? :=
        List.getElem?_append_left inside
      simp only [Option.any_some, isDone, found]

/-- A refresh that is scheduled is counted, and so is one that it supersedes. -/
theorem schedule_counts {e : Engine} (tended : e.Tended) (loop : e.shared.loop = true)
    (body : Program) (action : Action) (dispatchId : String) (o : Outcome) :
    (e.schedule body action dispatchId).shared.counters.count o = e.shared.counters.count o +
      ((if Outcome.scheduled = o then 1 else 0) +
        if o = .superseded ∧ e.busy action.target then 1 else 0) := by
  have added := busy_addTask tended (e.taskOf body action dispatchId) action.target
  have occupied : ((e.addTask (e.taskOf body action dispatchId)).occupy action.target
      e.board.tasks.length).shared.counters.count o = e.shared.counters.count o +
        if o = .superseded ∧ e.busy action.target then 1 else 0 := by
    unfold occupy
    cases serialize : e.board.serialize with
    | false =>
      have off : (e.addTask (e.taskOf body action dispatchId)).board.serialize = false := serialize
      have idle : e.busy action.target = false := by rw [busy, serialize, Bool.false_and]
      rw [off, idle]
      simp [addTask, enqueue]
    | true =>
      have on : (e.addTask (e.taskOf body action dispatchId)).board.serialize = true := serialize
      have counted := supersede_counts _ action.target on o
      rw [added] at counted
      rw [on]
      exact counted
  simp only [schedule, loop, Bool.not_true, Bool.false_eq_true, ↓reduceIte]
  rw [Nat.add_comm (if Outcome.scheduled = o then 1 else 0), ← Nat.add_assoc, ← occupied]
  exact Counters.count_record _ _ o

/-- The target of a task that is scheduled is busy from then on. -/
theorem schedule_busy {e : Engine} (tended : e.Tended) (loop : e.shared.loop = true)
    (body : Program) (action : Action) (dispatchId : String) (target : String) :
    (e.schedule body action dispatchId).busy target =
      (e.busy target || (e.board.serialize && action.target == target)) := by
  cases serialize : e.board.serialize with
  | false =>
    have same : (e.schedule body action dispatchId).board.serialize = false :=
      (schedule_steady e body action dispatchId).serialize.trans serialize
    simp only [busy, same, serialize, Bool.false_and, Bool.or_self]
  | true =>
    have serial := tended serialize
    have same : (e.schedule body action dispatchId).board.serialize = true :=
      (schedule_steady e body action dispatchId).serialize.trans serialize
    have inFlight := schedule_inFlight serialize loop body action dispatchId
    have tasks := schedule_tasks serial serialize loop body action dispatchId
    simp only [busy, same, serialize, inFlight, Bool.true_and]
    by_cases own : action.target = target
    · -- its own task has not ended
      subst own
      rw [Entries.get?_put_self, Option.any_some, isDone, tasks, if_pos rfl]
      simp [taskOf, Progress.isDone]
    · rw [Entries.get?_put_of_ne (Ne.symm own), beq_false_of_ne own, Bool.or_false]
      cases flying : Entries.get? target e.board.inFlight with
      | none => rfl
      | some ref =>
        have inside := serial.bounded flying
        have found := List.getElem?_eq_getElem inside
        rw [Option.any_some, Option.any_some, isDone, isDone, tasks,
          if_neg (Nat.ne_of_lt inside), found, Option.map_some, Option.all_some, Option.all_some,
          isDone_of_lapses (cancelIf_lapses _ _ _)]

/-! ## What a deed comes to -/

theorem Did.counts {dispatchId : String} {action : Action} {e after : Engine} {deed : Deed}
    (did : Did dispatchId action e deed after) (tended : e.Tended) (o : Outcome) :
    after.shared.counters.count o =
      e.shared.counters.count o + deed.adds e.shared.loop e.busy o := by
  cases did with
  | unresolved _ counts | unserved _ counts | takes _ _ _ _ counts =>
    rw [Deed.adds_of_none rfl]
    exact counts o
  | @refreshes ref w args found target chart calling same loop uncounted =>
    rw [← uncounted]
    cases looping : e.shared.loop with
    | false =>
      have unscheduled : calling.schedule (w.refresh ref (.record args)) action dispatchId =
          (calling.record .noLoop).log .warning "async_handler_without_loop"
            (actionFields action) := by
        simp [schedule, loop, looping]
      rw [Deed.adds_of_none rfl, unscheduled]
      exact Counters.count_record _ _ o
    | true =>
      rw [schedule_counts (tended.of_board same) (loop.trans looping), busy_of_board same, ← target]
      rfl

theorem Did.busy {dispatchId : String} {action : Action} {e after : Engine} {deed : Deed}
    (did : Did dispatchId action e deed after) (tended : e.Tended) (target : String) :
    after.busy target = (e.busy target ||
      (e.board.serialize && (deed.chart? e.shared.loop).any (· == target))) := by
  cases did with
  | unresolved same | unserved same =>
    rw [busy_of_board same, Deed.chart?, Option.any_none, Bool.and_false, Bool.or_false]
  | takes _ _ _ took =>
    have serialize := congrArg Board.serialize took.board
    have inFlight := congrArg Board.inFlight took.board
    have tasks := congrArg Board.tasks took.board
    rw [busy_of_same serialize inFlight tasks, Deed.chart?, Option.any_none, Bool.and_false,
      Bool.or_false]
  | @refreshes ref w args found own chart calling same loop uncounted =>
    cases looping : e.shared.loop with
    | false =>
      have unscheduled : (calling.schedule (w.refresh ref (.record args)) action
          dispatchId).board = e.board := by
        simp only [schedule, loop, looping, Bool.not_false, ↓reduceIte]
        exact same
      rw [busy_of_board unscheduled]
      simp [Deed.chart?]
    | true =>
      rw [schedule_busy (tended.of_board same) (loop.trans looping), busy_of_board same, same,
        ← own]
      rfl

/-! ## Lists of actions -/

/-- The arguments that actions are carried out with, each in the engine that the one before it has
left. -/
def handedBy (context : Value) (dispatchId : String) :
    Engine → List Action → List (Except Fault (Entries String Value))
  | _, [] => []
  | e, action :: rest =>
    ((e.scope context).resolveAll action.args).outcome ::
      handedBy context dispatchId (e.runActionWith Program.run context dispatchId action) rest

/-- The arguments that the actions of a dispatch are carried out with. -/
def handed (e : Engine) (trigger : String) (context : Value) :
    List (Except Fault (Entries String Value)) :=
  handedBy context e.nextDispatchId (e.beginDispatch trigger) (e.actionsOn trigger)

/-- The course of actions on a page. -/
def courseOf (e : Engine) (context : Value) (actions : List Action) :
    List (Except Fault (Entries String Value) × Deed) :=
  Deed.course e.declared context e.board.store.values actions

/-- Actions have taken their course. -/
structure Followed (context : Value) (actions : List Action) (e after : Engine) : Prop where
  values : after.board.store.values =
    Deed.writeAll e.board.store.values ((e.courseOf context actions).map Prod.snd)
  counts : ∀ o, after.shared.counters.count o = e.shared.counters.count o +
    Deed.addsAll e.shared.loop e.board.serialize o e.busy
      ((e.courseOf context actions).map Prod.snd)
  busy : ∀ target, after.busy target = (e.busy target || (e.board.serialize &&
    ((e.courseOf context actions).map Prod.snd).any fun deed =>
      (deed.chart? e.shared.loop).any (· == target)))

theorem Did.courseOf {context : Value} {dispatchId : String} {action : Action} {e after : Engine}
    (did : Did dispatchId action e
      (.of e.declared action ((e.scope context).resolveAll action.args).outcome) after)
    (declared : after.declared = e.declared) (rest : List Action) :
    e.courseOf context (action :: rest) = (((e.scope context).resolveAll action.args).outcome,
      .of e.declared action ((e.scope context).resolveAll action.args).outcome) ::
        after.courseOf context rest := by
  rw [Engine.courseOf, Engine.courseOf, declared, did.values]
  rfl

section

variable {e : Engine} (wired : e.Wired) (context : Value) (dispatchId : String)
include wired

theorem actions_follow (tended : e.Tended) (actions : List Action) :
    Followed context actions e
      (actions.foldl (runActionWith Program.run context dispatchId) e) := by
  induction actions generalizing e with
  | nil => exact ⟨rfl, fun _ => rfl, fun _ => by simp [courseOf, Deed.course]⟩
  | cons action rest ih =>
    have did := runAction_did wired context dispatchId action
    have effects := runActionWith_effects (run_chains True) trivial context dispatchId e action
    have course := did.courseOf effects.steady.declared rest
    have later := ih (wired.of_effects effects) (tended.of_effects effects)
    have busy : (e.runActionWith Program.run context dispatchId action).busy = fun target =>
        (e.busy target || _) := funext (did.busy tended)
    constructor
    · rw [List.foldl_cons, later.values, did.values, course]
      rfl
    · intro o
      rw [List.foldl_cons, later.counts o, did.counts tended o, course, effects.steady.loop,
        effects.steady.serialize, busy, Nat.add_assoc]
      rfl
    · intro target
      rw [List.foldl_cons, later.busy target, did.busy tended target, course, effects.steady.loop,
        effects.steady.serialize, Bool.or_assoc, ← Bool.and_or_distrib_left]
      rfl

theorem handedBy_eq (actions : List Action) :
    handedBy context dispatchId e actions = (e.courseOf context actions).map Prod.fst := by
  induction actions generalizing e with
  | nil => rfl
  | cons action rest ih =>
    have did := runAction_did wired context dispatchId action
    have effects := runActionWith_effects (run_chains True) trivial context dispatchId e action
    rw [handedBy, ih (wired.of_effects effects), did.courseOf effects.steady.declared rest]
    rfl

end

/-- A dispatch begins with the board and the counts that it finds. -/
theorem courseOf_begin (e : Engine) (trigger : String) (context : Value) (actions : List Action) :
    (e.beginDispatch trigger).courseOf context actions = e.courseOf context actions := by
  obtain ⟨lines, begun⟩ := e.beginDispatch_eq trigger
  rw [begun]
  rfl

theorem dispatch_follows {e : Engine} (wired : e.Wired) (tended : e.Tended) (trigger : String)
    (context : Value) :
    Followed context (e.actionsOn trigger) e (e.dispatch trigger context) := by
  have begins := beginDispatch_effects trivial trigger e
  have course := e.courseOf_begin trigger context (e.actionsOn trigger)
  have followed := actions_follow (wired.of_effects begins) context e.nextDispatchId
    (tended.of_effects begins) (e.actionsOn trigger)
  obtain ⟨lines, begun⟩ := e.beginDispatch_eq trigger
  have board : (e.beginDispatch trigger).board = e.board := by rw [begun]
  have shared : (e.beginDispatch trigger).shared.counters = e.shared.counters ∧
      (e.beginDispatch trigger).shared.loop = e.shared.loop := by
    rw [begun]
    exact ⟨rfl, rfl⟩
  have busy : (e.beginDispatch trigger).busy = e.busy := funext (busy_of_board board)
  constructor
  · rw [← course, ← board]
    exact followed.values
  · intro o
    rw [← course, ← board, ← shared.1, ← shared.2, ← busy, ← followed.counts o]
    exact endDispatch_count _ _ trigger o
  · intro target
    rw [← course, ← board, ← shared.2, ← busy]
    exact followed.busy target

theorem handed_eq {e : Engine} (wired : e.Wired) (trigger : String) (context : Value) :
    e.handed trigger context =
      (e.courseOf context (e.actionsOn trigger)).map Prod.fst := by
  have begins := beginDispatch_effects trivial trigger e
  rw [handed, handedBy_eq (wired.of_effects begins), courseOf_begin]

end Engine
end Patchbay
