import Patchbay.Proofs.Engine.Refreshes
import Patchbay.Proofs.Page.Settling

/-!
# Triggers fired one after another

As long as the event loop does not take turns, triggers that are fired only write what is not a
chart and schedule refreshes (`Engine.Firing`). What they write is settled by the widgets, the rules
and the values of the page (`Engine.Twin.dispatch`), and which charts have a refresh scheduled by
the actions that are set off (`Engine.Firing.targets`).
-/

namespace Patchbay

open Relation (ReflTransGen)

/-- An action asks for a refresh of the chart with this id. -/
def Action.Draws (action : Action) (widgets : List Widget) (id : String) : Prop :=
  ∃ w ∈ widgets, w.type = .chart ∧ w.id = id ∧ w.serves action = true

/-- Where ids are distinct, the chart that a deed refreshes is the one that its action asks for. -/
theorem Deed.chart?_of_iff {widgets : List Widget} (distinct : (widgets.map Widget.id).Nodup)
    (action : Action) (args : Entries String Value) (id : String) :
    (of widgets action (.ok args)).chart? true = some id ↔ action.Draws widgets id := by
  simp only [of]
  cases chosen : widgets.find? fun w => w.serves action with
  | none =>
    constructor
    · intro drawn
      cases drawn
    · rintro ⟨w, member, -, -, serves⟩
      exact absurd serves (List.find?_eq_none.mp chosen w member)
  | some w =>
    have member := List.mem_of_find?_eq_some chosen
    have serves : w.serves action = true := by simpa using List.find?_some chosen
    -- any other widget that serves the action would have the same id
    have only {w' : Widget} (member' : w' ∈ widgets) (serves' : w'.serves action = true) :
        w = w' := by
      obtain ⟨ref, found⟩ := List.mem_iff_getElem?.mp member
      obtain ⟨ref', found'⟩ := List.mem_iff_getElem?.mp member'
      have own := ((Widget.serves_iff 0).mp serves).1
      have own' := ((Widget.serves_iff 0).mp serves').1
      exact (Engine.same_place distinct found found' (own.trans own'.symm)).2
    constructor
    · intro drawn
      by_cases chart : w.type = .chart
      · simp only [chart, ↓reduceIte, chart?, Option.some.injEq] at drawn
        exact ⟨w, member, chart, drawn, serves⟩
      · simp [chart, chart?] at drawn
    · rintro ⟨w', member', chart, rfl, serves'⟩
      obtain rfl := only member' serves'
      simp [chart, chart?]

namespace Engine

/-- A context that a trigger may be fired in. -/
structure Fireable (context : Value) : Prop where
  askable : context = .null ∨ ∃ entries, context = .map entries
  encodable : context.Encodable

/-! ## What is scheduled -/

theorem Did.targets {dispatchId : String} {action : Action} {e after : Engine} {deed : Deed}
    (did : Did dispatchId action e deed after) (loop : e.shared.loop = true) :
    after.targets = e.targets ++ (deed.chart? true).toList := by
  cases did with
  | unresolved same | unserved same =>
    rw [targets_of_tasks (congrArg Board.tasks same)]
    exact (List.append_nil _).symm
  | takes _ _ _ took =>
    have tasks := congrArg Board.tasks took.board
    rw [targets_of_tasks tasks]
    exact (List.append_nil _).symm
  | refreshes _ target _ same looping =>
    rw [schedule_targets (looping.trans loop), targets_of_tasks (congrArg Board.tasks same),
      ← target]
    rfl

section

variable {document : Document} (encodable : document.Encodable) {context : Value}
  (fireable : Fireable context)
include encodable fireable

/-- Actions schedule a refresh of each chart that they ask for. -/
theorem Used.actions_targets {e : Engine} (used : Used document e) (loop : e.shared.loop = true)
    (dispatchId : String) (actions : List Action)
    (gives : ∀ action ∈ actions, Gives Value.Encodable context action) (id : String) :
    id ∈ (actions.foldl (runActionWith Program.run context dispatchId) e).targets ↔
      id ∈ e.targets ∨ ∃ action ∈ actions, action.Draws e.declared id := by
  induction actions generalizing e with
  | nil => simp
  | cons action rest ih =>
    have wired := used.orderly.wired
    obtain ⟨args, resolved⟩ := used.resolves fireable.askable fireable.encodable action
    have did := runAction_did wired context dispatchId action
    rw [resolved] at did
    have effects := runActionWith_effects (run_chains True) trivial context dispatchId e action
    have does := (runAction_carried wired context dispatchId action).does
      (gives action List.mem_cons_self)
    have later := ih (used.after_does encodable effects does) (effects.steady.loop.trans loop)
      fun action member => gives action (List.mem_cons_of_mem _ member)
    have declared : (e.runActionWith Program.run context dispatchId action).declared =
        e.declared := effects.steady.declared
    have drawn := Deed.chart?_of_iff wired.distinct action args id
    rw [List.foldl_cons, later, did.targets loop, declared, List.mem_append, Option.mem_toList,
      drawn]
    simp only [List.exists_mem_cons_iff, or_assoc]

theorem Used.dispatch_targets {e : Engine} (used : Used document e) (loop : e.shared.loop = true)
    (trigger : String) (id : String) : id ∈ (e.dispatch trigger context).targets ↔
      id ∈ e.targets ∨ ∃ action ∈ e.actionsOn trigger, action.Draws e.declared id := by
  have begins := beginDispatch_effects trivial trigger e
  obtain ⟨lines, eq⟩ := e.beginDispatch_eq trigger
  have board : (e.beginDispatch trigger).board = e.board := by rw [eq]
  have rules : (e.beginDispatch trigger).page.rules = e.page.rules := by rw [eq]
  have begun := used.of_board board rules
  have acts := begun.actions_targets encodable fireable (begins.steady.loop.trans loop)
    e.nextDispatchId (e.actionsOn trigger) (fun action member => by
      obtain ⟨rule, matched, inside⟩ := List.mem_flatMap.mp member
      exact used.gives rule (List.mem_of_mem_filter matched) action inside context) id
  rw [targets_of_tasks (congrArg Board.tasks board), declared_of_board board] at acts
  exact acts

end

/-! ## A page between two triggers -/

/-- A page on which triggers have been fired and the event loop has taken no turn since it was
opened. -/
structure Firing (document : Document) (e : Engine) : Prop where
  sound : Sound document e
  tended : e.Tended
  loop : e.shared.loop = true
  queued : e.Queued
  running : ∀ (ref : Nat) (task : Task), e.board.tasks[ref]? = some task →
    task.progress.isDone = false
  /-- Without serialization nothing is cancelled. -/
  pending : e.board.serialize = false → ∀ task ∈ e.board.tasks, task.progress = .pending
  blank : ∀ w ∈ e.declared, w.type = .chart → Entries.get? w.id e.board.store.values = none
  keyed : e.Keyed

namespace Firing

variable {document : Document} {e : Engine} (firing : Firing document e)
include firing

theorem primed : e.Primed := by
  refine ⟨firing.queued, fun ref task newest => ?_, firing.running, firing.blank⟩
  cases serialize : e.board.serialize with
  | true => exact (firing.tended serialize).uncancelled ref task newest
  | false =>
    have pending := firing.pending serialize task (List.mem_of_getElem? newest.1)
    rw [pending]
    exact ⟨nofun, nofun⟩

theorem of_note {after : Engine} (board : after.board = e.board)
    (rules : after.page.rules = e.page.rules) (loop : after.shared.loop = e.shared.loop)
    (queue : after.shared.queue = e.shared.queue) : Firing document after := by
  have declared := declared_of_board board
  refine ⟨firing.sound.of_board board rules, firing.tended.of_board board,
    loop.trans firing.loop, firing.queued.of_same (by rw [board]) queue, ?_, ?_, ?_, ?_⟩
  · rw [board]
    exact firing.running
  · rw [board]
    exact firing.pending
  · rw [board, declared]
    exact firing.blank
  · rw [Keyed, board]
    exact firing.keyed

/-- A trigger that is fired leaves all charts blank and all tasks waiting. -/
theorem dispatch (encodable : document.Encodable) (trigger : String) {context : Value}
    (fireable : Fireable context) : Firing document (e.dispatch trigger context) := by
  have effects := dispatch_effects trigger context e
  have does := firing.sound.used.fires trigger context
  have declared : (e.dispatch trigger context).declared = e.declared := effects.steady.declared
  constructor
  · exact firing.sound.happens encodable (.fire trigger fireable.askable fireable.encodable e)
  · exact firing.tended.of_effects effects
  · exact effects.steady.loop.trans firing.loop
  · exact effects.queued firing.queued
  · intro ref task found
    rcases effects.origin found with ⟨old, was, lapses⟩ | running
    · rw [isDone_of_lapses lapses]
      exact firing.running ref old was
    · exact running
  · intro off task member
    have off' := effects.steady.serialize.symm.trans off
    obtain ⟨new, tasks, pending⟩ := effects.appended off'
    rw [tasks] at member
    exact (List.mem_append.mp member).elim (firing.pending off' task) (pending task)
  · intro w member chart
    rw [declared] at member
    obtain ⟨place, found⟩ := List.mem_iff_getElem?.mp member
    rw [does_entry does firing.sound.used.orderly.wired.distinct found chart]
    exact firing.blank w member chart
  · exact effects.keyed firing.keyed

end Firing

theorem Opened.firing {document : Document} {e : Engine} (opened : Opened document e)
    (loop : e.shared.loop = true) : Firing document e := by
  have fresh := opened.fresh
  have idle : e.Idle := ⟨fresh.tasks, fresh.inFlight⟩
  refine ⟨opened.sound, fun _ => idle.serial, loop, ?_, ?_, ?_, ?_, ?_⟩
  · intro ref task found
    simp [fresh.tasks] at found
  · intro ref task found
    simp [fresh.tasks] at found
  · intro _ task member
    simp [fresh.tasks] at member
  · intro w _ _
    rw [fresh.values]
    rfl
  · rw [Keyed, fresh.values]
    exact List.nodup_nil

/-- Triggers are fired in their contexts, one after another. -/
def dispatchAll (e : Engine) (fired : List (String × Value)) : Engine :=
  fired.foldl (fun e t => e.dispatch t.1 t.2) e

theorem Firing.dispatchAll {document : Document} {e : Engine} (firing : Firing document e)
    (encodable : document.Encodable) {fired : List (String × Value)}
    (contexts : ∀ t ∈ fired, Fireable t.2) :
    Firing document (e.dispatchAll fired) ∧ (e.dispatchAll fired).declared = e.declared := by
  induction fired generalizing e with
  | nil => exact ⟨firing, rfl⟩
  | cons t rest ih =>
    have fired := firing.dispatch encodable t.1 (contexts t List.mem_cons_self)
    obtain ⟨last, declared⟩ := ih fired fun other member =>
      contexts other (List.mem_cons_of_mem _ member)
    exact ⟨last, declared.trans (dispatch_effects t.1 t.2 e).steady.declared⟩

/-- A chart is asked for by the bindings that set its value. -/
theorem Used.draws_iff {document : Document} {e : Engine} (used : Used document e) {w : Widget}
    (known : w ∈ e.declared) (chart : w.type = .chart) (trigger : String) :
    (∃ action ∈ e.actionsOn trigger, action.Draws e.declared w.id) ↔
      ∃ rule ∈ e.page.rules, rule.trigger = trigger ∧
        ∃ action ∈ rule.actions, action.type = "setValue" ∧ action.target = w.id := by
  have handles {w : Widget} (chart : w.type = .chart) :
      (w.handlers 0).map Prod.fst = ["setValue", "updateChartData"] := by
    simp [Widget.handlers, chart]
  constructor
  · rintro ⟨action, member, other, -, chart', own, serves⟩
    obtain ⟨rule, matched, inside⟩ := List.mem_flatMap.mp member
    obtain ⟨listed, waits⟩ := List.mem_filter.mp matched
    obtain ⟨target, served⟩ := (Widget.serves_iff 0).mp serves
    refine ⟨rule, listed, by simpa using waits, action, inside, ?_, target.symm.trans own⟩
    -- the actions of bindings set values and texts, and a chart has no text
    rw [used.rules] at listed
    obtain ⟨b, -, rfl⟩ := List.mem_map.mp listed
    have same : action = b.action := List.mem_singleton.mp inside
    rw [same, handles chart', b.action_type] at served
    rw [same, b.action_type]
    split
    · next text => simp [text] at served
    · rfl
  · rintro ⟨rule, listed, waits, action, inside, sets, target⟩
    refine ⟨action, List.mem_flatMap.mpr ⟨rule, ?_, inside⟩, w, known, chart, rfl, ?_⟩
    · exact List.mem_filter.mpr ⟨listed, by simpa using waits⟩
    · refine (Widget.serves_iff 0).mpr ⟨target.symm, ?_⟩
      rw [handles chart, sets]
      exact List.mem_cons_self

/-! ## What is written -/

/-- Two engines with the same widgets, the same rules and the same values. -/
structure Twin (e other : Engine) : Prop where
  declared : e.declared = other.declared
  rules : e.page.rules = other.page.rules
  values : e.board.store.values = other.board.store.values

/-- A document settles what the page is like that is opened from it. -/
theorem Opened.twin {document : Document} {e other : Engine} (opened : Opened document e)
    (opened' : Opened document other) : Twin e other :=
  ⟨opened.fresh.declared.trans opened'.fresh.declared.symm,
    opened.fresh.rules.trans opened'.fresh.rules.symm,
    opened.fresh.values.trans opened'.fresh.values.symm⟩

theorem Twin.actionsOn {e other : Engine} (twin : Twin e other) (trigger : String) :
    e.actionsOn trigger = other.actionsOn trigger := by
  rw [Engine.actionsOn, Engine.actionsOn, twin.rules]

/-- What a dispatch writes does not depend on anything else. -/
theorem Twin.dispatch {document : Document} {e other : Engine} (twin : Twin e other)
    (firing : Firing document e) (firing' : Firing document other) (trigger : String)
    (context : Value) : Twin (e.dispatch trigger context) (other.dispatch trigger context) := by
  have steady := (dispatch_effects trigger context e).steady
  have steady' := (dispatch_effects trigger context other).steady
  have followed := dispatch_follows firing.sound.used.orderly.wired firing.tended trigger context
  have followed' := dispatch_follows firing'.sound.used.orderly.wired firing'.tended trigger context
  constructor
  · exact (steady.declared.trans twin.declared).trans steady'.declared.symm
  · rw [steady.page, steady'.page, twin.rules]
  · rw [followed.values, followed'.values, twin.actionsOn, courseOf, courseOf, twin.declared,
      twin.values]

end Engine
end Patchbay
