import Patchbay.Proofs.Page.Moves

/-!
# Runs in which nothing fails

A run is *calm* if no error has been logged and no failure counted (`Engine.Calm`). Where only
widgets watch the store, writing is calm as long as every widget can be drawn of what is stored for
it (`Engine.Shown`). A program is *tame* if it writes nothing but such values; it runs calmly and
does not fail (`Program.Tame.run_calm`). What the widgets of a page run is tame.
-/

namespace Patchbay

/-- The outcomes of actions that have failed. -/
def Outcome.failures : List Outcome :=
  [.handlerError, .resolutionError, .asyncError]

/-- The level of a line that tells of no error. -/
def Log.Level.Mild (level : Log.Level) : Prop :=
  level.rank < Log.Level.error.rank

instance : DecidablePred Log.Level.Mild := fun level =>
  inferInstanceAs (Decidable (level.rank < Log.Level.error.rank))

/-! ## What widgets can be drawn of -/

/-- A widget can be drawn of a value. -/
def Widget.Shows (w : Widget) (value : Value) : Prop :=
  ∃ view, w.render value = .ok view

/-- Each widget that has an id can be drawn of a value. -/
def Fits (widgets : List Widget) (id : String) (value : Value) : Prop :=
  ∀ w ∈ widgets, w.id = id → w.Shows value

theorem Widget.optionPairs_of_maps {options : List Value}
    (maps : ∀ option ∈ options, ∃ entries, option = .map entries) :
    ∃ pairs, optionPairs options = .ok pairs := by
  induction options with
  | nil => exact ⟨[], rfl⟩
  | cons option rest ih =>
    obtain ⟨entries, rfl⟩ := maps option List.mem_cons_self
    obtain ⟨pairs, others⟩ := ih fun option member => maps option (List.mem_cons_of_mem _ member)
    simp [optionPairs, optionPart, others]

/-- A chart aside, a widget can be drawn of every value: only its own properties matter, and they
are as they were when it was drawn first. -/
theorem Widget.Labelled.shows {w : Widget} (labelled : w.Labelled) (other : w.type ≠ .chart)
    (value : Value) : w.Shows value := by
  unfold Shows render
  cases sort : w.type with
  | chart => exact absurd sort other
  | button | calendar | textbox => exact ⟨_, rfl⟩
  | dropdown =>
    obtain ⟨options, given, maps⟩ := labelled sort
    obtain ⟨pairs, drawn⟩ := optionPairs_of_maps maps
    simp [given, Except.bind, drawn]

theorem Widget.shows_points {w : Widget} (chart : w.type = .chart) (a b c : Binary64) :
    w.Shows (.list [dataPoint "A" a, dataPoint "B" b, dataPoint "C" c]) := by
  simp only [Shows, render, chart]
  exact ⟨_, rfl⟩

theorem Widget.shows_null {w : Widget} (labelled : w.Labelled) : w.Shows .null := by
  by_cases chart : w.type = .chart
  · simp only [Shows, render, chart]
    exact ⟨_, rfl⟩
  · exact labelled.shows chart .null

/-! ## Tame programs -/

/-- A program that does not fail, fires no trigger, logs no error and writes only what the widgets
can be drawn of, up to its end or its first stop. -/
inductive Program.Tame (widgets : List Widget) : Program → Prop
  | done (result : Value) : Tame widgets (.done result)
  | defer (coroutine : Bool) (body : Program) : Tame widgets (.defer coroutine body)
  | pause (next : Program) : Tame widgets (.pause next)
  | log {level : Log.Level} {event : String} {fields : List (String × Value)} {next : Program}
    (mild : level.Mild) (rest : Tame widgets next) : Tame widgets (.log level event fields next)
  | write {id : String} {value : Value} {next : Program} (fits : Fits widgets id value)
    (rest : Tame widgets next) : Tame widgets (.write id value next)
  | writeProperty {id name : String} {value : Value} {next : Program}
    (fits : ∀ old : Value, Fits widgets id (old.withProperty name value))
    (rest : Tame widgets next) : Tame widgets (.writeProperty id name value next)
  | draw {chart : Nat} {next : Binary64 → Program} (rest : ∀ x, Tame widgets (next x)) :
    Tame widgets (.draw chart next)

namespace Widget

variable {widgets : List Widget}

theorem writeText_tame {id : String} (fits : ∀ value, Fits widgets id value) (text : Value) :
    (writeText id text).Tame widgets :=
  .writeProperty (fun _ => fits _) (.writeProperty (fun _ => fits _) (.done _))

/-- Every step of a choice is tame, whatever follows. -/
theorem choose_tame {w : Widget} (labelled : w.Labelled) (dropdown : w.type = .dropdown)
    (fits : ∀ value, Fits widgets w.id value) (value : Value) :
    (w.choose value).Tame widgets ∧ ((w.choose value).andThen (.done .null)).Tame widgets := by
  simp only [choose, labelFor_eq labelled dropdown, Program.bind, Program.andThen]
  have writes (last : Value) : (Program.writeProperty w.id "value" value <|
      .writeProperty w.id "selected_value" value <|
      .writeProperty w.id "selected_text" (w.labelOf value) <| .done last).Tame widgets :=
    .writeProperty (fun _ => fits _)
      (.writeProperty (fun _ => fits _) (.writeProperty (fun _ => fits _) (.done last)))
  exact ⟨writes _, writes _⟩

/-- What a handler of a widget does is tame: it writes its own entry, or it starts a refresh. -/
theorem handler_tame {w : Widget} {ref : Nat} (labelled : w.Labelled)
    (fits : w.type ≠ .chart → ∀ value, Fits widgets w.id value) {type : String} {h : Handler}
    (handles : (type, h) ∈ w.handlers ref) (args : Entries String Value) :
    (h.call (.record args)).Tame widgets := by
  by_cases chart : w.type = .chart
  · rw [Engine.handler_chart chart handles]
    exact .defer true _
  · have own := fits chart
    unfold handlers at handles
    cases sort : w.type with
    | button => simp [sort] at handles
    | chart => exact absurd sort chart
    | calendar =>
      simp only [sort, List.mem_singleton, Prod.mk.injEq] at handles
      obtain ⟨rfl, rfl⟩ := handles
      simp only [setDate, Engine.argument_record, Program.bind]
      exact .write (own _) (.done _)
    | dropdown =>
      simp only [sort, List.mem_singleton, Prod.mk.injEq] at handles
      obtain ⟨rfl, rfl⟩ := handles
      simp only [setChoice, Engine.argument_record, Program.bind]
      exact .log (by decide) (choose_tame labelled sort own _).2
    | textbox =>
      simp only [sort, List.mem_cons, List.not_mem_nil, or_false, Prod.mk.injEq] at handles
      rcases handles with ⟨rfl, rfl⟩ | ⟨rfl, rfl⟩
      · simp only [setContent, Engine.argument_record, Program.bind]
        exact .log (by decide) (writeText_tame own _)
      · simp only [setContent, Engine.argument_record, Program.bind]
        exact .log (by decide) (writeText_tame own _)

theorem refresh_tame (chart : Nat) (w : Widget) (args : Value) :
    (w.refresh chart args).Tame widgets :=
  .log (by decide) (.pause _)

theorem renewal_tame {w : Widget} (chart : Nat)
    (fits : ∀ a b c, Fits widgets w.id
      (.list [dataPoint "A" a, dataPoint "B" b, dataPoint "C" c])) :
    (Engine.renewal chart w).Tame widgets :=
  .draw fun a => .draw fun b => .draw fun c =>
    .write (fits a b c) (.log (by decide) (.done _))

end Widget

namespace Engine

/-! ## Calm runs -/

/-- Between two states, no error has been logged and no failure of an action counted. -/
structure Calm (e after : Engine) : Prop where
  logged : ∃ lines, after.shared.lines = lines ++ e.shared.lines ∧
    ∀ line ∈ lines, line.level.Mild
  counted : ∀ o ∈ Outcome.failures,
    after.shared.counters.count o = e.shared.counters.count o

theorem Calm.of_same {e after : Engine} (lines : after.shared.lines = e.shared.lines)
    (counters : after.shared.counters = e.shared.counters) : Calm e after :=
  ⟨⟨[], lines, List.forall_mem_nil _⟩, fun o _ => by rw [counters]⟩

theorem Calm.trans {first second third : Engine} (earlier : Calm first second)
    (later : Calm second third) : Calm first third := by
  obtain ⟨lines, logged, mild⟩ := earlier.logged
  obtain ⟨lines', logged', mild'⟩ := later.logged
  refine ⟨⟨lines' ++ lines, ?_, fun line member => ?_⟩, fun o member => ?_⟩
  · rw [logged', logged, List.append_assoc]
  · exact (List.mem_append.mp member).elim (mild' line) (mild line)
  · exact (later.counted o member).trans (earlier.counted o member)

theorem Calm.log {level : Log.Level} (mild : level.Mild) (e : Engine) (event : String)
    (fields : List (String × Value)) : Calm e (e.log level event fields) :=
  ⟨⟨[_], rfl, List.forall_mem_singleton.mpr mild⟩, fun _ _ => rfl⟩

theorem Calm.record {outcome : Outcome} (success : outcome ∉ Outcome.failures) (e : Engine) :
    Calm e (e.record outcome) := by
  refine ⟨⟨[], rfl, List.forall_mem_nil _⟩, fun o member => ?_⟩
  have other : outcome ≠ o := fun same => success (same ▸ member)
  exact (Counters.count_record _ _ o).trans (by simp [other])

/-- Every widget can be drawn of what the store holds for it. -/
def Shown (e : Engine) : Prop :=
  ∀ w ∈ e.declared, w.Shows (e.board.store.get w.id)

theorem Shown.of_same {e after : Engine} (shown : e.Shown)
    (declared : after.declared = e.declared)
    (values : after.board.store.values = e.board.store.values) : after.Shown := by
  intro w member
  rw [declared] at member
  rw [Store.get, values]
  exact shown w member

theorem Shown.of_put {e after : Engine} (shown : e.Shown) {id : String} {value : Value}
    (fits : Fits e.declared id value) (declared : after.declared = e.declared)
    (values : after.board.store.values = Entries.put id value e.board.store.values) :
    after.Shown := by
  intro w member
  rw [declared] at member
  rw [Store.get, values]
  by_cases same : w.id = id
  · rw [same, Entries.get?_put_self]
    exact fits w member same
  · rw [Entries.get?_put_of_ne same]
    exact shown w member

theorem redraw_calm {e : Engine} (shown : e.Shown) (ref : Nat) :
    ∃ after, e.redraw ref = .ok after ∧ Calm e after := by
  unfold redraw
  cases found : e.board.widgets[ref]? with
  | none => exact ⟨e, rfl, .of_same rfl rfl⟩
  | some w =>
    have known : w.declared ∈ e.declared := List.mem_map_of_mem (List.mem_of_getElem? found)
    obtain ⟨view, drawn⟩ := shown _ known
    -- what has been declared is all that drawing looks at
    have same : w.render (e.board.store.get w.id) = .ok view := drawn
    simp only [same]
    exact ⟨_, rfl, .of_same rfl rfl⟩

theorem notify_calm (run : Runner) (id : String) (value : Value) {observers : List Observer}
    (views : ∀ o ∈ observers, ∃ ref, o = .view ref) {e : Engine} (shown : e.Shown) :
    Calm e (observers.foldl (notifyWith run id value) e) := by
  -- A widget that is drawn changes nothing that the next one is drawn of.
  induction observers generalizing e with
  | nil => exact .of_same rfl rfl
  | cons o rest ih =>
    obtain ⟨ref, rfl⟩ := views o List.mem_cons_self
    obtain ⟨store, keeps⟩ := notify_view run id value e ref
    obtain ⟨after, drawn, calm⟩ := redraw_calm shown ref
    have told : e.notifyWith run id value (.view ref) = after := by simp only [notifyWith, drawn]
    have shown' := shown.of_same keeps.declared (congrArg Store.values store)
    rw [List.foldl_cons]
    rw [told] at shown' ⊢
    exact calm.trans (ih (fun o member => views o (List.mem_cons_of_mem _ member)) shown')

theorem write_calm (run : Runner) {e : Engine} (viewed : e.Viewed) (shown : e.Shown) {id : String}
    {value : Value} (fits : Fits e.declared id value) :
    Calm e (e.writeWith run id value) ∧ (e.writeWith run id value).Shown := by
  have stored : Calm e (e.withStore (e.board.store.set id value)) := .of_same rfl rfl
  have shown' : (e.withStore (e.board.store.set id value)).Shown := shown.of_put fits rfl rfl
  have told := notify_calm run id ((e.board.store.set id value).get id) (viewed id) shown'
  have wrote := write_wrote run viewed id value
  exact ⟨stored.trans told, shown.of_put fits wrote.keeps.declared wrote.values⟩

end Engine

/-- A tame program runs calmly and does not fail. -/
theorem Program.Tame.run_calm {widgets : List Widget} {p : Program} (tame : p.Tame widgets)
    (nested : Runner) {e : Engine} (viewed : e.Viewed) (shown : e.Shown)
    (same : e.declared = widgets) : Engine.Calm e (p.runWith nested e).2 ∧
      ∀ fault, (p.runWith nested e).1 ≠ .failed fault := by
  -- Whatever is written, widgets alone are told, and they can be drawn before the next effect.
  induction tame generalizing e with
  | done | defer | pause => exact ⟨.of_same rfl rfl, nofun⟩
  | @log level event fields next mild rest ih =>
    obtain ⟨calm, stops⟩ := ih (e := e.log level event fields) (viewed.of_same rfl)
      (shown.of_same rfl rfl) same
    exact ⟨(Engine.Calm.log mild e event fields).trans calm, stops⟩
  | @write id value next fits rest ih =>
    have wrote := Engine.write_wrote nested viewed id value
    subst same
    obtain ⟨first, shown'⟩ := Engine.write_calm nested viewed shown fits
    obtain ⟨calm, stops⟩ := ih (viewed.of_same wrote.observers) shown' wrote.keeps.declared
    exact ⟨first.trans calm, stops⟩
  | @writeProperty id name value next fits rest ih =>
    have wrote := Engine.writeProperty_wrote nested viewed id name value
    subst same
    obtain ⟨first, shown'⟩ := Engine.write_calm nested viewed shown
      (fits (e.board.store.get id))
    obtain ⟨calm, stops⟩ := ih (viewed.of_same wrote.observers) shown' wrote.keeps.declared
    exact ⟨first.trans calm, stops⟩
  | @draw chart next rest ih =>
    have declared : (e.draw chart).declared = e.declared :=
      Engine.map_modify_of_same _ _ _ fun _ => rfl
    obtain ⟨calm, stops⟩ := ih (e.shared.random chart (e.drawnBy chart)) (e := e.draw chart)
      (viewed.of_same rfl) (shown.of_same declared rfl) (declared.trans same)
    have drawn : Engine.Calm e (e.draw chart) := .of_same rfl rfl
    exact ⟨drawn.trans calm, stops⟩

namespace Engine

/-! ## Calm dispatches -/

theorem noteUnresolved_calm (tokens : List String) (e : Engine) :
    Calm e (e.noteUnresolved tokens) := by
  unfold noteUnresolved
  induction tokens generalizing e with
  | nil => exact .of_same rfl rfl
  | cons token rest ih =>
    have counted : Calm e { e with
        shared.counters.unresolved := e.shared.counters.unresolved + 1 } := by
      refine ⟨⟨[], rfl, List.forall_mem_nil _⟩, fun o _ => ?_⟩
      cases o <;> rfl
    exact (counted.trans (.log (by decide) _ _ _)).trans (ih _)

theorem supersede_calm (e : Engine) (target : String) : Calm e (e.supersede target) := by
  rcases supersede_cases e target with same | ⟨ref, -, same⟩
  · rw [same]
    exact .of_same rfl rfl
  · rw [same]
    let cancelled := e.updateTask ref fun task => { task with progress := .cancelling }
    have changed : Calm e cancelled := .of_same rfl rfl
    have counted : Calm cancelled (cancelled.record .superseded) := .record (by decide) cancelled
    exact (changed.trans counted).trans (.log (by decide) _ _ _)

theorem schedule_calm (e : Engine) (body : Program) (action : Action) (dispatchId : String) :
    Calm e (e.schedule body action dispatchId) := by
  unfold schedule occupy
  split
  · have counted : Calm e (e.record .noLoop) := .record (by decide) e
    exact counted.trans (.log (by decide) _ _ _)
  · have added : Calm e (e.addTask (e.taskOf body action dispatchId)) := .of_same rfl rfl
    refine .trans (added.trans ?_) (.record (by decide) _)
    split
    · exact (supersede_calm _ action.target).trans (.of_same rfl rfl)
    · exact .of_same rfl rfl

theorem conclude_calm (dispatchId : String) (action : Action) (e : Engine) {stop : Stop}
    (stops : ∀ fault, stop ≠ .failed fault) : Calm e (e.conclude dispatchId action stop) := by
  cases stop with
  | failed fault => exact absurd rfl (stops fault)
  | done result => exact .record (by decide) e
  | deferred coroutine body => exact schedule_calm e body action dispatchId
  | paused rest => exact schedule_calm e rest action dispatchId

theorem beginDispatch_calm (trigger : String) (e : Engine) :
    Calm e (e.beginDispatch trigger) := by
  have begun : Calm e ({ e with shared.nextId := e.shared.nextId + 1 }.withVars
      (e.bindDispatch trigger).2) := .of_same rfl rfl
  unfold beginDispatch
  dsimp only
  split
  · exact begun.trans (.log (by decide) _ _ _)
  · exact begun.trans (.log (by decide) _ _ _)

theorem endDispatch_calm (start e : Engine) (trigger : String) :
    Calm e (endDispatch start trigger e) :=
  ⟨⟨[], rfl, List.forall_mem_nil _⟩, fun o _ => endDispatch_count start e trigger o⟩

/-- Where ids are distinct, only the widget itself has to be drawn. -/
theorem fits_of_distinct {widgets : List Widget} (distinct : (widgets.map Widget.id).Nodup)
    {ref : Nat} {w : Widget} (found : widgets[ref]? = some w) {value : Value}
    (drawable : w.Shows value) : Fits widgets w.id value := by
  intro other member same
  obtain ⟨place, found'⟩ := List.mem_iff_getElem?.mp member
  obtain ⟨-, rfl⟩ := same_place distinct found' found same
  exact drawable

theorem Wired.fits {e : Engine} (wired : e.Wired) {ref : Nat} {w : Widget}
    (found : e.declared[ref]? = some w) (other : w.type ≠ .chart) (value : Value) :
    Fits e.declared w.id value :=
  fits_of_distinct wired.distinct found
    ((wired.labelled w (List.mem_of_getElem? found)).shows other value)

/-- An action whose arguments can be resolved is carried out calmly. -/
theorem runAction_calm {e : Engine} (wired : e.Wired) (shown : e.Shown) {context : Value}
    {action : Action} {args : Entries String Value}
    (resolved : ((e.scope context).resolveAll action.args).outcome = .ok args)
    (dispatchId : String) :
    Calm e (e.runActionWith Program.run context dispatchId action) := by
  have noted : Calm e (e.calling context action) := noteUnresolved_calm _ e
  have board := e.calling_board context action
  have ran : e.runActionWith Program.run context dispatchId action =
      (e.calling context action).carryOutWith Program.run dispatchId action
        ((e.scope context).resolveAll action.args).outcome := rfl
  rw [ran, resolved]
  refine noted.trans ?_
  simp only [carryOutWith, board]
  cases known : e.board.registry.lookup action.target action.type with
  | none =>
    have counted : Calm (e.calling context action)
        ((e.calling context action).record .missingHandler) := .record (by decide) _
    exact counted.trans (.log (by decide) _ _ _)
  | some r =>
    -- Whatever is registered is the handler of a widget.
    obtain ⟨ref, w, found, -, handles⟩ := wired.serving _ _ r known
    have tame : (r.handler.call (.record args)).Tame e.declared :=
      Widget.handler_tame (wired.labelled w (List.mem_of_getElem? found)) (wired.fits found) handles
        args
    have declared : (e.calling context action).declared = e.declared := declared_of_board board
    have viewed := (wired.of_board board).viewed
    obtain ⟨calm, stops⟩ := tame.run_calm (Program.runAt (nestingLimit - 1)) viewed
      (shown.of_same declared (by rw [board])) declared
    rw [← Program.run_eq] at calm stops
    exact calm.trans (conclude_calm dispatchId action _ stops)

end Engine
end Patchbay
