import Patchbay.Engine.Mounting
import Patchbay.Proofs.Engine.Effects

/-!
# What widgets do to the store

On a board that only widgets watch, the handlers of a widget and the input of its user write one
entry, the widget's own: a textbox keeps its text under two names, a dropdown its choice under two
names with the label, a calendar the bare date (`Widget.taking`). Main statements:
`Engine.handler_run`, `Engine.renewal_run` for charts.
-/

namespace Patchbay

/-! ## What a widget keeps -/

namespace Widget

/-- The options of a dropdown, none if they are no list. -/
def optionList (w : Widget) : List Value :=
  match w.options with
  | .ok options => options
  | .error _ => []

/-- The label of the first option with a value, the empty text if there is none. -/
def labelOf (w : Widget) (value : Value) : Value :=
  match w.optionList.find? fun option => ((option.field? "value").getD .null).same value with
  | some option => (option.field? "label").getD (.text "")
  | none => .text ""

/-- The entry of a widget that has taken a value, by the entry that was there before. -/
def taking (w : Widget) (value old : Value) : Value :=
  match w.type with
  | .textbox => (old.withProperty "value" value).withProperty "text" value
  | .dropdown => ((old.withProperty "value" value).withProperty "selected_value" value).withProperty
      "selected_text" (w.labelOf value)
  | .calendar => value
  | _ => old

/-- Every option of a dropdown is a map. -/
def Labelled (w : Widget) : Prop :=
  w.type = .dropdown → ∃ options, w.options = .ok options ∧
    ∀ option ∈ options, ∃ entries, option = .map entries

theorem labelAmong_eq (value : Value) {options : List Value}
    (maps : ∀ option ∈ options, ∃ entries, option = .map entries) :
    labelAmong value options = .ok
      (match options.find? fun option => ((option.field? "value").getD .null).same value with
        | some option => (option.field? "label").getD (.text "")
        | none => .text "") := by
  induction options with
  | nil => rfl
  | cons option rest ih =>
    -- A map can be asked for its parts, so the search never fails.
    obtain ⟨entries, rfl⟩ := maps option List.mem_cons_self
    have others := ih fun option member => maps option (List.mem_cons_of_mem _ member)
    simp only [labelAmong, optionPart, List.find?_cons, Value.field?]
    cases ((Entries.get? (Key.text "value") entries).getD .null).same value with
    | true => rfl
    | false => exact others

/-- A dropdown whose options are maps has a label for every value. -/
theorem labelFor_eq {w : Widget} (labelled : w.Labelled) (dropdown : w.type = .dropdown)
    (value : Value) : w.labelFor value = .ok (w.labelOf value) := by
  obtain ⟨options, given, maps⟩ := labelled dropdown
  simp only [labelFor, labelOf, optionList, given]
  exact labelAmong_eq value maps

end Widget

/-! ## Writing on a board that only widgets watch -/

namespace Engine

/-- All observers are widgets. -/
def Viewed (e : Engine) : Prop :=
  ∀ id, ∀ o ∈ e.board.store.observersOf id, ∃ ref, o = .view ref

/-- What the widget at a place shows. -/
def showing (e : Engine) (ref : Nat) : Option Value :=
  e.board.widgets[ref]?.map Widget.rendered

/-- The widgets that watch an entry have been drawn anew, as far as they can be. All others show
what they have shown. -/
structure Redrawn (id : String) (e after : Engine) : Prop where
  observers : after.board.store.observers = e.board.store.observers
  watching : ∀ ref, Observer.view ref ∈ e.board.store.observersOf id → ∀ w view,
    after.board.widgets[ref]? = some w → w.render (after.board.store.get w.id) = .ok view →
      w.rendered = view
  others : ∀ ref, Observer.view ref ∉ e.board.store.observersOf id →
    after.showing ref = e.showing ref

/-- One entry of the store has been written; nothing else has changed but what widgets show, the
log and the reports. -/
structure Wrote (id : String) (value : Value) (e after : Engine) : Prop where
  values : after.board.store.values = Entries.put id value e.board.store.values
  keeps : Keeps e after
  redrawn : Redrawn id e after

theorem Wrote.observers {id : String} {value : Value} {e after : Engine}
    (wrote : Wrote id value e after) :
    after.board.store.observers = e.board.store.observers :=
  wrote.redrawn.observers

theorem Redrawn.trans {id : String} {e between after : Engine} (earlier : Redrawn id e between)
    (later : Redrawn id between after) : Redrawn id e after := by
  have same : between.board.store.observersOf id = e.board.store.observersOf id := by
    rw [Store.observersOf, earlier.observers]
    rfl
  constructor
  · exact later.observers.trans earlier.observers
  · intro ref watches
    rw [← same] at watches
    exact later.watching ref watches
  · intro ref other
    rw [← earlier.others ref other]
    rw [← same] at other
    exact later.others ref other

/-- Only the store and the widgets matter for what has been drawn. -/
theorem Redrawn.of_same {id : String} {e e' after after' : Engine}
    (redrawn : Redrawn id e after) (store : e'.board.store = e.board.store)
    (shown : ∀ ref, e'.showing ref = e.showing ref)
    (stored : after'.board.store = after.board.store)
    (widgets : after'.board.widgets = after.board.widgets) : Redrawn id e' after' := by
  constructor
  · rw [store, stored]
    exact redrawn.observers
  · rw [store, stored, widgets]
    exact redrawn.watching
  · rw [store]
    intro ref other
    rw [shown ref, ← redrawn.others ref other, showing, widgets]
    rfl

theorem Wrote.trans {id : String} {first second : Value} {e between after : Engine}
    (earlier : Wrote id first e between) (later : Wrote id second between after) :
    Wrote id second e after where
  values := by rw [later.values, earlier.values, Entries.put_put]
  keeps := earlier.keeps.trans later.keeps
  redrawn := earlier.redrawn.trans later.redrawn

theorem Wrote.get {id : String} {value : Value} {e after : Engine}
    (wrote : Wrote id value e after) : after.board.store.get id = value := by
  rw [Store.get, wrote.values, Entries.get?_put_self, Option.getD_some]

theorem Wrote.other {id other : String} {value : Value} {e after : Engine}
    (wrote : Wrote id value e after) (ne : other ≠ id) :
    Entries.get? other after.board.store.values = Entries.get? other e.board.store.values := by
  rw [wrote.values, Entries.get?_put_of_ne ne]

theorem Viewed.of_same {e after : Engine} (viewed : e.Viewed)
    (observers : after.board.store.observers = e.board.store.observers) : after.Viewed := by
  intro id o member
  rw [Store.observersOf, observers] at member
  exact viewed id o member

theorem notify_view (run : Runner) (id : String) (value : Value) (e : Engine) (ref : Nat) :
    (e.notifyWith run id value (.view ref)).board.store = e.board.store ∧
      Keeps e (e.notifyWith run id value (.view ref)) := by
  simp only [notifyWith]
  cases drawn : e.redraw ref with
  | error fault => exact ⟨rfl, rfl, rfl, rfl, rfl⟩
  | ok after =>
    have effects : Effects False e after := redraw_effects drawn
    refine ⟨?_, effects.keeps⟩
    unfold redraw at drawn
    split at drawn
    · cases drawn
      rfl
    · split at drawn
      · cases drawn
        rfl
      · cases drawn

theorem notify_views (run : Runner) (id : String) (value : Value) {observers : List Observer}
    (views : ∀ o ∈ observers, ∃ ref, o = .view ref) (e : Engine) :
    (observers.foldl (notifyWith run id value) e).board.store = e.board.store ∧
      Keeps e (observers.foldl (notifyWith run id value) e) := by
  -- No view writes, so each is told in an engine with the same store.
  induction observers generalizing e with
  | nil => exact ⟨rfl, .refl e⟩
  | cons o rest ih =>
    obtain ⟨ref, rfl⟩ := views o List.mem_cons_self
    obtain ⟨store, keeps⟩ := notify_view run id value e ref
    obtain ⟨store', keeps'⟩ := ih (fun o member => views o (List.mem_cons_of_mem _ member))
      (e.notifyWith run id value (.view ref))
    exact ⟨store'.trans store, keeps.trans keeps'⟩

/-- Each widget was there before, as it was declared. -/
theorem Keeps.widget_before {e after : Engine} (keeps : Keeps e after) {ref : Nat} {w : Widget}
    (found : after.board.widgets[ref]? = some w) : ∃ before : Widget,
      e.board.widgets[ref]? = some before ∧ before.declared = w.declared := by
  have declared := congrArg (fun widgets : List Widget => widgets[ref]?) keeps.declared
  simp only [List.getElem?_map, found, Option.map_some] at declared
  exact Option.map_eq_some_iff.mp declared.symm

/-- A widget that can be drawn shows its value once it has been told. -/
theorem notify_shows {run : Runner} {id : String} {value : Value} {e : Engine} {ref : Nat}
    {w : Widget} {view : Value}
    (found : (e.notifyWith run id value (.view ref)).board.widgets[ref]? = some w)
    (drawn : w.render (e.board.store.get w.id) = .ok view) : w.rendered = view := by
  simp only [notifyWith, redraw] at found
  cases there : e.board.widgets[ref]? with
  | none => simp [there] at found
  | some old =>
    cases shows : old.render (e.board.store.get old.id) with
    | error fault =>
      -- a widget that cannot be drawn is the same as before
      have same : w = old := by simpa [there, shows, logObserverFailure, Engine.log, eq_comm]
        using found
      rw [same, shows] at drawn
      cases drawn
    | ok view' =>
      have same : w = { old with rendered := view' } := by
        simpa [there, shows, updateWidget, eq_comm] using found
      subst same
      have shows' : old.render (e.board.store.get old.id) = .ok view := drawn
      exact Except.ok.inj (shows.symm.trans shows')

theorem notify_widget (run : Runner) (id : String) (value : Value) (e : Engine)
    {ref place : Nat} (other : place ≠ ref) :
    (e.notifyWith run id value (.view ref)).board.widgets[place]? = e.board.widgets[place]? := by
  simp only [notifyWith, redraw]
  cases e.board.widgets[ref]? with
  | none => rfl
  | some w =>
    cases drawn : w.render (e.board.store.get w.id) with
    | error fault => simp [drawn, logObserverFailure, Engine.log]
    | ok view => simp [drawn, updateWidget, Ne.symm other]

theorem notify_showing (run : Runner) (id : String) (value : Value) (e : Engine)
    {ref place : Nat} (other : place ≠ ref) :
    (e.notifyWith run id value (.view ref)).showing place = e.showing place := by
  rw [showing, notify_widget run id value e other, showing]

/-- Once all views have been told, they show their values. -/
theorem notify_redrawn (run : Runner) (id : String) (value : Value) {observers : List Observer}
    (views : ∀ o ∈ observers, ∃ ref, o = .view ref) (e : Engine) (ref : Nat) :
    (.view ref ∉ observers →
      (observers.foldl (notifyWith run id value) e).showing ref = e.showing ref) ∧
    (.view ref ∈ observers → ∀ w view,
      (observers.foldl (notifyWith run id value) e).board.widgets[ref]? = some w →
        w.render (e.board.store.get w.id) = .ok view → w.rendered = view) := by
  induction observers generalizing e with
  | nil => exact ⟨fun _ => rfl, fun member => by cases member⟩
  | cons o rest ih =>
    obtain ⟨place, rfl⟩ := views o List.mem_cons_self
    have views' : ∀ o ∈ rest, ∃ ref, o = .view ref :=
      fun o member => views o (List.mem_cons_of_mem _ member)
    obtain ⟨store, -⟩ := notify_view run id value e place
    obtain ⟨others, watching⟩ := ih views' (e.notifyWith run id value (.view place))
    rw [store] at watching
    rw [List.foldl_cons]
    refine ⟨fun absent => ?_, fun member w view found drawn => ?_⟩
    · rw [List.mem_cons, not_or] at absent
      have other : ref ≠ place := fun same => absent.1 (congrArg Observer.view same)
      rw [others absent.2, notify_showing run id value e other]
    · by_cases again : Observer.view ref ∈ rest
      · exact watching again w view found drawn
      · -- it has been told just now, and nothing that follows changes what it shows
        have here : ref = place := by simpa [again] using member
        subst here
        have showing := others again
        have keeps := (notify_views run id value views'
          (e.notifyWith run id value (.view ref))).2
        obtain ⟨before, there, same⟩ := keeps.widget_before found
        rw [Engine.showing, Engine.showing, found, there] at showing
        have drawn' : w.declared.render (e.board.store.get w.declared.id) = .ok view := drawn
        rw [← same] at drawn'
        rw [Option.some.inj showing]
        exact notify_shows there drawn'

theorem write_wrote (run : Runner) {e : Engine} (viewed : e.Viewed) (id : String) (value : Value) :
    Wrote id value e (e.writeWith run id value) := by
  obtain ⟨store, keeps⟩ := notify_views run id
    ((e.withStore (e.board.store.set id value)).board.store.get id) (viewed id)
    (e.withStore (e.board.store.set id value))
  have written : Keeps e (e.withStore (e.board.store.set id value)) := ⟨rfl, rfl, rfl, rfl⟩
  have observers := congrArg Store.observers store
  have drawn := notify_redrawn run id ((e.board.store.set id value).get id) (viewed id)
    (e.withStore (e.board.store.set id value))
  refine ⟨congrArg Store.values store, written.trans keeps, observers, ?_, ?_⟩
  · intro ref watches w view found shows
    have shows' : w.render ((e.board.store.set id value).get w.id) = .ok view := by
      rw [← shows]
      exact congrArg (fun store : Store => w.render (store.get w.id)) store.symm
    exact (drawn ref).2 watches w view found shows'
  · exact fun ref other => (drawn ref).1 other

/-! ## The programs of widgets -/

section

variable (nested : Runner) {e : Engine} (viewed : e.Viewed)
include viewed

theorem writeProperty_wrote (id name : String) (value : Value) :
    Wrote id ((e.board.store.get id).withProperty name value) e
      (e.writePropertyWith nested id name value) :=
  write_wrote nested viewed id _

theorem writeText_run (id : String) (text : Value) :
    ∃ after, (Widget.writeText id text).runWith nested e = (.done .null, after) ∧
      Wrote id (((e.board.store.get id).withProperty "value" text).withProperty "text" text) e
        after := by
  have first := writeProperty_wrote nested viewed id "value" text
  have second := writeProperty_wrote nested (viewed.of_same first.observers) id "text" text
  -- the second write reads what the first one has left
  rw [first.get] at second
  exact ⟨_, rfl, first.trans second⟩

/-- The writes of a choice, whatever follows them. -/
theorem choice_run {w : Widget} (dropdown : w.type = .dropdown) (value : Value)
    (next : Program) :
    ∃ after, (Program.writeProperty w.id "value" value <|
        .writeProperty w.id "selected_value" value <|
        .writeProperty w.id "selected_text" (w.labelOf value) next).runWith nested e =
          next.runWith nested after ∧
      Wrote w.id (w.taking value (e.board.store.get w.id)) e after := by
  have first := writeProperty_wrote nested viewed w.id "value" value
  have second :=
    writeProperty_wrote nested (viewed.of_same first.observers) w.id "selected_value" value
  -- each write starts from what the one before has left
  rw [first.get] at second
  have both := first.trans second
  have third := writeProperty_wrote nested (viewed.of_same both.observers) w.id "selected_text"
    (w.labelOf value)
  rw [second.get] at third
  have all := both.trans third
  have taken : w.taking value (e.board.store.get w.id) =
      (((e.board.store.get w.id).withProperty "value" value).withProperty "selected_value"
        value).withProperty "selected_text" (w.labelOf value) := by
    rw [Widget.taking, dropdown]
  rw [← taken] at all
  exact ⟨_, rfl, all⟩

theorem choose_run {w : Widget} (labelled : w.Labelled) (dropdown : w.type = .dropdown)
    (value : Value) :
    ∃ after, (w.choose value).runWith nested e = (.done (w.labelOf value), after) ∧
      Wrote w.id (w.taking value (e.board.store.get w.id)) e after := by
  simp only [Widget.choose, Widget.labelFor_eq labelled dropdown, Program.bind]
  exact choice_run nested viewed dropdown value (.done (w.labelOf value))

end

theorem Wrote.after_log {id : String} {value : Value} {e after : Engine} {level : Log.Level}
    {event : String} {fields : List (String × Value)}
    (wrote : Wrote id value (e.log level event fields) after) : Wrote id value e after := by
  have logged : Keeps e (e.log level event fields) := ⟨rfl, rfl, rfl, rfl⟩
  exact ⟨wrote.values, logged.trans wrote.keeps,
    wrote.redrawn.of_same rfl (fun _ => rfl) rfl rfl⟩

theorem argument_record (name : String) (args : Entries String Value) :
    argument name (.record args) = .ok ((Entries.get? name args).getD .null) := by
  have found := Value.field?_record name args
  rw [← found]
  rfl

/-- The argument that a handler looks at, null if it is not given. -/
def argumentOf (type : String) (args : Entries String Value) : Value :=
  (Entries.get? (if type = "setText" then "text" else "value") args).getD .null

/-- A handler of any widget but a chart has the widget take its argument, and ends. -/
theorem handler_run (nested : Runner) {e : Engine} (viewed : e.Viewed) {w : Widget} {ref : Nat}
    (labelled : w.Labelled) (other : w.type ≠ .chart) {type : String} {h : Handler}
    (handles : (type, h) ∈ w.handlers ref) (args : Entries String Value) :
    ∃ after, (h.call (.record args)).runWith nested e = (.done .null, after) ∧
      Wrote w.id (w.taking (argumentOf type args) (e.board.store.get w.id)) e after := by
  have logged (level : Log.Level) (event : String) (fields : List (String × Value)) :
      (e.log level event fields).Viewed := viewed.of_same rfl
  -- One case for each sort of widgets. The handlers log before they write.
  unfold Widget.handlers at handles
  cases sort : w.type with
  | button => simp [sort] at handles
  | chart => exact absurd sort other
  | calendar =>
    simp only [sort, List.mem_singleton, Prod.mk.injEq] at handles
    obtain ⟨rfl, rfl⟩ := handles
    have wrote := write_wrote nested viewed w.id (argumentOf "setValue" args)
    simp only [Widget.setDate, argument_record, Program.bind, Widget.taking, sort]
    exact ⟨_, rfl, wrote⟩
  | dropdown =>
    simp only [sort, List.mem_singleton, Prod.mk.injEq] at handles
    obtain ⟨rfl, rfl⟩ := handles
    obtain ⟨after, ran, wrote⟩ := choice_run nested (logged .debug "dropdown_set_value"
      [("widget_id", .text w.id), ("value", argumentOf "setValue" args)]) sort
      (argumentOf "setValue" args) (.done .null)
    refine ⟨after, ?_, wrote.after_log⟩
    simp only [Widget.setChoice, argument_record, Program.bind, Widget.choose,
      Widget.labelFor_eq labelled sort]
    exact ran
  | textbox =>
    simp only [sort, List.mem_cons, List.not_mem_nil, or_false, Prod.mk.injEq] at handles
    have content (event name : String) := writeText_run nested (logged .debug event
      [("widget_id", .text w.id), (name, (Entries.get? name args).getD .null)]) w.id
      ((Entries.get? name args).getD .null)
    rcases handles with ⟨rfl, rfl⟩ | ⟨rfl, rfl⟩
    · obtain ⟨after, ran, wrote⟩ := content "textbox_set_value" "value"
      refine ⟨after, ?_, ?_⟩
      · simp only [Widget.setContent, argument_record, Program.bind]
        exact ran
      · simp only [Widget.taking, sort]
        exact wrote.after_log
    · obtain ⟨after, ran, wrote⟩ := content "textbox_set_text" "text"
      refine ⟨after, ?_, ?_⟩
      · simp only [Widget.setContent, argument_record, Program.bind]
        exact ran
      · simp only [Widget.taking, sort]
        exact wrote.after_log

/-! ## Charts -/

/-- What a refresh of a chart does after its pause. -/
def renewal (chart : Nat) (w : Widget) : Program :=
  .draw chart fun a => .draw chart fun b => .draw chart fun c =>
  let data : Value := .list [Widget.dataPoint "A" a, Widget.dataPoint "B" b, Widget.dataPoint "C" c]
  .write w.id data <|
  .log .debug "chart_refresh_completed" [("widget_id", .text w.id), ("points", .int 3)] <|
  .done data

/-- How many random numbers a chart has drawn. -/
def drawnBy (e : Engine) (chart : Nat) : Nat :=
  (e.board.widgets[chart]?.map Widget.drawn).getD 0

/-- The data points that a chart draws next. -/
def nextPoints (e : Engine) (chart : Nat) : Value :=
  let point (name : String) (count : Nat) :=
    Widget.dataPoint name (e.shared.random chart (e.drawnBy chart + count))
  .list [point "A" 0, point "B" 1, point "C" 2]

/-- The engine after a chart has drawn once more. -/
def draw (chart : Nat) (e : Engine) : Engine :=
  e.updateWidget chart fun w => { w with drawn := w.drawn + 1 }

theorem drawnBy_draw {e : Engine} {chart : Nat} (inside : chart < e.board.widgets.length) :
    (e.draw chart).drawnBy chart = e.drawnBy chart + 1 := by
  simp [drawnBy, draw, updateWidget, List.getElem?_eq_getElem inside]

theorem draw_showing (e : Engine) (chart ref : Nat) :
    (e.draw chart).showing ref = e.showing ref := by
  simp only [showing, draw, updateWidget, List.getElem?_modify]
  cases e.board.widgets[ref]? with
  | none => rfl
  | some w =>
    dsimp only [Option.map_eq_map, Option.map_some]
    split <;> rfl

theorem draw_inside {e : Engine} {chart : Nat} (inside : chart < e.board.widgets.length) :
    chart < (e.draw chart).board.widgets.length := by
  simpa [draw, updateWidget] using inside

theorem handler_chart {w : Widget} {ref : Nat} (chart : w.type = .chart) {type : String}
    {h : Handler} (handles : (type, h) ∈ w.handlers ref) (args : Value) :
    h.call args = .defer true (w.refresh ref args) := by
  simp only [Widget.handlers, chart, List.mem_cons, List.not_mem_nil, or_false,
    Prod.mk.injEq] at handles
  rcases handles with ⟨-, rfl⟩ | ⟨-, rfl⟩
  · rfl
  · rfl

/-- A refresh logs its arguments and pauses. -/
theorem refresh_run (nested : Runner) (e : Engine) (chart : Nat) (w : Widget) (args : Value) :
    (w.refresh chart args).runWith nested e = (.paused (renewal chart w),
      e.log .debug "chart_refresh_started" [("widget_id", .text w.id), ("args", args)]) :=
  rfl

/-- After its pause, a refresh writes three new points. -/
theorem renewal_run (nested : Runner) {e : Engine} (viewed : e.Viewed) {chart : Nat} (w : Widget)
    (inside : chart < e.board.widgets.length) :
    ∃ after, (renewal chart w).runWith nested e = (.done (e.nextPoints chart), after) ∧
      Wrote w.id (e.nextPoints chart) e after := by
  have one := drawnBy_draw inside
  have two := drawnBy_draw (draw_inside inside)
  let drawn := draw chart (draw chart (e.draw chart))
  have viewed' : drawn.Viewed := viewed.of_same rfl
  have wrote := write_wrote nested viewed' w.id (e.nextPoints chart)
  have draws (e : Engine) : Keeps e (e.draw chart) := (Effect.draw e chart).keeps
  have kept : Keeps e drawn := ((draws e).trans (draws _)).trans (draws _)
  let last := (drawn.writeWith nested w.id (e.nextPoints chart)).log .debug
    "chart_refresh_completed" [("widget_id", .text w.id), ("points", .int 3)]
  have logged : Keeps (drawn.writeWith nested w.id (e.nextPoints chart)) last :=
    ⟨rfl, rfl, rfl, rfl⟩
  -- a chart that draws numbers shows what it has shown
  have shown (ref : Nat) : e.showing ref = drawn.showing ref := by
    simp only [drawn, draw_showing]
  refine ⟨last, ?_, wrote.values, (kept.trans wrote.keeps).trans logged,
    wrote.redrawn.of_same rfl shown rfl rfl⟩
  -- each number is drawn in the engine that the one before it has left
  have points : e.nextPoints chart = .list [
      Widget.dataPoint "A" (e.shared.random chart (e.drawnBy chart)),
      Widget.dataPoint "B" (e.shared.random chart ((e.draw chart).drawnBy chart)),
      Widget.dataPoint "C"
        (e.shared.random chart ((draw chart (e.draw chart)).drawnBy chart))] := by
    rw [two, one]
    rfl
  simp only [last, points]
  rfl

end Engine
end Patchbay
