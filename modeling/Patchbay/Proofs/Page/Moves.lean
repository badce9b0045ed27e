import Patchbay.Proofs.Page.Wiring

/-!
# What happens on a page

The user handles widgets, and tasks are stepped. Input is taken by the widget itself before its
trigger is fired (`Engine.performOn_input`), so gestures are chains of `Engine.Does` as well. The
tasks of a page are refreshes of its charts (`Engine.Chores`): a step of one pauses it or writes
three new points, and nothing else is ever written (`Engine.stepTask_stepped`).
-/

namespace Patchbay

open Relation (ReflTransGen)

/-- The value that a user enters. -/
def Gesture.value? : Gesture → Option Value
  | .select value => some value
  | .typeText text => some text
  | .pick date => some date
  | .click => none

/-- What a widget tells with its trigger when it has taken a value from its user. -/
def Widget.inputContext (w : Widget) (value : Value) : Value :=
  Engine.ownContext w (match w.type with
    | .dropdown => [("value", value), ("selected_value", value), ("selected_text", w.labelOf value)]
    | .textbox => [("value", value), ("text", value)]
    | _ => [("value", value)])

/-- Neither buttons nor charts take input. -/
theorem Gesture.takes_of_input {g : Gesture} {w : Widget} {value : Value}
    (sort : w.type = g.component) (input : g.value? = some value) :
    w.declared.type ≠ .button ∧ w.declared.type ≠ .chart := by
  cases g with
  | click => cases input
  | select | typeText | pick => simp [Widget.declared, sort, component]

namespace Engine

theorem declared_getElem? (e : Engine) (ref : Nat) :
    e.declared[ref]? = (e.board.widgets[ref]?).map Widget.declared := by
  simp [declared]

theorem inside_of_declared {e : Engine} {ref : Nat} {w : Widget}
    (known : e.declared[ref]? = some w) : ref < e.board.widgets.length := by
  have inside := (List.getElem?_eq_some_iff.mp known).1
  rwa [declared, List.length_map] at inside

theorem Wired.labelled_at {e : Engine} (wired : e.Wired) {ref : Nat} {w : Widget}
    (found : e.board.widgets[ref]? = some w) : w.Labelled := by
  have declared : w.declared ∈ e.declared :=
    List.mem_map_of_mem (List.mem_of_getElem? found)
  have known := wired.labelled _ declared
  exact known

/-- The engine in which a gesture fires its trigger: what the user has entered is written. -/
def entered (w : Widget) (e : Engine) : Gesture → Engine
  | .select value => ((w.choose value).run e).2
  | .typeText text => ((Widget.writeText w.id text).run e).2
  | .pick date => e.write w.id date
  | .click => e

/-- A widget takes what its user enters, and then fires its trigger. -/
theorem performOn_entered {e : Engine} (wired : e.Wired) {ref : Nat} {w : Widget}
    (found : e.board.widgets[ref]? = some w) {gesture : Gesture} {value : Value}
    (sort : w.type = gesture.component) (input : gesture.value? = some value) :
    Wrote w.id (w.taking value (e.board.store.get w.id)) e (e.entered w gesture) ∧
      e.performOn w gesture =
        (.ok (), (e.entered w gesture).fire w "onChange" (w.inputContext value)) := by
  unfold performOn
  rw [if_neg (by simp [sort])]
  cases gesture with
  | click => cases input
  | select =>
    cases input
    obtain ⟨wrote, ran, took⟩ := choose_run (Program.runAt (nestingLimit - 1)) wired.viewed
      (wired.labelled_at found) sort value
    -- what users do starts at the outermost level
    rw [← Program.run_eq] at ran
    simp only [entered, ran, afterwards, Widget.inputContext]
    refine ⟨took, ?_⟩
    rw [sort]
    rfl
  | typeText =>
    cases input
    obtain ⟨wrote, ran, took⟩ := writeText_run (Program.runAt (nestingLimit - 1)) wired.viewed
      w.id value
    rw [← Program.run_eq] at ran
    simp only [entered, ran, afterwards, Widget.inputContext, Widget.taking]
    rw [sort]
    exact ⟨took, rfl⟩
  | pick =>
    cases input
    have took := write_wrote Program.run wired.viewed w.id value
    simp only [Widget.inputContext, Widget.taking]
    rw [sort]
    exact ⟨took, rfl⟩

theorem performOn_input {e : Engine} (wired : e.Wired) {ref : Nat} {w : Widget}
    (found : e.board.widgets[ref]? = some w) {gesture : Gesture} {value : Value}
    (sort : w.type = gesture.component) (input : gesture.value? = some value) :
    ∃ wrote, Wrote w.id (w.taking value (e.board.store.get w.id)) e wrote ∧
      e.performOn w gesture = (.ok (), wrote.fire w "onChange" (w.inputContext value)) :=
  ⟨_, performOn_entered wired found sort input⟩

theorem fire_does {good : Value → Prop} {e : Engine} (wired : e.Wired) (w : Widget)
    (event : String) (context : Value)
    (gives : ∀ rule ∈ e.page.rules, ∀ action ∈ rule.actions, ∀ context,
      Gives good context action) :
    ReflTransGen (Does good) e (e.fire w event context) := by
  have logged : (e.log .debug "widget_fired" [("widget_id", .text w.id),
      ("trigger", .text s!"{w.id}.{event}")]).Wired := wired.of_board rfl
  have acts := dispatch_does logged s!"{w.id}.{event}" context fun action member => by
    obtain ⟨rule, matched, inside⟩ := List.mem_flatMap.mp member
    exact gives rule (List.mem_of_mem_filter matched) action inside context
  have noted : Does good e (e.log .debug "widget_fired" [("widget_id", .text w.id),
      ("trigger", .text s!"{w.id}.{event}")]) := .note rfl
  exact .head noted acts

/-- What a gesture has come to. -/
inductive Performed (e : Engine) (w : Widget) (g : Gesture) : Engine → Prop
  /-- The widget is of another sort. -/
  | refused (other : w.type ≠ g.component) : Performed e w g e
  | clicked (sort : w.type = .button) (click : g = .click) :
    Performed e w g (e.fire w "onClick" (.record (e.board.store.clickContext e.page.rules w.id)))
  | entered {wrote : Engine} {value : Value} (sort : w.type = g.component)
    (input : g.value? = some value) (took : Took w.declared value e wrote) (wired : wrote.Wired)
    (page : wrote.page = e.page) (redrawn : Redrawn w.id e wrote) :
    Performed e w g (wrote.fire w "onChange" (w.inputContext value))

theorem performOn_performed {e : Engine} (wired : e.Wired) {ref : Nat} {w : Widget}
    (found : e.board.widgets[ref]? = some w) (g : Gesture) :
    Performed e w g (e.performOn w g).2 := by
  by_cases sort : w.type = g.component
  · cases input : g.value? with
    | none =>
      -- only a click enters nothing
      have click : g = .click := by
        cases g with
        | click => rfl
        | select | typeText | pick => cases input
      subst click
      simp only [performOn, sort, ne_eq, not_true_eq_false, ↓reduceIte]
      exact .clicked sort rfl
    | some value =>
      obtain ⟨wrote, took, performed⟩ := performOn_input wired found sort input
      have registry : wrote.board.registry = e.board.registry := by rw [took.keeps.board]
      rw [performed]
      exact .entered sort input (Took.of_wrote took rfl)
        (wired.of_same took.keeps.declared registry (wired.viewed.of_same took.observers))
        took.keeps.page took.redrawn
  · simp only [performOn, sort, ne_eq, not_false_eq_true, ↓reduceIte]
    exact .refused sort

/-- Whatever a user does is a chain of what a page can do. -/
theorem performOn_does {good : Value → Prop} {e : Engine} (wired : e.Wired) {ref : Nat}
    {w : Widget} (found : e.board.widgets[ref]? = some w) (gesture : Gesture)
    (entered : ∀ value, gesture.value? = some value → good value)
    (gives : ∀ rule ∈ e.page.rules, ∀ action ∈ rule.actions, ∀ context,
      Gives good context action) :
    ReflTransGen (Does good) e (e.performOn w gesture).2 := by
  have performed := performOn_performed wired found gesture
  generalize (e.performOn w gesture).2 = after at performed ⊢
  cases performed with
  | refused => exact .refl
  | clicked => exact fire_does wired w _ _ gives
  | entered sort input took wired' page redrawn =>
    have declared : e.declared[ref]? = some w.declared := by
      rw [declared_getElem?, found, Option.map_some]
    rw [← page] at gives
    exact .head (.take declared (Gesture.takes_of_input sort input) (entered _ input) took redrawn)
      (fire_does wired' w _ _ gives)

/-! ## The tasks of a page -/

/-- A task that is a refresh of a chart, begun or not. -/
def Chore (widgets : List Widget) (task : Task) : Prop :=
  ∃ (place : Nat) (w : Widget), widgets[place]? = some w ∧ w.type = .chart ∧
    w.id = task.target ∧
    ((∃ args, task.body = w.refresh place args) ∨ task.body = renewal place w)

/-- All tasks are refreshes of charts. -/
def Chores (e : Engine) : Prop :=
  ∀ (ref : Nat) (task : Task), e.board.tasks[ref]? = some task → Chore e.declared task

theorem Chore.of_same {widgets : List Widget} {task now : Task} (chore : Chore widgets task)
    (target : now.target = task.target) (body : now.body = task.body) : Chore widgets now := by
  obtain ⟨place, w, found, chart, same, bodies⟩ := chore
  refine ⟨place, w, found, chart, same.trans target.symm, ?_⟩
  rw [body]
  exact bodies

theorem Does.declared {good : Value → Prop} {e after : Engine} (does : Does good e after) :
    after.declared = e.declared := by
  cases does with
  | note same => exact declared_of_board same
  | take _ _ _ took => exact took.declared
  | start => exact (schedule_steady _ _ _ _).declared

/-- What everything that a page does preserves holds in the end, with the same widgets. -/
theorem does_invariant {good : Value → Prop} {start e : Engine}
    (does : ReflTransGen (Does good) start e) {holds : Engine → Prop} (first : holds start)
    (preserved : ∀ {between after : Engine}, between.declared = start.declared →
      Does good between after → holds between → holds after) :
    e.declared = start.declared ∧ holds e := by
  induction does with
  | refl => exact ⟨rfl, first⟩
  | tail _ does ih => exact ⟨does.declared.trans ih.1, preserved ih.1 does ih.2⟩

theorem Does.chores {good : Value → Prop} {e after : Engine} (does : Does good e after)
    (chores : e.Chores) : after.Chores := by
  intro ref task found
  rw [does.declared]
  cases does with
  | note same => exact chores ref task (same ▸ found)
  | take _ _ _ took =>
    rw [took.board] at found
    exact chores ref task found
  | @start place w known chart args action target dispatchId =>
    -- The task was there before, or it is the refresh that has been started.
    rcases task_of_schedule found with ⟨old, was, lapses⟩ | lapses
    · exact (chores ref old was).of_same lapses.target lapses.body
    · have same := target.trans lapses.target.symm
      exact ⟨place, w, known, chart, same, .inl ⟨args, lapses.body⟩⟩

/-- What a step has come to. -/
inductive Stepped (e : Engine) (ref : Nat) (after : Engine) : Prop
  /-- There is no such task, or it has ended. -/
  | stays (same : after = e)
    (ended : ∀ task, e.board.tasks[ref]? = some task → task.progress.isDone = true)
  /-- A task that was not to go on has ended. -/
  | ends {task : Task} (found : e.board.tasks[ref]? = some task)
    (cancelling : task.progress = .cancelling)
    (board : after.board = { e.board with tasks := e.board.tasks.modify ref fun task =>
      { task with progress := .cancelled } })
    (queue : ∃ r, after.shared.queue = e.shared.queue ++ [r])
  /-- A refresh has begun. -/
  | pauses {task : Task} {place : Nat} {w : Widget} (found : e.board.tasks[ref]? = some task)
    (pending : task.progress = .pending) (vars : Log.Vars)
    (board : after.board = { e.board with tasks := e.board.tasks.modify ref fun task =>
      { task with vars := vars, body := renewal place w } })
    (known : e.declared[place]? = some w) (chart : w.type = .chart) (target : w.id = task.target)
    (begins : ∃ args, task.body = w.refresh place args)
    (queue : ∃ r, r.turn = .step ref ∧ after.shared.queue = e.shared.queue ++ [r])
  /-- A refresh has written its points and ended. -/
  | renews {task : Task} {place : Nat} {w : Widget} (found : e.board.tasks[ref]? = some task)
    (pending : task.progress = .pending) (vars : Log.Vars)
    (known : e.declared[place]? = some w) (chart : w.type = .chart) (target : w.id = task.target)
    (values : after.board.store.values =
      Entries.put w.id (e.nextPoints place) e.board.store.values)
    (observers : after.board.store.observers = e.board.store.observers)
    (board : after.board = { e.board with
      store := after.board.store
      widgets := after.board.widgets
      tasks := e.board.tasks.modify ref fun task =>
        { task with vars := vars, progress := .completed } })
    (redrawn : Redrawn w.id e after) (queue : ∃ r, after.shared.queue = e.shared.queue ++ [r])

theorem stepTask_stepped {e : Engine} (wired : e.Wired) (chores : e.Chores) (ref : Nat) :
    Stepped e ref (e.stepTask ref) := by
  unfold stepTask
  cases found : e.board.tasks[ref]? with
  | none =>
    refine .stays rfl fun task there => ?_
    rw [found] at there
    cases there
  | some task =>
    dsimp only
    cases progress : task.progress with
    | completed | failed | cancelled =>
      refine .stays rfl fun task there => ?_
      cases found.symm.trans there
      rw [progress]
      rfl
    | cancelling => exact .ends found progress rfl ⟨_, rfl⟩
    | pending =>
      -- The task is a refresh that has not begun, or one that has paused.
      obtain ⟨place, w, known, chart, target, ⟨args, body⟩ | body⟩ := chores ref task found
      · have ran := refresh_run (Program.runAt (nestingLimit - 1)) (e.withVars task.vars) place w
          args
        rw [← body, ← Program.run_eq] at ran
        dsimp only
        rw [ran]
        refine .pauses found progress task.vars ?_ known chart target ⟨args, body⟩ ⟨_, rfl, rfl⟩
        simp only [updateTask, withVars, enqueue, Engine.log, List.modify_modify_eq]
        rfl
      · have inside := inside_of_declared known
        have viewed : (e.withVars task.vars).Viewed := wired.viewed.of_same rfl
        obtain ⟨after, ran, wrote⟩ := renewal_run (Program.runAt (nestingLimit - 1)) viewed w inside
        rw [← body, ← Program.run_eq] at ran
        have board := wrote.keeps.board
        have queue : (((after.updateTask ref fun task => { task with vars := after.shared.vars
            }).withVars e.shared.vars).finishTask ref .completed).shared.queue =
              e.shared.queue ++ [⟨after.board.index, .settle ref⟩] := by
          simp only [finishTask, updateTask, withVars, enqueue]
          rw [wrote.keeps.shared]
          rfl
        dsimp only
        rw [ran]
        refine .renews found progress after.shared.vars known chart target wrote.values
          wrote.observers ?_ (wrote.redrawn.of_same rfl (fun _ => rfl) rfl rfl) ⟨_, queue⟩
        simp only [finishTask, updateTask, withVars, enqueue, List.modify_modify_eq]
        rw [board]
        rfl

/-- What holds of every task still does when it holds of the one that is replaced. -/
theorem updateTask_invariant {holds : Task → Prop} {e : Engine} {ref : Nat} {f : Task → Task}
    (before : ∀ (place : Nat) (task : Task), e.board.tasks[place]? = some task → holds task)
    (change : ∀ task, e.board.tasks[ref]? = some task → holds (f task)) (place : Nat) (task : Task)
    (found : (e.updateTask ref f).board.tasks[place]? = some task) : holds task := by
  rw [updateTask_tasks, Option.map_eq_some_iff] at found
  obtain ⟨old, was, rfl⟩ := found
  unfold changeAt
  split
  · next here =>
    subst here
    exact change old was
  · exact before place old was

/-- A task is replaced by one for the same target with the same or a further body. -/
theorem Chores.updateTask {e : Engine} (chores : e.Chores) {ref : Nat} {f : Task → Task}
    (change : ∀ task, e.board.tasks[ref]? = some task → Chore e.declared (f task)) :
    (e.updateTask ref f).Chores :=
  updateTask_invariant chores change

theorem Chores.of_tasks {e after : Engine} (chores : e.Chores)
    (tasks : after.board.tasks = e.board.tasks) (declared : after.declared = e.declared) :
    after.Chores := by
  intro ref task found
  rw [declared]
  rw [tasks] at found
  exact chores ref task found

/-- A step writes nothing, or three new points of a chart. -/
theorem Stepped.values {e after : Engine} {ref : Nat} (stepped : Stepped e ref after) :
    after.board.store.values = e.board.store.values ∨
      ∃ (place : Nat) (w : Widget), e.declared[place]? = some w ∧ w.type = .chart ∧
        after.board.store.values = Entries.put w.id (e.nextPoints place) e.board.store.values := by
  cases stepped with
  | stays same => exact .inl (by rw [same])
  | ends _ _ board => exact .inl (by rw [board])
  | pauses _ _ _ board => exact .inl (by rw [board])
  | renews _ _ _ known chart _ values => exact .inr ⟨_, _, known, chart, values⟩

theorem settleTask_values {e : Engine} {ref : Nat} {task : Task}
    (found : e.board.tasks[ref]? = some task) :
    (e.settleTask ref).board.store.values = e.board.store.values :=
  congrArg (fun b => b.store.values) (settleTask_board found)

theorem Stepped.viewed {e after : Engine} {ref : Nat} (stepped : Stepped e ref after)
    (viewed : e.Viewed) : after.Viewed := by
  cases stepped with
  | stays same => rwa [same]
  | ends _ _ board => exact viewed.of_same (congrArg (fun b => b.store.observers) board)
  | pauses _ _ _ board => exact viewed.of_same (congrArg (fun b => b.store.observers) board)
  | renews _ _ _ _ _ _ _ observers => exact viewed.of_same observers

theorem Stepped.chores {e after : Engine} {ref : Nat} (stepped : Stepped e ref after)
    (chores : e.Chores) (declared : after.declared = e.declared) : after.Chores := by
  cases stepped with
  | stays same => rwa [same]
  | ends found cancelling board =>
    have changed : (e.updateTask ref fun task => { task with progress := .cancelled }).Chores :=
      chores.updateTask fun task found => (chores ref task found).of_same rfl rfl
    exact changed.of_tasks (congrArg Board.tasks board) declared
  | @pauses task place w found pending vars board known chart target =>
    have changed : (e.updateTask ref fun task =>
        { task with vars := vars, body := renewal place w }).Chores :=
      chores.updateTask fun task' found' => by
        cases found.symm.trans found'
        exact ⟨place, w, known, chart, target, .inr rfl⟩
    exact changed.of_tasks (congrArg Board.tasks board) declared
  | renews found pending vars known chart target values observers board =>
    have changed : (e.updateTask ref fun task =>
        { task with vars := vars, progress := .completed }).Chores :=
      chores.updateTask fun task found => (chores ref task found).of_same rfl rfl
    have tasks := congrArg Board.tasks board
    exact changed.of_tasks tasks declared

/-! ## Whatever happens on a page -/

/-- What happens on a page: a trigger is fired against some rules, a user handles a widget of the
page, a task is stepped, or the end of a task is taken note of. -/
inductive PageMoves : Engine → Engine → Prop
  | dispatch (rules : List Rule) (trigger : String) (context : Value) (e : Engine) :
    PageMoves e (dispatch trigger context { e with page.rules := rules })
  | gesture {e : Engine} {ref : Nat} {w : Widget} (found : e.board.widgets[ref]? = some w)
    (g : Gesture) : PageMoves e (e.performOn w g).2
  | step (ref : Nat) (e : Engine) : PageMoves e (e.stepTask ref)
  | settle {e : Engine} {ref : Nat} {task : Task} (found : e.board.tasks[ref]? = some task)
    (done : task.progress.isDone = true) : PageMoves e (e.settleTask ref)

theorem PageMoves.fired (trigger : String) (context : Value) (e : Engine) :
    PageMoves e (e.dispatch trigger context) :=
  .dispatch e.page.rules trigger context e

theorem PageMoves.moves {e after : Engine} (move : PageMoves e after) : Moves e after := by
  cases move with
  | dispatch rules trigger context => exact .dispatch rules trigger context e
  | gesture found g => exact .gesture _ g e
  | step ref => exact .step ref e
  | settle found done => exact .settle found done

/-- The widgets of a page are wired, and its tasks are refreshes. -/
structure Orderly (e : Engine) : Prop where
  wired : e.Wired
  chores : e.Chores

theorem Orderly.of_board {e after : Engine} (orderly : e.Orderly)
    (same : after.board = e.board) : after.Orderly :=
  ⟨orderly.wired.of_board same,
    orderly.chores.of_tasks (congrArg Board.tasks same) (declared_of_board same)⟩

theorem Orderly.after_does {good : Value → Prop} {e after : Engine} (orderly : e.Orderly)
    (wired : after.Wired) (does : ReflTransGen (Does good) e after) :
    after.Orderly ∧ after.declared = e.declared := by
  -- wiring is known of the last engine, so only the chores go through the chain
  obtain ⟨declared, chores⟩ := does_invariant does orderly.chores fun _ does chores =>
    does.chores chores
  exact ⟨⟨wired, chores⟩, declared⟩

theorem Orderly.after_step {e after : Engine} {ref : Nat} (orderly : e.Orderly)
    (stepped : Stepped e ref after) (steady : Steady e after) : after.Orderly :=
  ⟨orderly.wired.of_same steady.declared steady.registry (stepped.viewed orderly.wired.viewed),
    stepped.chores orderly.chores steady.declared⟩

theorem Orderly.after_note {e : Engine} {ref : Nat} {task : Task} (orderly : e.Orderly)
    (found : e.board.tasks[ref]? = some task) :
    (e.settleTask ref).Orderly ∧ (e.settleTask ref).declared = e.declared := by
  have board := settleTask_board found
  have declared : (e.settleTask ref).declared = e.declared :=
    congrArg (fun b => b.widgets.map Widget.declared) board
  have registry : (e.settleTask ref).board.registry = e.board.registry := by
    rw [board]
    rfl
  have viewed := orderly.wired.viewed.of_same (congrArg (fun b => b.store.observers) board)
  have wired := orderly.wired.of_same declared registry viewed
  have changed : (e.updateTask ref noted).Chores :=
    orderly.chores.updateTask fun task found => (orderly.chores ref task found).of_same rfl rfl
  exact ⟨⟨wired, changed.of_tasks (settleTask_tasks found) declared⟩, declared⟩

/-- What a move comes to: programs run on the board, a task is stepped, or its end is noted. -/
inductive Kinds (e after : Engine) : Prop
  | ran (start : Engine) (same : start.board = e.board) (effects : Effects True start after)
    (does : ReflTransGen (Does fun _ => True) start after)
  | stepped (ref : Nat) (is : after = e.stepTask ref)
  | noted (ref : Nat) (task : Task) (found : e.board.tasks[ref]? = some task)
    (is : after = e.settleTask ref)

theorem PageMoves.kinds {e after : Engine} (move : PageMoves e after) (wired : e.Wired) :
    Kinds e after := by
  cases move with
  | dispatch rules trigger context =>
    have wired' : ({ e with page.rules := rules } : Engine).Wired := wired.of_board rfl
    exact .ran { e with page.rules := rules } rfl
      (dispatch_effects trigger context _)
      (dispatch_does wired' trigger context fun _ _ _ _ _ => trivial)
  | @gesture e place w found g =>
    exact .ran e rfl (performOn_effects w g e)
      (performOn_does wired found g (fun _ _ => trivial) fun _ _ _ _ _ _ _ _ => trivial)
  | step ref => exact .stepped ref rfl
  | @settle e ref task found done => exact .noted ref task found rfl

/-- A page stays orderly, with the same widgets. -/
theorem PageMoves.orderly {e after : Engine} (move : PageMoves e after) (orderly : e.Orderly) :
    after.Orderly ∧ after.declared = e.declared := by
  cases move.kinds orderly.wired with
  | ran start same effects does =>
    have started := orderly.of_board same
    obtain ⟨orderly', declared⟩ := started.after_does (started.wired.of_effects effects) does
    exact ⟨orderly', declared.trans (declared_of_board same)⟩
  | stepped ref is =>
    subst is
    have steady := stepTask_steady e ref
    exact ⟨orderly.after_step (stepTask_stepped orderly.wired orderly.chores ref) steady,
      steady.declared⟩
  | noted ref task found is =>
    subst is
    exact orderly.after_note found

end Engine
end Patchbay
