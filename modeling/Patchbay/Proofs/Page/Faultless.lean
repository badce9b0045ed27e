import Patchbay.Proofs.Page.Calm
import Patchbay.Proofs.Page.Usage

/-!
# A page that has been opened does not fail

Opening draws every widget once. From then on all of them can be drawn, whatever is stored for them:
charts alone look into their values, and only a refresh writes those. Since all that is stored is
encodable, arguments can always be resolved. So nothing that happens on the page fails, neither at
once nor in the background (`Engine.page_unfailing`).
-/

namespace Patchbay

open Relation (ReflTransGen)

/-! ## Values that can be resolved -/

/-- Whatever a reference stands for is part of what the context or the store has. -/
theorem Scope.reading_encodable (scope : Scope) (context : scope.context.Encodable)
    (store : ∀ id v, Entries.get? id scope.store = some v → v.Encodable) (ref : Reference) :
    (scope.reading ref).Encodable := by
  have given : ((scope.context.field? ref.widget).getD .null).Encodable := by
    cases found : scope.context.field? ref.widget with
    | none => exact nofun
    | some v => exact context.field? found
  have stored : ((Entries.get? ref.widget scope.store).getD .null).Encodable := by
    cases found : Entries.get? ref.widget scope.store with
    | none => exact nofun
    | some v => exact store _ v found
  unfold reading
  split
  · exact stored.property ref.property
  · exact given.property ref.property

theorem Widget.inputContext_encodable {w : Widget} (props : (Value.record w.props).Encodable)
    {value : Value} (entered : value.Encodable) : (w.inputContext value).Encodable := by
  refine Value.encodable_record (List.forall_mem_singleton.mpr (Value.encodable_record ?_))
  cases w.type with
  | dropdown =>
    simp only [List.forall_mem_cons]
    exact ⟨entered, entered, w.labelOf_encodable props value, List.forall_mem_nil _⟩
  | textbox =>
    simp only [List.forall_mem_cons]
    exact ⟨entered, entered, List.forall_mem_nil _⟩
  | button | calendar | chart => exact List.forall_mem_singleton.mpr entered

theorem Store.clickContext_encodable {store : Store} (stored : ∀ id, (store.get id).Encodable)
    (rules : List Rule) (button : String) :
    (Value.record (store.clickContext rules button)).Encodable := by
  have collected (ids : List String) (context : Entries String Value)
      (parts : ∀ field ∈ context, field.2.Encodable) :
      ∀ field ∈ store.collect button context ids, field.2.Encodable := by
    unfold collect
    induction ids generalizing context with
    | nil => exact parts
    | cons id rest ih =>
      refine ih _ fun field member => ?_
      dsimp only at member
      split at member
      · exact parts field member
      · rcases Entries.eq_or_mem_of_mem_put member with rfl | before
        · exact stored id
        · exact parts field before
  exact Value.encodable_record (collected _ [] (List.forall_mem_nil _))

namespace Engine

/-- An action on a page is resolved in every context that is encodable. -/
theorem Used.resolves {document : Document} {e : Engine} (used : Used document e) {context : Value}
    (askable : context = .null ∨ ∃ entries, context = .map entries) (encodable : context.Encodable)
    (action : Action) : ∃ args, ((e.scope context).resolveAll action.args).outcome = .ok args := by
  have asks : (e.scope context).Askable := askable
  rw [Scope.resolveAll_outcome asks]
  cases filled : Value.fillAll (e.scope context).reading action.args with
  | ok args => exact ⟨args, rfl⟩
  | error fault =>
    -- some token would have to stand for a value without a text
    obtain ⟨arg, -, body, -, tupled⟩ := (Value.fillAll_eq_error_iff _ _).mp ⟨fault, filled⟩
    have readable : ((e.scope context).reading (Reference.ofBody body)).Encodable :=
      Scope.reading_encodable (e.scope context) encodable used.encodable _
    exact absurd tupled readable

/-! ## What holds between two moves -/

/-- No task has failed. -/
def Unfailed (e : Engine) : Prop :=
  ∀ (ref : Nat) (task : Task), e.board.tasks[ref]? = some task →
    ∀ fault, task.progress ≠ .failed fault

/-- A page in use on which every widget can be drawn and no task has failed. -/
structure Sound (document : Document) (e : Engine) : Prop where
  used : Used document e
  shown : e.Shown
  unfailed : e.Unfailed

theorem Unfailed.of_tasks {e after : Engine} (unfailed : e.Unfailed)
    (same : after.board.tasks = e.board.tasks) : after.Unfailed := by
  intro ref task found
  rw [same] at found
  exact unfailed ref task found

/-- No task ends while programs run. -/
theorem Unfailed.of_effects {e after : Engine} (unfailed : e.Unfailed)
    (effects : Effects True e after) : after.Unfailed := by
  intro ref task found fault failed
  rcases effects.origin found with ⟨old, was, rfl | ⟨-, rfl⟩⟩ | running
  · exact unfailed ref task was fault failed
  · cases failed
  · rw [failed] at running
    cases running

theorem Unfailed.updateTask {e after : Engine} (unfailed : e.Unfailed) {ref : Nat} {f : Task → Task}
    (change : ∀ task, e.board.tasks[ref]? = some task → ∀ fault, (f task).progress ≠ .failed fault)
    (tasks : after.board.tasks = e.board.tasks.modify ref f) : after.Unfailed := by
  have changed : (e.updateTask ref f).Unfailed := updateTask_invariant unfailed change
  exact changed.of_tasks tasks

theorem Stepped.unfailed {e after : Engine} {ref : Nat} (stepped : Stepped e ref after)
    (unfailed : e.Unfailed) : after.Unfailed := by
  cases stepped with
  | stays same => rwa [same]
  | ends _ _ board =>
    refine unfailed.updateTask (fun _ _ _ => ?_) (congrArg Board.tasks board)
    exact nofun
  | pauses _ _ _ board =>
    refine unfailed.updateTask (fun task found fault => ?_) (congrArg Board.tasks board)
    exact unfailed ref task found fault
  | renews _ _ _ _ _ _ _ _ board =>
    refine unfailed.updateTask (fun _ _ _ => ?_) (congrArg Board.tasks board)
    exact nofun

theorem shown_of_does {e after : Engine} (wired : e.Wired) (shown : e.Shown)
    (does : ReflTransGen (Does Value.Encodable) e after) : after.Shown := by
  refine (does_invariant does shown fun {between _} declared does shown => ?_).2
  cases does with
  | note same => exact shown.of_same (declared_of_board same) (by rw [same])
  | take found takes _ took =>
    have fits := wired.fits (declared ▸ found) takes.2
    rw [← declared] at fits
    exact shown.of_put (fits _) took.declared took.values
  | start => exact shown.of_same (schedule_steady _ _ _ _).declared (by rw [schedule_store])

/-- What a chart draws next can be shown by it. -/
theorem Wired.fits_points {e : Engine} (wired : e.Wired) {ref : Nat} {w : Widget}
    (known : e.declared[ref]? = some w) (chart : w.type = .chart) :
    Fits e.declared w.id (e.nextPoints ref) :=
  fits_of_distinct wired.distinct known (Widget.shows_points chart _ _ _)

section

variable {document : Document} {e : Engine} (sound : Sound document e)
  (encodable : document.Encodable)
include sound

theorem Sound.of_board {after : Engine} (same : after.board = e.board)
    (rules : after.page.rules = e.page.rules) : Sound document after :=
  ⟨sound.used.of_board same rules,
    sound.shown.of_same (declared_of_board same) (by rw [same]),
    sound.unfailed.of_tasks (congrArg Board.tasks same)⟩

include encodable

theorem Sound.after_does {after : Engine} (effects : Effects True e after)
    (does : ReflTransGen (Does Value.Encodable) e after) : Sound document after :=
  ⟨sound.used.after_does encodable effects does,
    shown_of_does sound.used.orderly.wired sound.shown does,
    sound.unfailed.of_effects effects⟩

theorem Sound.happens {after : Engine} (happens : Happens e after) : Sound document after := by
  have wired := sound.used.orderly.wired
  have used := sound.used.happens encodable happens
  cases happens with
  | @gesture _ ref w found g entered =>
    exact sound.after_does encodable (performOn_effects w g e) (sound.used.performs found entered)
  | fire trigger =>
    exact sound.after_does encodable (dispatch_effects trigger _ e)
      (sound.used.fires trigger _)
  | @refresh _ ref w known chart body part =>
    refine ⟨used, ?_, sound.unfailed.of_effects (run_effects body e)⟩
    rcases part with ⟨args, rfl⟩ | rfl
    · exact sound.shown.of_same rfl rfl
    · obtain ⟨after, ran, wrote⟩ := renewal_run (Program.runAt (nestingLimit - 1)) wired.viewed w
        (inside_of_declared known)
      rw [← Program.run_eq] at ran
      rw [ran]
      exact sound.shown.of_put (wired.fits_points known chart) wrote.keeps.declared wrote.values
  | turn t =>
    cases t with
    | step ref =>
      have stepped := stepTask_stepped wired sound.used.orderly.chores ref
      have declared : (e.stepTask ref).declared = e.declared := (stepTask_steady e ref).declared
      refine ⟨used, ?_, stepped.unfailed sound.unfailed⟩
      rcases stepped.values with same | ⟨place, w, known, chart, values⟩
      · exact sound.shown.of_same declared same
      · exact sound.shown.of_put (wired.fits_points known chart) declared values
    | settle ref =>
      cases found : e.board.tasks[ref]? with
      | none =>
        simp only [turn, settleTask, found]
        exact sound
      | some task =>
        have unfailed : (e.settleTask ref).Unfailed :=
          sound.unfailed.updateTask (f := noted) (fun task found => sound.unfailed ref task found)
            (settleTask_tasks found)
        exact ⟨used, sound.shown.of_same (sound.used.orderly.after_note found).2
          (settleTask_values found), unfailed⟩
  | queue turns => exact sound.of_board rfl rfl

end

/-! ## No move fails -/

section

variable {document : Document} {e : Engine} (sound : Sound document e)
  (encodable : document.Encodable)
include sound encodable

theorem Sound.actions_calm {context : Value}
    (askable : context = .null ∨ ∃ entries, context = .map entries) (json : context.Encodable)
    (dispatchId : String) (actions : List Action)
    (gives : ∀ action ∈ actions, Gives Value.Encodable context action) :
    Calm e (actions.foldl (runActionWith Program.run context dispatchId) e) := by
  induction actions generalizing e with
  | nil => exact .of_same rfl rfl
  | cons action rest ih =>
    have wired := sound.used.orderly.wired
    obtain ⟨args, resolved⟩ := sound.used.resolves askable json action
    have calm := runAction_calm wired sound.shown resolved dispatchId
    -- the next action finds the page as sound as this one did
    have effects := runActionWith_effects (run_chains True) trivial context dispatchId e action
    have does := (runAction_carried wired context dispatchId action).does
      (gives action List.mem_cons_self)
    have later := ih (sound.after_does encodable effects does) fun action member =>
      gives action (List.mem_cons_of_mem _ member)
    exact calm.trans later

theorem Sound.dispatch_calm (trigger : String) {context : Value}
    (askable : context = .null ∨ ∃ entries, context = .map entries) (json : context.Encodable) :
    Calm e (e.dispatch trigger context) := by
  have begun : Sound document (e.beginDispatch trigger) := by
    obtain ⟨lines, eq⟩ := e.beginDispatch_eq trigger
    rw [eq]
    exact sound.of_board rfl rfl
  have acts := begun.actions_calm encodable askable json e.nextDispatchId (e.actionsOn trigger)
    fun action member => by
      obtain ⟨rule, matched, inside⟩ := List.mem_flatMap.mp member
      exact sound.used.gives rule (List.mem_of_mem_filter matched) action inside context
  exact ((beginDispatch_calm trigger e).trans acts).trans (endDispatch_calm e _ trigger)

theorem Sound.fire_calm (w : Widget) (event : String) {entries : List (Key × Value)}
    (json : (Value.map entries).Encodable) : Calm e (e.fire w event (.map entries)) := by
  have logged : Sound document (e.log .debug "widget_fired" [("widget_id", .text w.id),
      ("trigger", .text s!"{w.id}.{event}")]) := sound.of_board rfl rfl
  have told : Calm e (e.log .debug "widget_fired" [("widget_id", .text w.id),
      ("trigger", .text s!"{w.id}.{event}")]) := .log (by decide) _ _ _
  exact told.trans (logged.dispatch_calm encodable _ (.inr ⟨entries, rfl⟩) json)

end

theorem entered_effects (w : Widget) (g : Gesture) (e : Engine) :
    Effects True e (e.entered w g) := by
  cases g with
  | select | typeText => exact run_effects _ e
  | pick date =>
    exact writeWith_effects (run_chains True) _ _ _ (Store.within_of_fires trivial _)
  | click => exact .refl

/-- Writing what a user has entered is calm. -/
theorem entered_calm {e : Engine} (wired : e.Wired) (shown : e.Shown) {ref : Nat} {w : Widget}
    (found : e.board.widgets[ref]? = some w) {g : Gesture} (sort : w.type = g.component) :
    Calm e (e.entered w g) := by
  have declared : e.declared[ref]? = some w.declared := by
    rw [declared_getElem?, found, Option.map_some]
  have labelled := wired.labelled_at found
  have fits := wired.fits declared
  cases g with
  | click => exact .of_same rfl rfl
  | pick date =>
    have own := fits (Gesture.takes_of_input sort rfl).2
    exact (write_calm Program.run wired.viewed shown (own date)).1
  | typeText text =>
    have own := fits (Gesture.takes_of_input sort rfl).2
    exact ((Widget.writeText_tame own text).run_calm _ wired.viewed shown rfl).1
  | select value =>
    have own := fits (Gesture.takes_of_input sort rfl).2
    exact ((Widget.choose_tame labelled sort own value).1.run_calm _ wired.viewed shown rfl).1

/-- A widget knows the gestures of its own sort. -/
theorem performOn_ok {e : Engine} (wired : e.Wired) {ref : Nat} {w : Widget}
    (found : e.board.widgets[ref]? = some w) {g : Gesture} (sort : w.type = g.component) :
    (e.performOn w g).1 = .ok () := by
  cases input : g.value? with
  | some value => rw [(performOn_entered wired found sort input).2]
  | none =>
    cases g with
    | click => simp [performOn, sort]
    | select | typeText | pick => cases input

theorem Sound.performOn_calm {document : Document} {e : Engine} (sound : Sound document e)
    (encodable : document.Encodable) {ref : Nat} {w : Widget}
    (found : e.board.widgets[ref]? = some w) (g : Gesture)
    (entered : ∀ value, g.value? = some value → value.Encodable) :
    Calm e (e.performOn w g).2 := by
  have wired := sound.used.orderly.wired
  have declared : e.declared[ref]? = some w.declared := by
    rw [declared_getElem?, found, Option.map_some]
  by_cases sort : w.type = g.component
  · cases input : g.value? with
    | some value =>
      obtain ⟨wrote, performed⟩ := performOn_entered wired found sort input
      have takes : Does Value.Encodable e (e.entered w g) :=
        .take declared (Gesture.takes_of_input sort input) (entered value input)
          (Took.of_wrote wrote rfl) wrote.redrawn
      have written := sound.after_does encodable (entered_effects w g e) (.single takes)
      have props := sound.used.props encodable _ (List.mem_of_getElem? declared)
      rw [performed]
      exact (entered_calm wired sound.shown found sort).trans (written.fire_calm encodable w _
        (Widget.inputContext_encodable props (entered value input)))
    | none =>
      cases g with
      | click =>
        simp only [performOn, sort, ne_eq, not_true_eq_false, ↓reduceIte]
        exact sound.fire_calm encodable w _
          (Store.clickContext_encodable sound.used.encodable.get e.page.rules w.id)
      | select | typeText | pick => cases input
  · simp only [performOn, sort, ne_eq, not_false_eq_true, ↓reduceIte]
    exact .of_same rfl rfl

/-- Both parts of a refresh are tame. -/
theorem Wired.part_tame {e : Engine} (wired : e.Wired) {ref : Nat} {w : Widget}
    (known : e.declared[ref]? = some w) (chart : w.type = .chart) {body : Program}
    (part : (∃ args, body = w.refresh ref args) ∨ body = renewal ref w) :
    body.Tame e.declared := by
  rcases part with ⟨args, rfl⟩ | rfl
  · exact Widget.refresh_tame ref w args
  · exact Widget.renewal_tame ref fun a b c =>
      fits_of_distinct wired.distinct known (Widget.shows_points chart a b c)

theorem Sound.stepTask_calm {document : Document} {e : Engine} (sound : Sound document e)
    (ref : Nat) : Calm e (e.stepTask ref) := by
  have wired := sound.used.orderly.wired
  unfold stepTask
  cases found : e.board.tasks[ref]? with
  | none => exact .of_same rfl rfl
  | some task =>
    dsimp only
    cases progress : task.progress with
    | completed | failed | cancelled | cancelling => exact .of_same rfl rfl
    | pending =>
      -- All tasks are refreshes, so the body is tame.
      obtain ⟨place, w, known, chart, -, part⟩ := sound.used.orderly.chores ref task found
      have began : Calm e (e.withVars task.vars) := .of_same rfl rfl
      obtain ⟨calm, stops⟩ := (wired.part_tame known chart part).run_calm
        (Program.runAt (nestingLimit - 1)) (e := e.withVars task.vars) (wired.viewed.of_same rfl)
        (sound.shown.of_same rfl rfl) rfl
      rw [← Program.run_eq] at calm stops
      dsimp only
      cases ran : task.body.run (e.withVars task.vars) with
      | mk stop after =>
        rw [ran] at calm stops
        cases stop with
        | failed fault => exact absurd rfl (stops fault)
        | done | deferred | paused => exact (began.trans calm).trans (.of_same rfl rfl)

theorem Sound.settleTask_calm {document : Document} {e : Engine} (sound : Sound document e)
    (ref : Nat) : Calm e (e.settleTask ref) := by
  unfold settleTask
  cases found : e.board.tasks[ref]? with
  | none => exact .of_same rfl rfl
  | some task =>
    dsimp only
    split
    next fault failed => exact absurd failed (sound.unfailed ref task found fault)
    next =>
      split
      · exact .of_same rfl rfl
      · exact .of_same rfl rfl

theorem Sound.calm {document : Document} {e after : Engine} (sound : Sound document e)
    (encodable : document.Encodable) (happens : Happens e after) : Calm e after := by
  cases happens with
  | gesture found g entered => exact sound.performOn_calm encodable found g entered
  | fire trigger askable json => exact sound.dispatch_calm encodable trigger askable json
  | refresh known chart part =>
    have tame := sound.used.orderly.wired.part_tame known chart part
    exact (tame.run_calm _ sound.used.orderly.wired.viewed sound.shown rfl).1
  | turn t =>
    cases t with
    | step ref => exact sound.stepTask_calm ref
    | settle ref => exact sound.settleTask_calm ref
  | queue turns => exact .of_same rfl rfl

/-! ## The page -/

/-- A page that is opened from a text is that of the document that the text is read as. -/
theorem opened_of_text {limits : Limits} {strict : Bool} {text : String} {board start : Engine}
    (blank : board.Blank)
    (opens : board.openDocument strict (Document.ofText limits false text) = (.ok (), start)) :
    ∃ document : Document, document.Reads ∧ Opened document start := by
  cases read : Document.ofText limits false text with
  | error cause =>
    rw [read] at opens
    cases congrArg Prod.fst opens
  | ok document =>
    rw [read] at opens
    exact ⟨document, .text limits false text read, strict, board, blank, opens⟩

/-- A page that has just been opened has no values yet, so every widget can be drawn of none. -/
theorem Opened.sound {document : Document} {e : Engine} (opened : Opened document e) :
    Sound document e := by
  have fresh := opened.fresh
  refine ⟨opened.used, fun w member => ?_, fun ref task found => ?_⟩
  · rw [Store.get, fresh.values]
    exact Widget.shows_null (fresh.wired.labelled w member)
  · rw [fresh.tasks] at found
    cases found

/-- What does not fail on a page, since it was opened and now. -/
structure Unfailing (start e : Engine) : Prop where
  /-- No action has ended as a failure. -/
  counted : ∀ o ∈ Outcome.failures,
    e.shared.counters.count o = start.shared.counters.count o
  /-- No error has been logged, as it would be if an observer failed. -/
  logged : ∃ lines, e.shared.lines = lines ++ start.shared.lines ∧
    ∀ line ∈ lines, line.level.Mild
  /-- No task has failed. -/
  tasks : ∀ task ∈ e.board.tasks, ∀ fault, task.progress ≠ .failed fault
  /-- All who watch the store are widgets, -/
  viewed : e.Viewed
  /-- and every widget can be drawn of what is stored for it. -/
  drawn : ∀ w ∈ e.board.widgets, w.Shows (e.board.store.get w.id)
  gestures : ∀ w ∈ e.board.widgets, ∀ g : Gesture, w.type = g.component →
    (e.performOn w g).1 = .ok ()
  /-- A refresh of a chart does not fail in either of its parts. -/
  refreshes : ∀ (ref : Nat) (w : Widget), e.declared[ref]? = some w → w.type = .chart →
    ∀ body, ((∃ args, body = w.refresh ref args) ∨ body = renewal ref w) →
      ∀ fault, (body.run e).1 ≠ .failed fault

theorem Sound.unfailing {document : Document} {start e : Engine} (sound : Sound document e)
    (calm : Calm start e) : Unfailing start e := by
  have wired := sound.used.orderly.wired
  constructor
  · exact calm.counted
  · exact calm.logged
  · intro task member
    obtain ⟨ref, found⟩ := List.mem_iff_getElem?.mp member
    exact sound.unfailed ref task found
  · exact wired.viewed
  · intro w member
    have shows_ := sound.shown w.declared (List.mem_map_of_mem member)
    exact shows_
  · intro w member g sort
    obtain ⟨ref, found⟩ := List.mem_iff_getElem?.mp member
    exact performOn_ok wired found sort
  · intro ref w known chart body part
    exact ((wired.part_tame known chart part).run_calm _ wired.viewed sound.shown rfl).2

/-- A page that can be opened never fails: whatever its text, its limits and its host, and whatever
happens on it as long as all that comes in is encodable. -/
theorem page_unfailing {limits : Limits} {strict : Bool} {text : String} {board start e : Engine}
    (blank : board.Blank)
    (opens : board.openDocument strict (Document.ofText limits false text) = (.ok (), start))
    (happens : ReflTransGen Happens start e) : Unfailing start e := by
  obtain ⟨document, reads, opened⟩ := opened_of_text blank opens
  have kept : Sound document e ∧ Calm start e := by
    -- Each move finds the page sound, is calm and leaves it sound.
    induction happens with
    | refl => exact ⟨opened.sound, .of_same rfl rfl⟩
    | tail _ move ih =>
      obtain ⟨sound, calm⟩ := ih
      exact ⟨sound.happens reads.encodable move, calm.trans (sound.calm reads.encodable move)⟩
  exact kept.1.unfailing kept.2

/-- A textbox whose input refreshes a chart. -/
def pollText : String :=
  "\x7b\"components\":[\x7b\"id\":\"t\",\"type\":\"textbox\"\x7d," ++
  "\x7b\"id\":\"c\",\"type\":\"chart\"\x7d]," ++
  "\"bindings\":[\x7b\"source\":\"t\",\"target\":\"c\",\"mode\":\"direct\"\x7d]\x7d"

/-- What opening the page of that text on a blank board comes to. -/
def poll : Except Fault Unit × Engine :=
  vacant.openDocument true (Document.ofText .standard false pollText)

/-- The page after a text has been typed and the event loop has gone round twice. -/
def polled (w : Widget) : Engine :=
  eventLoop.tick (eventLoop.tick (poll.2.performOn w (.typeText (.text "x"))).2)

/-- Meanwhile the chart has got its points. -/
theorem page_unfailing_poll : poll.1 = .ok () ∧ ∃ w, poll.2.board.widgets[0]? = some w ∧
    Unfailing poll.2 (polled w) ∧ ((polled w).board.store.get "c").isNull = false := by
  have computed : poll.1.isOk = true ∧ (poll.2.board.widgets[0]?.map fun w =>
      ((polled w).board.store.get "c").isNull) = some false := by decide +kernel
  have ok : poll.1 = .ok () := eq_ok_of_isOk computed.1
  have opens : poll = (.ok (), poll.2) := by rw [← ok]
  obtain ⟨w, found, drawn⟩ := Option.map_eq_some_iff.mp computed.2
  have typed : Happens poll.2 (poll.2.performOn w (.typeText (.text "x"))).2 :=
    .gesture found _ fun value entered => by
      cases entered
      exact nofun
  have moves := (ReflTransGen.single typed).trans ((tick_happens _).trans (tick_happens _))
  exact ⟨ok, w, found, page_unfailing vacant_blank opens moves, drawn⟩

end Engine
end Patchbay
