import Patchbay.Proofs.Engine.Snapshot
import Patchbay.Proofs.Page.Usage

/-!
# Bindings without a widget to click

An indirect binding that names no widget is dead, but its rule waits for a trigger all the same: it
is written with `None`, or with the blank name, where the widget should be. A button may be called
just that. Users set dead bindings off if and only if the page has such a button
(`Engine.dead_set_off_iff`).
-/

namespace Patchbay

open Relation (ReflTransGen)

/-- The event that a gesture fires. -/
def Gesture.event : Gesture → String
  | .select _ | .typeText _ | .pick _ => "onChange"
  | .click => "onClick"

/-- The bindings whose triggers a gesture fires, in the order of the document. -/
def Document.setOff (document : Document) (w : Widget) (g : Gesture) : List Binding :=
  if w.type = g.component then
    document.bindings.filter fun b => b.trigger == s!"{w.id}.{g.event}"
  else []

/-- Only a click can set off a dead binding, on a button with the very name that its trigger has. -/
theorem Document.mem_setOff_iff_of_dead (document : Document) {b : Binding}
    (dead : b.isDead = true) (w : Widget) (g : Gesture) : b ∈ document.setOff w g ↔
      b ∈ document.bindings ∧ g = .click ∧ w.type = .button ∧ w.id = b.via.getD "None" := by
  have indirect : b.mode = .indirect := by
    simp only [Binding.isDead, Bool.and_eq_true, decide_eq_true_eq] at dead
    exact dead.1
  have change : w.id ++ ("." ++ "onChange") = s!"{w.id}.onChange" := rfl
  have click : w.id ++ ("." ++ "onClick") = s!"{w.id}.onClick" := rfl
  cases g with
  | select | typeText | pick =>
    -- a change sets off direct bindings only
    have waits : ¬b.trigger = s!"{w.id}.onChange" := by
      rw [b.trigger_eq_iff, Binding.Follows, indirect]
      rintro ⟨direct, -⟩
      cases direct
    simp only [setOff, Gesture.event, Engine.trigger_eq, change, reduceCtorEq, false_and,
      and_false, iff_false]
    split
    · simp [waits]
    · exact List.not_mem_nil
  | click =>
    simp only [setOff, Gesture.component, Gesture.event, Engine.trigger_eq, click, true_and]
    by_cases button : w.type = .button
    · simp only [button, ↓reduceIte, List.mem_filter, beq_iff_eq, b.trigger_eq_click_iff, indirect,
        true_and, eq_comm (a := w.id)]
    · simp [button]

namespace Engine

/-! ## What a gesture runs -/

/-- A gesture runs the actions of some bindings, one after another and no others, once the widget
has taken its input. -/
def Runs (e : Engine) (w : Widget) (g : Gesture) (bindings : List Binding) : Prop :=
  ∃ first context dispatchId,
    (first.board = e.board ∨ ∃ value, g.value? = some value ∧ Took w.declared value e first) ∧
    (e.performOn w g).2.board = ((bindings.map Binding.action).foldl
      (runActionWith Program.run context dispatchId) first).board

theorem Took.of_board {w : Widget} {value : Value} {e after later : Engine}
    (took : Took w value e after) (same : later.board = after.board) : Took w value e later := by
  refine ⟨?_, ?_, (declared_of_board same).trans took.declared⟩
  · rw [same]
    exact took.values
  · rw [same]
    exact took.board

theorem fire_runs {document : Document} {e : Engine}
    (compiled : e.page.rules = document.bindings.map Binding.rule) (w : Widget) (event : String)
    (context : Value) : ∃ first dispatchId, first.board = e.board ∧
      (e.fire w event context).board =
        (((document.bindings.filter fun b => b.trigger == s!"{w.id}.{event}").map
          Binding.action).foldl (runActionWith Program.run context dispatchId) first).board := by
  let logged := e.log .debug "widget_fired"
    [("widget_id", .text w.id), ("trigger", .text s!"{w.id}.{event}")]
  obtain ⟨lines, begun⟩ := logged.beginDispatch_eq s!"{w.id}.{event}"
  refine ⟨logged.beginDispatch s!"{w.id}.{event}", logged.nextDispatchId, ?_, ?_⟩
  · rw [begun]
    rfl
  · have actions := actionsOn_eq (e := logged) compiled s!"{w.id}.{event}"
    rw [← actions]
    rfl

theorem performOn_runs {document : Document} {e : Engine} (standing : Standing document e)
    {ref : Nat} {w : Widget} (found : e.board.widgets[ref]? = some w) (g : Gesture) :
    e.Runs w g (document.setOff w g) := by
  have performed := performOn_performed standing.orderly.wired found g
  unfold Runs Document.setOff
  generalize (e.performOn w g).2 = after at performed ⊢
  cases performed with
  -- a widget of another sort does not know the gesture
  | refused other =>
    rw [if_neg other]
    exact ⟨e, .null, "", .inl rfl, rfl⟩
  | clicked sort click =>
    subst click
    obtain ⟨first, dispatchId, same, ran⟩ := fire_runs standing.rules w "onClick"
      (.record (e.board.store.clickContext e.page.rules w.id))
    have sort : w.type = Gesture.click.component := sort
    rw [if_pos sort]
    exact ⟨first, _, dispatchId, .inl same, ran⟩
  | @entered wrote value sort input took wired page =>
    obtain ⟨first, dispatchId, same, ran⟩ :=
      fire_runs (page ▸ standing.rules) w "onChange" (w.inputContext value)
    have event : g.event = "onChange" := by
      cases g with
      | click => cases input
      | select | typeText | pick => rfl
    rw [if_pos sort, event]
    exact ⟨first, _, dispatchId, .inr ⟨value, input, took.of_board same⟩, ran⟩

/-! ## Runs of users -/

/-- Users handle the widgets of a page one after another, while its tasks go on. The bindings that
they have set off are kept in order. -/
inductive UserRun (document : Document) (start : Engine) : List Binding → Engine → Prop
  | start : UserRun document start [] start
  | gesture {ran : List Binding} {e : Engine} {ref : Nat} {w : Widget}
    (run : UserRun document start ran e) (found : e.board.widgets[ref]? = some w) (g : Gesture) :
    UserRun document start (ran ++ document.setOff w g) (e.performOn w g).2
  | step {ran : List Binding} {e : Engine} (run : UserRun document start ran e) (ref : Nat) :
    UserRun document start ran (e.stepTask ref)
  | settle {ran : List Binding} {e : Engine} {ref : Nat} {task : Task}
    (run : UserRun document start ran e) (found : e.board.tasks[ref]? = some task)
    (done : task.progress.isDone = true) : UserRun document start ran (e.settleTask ref)

theorem UserRun.standing {document : Document} {start e : Engine} {ran : List Binding}
    (opened : Opened document start) (run : UserRun document start ran e) :
    Standing document e := by
  induction run with
  | start => exact opened.standing
  | gesture run found g ih => exact ih.move (.gesture found g)
  | step run ref ih => exact ih.move (.step ref _)
  | settle run found done ih => exact ih.move (.settle found done)

/-- A widget of the page has the id and the sort of a component. -/
theorem Standing.component {document : Document} {e : Engine} (standing : Standing document e)
    {ref : Nat} {w : Widget} (found : e.board.widgets[ref]? = some w) :
    ∃ c ∈ document.components, c.id = w.id ∧ c.type = w.type := by
  have declared : w.declared ∈ e.declared := List.mem_map_of_mem (List.mem_of_getElem? found)
  rw [standing.declared] at declared
  obtain ⟨c, member, same⟩ := List.mem_map.mp declared
  exact ⟨c, member, congrArg Widget.id same, congrArg Widget.type same⟩

/-- Every component is a widget of the page. -/
theorem Standing.widget {document : Document} {e : Engine} (standing : Standing document e)
    {c : Component} (member : c ∈ document.components) :
    ∃ (ref : Nat) (w : Widget), e.board.widgets[ref]? = some w ∧ w.id = c.id ∧ w.type = c.type := by
  have declared : c.widget ∈ e.declared := by
    rw [standing.declared]
    exact List.mem_map_of_mem member
  obtain ⟨w, inside, same⟩ := List.mem_map.mp declared
  obtain ⟨ref, found⟩ := List.mem_iff_getElem?.mp inside
  exact ⟨ref, w, found, congrArg Widget.id same, congrArg Widget.type same⟩

/-- Whatever users do, gestures run the bindings that they set off and no others. Among these is
never a dead one if and only if no button has the name that stands in the trigger of one. -/
theorem dead_set_off_iff {document : Document} {start : Engine} (opened : Opened document start) :
    (∀ ran e, UserRun document start ran e → ∀ (ref : Nat) (w : Widget),
      e.board.widgets[ref]? = some w → ∀ g, e.Runs w g (document.setOff w g)) ∧
    ((∀ ran e, UserRun document start ran e → ∀ b ∈ ran, b.isDead = false) ↔
      ∀ b ∈ document.bindings, b.isDead = true →
        ∀ c ∈ document.components, c.type = .button → c.id ≠ b.via.getD "None") := by
  refine ⟨fun ran e run ref w found g => performOn_runs (run.standing opened) found g, ?_, ?_⟩
  · -- the click on such a button, before anything else has happened
    intro never b known dead c member button named
    obtain ⟨ref, w, found, id, type⟩ := opened.standing.widget member
    have set_off : b ∈ document.setOff w .click :=
      (document.mem_setOff_iff_of_dead dead w .click).mpr
        ⟨known, rfl, type.trans button, id.trans named⟩
    have alive := never _ _ (.gesture .start found .click) b (by simpa using set_off)
    rw [dead] at alive
    cases alive
  · intro apart ran e run
    induction run with
    | start => exact List.forall_mem_nil _
    | @gesture ran e ref w run found g ih =>
      intro b member
      rcases List.mem_append.mp member with before | now
      · exact ih b before
      · -- a dead binding would show that the widget is such a button
        by_contra alive
        have dead : b.isDead = true := by simpa using alive
        obtain ⟨known, -, button, named⟩ :=
          (document.mem_setOff_iff_of_dead dead w g).mp now
        obtain ⟨c, declared, id, type⟩ := (run.standing opened).component found
        exact apart b known dead c declared (type.trans button) (id.trans named)
    | step run ref ih => exact ih
    | settle run found done ih => exact ih

/-- A page with one button, and a binding that waits for a click but names no widget. -/
def waitingDocument (button : String) : Document where
  components := [⟨button, .button, []⟩, ⟨"a", .textbox, []⟩, ⟨"b", .textbox, []⟩]
  bindings := [⟨"a", "b", .indirect, none, none, none⟩]

/-- An empty board without an event loop. -/
def emptyBoard : Engine where
  shared := { loop := false, random := fun _ _ => default }
  board := { serialize := true }
  page := {}

def waiting (button : String) : Engine :=
  (openDocument false (.ok (waitingDocument button)) emptyBoard).2

theorem waiting_opened {button : String}
    (opens : (openDocument false (.ok (waitingDocument button)) emptyBoard).1.isOk = true) :
    Opened (waitingDocument button) (waiting button) :=
  ⟨false, _, ⟨rfl, rfl, rfl, rfl, rfl, rfl⟩, Prod.ext (eq_ok_of_isOk opens) rfl⟩

/-- The button is called otherwise, so the binding is never set off. -/
theorem dead_set_off_iff_save : Opened (waitingDocument "save") (waiting "save") ∧
    (∃ b ∈ (waitingDocument "save").bindings, b.isDead = true) ∧
    ∀ ran e, UserRun (waitingDocument "save") (waiting "save") ran e →
      ∀ b ∈ ran, b.isDead = false := by
  have opened : Opened (waitingDocument "save") (waiting "save") :=
    waiting_opened (by decide +kernel)
  refine ⟨opened, ⟨_, List.mem_singleton_self _, by decide⟩, (dead_set_off_iff opened).2.mpr ?_⟩
  simp only [waitingDocument, List.forall_mem_cons]
  decide

/-- A page is read whose button is called `None`. Its only binding is dead, and yet a click on the
button has the binding pass on what was typed before. -/
theorem dead_binding_set_off : (waitingDocument "None").Reads ∧
    Opened (waitingDocument "None") (waiting "None") ∧
    ∃ ran typed clicked b, UserRun (waitingDocument "None") (waiting "None") ran typed ∧
      Entries.has "b" typed.board.store.values = false ∧
      UserRun (waitingDocument "None") (waiting "None") (ran ++ [b]) clicked ∧
      b.isDead = true ∧
      (clicked.board.store.getProperty "b" (some "value")).same (.text "x") = true := by
  have checked : Document.check (waitingDocument "None").toValue =
      .ok (waitingDocument "None") := by rfl
  have reads : (waitingDocument "None").Reads :=
    Document.reads_of_check (by decide +kernel) checked rfl rfl (by decide +kernel)
  have opened : Opened (waitingDocument "None") (waiting "None") :=
    waiting_opened (by decide +kernel)
  -- a text is typed into the source, which sets nothing off
  obtain ⟨a, found⟩ : ∃ a, (waiting "None").board.widgets[1]? = some a :=
    Option.isSome_iff_exists.mp (by decide +kernel)
  have typing : UserRun (waitingDocument "None") (waiting "None") _ _ :=
    .gesture .start found (.typeText (.text "x"))
  have empty := eq_of_map found (b := false) (f := fun a => Entries.has "b"
    ((waiting "None").performOn a (.typeText (.text "x"))).2.board.store.values)
    (by decide +kernel)
  -- then the button is clicked
  have shown := eq_of_map found (b := some ("None", ComponentType.button, true)) (f := fun a =>
    let typed := ((waiting "None").performOn a (.typeText (.text "x"))).2
    typed.board.widgets[0]?.map fun w => (w.id, w.type,
      ((typed.performOn w .click).2.board.store.getProperty "b" (some "value")).same (.text "x")))
    (by decide +kernel)
  obtain ⟨w, found', parts⟩ := Option.map_eq_some_iff.mp shown
  simp only [Prod.mk.injEq] at parts
  obtain ⟨id, button, passed⟩ := parts
  have clicking := typing.gesture found' .click
  have set_off : (waitingDocument "None").setOff w .click =
      [⟨"a", "b", .indirect, none, none, none⟩] := by
    rw [Document.setOff, button, id]
    decide
  rw [set_off] at clicking
  exact ⟨reads, opened, _, _, _, _, typing, empty, clicking, by decide, passed⟩

end Engine
end Patchbay
