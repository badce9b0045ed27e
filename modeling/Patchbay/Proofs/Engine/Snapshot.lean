import Patchbay.Engine.Gesture
import Patchbay.Proofs.Engine.Accounting

/-!
# What the actions of a click read

The context of a click is collected before its first action runs, while the actions change the
store that the resolver falls back to. So a token reads the value that its widget had at the click,
if it had one there, and the current one otherwise: `Engine.click_reads_snapshot`. The two sides
meet because the button looks for tokens in the same arguments that are resolved later, and so
collects every widget that a token can name (`Store.get?_collect`).
-/

namespace Patchbay

/-- What references stand for in the actions of a click on the button `own`: what the store at the
click had for them if that is defined, else what the store has now. The button's own value is
always the present one. -/
def Store.clickReading (atClick : Store) (own : String) (now : Store) : Reading := fun ref =>
  let old := atClick.getProperty ref.widget ref.property
  if ref.widget = own ∨ old.isNull then now.getProperty ref.widget ref.property else old

/-- The ids that a context is collected for have their values in it, except for the button's own id
and for what is null. -/
theorem Store.get?_collect (store : Store) (own : String) (context : Entries String Value)
    (ids : List String) (id : String) :
    Entries.get? id (store.collect own context ids) =
      if id ∈ ids ∧ id ≠ own ∧ (store.get id).isNull = false then some (store.get id)
      else Entries.get? id context := by
  induction ids generalizing context with
  | nil => simp [collect]
  | cons head rest ih =>
    have step : store.collect own context (head :: rest) = store.collect own
        (if head == own || (store.get head).isNull then context
          else Entries.put head (store.get head) context) rest := rfl
    rw [step, ih]
    by_cases later : id ∈ rest ∧ id ≠ own ∧ (store.get id).isNull = false
    · simp [later]
    · by_cases here : id = head
      · subst here
        by_cases left : id = own
        · simp [left]
        · -- an id that is not collected further on is collected here or has no value
          cases null : (store.get id).isNull with
          | true => simp
          | false => simp [left, Entries.get?_put_self]
      · have elsewhere : Entries.get? id (if head == own || (store.get head).isNull then context
            else Entries.put head (store.get head) context) = Entries.get? id context := by
          split
          · rfl
          · exact Entries.get?_put_of_ne here _ _
        rw [elsewhere]
        simp [later, here]

namespace Engine

/-- The engine in which the dispatch of a click begins. -/
def clicked (w : Widget) (e : Engine) : Engine :=
  e.log .debug "widget_fired"
    [("widget_id", .text w.id), ("trigger", .text s!"{w.id}.onClick")]

/-- The context that a click takes along. -/
def clickContext (w : Widget) (e : Engine) : Value :=
  .record (e.board.store.clickContext e.page.rules w.id)

/-- The actions that a click sets off. -/
def clickActions (w : Widget) (e : Engine) : List Action :=
  e.actionsOn s!"{w.id}.onClick"

/-- The engine after the first actions of a click. -/
def afterActions (w : Widget) (e : Engine) (count : Nat) : Engine :=
  ((e.clickActions w).take count).foldl
    (runActionWith Program.run (e.clickContext w) (e.clicked w).nextDispatchId)
    ((e.clicked w).beginDispatch s!"{w.id}.onClick")

/-- What the references of a click's action stand for when its turn comes. -/
def seenAt (w : Widget) (e : Engine) (count : Nat) : Reading :=
  e.board.store.clickReading w.id (e.afterActions w count).board.store

/-- An action of a click, which comes after `count` others, reads the click's snapshot. -/
structure ReadsSnapshot (w : Widget) (e : Engine) (count : Nat) (action : Action) : Prop where
  /-- Each token is replaced by the text of what it stands for. -/
  token : ∀ arg ∈ action.args, ∀ body ∈ arg.2.tokens,
    (((e.afterActions w count).scope (e.clickContext w)).expandToken body).outcome =
      (e.seenAt w count (Reference.ofBody body)).toText
  /-- The handler is called with the arguments that come of it. -/
  carried : e.afterActions w (count + 1) =
    ((e.afterActions w count).calling (e.clickContext w) action).carryOutWith Program.run
      (e.clicked w).nextDispatchId action (Value.fillAll (e.seenAt w count) action.args)
  /-- The first action resolves its arguments as if there were no context. -/
  first : count = 0 → Value.fillAll (e.seenAt w count) action.args =
    (Scope.resolveAll ⟨.null, e.board.store.values⟩ action.args).outcome

theorem trigger_eq (id event : String) : s!"{id}.{event}" = id ++ ("." ++ event) := by
  simp [toString, String.append_assoc]

/-- A click runs its actions in a dispatch of its own. -/
theorem click_eq {w : Widget} (button : w.type = .button) (e : Engine) :
    e.performOn w .click = (.ok (), endDispatch (e.clicked w) s!"{w.id}.onClick"
      (e.afterActions w (e.clickActions w).length)) := by
  unfold performOn
  rw [if_neg (by simp [button, Gesture.component])]
  dsimp only [fire]
  rw [trigger_eq]
  unfold afterActions
  rw [List.take_length]
  rfl

theorem afterActions_zero_board (w : Widget) (e : Engine) :
    (e.afterActions w 0).board = e.board := by
  obtain ⟨lines, begun⟩ := (e.clicked w).beginDispatch_eq s!"{w.id}.onClick"
  simp only [afterActions, List.take_zero, List.foldl_nil, begun]
  rfl

theorem afterActions_succ (w : Widget) (e : Engine) {count : Nat} {action : Action}
    (next : (e.clickActions w)[count]? = some action) :
    e.afterActions w (count + 1) = (e.afterActions w count).runActionWith Program.run
      (e.clickContext w) (e.clicked w).nextDispatchId action := by
  simp only [afterActions, List.take_add_one, next, Option.toList_some, List.foldl_append,
    List.foldl_cons, List.foldl_nil]

/-- The tokens of a click's actions stand for what the click has found, unless that is nothing. -/
theorem reading_clickContext (w : Widget) (e now : Engine) {action : Action}
    (set_off : action ∈ e.clickActions w) {arg : String × Value} (member : arg ∈ action.args)
    {body : List Char} (token : body ∈ arg.2.tokens) :
    (now.scope (e.clickContext w)).reading (Reference.ofBody body) =
      e.board.store.clickReading w.id now.board.store (Reference.ofBody body) := by
  generalize reference : Reference.ofBody body = ref
  -- The button has looked for tokens in the same arguments, so it has asked for this widget.
  have asked : ref.widget ∈ (e.clickActions w).flatMap fun action =>
      action.args.flatMap fun arg => arg.2.referencedIds := by
    apply List.mem_flatMap_of_mem set_off
    apply List.mem_flatMap_of_mem member
    rw [Value.referencedIds_eq, ← reference]
    exact List.mem_map_of_mem token
  have found : (e.clickContext w).field? ref.widget =
      if ref.widget ≠ w.id ∧ (e.board.store.get ref.widget).isNull = false then
        some (e.board.store.get ref.widget)
      else none := by
    have collected := e.board.store.get?_collect w.id [] ((e.clickActions w).flatMap fun action =>
      action.args.flatMap fun arg => arg.2.referencedIds) ref.widget
    simp only [asked, true_and] at collected
    exact (Value.field?_record _ _).trans collected
  have given : (now.scope (e.clickContext w)).given ref =
      if ref.widget = w.id then .null else e.board.store.getProperty ref.widget ref.property := by
    have context : (now.scope (e.clickContext w)).context = e.clickContext w := rfl
    rw [Scope.given, context, found]
    by_cases own : ref.widget = w.id
    · simp [own, Scope.property_null]
    · cases value : e.board.store.get ref.widget with
      | null => simp [own, value, Store.getProperty, Value.isNull]
      | bool b | int n | float x | text s | list items | map entries =>
        simp [own, value, Store.getProperty, Value.isNull]
  -- An undefined property and a widget without a value both fall back to the store.
  unfold Scope.reading Store.clickReading
  rw [given]
  by_cases own : ref.widget = w.id
  · simp only [own, Value.isNull, ↓reduceIte, true_or]
    rw [← own]
    rfl
  · simp only [own, ↓reduceIte, false_or]
    rfl

/-- Every token of every action of a click is replaced by the text of the value that its widget had
when the click came, if that is defined and not the button's own, and of the present value in all
other cases. -/
theorem click_reads_snapshot {w : Widget} (button : w.type = .button) (e : Engine) :
    e.performOn w .click = (.ok (), endDispatch (e.clicked w) s!"{w.id}.onClick"
      (e.afterActions w (e.clickActions w).length)) ∧
    (e.afterActions w 0).board = e.board ∧
    ∀ count action, (e.clickActions w)[count]? = some action →
      e.ReadsSnapshot w count action := by
  refine ⟨click_eq button e, afterActions_zero_board w e, fun count action next => ?_⟩
  have set_off : action ∈ e.clickActions w := List.mem_of_getElem? next
  have askable : ((e.afterActions w count).scope (e.clickContext w)).Askable := .inr ⟨_, rfl⟩
  have same : ∀ arg ∈ action.args, ∀ body ∈ arg.2.tokens,
      ((e.afterActions w count).scope (e.clickContext w)).reading (Reference.ofBody body) =
        e.seenAt w count (Reference.ofBody body) :=
    fun arg member body token => reading_clickContext w e _ set_off member token
  constructor
  · intro arg member body token
    rw [Scope.expandToken_outcome askable, same arg member body token]
  · rw [afterActions_succ w e next, runActionWith_eq askable,
      Value.fillAll_congr action.args same]
  · rintro rfl
    rw [Scope.resolveAll_outcome (.inl rfl)]
    apply Value.fillAll_congr
    intro arg member body token
    -- before the first action, the present value is the one at the click
    have present : (e.afterActions w 0).board.store = e.board.store :=
      congrArg Board.store (afterActions_zero_board w e)
    simp only [seenAt, present, Store.clickReading, ite_self, Scope.reading, Scope.given,
      Value.field?, Option.getD_none, Scope.property_null, Value.isNull, ↓reduceIte]
    rfl

/-- A page whose button passes the value of `A` on to `B`, and that of `B` on to `C`. -/
def chain : Engine where
  shared := { loop := false, random := fun _ _ => default }
  board := {
    store := { values := [("A", .text "new"), ("B", .text "old")] }
    registry := ⟨["B", "C"].map fun id => ((id, "setValue"), ⟨id, "setValue",
      ⟨false, Widget.setDate { id := id, type := .calendar, props := [] }⟩⟩)⟩
    serialize := true }
  page := { rules := [
    ⟨"go.onClick", [⟨"setValue", "B", [("value", .text "$\x7bA\x7d")]⟩]⟩,
    ⟨"go.onClick", [⟨"setValue", "C", [("value", .text "$\x7bB\x7d")]⟩]⟩] }

/-- What the first action writes to `B` is not what the second one passes on. -/
theorem click_reads_snapshot_chain :
    let go : Widget := { id := "go", type := .button, props := [] }
    (chain.clickActions go).length = 2 ∧
      (∀ count action, (chain.clickActions go)[count]? = some action →
        chain.ReadsSnapshot go count action) ∧
      (chain.performOn go .click).2.board.store.snapshot.same
        (.record [("A", .text "new"), ("B", .text "new"), ("C", .text "old")]) := by
  intro go
  obtain ⟨-, -, reads⟩ := click_reads_snapshot (w := go) rfl chain
  exact ⟨by decide +kernel, reads, by decide +kernel⟩

end Engine
end Patchbay
