import Patchbay.Proofs.Binding.Compiled
import Patchbay.Proofs.Document.Reading
import Patchbay.Proofs.Page.Opening

/-!
# Pages in use

A page that is reached through its own widgets only still has the rules and the widgets of its
document, and all that it stores is encodable (`Used.move`): users enter what JSON can hold,
bindings pass on texts, labels come from the document, and charts draw numbers.
-/

namespace Patchbay

open Relation (ReflTransGen)

theorem Widget.labelOf_encodable {w : Widget} (props : (Value.record w.props).Encodable)
    (value : Value) : (w.labelOf value).Encodable := by
  have given : (w.prop "options").Encodable := by
    unfold prop
    rw [← Value.field?_record]
    cases found : (Value.record w.props).field? "options" with
    | none => exact nofun
    | some options => exact props.field? found
  have listed : ∀ option ∈ w.optionList, option.Encodable := by
    unfold optionList options
    dsimp only
    split
    · next options shown =>
      split at shown
      · cases shown
        exact List.forall_mem_nil _
      · exact given.elements shown
    · exact List.forall_mem_nil _
  -- a label is part of an option, and an option is part of the props
  unfold labelOf
  split
  · next option found =>
    cases label : option.field? "label" with
    | none => exact nofun
    | some label' => exact (listed option (List.mem_of_find?_eq_some found)).field? label
  · exact nofun

theorem Widget.taking_encodable {w : Widget} (props : (Value.record w.props).Encodable)
    {value old : Value} (new : value.Encodable) (before : old.Encodable) :
    (w.taking value old).Encodable := by
  unfold taking
  split
  · exact (before.withProperty _ new).withProperty _ new
  · exact ((before.withProperty _ new).withProperty _ new).withProperty _
      (w.labelOf_encodable props value)
  · exact new
  · exact before

theorem argumentOf_action (b : Binding) (v : Value) :
    Engine.argumentOf b.action.type [(b.argumentName, v)] = v := by
  rw [b.action_type]
  by_cases text : Binding.propertyName b.targetProperty = "text"
  · simp [Engine.argumentOf, Binding.argumentName, text, Entries.get?]
  · simp [Engine.argumentOf, Binding.argumentName, text, Entries.get?]

namespace Engine

/-- All that is stored is encodable. -/
def Encodable (e : Engine) : Prop :=
  ∀ id v, Entries.get? id e.board.store.values = some v → v.Encodable

theorem Encodable.get {e : Engine} (encodable : e.Encodable) (id : String) :
    (e.board.store.get id).Encodable := by
  unfold Store.get
  cases found : Entries.get? id e.board.store.values with
  | none => exact nofun
  | some v => exact encodable id v found

theorem Encodable.of_same {e after : Engine} (encodable : e.Encodable)
    (values : after.board.store.values = e.board.store.values) : after.Encodable := by
  intro id v found
  rw [values] at found
  exact encodable id v found

theorem Encodable.of_put {e after : Engine} (encodable : e.Encodable) {id : String} {v : Value}
    (values : after.board.store.values = Entries.put id v e.board.store.values)
    (new : v.Encodable) : after.Encodable := by
  intro other v' found
  rw [values] at found
  by_cases same : other = id
  · subst same
    rw [Entries.get?_put_self] at found
    cases found
    exact new
  · rw [Entries.get?_put_of_ne same] at found
    exact encodable other v' found

theorem Does.encodable {e after : Engine} (does : Does Value.Encodable e after)
    (props : ∀ w ∈ e.declared, (Value.record w.props).Encodable) (encodable : e.Encodable) :
    after.Encodable := by
  cases does with
  | note same => exact encodable.of_same (by rw [same])
  | take found other isGood took =>
    have own := props _ (List.mem_of_getElem? found)
    exact encodable.of_put took.values (Widget.taking_encodable own isGood (encodable.get _))
  | start => exact encodable.of_same (by rw [schedule_store])

theorem nextPoints_encodable (e : Engine) (chart : Nat) : (e.nextPoints chart).Encodable := by
  have point (name : String) (x : Binary64) : (Widget.dataPoint name x).Encodable := by
    apply Value.encodable_record
    simp only [List.forall_mem_cons]
    exact ⟨by rintro ⟨⟩, by rintro ⟨⟩, List.forall_mem_nil _⟩
  unfold nextPoints
  rw [Value.encodable_list_iff]
  simp only [List.forall_mem_cons]
  exact ⟨point _ _, point _ _, point _ _, List.forall_mem_nil _⟩

/-- A binding gives its target a text. -/
theorem gives_text (b : Binding) (context : Value) :
    Gives (fun v => ∃ s, v = .text s) context b.action := by
  intro e args resolved
  rw [b.action_args] at resolved
  obtain ⟨v, own, rfl⟩ := Scope.resolveAll_single resolved
  obtain ⟨s, rfl⟩ := Scope.resolve_text own
  exact ⟨s, argumentOf_action b _⟩

/-- The rules of a page are those of bindings. -/
theorem gives_text_of_rules {bindings : List Binding} {rules : List Rule}
    (compiled : rules = bindings.map Binding.rule) {rule : Rule} (known : rule ∈ rules)
    {action : Action} (set_off : action ∈ rule.actions) (context : Value) :
    Gives (fun v => ∃ s, v = .text s) context action := by
  rw [compiled] at known
  obtain ⟨b, -, rfl⟩ := List.mem_map.mp known
  have own : action = b.action := List.mem_singleton.mp set_off
  rw [own]
  exact gives_text b context

/-- The actions on a trigger are those of the bindings that wait for it. -/
theorem actionsOn_eq {e : Engine} {bindings : List Binding}
    (compiled : e.page.rules = bindings.map Binding.rule) (trigger : String) :
    e.actionsOn trigger =
      (bindings.filter fun b => b.trigger == trigger).map Binding.action := by
  have single (b : Binding) : b.rule.actions = [b.action] := rfl
  have waits (b : Binding) : b.rule.trigger = b.trigger := rfl
  simp only [actionsOn, matching, compiled, List.filter_map, List.flatMap_map, Function.comp_def,
    waits, single]
  exact List.map_eq_flatMap.symm

theorem settleTask_page (e : Engine) (ref : Nat) : (e.settleTask ref).page = e.page := by
  unfold settleTask
  cases e.board.tasks[ref]? with
  | none => rfl
  | some task =>
    dsimp only
    split <;> split <;> rfl

/-! ## Whatever happens under the rules of the page -/

/-- What happens on a page that keeps its rules: a user handles a widget, any trigger is fired in
any context, a task is stepped, or the end of a task is taken note of. -/
inductive Interacts : Engine → Engine → Prop
  | gesture {e : Engine} {ref : Nat} {w : Widget} (found : e.board.widgets[ref]? = some w)
    (g : Gesture) : Interacts e (e.performOn w g).2
  | fire (trigger : String) (context : Value) (e : Engine) :
    Interacts e (e.dispatch trigger context)
  | step (ref : Nat) (e : Engine) : Interacts e (e.stepTask ref)
  | settle {e : Engine} {ref : Nat} {task : Task} (found : e.board.tasks[ref]? = some task)
    (done : task.progress.isDone = true) : Interacts e (e.settleTask ref)

theorem Interacts.page {e after : Engine} (move : Interacts e after) : PageMoves e after := by
  cases move with
  | gesture found g => exact .gesture found g
  | fire trigger context => exact .fired trigger context e
  | step ref => exact .step ref e
  | settle found done => exact .settle found done

theorem Interacts.rules {e after : Engine} (move : Interacts e after) :
    after.page.rules = e.page.rules := by
  cases move with
  | @gesture _ ref w found g => rw [(performOn_effects w g e).steady.page]
  | fire trigger context =>
    have steady : Steady e (e.dispatch trigger context) :=
      (dispatch_effects trigger context e).steady
    rw [steady.page]
  | step ref => rw [(stepTask_steady e ref).page]
  | settle => rw [settleTask_page]

/-- A page that has the rules and the widgets of its document. -/
structure Standing (document : Document) (e : Engine) : Prop where
  orderly : e.Orderly
  rules : e.page.rules = document.bindings.map Binding.rule
  declared : e.declared = document.components.map Component.widget

theorem Opened.standing {document : Document} {e : Engine} (opened : Opened document e) :
    Standing document e :=
  ⟨opened.fresh.orderly, opened.fresh.rules, opened.fresh.declared⟩

theorem Standing.move {document : Document} {e after : Engine} (standing : Standing document e)
    (move : Interacts e after) : Standing document after := by
  obtain ⟨orderly, declared⟩ := move.page.orderly standing.orderly
  exact ⟨orderly, move.rules.trans standing.rules, declared.trans standing.declared⟩

/-! ## What users leave behind -/

/-- What users do on a page, and what the page does later on its own. What users enter is
encodable. -/
inductive UserMoves : Engine → Engine → Prop
  | gesture {e : Engine} {ref : Nat} {w : Widget} (found : e.board.widgets[ref]? = some w)
    (g : Gesture) (entered : ∀ value, g.value? = some value → value.Encodable) :
    UserMoves e (e.performOn w g).2
  | step (ref : Nat) (e : Engine) : UserMoves e (e.stepTask ref)
  | settle {e : Engine} {ref : Nat} {task : Task} (found : e.board.tasks[ref]? = some task)
    (done : task.progress.isDone = true) : UserMoves e (e.settleTask ref)

/-- What may happen on a page that keeps its rules: a user handles a widget, any trigger is fired,
a chart is refreshed apart from its tasks, and the event loop takes turns in any order. All that
comes in is encodable. -/
inductive Happens : Engine → Engine → Prop
  | gesture {e : Engine} {ref : Nat} {w : Widget} (found : e.board.widgets[ref]? = some w)
    (g : Gesture) (entered : ∀ value, g.value? = some value → value.Encodable) :
    Happens e (e.performOn w g).2
  | fire (trigger : String) {context : Value}
    (askable : context = .null ∨ ∃ entries, context = .map entries)
    (encodable : context.Encodable) (e : Engine) : Happens e (e.dispatch trigger context)
  | refresh {e : Engine} {ref : Nat} {w : Widget} (known : e.declared[ref]? = some w)
    (chart : w.type = .chart) {body : Program}
    (part : (∃ args, body = w.refresh ref args) ∨ body = renewal ref w) : Happens e (body.run e).2
  | turn (t : Turn) (e : Engine) : Happens e (e.turn t)
  | queue (turns : List Ready) (e : Engine) : Happens e { e with shared.queue := turns }

theorem UserMoves.happens {e after : Engine} (move : UserMoves e after) : Happens e after := by
  cases move with
  | gesture found g entered => exact .gesture found g entered
  | step ref => exact .turn (.step ref) e
  | @settle _ ref => exact .turn (.settle ref) e

/-- A round of the event loop is a chain of what may happen. -/
theorem tick_happens (e : Engine) : ReflTransGen Happens e (eventLoop.tick e) := by
  have turns (waiting : List Ready) (e : Engine) :
      ReflTransGen Happens e (waiting.foldl (fun e r => e.turn r.turn) e) := by
    induction waiting generalizing e with
    | nil => exact .refl
    | cons r rest ih => exact .head (.turn r.turn e) (ih (e.turn r.turn))
  exact .head (.queue [] e) (turns e.shared.queue _)

/-- A page as its users have left it. -/
structure Used (document : Document) (e : Engine) : Prop where
  orderly : e.Orderly
  rules : e.page.rules = document.bindings.map Binding.rule
  declared : e.declared = document.components.map Component.widget
  encodable : e.Encodable

theorem Used.standing {document : Document} {e : Engine} (used : Used document e) :
    Standing document e :=
  ⟨used.orderly, used.rules, used.declared⟩

theorem Used.props {document : Document} {e : Engine} (used : Used document e)
    (encodable : document.Encodable) : ∀ w ∈ e.declared, (Value.record w.props).Encodable := by
  intro w member
  rw [used.declared] at member
  obtain ⟨c, inside, rfl⟩ := List.mem_map.mp member
  exact encodable c inside

theorem Opened.used {document : Document} {e : Engine} (opened : Opened document e) :
    Used document e := by
  have fresh := opened.fresh
  refine ⟨fresh.orderly, fresh.rules, fresh.declared, fun id v found => ?_⟩
  rw [fresh.values] at found
  cases found

theorem Used.gives {document : Document} {e : Engine} (used : Used document e) :
    ∀ rule ∈ e.page.rules, ∀ action ∈ rule.actions, ∀ context,
      Gives Value.Encodable context action := by
  intro rule known action set_off context e args resolved
  obtain ⟨s, given⟩ := gives_text_of_rules used.rules known set_off context e args resolved
  rw [given]
  rintro ⟨⟩

theorem Used.of_board {document : Document} {e after : Engine} (used : Used document e)
    (same : after.board = e.board) (rules : after.page.rules = e.page.rules) :
    Used document after :=
  ⟨used.orderly.of_board same, rules.trans used.rules,
    (declared_of_board same).trans used.declared, used.encodable.of_same (by rw [same])⟩

/-- Whatever is entered into a widget is passed on as texts. -/
theorem Used.performs {document : Document} {e : Engine} (used : Used document e) {ref : Nat}
    {w : Widget} (found : e.board.widgets[ref]? = some w) {g : Gesture}
    (entered : ∀ value, g.value? = some value → value.Encodable) :
    ReflTransGen (Does Value.Encodable) e (e.performOn w g).2 :=
  performOn_does used.orderly.wired found g entered used.gives

theorem Used.fires {document : Document} {e : Engine} (used : Used document e) (trigger : String)
    (context : Value) : ReflTransGen (Does Value.Encodable) e (e.dispatch trigger context) := by
  refine dispatch_does used.orderly.wired trigger context fun action member => ?_
  obtain ⟨rule, matched, inside⟩ := List.mem_flatMap.mp member
  exact used.gives rule (List.mem_of_mem_filter matched) action inside context

/-- What programs do on a page leaves it as it is, if widgets take what is encodable. -/
theorem Used.after_does {document : Document} {e after : Engine} (used : Used document e)
    (encodable : document.Encodable) (effects : Effects True e after)
    (does : ReflTransGen (Does Value.Encodable) e after) : Used document after := by
  obtain ⟨orderly, declared⟩ :=
    used.orderly.after_does (used.orderly.wired.of_effects effects) does
  have rules : after.page.rules = e.page.rules := by rw [effects.steady.page]
  refine ⟨orderly, rules.trans used.rules, declared.trans used.declared, ?_⟩
  refine (does_invariant does used.encodable fun {between _} declared does encodable' => ?_).2
  have props := used.props encodable
  rw [← declared] at props
  exact does.encodable props encodable'

/-- A renewal of a chart leaves the page as it is. -/
theorem Used.renewed {document : Document} {e : Engine} (used : Used document e) {ref : Nat}
    {w : Widget} (known : e.declared[ref]? = some w) :
    Used document ((renewal ref w).run e).2 := by
  obtain ⟨after, ran, wrote⟩ := renewal_run (Program.runAt (nestingLimit - 1))
    used.orderly.wired.viewed w (inside_of_declared known)
  rw [← Program.run_eq] at ran
  have effects := run_effects (renewal ref w) e
  rw [ran] at effects ⊢
  have declared : after.declared = e.declared := wrote.keeps.declared
  have tasks : after.board.tasks = e.board.tasks := by rw [wrote.keeps.board]
  have rules : after.page.rules = e.page.rules := by rw [wrote.keeps.page]
  exact ⟨⟨used.orderly.wired.of_effects effects, used.orderly.chores.of_tasks tasks declared⟩,
    rules.trans used.rules, declared.trans used.declared,
    used.encodable.of_put wrote.values (nextPoints_encodable e ref)⟩

/-- Whatever happens on a page that is given what is encodable, what is stored is encodable, and
the page stays the same. -/
theorem Used.happens {document : Document} {e after : Engine} (used : Used document e)
    (encodable : document.Encodable) (happens : Happens e after) : Used document after := by
  cases happens with
  | @gesture _ ref w found g entered =>
    exact used.after_does encodable (performOn_effects w g e) (used.performs found entered)
  | fire trigger =>
    exact used.after_does encodable (dispatch_effects trigger _ e)
      (used.fires trigger _)
  | @refresh _ ref w known chart body part =>
    rcases part with ⟨args, rfl⟩ | rfl
    · exact used.of_board rfl rfl
    · exact used.renewed known
  | turn t =>
    cases t with
    | step ref =>
      obtain ⟨orderly, rules, declared⟩ := used.standing.move (.step ref e)
      refine ⟨orderly, rules, declared, ?_⟩
      rcases (stepTask_stepped used.orderly.wired used.orderly.chores ref).values with
        same | ⟨place, w, -, -, values⟩
      · exact used.encodable.of_same same
      · exact used.encodable.of_put values (nextPoints_encodable e _)
    | settle ref =>
      cases found : e.board.tasks[ref]? with
      | none =>
        -- there is no such task, so nothing is noted
        simp only [turn, settleTask, found]
        exact used
      | some task =>
        obtain ⟨orderly, declared⟩ := used.orderly.after_note found
        have rules : (e.settleTask ref).page.rules = e.page.rules := by rw [settleTask_page]
        exact ⟨orderly, rules.trans used.rules, declared.trans used.declared,
          used.encodable.of_same (settleTask_values found)⟩
  | queue turns => exact used.of_board rfl rfl

theorem Used.move {document : Document} {e after : Engine} (used : Used document e)
    (encodable : document.Encodable) (move : UserMoves e after) : Used document after :=
  used.happens encodable move.happens

theorem Opened.used_after {document : Document} (reads : document.Reads) {start e : Engine}
    (opened : Opened document start) (moves : ReflTransGen UserMoves start e) :
    Used document e := by
  induction moves with
  | refl => exact opened.used
  | tail _ move ih => exact ih.move reads.encodable move

end Engine
end Patchbay
