import Patchbay.Proofs.Engine.Snapshot
import Patchbay.Proofs.Page.Usage

/-!
# How input propagates

What a user enters is passed on by the direct bindings of the widget, in the order of the document.
Of several bindings for one target the last one counts, and nothing else changes:
`Engine.input_propagates`. Handlers fire no triggers, so it does not matter whether bindings form
cycles.
-/

namespace Patchbay

open Relation (ReflTransGen)

/-- An entry is that of a widget that has taken a value. -/
def Widget.Holds (w : Widget) (value entry : Value) : Prop :=
  match w.type with
  | .textbox => entry.property (some "value") = value ∧ entry.property (some "text") = value
  | .dropdown => entry.property (some "value") = value ∧
      entry.property (some "selected_value") = value ∧
      entry.property (some "selected_text") = w.labelOf value
  | .calendar => entry = value
  | .button | .chart => False

/-- Whether the target of a binding takes what the binding gives. A text is given to textboxes
only. -/
def Binding.sets (b : Binding) (t : Widget) : Bool :=
  b.target == t.id && match t.type with
    | .textbox => true
    | .dropdown | .calendar => propertyName b.targetProperty != "text"
    | .button | .chart => false

theorem Binding.not_sets {b : Binding} {t : Widget} (other : b.target ≠ t.id) :
    b.sets t = false := by
  unfold sets
  rw [beq_eq_false_iff_ne.mpr other, Bool.false_and]

/-! ## What a widget holds -/

theorem Widget.holds_taking {t : Widget} (takes : t.type ≠ .button ∧ t.type ≠ .chart)
    (value old : Value) : t.Holds value (t.taking value old) := by
  -- a later write leaves what is under other names
  have kept {name other : String} (filled : other ≠ "") (ne : other ≠ name) (before new : Value)
      (written : String) : ((before.withProperty written value).withProperty name new).property
        (some other) = (before.withProperty written value).property (some other) :=
    Value.property_withProperty_of_ne (Value.isBag_withProperty _ _ _) filled ne new
  unfold Widget.Holds Widget.taking
  cases sort : t.type with
  | textbox =>
    constructor
    · dsimp only
      rw [kept (by decide) (by decide), Value.property_withProperty_self _ (by decide)]
    · exact Value.property_withProperty_self _ (by decide) _
  | dropdown =>
    refine ⟨?_, ?_, Value.property_withProperty_self _ (by decide) _⟩
    · dsimp only
      rw [kept (by decide) (by decide), kept (by decide) (by decide),
        Value.property_withProperty_self _ (by decide)]
    · dsimp only
      rw [kept (by decide) (by decide), Value.property_withProperty_self _ (by decide)]
  | calendar => rfl
  | button => exact absurd sort takes.1
  | chart => exact absurd sort takes.2

/-- What a widget tells of itself is what its entry says. -/
theorem Widget.property_inputContext {w : Widget} {value entry : Value}
    (holds : w.Holds value entry) (date : w.type = .calendar → ∃ s, value = .text s)
    {name : String} (filled : name ≠ "") :
    (((w.inputContext value).field? w.id).getD .null).property (some name) = .null ∨
      (((w.inputContext value).field? w.id).getD .null).property (some name) =
        entry.property (some name) := by
  have own (fields : List (String × Value)) :
      (((Engine.ownContext w fields).field? w.id).getD .null).property (some name) =
        (Entries.get? name fields).getD .null := by
    rw [Engine.ownContext, Value.field?_record]
    have part := Value.field?_record name fields
    unfold Value.field? Value.record at part
    simp only [Entries.get?, beq_self_eq_true, ↓reduceIte, Option.getD_some, Value.property,
      Value.record, String.isEmpty_iff, filled, part]
  -- each name that is told of has the same value in the entry; of other names nothing is told
  unfold inputContext
  rw [own]
  unfold Widget.Holds at holds
  cases sort : w.type with
  | textbox =>
    simp only [sort] at holds
    by_cases first : name = "value"
    · exact .inr (by simp [first, Entries.get?, holds.1])
    · by_cases second : name = "text"
      · exact .inr (by simp [second, Entries.get?, holds.2])
      · exact .inl (by simp [Entries.get?, Ne.symm first, Ne.symm second])
  | dropdown =>
    simp only [sort] at holds
    by_cases first : name = "value"
    · exact .inr (by simp [first, Entries.get?, holds.1])
    · by_cases second : name = "selected_value"
      · exact .inr (by simp [second, Entries.get?, holds.2.1])
      · by_cases third : name = "selected_text"
        · exact .inr (by simp [third, Entries.get?, holds.2.2])
        · exact .inl (by simp [Entries.get?, Ne.symm first, Ne.symm second, Ne.symm third])
  | calendar =>
    simp only [sort] at holds
    obtain ⟨s, rfl⟩ := date sort
    subst holds
    by_cases first : name = "value"
    · exact .inr (by simp [first, Entries.get?, Value.property, canonicalProperties])
    · exact .inl (by simp [Entries.get?, Ne.symm first])
  | button | chart =>
    simp only [sort] at holds

/-! ## One binding -/

/-- The target of a binding takes what it gives exactly if it has a handler for it and is no
chart. -/
theorem Binding.sets_iff (b : Binding) (t : Widget) (ref : Nat) : b.sets t = true ↔
    b.action.target = t.id ∧ t.type ≠ .chart ∧
      b.action.type ∈ (t.handlers ref).map Prod.fst := by
  rw [b.action_target, b.action_type]
  unfold sets Widget.handlers
  by_cases text : propertyName b.targetProperty = "text"
  · cases sort : t.type <;> simp [text]
  · cases sort : t.type <;> simp [text]

namespace Engine

/-- All that some bindings have done: of those that set a widget the last one counts. -/
structure Passed (entry : Value) (bindings : List Binding) (e after : Engine) : Prop where
  wired : after.Wired
  declared : after.declared = e.declared
  set_ : ∀ t ∈ e.declared, ∀ b, (bindings.filter (·.sets t)).getLast? = some b →
    ∃ text old, (entry.property (some (Binding.propertyName b.sourceProperty))).toText = .ok text ∧
      Entries.get? t.id after.board.store.values = some (t.taking (.text text) old)
  kept : ∀ id, (∀ t ∈ e.declared, t.id = id → ∀ b ∈ bindings, b.sets t = false) →
    Entries.get? id after.board.store.values = Entries.get? id e.board.store.values

/-- What a binding of a widget may be run in: the widget holds `entry`, and the context agrees with
that. -/
structure Sends (w : Widget) (entry context : Value) (e : Engine) : Prop where
  wired : e.Wired
  held : Entries.get? w.id e.board.store.values = some entry
  askable : ∃ entries, context = .map entries
  agrees : ∀ name, name ≠ "" →
    ((context.field? w.id).getD .null).property (some name) = .null ∨
      ((context.field? w.id).getD .null).property (some name) = entry.property (some name)
  encodable : entry.Encodable

/-- A binding that can be run for a widget. -/
structure Clear (w : Widget) (b : Binding) : Prop where
  source : b.source = w.id
  plain : Plain w.id
  property : Plain (Binding.propertyName b.sourceProperty)
  apart : b.target ≠ w.id

/-- A binding of a widget is resolved to the text of the property that it reads. -/
theorem Sends.resolves {w : Widget} {entry context : Value} {e : Engine}
    (sends : Sends w entry context e) {b : Binding} (clear : Clear w b) :
    ∃ text, (entry.property (some (Binding.propertyName b.sourceProperty))).toText = .ok text ∧
      ((e.scope context).resolveAll b.action.args).outcome =
        .ok [(b.argumentName, .text text)] := by
  have name := Binding.propertyName_ne_empty b.sourceProperty
  have reads : (e.scope context).reading b.reference =
      entry.property (some (Binding.propertyName b.sourceProperty)) := by
    have stored : (e.scope context).stored b.reference =
        entry.property (some (Binding.propertyName b.sourceProperty)) := by
      simp only [Scope.stored, scope, Binding.reference, clear.source, sends.held,
        Option.getD_some]
    have given : (e.scope context).given b.reference =
        ((context.field? w.id).getD .null).property
          (some (Binding.propertyName b.sourceProperty)) := by
      simp only [Scope.given, scope, Binding.reference, clear.source]
    -- Whether the context has the property or not, its value is that of the entry.
    unfold Scope.reading
    rw [given, stored]
    rcases sends.agrees _ name with absent | same
    · rw [absent]
      exact if_pos rfl
    · rw [same, ite_self]
  have plain : Plain b.source := clear.source ▸ clear.plain
  obtain ⟨text, written⟩ := Value.exists_toText (sends.encodable.property
    (some (Binding.propertyName b.sourceProperty)))
  refine ⟨text, written, ?_⟩
  rw [Scope.resolveAll_outcome (.inr sends.askable), Binding.fillAll_action plain clear.property,
    reads, written]
  rfl

/-- What a binding does that has been resolved: it is enough to know what it sets itself. -/
theorem Passed.single {entry : Value} {e after : Engine} {b : Binding} {text : String}
    (wired : after.Wired) (declared : after.declared = e.declared)
    (written : (entry.property (some (Binding.propertyName b.sourceProperty))).toText = .ok text)
    (set_ : ∀ t ∈ e.declared, b.sets t = true → Entries.get? t.id after.board.store.values =
      some (t.taking (.text text) (e.board.store.get t.id)))
    (kept : ∀ id, (∀ t ∈ e.declared, t.id = id → b.sets t = false) →
      Entries.get? id after.board.store.values = Entries.get? id e.board.store.values) :
    Passed entry [b] e after := by
  refine ⟨wired, declared, fun t member last found => ?_, fun id unset => ?_⟩
  · cases sets : b.sets t with
    | false => simp [sets] at found
    | true =>
      simp only [List.filter_cons, sets, ↓reduceIte, List.filter_nil, List.getLast?_singleton,
        Option.some.injEq] at found
      rw [← found]
      exact ⟨text, _, written, set_ t member sets⟩
  · exact kept id fun t member same => unset t member same b List.mem_cons_self

theorem Sends.passed {w : Widget} {entry context : Value} {e after : Engine}
    (sends : Sends w entry context e) {dispatchId : String} {b : Binding} (clear : Clear w b)
    (carried : Carried context dispatchId e b.action after)
    (wired : after.Wired) (declared : after.declared = e.declared) :
    Passed entry [b] e after := by
  obtain ⟨text, written, resolves⟩ := sends.resolves clear
  have idle (none : ∀ t ∈ e.declared, b.sets t = false)
      (store : after.board.store = e.board.store) : Passed entry [b] e after := by
    refine .single wired declared written (fun t member sets => ?_) fun id _ => by rw [store]
    rw [none t member] at sets
    cases sets
  -- the widget that the binding is for, if it sets any
  have own {t : Widget} (member : t ∈ e.declared) (sets : b.sets t = true) :
      ∃ place, e.declared[place]? = some t ∧ b.action.target = t.id ∧ t.type ≠ .chart ∧
        b.action.type ∈ (t.handlers place).map Prod.fst := by
    obtain ⟨place, found⟩ := List.mem_iff_getElem?.mp member
    exact ⟨place, found, (b.sets_iff t place).mp sets⟩
  -- Of what can become of an action, an unresolved one is excluded; a missing handler and a chart
  -- mean that the binding sets nothing.
  cases carried with
  | unresolved failed same =>
    rw [resolves] at failed
    cases failed
  | missing resolved unknown same =>
    refine idle (fun t member => Bool.eq_false_iff.mpr fun sets => ?_) (congrArg Board.store same)
    obtain ⟨place, found, target, -, handles⟩ := own member sets
    obtain ⟨⟨type, h⟩, inside, named⟩ := List.mem_map.mp handles
    rw [target, ← named, sends.wired.served place t found type h inside] at unknown
    cases unknown
  | @took _ args place t resolved found target other handles took =>
    rw [resolves] at resolved
    cases resolved
    have values := took.values
    rw [argumentOf_action] at values
    refine .single wired declared written (fun t' member sets => ?_) fun id unset => ?_
    · obtain ⟨place', found', target', -⟩ := own member sets
      obtain ⟨-, rfl⟩ := same_place sends.wired.distinct found' found
        (target'.symm.trans target.symm)
      rw [values, Entries.get?_put_self]
    · rw [values, Entries.get?_put_of_ne]
      intro same
      have sets := (b.sets_iff t place).mpr ⟨target.symm, other, handles⟩
      rw [unset t (List.mem_of_getElem? found) same.symm] at sets
      cases sets
  | @scheduled args place t resolved found target chart handles calling same =>
    refine idle (fun t' member => Bool.eq_false_iff.mpr fun sets => ?_) ?_
    · obtain ⟨place', found', target', other, -⟩ := own member sets
      obtain ⟨-, rfl⟩ := same_place sends.wired.distinct found' found
        (target'.symm.trans target.symm)
      exact other chart
    · rw [schedule_store, same]

/-! ## All bindings of a widget -/

theorem Passed.nil {entry : Value} {e : Engine} (wired : e.Wired) : Passed entry [] e e :=
  ⟨wired, rfl, fun t member b found => by simp at found, fun id unset => rfl⟩

theorem Passed.append {entry : Value} {first second : List Binding} {e between after : Engine}
    (earlier : Passed entry first e between) (later : Passed entry second between after) :
    Passed entry (first ++ second) e after := by
  have declared := later.declared.trans earlier.declared
  refine ⟨later.wired, declared, fun t member b found => ?_, fun id unset => ?_⟩
  · have member' : t ∈ between.declared := by rwa [earlier.declared]
    -- The last binding is among the second ones if any of these sets the widget.
    rw [List.filter_append, List.getLast?_append] at found
    cases last : (second.filter (·.sets t)).getLast? with
    | some b' =>
      rw [last, Option.some_or, Option.some.injEq] at found
      subst found
      exact later.set_ t member' b' last
    | none =>
      rw [last, Option.none_or] at found
      obtain ⟨text, old, written, held⟩ := earlier.set_ t member b found
      refine ⟨text, old, written, ?_⟩
      rw [later.kept t.id, held]
      -- no other widget has this id
      intro t' there same b' inside
      obtain ⟨place, found⟩ := List.mem_iff_getElem?.mp member'
      obtain ⟨place', found'⟩ := List.mem_iff_getElem?.mp there
      obtain ⟨-, rfl⟩ := same_place earlier.wired.distinct found' found same
      have none := List.getLast?_eq_none_iff.mp last
      exact Bool.eq_false_iff.mpr (List.filter_eq_nil_iff.mp none b' inside)
  · rw [later.kept id, earlier.kept id]
    · intro t member same b inside
      exact unset t member same b (List.mem_append_left second inside)
    · intro t member same b inside
      rw [earlier.declared] at member
      exact unset t member same b (List.mem_append_right first inside)

/-- A binding does not change the entry of its source. -/
theorem Sends.after {w : Widget} {entry context : Value} {e after : Engine}
    (sends : Sends w entry context e) {b : Binding} (clear : Clear w b)
    (passed : Passed entry [b] e after) : Sends w entry context after := by
  refine ⟨passed.wired, ?_, sends.askable, sends.agrees, sends.encodable⟩
  rw [passed.kept w.id, sends.held]
  intro t member same b' inside
  cases List.mem_singleton.mp inside
  apply Binding.not_sets
  rw [same]
  exact clear.apart

theorem Sends.run {w : Widget} {entry context : Value} (dispatchId : String)
    {bindings : List Binding} (clear : ∀ b ∈ bindings, Clear w b) {e : Engine}
    (sends : Sends w entry context e) :
    Passed entry bindings e ((bindings.map Binding.action).foldl
      (runActionWith Program.run context dispatchId) e) := by
  -- No binding sets the source, so the next one reads the same entry.
  induction bindings generalizing e with
  | nil => exact .nil sends.wired
  | cons b rest ih =>
    obtain ⟨own, others⟩ := List.forall_mem_cons.mp clear
    have effects := runActionWith_effects (run_chains True) trivial context dispatchId e b.action
    have first := sends.passed own (runAction_carried sends.wired context dispatchId b.action)
      (sends.wired.of_effects effects) effects.steady.declared
    have all := first.append (ih others (sends.after own first))
    rw [List.singleton_append] at all
    rw [List.map_cons, List.foldl_cons]
    exact all

/-- The actions on a change of a widget are those of its direct bindings. -/
theorem actionsOn_change {e : Engine} {bindings : List Binding}
    (rules : e.page.rules = bindings.map Binding.rule) (id : String) :
    e.actionsOn s!"{id}.onChange" =
      (bindings.filter fun b => b.Follows id).map Binding.action := by
  rw [actionsOn_eq rules]
  congr 2
  funext b
  rw [Bool.eq_iff_iff, beq_iff_eq, decide_eq_true_iff]
  exact b.trigger_eq_iff id

end Engine

/-- The direct bindings of one widget that set another, in the order of the document. -/
def Document.setters (document : Document) (w t : Widget) : List Binding :=
  (document.bindings.filter fun b => b.Follows w.id).filter fun b => b.sets t

namespace Engine

/-- What a change of a widget has come to. -/
structure Propagated (document : Document) (w : Widget) (value : Value) (e after : Engine) :
    Prop where
  /-- The widget holds its new value. -/
  own : w.Holds value (after.board.store.get w.id)
  /-- A widget that is set holds the text of the property that its last binding reads. -/
  set_ : ∀ t ∈ e.declared, ∀ b, (document.setters w t).getLast? = some b →
    ∃ text, ((after.board.store.get w.id).property
        (some (Binding.propertyName b.sourceProperty))).toText = .ok text ∧
      t.Holds (.text text) (after.board.store.get t.id)
  /-- All other entries are as they were. -/
  kept : ∀ id, id ≠ w.id → (∀ t ∈ e.declared, t.id = id → document.setters w t = []) →
    Entries.get? id after.board.store.values = Entries.get? id e.board.store.values

theorem fire_onChange (w : Widget) (context : Value) (e : Engine) :
    e.fire w "onChange" context = (e.log .debug "widget_fired" [("widget_id", .text w.id),
      ("trigger", .text s!"{w.id}.onChange")]).dispatch s!"{w.id}.onChange" context := by
  have trigger : s!"{w.id}.onChange" = w.id ++ ("." ++ "onChange") := rfl
  unfold fire
  rw [trigger_eq, trigger]

theorem Sends.of_board {w : Widget} {entry context : Value} {e other : Engine}
    (sends : Sends w entry context e) (same : other.board = e.board) :
    Sends w entry context other := by
  refine ⟨sends.wired.of_board same, ?_, sends.askable, sends.agrees, sends.encodable⟩
  rw [same]
  exact sends.held

theorem Passed.of_boards {entry : Value} {bindings : List Binding} {e after e' after' : Engine}
    (passed : Passed entry bindings e after) (before : e'.board = e.board)
    (later : after'.board = after.board) : Passed entry bindings e' after' := by
  refine ⟨passed.wired.of_board later, ?_, ?_, ?_⟩
  · rw [declared_of_board later, declared_of_board before]
    exact passed.declared
  · rw [declared_of_board before, later]
    exact passed.set_
  · rw [declared_of_board before, later, before]
    exact passed.kept

/-- A dispatch of a change runs the bindings of the widget one after another. -/
theorem fire_passed {w : Widget} {entry context : Value} {e : Engine}
    (sends : Sends w entry context e) {bindings : List Binding}
    (rules : e.page.rules = bindings.map Binding.rule)
    (clear : ∀ b ∈ bindings, b.Follows w.id → Clear w b) :
    Passed entry (bindings.filter fun b => b.Follows w.id) e (e.fire w "onChange" context) := by
  let logged := e.log .debug "widget_fired" [("widget_id", .text w.id),
    ("trigger", .text s!"{w.id}.onChange")]
  obtain ⟨lines, begun⟩ := logged.beginDispatch_eq s!"{w.id}.onChange"
  have before : (logged.beginDispatch s!"{w.id}.onChange").board = e.board := by
    rw [begun]
    rfl
  have clear' : ∀ b ∈ bindings.filter fun b => b.Follows w.id, Clear w b := by
    intro b member
    obtain ⟨inside, follows⟩ := List.mem_filter.mp member
    exact clear b inside (of_decide_eq_true follows)
  have ran := Sends.run logged.nextDispatchId clear' (sends.of_board before)
  have actions : logged.actionsOn s!"{w.id}.onChange" = _ := actionsOn_change rules w.id
  rw [← actions] at ran
  rw [fire_onChange]
  exact ran.of_boards before.symm rfl

/-- What a user enters is passed on along the direct bindings of the widget, whatever the bindings
are and whatever has happened on the page before. -/
theorem input_propagates {document : Document} (reads : document.Reads) {start e : Engine}
    (opened : Opened document start) (moves : ReflTransGen UserMoves start e) {ref : Nat}
    {w : Widget} (found : e.board.widgets[ref]? = some w) {g : Gesture} {value : Value}
    (sort : w.type = g.component) (input : g.value? = some value) (json : value.Encodable)
    (date : w.type = .calendar → ∃ s, value = .text s) (plain : Plain w.id)
    (names : ∀ b ∈ document.bindings, b.Follows w.id →
      Plain (Text.trimmed (b.sourceProperty.getD "")))
    (apart : ∀ b ∈ document.bindings, b.Follows w.id → b.target ≠ w.id) :
    ∃ after, e.performOn w g = (.ok (), after) ∧ Propagated document w value e after := by
  have used := opened.used_after reads moves
  obtain ⟨wrote, took, performed⟩ := performOn_input used.orderly.wired found sort input
  have holds : w.Holds value (w.taking value (e.board.store.get w.id)) := by
    apply Widget.holds_taking
    rw [sort]
    cases g with
    | click => cases input
    | select | typeText | pick => exact ⟨nofun, nofun⟩
  have known : w.declared ∈ e.declared := List.mem_map_of_mem (List.mem_of_getElem? found)
  -- What the widget has taken has a text, so no binding fails to be resolved.
  have encodable : (w.taking value (e.board.store.get w.id)).Encodable :=
    Widget.taking_encodable (used.props reads.encodable _ known) json (used.encodable.get w.id)
  have wired : wrote.Wired := used.orderly.wired.of_same took.keeps.declared
    (by rw [took.keeps.board]) (used.orderly.wired.viewed.of_same took.observers)
  have sends : Sends w (w.taking value (e.board.store.get w.id)) (w.inputContext value) wrote := by
    refine ⟨wired, ?_, ⟨_, rfl⟩, fun name filled => ?_, encodable⟩
    · rw [took.values, Entries.get?_put_self]
    · exact Widget.property_inputContext holds date filled
  have clear : ∀ b ∈ document.bindings, b.Follows w.id → Clear w b := fun b member follows =>
    ⟨follows.2, plain, Binding.plain_propertyName (names b member follows),
      apart b member follows⟩
  have rules : wrote.page.rules = document.bindings.map Binding.rule := by
    rw [took.keeps.page]
    exact used.rules
  have passed := fire_passed sends rules clear
  have declared : wrote.declared = e.declared := took.keeps.declared
  have own : (wrote.fire w "onChange" (w.inputContext value)).board.store.get w.id =
      w.taking value (e.board.store.get w.id) := by
    rw [Store.get, passed.kept w.id, took.values, Entries.get?_put_self, Option.getD_some]
    intro t member same b inside
    obtain ⟨inside, follows⟩ := List.mem_filter.mp inside
    apply Binding.not_sets
    rw [same]
    exact apart b inside (of_decide_eq_true follows)
  refine ⟨_, performed, ?_, fun t member b last => ?_, fun id other unset => ?_⟩
  · rw [own]
    exact holds
  · rw [← declared] at member
    obtain ⟨text, old, written, held⟩ := passed.set_ t member b last
    have sets : b.sets t = true := by
      have inside := List.mem_of_getLast? last
      exact (List.mem_filter.mp inside).2
    refine ⟨text, by rw [own]; exact written, ?_⟩
    rw [Store.get, held, Option.getD_some]
    apply Widget.holds_taking
    obtain ⟨-, other, handles⟩ := (b.sets_iff t 0).mp sets
    refine ⟨fun button => ?_, other⟩
    simp [Widget.handlers, button] at handles
  · rw [passed.kept id, took.other other]
    intro t member same b inside
    rw [declared] at member
    exact Bool.eq_false_iff.mpr (List.filter_eq_nil_iff.mp (unset t member same) b inside)

theorem sales_reads : salesDocument.Reads := by
  have checked : Document.check salesDocument.toValue = .ok salesDocument := by rfl
  exact Document.reads_of_check (by decide +kernel) checked rfl rfl (by decide +kernel)

/-- The choice of the northern region goes to the title as its label. -/
theorem input_propagates_sales : salesDocument.Reads ∧ Opened salesDocument sales ∧
    ∃ w after, sales.board.widgets[0]? = some w ∧ w.id = "region" ∧
      sales.performOn w (.select (.text "n")) = (.ok (), after) ∧
      Propagated salesDocument w (.text "n") sales after ∧
      (after.board.store.getProperty "title" (some "text")).same (.text "North") = true := by
  obtain ⟨w, found⟩ : ∃ w, sales.board.widgets[0]? = some w :=
    Option.isSome_iff_exists.mp (by decide +kernel)
  have sort : w.type = .dropdown := eq_of_map found (f := Widget.type) (by decide +kernel)
  have id : w.id = "region" := eq_of_map found (f := Widget.id) (by decide +kernel)
  have plain : Plain w.id := by
    rw [id]
    constructor <;> decide
  have clear : ∀ b ∈ salesDocument.bindings, b.Follows "region" →
      Plain (Text.trimmed (b.sourceProperty.getD "")) ∧ b.target ≠ "region" := by
    intro b member follows
    simp only [salesDocument, List.mem_cons, List.not_mem_nil, or_false] at member
    rcases member with rfl | rfl | rfl
    · exact ⟨⟨by decide +kernel, by decide +kernel⟩, by decide⟩
    · exact ⟨⟨by decide +kernel, by decide +kernel⟩, by decide⟩
    · exact absurd follows (by decide)
  obtain ⟨after, performed, propagated⟩ := input_propagates sales_reads sales_opened .refl found
    (g := .select (.text "n")) sort rfl (by rintro ⟨⟩) (by rw [sort]; rintro ⟨⟩) plain
    (fun b member follows => (clear b member (id ▸ follows)).1)
    (fun b member follows => id ▸ (clear b member (id ▸ follows)).2)
  refine ⟨sales_reads, sales_opened, w, after, found, id, performed, propagated, ?_⟩
  have label := eq_of_map found (f := fun w =>
    ((sales.performOn w (.select (.text "n"))).2.board.store.getProperty "title"
      (some "text")).same (.text "North")) (b := true) (by decide +kernel)
  rwa [performed] at label

end Engine
end Patchbay
