import Patchbay.Proofs.Page.Faultless

/-!
# How opening a page ends

Opening a page from a text ends with all widgets mounted, or with a refusal by the library, unless a
dropdown is declared whose options are not a list of maps: it passes every check, but it cannot be
drawn (`Engine.opening_outcome`). The document is checked before anything is mounted, so what
opening comes to depends on the document alone (`Engine.openDocument_result`).
-/

namespace Patchbay

/-! ## The first that fails -/

theorem forM_eq_ok_iff {α ε : Type} (check : α → Except ε Unit) (xs : List α) :
    forM xs check = .ok () ↔ ∀ x ∈ xs, check x = .ok () := by
  induction xs with
  | nil => simp [pure, Except.pure]
  | cons x rest ih =>
    rw [List.forM_cons, List.forall_mem_cons, ← ih]
    cases check x <;> simp [bind, Except.bind]

theorem forM_eq_error_iff {α ε : Type} (check : α → Except ε Unit) (xs : List α) (fault : ε) :
    forM xs check = .error fault ↔ ∃ before x after, xs = before ++ x :: after ∧
      (∀ y ∈ before, check y = .ok ()) ∧ check x = .error fault := by
  induction xs with
  | nil => simp [pure, Except.pure]
  | cons x rest ih =>
    rw [List.forM_cons]
    cases first : check x with
    | error cause =>
      constructor
      · rintro ⟨⟩
        exact ⟨[], x, rest, rfl, List.forall_mem_nil _, first⟩
      · rintro ⟨before, y, after, split, passed, failed⟩
        cases before with
        | nil =>
          cases split
          exact first.symm.trans failed
        | cons z before =>
          cases split
          cases first.symm.trans (passed x List.mem_cons_self)
    | ok =>
      refine ih.trans ⟨?_, ?_⟩
      · rintro ⟨before, y, after, rfl, passed, failed⟩
        exact ⟨x :: before, y, after, rfl, List.forall_mem_cons.mpr ⟨first, passed⟩, failed⟩
      · rintro ⟨before, y, after, split, passed, failed⟩
        cases before with
        | nil =>
          cases split
          cases first.symm.trans failed
        | cons z before =>
          cases split
          exact ⟨before, y, after, rfl, fun w member => passed w (List.mem_cons_of_mem _ member),
            failed⟩

/-! ## What mounting asks of a component -/

namespace Component

/-- A component whose handlers can be registered. A button has none, so that its id may be blank. -/
def Named (c : Component) : Prop :=
  c.type = .button ∨ (Text.trim c.id.toList).isEmpty = false

/-- A component whose options can be listed, if it is a dropdown: there are none, or they are a
list of maps. -/
def Listed (c : Component) : Prop :=
  c.type = .dropdown → (c.widget.prop "options").isBlank = true ∨
    ∃ options, c.widget.prop "options" = .list options ∧
      ∀ option ∈ options, ∃ entries, option = .map entries

/-- What mounting a component comes to where nothing is stored yet. -/
def mounting (c : Component) : Except Fault Unit :=
  if c.type ≠ .button ∧ (Text.trim c.id.toList).isEmpty then .error (.invalid .handlerWidget)
  else (c.widget.render .null).map fun _ => ()

end Component

/-- A fault that the library raises itself. -/
def Fault.IsRefusal (fault : Fault) : Prop :=
  ∃ cause, fault = .invalid cause

/-- What going through options comes to that are not a list of maps. -/
def Fault.IsUnlisted (fault : Fault) : Prop :=
  (∃ found, fault = .noAttribute found "get") ∨ ∃ found, fault = .notIterable found

theorem Fault.IsUnlisted.not_refusal {fault : Fault} (unlisted : fault.IsUnlisted) :
    ¬fault.IsRefusal := by
  rintro ⟨cause, rfl⟩
  rcases unlisted with ⟨found, same⟩ | ⟨found, same⟩
  · cases same
  · cases same

theorem Widget.optionPairs_error {options : List Value} {fault : Fault}
    (failed : optionPairs options = .error fault) : ∃ found, fault = .noAttribute found "get" := by
  induction options with
  | nil => cases failed
  | cons option rest ih =>
    cases option with
    | map entries =>
      cases others : optionPairs rest with
      | error cause =>
        simp only [optionPairs, optionPart, others, Except.error.injEq] at failed
        exact ih (failed ▸ others)
      | ok pairs => simp [optionPairs, optionPart, others] at failed
    | null | bool | int | float | text | list =>
      simp only [optionPairs, optionPart, Except.error.injEq] at failed
      exact ⟨_, failed.symm⟩

/-- Options of which one is no map cannot be shown. -/
theorem Widget.optionPairs_of_other {options : List Value} {option : Value}
    (member : option ∈ options) (other : ∀ entries, option ≠ .map entries) :
    ∃ fault, optionPairs options = .error fault ∧ fault.IsUnlisted := by
  cases drawn : optionPairs options with
  | error fault => exact ⟨fault, rfl, .inl (optionPairs_error drawn)⟩
  | ok pairs =>
    obtain ⟨entries, map⟩ := maps_of_optionPairs drawn option member
    exact absurd map (other entries)

/-- No key of a map is a map. -/
theorem Key.toValue_ne_map (k : Key) (entries : List (Key × Value)) : k.toValue ≠ .map entries := by
  cases k <;> simp [Key.toValue]

namespace Component

theorem Listed.labelled {c : Component} (listed : c.Listed) : c.widget.Labelled := by
  intro dropdown
  unfold Widget.options
  rcases listed dropdown with blank | ⟨options, given, maps⟩
  · exact ⟨[], by simp [blank], List.forall_mem_nil _⟩
  · refine ⟨if (Value.list options).isBlank then [] else options, ?_, fun option member => ?_⟩
    · simp only [given, Value.elements]
      split <;> rfl
    · split at member
      · cases member
      · exact maps option member

/-- A dropdown whose options are not listed cannot be drawn of anything. -/
theorem render_unlisted {c : Component} (unlisted : ¬c.Listed) (value : Value) :
    ∃ fault, c.widget.render value = .error fault ∧ fault.IsUnlisted := by
  obtain ⟨dropdown, unlisted⟩ := Classical.not_imp.mp unlisted
  simp only [not_or, not_exists, not_and, not_forall, Bool.not_eq_true] at unlisted
  obtain ⟨given, others⟩ := unlisted
  have sort : c.widget.type = .dropdown := dropdown
  -- the options are gone through, whatever they are, and then shown one by one
  suffices ∃ fault, c.widget.options.bind Widget.optionPairs = .error fault ∧
      fault.IsUnlisted by
    obtain ⟨fault, failed, unlisted⟩ := this
    refine ⟨fault, ?_, unlisted⟩
    simp only [Widget.render, sort, failed]
  simp only [Widget.options, given, Bool.false_eq_true, ↓reduceIte]
  cases options : c.widget.prop "options" with
  | list items =>
    obtain ⟨option, member, other⟩ := others items options
    exact Widget.optionPairs_of_other member other
  | map entries =>
    rw [options] at given
    cases entries with
    | nil => cases given
    | cons entry rest =>
      exact Widget.optionPairs_of_other List.mem_cons_self (Key.toValue_ne_map entry.1)
  | text s =>
    rw [options] at given
    cases chars : s.toList with
    | nil =>
      rw [String.toList_eq_nil_iff.mp chars] at given
      cases given
    | cons c rest =>
      simp only [Value.elements, chars, List.map_cons]
      exact Widget.optionPairs_of_other List.mem_cons_self (by rintro entries ⟨⟩)
  | null | bool | int | float => exact ⟨_, rfl, .inr ⟨_, rfl⟩⟩

end Component

namespace Component

theorem mounting_unnamed {c : Component} (unnamed : ¬c.Named) :
    c.mounting = .error (.invalid .handlerWidget) := by
  simp only [Named, not_or, Bool.not_eq_false] at unnamed
  simp [mounting, unnamed]

theorem mounting_named {c : Component} (named : c.Named) :
    c.mounting = (c.widget.render .null).map fun _ => () := by
  unfold mounting
  rw [if_neg]
  rintro ⟨other, blank⟩
  rcases named with button | named
  · exact other button
  · rw [named] at blank
    cases blank

end Component

/-- The bindings of a document can be compiled. -/
def Document.Compiles (strict : Bool) (document : Document) : Prop :=
  strict = true → ∀ b ∈ document.bindings, b.isDead = false

/-- A document that passes every check, but in which the first component that cannot be mounted is
a dropdown with options that cannot be listed. -/
def Document.Trips (strict : Bool) (document : Document) : Prop :=
  document.Compiles strict ∧ ∃ before c after, document.components = before ++ c :: after ∧
    (∀ d ∈ before, d.Named ∧ d.Listed) ∧ c.Named ∧ ¬c.Listed

namespace Component

theorem mounting_eq_ok_iff (c : Component) : c.mounting = .ok () ↔ c.Named ∧ c.Listed := by
  by_cases named : c.Named
  · rw [mounting_named named]
    by_cases listed : c.Listed
    · obtain ⟨view, drawn⟩ := Widget.shows_null listed.labelled
      simp [named, listed, drawn, Except.map]
    · obtain ⟨fault, failed, -⟩ := render_unlisted listed .null
      simp [listed, failed, Except.map]
  · simp [mounting_unnamed named, named]

/-- A component is refused for its id, or its options cannot be listed. -/
theorem mounting_eq_error {c : Component} {fault : Fault} (failed : c.mounting = .error fault) :
    ¬c.Named ∧ fault.IsRefusal ∨ c.Named ∧ ¬c.Listed ∧ fault.IsUnlisted := by
  by_cases named : c.Named
  · have unlisted : ¬c.Listed := fun listed => by
      rw [(mounting_eq_ok_iff c).mpr ⟨named, listed⟩] at failed
      cases failed
    obtain ⟨cause, drawn, kind⟩ := render_unlisted unlisted .null
    rw [mounting_named named, drawn] at failed
    cases failed
    exact .inr ⟨named, unlisted, kind⟩
  · rw [mounting_unnamed named] at failed
    cases failed
    exact .inl ⟨named, _, rfl⟩

end Component

namespace Engine

/-! ## Registering and mounting -/

theorem check_of_named {id action : String} (named : (Text.trim id.toList).isEmpty = false)
    (acts : (Text.trim action.toList).isEmpty = false) (h : Handler) :
    Registry.check (.text id) (.text action) (some h) = .ok ⟨id, action, h⟩ := by
  simp [Registry.check, Registry.name?, named, acts]

theorem registerAll_ok {id : String} (named : (Text.trim id.toList).isEmpty = false)
    {handlers : List (String × Handler)}
    (acts : ∀ type ∈ handlers.map Prod.fst, (Text.trim type.toList).isEmpty = false) (e : Engine) :
    ∃ after, e.registerAll id handlers = (.ok (), after) := by
  induction handlers generalizing e with
  | nil => exact ⟨e, rfl⟩
  | cons entry rest ih =>
    rw [List.map_cons, List.forall_mem_cons] at acts
    have checked := check_of_named named acts.1 entry.2
    obtain ⟨after, others⟩ := ih acts.2 (e.register (.text id) (.text entry.1) (some entry.2)).2
    refine ⟨after, ?_⟩
    rw [← others]
    simp only [registerAll, register, checked]

theorem registerAll_unnamed {id : String} (blank : (Text.trim id.toList).isEmpty = true)
    {handlers : List (String × Handler)} (some_ : handlers ≠ []) (e : Engine) :
    (e.registerAll id handlers).1 = .error (.invalid .handlerWidget) := by
  cases handlers with
  | nil => exact absurd rfl some_
  | cons entry rest => simp [registerAll, register, Registry.check, Registry.name?, blank]

theorem handlers_named (w : Widget) (ref : Nat) :
    ∀ type ∈ (w.handlers ref).map Prod.fst, (Text.trim type.toList).isEmpty = false := by
  have named : ∀ type ∈ ["setValue", "setText", "updateChartData"],
      (Text.trim type.toList).isEmpty = false := by decide
  intro type member
  apply named
  unfold Widget.handlers at member
  cases sort : w.type with
  | button => simp [sort] at member
  | calendar | dropdown | textbox | chart =>
    simp only [sort, List.map_cons, List.map_nil, List.mem_cons, List.not_mem_nil,
      or_false] at member ⊢
    tauto

/-- A widget that has been mounted stays so, and so is the one that is mounted now. -/
theorem mount_mounted {e after : Engine} {ref : Nat} (mounts : e.mount ref = (.ok (), after))
    (place : Nat) (was : place = ref ∨ ∀ w, e.board.widgets[place]? = some w → w.mounted = true) :
    ∀ w, after.board.widgets[place]? = some w → w.mounted = true := by
  cases found : e.board.widgets[ref]? with
  | none =>
    simp only [mount, found, Prod.mk.injEq, true_and] at mounts
    subst mounts
    rcases was with rfl | was
    · simp [found]
    · exact was
  | some w =>
    cases waiting : w.mounted with
    | true =>
      simp only [mount, found, waiting, ↓reduceIte, Prod.mk.injEq, true_and] at mounts
      subst mounts
      rcases was with rfl | was
      · simp [found, waiting]
      · exact was
    | false =>
      obtain ⟨between, view, registered, -, rfl⟩ := mount_ok found waiting mounts
      have widgets : between.board.widgets = e.board.widgets := by
        rw [(registerAll_registers registered).board]
      intro w' found'
      by_cases same : place = ref
      · subst same
        simp [appeared, Engine.log, updateWidget, watching, withStore, widgets, found] at found'
        subst found'
        rfl
      · have other : ref ≠ place := Ne.symm same
        simp [appeared, Engine.log, updateWidget, watching, withStore, other, widgets] at found'
        exact was.resolve_left same w' found'

theorem mountAll_mounts {refs : List Nat} {e after : Engine}
    (mounts : e.mountAll refs = (.ok (), after)) (place : Nat)
    (was : place ∈ refs ∨ ∀ w, e.board.widgets[place]? = some w → w.mounted = true) :
    ∀ w, after.board.widgets[place]? = some w → w.mounted = true := by
  induction refs generalizing e with
  | nil =>
    cases mounts
    exact was.resolve_left List.not_mem_nil
  | cons ref rest ih =>
    unfold mountAll at mounts
    cases first : e.mount ref with
    | mk result between =>
      cases result with
      | error fault => simp [first] at mounts
      | ok done =>
        simp only [first] at mounts
        refine ih mounts ?_
        rcases was with member | was
        · rcases List.mem_cons.mp member with rfl | member
          · exact .inr (mount_mounted first place (.inl rfl))
          · exact .inl member
        · exact .inr (mount_mounted first place (.inr was))

/-- Mounting a widget comes to what its component asks for. -/
theorem mount_result {e : Engine} {ref : Nat} {c : Component}
    (found : e.board.widgets[ref]? = some c.widget) (values : e.board.store.values = []) :
    (e.mount ref).1 = c.mounting := by
  rw [mount_eq found rfl]
  by_cases named : c.Named
  · obtain ⟨between, registered⟩ : ∃ between,
        e.registerAll c.widget.id (c.widget.handlers ref) = (.ok (), between) := by
      rcases named with button | named
      · refine ⟨e, ?_⟩
        simp [Widget.handlers, Component.widget, button, registerAll]
      · exact registerAll_ok named (handlers_named _ _) e
    have empty : between.board.store.get c.widget.id = .null := by
      rw [(registerAll_registers registered).board, Store.get, values]
      rfl
    simp only [registered, empty, c.mounting_named named]
    cases c.widget.render .null <;> rfl
  · have some_ : c.widget.handlers ref ≠ [] := by
      intro none
      unfold Widget.handlers at none
      cases sort : c.widget.type <;> simp [sort] at none
      exact named (.inl sort)
    have blank : (Text.trim c.id.toList).isEmpty = true := by
      simp only [Component.Named, not_or, Bool.not_eq_false] at named
      exact named.2
    have refused : (e.registerAll c.widget.id (c.widget.handlers ref)).1 =
        .error (.invalid .handlerWidget) := registerAll_unnamed blank some_ e
    rw [c.mounting_unnamed named]
    cases registered : e.registerAll c.widget.id (c.widget.handlers ref) with
    | mk result between =>
      rw [registered] at refused
      simp only at refused
      rw [refused]

/-- The widgets of components stand from a place on and wait to be mounted; nothing is stored. -/
structure Waiting (place : Nat) (components : List Component) (e : Engine) : Prop where
  values : e.board.store.values = []
  found : ∀ (i : Nat) (c : Component), components[i]? = some c →
    e.board.widgets[place + i]? = some c.widget

theorem mountAll_result {components : List Component} {place : Nat} {e : Engine}
    (waiting : Waiting place components e) :
    (e.mountAll (List.range' place components.length)).1 = forM components Component.mounting := by
  induction components generalizing place e with
  | nil => rfl
  | cons c rest ih =>
    have found : e.board.widgets[place]? = some c.widget := waiting.found 0 c rfl
    have result := mount_result found waiting.values
    rw [List.length_cons, List.range'_succ, mountAll, List.forM_cons, ← result]
    cases first : e.mount place with
    | mk result between =>
      cases result with
      | error fault => rfl
      | ok done =>
        -- the others still wait: mounting one widget leaves them and the store alone
        have mounts := mount_mounts found rfl first
        have later : Waiting (place + 1) rest between := by
          refine ⟨mounts.setUp.values.trans waiting.values, fun i c' inside => ?_⟩
          rw [mounts.others _ (by omega), Nat.add_right_comm]
          exact waiting.found (i + 1) c' inside
        exact ih later

/-! ## Opening -/

theorem declareAll_ok {components : List Component} {e : Engine}
    (distinct : (components.map Component.id).Nodup)
    (fresh : ∀ c ∈ components, c.id ∉ Entries.keys e.page.widgets) :
    ∃ after, e.declareAll (components.map Component.declaration) = (.ok (), after) := by
  induction components generalizing e with
  | nil => exact ⟨e, rfl⟩
  | cons c rest ih =>
    rw [List.map_cons, List.nodup_cons] at distinct
    rw [List.forall_mem_cons] at fresh
    have absent : ¬Entries.has c.id e.page.widgets = true := by
      rw [Entries.has_iff_mem_keys]
      exact fresh.1
    simp only [List.map_cons, declareAll, Component.declaration, absent, Bool.false_eq_true,
      ↓reduceIte, ComponentType.ofName?_name]
    refine ih distinct.2 fun other member => ?_
    simp only [addWidget, Entries.put_of_not_mem fresh.1, Entries.keys, List.map_append,
      List.map_cons, List.map_nil, List.mem_append, List.mem_singleton, not_or]
    refine ⟨fresh.2 other member, fun same => distinct.1 ?_⟩
    rw [← same]
    exact List.mem_map_of_mem member

/-- All that is left of opening a page is to mount its widgets. -/
structure Ready (strict : Bool) (document : Document) (board ready : Engine) : Prop where
  waiting : Waiting 0 document.components ready
  length : ready.board.widgets.length = document.components.length
  opens : board.openDocument strict (.ok document) =
    match ready.mountAll (List.range' 0 document.components.length) with
    | (.error fault, e) => (.error fault, e)
    | (.ok (), e) => (.ok (), e.log .info "page_mounted"
        [("widgets", .int e.page.widgets.length), ("rules", .int e.page.rules.length)])

theorem openDocument_ready {strict : Bool} {document : Document} {board : Engine}
    (blank : board.Blank) (distinct : (document.components.map Component.id).Nodup)
    (compiles : document.Compiles strict) : ∃ ready, Ready strict document board ready := by
  obtain ⟨read, reads⟩ := board.logReading_board (.ok document)
  obtain ⟨rules, result⟩ := (Binding.compile_eq_ok_iff strict document.bindings).mpr compiles
  rw [← compile_fst (board.logReading (.ok document))] at result
  obtain ⟨between, compiles'⟩ : ∃ between, (board.logReading (.ok document)).compile strict
      document.bindings = (.ok rules, between) := ⟨_, Prod.ext result rfl⟩
  obtain ⟨-, kept, page⟩ := compile_rules compiles'
  -- compiling leaves the board blank, so the widgets can be declared, and stand from place 0 on
  let compiled : Engine := { between with page.rules := rules }
  have same : compiled.board = board.board := kept.trans read
  have unused : compiled.page.widgets = [] :=
    (congrArg Page.widgets (page.trans reads)).trans blank.page
  obtain ⟨ready, declared⟩ := declareAll_ok (e := compiled) distinct fun c _ => by
    rw [unused]
    exact List.not_mem_nil
  have declares := declareAll_declares declared
  have widgets : ready.board.widgets = document.components.map Component.widget := by
    rw [declares.board, same, blank.widgets]
    rfl
  have refs : ready.page.widgets.map Prod.snd = List.range' 0 document.components.length := by
    rw [declares.refs, unused, same, blank.widgets]
    rfl
  refine ⟨ready, ⟨?_, fun i c found => ?_⟩, ?_, ?_⟩
  · rw [declares.setUp.values, same, blank.store]
  · rw [widgets, Nat.zero_add, List.getElem?_map, found, Option.map_some]
  · rw [widgets, List.length_map]
  · rw [← refs]
    rcases mounting : ready.mountAll (ready.page.widgets.map Prod.snd) with ⟨_ | _, _⟩ <;>
      simp only [openDocument, openPage, compiles', compiled, declared, mounting]

/-- How opening the page of a document ends. -/
structure Opening (strict : Bool) (reading : Except Invalid Document)
    (result : Except Fault Unit × Engine) : Prop where
  opens : result.1 = .ok () ↔ ∃ document, reading = .ok document ∧ document.Compiles strict ∧
    ∀ c ∈ document.components, c.Named ∧ c.Listed
  /-- On the board are the widgets of the document, all of them mounted. -/
  mounted : ∀ document, reading = .ok document → result.1 = .ok () →
    result.2.declared = document.components.map Component.widget ∧
      ∀ w ∈ result.2.board.widgets, w.mounted = true
  /-- What the library does not refuse itself comes from options that cannot be listed. -/
  escapes : ∀ fault, result.1 = .error fault → fault.IsRefusal ∨ fault.IsUnlisted
  escapes_iff : (∃ fault, result.1 = .error fault ∧ ¬fault.IsRefusal) ↔
    ∃ document, reading = .ok document ∧ document.Trips strict

theorem Opening.of_refused {strict : Bool} {reading : Except Invalid Document}
    {result : Except Fault Unit × Engine} {cause : Invalid}
    (refused : result.1 = .error (.invalid cause))
    (other : ∀ document, reading = .ok document → ¬document.Compiles strict) :
    Opening strict reading result := by
  constructor
  · rw [refused]
    refine ⟨nofun, ?_⟩
    rintro ⟨document, read, compiles, -⟩
    exact absurd compiles (other document read)
  · intro document read ok
    cases refused.symm.trans ok
  · intro fault failed
    cases refused.symm.trans failed
    exact .inl ⟨cause, rfl⟩
  · constructor
    · rintro ⟨fault, failed, unlisted⟩
      cases refused.symm.trans failed
      exact absurd ⟨cause, rfl⟩ unlisted
    · rintro ⟨document, read, compiles, -⟩
      exact absurd compiles (other document read)

/-- A document that cannot be compiled is refused. -/
theorem openDocument_dead {strict : Bool} {document : Document} (board : Engine)
    (dead : ¬document.Compiles strict) :
    ∃ cause, (board.openDocument strict (.ok document)).1 = .error (.invalid cause) := by
  have result := (board.logReading (.ok document)).compile_fst strict document.bindings
  simp only [openDocument, openPage]
  cases compiled : (board.logReading (.ok document)).compile strict document.bindings with
  | mk result' between =>
    cases result' with
    | error cause => exact ⟨cause, rfl⟩
    | ok rules =>
      rw [compiled] at result
      exact absurd
        ((Binding.compile_eq_ok_iff strict document.bindings).mp ⟨rules, result.symm⟩) dead

/-- What mounting the widgets comes to is what opening comes to. -/
theorem Ready.result {strict : Bool} {document : Document} {board ready : Engine}
    (is : Ready strict document board ready) :
    (board.openDocument strict (.ok document)).1 =
      forM document.components Component.mounting := by
  rw [← mountAll_result is.waiting, is.opens]
  cases ready.mountAll (List.range' 0 document.components.length) with
  | mk result after => cases result <;> rfl

theorem Ready.mounted {strict : Bool} {document : Document} {board ready : Engine}
    (is : Ready strict document board ready) (blank : board.Blank)
    (ok : (board.openDocument strict (.ok document)).1 = .ok ()) :
    ∀ w ∈ (board.openDocument strict (.ok document)).2.board.widgets, w.mounted = true := by
  have opened : Opened document (board.openDocument strict (.ok document)).2 :=
    ⟨strict, board, blank, Prod.ext ok rfl⟩
  have length := congrArg List.length opened.fresh.declared
  rw [Engine.declared, List.length_map, List.length_map] at length
  intro w member
  obtain ⟨place, found⟩ := List.mem_iff_getElem?.mp member
  have inside := (List.getElem?_eq_some_iff.mp found).1
  rw [length] at inside
  rw [is.opens] at ok found
  cases mounts : ready.mountAll (List.range' 0 document.components.length) with
  | mk result after =>
    cases result with
    | error fault => simp [mounts] at ok
    | ok =>
      rw [mounts] at found
      exact mountAll_mounts mounts place (.inl (List.mem_range'_1.mpr (by omega))) w found

theorem Ready.opening {strict : Bool} {document : Document} {board ready : Engine}
    (is : Ready strict document board ready) (blank : board.Blank)
    (compiles : document.Compiles strict) :
    Opening strict (.ok document) (board.openDocument strict (.ok document)) := by
  have result := is.result
  constructor
  · rw [result, forM_eq_ok_iff]
    simp only [Component.mounting_eq_ok_iff]
    constructor
    · exact fun mountable => ⟨document, rfl, compiles, mountable⟩
    · rintro ⟨_, ⟨⟩, -, mountable⟩
      exact mountable
  · rintro _ ⟨⟩ ok
    have opened : Opened document (board.openDocument strict (.ok document)).2 :=
      ⟨strict, board, blank, Prod.ext ok rfl⟩
    exact ⟨opened.fresh.declared, is.mounted blank ok⟩
  · intro fault failed
    rw [result, forM_eq_error_iff] at failed
    obtain ⟨before, c, after, -, -, failed⟩ := failed
    rcases Component.mounting_eq_error failed with ⟨-, refusal⟩ | ⟨-, -, unlisted⟩
    · exact .inl refusal
    · exact .inr unlisted
  · constructor
    · rintro ⟨fault, failed, escaped⟩
      rw [result, forM_eq_error_iff] at failed
      obtain ⟨before, c, after, split, passed, failed⟩ := failed
      rcases Component.mounting_eq_error failed with ⟨-, refusal⟩ | ⟨named, unlisted, -⟩
      · exact absurd refusal escaped
      · exact ⟨document, rfl, compiles, before, c, after, split,
          fun d member => (Component.mounting_eq_ok_iff d).mp (passed d member), named, unlisted⟩
    · rintro ⟨_, ⟨⟩, -, before, c, after, split, passed, named, unlisted⟩
      obtain ⟨fault, failed, kind⟩ := Component.render_unlisted unlisted .null
      refine ⟨fault, ?_, kind.not_refusal⟩
      rw [result, forM_eq_error_iff]
      refine ⟨before, c, after, split,
        fun d member => (Component.mounting_eq_ok_iff d).mpr (passed d member), ?_⟩
      rw [c.mounting_named named, failed]
      rfl

/-- Opening a page from a text ends with its widgets mounted, or with a refusal, unless a dropdown
cannot be drawn of its options. -/
theorem opening_outcome {limits : Limits} {strict : Bool} {text : String} {board : Engine}
    (blank : board.Blank) : Opening strict (Document.ofText limits false text)
      (board.openDocument strict (Document.ofText limits false text)) := by
  cases read : Document.ofText limits false text with
  | error cause => exact .of_refused rfl nofun
  | ok document =>
    have distinct := Document.distinct_of_ofText read
    by_cases compiles : document.Compiles strict
    · obtain ⟨ready, is⟩ := openDocument_ready blank distinct compiles
      exact is.opening blank compiles
    · obtain ⟨cause, refused⟩ := openDocument_dead board compiles
      refine .of_refused refused fun other same => ?_
      cases same
      exact compiles

/-- A document with a number for options. -/
def optionsText : String :=
  "\x7b\"components\":[\x7b\"id\":\"d\",\"type\":\"dropdown\"," ++
  "\"props\":\x7b\"options\":5\x7d\x7d],\"bindings\":[]\x7d"

/-- What opening the page of that text on a blank board comes to. -/
def optionsOpened : Except Fault Unit × Engine :=
  vacant.openDocument true (Document.ofText .standard false optionsText)

/-- Whether something that is no collection was to be gone through. -/
def isNotIterable : Except Fault Unit → Bool
  | .error (.notIterable _) => true
  | _ => false

theorem optionsOpened_fails : ∃ kind, optionsOpened.1 = .error (.notIterable kind) := by
  have computed : isNotIterable optionsOpened.1 = true := by decide +kernel
  generalize optionsOpened.1 = result at computed ⊢
  unfold isNotIterable at computed
  split at computed
  · next kind => exact ⟨kind, rfl⟩
  · cases computed

theorem opening_outcome_options : vacant.Blank ∧
    Opening true (Document.ofText .standard false optionsText) optionsOpened ∧
    ∃ document, Document.ofText .standard false optionsText = .ok document ∧
      document.Trips true := by
  have opening : Opening true (Document.ofText .standard false optionsText) optionsOpened :=
    opening_outcome vacant_blank
  obtain ⟨kind, failed⟩ := optionsOpened_fails
  refine ⟨vacant_blank, opening, opening.escapes_iff.mp ⟨_, failed, ?_⟩⟩
  rintro ⟨cause, ⟨⟩⟩

/-- That page is neither opened nor refused. -/
theorem options_escape : ¬(optionsOpened.1 = .ok () ∨
    ∃ cause, optionsOpened.1 = .error (.invalid cause)) := by
  obtain ⟨kind, failed⟩ := optionsOpened_fails
  rw [failed]
  rintro (same | ⟨cause, same⟩)
  · cases same
  · cases same

end Engine
end Patchbay
