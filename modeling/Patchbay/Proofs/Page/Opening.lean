import Patchbay.Proofs.Engine.Compiling
import Patchbay.Proofs.Entries
import Patchbay.Proofs.Page.Display

/-!
# Pages that have been opened

A page is opened on a board without anything on it. Opening succeeds only if every id is new, every
handler can be registered and every widget can be drawn, so afterwards the page is wired
(`Engine.Opened.wired`): mounting keeps the handlers of the widgets that are mounted already
(`Engine.Mounted`), and a dropdown that has been drawn has a label for every value.
-/

namespace Patchbay

open Relation (ReflTransGen)

/-- The widget that a component declares. -/
def Component.widget (c : Component) : Widget :=
  { id := c.id, type := c.type, props := c.props }

theorem ComponentType.ofName?_name (type : ComponentType) : ofName? type.name = some type := by
  cases type <;> rfl

theorem Widget.maps_of_optionPairs {options pairs : List Value}
    (drawn : optionPairs options = .ok pairs) :
    ∀ option ∈ options, ∃ entries, option = .map entries := by
  induction options generalizing pairs with
  | nil => simp
  | cons option rest ih =>
    intro other member
    cases option with
    | map entries =>
      rcases List.mem_cons.mp member with rfl | member
      · exact ⟨entries, rfl⟩
      · cases others : optionPairs rest with
        | error fault => simp [optionPairs, optionPart, others] at drawn
        | ok pairs => exact ih others other member
    | null | bool b | int n | float x | text s | list items =>
      simp [optionPairs, optionPart] at drawn

/-- A dropdown that can be drawn has a label for every value. -/
theorem Widget.labelled_of_render {w : Widget} {value view : Value}
    (drawn : w.render value = .ok view) : w.Labelled := by
  intro dropdown
  simp only [render, dropdown] at drawn
  cases given : w.options with
  | error fault => simp [given, Except.bind] at drawn
  | ok options =>
    cases pairs : optionPairs options with
    | error fault => simp [given, pairs, Except.bind] at drawn
    | ok pairs' => exact ⟨options, rfl, maps_of_optionPairs pairs⟩

namespace Engine

/-- Nothing has been done but to set up the page: there are the same tasks and values as before. -/
structure SetUp (e after : Engine) : Prop where
  tasks : after.board.tasks = e.board.tasks
  inFlight : after.board.inFlight = e.board.inFlight
  serialize : after.board.serialize = e.board.serialize
  values : after.board.store.values = e.board.store.values
  rules : after.page.rules = e.page.rules

theorem SetUp.trans {first second third : Engine} (earlier : SetUp first second)
    (later : SetUp second third) : SetUp first third where
  tasks := later.tasks.trans earlier.tasks
  inFlight := later.inFlight.trans earlier.inFlight
  serialize := later.serialize.trans earlier.serialize
  values := later.values.trans earlier.values
  rules := later.rules.trans earlier.rules

/-! ## Declaring -/

/-- The widgets that have been declared are appended to those of the board, under ids that are new
and different. -/
structure Declares (components : List Component) (e after : Engine) : Prop where
  setUp : SetUp e after
  board : after.board = { e.board with
    widgets := e.board.widgets ++ components.map Component.widget }
  refs : after.page.widgets.map Prod.snd = e.page.widgets.map Prod.snd ++
    List.range' e.board.widgets.length components.length
  fresh : ∀ c ∈ components, c.id ∉ Entries.keys e.page.widgets
  distinct : (components.map Component.id).Nodup

theorem declareAll_declares {components : List Component} {e after : Engine}
    (declared : e.declareAll (components.map Component.declaration) = (.ok (), after)) :
    Declares components e after := by
  induction components generalizing e with
  | nil =>
    cases declared
    exact ⟨⟨rfl, rfl, rfl, rfl, rfl⟩, by simp, by simp, by simp, by simp⟩
  | cons c rest ih =>
    simp only [List.map_cons, declareAll, Component.declaration, ComponentType.ofName?_name]
      at declared
    split at declared
    · cases declared
    next taken =>
      -- The id is new, so the widget is put behind the others.
      have absent : c.id ∉ Entries.keys e.page.widgets := by
        rwa [Entries.has_iff_mem_keys] at taken
      obtain ⟨setUp, board, refs, fresh, distinct⟩ := ih declared
      have put := Entries.put_of_not_mem absent e.board.widgets.length
      simp only [addWidget, put] at setUp board refs fresh
      have same : SetUp e after :=
        ⟨setUp.tasks, setUp.inFlight, setUp.serialize, setUp.values, setUp.rules⟩
      refine ⟨same, ?_, ?_, ?_, ?_⟩
      · rw [board]
        simp [Component.widget]
      · rw [refs]
        simp [List.range'_succ]
      · intro other member
        rcases List.mem_cons.mp member with rfl | member
        · exact absent
        · have new := fresh other member
          simp only [Entries.keys, List.map_append, List.mem_append, not_or] at new
          exact new.1
      · rw [List.map_cons, List.nodup_cons]
        refine ⟨fun repeated => ?_, distinct⟩
        obtain ⟨other, member, same⟩ := List.mem_map.mp repeated
        have new := fresh other member
        simp [Entries.keys, same] at new

/-! ## Mounting -/

theorem check_registration {id action : String} {h : Handler} {r : Registration}
    (checked : Registry.check (.text id) (.text action) (some h) = .ok r) :
    r = ⟨id, action, h⟩ := by
  simp only [Registry.check, Registry.name?] at checked
  split at checked
  · cases checked
  next named =>
    split at checked
    · cases checked
    next named' =>
      simp only [Option.ite_none_left_eq_some, Option.some.injEq] at named named'
      obtain ⟨-, rfl⟩ := named
      obtain ⟨-, rfl⟩ := named'
      cases checked
      rfl

theorem register_ok {id action : String} {h : Handler} {e after : Engine} {r : Registration}
    (registered : e.register (.text id) (.text action) (some h) = (.ok r, after)) :
    after.board = { e.board with registry := e.board.registry.insert ⟨id, action, h⟩ } ∧
      after.page = e.page := by
  unfold register at registered
  cases checked : Registry.check (.text id) (.text action) (some h) with
  | error cause => simp [checked] at registered
  | ok r' =>
    cases check_registration checked
    simp only [checked, Prod.mk.injEq] at registered
    obtain ⟨-, rfl⟩ := registered
    split
    · exact ⟨rfl, rfl⟩
    · exact ⟨rfl, rfl⟩

/-- Registering handlers changes nothing but the registry and the log, be they taken or refused. -/
theorem registerAll_eq (id : String) (handlers : List (String × Handler)) (e : Engine) :
    ∃ lines registry, (e.registerAll id handlers).2 =
      { e with shared.lines := lines, board.registry := registry } := by
  induction handlers generalizing e with
  | nil => exact ⟨_, _, rfl⟩
  | cons first rest ih =>
    have one : ∃ lines registry, (e.register (.text id) (.text first.1) (some first.2)).2 =
        { e with shared.lines := lines, board.registry := registry } := by
      unfold register
      split
      · exact ⟨_, _, rfl⟩
      · dsimp only
        split <;> exact ⟨_, _, rfl⟩
    obtain ⟨lines, registry, added⟩ := one
    unfold registerAll
    cases registered : e.register (.text id) (.text first.1) (some first.2) with
    | mk result between =>
      rw [registered] at added
      cases result with
      | error cause => exact ⟨lines, registry, added⟩
      | ok r =>
        obtain ⟨lines', registry', others⟩ := ih between
        refine ⟨lines', registry', others.trans ?_⟩
        rw [show between = _ from added]

/-- Handlers have been registered for one widget. -/
structure Registers (id : String) (handlers : List (String × Handler)) (e after : Engine) :
    Prop where
  board : after.board = { e.board with registry := after.board.registry }
  page : after.page = e.page
  kept : ∀ target type, target ≠ id ∨ type ∉ handlers.map Prod.fst →
    after.board.registry.lookup target type = e.board.registry.lookup target type
  added : (handlers.map Prod.fst).Nodup → ∀ type h, (type, h) ∈ handlers →
    after.board.registry.lookup id type = some ⟨id, type, h⟩

theorem registerAll_registers {id : String} {handlers : List (String × Handler)}
    {e after : Engine} (registered : e.registerAll id handlers = (.ok (), after)) :
    Registers id handlers e after := by
  induction handlers generalizing e with
  | nil =>
    cases registered
    exact ⟨rfl, rfl, fun _ _ _ => rfl, fun _ _ _ member => by simp at member⟩
  | cons entry rest ih =>
    obtain ⟨action, handler⟩ := entry
    unfold registerAll at registered
    cases first : e.register (.text id) (.text action) (some handler) with
    | mk result between =>
      cases result with
      | error cause => simp [first] at registered
      | ok r =>
        simp only [first] at registered
        obtain ⟨board, page⟩ := register_ok first
        obtain ⟨board', page', kept, added⟩ := ih registered
        refine ⟨?_, page'.trans page, ?_, ?_⟩
        · rw [board', board]
        · -- under another key, neither the first registration nor the later ones count
          intro target type other
          simp only [List.map_cons, List.mem_cons, not_or] at other
          have later : target ≠ id ∨ type ∉ rest.map Prod.fst := other.imp_right And.right
          rw [kept target type later, board]
          apply Registry.lookup_insert_of_ne
          rintro ⟨rfl, rfl⟩
          rcases other with other | other
          · exact other rfl
          · exact other.1 rfl
        · -- a later registration would replace the first one under the same key
          intro distinct type h member
          simp only [List.map_cons, List.nodup_cons] at distinct
          rcases List.mem_cons.mp member with same | member
          · cases same
            rw [kept id action (.inr distinct.1), board]
            exact Registry.lookup_insert_self _ ⟨id, action, handler⟩
          · exact added distinct.2 type h member

theorem handlers_nodup (w : Widget) (ref : Nat) : ((w.handlers ref).map Prod.fst).Nodup := by
  unfold Widget.handlers
  cases w.type <;> simp

/-- The widgets at some places have been mounted. -/
structure Mounted (done : List Nat) (e : Engine) : Prop where
  distinct : (e.declared.map Widget.id).Nodup
  served : ∀ ref ∈ done, ∀ w : Widget, e.declared[ref]? = some w →
    ∀ type h, (type, h) ∈ w.handlers ref →
      e.board.registry.lookup w.id type = some ⟨w.id, type, h⟩
  serving : ∀ target type r, e.board.registry.lookup target type = some r →
    ∃ ref ∈ done, ∃ w : Widget, e.declared[ref]? = some w ∧ w.id = target ∧
      (type, r.handler) ∈ w.handlers ref
  labelled : ∀ ref ∈ done, ∀ w : Widget, e.declared[ref]? = some w → w.Labelled
  displays : ∀ ref ∈ done, ∀ w : Widget, e.declared[ref]? = some w → e.Displays ref w
  viewed : e.Viewed
  unwatched : ∀ ref, ref ∉ done → ∀ id, .view ref ∉ e.board.store.observersOf id
  waiting : ∀ ref, ref ∉ done → ∀ w : Widget, e.board.widgets[ref]? = some w →
    w.mounted = false

/-- What mounting the widget at a place comes to, if it succeeds. -/
structure Mounts (ref : Nat) (w : Widget) (e after : Engine) : Prop where
  setUp : SetUp e after
  page : after.page = e.page
  declared : after.declared = e.declared
  registers : ∀ target type, target ≠ w.id ∨ type ∉ (w.handlers ref).map Prod.fst →
    after.board.registry.lookup target type = e.board.registry.lookup target type
  added : ∀ type h, (type, h) ∈ w.handlers ref →
    after.board.registry.lookup w.id type = some ⟨w.id, type, h⟩
  labelled : w.Labelled
  shows : ∀ view, w.render (after.board.store.get w.id) = .ok view →
    after.showing ref = some view
  observers : ∀ id o, o ∈ after.board.store.observersOf id ↔
    o ∈ e.board.store.observersOf id ∨ id = w.id ∧ o = .view ref
  others : ∀ place, place ≠ ref → after.board.widgets[place]? = e.board.widgets[place]?

theorem mem_observersOf_subscribe (store : Store) (s : Subscription) (id : String)
    (o : Observer) : o ∈ (store.subscribe s).observersOf id ↔
      o ∈ store.observersOf id ∨ id = s.id ∧ o = s.observer := by
  rw [Store.observersOf_subscribe]
  split <;> simp [*]

/-- A widget that watches its entry, before it is drawn. -/
def watching (ref : Nat) (id : String) (e : Engine) : Engine :=
  (e.withStore (e.board.store.subscribe ⟨id, .view ref⟩)).updateWidget ref fun w =>
    { w with subscription := some ⟨id, .view ref⟩ }

theorem watching_widget {ref : Nat} {w : Widget} {e : Engine}
    (found : e.board.widgets[ref]? = some w) : (e.watching ref w.id).board.widgets[ref]? =
      some { w with subscription := some ⟨w.id, .view ref⟩ } := by
  simp [watching, updateWidget, withStore, found]

/-- A widget that has been drawn for the first time. -/
def appeared (ref : Nat) (w : Widget) (view : Value) (e : Engine) : Engine :=
  ((e.watching ref w.id).updateWidget ref fun w => { w with rendered := view }).log .debug
    "widget_mounted" [("widget_id", .text w.id), ("type", .text w.type.name)]

theorem appeared_showing {ref : Nat} {w : Widget} {e : Engine}
    (found : e.board.widgets[ref]? = some w) (view : Value) :
    (e.appeared ref w view).showing ref = some view := by
  simp [showing, appeared, Engine.log, updateWidget, watching, withStore, found]

/-- To mount a widget is to register its handlers and then to draw it while it watches its entry. -/
theorem mount_eq {ref : Nat} {w : Widget} {e : Engine} (found : e.board.widgets[ref]? = some w)
    (waiting : w.mounted = false) :
    e.mount ref = match e.registerAll w.id (w.handlers ref) with
      | (.error fault, e) => (.error fault, e)
      | (.ok (), e) => match w.render (e.board.store.get w.id) with
        | .error fault => (.error fault, e.watching ref w.id)
        | .ok view => (.ok (), e.appeared ref w view) := by
  simp only [mount, found, waiting, Bool.false_eq_true, ↓reduceIte]
  cases registered : e.registerAll w.id (w.handlers ref) with
  | mk result between =>
    cases result with
    | error fault => rfl
    | ok done =>
      have there : between.board.widgets[ref]? = some w := by
        rw [(registerAll_registers registered).board]
        exact found
      have watched : (between.withStore (between.board.store.subscribe
          ⟨w.id, .view ref⟩)).updateWidget ref (fun w' =>
            { w' with subscription := some ⟨w.id, .view ref⟩ }) = between.watching ref w.id := rfl
      have same : Widget.render { w with subscription := some ⟨w.id, .view ref⟩ }
          ((between.watching ref w.id).board.store.get w.id) =
          w.render (between.board.store.get w.id) := rfl
      simp only [watched, redraw, watching_widget there, same]
      cases w.render (between.board.store.get w.id) <;> rfl

/-- Besides registering handlers, mounting changes only the log, the store and the widgets. -/
theorem mount_parts (ref : Nat) (e : Engine) : ∃ id handlers lines store widgets,
    (e.mount ref).2 = { (e.registerAll id handlers).2 with
      shared.lines := lines, board.store := store, board.widgets := widgets } := by
  cases found : e.board.widgets[ref]? with
  | none =>
    simp only [mount, found]
    exact ⟨"", [], _, _, _, rfl⟩
  | some w =>
    cases waiting : w.mounted with
    | true =>
      simp only [mount, found, waiting, ↓reduceIte]
      exact ⟨"", [], _, _, _, rfl⟩
    | false =>
      refine ⟨w.id, w.handlers ref, ?_⟩
      rw [mount_eq found waiting]
      cases e.registerAll w.id (w.handlers ref) with
      | mk result between =>
        cases result with
        | error fault => exact ⟨_, _, _, rfl⟩
        | ok done =>
          dsimp only
          split <;> exact ⟨_, _, _, rfl⟩

/-- A widget is mounted once its handlers are registered and it has been drawn. -/
theorem mount_ok {ref : Nat} {w : Widget} {e after : Engine}
    (found : e.board.widgets[ref]? = some w) (waiting : w.mounted = false)
    (mounted : e.mount ref = (.ok (), after)) :
    ∃ between view, e.registerAll w.id (w.handlers ref) = (.ok (), between) ∧
      w.render (between.board.store.get w.id) = .ok view ∧ after = between.appeared ref w view := by
  rw [mount_eq found waiting] at mounted
  cases registered : e.registerAll w.id (w.handlers ref) with
  | mk result between =>
    cases result with
    | error fault => simp [registered] at mounted
    | ok done =>
      cases drawn : w.render (between.board.store.get w.id) with
      | error fault => simp [registered, drawn] at mounted
      | ok view =>
        simp only [registered, drawn, Prod.mk.injEq, true_and] at mounted
        exact ⟨between, view, rfl, drawn, mounted.symm⟩

theorem mount_mounts {ref : Nat} {w : Widget} {e after : Engine}
    (found : e.board.widgets[ref]? = some w) (waiting : w.mounted = false)
    (mounted : e.mount ref = (.ok (), after)) : Mounts ref w e after := by
  obtain ⟨between, view, registered, rendered, rfl⟩ := mount_ok found waiting mounted
  obtain ⟨board, page, kept, added⟩ := registerAll_registers registered
  have boards : between.board.widgets = e.board.widgets := by rw [board]
  have setUp : SetUp e between :=
    ⟨by rw [board], by rw [board], by rw [board], by rw [board], by rw [page]⟩
  constructor
  · exact setUp.trans ⟨rfl, rfl, rfl, rfl, rfl⟩
  · exact page
  · -- neither watching nor drawing changes a declaration
    have drawn : (between.appeared ref w view).declared = (between.watching ref w.id).declared :=
      map_modify_of_same _ ref (fun w => { w with rendered := view }) fun _ => rfl
    have watched : (between.watching ref w.id).declared = between.declared :=
      map_modify_of_same _ ref (fun w' => { w' with subscription := some ⟨w.id, .view ref⟩ })
        fun _ => rfl
    exact drawn.trans (watched.trans (congrArg (List.map Widget.declared) boards))
  · exact kept
  · exact added (handlers_nodup w ref)
  · -- a dropdown that has been drawn has maps for options
    exact Widget.labelled_of_render rendered
  · -- the first drawing shows what is stored
    intro view drawn
    have there : between.board.widgets[ref]? = some w := by
      rw [boards]
      exact found
    rw [← Except.ok.inj (rendered.symm.trans drawn)]
    exact appeared_showing there _
  · intro id o
    have observers : between.board.store = e.board.store := by rw [board]
    rw [← observers]
    exact mem_observersOf_subscribe between.board.store ⟨w.id, .view ref⟩ id o
  · intro place other
    have ne : ref ≠ place := Ne.symm other
    simp [appeared, Engine.log, updateWidget, watching, withStore, ne, boards]

/-- Mounting one more widget keeps what the others have registered, since ids differ. -/
theorem Mounts.mounted {done : List Nat} {ref : Nat} {w : Widget} {e after : Engine}
    (mounts : Mounts ref w e after) (mounted : Mounted done e)
    (found : e.board.widgets[ref]? = some w) (new : ref ∉ done) :
    Mounted (ref :: done) after := by
  have known : e.declared[ref]? = some w.declared := by
    simp [Engine.declared, found]
  have handlers : w.declared.handlers ref = w.handlers ref := w.handlers_declared ref
  have distinct : (after.declared.map Widget.id).Nodup := by
    rw [mounts.declared]
    exact mounted.distinct
  have place {ref' : Nat} {w' : Widget} (there : e.declared[ref']? = some w')
      (same : w'.id = w.id) : ref' = ref := (same_place mounted.distinct there known same).1
  constructor
  · exact distinct
  · -- served: its own handlers are new, and those of others have other ids
    intro ref' member w' there type h handles
    rw [mounts.declared] at there
    rcases List.mem_cons.mp member with rfl | member
    · cases known.symm.trans there
      rw [handlers] at handles
      exact mounts.added type h handles
    · rw [mounts.registers w'.id type (.inl fun same => new (place there same ▸ member))]
      exact mounted.served ref' member w' there type h handles
  · -- serving: what is found is a handler of this widget, or it was there before
    intro target type r lookup
    rw [mounts.declared]
    by_cases mine : target = w.id ∧ type ∈ (w.handlers ref).map Prod.fst
    · obtain ⟨rfl, handled⟩ := mine
      obtain ⟨⟨type', h⟩, handles, rfl⟩ := List.mem_map.mp handled
      rw [mounts.added type' h handles] at lookup
      cases lookup
      refine ⟨ref, List.mem_cons_self, w.declared, known, rfl, ?_⟩
      rw [handlers]
      exact handles
    · have other : target ≠ w.id ∨ type ∉ (w.handlers ref).map Prod.fst :=
        Decidable.not_and_iff_or_not.mp mine
      rw [mounts.registers target type other] at lookup
      obtain ⟨ref', member, w', there, same, handles⟩ := mounted.serving target type r lookup
      exact ⟨ref', List.mem_cons_of_mem ref member, w', there, same, handles⟩
  · -- labelled: the new one could be drawn, and so could the others before
    intro ref' member w' there
    rw [mounts.declared] at there
    rcases List.mem_cons.mp member with rfl | member
    · cases known.symm.trans there
      have labelled := mounts.labelled
      exact labelled
    · exact mounted.labelled ref' member w' there
  · -- displays: the others have been left alone, and what they show is still stored
    intro ref' member w' there
    rw [mounts.declared] at there
    by_cases same : ref' = ref
    · subst same
      cases known.symm.trans there
      refine ⟨fun id => ?_, mounts.shows⟩
      rw [mounts.observers]
      simp [mounted.unwatched ref' new id, Widget.declared]
    · have member' : ref' ∈ done := (List.mem_cons.mp member).resolve_left same
      have displays := mounted.displays ref' member' w' there
      refine ⟨fun id => ?_, fun view drawn => ?_⟩
      · rw [mounts.observers, displays.watches]
        simp [same]
      · rw [showing, mounts.others ref' same]
        refine displays.shows view ?_
        rwa [Store.get, mounts.setUp.values] at drawn
  · -- only widgets watch
    intro id o member
    rcases (mounts.observers id o).mp member with member | ⟨-, rfl⟩
    · exact mounted.viewed id o member
    · exact ⟨ref, rfl⟩
  · -- a widget that waits watches nothing
    intro ref' absent id
    simp only [List.mem_cons, not_or] at absent
    rw [mounts.observers]
    simp [mounted.unwatched ref' absent.2 id, absent.1]
  · -- waiting: no other widget has been touched
    intro ref' absent w' there
    simp only [List.mem_cons, not_or] at absent
    rw [mounts.others ref' absent.1] at there
    exact mounted.waiting ref' absent.2 w' there

theorem mountAll_mounted {refs : List Nat} {done : List Nat} {e after : Engine}
    (mounted : Mounted done e) (distinct : refs.Nodup) (new : ∀ ref ∈ refs, ref ∉ done)
    (inside : ∀ ref ∈ refs, ref < e.declared.length)
    (succeeds : e.mountAll refs = (.ok (), after)) :
    Mounted (refs.reverse ++ done) after ∧ SetUp e after ∧ after.page = e.page ∧
      after.declared = e.declared := by
  -- Over the places that are left, the mounted ones growing.
  induction refs generalizing done e with
  | nil =>
    cases succeeds
    exact ⟨mounted, ⟨rfl, rfl, rfl, rfl, rfl⟩, rfl, rfl⟩
  | cons ref rest ih =>
    have here := inside ref List.mem_cons_self
    rw [declared, List.length_map] at here
    have found := List.getElem?_eq_getElem here
    have absent := new ref List.mem_cons_self
    unfold mountAll at succeeds
    cases first : e.mount ref with
    | mk result between =>
      cases result with
      | error fault => simp [first] at succeeds
      | ok done' =>
        simp only [first] at succeeds
        have mounts := mount_mounts found (mounted.waiting ref absent _ found) first
        rw [List.nodup_cons] at distinct
        have fresh : ∀ ref' ∈ rest, ref' ∉ ref :: done := by
          intro ref' member again
          rcases List.mem_cons.mp again with rfl | again
          · exact distinct.1 member
          · exact new ref' (List.mem_cons_of_mem ref member) again
        have within : ∀ ref' ∈ rest, ref' < between.declared.length := by
          intro ref' member
          rw [mounts.declared]
          exact inside ref' (List.mem_cons_of_mem ref member)
        obtain ⟨all, setUp, page, declared⟩ :=
          ih (mounts.mounted mounted found absent) distinct.2 fresh within succeeds
        refine ⟨?_, mounts.setUp.trans setUp, page.trans mounts.page,
          declared.trans mounts.declared⟩
        rw [List.reverse_cons, List.append_assoc]
        exact all

/-! ## The page that has been opened -/

/-- A board without anything on it, and no page on it yet. -/
structure Blank (e : Engine) : Prop where
  store : e.board.store = {}
  registry : e.board.registry = {}
  widgets : e.board.widgets = []
  tasks : e.board.tasks = []
  inFlight : e.board.inFlight = []
  page : e.page.widgets = []

/-- The page of a document has been opened on a blank board. -/
def Opened (document : Document) (e : Engine) : Prop :=
  ∃ strict start, Blank start ∧ start.openDocument strict (.ok document) = (.ok (), e)

theorem logReading_board (e : Engine) (reading : Except Invalid Document) :
    (e.logReading reading).board = e.board ∧ (e.logReading reading).page = e.page := by
  unfold logReading
  split <;> exact ⟨rfl, rfl⟩

theorem Mounted.displayed {done : List Nat} {e : Engine} (mounted : Mounted done e)
    (all : ∀ ref < e.declared.length, ref ∈ done) : e.Displayed :=
  fun ref w found => mounted.displays ref (all ref (List.getElem?_eq_some_iff.mp found).1) w found

/-- What a page is like that has just been opened. -/
structure Fresh (document : Document) (e : Engine) : Prop where
  wired : e.Wired
  displayed : e.Displayed
  rules : e.page.rules = document.bindings.map Binding.rule
  declared : e.declared = document.components.map Component.widget
  tasks : e.board.tasks = []
  inFlight : e.board.inFlight = []
  values : e.board.store.values = []

theorem Fresh.orderly {document : Document} {e : Engine} (fresh : Fresh document e) :
    e.Orderly := by
  refine ⟨fresh.wired, fun ref task found => ?_⟩
  simp [fresh.tasks] at found

theorem Blank.mounted {e : Engine} (blank : e.Blank) {after : Engine}
    {components : List Component} (declares : Declares components e after) :
    Mounted [] after := by
  have board := declares.board
  have widgets : after.board.widgets = components.map Component.widget := by
    rw [board, blank.widgets]
    rfl
  have declared : after.declared = components.map Component.widget := by
    rw [Engine.declared, widgets, List.map_map]
    rfl
  -- nothing is registered or watched yet, so that all widgets wait
  constructor
  · rw [declared, List.map_map]
    exact declares.distinct
  · simp
  · intro target type r lookup
    rw [board, blank.registry] at lookup
    cases lookup
  · simp
  · simp
  · intro id o member
    rw [board, blank.store] at member
    simp [Store.observersOf, Entries.get?] at member
  · intro ref _ id
    rw [board, blank.store]
    simp [Store.observersOf, Entries.get?]
  · intro ref _ w found
    rw [widgets, List.getElem?_map] at found
    obtain ⟨c, -, rfl⟩ := Option.map_eq_some_iff.mp found
    rfl

theorem Mounted.wired {done : List Nat} {e : Engine} (mounted : Mounted done e)
    (all : ∀ ref < e.declared.length, ref ∈ done) : e.Wired := by
  have there {ref : Nat} {w : Widget} (found : e.declared[ref]? = some w) : ref ∈ done :=
    all ref (List.getElem?_eq_some_iff.mp found).1
  constructor
  · exact mounted.distinct
  · exact fun ref w found => mounted.served ref (there found) w found
  · intro target type r lookup
    obtain ⟨ref, -, w, found, same, handles⟩ := mounted.serving target type r lookup
    exact ⟨ref, w, found, same, handles⟩
  · intro w member
    obtain ⟨ref, found⟩ := List.mem_iff_getElem?.mp member
    exact mounted.labelled ref (there found) w found
  · exact mounted.viewed

/-- A page that has been opened is wired, and has neither values nor tasks. -/
theorem Opened.fresh {document : Document} {e : Engine} (opened : Opened document e) :
    Fresh document e := by
  obtain ⟨strict, start, blank, opens⟩ := opened
  -- Compiling, declaring and mounting have all succeeded, one after another.
  obtain ⟨read, reads⟩ := start.logReading_board (.ok document)
  simp only [openDocument, openPage] at opens
  cases compiled : (start.logReading (.ok document)).compile strict document.bindings with
  | mk result between =>
    cases result with
    | error cause => simp [compiled] at opens
    | ok rules =>
      obtain ⟨rfl, board, page⟩ := compile_rules compiled
      have same : between.board = start.board := board.trans read
      let ready : Engine := { between with page.rules := document.bindings.map Binding.rule }
      have blank' : ready.Blank := by
        have board : ready.board = start.board := same
        refine ⟨?_, ?_, ?_, ?_, ?_, ?_⟩
        · rw [board, blank.store]
        · rw [board, blank.registry]
        · rw [board, blank.widgets]
        · rw [board, blank.tasks]
        · rw [board, blank.inFlight]
        · exact (congrArg Page.widgets (page.trans reads)).trans blank.page
      simp only [compiled] at opens
      cases declared : ready.declareAll (document.components.map Component.declaration) with
      | mk result' declaring =>
        cases result' with
        | error cause => simp [ready, declared] at opens
        | ok done =>
          have declares := declareAll_declares declared
          have widgets : declaring.declared = document.components.map Component.widget := by
            rw [Engine.declared, declares.board, blank'.widgets, List.nil_append, List.map_map]
            rfl
          have refs : declaring.page.widgets.map Prod.snd =
              List.range' 0 document.components.length := by
            rw [declares.refs, blank'.page, blank'.widgets]
            rfl
          simp only [ready, declared, refs] at opens
          cases mounting : declaring.mountAll (List.range' 0 document.components.length) with
          | mk result'' last =>
            cases result'' with
            | error fault => simp [mounting] at opens
            | ok done' =>
              simp only [mounting, Prod.mk.injEq, true_and] at opens
              subst opens
              have inside : ∀ ref ∈ List.range' 0 document.components.length,
                  ref < declaring.declared.length := by
                intro ref member
                rw [widgets, List.length_map]
                simpa using member
              obtain ⟨mounted, setUp, rules, kept⟩ := mountAll_mounted (blank'.mounted declares)
                List.nodup_range' (by simp) inside mounting
              have all : ∀ ref < last.declared.length,
                  ref ∈ (List.range' 0 document.components.length).reverse ++ [] := by
                intro ref bound
                rw [kept, widgets, List.length_map] at bound
                simpa using bound
              constructor
              · exact (mounted.wired all).of_board rfl
              · exact (mounted.displayed all).of_same rfl rfl
              · exact setUp.rules.trans declares.setUp.rules
              · exact kept.trans widgets
              · exact (setUp.tasks.trans declares.setUp.tasks).trans blank'.tasks
              · exact (setUp.inFlight.trans declares.setUp.inFlight).trans blank'.inFlight
              · have values := setUp.values.trans declares.setUp.values
                rw [blank'.store] at values
                exact values

/-! ## What opening keeps -/

theorem mount_loop (ref : Nat) (e : Engine) : (e.mount ref).2.shared.loop = e.shared.loop := by
  obtain ⟨id, handlers, lines, store, widgets, mounted⟩ := mount_parts ref e
  obtain ⟨lines', registry, registered⟩ := registerAll_eq id handlers e
  rw [mounted, registered]

theorem mount_handles (ref : Nat) (e : Engine) :
    (e.mount ref).2.board.handles = e.board.handles := by
  obtain ⟨id, handlers, lines, store, widgets, mounted⟩ := mount_parts ref e
  obtain ⟨lines', registry, registered⟩ := registerAll_eq id handlers e
  rw [mounted, registered]

/-- What is true of an engine and stays so with everything that opening a page is made of. -/
structure KeptByOpening (holds : Engine → Prop) : Prop where
  aside : ∀ {e} lines counters page, holds e →
    holds { e with shared.lines := lines, shared.counters := counters, page := page }
  add : ∀ {e w}, Widget.subscription w = none → holds e → holds (e.addWidget w).2
  mount : ∀ {e} ref, holds e → holds (e.mount ref).2

section

variable {holds : Engine → Prop} (kept : KeptByOpening holds)
include kept

theorem KeptByOpening.log {e : Engine} (before : holds e) (level : Log.Level) (event : String)
    (fields : List (String × Value)) : holds (e.log level event fields) :=
  kept.aside _ e.shared.counters e.page before

theorem declareAll_keeps (declarations : List Declaration) {e : Engine} (before : holds e) :
    holds (e.declareAll declarations).2 := by
  induction declarations generalizing e with
  | nil => exact before
  | cons d rest ih =>
    unfold declareAll
    split
    · exact before
    · split
      · exact before
      · exact ih (kept.add rfl before)

theorem mountAll_keeps (refs : List Nat) {e : Engine} (before : holds e) :
    holds (e.mountAll refs).2 := by
  induction refs generalizing e with
  | nil => exact before
  | cons ref rest ih =>
    have first := kept.mount ref before
    unfold mountAll
    cases mounted : e.mount ref with
    | mk result between =>
      rw [mounted] at first
      cases result with
      | error fault => exact first
      | ok done => exact ih first

/-- Wherever opening stops, it has kept what all its parts keep. -/
theorem openPage_keeps (strict : Bool) (declarations : List Declaration)
    (bindings : List Binding) {e : Engine} (before : holds e) :
    holds (e.openPage strict declarations bindings).2 := by
  have compiling : holds (e.compile strict bindings).2 := by
    obtain ⟨lines, counters, compiled⟩ := compile_eq strict bindings e
    rw [compiled]
    exact kept.aside lines counters e.page before
  unfold openPage
  cases compiled : e.compile strict bindings with
  | mk result between =>
    rw [compiled] at compiling
    cases result with
    | error cause => exact compiling
    | ok rules =>
      have ruled : holds { between with page.rules := rules } := kept.aside _ _ _ compiling
      have declaring := declareAll_keeps kept declarations ruled
      dsimp only
      cases declared : ({ between with page.rules := rules } : Engine).declareAll declarations with
      | mk result' ready =>
        rw [declared] at declaring
        cases result' with
        | error cause => exact declaring
        | ok done =>
          have mounting := mountAll_keeps kept (ready.page.widgets.map Prod.snd) declaring
          dsimp only
          cases mounted : ready.mountAll (ready.page.widgets.map Prod.snd) with
          | mk result'' last =>
            rw [mounted] at mounting
            cases result'' with
            | error fault => exact mounting
            | ok done' => exact kept.log mounting _ _ _

theorem openDocument_keeps (strict : Bool) (reading : Except Invalid Document) {e : Engine}
    (before : holds e) : holds (e.openDocument strict reading).2 := by
  have read : holds (e.logReading reading) := by
    unfold logReading
    split
    · exact kept.log before _ _ _
    · exact kept.log before _ _ _
    · exact kept.log before _ _ _
    · exact kept.log before _ _ _
    · exact before
  cases reading with
  | error cause => exact read
  | ok document => exact openPage_keeps kept strict _ document.bindings read

end

theorem openDocument_loop (strict : Bool) (document : Document) (e : Engine) :
    (e.openDocument strict (.ok document)).2.shared.loop = e.shared.loop := by
  have kept : KeptByOpening fun after => after.shared.loop = e.shared.loop :=
    ⟨fun _ _ _ same => same, fun _ same => same, fun ref same => (mount_loop ref _).trans same⟩
  exact openDocument_keeps kept strict (.ok document) rfl

theorem eq_ok_of_isOk {ε : Type} {result : Except ε Unit} (ok : result.isOk = true) :
    result = .ok () := by
  cases result with
  | error cause => cases ok
  | ok => rfl

theorem eq_of_map {α β : Type} {found? : Option α} {a : α} (found : found? = some a) {f : α → β}
    {b : β} (shown : found?.map f = some b) : f a = b := by
  rw [found] at shown
  exact Option.some.inj shown

/-- A board without anything on it, with an event loop and one task for each target. -/
def vacant : Engine where
  shared := { loop := true, random := fun _ _ => default }
  board := { serialize := true }
  page := {}

theorem vacant_blank : vacant.Blank :=
  ⟨rfl, rfl, rfl, rfl, rfl, rfl⟩

/-- A page with a dropdown whose label goes to a textbox. A chart is refreshed with each choice,
and the textbox sets the dropdown in turn. -/
def salesDocument : Document where
  components := [
    ⟨"region", .dropdown, [("options", .list [
      .record [("label", .text "North"), ("value", .text "n")],
      .record [("label", .text "South"), ("value", .text "s")]])]⟩,
    ⟨"title", .textbox, []⟩, ⟨"sales", .chart, []⟩]
  bindings := [
    ⟨"region", "title", .direct, none, some "selected_text", some "text"⟩,
    ⟨"region", "sales", .direct, none, none, none⟩,
    ⟨"title", "region", .direct, none, none, none⟩]

/-- The page of that document on an empty board, with an event loop and one task for each target. -/
def sales : Engine :=
  (openDocument false (.ok salesDocument)
    { shared := { loop := true, random := fun _ _ => default }, board := { serialize := true },
      page := {} }).2

theorem sales_opened : Opened salesDocument sales := by
  refine ⟨false, _, ⟨rfl, rfl, rfl, rfl, rfl, rfl⟩, Prod.ext ?_ rfl⟩
  exact eq_ok_of_isOk (by decide +kernel)

end Engine
end Patchbay
