import Patchbay.Proofs.Page.Hosting
import Patchbay.Proofs.Page.Refusals

/-!
# Widgets that are mounted again

Widgets of a page that has been opened may be unmounted and mounted again, any number of times and
between all that the page does. The registry stays what opening has made of it, and a widget watches
its entry once while it is mounted (`Engine.mounting_wires_once`).
-/

namespace Patchbay

open Relation (ReflTransGen)

/-- The types of the actions that a widget serves. -/
def ComponentType.actions : ComponentType → List String
  | .textbox => ["setValue", "setText"]
  | .dropdown => ["setValue"]
  | .calendar => ["setValue"]
  | .chart => ["setValue", "updateChartData"]
  | .button => []

theorem ComponentType.nodup_actions (type : ComponentType) : type.actions.Nodup := by
  cases type <;> decide

theorem Widget.handlers_types (w : Widget) (ref : Nat) :
    (w.handlers ref).map Prod.fst = w.type.actions := by
  unfold handlers ComponentType.actions
  cases w.type <;> rfl

/-- The keys of the handlers of all components. -/
def Document.actionKeys (document : Document) : List (String × String) :=
  document.components.flatMap fun c => c.type.actions.map fun type => (c.id, type)

theorem Document.mem_actionKeys {document : Document} {target type : String} :
    (target, type) ∈ document.actionKeys ↔
      ∃ c ∈ document.components, c.id = target ∧ type ∈ c.type.actions := by
  simp only [actionKeys, List.mem_flatMap, List.mem_map, Prod.mk.injEq]
  constructor
  · rintro ⟨c, member, type, acts, rfl, rfl⟩
    exact ⟨c, member, rfl, acts⟩
  · rintro ⟨c, member, rfl, acts⟩
    exact ⟨c, member, type, acts, rfl, rfl⟩

theorem Document.nodup_actionKeys {document : Document}
    (distinct : (document.components.map Component.id).Nodup) : document.actionKeys.Nodup := by
  rw [actionKeys, List.nodup_flatMap]
  constructor
  · intro c _
    exact c.type.nodup_actions.map fun type type' same => (Prod.mk.inj same).2
  · -- components with different ids have different keys
    refine (List.pairwise_map.mp distinct).imp fun {c c'} other => ?_
    intro key first second
    obtain ⟨type, -, rfl⟩ := List.mem_map.mp first
    obtain ⟨type', -, same⟩ := List.mem_map.mp second
    exact other (Prod.mk.inj same).1.symm

/-- A fault of putting a page together: an id is declared twice, or a widget of no known type. -/
def Fault.IsAssembly (fault : Fault) : Prop :=
  (∃ id, fault = .invalid (.repeatedId id)) ∨ ∃ name, fault = .invalid (.unknownType name)

theorem Fault.IsAssembly.refusal {fault : Fault} (assembly : fault.IsAssembly) :
    fault.IsRefusal := by
  rcases assembly with ⟨id, same⟩ | ⟨name, same⟩
  · exact ⟨_, same⟩
  · exact ⟨_, same⟩

theorem Widget.pointParts_error {name : String} {points : List Value} {fault : Fault}
    (failed : pointParts name points = .error fault) : ¬fault.IsRefusal := by
  induction points with
  | nil => cases failed
  | cons point rest ih =>
    have first (fault : Fault) (failed : pointPart name point = .error fault) :
        ¬fault.IsRefusal := by
      rintro ⟨cause, rfl⟩
      unfold pointPart at failed
      split at failed <;> try cases failed
      split at failed <;> cases failed
    simp only [pointParts] at failed
    split at failed
    · cases failed
    next fault' own =>
      cases failed
      exact first _ own
    next fault' others _ =>
      cases failed
      exact ih others

/-- A widget that cannot be drawn has been given something of the wrong sort. -/
theorem Widget.render_error {w : Widget} {value : Value} {fault : Fault}
    (failed : w.render value = .error fault) : ¬fault.IsRefusal := by
  unfold render at failed
  split at failed
  · cases failed
  · cases failed
  · cases failed
  · cases given : w.options with
    | error cause =>
      simp only [given, Except.bind] at failed
      cases failed
      rintro ⟨refusal, rfl⟩
      simp only [options] at given
      split at given
      · cases given
      · unfold Value.elements at given
        split at given <;> cases given
    | ok options =>
      cases pairs : optionPairs options with
      | error cause =>
        simp only [given, pairs, Except.bind] at failed
        cases failed
        obtain ⟨found, rfl⟩ := optionPairs_error pairs
        rintro ⟨refusal, same⟩
        cases same
      | ok pairs' => simp [given, pairs, Except.bind] at failed
  · split at failed
    · cases failed
    next fault' names =>
      cases failed
      exact pointParts_error names
    next fault' values _ =>
      cases failed
      exact pointParts_error values

/-- No key is registered twice. -/
def Registry.Distinct (registry : Registry) : Prop :=
  (Entries.keys registry.entries).Nodup

namespace Engine

/-! ## Handlers that are registered again -/

theorem registerAll_distinct (id : String) (handlers : List (String × Handler)) {e : Engine}
    (distinct : e.board.registry.Distinct) :
    (e.registerAll id handlers).2.board.registry.Distinct := by
  induction handlers generalizing e with
  | nil => exact distinct
  | cons entry rest ih =>
    have one :
        (e.register (.text id) (.text entry.1) (some entry.2)).2.board.registry.Distinct := by
      unfold register
      split
      · exact distinct
      · dsimp only
        split <;> exact Entries.nodup_keys_put distinct
    unfold registerAll
    cases registered : e.register (.text id) (.text entry.1) (some entry.2) with
    | mk result between =>
      rw [registered] at one
      cases result with
      | error cause => exact one
      | ok r => exact ih one

/-- Handlers that are registered already may be registered again. -/
theorem registerAll_again {id : String} {handlers : List (String × Handler)} {e : Engine}
    (served : ∀ type h, (type, h) ∈ handlers →
      e.board.registry.lookup id type = some ⟨id, type, h⟩) :
    (e.registerAll id handlers).2.board.registry = e.board.registry := by
  induction handlers generalizing e with
  | nil => rfl
  | cons entry rest ih =>
    obtain ⟨type, h⟩ := entry
    unfold registerAll
    cases registered : e.register (.text id) (.text type) (some h) with
    | mk result between =>
      cases result with
      | error cause =>
        unfold register at registered
        split at registered
        · cases registered
          rfl
        · cases registered
      | ok r =>
        obtain ⟨board, -⟩ := register_ok registered
        have known : Entries.get? (id, type) e.board.registry.entries = some ⟨id, type, h⟩ :=
          served type h List.mem_cons_self
        have same : between.board.registry = e.board.registry := by
          rw [board, Registry.insert]
          simp only [Entries.put_of_get? known]
        refine (ih fun type h member => ?_).trans same
        rw [same]
        exact served type h (List.mem_cons_of_mem _ member)

/-! ## What is done to widgets -/

/-- Something that may happen to an opened page: a widget is mounted or unmounted, the page is
closed, or it goes on by itself or by what a user does. -/
inductive Upkeep : Engine → Engine → Prop
  | mount (ref : Nat) (e : Engine) : Upkeep e (e.mount ref).2
  | unmount (ref : Nat) (e : Engine) : Upkeep e (e.unmount ref)
  | close (e : Engine) : Upkeep e e.closePage
  | move {e after : Engine} (moves : Moves e after) : Upkeep e after

/-- The handlers and the declarations are the same, and still only widgets watch. -/
structure Upholds (e after : Engine) : Prop where
  registry : after.board.registry = e.board.registry
  declared : after.declared = e.declared
  viewed : e.Viewed → after.Viewed

theorem Upholds.of_board {e after : Engine} (same : after.board = e.board) : Upholds e after :=
  ⟨by rw [same], declared_of_board same,
    fun viewed => viewed.of_same (congrArg (fun b => b.store.observers) same)⟩

theorem Upholds.trans {first second third : Engine} (earlier : Upholds first second)
    (later : Upholds second third) : Upholds first third :=
  ⟨later.registry.trans earlier.registry, later.declared.trans earlier.declared,
    fun viewed => later.viewed (earlier.viewed viewed)⟩

theorem watching_upholds (ref : Nat) (id : String) (e : Engine) :
    Upholds e (e.watching ref id) where
  registry := rfl
  declared := map_modify_of_same _ ref _ fun _ => rfl
  viewed viewed id' o member := by
    have either : o ∈ e.board.store.observersOf id' ∨ id' = id ∧ o = .view ref :=
      (mem_observersOf_subscribe e.board.store ⟨id, .view ref⟩ id' o).mp member
    rcases either with member | ⟨-, rfl⟩
    · exact viewed id' o member
    · exact ⟨ref, rfl⟩

theorem appeared_upholds (ref : Nat) (w : Widget) (view : Value) (e : Engine) :
    Upholds e (e.appeared ref w view) := by
  have shown : Upholds (e.watching ref w.id) (e.appeared ref w view) :=
    ⟨rfl, map_modify_of_same _ ref _ fun _ => rfl, fun viewed => viewed⟩
  exact (watching_upholds ref w.id e).trans shown

theorem mount_upholds {e : Engine} (wired : e.Wired) (ref : Nat) : Upholds e (e.mount ref).2 := by
  cases found : e.board.widgets[ref]? with
  | none => simp only [mount, found, Upholds.of_board]
  | some w =>
    cases waiting : w.mounted with
    | true => simp only [mount, found, waiting, ↓reduceIte, Upholds.of_board]
    | false =>
      -- the widget registers the handlers that it has registered before
      have declared : e.declared[ref]? = some w.declared := by simp [Engine.declared, found]
      have again : (e.registerAll w.id (w.handlers ref)).2.board.registry = e.board.registry :=
        registerAll_again fun type h member =>
          wired.served ref w.declared declared type h (by rwa [Widget.handlers_declared])
      obtain ⟨lines, registry, done⟩ := registerAll_eq w.id (w.handlers ref) e
      rw [mount_eq found waiting]
      cases registered : e.registerAll w.id (w.handlers ref) with
      | mk result between =>
        rw [registered] at again done
        have same : between.board = e.board := by
          rw [show between = _ from done] at again ⊢
          exact congrArg (fun registry => { e.board with registry := registry }) again
        cases result with
        | error fault => exact .of_board same
        | ok ready =>
          dsimp only
          split
          · exact (Upholds.of_board same).trans (watching_upholds ref w.id between)
          next view _ => exact (Upholds.of_board same).trans (appeared_upholds ref w view between)

theorem unmount_upholds (ref : Nat) (e : Engine) : Upholds e (e.unmount ref) := by
  unfold unmount
  split
  · exact .of_board rfl
  next s _ =>
    exact ⟨rfl, map_modify_of_same _ ref _ fun _ => rfl,
      fun viewed id o member => viewed id o (Store.observersOf_unsubscribe_subset _ s id o member)⟩

theorem closePage_upholds (e : Engine) : Upholds e e.closePage := by
  have unmounted : Upholds e
      ((e.page.widgets.map Prod.snd).foldl (fun e ref => e.unmount ref) e) :=
    List.foldlRecOn (motive := Upholds e) _ _ (.of_board rfl)
      fun between upholds ref _ => upholds.trans (unmount_upholds ref between)
  exact unmounted.trans (.of_board rfl)

theorem Effects.upholds {fires : Prop} {e after : Engine} (effects : Effects fires e after) :
    Upholds e after :=
  ⟨effects.steady.registry, effects.steady.declared,
    fun viewed id o member => viewed id o (effects.observers id o member)⟩

theorem Moves.upholds {e after : Engine} (moves : Moves e after) : Upholds e after := by
  cases moves with
  | run p => exact (run_effects p e).upholds
  | dispatch rules trigger context =>
    have ruled : Upholds e { e with page.rules := rules } := .of_board rfl
    exact ruled.trans (dispatch_effects trigger context _).upholds
  | gesture w g => exact (performOn_effects w g e).upholds
  | step ref =>
    unfold stepTask
    split
    · exact .of_board rfl
    next task _ =>
      split
      · have begun : Upholds e (e.withVars task.vars) := .of_board rfl
        have ran := begun.trans (run_effects task.body _).upholds
        dsimp only
        split <;> exact ran.trans ⟨rfl, rfl, fun viewed => viewed⟩
      · exact ⟨rfl, rfl, fun viewed => viewed⟩
      · exact .of_board rfl
  | settle found done =>
    have board := settleTask_board found
    exact ⟨by rw [board]; rfl, by rw [Engine.declared, board]; rfl,
      fun viewed => viewed.of_same (by rw [board]; rfl)⟩

theorem Moves.boardMoves {e after : Engine} (moves : Moves e after) :
    ReflTransGen BoardMoves e after := by
  cases moves with
  | run p => exact (run_strides p e).moves
  | dispatch rules trigger context =>
    have ruled : Aside e { e with page.rules := rules } := .of_board rfl
    exact ruled.moves.trans (dispatch_strides trigger context _).moves
  | gesture w g => exact (performOn_strides w g e).moves
  | step ref => exact (stepTask_strides e ref).moves
  | settle => exact (settleTask_aside e _).moves

theorem Upkeep.boardMoves {e after : Engine} (upkeep : Upkeep e after) :
    ReflTransGen BoardMoves e after := by
  cases upkeep with
  | mount ref => exact .single (.mount ref e)
  | unmount ref => exact .single (.unmount ref e)
  | close => exact closePage_moves e
  | move moves => exact moves.boardMoves

theorem Upkeep.upholds {e after : Engine} (upkeep : Upkeep e after) (wired : e.Wired) :
    Upholds e after := by
  cases upkeep with
  | mount ref => exact mount_upholds wired ref
  | unmount ref => exact unmount_upholds ref e
  | close => exact closePage_upholds e
  | move moves => exact moves.upholds

theorem Upholds.wired {e after : Engine} (upholds : Upholds e after) (wired : e.Wired) :
    after.Wired :=
  wired.of_same upholds.declared upholds.registry (upholds.viewed wired.viewed)

/-! ## Pages that have been opened -/

theorem Opened.registry_distinct {document : Document} {e : Engine}
    (opened : Opened document e) : e.board.registry.Distinct := by
  have kept : KeptByOpening fun e => e.board.registry.Distinct := by
    refine ⟨fun _ _ _ distinct => distinct, fun _ distinct => distinct, fun {e} ref distinct => ?_⟩
    obtain ⟨id, handlers, lines, store, widgets, mounted⟩ := mount_parts ref e
    rw [mounted]
    exact registerAll_distinct id handlers distinct
  obtain ⟨strict, start, blank, opens⟩ := opened
  have none : start.board.registry.Distinct := by
    rw [blank.registry]
    exact List.nodup_nil
  have distinct := openDocument_keeps kept strict (.ok document) none
  rwa [opens] at distinct

/-- Widgets attend to their entries once they are opened, if no watch could be ended before. -/
theorem Opened.attentive {document : Document} {e : Engine} (opened : Opened document e)
    (unheld : e.board.handles = []) : e.Attentive := by
  obtain ⟨strict, start, blank, opens⟩ := opened
  have kept : KeptByOpening fun after => after.board.handles = start.board.handles :=
    ⟨fun _ _ _ same => same, fun _ same => same,
      fun ref same => (mount_handles ref _).trans same⟩
  have handles := openDocument_keeps kept strict (.ok document) rfl
  have moves := openDocument_moves strict (.ok document) start
  rw [opens] at handles moves
  exact attentive_of_moves ⟨blank.widgets, by rw [blank.store], handles.symm.trans unheld⟩ moves

/-- Only the widget under an id watches the entry, and that once, if it is mounted. -/
theorem Attentive.observersOf {e : Engine} (attentive : e.Attentive) (wired : e.Wired) {ref : Nat}
    {w : Widget} (found : e.board.widgets[ref]? = some w) :
    e.board.store.observersOf w.id = if w.mounted then [.view ref] else [] := by
  have declared : e.declared[ref]? = some w.declared := by simp [Engine.declared, found]
  have only : ∀ o ∈ e.board.store.observersOf w.id, o = .view ref := by
    intro o member
    obtain ⟨place, rfl⟩ := wired.viewed w.id o member
    obtain ⟨other, there, -, same⟩ := attends_iff.mp (attentive.mem_observersOf_iff.mp member)
    have declared' : e.declared[place]? = some other.declared := by
      simp [Engine.declared, there]
    rw [(same_place wired.distinct declared' declared same).1]
  have views : ∀ o ∈ e.board.store.observersOf w.id, o.isView ref = true :=
    fun o member => Observer.isView_iff.mpr (only o member)
  have once := attentive.watching ref w.id
  rw [Store.watches, List.countP_eq_length.mpr views, attends_of_found found] at once
  rw [List.eq_replicate_of_mem only, once]
  cases w.mounted <;> simp

/-- What is true of a page after whatever is done to its widgets. -/
structure WiredOnce (document : Document) (e : Engine) : Prop where
  declared : e.declared = document.components.map Component.widget
  /-- Each action that a component serves is registered, and nothing else. -/
  keys : (Entries.keys e.board.registry.entries).Perm document.actionKeys
  /-- What is registered for a component is its own handler. -/
  bound : ∀ (ref : Nat) (c : Component), document.components[ref]? = some c →
    ∀ type ∈ c.type.actions, ∃ h, (type, h) ∈ c.widget.handlers ref ∧
      e.board.registry.lookup c.id type = some ⟨c.id, type, h⟩
  watched : ∀ (ref : Nat) (w : Widget), e.board.widgets[ref]? = some w →
    e.board.store.observersOf w.id = if w.mounted then [.view ref] else []
  unwatched : ∀ id, (∀ c ∈ document.components, c.id ≠ id) → e.board.store.observersOf id = []
  /-- A write draws the widget once if it is mounted, and does no more than to store otherwise. -/
  drawn : ∀ (ref : Nat) (w : Widget), e.board.widgets[ref]? = some w →
    ∀ value, e.write w.id value =
      if w.mounted then
        match (e.storing w.id value).redraw ref with
        | .ok after => after
        | .error fault => (e.storing w.id value).logObserverFailure w.id fault
      else e.storing w.id value

theorem Wired.wiredOnce {document : Document} {e : Engine} (wired : e.Wired)
    (attentive : e.Attentive) (registry : e.board.registry.Distinct)
    (declared : e.declared = document.components.map Component.widget) :
    WiredOnce document e := by
  have known {ref : Nat} {c : Component} (found : document.components[ref]? = some c) :
      e.declared[ref]? = some c.widget := by
    rw [declared, List.getElem?_map, found, Option.map_some]
  have component {ref : Nat} {w : Widget} (found : e.declared[ref]? = some w) :
      ∃ c, document.components[ref]? = some c ∧ c.widget = w := by
    rw [declared, List.getElem?_map] at found
    exact Option.map_eq_some_iff.mp found
  have bound : ∀ (ref : Nat) (c : Component), document.components[ref]? = some c →
      ∀ type ∈ c.type.actions, ∃ h, (type, h) ∈ c.widget.handlers ref ∧
        e.board.registry.lookup c.id type = some ⟨c.id, type, h⟩ := by
    intro ref c found type acts
    have handled : type ∈ (c.widget.handlers ref).map Prod.fst := by
      rw [Widget.handlers_types]
      exact acts
    obtain ⟨⟨type, h⟩, member, rfl⟩ := List.mem_map.mp handled
    exact ⟨h, member, wired.served ref c.widget (known found) type h member⟩
  have watched : ∀ (ref : Nat) (w : Widget), e.board.widgets[ref]? = some w →
      e.board.store.observersOf w.id = if w.mounted then [.view ref] else [] :=
    fun ref w found => attentive.observersOf wired found
  refine ⟨declared, ?_, bound, watched, ?_, ?_⟩
  · -- both are lists without repetitions of the same keys
    have ids : (document.components.map Component.id).Nodup := by
      have distinct := wired.distinct
      rw [declared, List.map_map] at distinct
      exact distinct
    refine (List.perm_ext_iff_of_nodup registry (Document.nodup_actionKeys ids)).mpr ?_
    rintro ⟨target, type⟩
    rw [← Entries.has_iff_mem_keys, Document.mem_actionKeys, Entries.has,
      Option.isSome_iff_exists]
    constructor
    · rintro ⟨r, found⟩
      obtain ⟨ref, w, there, rfl, handles⟩ := wired.serving target type r found
      obtain ⟨c, inside, rfl⟩ := component there
      refine ⟨c, List.mem_of_getElem? inside, rfl, ?_⟩
      have handled := List.mem_map_of_mem (f := Prod.fst) handles
      rwa [Widget.handlers_types] at handled
    · rintro ⟨c, member, rfl, acts⟩
      obtain ⟨ref, found⟩ := List.mem_iff_getElem?.mp member
      obtain ⟨h, -, registered⟩ := bound ref c found type acts
      exact ⟨_, registered⟩
  · intro id other
    refine List.eq_nil_iff_forall_not_mem.mpr fun o member => ?_
    obtain ⟨ref, rfl⟩ := wired.viewed id o member
    obtain ⟨w, there, -, same⟩ := attends_iff.mp (attentive.mem_observersOf_iff.mp member)
    have declared' : e.declared[ref]? = some w.declared := by simp [Engine.declared, there]
    obtain ⟨c, inside, widget⟩ := component declared'
    exact other c (List.mem_of_getElem? inside) ((congrArg Widget.id widget).trans same)
  · intro ref w found value
    rw [write, writeWith_eq, watched ref w found]
    cases w.mounted <;> rfl

/-! ## Errors of assembly -/

theorem compile_error {e : Engine} {strict : Bool} {bindings : List Binding} {cause : Invalid}
    (refused : (e.compile strict bindings).1 = .error cause) :
    ¬(Fault.invalid cause).IsAssembly := by
  rw [compile_fst, Binding.compile] at refused
  split at refused
  · cases refused
    simp [Fault.IsAssembly]
  · cases refused

theorem registerAll_error {id : String} {handlers : List (String × Handler)} {e : Engine}
    {fault : Fault} (refused : (e.registerAll id handlers).1 = .error fault) :
    ¬fault.IsAssembly := by
  induction handlers generalizing e with
  | nil => cases refused
  | cons entry rest ih =>
    unfold registerAll at refused
    cases registered : e.register (.text id) (.text entry.1) (some entry.2) with
    | mk result between =>
      simp only [registered] at refused
      cases result with
      | error cause =>
        cases refused
        unfold register Registry.check at registered
        split at registered <;> cases registered
        rename_i checked
        split at checked
        · cases checked
          simp [Fault.IsAssembly]
        · split at checked <;> cases checked
          simp [Fault.IsAssembly]
      | ok r => exact ih refused

theorem mount_error {e : Engine} {ref : Nat} {fault : Fault}
    (failed : (e.mount ref).1 = .error fault) : ¬fault.IsAssembly := by
  cases found : e.board.widgets[ref]? with
  | none =>
    simp only [mount, found] at failed
    cases failed
  | some w =>
    cases waiting : w.mounted with
    | true =>
      simp only [mount, found, waiting, ↓reduceIte] at failed
      cases failed
    | false =>
      rw [mount_eq found waiting] at failed
      cases registered : e.registerAll w.id (w.handlers ref) with
      | mk result between =>
        simp only [registered] at failed
        cases result with
        | error cause =>
          cases failed
          exact registerAll_error (congrArg Prod.fst registered)
        | ok done =>
          cases drawn : w.render (between.board.store.get w.id) with
          | error cause =>
            simp only [drawn] at failed
            cases failed
            exact fun assembly => Widget.render_error drawn assembly.refusal
          | ok view =>
            simp only [drawn] at failed
            cases failed

theorem mountAll_error {refs : List Nat} {e : Engine} {fault : Fault}
    (failed : (e.mountAll refs).1 = .error fault) : ¬fault.IsAssembly := by
  induction refs generalizing e with
  | nil => cases failed
  | cons ref rest ih =>
    unfold mountAll at failed
    cases mounted : e.mount ref with
    | mk result between =>
      simp only [mounted] at failed
      cases result with
      | error cause =>
        cases failed
        exact mount_error (congrArg Prod.fst mounted)
      | ok done => exact ih failed

/-- Of a document that has been read, every component can be added to a page without widgets. -/
theorem openDocument_error {document : Document} (reads : document.Reads) {strict : Bool}
    {e : Engine} (bare : e.page.widgets = []) {fault : Fault}
    (failed : (e.openDocument strict (.ok document)).1 = .error fault) : ¬fault.IsAssembly := by
  obtain ⟨read, reads'⟩ := e.logReading_board (.ok document)
  simp only [openDocument, openPage] at failed
  cases compiled : (e.logReading (.ok document)).compile strict document.bindings with
  | mk result between =>
    simp only [compiled] at failed
    cases result with
    | error cause =>
      cases failed
      exact compile_error (congrArg Prod.fst compiled)
    | ok rules =>
      obtain ⟨-, -, page⟩ := compile_rules compiled
      have unused : between.page.widgets = [] := by rw [page, reads', bare]
      have fresh : ∀ c ∈ document.components,
          c.id ∉ Entries.keys ({ between with page.rules := rules } : Engine).page.widgets := by
        intro c _
        rw [show ({ between with page.rules := rules } : Engine).page.widgets = [] from unused]
        exact List.not_mem_nil
      obtain ⟨ready, declared⟩ := declareAll_ok reads.distinct fresh
      simp only [declared] at failed
      cases mounted : ready.mountAll (ready.page.widgets.map Prod.snd) with
      | mk result' last =>
        simp only [mounted] at failed
        cases result' with
        | error cause =>
          cases failed
          exact mountAll_error (congrArg Prod.fst mounted)
        | ok done => cases failed

/-- Whatever is done to the widgets of a page, each is wired once. The errors of putting a page
together do not occur with documents that have been read. -/
theorem mounting_wires_once :
    (∀ document start e, Opened document start → start.board.handles = [] →
      ReflTransGen Upkeep start e → WiredOnce document e) ∧
    ∀ document : Document, document.Reads → ∀ strict (board : Engine), board.page.widgets = [] →
      ∀ fault, (board.openDocument strict (.ok document)).1 = .error fault →
        ¬fault.IsAssembly := by
  refine ⟨fun document start e opened unheld upkeep => ?_,
    fun document reads strict board bare fault failed => openDocument_error reads bare failed⟩
  suffices e.Wired ∧ e.Attentive ∧ Upholds start e by
    obtain ⟨wired, attentive, upholds⟩ := this
    refine wired.wiredOnce attentive ?_ (upholds.declared.trans opened.fresh.declared)
    rw [upholds.registry]
    exact opened.registry_distinct
  induction upkeep with
  | refl => exact ⟨opened.fresh.wired, opened.attentive unheld, .of_board rfl⟩
  | @tail between after _ step ih =>
    obtain ⟨wired, attentive, upholds⟩ := ih
    have next := step.upholds wired
    refine ⟨next.wired wired, ?_, upholds.trans next⟩
    exact attentive.of_moves step.boardMoves

/-- A page that has been closed, with one widget mounted again; and a document that is read but
cannot be opened. -/
theorem mounting_wires_once_sales :
    Opened salesDocument sales ∧ sales.board.handles = [] ∧
    (sales.closePage.mount 1).2.board.widgets.map Widget.mounted = [false, true, false] ∧
    WiredOnce salesDocument (sales.closePage.mount 1).2 ∧
    vacant.page.widgets = [] ∧
    ∃ document fault, document.Reads ∧
      (vacant.openDocument true (.ok document)).1 = .error fault ∧ ¬fault.IsAssembly := by
  obtain ⟨wired, assembled⟩ := mounting_wires_once
  have unheld : sales.board.handles = [] := List.isEmpty_iff.mp (by decide +kernel)
  have upkeep : ReflTransGen Upkeep sales (sales.closePage.mount 1).2 :=
    (ReflTransGen.single (.close sales)).tail (.mount 1 _)
  refine ⟨sales_opened, unheld, by decide +kernel, wired _ _ _ sales_opened unheld upkeep, rfl, ?_⟩
  obtain ⟨kind, failed⟩ := optionsOpened_fails
  rw [optionsOpened] at failed
  cases read : Document.ofText .standard false optionsText with
  | error cause =>
    rw [read] at failed
    cases failed
  | ok document =>
    rw [read] at failed
    have reads : document.Reads := .text _ _ _ read
    exact ⟨document, _, reads, failed, assembled document reads true vacant rfl _ failed⟩

end Engine
end Patchbay
