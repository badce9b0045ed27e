import Patchbay.Proofs.Page.Usage

/-!
# What a page stores

Whatever happens on a page that has been opened, each entry of its store is that of a declared
widget and has the form of its sort: a bag with fixed keys, a date, or three points
(`Engine.store_represents`). A widget writes its own entry only, and gives it that form from any
entry of the form and from none; and as entries are only ever put, none is lost.
-/

namespace Patchbay

open Relation (ReflTransGen)

/-- The form of the entry of a widget. What a calendar may hold that is no text is given. -/
def Widget.Shaped (w : Widget) (picked : Value → Prop) (entry : Value) : Prop :=
  match w.type with
  | .button => False
  | .dropdown => ∃ value, entry = .record
      [("value", value), ("selected_value", value), ("selected_text", w.labelOf value)]
  | .textbox => ∃ value, entry = .record [("value", value), ("text", value)]
  | .calendar => picked entry ∨ ∃ s, entry = .text s
  | .chart => ∃ a b c, entry = .list [dataPoint "A" a, dataPoint "B" b, dataPoint "C" c]

theorem Widget.Shaped.mono {w : Widget} {picked later : Value → Prop} {entry : Value}
    (shaped : w.Shaped picked entry) (more : ∀ v, picked v → later v) :
    w.Shaped later entry := by
  unfold Shaped at shaped ⊢
  cases sort : w.type with
  | calendar =>
    simp only [sort] at shaped
    exact shaped.imp_left (more entry)
  | button | dropdown | textbox | chart =>
    rw [sort] at shaped
    exact shaped

/-- A widget gives its entry the same form whether it had one before or not. -/
theorem Widget.shaped_taking {w : Widget} {picked : Value → Prop}
    (takes : w.type ≠ .button ∧ w.type ≠ .chart) {value old : Value}
    (source : w.type = .calendar → picked value ∨ ∃ s, value = .text s)
    (before : old = .null ∨ w.Shaped picked old) : w.Shaped picked (w.taking value old) := by
  unfold Shaped at before ⊢
  unfold taking
  cases sort : w.type with
  | button => exact absurd sort takes.1
  | chart => exact absurd sort takes.2
  | calendar => exact source sort
  | textbox =>
    simp only [sort] at before
    refine ⟨value, ?_⟩
    rcases before with rfl | ⟨earlier, rfl⟩
    · simp [Value.withProperty, Value.record, Entries.put, Key.beq_text_iff]
    · simp [Value.withProperty, Value.record, Entries.put, Key.beq_text_iff]
  | dropdown =>
    simp only [sort] at before
    refine ⟨value, ?_⟩
    rcases before with rfl | ⟨earlier, rfl⟩
    · simp [Value.withProperty, Value.record, Entries.put, Key.beq_text_iff]
    · simp [Value.withProperty, Value.record, Entries.put, Key.beq_text_iff]

namespace Engine

/-! ## Every entry has the form of its widget -/

/-- Each entry is that of a declared widget, in its form. -/
def Represents (picked : String → Value → Prop) (e : Engine) : Prop :=
  ∀ id v, (id, v) ∈ e.board.store.values →
    ∃ w ∈ e.declared, w.id = id ∧ w.Shaped (picked id) v

section

variable {picked : String → Value → Prop} {e after : Engine}

theorem Represents.of_same (represents : e.Represents picked)
    (values : after.board.store.values = e.board.store.values)
    (declared : after.declared = e.declared) : after.Represents picked := by
  intro id v member
  rw [values] at member
  rw [declared]
  exact represents id v member

theorem Represents.of_put (represents : e.Represents picked) {place : Nat} {w : Widget} {v : Value}
    (found : e.declared[place]? = some w) (shaped : w.Shaped (picked w.id) v)
    (values : after.board.store.values = Entries.put w.id v e.board.store.values)
    (declared : after.declared = e.declared) : after.Represents picked := by
  intro id v' member
  rw [values] at member
  rw [declared]
  rcases Entries.eq_or_mem_of_mem_put member with new | old
  · cases new
    exact ⟨w, List.mem_of_getElem? found, rfl, shaped⟩
  · exact represents id v' old

/-- What is stored for a widget, if anything, has the form of that widget. -/
theorem Represents.stored (represents : e.Represents picked)
    (distinct : (e.declared.map Widget.id).Nodup) {place : Nat} {w : Widget}
    (found : e.declared[place]? = some w) :
    e.board.store.get w.id = .null ∨ w.Shaped (picked w.id) (e.board.store.get w.id) := by
  unfold Store.get
  cases entry : Entries.get? w.id e.board.store.values with
  | none => exact .inl rfl
  | some v =>
    -- the entry is that of a widget with the same id, which can only be this one
    obtain ⟨w', member, same, shaped⟩ := represents _ _ (Entries.mem_of_get?_eq_some entry)
    obtain ⟨place', found'⟩ := List.mem_iff_getElem?.mp member
    obtain ⟨-, rfl⟩ := same_place distinct found' found same
    exact .inr shaped

theorem Represents.of_took (represents : e.Represents picked)
    (distinct : (e.declared.map Widget.id).Nodup) {place : Nat} {w : Widget} {value : Value}
    (found : e.declared[place]? = some w) (takes : w.type ≠ .button ∧ w.type ≠ .chart)
    (source : w.type = .calendar → picked w.id value ∨ ∃ s, value = .text s)
    (took : Took w value e after) : after.Represents picked :=
  represents.of_put found (w.shaped_taking takes source (represents.stored distinct found))
    took.values took.declared

theorem Represents.mono (represents : e.Represents picked) {later : String → Value → Prop}
    (more : ∀ id v, picked id v → later id v) : e.Represents later := by
  intro id v member
  obtain ⟨w, declared, same, shaped⟩ := represents id v member
  exact ⟨w, declared, same, shaped.mono (more id)⟩

/-- Rules pass on texts, which every widget turns into its own form. -/
theorem Represents.after_does (represents : e.Represents picked)
    (distinct : (e.declared.map Widget.id).Nodup)
    (does : ReflTransGen (Does fun v => ∃ s, v = .text s) e after) :
    after.Represents picked := by
  refine (does_invariant does represents ?_).2
  intro between last declared does represents
  -- no widget is added or renamed on the way
  rw [← declared] at distinct
  cases does with
  | note same => exact represents.of_same (by rw [same]) (declared_of_board same)
  | take found takes text took =>
    exact represents.of_took distinct found takes (fun _ => .inr text) took
  | start => exact represents.of_same (by rw [schedule_store]) (schedule_steady _ _ _ _).declared

/-- A widget writes its own entry, and the rules that follow write texts only. -/
theorem Represents.after_gesture (represents : e.Represents picked) (wired : e.Wired)
    (texts : ∀ rule ∈ e.page.rules, ∀ action ∈ rule.actions, ∀ context,
      Gives (fun v => ∃ s, v = .text s) context action)
    {ref : Nat} {w : Widget} (found : e.board.widgets[ref]? = some w) {g : Gesture}
    (picks : ∀ value, w.type = .calendar → g = .pick value → picked w.id value)
    (performed : Performed e w g after) : after.Represents picked := by
  have declared : e.declared[ref]? = some w.declared := by
    rw [declared_getElem?, found, Option.map_some]
  cases performed with
  | refused => exact represents
  | clicked => exact represents.after_does wired.distinct (fire_does wired w _ _ texts)
  | @entered wrote value sort input took wired' page =>
    have source : w.type = .calendar → picked w.id value ∨ ∃ s, value = .text s := by
      intro calendar
      rw [calendar] at sort
      -- only dates are entered into calendars
      cases g with
      | pick date =>
        cases input
        exact .inl (picks value calendar rfl)
      | select | typeText | click => cases sort
    have entry := represents.of_took wired.distinct declared (Gesture.takes_of_input sort input)
      source took
    rw [← page] at texts
    exact entry.after_does wired'.distinct (fire_does wired' w _ _ texts)

/-- With a move, calendars may have another date picked on them. -/
theorem Represents.move {document : Document} (standing : Standing document e)
    (represents : e.Represents picked) (move : Interacts e after)
    {later : String → Value → Prop} (more : ∀ id v, picked id v → later id v)
    (picks : ∀ (ref : Nat) (w : Widget) (value : Value), e.board.widgets[ref]? = some w →
      w.type = .calendar → after = (e.performOn w (.pick value)).2 → later w.id value) :
    after.Represents later := by
  have wired := standing.orderly.wired
  have before := represents.mono more
  have texts (rule : Rule) (known : rule ∈ e.page.rules) (action : Action)
      (set_off : action ∈ rule.actions) (context : Value) :
      Gives (fun v => ∃ s, v = .text s) context action :=
    gives_text_of_rules standing.rules known set_off context
  cases move with
  | @gesture _ ref w found g =>
    refine before.after_gesture wired texts found (fun value calendar pick => ?_)
      (performOn_performed wired found g)
    exact picks ref w value found calendar (by rw [pick])
  | fire trigger context =>
    refine before.after_does wired.distinct (dispatch_does wired trigger context ?_)
    intro action member
    obtain ⟨rule, matched, inside⟩ := List.mem_flatMap.mp member
    exact texts rule (List.mem_of_mem_filter matched) action inside context
  | step ref =>
    have declared : (e.stepTask ref).declared = e.declared := (stepTask_steady e ref).declared
    rcases (stepTask_stepped wired standing.orderly.chores ref).values with
      same | ⟨place, w, known, chart, values⟩
    · exact before.of_same same declared
    · refine before.of_put known ?_ values declared
      -- a refresh gives its chart three new points
      simp only [Widget.Shaped, chart]
      exact ⟨_, _, _, rfl⟩
  | settle found done =>
    exact before.of_same (settleTask_values found) (standing.orderly.after_note found).2

end

/-! ## No entry is lost -/

theorem Does.keys {good : Value → Prop} {e after : Engine} (does : Does good e after) :
    Entries.keys e.board.store.values ⊆ Entries.keys after.board.store.values := by
  cases does with
  | note same => simp [same]
  | take _ _ _ took => simp [took.values, Entries.keys_subset_put]
  | start => simp [schedule_store]

theorem Interacts.keys {e after : Engine} (move : Interacts e after) (orderly : e.Orderly) :
    Entries.keys e.board.store.values ⊆ Entries.keys after.board.store.values := by
  cases move.page.kinds orderly.wired with
  | ran start same effects does =>
    rw [← same]
    clear effects move
    induction does with
    | refl => exact List.Subset.refl _
    | tail _ does ih => exact List.Subset.trans ih does.keys
  | stepped ref is =>
    subst is
    rcases (stepTask_stepped orderly.wired orderly.chores ref).values with same | ⟨_, _, _, _, put⟩
    · simp [same]
    · simp [put, Entries.keys_subset_put]
  | noted ref task found is =>
    subst is
    simp [settleTask_values found]

/-! ## The store of a page -/

/-- A value has been picked on the calendar with an id, in a run from `start` to `e`. -/
def PickedOn (start e : Engine) (id : String) (value : Value) : Prop :=
  ∃ (before : Engine) (ref : Nat) (w : Widget), ReflTransGen Interacts start before ∧
    before.board.widgets[ref]? = some w ∧ w.id = id ∧ w.type = .calendar ∧
    ReflTransGen Interacts (before.performOn w (.pick value)).2 e

/-- Whatever happens on a page, and in whichever order, each entry of its store is that of a
declared widget and has the form of its sort, and no entry is lost. -/
theorem store_represents {document : Document} {start e : Engine}
    (opened : Opened document start) (moves : ReflTransGen Interacts start e) :
    (∀ id v, (id, v) ∈ e.board.store.values → ∃ c ∈ document.components, c.id = id ∧
      c.widget.Shaped (PickedOn start e id) v) ∧
    ∀ after, ReflTransGen Interacts e after →
      Entries.keys e.board.store.values ⊆ Entries.keys after.board.store.values := by
  have reached : Standing document e ∧ e.Represents (PickedOn start e) := by
    induction moves with
    | refl =>
      refine ⟨opened.standing, fun id v member => ?_⟩
      simp [opened.fresh.values] at member
    | @tail between after earlier move ih =>
      obtain ⟨standing, represents⟩ := ih
      refine ⟨standing.move move, represents.move standing move ?_ ?_⟩
      · -- what was picked before is still picked
        rintro id v ⟨before, ref, w, run, found, same, calendar, rest⟩
        exact ⟨before, ref, w, run, found, same, calendar, rest.tail move⟩
      · intro ref w value found calendar is
        exact ⟨between, ref, w, earlier, found, rfl, calendar, is ▸ .refl⟩
  obtain ⟨standing, represents⟩ := reached
  refine ⟨fun id v member => ?_, fun after further => ?_⟩
  · obtain ⟨w, declared, same, shaped⟩ := represents id v member
    rw [standing.declared] at declared
    obtain ⟨c, inside, rfl⟩ := List.mem_map.mp declared
    exact ⟨c, inside, same, shaped⟩
  · have both : Standing document after ∧
        Entries.keys e.board.store.values ⊆ Entries.keys after.board.store.values := by
      induction further with
      | refl => exact ⟨standing, List.Subset.refl _⟩
      | tail _ move ih =>
        exact ⟨ih.1.move move, List.Subset.trans ih.2 (move.keys ih.1.orderly)⟩
    exact both.2

/-- A choice on the sales page fills the title, and the chart once its refresh has ended. -/
theorem store_represents_sales : Opened salesDocument sales ∧ ∃ e,
    ReflTransGen Interacts sales e ∧
    Entries.keys e.board.store.values = ["region", "title", "sales"] ∧
    (∀ id v, (id, v) ∈ e.board.store.values → ∃ c ∈ salesDocument.components, c.id = id ∧
      c.widget.Shaped (PickedOn sales e id) v) ∧
    ∀ after, ReflTransGen Interacts e after → "sales" ∈ Entries.keys after.board.store.values := by
  obtain ⟨w, found⟩ : ∃ w, sales.board.widgets[0]? = some w :=
    Option.isSome_iff_exists.mp (by decide +kernel)
  have chosen : Interacts sales (sales.performOn w (.select (.text "n"))).2 := .gesture found _
  have moves := ((ReflTransGen.single chosen).tail (.step 0 _)).tail (.step 0 _)
  have keys := eq_of_map found (b := ["region", "title", "sales"]) (f := fun w => Entries.keys
    (((sales.performOn w (.select (.text "n"))).2.stepTask 0).stepTask 0).board.store.values)
    (by decide +kernel)
  obtain ⟨forms, kept⟩ := store_represents sales_opened moves
  refine ⟨sales_opened, _, moves, keys, forms, fun after further => kept after further ?_⟩
  rw [keys]
  decide

end Engine
end Patchbay
