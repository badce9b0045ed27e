import Patchbay.Proofs.Page.Calm
import Patchbay.Proofs.Page.Charts
import Patchbay.Proofs.Page.Deeds
import Patchbay.Proofs.Page.Usage

/-!
# Triggers that do not get into each other's way

What a dispatch reads are the entries of its targets and those that its arguments refer to; what it
writes are the entries of its targets. Two dispatches neither of which writes what the other one
reads or writes can change places: `Engine.fires_commute`.
-/

namespace Patchbay

open Relation (ReflTransGen)

/-- The ids that the arguments of an action refer to. -/
def Action.reads (action : Action) : List String :=
  action.args.flatMap fun arg => arg.2.referencedIds

namespace Deed

/-- The entry that is written. -/
def entry? : Deed → Option String
  | .takes w _ => some w.id
  | .unresolved | .unserved | .refreshes _ _ => none

/-- A deed concerns a target if it writes no other entry and refreshes no other chart. -/
def Concerns (target : String) (deed : Deed) : Prop :=
  (∀ id, deed.entry? = some id → id = target) ∧ ∀ loop id, deed.chart? loop = some id → id = target

/-- An action that is carried out for no widget concerns whatever target it has. -/
theorem concerns_of_none {deed : Deed} {target : String} (entry : deed.entry? = none)
    (chart : ∀ loop, deed.chart? loop = none) : deed.Concerns target := by
  constructor
  · intro id written
    rw [entry] at written
    cases written
  · intro loop id refreshed
    rw [chart] at refreshed
    cases refreshed

theorem of_concerns (widgets : List Widget) (action : Action)
    (args : Except Fault (Entries String Value)) :
    (of widgets action args).Concerns action.target := by
  cases args with
  | error fault => exact concerns_of_none rfl fun _ => rfl
  | ok args =>
    simp only [of]
    cases found : widgets.find? fun w => w.serves action with
    | none => exact concerns_of_none rfl fun _ => rfl
    | some w =>
      have serves : w.serves action = true := by simpa using List.find?_some found
      have own := ((Widget.serves_iff 0).mp serves).1
      by_cases chart : w.type = .chart
      · simp only [chart, ↓reduceIte]
        constructor
        · intro id written
          cases written
        · intro loop id refreshed
          cases loop with
          | false => cases refreshed
          | true => exact (Option.some.inj refreshed).symm.trans own
      · simp only [chart, ↓reduceIte]
        constructor
        · exact fun id written => (Option.some.inj written).symm.trans own
        · intro loop id refreshed
          cases refreshed

/-! ## What deeds write -/

/-- What an entry is after a deed depends on no other entry. -/
theorem write_congr (deed : Deed) {values values' : Entries String Value} {id : String}
    (same : Entries.get? id values = Entries.get? id values') :
    Entries.get? id (deed.write values) = Entries.get? id (deed.write values') := by
  cases deed with
  | unresolved | unserved | refreshes => exact same
  | takes w value =>
    by_cases own : id = w.id
    · subst own
      simp only [write, Entries.get?_put_self, same]
    · simp only [write, Entries.get?_put_of_ne own, same]

theorem write_other {deed : Deed} {id : String} (other : deed.entry? ≠ some id)
    (values : Entries String Value) :
    Entries.get? id (deed.write values) = Entries.get? id values := by
  cases deed with
  | unresolved | unserved | refreshes => rfl
  | takes w value =>
    have ne : id ≠ w.id := fun same => other (congrArg some same.symm)
    exact Entries.get?_put_of_ne ne _ _

theorem writeAll_congr (deeds : List Deed) {values values' : Entries String Value} {id : String}
    (same : Entries.get? id values = Entries.get? id values') :
    Entries.get? id (writeAll values deeds) = Entries.get? id (writeAll values' deeds) := by
  induction deeds generalizing values values' with
  | nil => exact same
  | cons deed rest ih => exact ih (deed.write_congr same)

theorem writeAll_other {deeds : List Deed} {id : String}
    (other : ∀ deed ∈ deeds, deed.entry? ≠ some id) (values : Entries String Value) :
    Entries.get? id (writeAll values deeds) = Entries.get? id values := by
  induction deeds generalizing values with
  | nil => rfl
  | cons deed rest ih =>
    rw [List.forall_mem_cons] at other
    exact (ih other.2 (deed.write values)).trans (write_other other.1 values)

/-! ## Courses -/

section

variable (widgets : List Widget) (context : Value)

/-- Each deed of a course concerns the target of an action. -/
theorem course_concerns (values : Entries String Value) (actions : List Action) :
    ∀ step ∈ course widgets context values actions,
      ∃ action ∈ actions, step.2.Concerns action.target := by
  induction actions generalizing values with
  | nil => exact List.forall_mem_nil _
  | cons action rest ih =>
    simp only [course, List.forall_mem_cons]
    refine ⟨⟨action, List.mem_cons_self, of_concerns _ _ _⟩, fun step member => ?_⟩
    obtain ⟨other, inside, concerns⟩ := ih _ step member
    exact ⟨other, List.mem_cons_of_mem _ inside, concerns⟩

/-- The course that actions take depends on no entries but those that they refer to and those of
their targets. -/
theorem course_congr {actions : List Action} {values values' : Entries String Value}
    (same : ∀ action ∈ actions, ∀ id, id = action.target ∨ id ∈ action.reads →
      Entries.get? id values = Entries.get? id values') :
    course widgets context values actions = course widgets context values' actions := by
  induction actions generalizing values values' with
  | nil => rfl
  | cons action rest ih =>
    have resolved : Scope.resolveAll ⟨context, values⟩ action.args =
        Scope.resolveAll ⟨context, values'⟩ action.args :=
      Scope.resolveAll_congr fun arg member id referenced property => Scope.find_congr <|
        same action List.mem_cons_self id (.inr (List.mem_flatMap.mpr ⟨arg, member, referenced⟩))
    simp only [course, resolved]
    rw [ih fun other inside id read =>
      write_congr _ (same other (List.mem_cons_of_mem _ inside) id read)]

end

/-! ## Counting -/

/-- Only the charts that are refreshed have to be asked whether they are busy. -/
theorem addsAll_congr {loop serialize : Bool} {deeds : List Deed} {busy busy' : String → Bool}
    (same : ∀ deed ∈ deeds, ∀ id, deed.chart? loop = some id → busy id = busy' id) (o : Outcome) :
    addsAll loop serialize o busy deeds = addsAll loop serialize o busy' deeds := by
  induction deeds generalizing busy busy' with
  | nil => rfl
  | cons deed rest ih =>
    rw [List.forall_mem_cons] at same
    have own : (deed.chart? loop).any busy = (deed.chart? loop).any busy' := by
      cases chart : deed.chart? loop with
      | none => rfl
      | some id => exact same.1 id chart
    simp only [addsAll, adds, own]
    rw [ih fun other member id chart => by rw [same.2 other member id chart]]

end Deed

namespace Engine

/-! ## One dispatch -/

/-- What happens on a page, and what is written to its store from outside: whole values, or
properties of them. -/
inductive Lives : Engine → Engine → Prop
  | interacts {e after : Engine} (move : Interacts e after) : Lives e after
  | writes (id : String) (value : Value) (e : Engine) : Lives e (e.write id value)

/-- A page that has been opened: its widgets show what is stored, and where targets are occupied,
what is in flight is as it should be. -/
structure Attended (document : Document) (e : Engine) : Prop where
  standing : Standing document e
  displayed : e.Displayed
  tended : e.Tended

theorem Attended.move {document : Document} {e after : Engine} (attended : Attended document e)
    (move : Interacts e after) : Attended document after := by
  have orderly := attended.standing.orderly
  exact ⟨attended.standing.move move, attended.displayed.move orderly move.page,
    attended.tended.move orderly.wired move.page⟩

theorem Attended.writes {document : Document} {e : Engine} (attended : Attended document e)
    (id : String) (value : Value) : Attended document (e.write id value) := by
  obtain ⟨⟨⟨wired, chores⟩, rules, declared⟩, displayed, tended⟩ := attended
  have wrote : Wrote id value e (e.write id value) := write_wrote Program.run wired.viewed id value
  have board := wrote.keeps.board
  have same : (e.write id value).declared = e.declared := wrote.keeps.declared
  constructor
  · have rules' : (e.write id value).page.rules = e.page.rules := by rw [wrote.keeps.page]
    exact ⟨⟨wired.of_same same (by rw [board]) (wired.viewed.of_same wrote.observers),
      chores.of_tasks (by rw [board]) same⟩, rules'.trans rules, same.trans declared⟩
  · exact displayed.redrawn wrote.redrawn wrote.values same
  · intro on
    rw [board] at on
    exact (tended on).of_same (by rw [board]) (by rw [board])

theorem Opened.attended {document : Document} {start e : Engine} (opened : Opened document start)
    (moves : ReflTransGen Lives start e) : Attended document e := by
  induction moves with
  | refl => exact ⟨opened.standing, opened.fresh.displayed, fun on => (opened.live on).serial⟩
  | tail _ move ih =>
    cases move with
    | interacts move => exact ih.move move
    | writes id value => exact ih.writes id value

/-- The entries that actions write are those of their targets. -/
theorem courseOf_other (e : Engine) (context : Value) {actions : List Action} {id : String}
    (other : ∀ action ∈ actions, action.target ≠ id) :
    ∀ deed ∈ (e.courseOf context actions).map Prod.snd, deed.entry? ≠ some id := by
  intro deed member written
  obtain ⟨step, inside, rfl⟩ := List.mem_map.mp member
  obtain ⟨action, own, concerns⟩ := Deed.course_concerns _ _ _ _ step inside
  exact other action own (concerns.1 id written).symm

/-- The charts that actions refresh are their targets. -/
theorem courseOf_chart {e : Engine} {context : Value} {actions : List Action} {deed : Deed}
    (member : deed ∈ (e.courseOf context actions).map Prod.snd) {loop : Bool} {id : String}
    (refreshed : deed.chart? loop = some id) : ∃ action ∈ actions, action.target = id := by
  obtain ⟨step, inside, rfl⟩ := List.mem_map.mp member
  obtain ⟨action, own, concerns⟩ := Deed.course_concerns _ _ _ _ step inside
  exact ⟨action, own, (concerns.2 loop id refreshed).symm⟩

/-- A dispatch changes no entries but those of its targets. -/
theorem Followed.other {context : Value} {actions : List Action} {e after : Engine}
    (followed : Followed context actions e after) {id : String}
    (other : ∀ action ∈ actions, action.target ≠ id) :
    Entries.get? id after.board.store.values = Entries.get? id e.board.store.values := by
  rw [followed.values]
  exact Deed.writeAll_other (courseOf_other e context other) _

/-! ## Two dispatches -/

/-- The second of two dispatches has the same actions as if it were the first one. -/
theorem dispatch_follows_dispatch {e : Engine} (wired : e.Wired) (tended : e.Tended)
    (trigger other : String) (context context' : Value) :
    Followed context' (e.actionsOn other) (e.dispatch trigger context)
      ((e.dispatch trigger context).dispatch other context') := by
  have effects := dispatch_effects trigger context e
  have followed := dispatch_follows (wired.of_effects effects) (tended.of_effects effects) other
    context'
  rwa [effects.steady.actionsOn] at followed

/-- No target of one trigger is a target of the other, or an id that its arguments refer to. -/
def Apart (e : Engine) (trigger other : String) : Prop :=
  ∀ a ∈ e.actionsOn trigger, ∀ b ∈ e.actionsOn other,
    a.target ≠ b.target ∧ a.target ∉ b.reads ∧ b.target ∉ a.reads

instance (e : Engine) (trigger other : String) : Decidable (e.Apart trigger other) :=
  inferInstanceAs (Decidable (∀ a ∈ e.actionsOn trigger, ∀ b ∈ e.actionsOn other,
    a.target ≠ b.target ∧ a.target ∉ b.reads ∧ b.target ∉ a.reads))

theorem Apart.symm {e : Engine} {trigger other : String} (apart : e.Apart trigger other) :
    e.Apart other trigger := by
  intro b inside a member
  obtain ⟨targets, unread, unread'⟩ := apart a member b inside
  exact ⟨targets.symm, unread', unread⟩

section

variable {e : Engine} (wired : e.Wired) (tended : e.Tended) {trigger other : String}
  (apart : e.Apart trigger other) (context context' : Value)
include wired tended apart

/-- A dispatch leaves the course of another one alone that it keeps apart from. -/
theorem Apart.courseOf : (e.dispatch trigger context).courseOf context' (e.actionsOn other) =
    e.courseOf context' (e.actionsOn other) := by
  have followed := dispatch_follows wired tended trigger context
  have declared : (e.dispatch trigger context).declared = e.declared :=
    (dispatch_effects trigger context e).steady.declared
  rw [Engine.courseOf, Engine.courseOf, declared]
  refine Deed.course_congr _ _ fun b inside id read => followed.other fun a member same => ?_
  obtain ⟨targets, unread, -⟩ := apart a member b inside
  rcases read with rfl | read
  · exact targets same
  · exact unread (same ▸ read)

theorem Apart.handed : (e.dispatch trigger context).handed other context' =
    e.handed other context' := by
  have effects := dispatch_effects trigger context e
  rw [handed_eq wired, handed_eq (wired.of_effects effects), effects.steady.actionsOn,
    apart.courseOf wired tended]

/-- What is stored after both dispatches, by the courses that each of them takes on its own. -/
theorem Apart.values : ((e.dispatch trigger context).dispatch other context').board.store.values =
    Deed.writeAll (Deed.writeAll e.board.store.values
      ((e.courseOf context (e.actionsOn trigger)).map Prod.snd))
      ((e.courseOf context' (e.actionsOn other)).map Prod.snd) := by
  have first := dispatch_follows wired tended trigger context
  have second := dispatch_follows_dispatch wired tended trigger other context context'
  rw [second.values, apart.courseOf wired tended, first.values]

/-- How actions have ended after both dispatches: a chart that the second one refreshes is no
busier for the first one. -/
theorem Apart.count (o : Outcome) :
    ((e.dispatch trigger context).dispatch other context').shared.counters.count o =
      e.shared.counters.count o +
        Deed.addsAll e.shared.loop e.board.serialize o e.busy
          ((e.courseOf context (e.actionsOn trigger)).map Prod.snd) +
        Deed.addsAll e.shared.loop e.board.serialize o e.busy
          ((e.courseOf context' (e.actionsOn other)).map Prod.snd) := by
  have steady := (dispatch_effects trigger context e).steady
  have first := dispatch_follows wired tended trigger context
  have second := dispatch_follows_dispatch wired tended trigger other context context'
  rw [second.counts, first.counts, apart.courseOf wired tended, steady.loop, steady.serialize]
  congr 1
  refine Deed.addsAll_congr (fun deed member id refreshed => ?_) o
  rw [first.busy, Bool.or_eq_left_iff_imp]
  intro occupied
  simp only [Bool.and_eq_true, List.any_eq_true, Option.any_eq_true, beq_iff_eq] at occupied
  obtain ⟨-, deed', member', id', refreshed', rfl⟩ := occupied
  -- both charts are targets, one of each trigger
  obtain ⟨a, own, same⟩ := courseOf_chart member' refreshed'
  obtain ⟨b, own', same'⟩ := courseOf_chart member refreshed
  exact absurd (same.trans same'.symm) (apart a own b own').1

/-- The order of two dispatches does not matter for what is stored. -/
theorem Apart.stored (id : String) :
    Entries.get? id ((e.dispatch trigger context).dispatch other context').board.store.values =
      Entries.get? id
        ((e.dispatch other context').dispatch trigger context).board.store.values := by
  rw [apart.values wired tended, apart.symm.values wired tended]
  -- an entry that the second one writes is left alone by the first
  by_cases written : ∃ a ∈ e.actionsOn trigger, a.target = id
  · obtain ⟨a, member, rfl⟩ := written
    have untouched (values : Entries String Value) := Deed.writeAll_other
      (courseOf_other e context' fun b inside same =>
        (apart a member b inside).1 same.symm) values
    rw [untouched]
    exact Deed.writeAll_congr _ (untouched _).symm
  · have untouched (values : Entries String Value) := Deed.writeAll_other
      (courseOf_other e context fun a member same => written ⟨a, member, same⟩) values
    rw [untouched]
    exact Deed.writeAll_congr _ (untouched _)

end

/-- Two engines agree on what is stored, the order of the entries aside, on what widgets show and
on how many actions have come to which end. -/
structure Agrees (e other : Engine) : Prop where
  stored : ∀ id, Entries.get? id e.board.store.values = Entries.get? id other.board.store.values
  shown : ∀ ref, e.showing ref = other.showing ref
  counted : ∀ o, e.shared.counters.count o = other.shared.counters.count o

/-- A dispatch does not change what charts show. -/
theorem Attended.showing {document : Document} {e : Engine} (attended : Attended document e)
    (trigger : String) (context : Value) {ref : Nat} {w : Widget}
    (found : e.declared[ref]? = some w) (chart : w.type = .chart) :
    (e.dispatch trigger context).showing ref = e.showing ref := by
  have wired := attended.standing.orderly.wired
  have does : ReflTransGen (Does fun _ => True) e (e.dispatch trigger context) :=
    dispatch_does wired trigger context fun _ _ _ _ _ => trivial
  exact does_showing does attended.displayed wired.distinct found chart

/-- Pages that are dispatched on from the same page show the same where the same is stored. -/
theorem Attended.shown {document : Document} {e : Engine} (attended : Attended document e)
    {trigger other : String} {context context' : Value}
    (stored : ∀ id, Entries.get? id
        ((e.dispatch trigger context).dispatch other context').board.store.values =
      Entries.get? id ((e.dispatch other context').dispatch trigger context).board.store.values)
    (ref : Nat) : ((e.dispatch trigger context).dispatch other context').showing ref =
      ((e.dispatch other context').dispatch trigger context).showing ref := by
  have between (trigger : String) (context : Value) := attended.move (.fire trigger context e)
  have last (trigger : String) (context : Value) (other : String) (context' : Value) :=
    (between trigger context).move (.fire other context' _)
  have declared {after : Engine} (there : Attended document after) :
      after.declared = e.declared :=
    there.standing.declared.trans attended.standing.declared.symm
  cases known : e.declared[ref]? with
  | none =>
    have absent {after : Engine} (there : Attended document after) : after.showing ref = none := by
      rw [← declared there, declared_getElem?, Option.map_eq_none_iff] at known
      rw [Engine.showing, known, Option.map_none]
    rw [absent (last _ _ _ _), absent (last _ _ _ _)]
  | some w =>
    have found {after : Engine} (there : Attended document after) :
        after.declared[ref]? = some w := by rw [declared there, known]
    by_cases chart : w.type = .chart
    · -- what a chart shows has not changed at all
      have same (trigger : String) (context : Value) (other : String) (context' : Value) :
          ((e.dispatch trigger context).dispatch other context').showing ref = e.showing ref :=
        ((between trigger context).showing other context' (found (between _ _)) chart).trans
          (attended.showing trigger context known chart)
      rw [same, same]
    · -- any other widget can be drawn of whatever is stored
      have labelled := attended.standing.orderly.wired.labelled w (List.mem_of_getElem? known)
      obtain ⟨view, drawn⟩ := labelled.shows chart
        (((e.dispatch trigger context).dispatch other context').board.store.get w.id)
      have first := (last trigger context other context').displayed ref w (found (last _ _ _ _))
      have second := (last other context' trigger context).displayed ref w (found (last _ _ _ _))
      rw [first.shows view drawn]
      rw [Store.get, stored] at drawn
      rw [second.shows view drawn]

/-- On a page that has been used in whatever way, a dispatch changes no entries but those of its
targets, and two dispatches that keep apart can change places: their handlers are given the same
arguments, and they leave the same behind. -/
theorem fires_commute {document : Document} {start e : Engine} (opened : Opened document start)
    (moves : ReflTransGen Lives start e) :
    (∀ trigger context id, (∀ action ∈ e.actionsOn trigger, action.target ≠ id) →
      Entries.get? id (e.dispatch trigger context).board.store.values =
        Entries.get? id e.board.store.values) ∧
    ∀ trigger other, e.Apart trigger other → ∀ context context',
      (e.dispatch trigger context).handed other context' = e.handed other context' ∧
      (e.dispatch other context').handed trigger context = e.handed trigger context ∧
      Agrees ((e.dispatch trigger context).dispatch other context')
        ((e.dispatch other context').dispatch trigger context) := by
  have attended := opened.attended moves
  have wired := attended.standing.orderly.wired
  have tended := attended.tended
  refine ⟨fun trigger context id untouched =>
    (dispatch_follows wired tended trigger context).other untouched, ?_⟩
  intro trigger other apart context context'
  have stored := apart.stored wired tended context context'
  refine ⟨apart.handed wired tended context context',
    apart.symm.handed wired tended context' context, stored, attended.shown stored, fun o => ?_⟩
  rw [apart.count wired tended, apart.symm.count wired tended]
  omega

/-- A page with a dropdown and its title, and a calendar that has a chart refreshed. -/
def visitsDocument : Document where
  components := [
    ⟨"region", .dropdown, [("options", .list [
      .record [("label", .text "North"), ("value", .text "n")]])]⟩,
    ⟨"title", .textbox, []⟩, ⟨"day", .calendar, []⟩, ⟨"visits", .chart, []⟩]
  bindings := [
    ⟨"region", "title", .direct, none, some "selected_text", some "text"⟩,
    ⟨"day", "visits", .direct, none, none, none⟩]

/-- The page of that document, on which a title has been written from outside and a refresh is
still waiting. -/
def visits : Engine :=
  dispatch "day.onChange" .null (((vacant.openDocument false (.ok visitsDocument)).2).write "title"
    (.text "Visits"))

/-- A choice and another date can be told in either order, with one refresh superseded. -/
theorem fires_commute_visits :
    Opened visitsDocument (vacant.openDocument false (.ok visitsDocument)).2 ∧
    ReflTransGen Lives (vacant.openDocument false (.ok visitsDocument)).2 visits ∧
    visits.Apart "region.onChange" "day.onChange" ∧
    Agrees ((visits.dispatch "region.onChange" .null).dispatch "day.onChange" .null)
      ((visits.dispatch "day.onChange" .null).dispatch "region.onChange" .null) ∧
    ((visits.dispatch "region.onChange" .null).dispatch "day.onChange"
      .null).shared.counters.count .superseded = 1 := by
  have opened : Opened visitsDocument (vacant.openDocument false (.ok visitsDocument)).2 :=
    ⟨false, vacant, vacant_blank, Prod.ext (eq_ok_of_isOk (by decide +kernel)) rfl⟩
  have moves : ReflTransGen Lives (vacant.openDocument false (.ok visitsDocument)).2 visits :=
    .tail (.single (.writes "title" (.text "Visits") _)) (.interacts (.fire "day.onChange" .null _))
  have apart : visits.Apart "region.onChange" "day.onChange" := by decide +kernel
  obtain ⟨-, commute⟩ := fires_commute opened moves
  exact ⟨opened, moves, apart, (commute _ _ apart .null .null).2.2, by decide +kernel⟩

end Engine
end Patchbay
