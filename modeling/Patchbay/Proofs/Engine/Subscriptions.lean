import Patchbay.Engine.Mounting
import Patchbay.Proofs.Engine.Strides
import Patchbay.Proofs.Store.History
import Patchbay.Proofs.Store.Watches

/-!
# Who is told of a write

A host lets observers watch entries of the store, ends watches by the functions that it was given
for them, and writes. As long as observers write nothing themselves, a write tells the watches that
last (`lasting`), one after another, each with the new value in the store already, and a failure
stops none of them. Those are the watches whose functions have not been called, as long as each call
ends its own watch (`Engine.subscriptions_end`); a call that ends the watch of another one is one of
an observer that watches an entry twice (`Engine.Subscribed.unalike`).
-/

namespace Patchbay

/-- An observer that writes nothing itself. It may fail, and it may end watches. -/
def Observer.Silent : Observer → Prop
  | .view _ => True
  | .custom _ react => ∀ id value, (react id value).Writes fun _ => False

/-- What a host does with the store. -/
inductive HostCall where
  | subscribe (w : Watch)
  | unsubscribe (handle : String)
  | write (w : Write)

/-- The watch that begins with a call. -/
def HostCall.made? : HostCall → Option Watch
  | .subscribe w => some w
  | _ => none

/-- The watches whose functions a run calls itself, in order. -/
def Program.asks (nested : Runner) : Program → Engine → List Watch
  | .done _, _ => []
  | .fail _, _ => []
  | .defer _ _, _ => []
  | .pause _, _ => []
  | .report what next, e => next.asks nested (e.report what)
  | .log level event fields next, e => next.asks nested (e.log level event fields)
  | .askVars next, e => (next e.shared.vars).asks nested e
  | .read id next, e => (next (e.board.store.get id)).asks nested e
  | .write id value next, e => next.asks nested (e.writeWith nested id value)
  | .writeProperty id name value next, e =>
    next.asks nested (e.writePropertyWith nested id name value)
  | .unsubscribe handle next, e =>
    match Entries.get? handle e.board.handles with
    | none => []
    | some s => ⟨handle, s⟩ :: next.asks nested (e.withStore (e.board.store.unsubscribe s))
  | .draw chart next, e =>
    let count := (e.board.widgets[chart]?.map Widget.drawn).getD 0
    (next (e.shared.random chart count)).asks nested
      (e.updateWidget chart fun w => { w with drawn := w.drawn + 1 })
  | .dispatch trigger context next, e =>
    next.asks nested (e.dispatchWith nested trigger context)

namespace Engine

/-- The watches whose functions an observer calls when it is told of a value. -/
def asksOf (id : String) (value : Value) (e : Engine) : Observer → List Watch
  | .view _ => []
  | .custom _ react => (react id value).asks (Program.runAt (nestingLimit - 1)) e

/-- The watches whose functions observers call when they are told of a value in turn. -/
def asksOfAll (id : String) (value : Value) (e : Engine) : List Observer → List Watch
  | [] => []
  | o :: rest =>
    e.asksOf id value o ++ asksOfAll id value (e.notifyWith Program.run id value o) rest

/-- The engine as those who are told of a write find it. -/
def stored (w : Write) (e : Engine) : Engine :=
  e.withStore (w.apply e.board.store)

end Engine

namespace HostCall

open Engine

def perform (e : Engine) : HostCall → Engine
  | .subscribe w => e.subscribe w.handle w.subscription
  | .unsubscribe handle => (e.unsubscribe handle).2
  | .write w => w.perform e

/-- What becomes of watches in a call. -/
def marks (e : Engine) : HostCall → List Mark
  | .subscribe w => [.made w]
  | .unsubscribe handle =>
    ((Program.unsubscribe handle (.done .null)).asks (Program.runAt (nestingLimit - 1)) e).map
      .asked
  | .write w =>
    ((e.stored w).asksOfAll w.id ((e.stored w).board.store.get w.id)
      ((e.stored w).board.store.observersOf w.id)).map .asked

end HostCall

namespace Engine

def afterCalls (e : Engine) (calls : List HostCall) : Engine :=
  calls.foldl HostCall.perform e

/-- What becomes of watches in calls, one after another. -/
def marks (e : Engine) : List HostCall → List Mark
  | [] => []
  | call :: rest => call.marks e ++ marks (call.perform e) rest

theorem afterCalls_concat (e : Engine) (calls : List HostCall) (call : HostCall) :
    e.afterCalls (calls ++ [call]) = call.perform (e.afterCalls calls) := by
  simp [afterCalls]

theorem marks_append (e : Engine) (first second : List HostCall) :
    e.marks (first ++ second) = e.marks first ++ (e.afterCalls first).marks second := by
  induction first generalizing e with
  | nil => rfl
  | cons call rest ih => simp [marks, afterCalls, ih (call.perform e)]

theorem marks_concat (e : Engine) (calls : List HostCall) (call : HostCall) :
    e.marks (calls ++ [call]) = e.marks calls ++ call.marks (e.afterCalls calls) := by
  simp [marks_append, marks]

theorem madeIn_marks (e : Engine) (calls : List HostCall) :
    madeIn (e.marks calls) = calls.filterMap HostCall.made? := by
  induction calls generalizing e with
  | nil => rfl
  | cons call rest ih =>
    rw [marks, madeIn_append, ih]
    cases call <;> simp [HostCall.marks, HostCall.made?, madeIn, List.filterMap_cons]

/-! ## What the store knows of the marks -/

/-- The store has some values, and it has come by its observers through certain marks. -/
structure Follows (values : Entries String Value) (marks : List Mark) (e : Engine) : Prop where
  values : e.board.store.values = values
  observers : ∀ id, e.board.store.observersOf id = observing (lasting marks) id
  handles : ∀ handle s, Entries.get? handle e.board.handles = some s ↔ ⟨handle, s⟩ ∈ madeIn marks
  silent : ∀ w ∈ madeIn marks, w.subscription.observer.Silent
  marked : Marked marks

namespace Follows

variable {values : Entries String Value} {marks : List Mark} {e : Engine}

theorem of_same {after : Engine} (follows : Follows values marks e)
    (store : after.board.store = e.board.store) (handles : after.board.handles = e.board.handles) :
    Follows values marks after where
  values := by rw [store, follows.values]
  observers := by rw [store]; exact follows.observers
  handles := by rw [handles]; exact follows.handles
  silent := follows.silent
  marked := follows.marked

theorem aside {after : Engine} (follows : Follows values marks e) (same : Aside e after) :
    Follows values marks after :=
  follows.of_same same.store same.handles

theorem leave (follows : Follows values marks e) {handle : String} {s : Subscription}
    (found : Entries.get? handle e.board.handles = some s) :
    Follows values (marks ++ [.asked ⟨handle, s⟩])
      (e.withStore (e.board.store.unsubscribe s)) where
  values := follows.values
  observers id := by
    rw [lasting_asked, observing_eraseP, ← follows.observers]
    exact Store.observersOf_unsubscribe e.board.store s id
  handles := by
    rw [madeIn_asked]
    exact follows.handles
  silent := by
    rw [madeIn_asked]
    exact follows.silent
  marked := .asked follows.marked ((follows.handles handle s).mp found)

theorem make (follows : Follows values marks e) {w : Watch}
    (new : w.handle ∉ (madeIn marks).map Watch.handle) (silent : w.subscription.observer.Silent) :
    Follows values (marks ++ [.made w]) (e.subscribe w.handle w.subscription) where
  values := follows.values
  observers id := by
    rw [lasting_made, observing_concat, ← follows.observers]
    exact Store.observersOf_subscribe e.board.store w.subscription id
  handles handle s := by
    rw [madeIn_made, List.mem_append, List.mem_singleton]
    change Entries.get? handle (Entries.put w.handle w.subscription e.board.handles) = some s ↔ _
    by_cases own : handle = w.handle
    · subst own
      have others : ⟨w.handle, s⟩ ∉ madeIn marks := fun member =>
        new (List.mem_map.mpr ⟨_, member, rfl⟩)
      rw [Entries.get?_put_self, Option.some.injEq]
      simp only [others, false_or]
      exact ⟨fun same => by rw [← same], fun same => by rw [← same]⟩
    · have other : (⟨handle, s⟩ : Watch) ≠ w := fun same => own (by rw [← same])
      rw [Entries.get?_put_of_ne own, follows.handles]
      simp [other]
  silent v member := by
    rw [madeIn_made] at member
    rcases List.mem_append.mp member with earlier | last
    · exact follows.silent v earlier
    · rw [List.mem_singleton.mp last]
      exact silent
  marked := .made follows.marked new

/-- Who watches now is silent. -/
theorem watching (follows : Follows values marks e) (id : String) :
    ∀ o ∈ e.board.store.observersOf id, o.Silent := by
  intro o member
  rw [follows.observers] at member
  obtain ⟨w, watching, rfl⟩ := List.mem_map.mp member
  exact follows.silent w (follows.marked.lasting_sublist.subset (List.mem_of_mem_filter watching))

/-- A silent run only ends watches. -/
theorem run (follows : Follows values marks e) (nested : Runner) {p : Program}
    (silent : p.Writes fun _ => False) :
    Follows values (marks ++ (p.asks nested e).map .asked) (p.runWith nested e).2 := by
  -- over the program; each effect but the end of a watch leaves store and handles as they are
  induction silent generalizing marks e with
  | done | fail | defer | pause => simpa [Program.asks, Program.runWith] using follows
  | @report what _ _ rest => exact rest (follows.of_same rfl rfl)
  | @log level event fields _ _ rest => exact rest (follows.of_same rfl rfl)
  | askVars _ rest | read _ rest => exact rest _ follows
  | write allowed | writeProperty allowed => exact allowed.elim
  | @unsubscribe handle _ _ rest =>
    cases found : Entries.get? handle e.board.handles with
    | none =>
      -- the handle is unknown: the run stops here
      simpa [Program.asks, Program.runWith, found] using follows
    | some s => simpa [Program.asks, Program.runWith, found] using rest (follows.leave found)
  | draw _ rest => exact rest _ (follows.aside (draw_aside e _))
  | dispatch allowed => exact (allowed "").elim

end Follows

/-! ## Being told -/

/-- An observer is told of the new value of an entry. What it raises is logged. -/
inductive Hears (id : String) (value : Value) (e : Engine) : Observer → Engine → Prop
  | returned {name : String} {react : String → Value → Program} {stop : Stop} {after : Engine}
    (ran : (react id value).run e = (stop, after)) (fine : ∀ fault, stop ≠ .failed fault) :
    Hears id value e (.custom name react) after
  | raised {name : String} {react : String → Value → Program} {fault : Fault} {after : Engine}
    (ran : (react id value).run e = (.failed fault, after)) :
    Hears id value e (.custom name react) (after.logObserverFailure id fault)
  | drawn {ref : Nat} {after : Engine} (drew : e.redraw ref = .ok after) :
    Hears id value e (.view ref) after
  | undrawn {ref : Nat} {fault : Fault} (failed : e.redraw ref = .error fault) :
    Hears id value e (.view ref) (e.logObserverFailure id fault)

/-- Some observers, and nobody else, are told of the new value of an entry, in this order. The store
has that value each time, and at the end. -/
inductive Tells (id : String) (value : Value) : Engine → List Observer → Engine → Prop
  | nil {e : Engine} (held : e.board.store.get id = value) : Tells id value e [] e
  | cons {e between after : Engine} {o : Observer} {rest : List Observer}
    (held : e.board.store.get id = value) (hears : Hears id value e o between)
    (others : Tells id value between rest after) : Tells id value e (o :: rest) after

theorem notify_hears (id : String) (value : Value) (e : Engine) (o : Observer) :
    Hears id value e o (e.notifyWith Program.run id value o) := by
  cases o with
  | view ref =>
    simp only [notifyWith]
    split
    next after drew => exact .drawn drew
    next fault failed => exact .undrawn failed
  | custom name react =>
    simp only [notifyWith]
    split
    next fault after ran => exact .raised ran
    next stop after fine ran => exact .returned ran fine

theorem redraw_same {e after : Engine} {ref : Nat} (drew : e.redraw ref = .ok after) :
    after.board.store = e.board.store ∧ after.board.handles = e.board.handles := by
  unfold redraw at drew
  split at drew
  · cases drew
    exact ⟨rfl, rfl⟩
  · split at drew
    · cases drew
      exact ⟨rfl, rfl⟩
    · cases drew

namespace Follows

variable {values : Entries String Value} {marks : List Mark} {e : Engine}

theorem hears (follows : Follows values marks e) {id : String} {value : Value} {o : Observer}
    {after : Engine} (silent : o.Silent) (hears : Hears id value e o after) :
    Follows values (marks ++ (e.asksOf id value o).map .asked) after := by
  cases hears with
  | drawn drew =>
    obtain ⟨store, handles⟩ := redraw_same drew
    simpa [asksOf] using follows.of_same store handles
  | @undrawn _ fault failed =>
    have logged : Follows values marks (e.logObserverFailure id fault) := follows.of_same rfl rfl
    simpa [asksOf] using logged
  | returned ran =>
    have run := follows.run (Program.runAt (nestingLimit - 1)) (silent id value)
    rwa [← Program.run_eq, ran] at run
  | raised ran =>
    have run := follows.run (Program.runAt (nestingLimit - 1)) (silent id value)
    rw [← Program.run_eq, ran] at run
    exact run.of_same rfl rfl

theorem tells (follows : Follows values marks e) {id : String} {value : Value}
    (held : e.board.store.get id = value) {observers : List Observer}
    (silent : ∀ o ∈ observers, o.Silent) :
    Tells id value e observers (observers.foldl (notifyWith Program.run id value) e) ∧
      Follows values (marks ++ (e.asksOfAll id value observers).map .asked)
        (observers.foldl (notifyWith Program.run id value) e) := by
  -- who is told is settled before the first of them is: watches that end meanwhile do not count
  induction observers generalizing marks e with
  | nil => exact ⟨.nil held, by simpa [asksOfAll] using follows⟩
  | cons o rest ih =>
    have hears := notify_hears id value e o
    have between := follows.hears (silent o List.mem_cons_self) hears
    -- a silent observer leaves the value for the next one
    have still : (e.notifyWith Program.run id value o).board.store.get id = value := by
      rw [Store.get, between.values, ← follows.values]
      exact held
    obtain ⟨others, last⟩ := ih between still fun o member =>
      silent o (List.mem_cons_of_mem _ member)
    refine ⟨.cons held hears others, ?_⟩
    simpa [asksOfAll] using last

/-- A write tells those who watch. -/
theorem write (follows : Follows values marks e) (w : Write) :
    Tells w.id ((e.stored w).board.store.get w.id) (e.stored w)
        (observing (lasting marks) w.id) (w.perform e) ∧
      Follows (e.stored w).board.store.values (marks ++ (HostCall.write w).marks e)
        (w.perform e) := by
  have set : Follows (e.stored w).board.store.values marks (e.stored w) := by
    refine ⟨rfl, fun id => ?_, follows.handles, follows.silent, follows.marked⟩
    rw [← follows.observers]
    cases w <;> rfl
  have held : (e.stored w).board.store.get w.id = (e.stored w).board.store.get w.id := rfl
  rw [← set.observers, w.perform_eq]
  exact set.tells held (set.watching w.id)

theorem call (follows : Follows values marks e) (call : HostCall)
    (new : ∀ w, call.made? = some w →
      w.handle ∉ (madeIn marks).map Watch.handle ∧ w.subscription.observer.Silent) :
    ∃ values', Follows values' (marks ++ call.marks e) (call.perform e) := by
  cases call with
  | subscribe w =>
    obtain ⟨new, silent⟩ := new w rfl
    exact ⟨_, follows.make new silent⟩
  | unsubscribe handle =>
    have silent : (Program.unsubscribe handle (.done .null)).Writes fun _ => False :=
      .unsubscribe (.done _)
    have run := follows.run (Program.runAt (nestingLimit - 1)) silent
    rw [← Program.run_eq] at run
    refine ⟨values, ?_⟩
    simp only [HostCall.perform, unsubscribe]
    split <;> simp_all [HostCall.marks]
  | write w => exact ⟨_, (follows.write w).2⟩

/-- From a store that nobody watches, calls lead where their marks say. -/
theorem of_calls {e : Engine} (nobody : e.board.store.observers = [])
    (unnamed : e.board.handles = []) {calls : List HostCall}
    (distinct : ((calls.filterMap HostCall.made?).map Watch.handle).Nodup)
    (silent : ∀ w ∈ calls.filterMap HostCall.made?, w.subscription.observer.Silent) :
    ∃ values, Follows values (e.marks calls) (e.afterCalls calls) := by
  induction calls using List.reverseRecOn with
  | nil =>
    refine ⟨_, rfl, fun id => ?_, fun handle s => ?_, nofun, .nil⟩
    · simp [afterCalls, Store.observersOf, nobody, Entries.get?, Engine.marks, lasting, observing]
    · simp [afterCalls, unnamed, Entries.get?, Engine.marks, madeIn]
  | append_singleton calls call ih =>
    rw [List.filterMap_append] at distinct silent
    rw [List.map_append, List.nodup_append] at distinct
    obtain ⟨values, follows⟩ := ih distinct.1 fun w member =>
      silent w (List.mem_append_left _ member)
    rw [afterCalls_concat, marks_concat]
    refine follows.call call fun w made => ?_
    have member : w ∈ [call].filterMap HostCall.made? := by simp [made]
    refine ⟨?_, silent w (List.mem_append_right _ member)⟩
    -- what has been made according to the marks are the watches that the calls began
    rw [madeIn_marks]
    exact fun known => distinct.2.2 _ known _ (List.mem_map_of_mem member) rfl

end Follows

/-! ## Calls of a host -/

/-- How watches live and end in calls. -/
structure Subscribed (e : Engine) (calls : List HostCall) : Prop where
  /-- Those watch whose watches last, in the order in which they have begun. -/
  watched : ∀ before, before <+: calls → ∀ id,
    (e.afterCalls before).board.store.observersOf id = observing (lasting (e.marks before)) id
  /-- A write tells them all and nobody else, whatever they raise. -/
  told : ∀ before w, before ++ [.write w] <+: calls →
    Tells w.id (((e.afterCalls before).stored w).board.store.get w.id)
        ((e.afterCalls before).stored w) (observing (lasting (e.marks before)) w.id)
        (e.afterCalls (before ++ [.write w])) ∧
      (e.afterCalls (before ++ [.write w])).board.store.values =
        ((e.afterCalls before).stored w).board.store.values
  /-- Each function ends its own watch and no other, exactly if this is always the first one left
  of its observer on its entry. -/
  own_iff : (∀ before, before <+: e.marks calls → lasting before = uncancelled before) ↔
    Heeded (e.marks calls)
  /-- So it is if no observer watches an entry twice. -/
  unalike : (∀ v ∈ calls.filterMap HostCall.made?, ∀ w ∈ calls.filterMap HostCall.made?,
    w.alike v → v = w) → Heeded (e.marks calls)
  /-- As many watches last of an observer on an entry as their functions leave, if none of these is
  called twice. -/
  counted : (askedIn (e.marks calls)).Nodup → ∀ w : Watch,
    (lasting (e.marks calls)).countP w.alike = (uncancelled (e.marks calls)).countP w.alike

/-- Watches end one by one, each with a call of its own function unless an observer watches an entry
twice, and writes tell the watches that last. -/
theorem subscriptions_end {e : Engine} (nobody : e.board.store.observers = [])
    (unnamed : e.board.handles = []) {calls : List HostCall}
    (distinct : ((calls.filterMap HostCall.made?).map Watch.handle).Nodup)
    (silent : ∀ w ∈ calls.filterMap HostCall.made?, w.subscription.observer.Silent) :
    e.Subscribed calls := by
  have leads {before : List HostCall} (within : before <+: calls) :
      ∃ values, Follows values (e.marks before) (e.afterCalls before) := by
    have sublist := within.sublist.filterMap HostCall.made?
    exact Follows.of_calls nobody unnamed (distinct.sublist (sublist.map _)) fun w member =>
      silent w (sublist.subset member)
  obtain ⟨values, follows⟩ := leads (List.prefix_refl calls)
  refine ⟨fun before within id => ?_, fun before w within => ?_, follows.marked.lasting_eq_iff,
    fun unalike => follows.marked.heeded_of_unalike ?_, follows.marked.countP_lasting⟩
  · obtain ⟨values, follows⟩ := leads within
    exact follows.observers id
  · obtain ⟨values, follows⟩ := leads ((List.prefix_append _ _).trans within)
    obtain ⟨tells, later⟩ := follows.write w
    rw [afterCalls_concat]
    exact ⟨tells, later.values⟩
  · rw [madeIn_marks]
    exact unalike

/-- An engine with a store that nobody watches. -/
def unwatched : Engine where
  shared := { loop := false, random := fun _ _ => default }
  board := { serialize := true }
  page := {}

/-- An observer that reports each value that it is told of. -/
def reporter : Observer :=
  .custom "reporter" fun _ value => .report value (.done .null)

/-- An observer that fails, and the reporter after it. The watch of the first one is ended twice. -/
def crossed : List HostCall :=
  [.subscribe ⟨"first", ⟨"w", .custom "failing" fun id _ => .fail (.missing id)⟩⟩,
    .subscribe ⟨"second", ⟨"w", reporter⟩⟩, .write (.whole "w" (.int 1)), .unsubscribe "first",
    .unsubscribe "first", .write (.whole "w" (.int 2))]

/-- The failure does not stop the reporter, and its watch outlives that of the other observer. -/
theorem subscriptions_end_crossed :
    unwatched.board.store.observers = [] ∧ unwatched.board.handles = [] ∧
      ((crossed.filterMap HostCall.made?).map Watch.handle).Nodup ∧
      (∀ w ∈ crossed.filterMap HostCall.made?, w.subscription.observer.Silent) ∧
      unwatched.Subscribed crossed ∧
      (unwatched.afterCalls crossed).shared.reports = [.int 2, .int 1] ∧
      lasting (unwatched.marks crossed) = [⟨"second", ⟨"w", reporter⟩⟩] := by
  have distinct : ((crossed.filterMap HostCall.made?).map Watch.handle).Nodup := by decide
  have silent : ∀ w ∈ crossed.filterMap HostCall.made?, w.subscription.observer.Silent := by
    simp only [crossed, HostCall.made?, List.filterMap_cons, List.filterMap_nil,
      List.forall_mem_cons]
    exact ⟨fun _ _ => .fail _, fun _ _ => .report (.done _), nofun⟩
  exact ⟨rfl, rfl, distinct, silent, subscriptions_end rfl rfl distinct silent, rfl, rfl⟩

/-- The reporter watches an entry twice, and the function of its first watch is called twice. -/
def repeated : List HostCall :=
  [.subscribe ⟨"first", ⟨"w", reporter⟩⟩, .subscribe ⟨"second", ⟨"w", reporter⟩⟩,
    .unsubscribe "first", .unsubscribe "first"]

/-- The second call ends the second watch: nobody watches any more, and a write is told to nobody,
although the function of that watch has not been called. -/
theorem subscriptions_end_repeated :
    uncancelled (unwatched.marks repeated) = [⟨"second", ⟨"w", reporter⟩⟩] ∧
      (unwatched.afterCalls repeated).board.store.observersOf "w" = [] ∧
      ¬ Tells "w" (.int 1) ((unwatched.afterCalls repeated).stored (.whole "w" (.int 1)))
        (observing (uncancelled (unwatched.marks repeated)) "w")
        (unwatched.afterCalls (repeated ++ [.write (.whole "w" (.int 1))])) := by
  have left : uncancelled (unwatched.marks repeated) = [⟨"second", ⟨"w", reporter⟩⟩] := rfl
  have watching : observing (uncancelled (unwatched.marks repeated)) "w" = [reporter] := rfl
  refine ⟨left, rfl, ?_⟩
  rw [watching]
  intro tells
  have none :
      (unwatched.afterCalls (repeated ++ [.write (.whole "w" (.int 1))])).shared.reports = [] := rfl
  generalize unwatched.afterCalls (repeated ++ [.write (.whole "w" (.int 1))]) = after at tells none
  cases tells with
  | cons held hears others =>
    cases others
    -- had the reporter been told, there were a report
    cases hears with
    | returned ran fine =>
      have told := congrArg (fun result => result.2.shared.reports) ran
      rw [none] at told
      exact List.cons_ne_nil _ _ told
    | raised ran => cases congrArg Prod.fst ran

end Engine
end Patchbay
