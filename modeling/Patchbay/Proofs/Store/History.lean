import Patchbay.Proofs.Engine.Effects
import Mathlib.Data.List.DropRight
import Mathlib.Data.List.Induction

/-!
# The store as its write history

What the store holds for an id depends on two things only: the value that the id was last given as
a whole, and the properties of it that have been written since. `Recounts` is that function in
closed form, and `store_recounts` says that every history of writes ends in what it recounts, in
whatever order properties of different names were written, and whoever was told of the writes.
-/

namespace Patchbay

/-- A call that writes: a whole entry, or one property of it. -/
inductive Write where
  | whole (id : String) (value : Value)
  | property (id name : String) (value : Value)

namespace Write

def id : Write → String
  | .whole id _ => id
  | .property id _ _ => id

def apply (store : Store) : Write → Store
  | .whole id value => store.set id value
  | .property id name value => store.setProperty id name value

/-- The same call as the engine makes it, which tells those who watch. -/
def perform (e : Engine) : Write → Engine
  | .whole id value => e.write id value
  | .property id name value => e.writeProperty id name value

/-- What a write gives an id as a whole. -/
def value? (id : String) : Write → Option Value
  | .whole other value => if other = id then some value else none
  | .property .. => none

/-- The property of an id that is written, with its new value. -/
def property? (id : String) : Write → Option (String × Value)
  | .whole .. => none
  | .property other name value => if other = id then some (name, value) else none

end Write

/-- The store after writes, the first one at the front. -/
def Store.after (store : Store) (writes : List Write) : Store :=
  writes.foldl Write.apply store

/-- The last value that an id is given as a whole. -/
def lastValue? (id : String) (writes : List Write) : Option Value :=
  (writes.filterMap (Write.value? id)).getLast?

/-- The properties of an id that are written after the last value that it is given as a whole. -/
def writtenSince (id : String) (writes : List Write) : List (String × Value) :=
  (writes.rtakeWhile fun w => (w.value? id).isNone).filterMap (Write.property? id)

/-! ## Properties on top of a value -/

/-- The bag that a value becomes when a property of it is written. -/
def Value.bag : Value → Entries Key Value
  | .map entries => entries
  | .null => []
  | value => [(.text "value", value)]

def lastUnder? (key : Key) (written : List (String × Value)) : Option Value :=
  (written.reverse.find? fun w => Key.text w.1 == key).map Prod.snd

/-- The names that are written and not in a bag, in the order of their first writes. -/
def namesBeside (bag : Entries Key Value) (written : List (String × Value)) : List String :=
  (written.map Prod.fst).eraseDups.filter fun name => !Entries.has (Key.text name) bag

/-- What has become of a value after properties of it have been written. -/
structure Recounts (base : Value) (written : List (String × Value)) (entry : Value) : Prop where
  untouched : written = [] → entry = base
  /-- A key has what was last written under it, or else what the bag had before. -/
  entries : written ≠ [] → ∃ entries, entry = .map entries ∧
    (∀ key, Entries.get? key entries =
      (lastUnder? key written).or (Entries.get? key base.bag)) ∧
    Entries.keys entries =
      Entries.keys base.bag ++ (namesBeside base.bag written).map Key.text
  /-- The canonical names stand for the whole of a value until the first property is written. -/
  property : ∀ name, name ≠ "" → entry.property (some name) =
    if written = [] ∧ base.isBag = false then
      if name ∈ canonicalProperties then base else .null
    else ((lastUnder? (.text name) written).or (Entries.get? (.text name) base.bag)).getD .null

namespace Key

theorem text_beq_iff (name : String) (key : Key) : (text name == key) = true ↔ key = text name := by
  cases key <;> simp [BEq.beq, same, eq_comm]

theorem get?_put_text_of_other {key : Key} {name : String} (other : key ≠ text name)
    (value : Value) (entries : Entries Key Value) :
    Entries.get? key (Entries.put (text name) value entries) = Entries.get? key entries := by
  induction entries with
  | nil => simp [Entries.put, Entries.get?, text_beq_iff, other]
  | cons entry rest ih =>
    by_cases here : entry.1 = text name
    · simp [Entries.put, Entries.get?, beq_text_iff, text_beq_iff, here, other]
    · simp [Entries.put, Entries.get?, beq_text_iff, here, ih]

end Key

def putAll (written : List (String × Value)) (bag : Entries Key Value) : Entries Key Value :=
  written.foldl (fun bag w => Entries.put (Key.text w.1) w.2 bag) bag

theorem putAll_append_singleton (written : List (String × Value)) (w : String × Value)
    (bag : Entries Key Value) :
    putAll (written ++ [w]) bag = Entries.put (.text w.1) w.2 (putAll written bag) := by
  simp [putAll]

theorem lastUnder?_append_singleton (key : Key) (written : List (String × Value))
    (w : String × Value) : lastUnder? key (written ++ [w]) =
      if Key.text w.1 == key then some w.2 else lastUnder? key written := by
  by_cases here : (Key.text w.1 == key) = true
  · simp [lastUnder?, here]
  · simp [lastUnder?, here]

theorem get?_putAll (key : Key) (written : List (String × Value)) (bag : Entries Key Value) :
    Entries.get? key (putAll written bag) =
      (lastUnder? key written).or (Entries.get? key bag) := by
  induction written using List.reverseRecOn with
  | nil => simp [putAll, lastUnder?]
  | append_singleton written w ih =>
    rw [putAll_append_singleton, lastUnder?_append_singleton]
    by_cases here : key = .text w.1
    · simp [here, Key.text_beq_iff, Key.get?_put_text]
    · simp [here, Key.text_beq_iff, Key.get?_put_text_of_other here, ih]

theorem lastUnder?_eq_none_iff (name : String) (written : List (String × Value)) :
    lastUnder? (.text name) written = none ↔ name ∉ written.map Prod.fst := by
  induction written using List.reverseRecOn with
  | nil => simp [lastUnder?]
  | append_singleton written w ih =>
    rw [lastUnder?_append_singleton]
    by_cases here : name = w.1
    · simp [here, Key.text_beq_iff]
    · simpa [here, Key.text_beq_iff] using ih

theorem has_putAll (name : String) (written : List (String × Value)) (bag : Entries Key Value) :
    Entries.has (Key.text name) (putAll written bag) =
      (decide (name ∈ written.map Prod.fst) || Entries.has (Key.text name) bag) := by
  have last := lastUnder?_eq_none_iff name written
  rw [Entries.has, get?_putAll]
  cases found : lastUnder? (.text name) written with
  | none =>
    have absent := last.mp found
    simp only [Option.none_or, absent, decide_false, Bool.false_or, Entries.has]
  | some value =>
    have present : name ∈ written.map Prod.fst := by
      by_contra absent
      simp [last.mpr absent] at found
    simp only [Option.some_or, Option.isSome_some, present, decide_true, Bool.true_or]

theorem keys_putAll (written : List (String × Value)) (bag : Entries Key Value) :
    Entries.keys (putAll written bag) =
      Entries.keys bag ++ (namesBeside bag written).map Key.text := by
  induction written using List.reverseRecOn with
  | nil => simp [putAll, namesBeside]
  | append_singleton written w ih =>
    -- the name comes last unless it was in the bag or has been written before
    rw [putAll_append_singleton, Entries.keys_put, has_putAll, ih]
    simp only [namesBeside, List.map_append, List.map_cons, List.map_nil, List.eraseDups_append]
    by_cases before : w.1 ∈ written.map Prod.fst
    · simp [List.removeAll, before]
    · by_cases inside : Entries.has (Key.text w.1) bag = true
      · simp [List.removeAll, before, inside, List.eraseDups_cons]
      · simp [List.removeAll, before, inside, List.eraseDups_cons]

/-! ## What becomes of an entry -/

namespace Value

theorem withProperty_eq (old : Value) (name : String) (new : Value) :
    old.withProperty name new = .map (Entries.put (.text name) new old.bag) := by
  cases old with
  | map entries => rfl
  | null => rfl
  | bool | int | float | text | list =>
    by_cases whole : name = "value"
    · simp [withProperty, bag, whole, Entries.put, Key.beq_text_iff]
    · simp [withProperty, bag, whole, Entries.put, Key.beq_text_iff, Ne.symm whole]

def withProperties (written : List (String × Value)) (base : Value) : Value :=
  written.foldl (fun value w => value.withProperty w.1 w.2) base

theorem withProperties_append (first second : List (String × Value)) (base : Value) :
    withProperties (first ++ second) base =
      withProperties second (withProperties first base) := by
  simp [withProperties]

theorem withProperties_eq {written : List (String × Value)} (nonempty : written ≠ [])
    (base : Value) : withProperties written base = .map (putAll written base.bag) := by
  induction written using List.reverseRecOn with
  | nil => exact absurd rfl nonempty
  | append_singleton written w ih =>
    rw [withProperties_append, putAll_append_singleton]
    -- only the first write can find a scalar
    by_cases first : written = []
    · simp [first, withProperties, withProperty_eq, putAll]
    · rw [ih first]
      simp [withProperties, withProperty_eq, bag]

theorem property_map (entries : Entries Key Value) {name : String} (filled : name ≠ "") :
    (Value.map entries).property (some name) =
      (Entries.get? (Key.text name) entries).getD .null := by
  simp [property, filled]

theorem recounts (written : List (String × Value)) (base : Value) :
    Recounts base written (withProperties written base) := by
  by_cases none : written = []
  · subst none
    refine ⟨fun _ => rfl, fun nonempty => absurd rfl nonempty, fun name filled => ?_⟩
    -- nothing has been written, so a bag is asked itself and any other value is the whole
    cases base with
    | map entries => simp [withProperties, property, filled, isBag, lastUnder?, bag]
    | null | bool | int | float | text | list =>
      simp [withProperties, property, filled, isBag]
  · rw [withProperties_eq none]
    refine ⟨fun empty => absurd empty none, fun _ => ?_, fun name filled => ?_⟩
    · exact ⟨_, rfl, fun key => get?_putAll key written base.bag, keys_putAll written base.bag⟩
    · simp [property_map _ filled, get?_putAll, none]

end Value

/-! ## Histories -/

theorem lastValue?_append_singleton (id : String) (writes : List Write) (w : Write) :
    lastValue? id (writes ++ [w]) = (w.value? id).or (lastValue? id writes) := by
  cases given : w.value? id with
  | none => simp [lastValue?, given]
  | some value => simp [lastValue?, given]

theorem writtenSince_append_singleton (id : String) (writes : List Write) (w : Write) :
    writtenSince id (writes ++ [w]) =
      if (w.value? id).isSome then [] else writtenSince id writes ++ (w.property? id).toList := by
  simp only [writtenSince, List.rtakeWhile_concat]
  cases given : w.value? id with
  | none => cases own : w.property? id <;> simp [own]
  | some value => simp

theorem Write.get_apply (store : Store) (w : Write) (id : String) : (w.apply store).get id =
    (w.value? id).getD (Value.withProperties (w.property? id).toList (store.get id)) := by
  cases w with
  | whole other value =>
    by_cases here : other = id
    · subst here
      simp [apply, value?, Store.get_set_self]
    · simp [apply, value?, property?, here, Value.withProperties,
        Store.get_set_of_ne _ (Ne.symm here)]
  | property other name value =>
    by_cases here : other = id
    · subst here
      simp [apply, value?, property?, Value.withProperties, Store.setProperty, Store.get_set_self]
    · simp [apply, value?, property?, here, Value.withProperties, Store.setProperty,
        Store.get_set_of_ne _ (Ne.symm here)]

/-- An entry is the last value given as a whole, with all properties that are written since. -/
theorem Store.get_after (store : Store) (writes : List Write) (id : String) :
    (store.after writes).get id = Value.withProperties (writtenSince id writes)
      ((lastValue? id writes).getD (store.get id)) := by
  induction writes using List.reverseRecOn with
  | nil => simp [after, writtenSince, lastValue?, Value.withProperties]
  | append_singleton writes w ih =>
    have step : store.after (writes ++ [w]) = w.apply (store.after writes) := by
      simp [after]
    rw [step, w.get_apply, ih, lastValue?_append_singleton, writtenSince_append_singleton]
    -- a whole value starts the history of the id anew
    cases given : w.value? id with
    | some value => simp [Value.withProperties]
    | none => simp [Value.withProperties_append]

/-! ## The order of writes -/

/-- Two values are the same but for the order of their entries. -/
def Value.Rearranged (v w : Value) : Prop :=
  v = w ∨ ∃ entries others, v = .map entries ∧ w = .map others ∧
    ∀ key, Entries.get? key entries = Entries.get? key others

namespace Value.Rearranged

theorem bag {v w : Value} (rearranged : v.Rearranged w) (key : Key) :
    Entries.get? key v.bag = Entries.get? key w.bag := by
  rcases rearranged with rfl | ⟨entries, others, rfl, rfl, same⟩
  · rfl
  · exact same key

theorem withProperty {v w : Value} (rearranged : v.Rearranged w) (name : String) (new : Value) :
    (v.withProperty name new).Rearranged (w.withProperty name new) := by
  refine .inr ⟨_, _, withProperty_eq v name new, withProperty_eq w name new, fun key => ?_⟩
  by_cases here : key = .text name
  · simp [here, Key.get?_put_text]
  · simp [Key.get?_put_text_of_other here, rearranged.bag]

theorem property {v w : Value} (rearranged : v.Rearranged w) {name : String}
    (filled : name ≠ "") : v.property (some name) = w.property (some name) := by
  rcases rearranged with rfl | ⟨entries, others, rfl, rfl, same⟩
  · rfl
  · simp [property_map _ filled, same]

end Value.Rearranged

def Store.Rearranged (store other : Store) : Prop :=
  ∀ id, (store.get id).Rearranged (other.get id)

theorem Store.Rearranged.apply {store other : Store} (rearranged : store.Rearranged other)
    (w : Write) : (w.apply store).Rearranged (w.apply other) := by
  intro id
  rw [w.get_apply, w.get_apply]
  cases w.value? id with
  | some value => exact .inl rfl
  | none =>
    cases w.property? id with
    | none => exact rearranged id
    | some written => exact (rearranged id).withProperty written.1 written.2

theorem Store.Rearranged.after {store other : Store} (rearranged : store.Rearranged other)
    (writes : List Write) : (store.after writes).Rearranged (other.after writes) := by
  induction writes generalizing store other with
  | nil => exact rearranged
  | cons w rest ih => exact ih (rearranged.apply w)

theorem Store.after_append (store : Store) (first second : List Write) :
    store.after (first ++ second) = (store.after first).after second := by
  simp [after]

def Write.properties (id : String) (written : List (String × Value)) : List Write :=
  written.map fun w => .property id w.1 w.2

theorem Store.get_after_properties (store : Store) (id other : String)
    (written : List (String × Value)) : (store.after (Write.properties id written)).get other =
      if other = id then Value.withProperties written (store.get id) else store.get other := by
  induction written generalizing store with
  | nil => by_cases here : other = id <;> simp [after, Write.properties, Value.withProperties, here]
  | cons w rest ih =>
    have step : store.after (Write.properties id (w :: rest)) =
        (store.setProperty id w.1 w.2).after (Write.properties id rest) := by
      simp [after, Write.properties, Write.apply]
    rw [step, ih]
    by_cases here : other = id
    · simp [here, Value.withProperties, setProperty, get_set_self]
    · simp [here, setProperty, get_set_of_ne]

theorem lastUnder?_text (name : String) (written : List (String × Value)) :
    lastUnder? (.text name) written =
      ((written.filter fun w => w.1 == name).getLast?).map Prod.snd := by
  have own (w : String × Value) : (Key.text w.1 == Key.text name) = (w.1 == name) := by
    simp [BEq.beq, Key.same]
  simp [lastUnder?, own]

/-- The writes of each name are the same, in the same order; only writes of different names have
changed places. -/
def Permuted (first second : List (String × Value)) : Prop :=
  ∀ name, (first.filter fun w => w.1 == name) = second.filter fun w => w.1 == name

theorem Permuted.symm {first second : List (String × Value)} (permuted : Permuted first second) :
    Permuted second first :=
  fun name => (permuted name).symm

theorem Permuted.mem {first second : List (String × Value)} (permuted : Permuted first second)
    {w : String × Value} (member : w ∈ first) : w ∈ second := by
  have own : w ∈ first.filter fun other => other.1 == w.1 := by simp [member]
  rw [permuted w.1] at own
  exact List.mem_of_mem_filter own

theorem Permuted.nil_iff {first second : List (String × Value)} (permuted : Permuted first second) :
    first = [] ↔ second = [] := by
  simp only [List.eq_nil_iff_forall_not_mem]
  exact ⟨fun none w member => none w (permuted.symm.mem member),
    fun none w member => none w (permuted.mem member)⟩

theorem Permuted.lastUnder? {first second : List (String × Value)}
    (permuted : Permuted first second) (key : Key) :
    lastUnder? key first = lastUnder? key second := by
  by_cases text : ∃ name, key = .text name
  · obtain ⟨name, rfl⟩ := text
    simp only [lastUnder?_text, permuted name]
  · -- only keys that are text are ever written
    rw [not_exists] at text
    have none (written : List (String × Value)) : Patchbay.lastUnder? key written = none := by
      simp [Patchbay.lastUnder?, Key.text_beq_iff, text]
    rw [none, none]

theorem Permuted.rearranged {first second : List (String × Value)}
    (permuted : Permuted first second) (base : Value) :
    (Value.withProperties first base).Rearranged (Value.withProperties second base) := by
  by_cases none : first = []
  · rw [none, permuted.nil_iff.mp none]
    exact .inl rfl
  · have nonempty : second ≠ [] := fun empty => none (permuted.nil_iff.mpr empty)
    refine .inr ⟨_, _, Value.withProperties_eq none base, Value.withProperties_eq nonempty base,
      fun key => ?_⟩
    rw [get?_putAll, get?_putAll, permuted.lastUnder? key]

/-! ## Writes that others are told of -/

theorem Store.values_after {store other : Store} (same : store.values = other.values)
    (writes : List Write) : (store.after writes).values = (other.after writes).values := by
  induction writes generalizing store other with
  | nil => exact same
  | cons w rest ih =>
    apply ih
    cases w <;> simp [Write.apply, set, setProperty, get, same]

namespace Engine

theorem Effect.recorded {fires : Prop} {e after : Engine} (effect : Effect fires e after) :
    ∃ writes, after.board.store.values = (e.board.store.after writes).values := by
  cases effect with
  | write _ id value => exact ⟨[.whole id value], rfl⟩
  | schedule => exact ⟨[], by rw [schedule_store]; rfl⟩
  | log | report | unsubscribe | draw | display | count | bind | number => exact ⟨[], rfl⟩

/-- Whatever runs, the store is what a history of writes has made of it. -/
theorem Effects.recorded {fires : Prop} {e after : Engine} (effects : Effects fires e after) :
    ∃ writes, after.board.store.values = (e.board.store.after writes).values := by
  induction effects with
  | refl => exact ⟨[], rfl⟩
  | tail _ effect ih =>
    obtain ⟨writes, earlier⟩ := ih
    obtain ⟨more, later⟩ := effect.recorded
    exact ⟨writes ++ more, by rw [later, Store.after_append, Store.values_after earlier]⟩

end Engine

namespace Write

open Engine

theorem perform_eq (w : Write) (e : Engine) : w.perform e =
    (e.withStore (w.apply e.board.store)).announceWith Program.run w.id := by
  cases w <;> rfl

theorem perform_effects (w : Write) (e : Engine) : Effects True e (w.perform e) := by
  have store := Store.within_of_fires trivial e.board.store
  cases w with
  | whole id value => exact writeWith_effects (run_chains True) id value e store
  | property id name value => exact writeWith_effects (run_chains True) id _ e store

/-- A call is followed by the writes of those who are told of it. -/
theorem perform_recorded (w : Write) (e : Engine) :
    ∃ told, (w.perform e).board.store.values = (e.board.store.after (w :: told)).values ∧
      (e.board.store.observersOf w.id = [] → told = []) := by
  have same : (w.apply e.board.store).observersOf w.id = e.board.store.observersOf w.id := by
    cases w <;> rfl
  rw [perform_eq]
  by_cases nobody : e.board.store.observersOf w.id = []
  · refine ⟨[], ?_, fun _ => rfl⟩
    simp [announceWith, withStore, same, nobody, Store.after]
  · have effects := announceWith_effects (run_chains True) w.id
      (e.withStore (w.apply e.board.store)) (Store.within_of_fires trivial _)
    obtain ⟨told, recorded⟩ := effects.recorded
    exact ⟨told, recorded, fun empty => absurd empty nobody⟩

theorem performAll_recorded (writes : List Write) (e : Engine) :
    ∃ all, (writes.foldl (fun e w => w.perform e) e).board.store.values =
        (e.board.store.after all).values ∧ writes.Sublist all ∧
      ((∀ w ∈ writes, e.board.store.observersOf w.id = []) → all = writes) := by
  induction writes generalizing e with
  | nil => exact ⟨[], rfl, .slnil, fun _ => rfl⟩
  | cons w rest ih =>
    obtain ⟨told, first, silent⟩ := w.perform_recorded e
    obtain ⟨all, later, sublist, silent'⟩ := ih (w.perform e)
    refine ⟨(w :: told) ++ all, ?_, ?_, fun nobody => ?_⟩
    · rw [List.foldl_cons, later, Store.after_append, Store.values_after first]
    · exact List.Sublist.append (List.singleton_sublist.mpr List.mem_cons_self) sublist
    · -- nobody begins to watch while programs run
      have none := silent (nobody w List.mem_cons_self)
      have others : ∀ w' ∈ rest, (w.perform e).board.store.observersOf w'.id = [] := by
        intro w' member
        rw [List.eq_nil_iff_forall_not_mem]
        intro o watches
        have before := (w.perform_effects e).observers w'.id o watches
        simp [nobody w' (List.mem_cons_of_mem _ member)] at before
      simp [none, silent' others]

end Write

/-- What the store holds for an id is what its history recounts. Writes of different properties
can change places, and what others write when they are told of a call belongs to the history. -/
theorem store_recounts :
    (∀ (store : Store) (writes : List Write) (id : String),
      Recounts ((lastValue? id writes).getD (store.get id)) (writtenSince id writes)
        ((store.after writes).get id)) ∧
    (∀ (store : Store) (id : String) (earlier later : List Write)
        (first second : List (String × Value)), Permuted first second →
      ∀ other, ((store.after (earlier ++ Write.properties id first ++ later)).get other).Rearranged
          ((store.after (earlier ++ Write.properties id second ++ later)).get other) ∧
        ∀ name, name ≠ "" →
          (store.after (earlier ++ Write.properties id first ++ later)).getProperty other name =
          (store.after (earlier ++ Write.properties id second ++ later)).getProperty other name) ∧
    ∀ (e : Engine) (writes : List Write), ∃ all,
      (writes.foldl (fun e w => w.perform e) e).board.store.values =
        (e.board.store.after all).values ∧ writes.Sublist all ∧
      ((∀ w ∈ writes, e.board.store.observersOf w.id = []) → all = writes) := by
  refine ⟨fun store writes id => ?_, fun store id earlier later first second permuted => ?_,
    fun e writes => Write.performAll_recorded writes e⟩
  · rw [store.get_after]
    exact Value.recounts _ _
  · have between : ((store.after earlier).after (Write.properties id first)).Rearranged
        ((store.after earlier).after (Write.properties id second)) := by
      intro other
      rw [Store.get_after_properties, Store.get_after_properties]
      split
      · exact permuted.rearranged _
      · exact .inl rfl
    -- what is written later cannot bring the difference out
    have rearranged := between.after later
    simp only [Store.after_append]
    exact fun other => ⟨rearranged other, fun name filled => (rearranged other).property filled⟩

/-- A hint, a new choice that ends it, and two properties of that choice. -/
def upgrade : List Write :=
  [.property "region" "hint" (.text "old"), .whole "region" (.text "east"),
    .property "region" "hint" (.text "near"), .property "region" "note" (.int 3)]

/-- What was written before the last whole value is gone, and that value lives on as `value`. Two
more properties can be written in either order. -/
theorem store_recounts_upgrade :
    Recounts (.text "east") [("hint", .text "near"), ("note", .int 3)]
        ((Store.after {} upgrade).get "region") ∧
      (Store.after {} upgrade).get "region" =
        .record [("value", .text "east"), ("hint", .text "near"), ("note", .int 3)] ∧
      ((Store.after {} (upgrade ++ Write.properties "region" [("a", .int 1), ("b", .int 2)] ++
          [])).get "region").Rearranged
        ((Store.after {} (upgrade ++ Write.properties "region" [("b", .int 2), ("a", .int 1)] ++
          [])).get "region") := by
  have permuted : Permuted [("a", .int 1), ("b", .int 2)] [("b", .int 2), ("a", .int 1)] := by
    intro name
    by_cases first : "a" = name
    · simp [← first]
    · by_cases second : "b" = name <;> simp [first, second]
  have last : lastValue? "region" upgrade = some (.text "east") := rfl
  have since : writtenSince "region" upgrade = [("hint", .text "near"), ("note", .int 3)] := rfl
  have recounts := store_recounts.1 {} upgrade "region"
  rw [last, since] at recounts
  exact ⟨recounts, rfl, (store_recounts.2.1 {} "region" upgrade [] _ _ permuted "region").1⟩

end Patchbay
