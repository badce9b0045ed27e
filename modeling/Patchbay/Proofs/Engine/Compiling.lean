import Patchbay.Engine.Opening
import Patchbay.Proofs.Document.Shapes
import Mathlib.Data.List.TakeWhile

/-!
# Compiling bindings

A tolerant compilation makes a rule of every binding; a strict one refuses dead bindings and is
otherwise the same (`Engine.strict_refuses_dead`). Which bindings are dead is asked in three places,
for the refusal, for the warnings and for the counter; here it is one predicate, `Binding.Dead`.
-/

namespace Patchbay

/-! ## Dead bindings -/

/-- Nothing is left of a text exactly if there is nothing but blanks in it. -/
theorem Text.trim_eq_nil_iff (cs : List Char) : trim cs = [] ↔ ∀ c ∈ cs, isBlank c = true := by
  rw [trim, List.reverse_eq_nil_iff, List.dropWhile_eq_nil_iff]
  simp only [List.mem_reverse]
  constructor
  · intro rest
    -- what is left at the front would begin with a character that is not blank
    refine List.dropWhile_eq_nil_iff.mp ?_
    cases left : cs.dropWhile isBlank with
    | nil => rfl
    | cons c more =>
      have first := List.head?_dropWhile_not isBlank cs
      rw [left, List.head?_cons] at first
      exact absurd (rest c (left ▸ List.mem_cons_self)) (by simpa using first)
  · intro blank c member
    exact blank c ((List.dropWhile_suffix isBlank).subset member)

namespace Binding

/-- A binding that waits for the click of a widget, but names none or names it by blanks only. -/
def Dead (b : Binding) : Prop :=
  b.mode = .indirect ∧ ∀ via, b.via = some via → ∀ c ∈ via.toList, Text.isBlank c = true

theorem isDead_iff (b : Binding) : b.isDead = true ↔ b.Dead := by
  rw [isDead, Bool.and_eq_true, decide_eq_true_iff, List.isEmpty_iff, Text.trim_eq_nil_iff, Dead]
  cases b.via <;> simp

instance : DecidablePred Dead :=
  fun b => decidable_of_iff _ b.isDead_iff

theorem isDead_eq_false_iff (b : Binding) : b.isDead = false ↔ ¬b.Dead := by
  rw [← isDead_iff, Bool.not_eq_true]

theorem countP_dead (bindings : List Binding) :
    bindings.countP (fun b => b.Dead) = (bindings.filter isDead).length := by
  rw [← List.countP_eq_length_filter]
  exact List.countP_congr fun b _ => by rw [decide_eq_true_iff, isDead_iff]

theorem firstDead?_eq_none_iff (start : Nat) (bindings : List Binding) :
    firstDead? start bindings = none ↔ ∀ b ∈ bindings, b.isDead = false := by
  induction bindings generalizing start with
  | nil => simp [firstDead?]
  | cons b rest ih =>
    rw [List.forall_mem_cons, ← ih (start + 1), firstDead?]
    cases b.isDead <;> simp

/-- The first dead binding is found at its place. -/
theorem firstDead?_append {before : List Binding} (alive : ∀ c ∈ before, ¬c.Dead) {b : Binding}
    (dead : b.Dead) (after : List Binding) (start : Nat) :
    firstDead? start (before ++ b :: after) = some (start + before.length, b) := by
  induction before generalizing start with
  | nil => simp [firstDead?, b.isDead_iff.mpr dead]
  | cons c rest ih =>
    rw [List.forall_mem_cons] at alive
    have lives := c.isDead_eq_false_iff.mpr alive.1
    rw [List.cons_append, firstDead?, lives, if_neg Bool.false_ne_true, ih alive.2,
      List.length_cons, Nat.add_assoc, Nat.add_comm 1]

/-- A strict compilation refuses dead bindings, any other refuses nothing. -/
theorem compile_eq_ok_iff (strict : Bool) (bindings : List Binding) :
    (∃ rules, compile strict bindings = .ok rules) ↔
      (strict = true → ∀ b ∈ bindings, b.isDead = false) := by
  rw [← firstDead?_eq_none_iff 0]
  unfold compile
  cases strict with
  | false => simp
  | true => cases firstDead? 0 bindings <;> simp

theorem compile_tolerant (bindings : List Binding) :
    compile false bindings = .ok (bindings.map rule) :=
  rfl

/-- Where no binding is dead, a strict compilation does what any other does. -/
theorem compile_alive {bindings : List Binding} (alive : ∀ b ∈ bindings, ¬b.Dead) :
    compile true bindings = .ok (bindings.map rule) := by
  have none := (firstDead?_eq_none_iff 0 bindings).mpr
    fun b member => b.isDead_eq_false_iff.mpr (alive b member)
  simp only [compile, none, ↓reduceIte]

theorem compile_dead {before : List Binding} (alive : ∀ c ∈ before, ¬c.Dead) {b : Binding}
    (dead : b.Dead) (after : List Binding) :
    compile true (before ++ b :: after) = .error (.deadBinding b.source b.target) := by
  simp only [compile, ↓reduceIte, firstDead?_append alive dead]

theorem validate_dead {before : List Binding} (alive : ∀ c ∈ before, ¬c.Dead) {b : Binding}
    (dead : b.Dead) (after : List Binding) :
    validate (before ++ b :: after) =
      .error ⟨.deadBinding b.source b.target, s!"bindings[{before.length}].via", b.via⟩ := by
  rw [validate, firstDead?_append alive dead, Nat.zero_add]

/-! ## Bindings that are given as values -/

/-- Values that describe bindings are read as these. -/
theorem checkList_described {values : List Value} {bindings : List Binding}
    (described : List.Forall₂ (fun v b => DescribedBy b v) values bindings) (start : Nat) :
    checkList start values = .ok bindings := by
  induction described generalizing start with
  | nil => rfl
  | cons first _ ih => simp only [checkList, check_eq_ok_iff.mpr first, ih, Except.map]

/-- Reading stops at the first value that describes no binding. -/
theorem checkList_refused {before : List Value} (readable : ∀ u ∈ before, ∃ b, DescribedBy b u)
    {v : Value} {issues : List Schema.Issue} (refused : check v = .error issues)
    (after : List Value) (start : Nat) :
    checkList start (before ++ v :: after) = .error (.binding (start + before.length) issues) := by
  induction before generalizing start with
  | nil => simp only [List.nil_append, checkList, refused, List.length_nil, Nat.add_zero]
  | cons u rest ih =>
    rw [List.forall_mem_cons] at readable
    obtain ⟨b, described⟩ := readable.1
    simp only [List.cons_append, checkList, check_eq_ok_iff.mpr described, ih readable.2,
      Except.map, List.length_cons, Nat.add_assoc, Nat.add_comm 1]

end Binding

namespace Engine

/-! ## What a compilation leaves behind -/

/-- Lines that are logged one after another stand before the older ones, the last one first. -/
theorem foldl_log (level : Log.Level) (event : String) (fields : Binding → List (String × Value))
    (bindings : List Binding) (e : Engine) :
    bindings.foldl (fun e b => e.log level event (fields b)) e = { e with shared.lines :=
      (bindings.map fun b => ⟨level, event, fields b, e.shared.vars⟩).reverse ++
        e.shared.lines } := by
  induction bindings generalizing e with
  | nil => rfl
  | cons b rest ih =>
    rw [List.foldl_cons, ih]
    simp [Engine.log]

/-- What a dead binding is warned of with. -/
def deadFields (b : Binding) : List (String × Value) :=
  [("source", .text b.source), ("target", .text b.target), ("trigger", .text b.trigger)]

/-- A compilation that succeeds warns of the dead bindings, counts, and logs the rules. -/
theorem compile_ok {strict : Bool} {bindings : List Binding} {rules : List Rule}
    (compiled : Binding.compile strict bindings = .ok rules) (e : Engine) :
    e.compile strict bindings = (.ok rules, { e with
      shared.lines :=
        ⟨.debug, "rules_compiled",
          [("count", .int rules.length), ("rules", .list (rules.map Rule.toValue))],
          e.shared.vars⟩ ::
        (((bindings.filter Binding.isDead).map fun b =>
          ⟨.warning, "dead_rule", deadFields b, e.shared.vars⟩).reverse ++ e.shared.lines)
      shared.counters := e.shared.counters.recordCompiled rules.length
        (bindings.filter Binding.isDead).length }) := by
  have warned := foldl_log .warning "dead_rule" deadFields (bindings.filter Binding.isDead) e
  simp only [deadFields] at warned
  simp only [compile, compiled, warned, deadFields]
  rfl

/-- Whether bindings can be compiled does not depend on the state. -/
theorem compile_fst (e : Engine) (strict : Bool) (bindings : List Binding) :
    (e.compile strict bindings).1 = Binding.compile strict bindings := by
  cases result : Binding.compile strict bindings with
  | error cause => simp only [compile, result]
  | ok rules => rw [compile_ok result]

/-- To compile is to log and to count. -/
theorem compile_eq (strict : Bool) (bindings : List Binding) (e : Engine) :
    ∃ lines counters, (e.compile strict bindings).2 =
      { e with shared.lines := lines, shared.counters := counters } := by
  cases result : Binding.compile strict bindings with
  | error cause =>
    simp only [compile, result]
    exact ⟨_, _, rfl⟩
  | ok rules =>
    rw [compile_ok result]
    exact ⟨_, _, rfl⟩

/-- Dead bindings are warned of, but their rules are compiled like the others. -/
theorem compile_rules {strict : Bool} {bindings : List Binding} {rules : List Rule}
    {e after : Engine} (compiled : e.compile strict bindings = (.ok rules, after)) :
    rules = bindings.map Binding.rule ∧ after.board = e.board ∧ after.page = e.page := by
  obtain ⟨lines, counters, kept⟩ := compile_eq strict bindings e
  have result := compile_fst e strict bindings
  rw [compiled] at result kept
  cases kept
  refine ⟨?_, rfl, rfl⟩
  unfold Binding.compile at result
  split at result
  · cases result
  · cases result
    rfl

/-! ## Strict and tolerant compilations -/

/-- How many warnings about dead bindings have been logged. -/
def deadWarnings (e : Engine) : Nat :=
  e.shared.lines.countP fun line => line.level = .warning ∧ line.event = "dead_rule"

/-- How compiling bindings, strictly or not, ends in a state. -/
structure Compilation (bindings : List Binding) (e : Engine) : Prop where
  /-- A tolerant compilation makes one rule with one action of each binding, in order. -/
  tolerant : ∃ rules, (e.compile false bindings).1 = .ok rules ∧
    List.Forall₂ (fun b rule => rule = b.rule ∧ ∃ action, rule.actions = [action]) bindings rules
  append : ∀ more, ∃ first second, (e.compile false bindings).1 = .ok first ∧
    (e.compile false more).1 = .ok second ∧
    (e.compile false (bindings ++ more)).1 = .ok (first ++ second)
  strict_iff : (∃ rules, (e.compile true bindings).1 = .ok rules) ↔ ∀ b ∈ bindings, ¬b.Dead
  alike : (∀ b ∈ bindings, ¬b.Dead) → e.compile true bindings = e.compile false bindings
  /-- The first dead binding is what a strict compilation is refused for, in the words of the
  check, and nothing is counted. -/
  refused : ∀ before b after, bindings = before ++ b :: after → (∀ c ∈ before, ¬c.Dead) → b.Dead →
    ∃ found, Binding.validate bindings = .error found ∧
      found.field = s!"bindings[{before.length}].via" ∧
      found.cause.message = s!"Indirect binding {b.source} -> {b.target} has no 'via' widget" ∧
      (e.compile true bindings).1 = .error found.cause ∧
      (e.compile true bindings).2.shared.counters = e.shared.counters
  counted : ∀ strict rules, (e.compile strict bindings).1 = .ok rules →
    (e.compile strict bindings).2.shared.counters = { e.shared.counters with
      compiled := e.shared.counters.compiled + bindings.length
      dead := e.shared.counters.dead + bindings.countP fun b => b.Dead } ∧
    (e.compile strict bindings).2.deadWarnings =
      e.deadWarnings + bindings.countP fun b => b.Dead

/-- How compiling bindings ends that are given as values. -/
structure ValueCompilation (strict : Bool) (values : List Value) (e : Engine) : Prop where
  /-- The first value that describes no binding is refused by its place. -/
  refused : ∀ before v after, values = before ++ v :: after →
    (∀ u ∈ before, ∃ b, Binding.DescribedBy b u) → (¬∃ b, Binding.DescribedBy b v) →
    ∃ issues, Binding.check v = .error issues ∧
      e.compileValues strict values = (.error (.binding before.length issues), e) ∧
      (Invalid.binding before.length issues).message =
        s!"Invalid binding at index {before.length}: {Schema.unspecified}"
  read : ∀ bindings, List.Forall₂ (fun v b => Binding.DescribedBy b v) values bindings →
    e.compileValues strict values = e.compile strict bindings

theorem compile_counted {strict : Bool} {bindings : List Binding} {rules : List Rule} {e : Engine}
    (compiled : (e.compile strict bindings).1 = .ok rules) :
    (e.compile strict bindings).2.shared.counters = { e.shared.counters with
      compiled := e.shared.counters.compiled + bindings.length
      dead := e.shared.counters.dead + bindings.countP fun b => b.Dead } ∧
    (e.compile strict bindings).2.deadWarnings =
      e.deadWarnings + bindings.countP fun b => b.Dead := by
  obtain ⟨rfl, -, -⟩ := compile_rules (Prod.ext compiled rfl)
  rw [compile_fst] at compiled
  rw [compile_ok compiled, Binding.countP_dead]
  refine ⟨by simp [Counters.recordCompiled], ?_⟩
  simp [deadWarnings, List.countP_append, Nat.add_comm]

theorem compilation (bindings : List Binding) (e : Engine) : Compilation bindings e where
  tolerant := by
    refine ⟨bindings.map Binding.rule, (compile_fst e false bindings).trans rfl, ?_⟩
    rw [List.forall₂_map_right_iff]
    exact List.forall₂_same.mpr fun b _ => ⟨rfl, b.action, rfl⟩
  append more := by
    simp only [compile_fst, Binding.compile_tolerant]
    exact ⟨_, _, rfl, rfl, by rw [List.map_append]⟩
  strict_iff := by
    simp only [compile_fst, Binding.compile_eq_ok_iff, Binding.isDead_eq_false_iff,
      forall_const]
  alike alive := by
    rw [compile_ok (Binding.compile_alive alive), compile_ok (Binding.compile_tolerant bindings)]
  refused before b after split alive dead := by
    subst split
    have refused := Binding.compile_dead alive dead after
    refine ⟨_, Binding.validate_dead alive dead after, rfl, rfl,
      (compile_fst e true _).trans refused, ?_⟩
    simp only [compile, refused]
    rfl
  counted strict rules := compile_counted

theorem valueCompilation (strict : Bool) (values : List Value) (e : Engine) :
    ValueCompilation strict values e where
  refused before v after split readable unreadable := by
    subst split
    cases checked : Binding.check v with
    | ok b => exact absurd ⟨b, Binding.check_eq_ok_iff.mp checked⟩ unreadable
    | error issues =>
      refine ⟨issues, rfl, ?_, rfl⟩
      rw [compileValues, Binding.checkList_refused readable checked, Nat.zero_add]
  read bindings described := by
    rw [compileValues, Binding.checkList_described described]

/-- A strict compilation differs from a tolerant one in refusing dead bindings, and only in that;
bindings that are given as values are compiled once all of them have been read. -/
theorem strict_refuses_dead (e : Engine) :
    (∀ bindings, Compilation bindings e) ∧ ∀ strict values, ValueCompilation strict values e :=
  ⟨fun bindings => compilation bindings e, fun strict values => valueCompilation strict values e⟩

end Engine
end Patchbay
