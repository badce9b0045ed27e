import Patchbay.Proofs.Engine.Effects

/-!
# What runs do not depend on

Nothing that runs can look at the log, at the counters or, unless it fires triggers, at the rules.
Two engines that differ in no more than these are *alike*, and a quiet program comes to the same
end in both and leaves them alike: `Engine.run_indifferent`.
-/

namespace Patchbay.Engine

/-- The other engine differs in its log, its counters and its rules at most. -/
def Alike (e other : Engine) : Prop :=
  ∃ lines counters rules, other =
    { e with shared.lines := lines, shared.counters := counters, page.rules := rules }

theorem Alike.refl (e : Engine) : Alike e e :=
  ⟨_, _, _, rfl⟩

theorem Alike.trans {first second third : Engine} (earlier : Alike first second)
    (later : Alike second third) : Alike first third := by
  obtain ⟨lines, counters, rules, rfl⟩ := earlier
  obtain ⟨lines, counters, rules, rfl⟩ := later
  exact ⟨_, _, _, rfl⟩

theorem Alike.symm {e other : Engine} (alike : Alike e other) : Alike other e := by
  obtain ⟨lines, counters, rules, rfl⟩ := alike
  exact ⟨_, _, _, rfl⟩

theorem Alike.board {e other : Engine} (alike : Alike e other) : other.board = e.board := by
  obtain ⟨lines, counters, rules, rfl⟩ := alike
  rfl

/-- What changes nothing else keeps alike what is alike. -/
theorem Alike.map {e other : Engine} (alike : Alike e other) {f : Engine → Engine}
    (indifferent : ∀ e lines counters rules, Alike (f e)
      (f { e with shared.lines := lines, shared.counters := counters, page.rules := rules })) :
    Alike (f e) (f other) := by
  obtain ⟨lines, counters, rules, rfl⟩ := alike
  exact indifferent e lines counters rules

theorem Alike.log {e other : Engine} (alike : Alike e other) (level : Log.Level) (event : String)
    (fields : List (String × Value)) :
    Alike (e.log level event fields) (other.log level event fields) :=
  alike.map (f := fun e => e.log level event fields) fun _ _ _ _ => ⟨_, _, _, rfl⟩

theorem Alike.withStore {e other : Engine} (alike : Alike e other) (store : Store) :
    Alike (e.withStore store) (other.withStore store) :=
  alike.map (f := fun e => e.withStore store) fun _ _ _ _ => ⟨_, _, _, rfl⟩

theorem Alike.updateWidget {e other : Engine} (alike : Alike e other) (ref : Nat)
    (f : Widget → Widget) : Alike (e.updateWidget ref f) (other.updateWidget ref f) :=
  alike.map (f := fun e => e.updateWidget ref f) fun _ _ _ _ => ⟨_, _, _, rfl⟩

/-- A way to run quiet programs that cannot tell engines apart that are alike. -/
def Indifferent (run : Runner) : Prop :=
  ∀ p e other, p.Quiet → e.board.store.Within False → Alike e other →
    (run p other).1 = (run p e).1 ∧ Alike (run p e).2 (run p other).2

theorem redraw_alike {e other : Engine} (alike : Alike e other) (ref : Nat) :
    (∃ fault, e.redraw ref = .error fault ∧ other.redraw ref = .error fault) ∨
      ∃ after later, e.redraw ref = .ok after ∧ other.redraw ref = .ok later ∧
        Alike after later := by
  unfold redraw
  rw [alike.board]
  cases e.board.widgets[ref]? with
  | none => exact .inr ⟨e, other, rfl, rfl, alike⟩
  | some w =>
    dsimp only
    cases w.render (e.board.store.get w.id) with
    | error fault => exact .inl ⟨fault, rfl, rfl⟩
    | ok view => exact .inr ⟨_, _, rfl, rfl, alike.updateWidget ref _⟩

theorem foldl_alike {α : Type} (f : Engine → α → Engine) (xs : List α)
    (step : ∀ a ∈ xs, ∀ e other, e.board.store.Within False → Alike e other →
      Effects False e (f e a) ∧ Alike (f e a) (f other a))
    {e other : Engine} (store : e.board.store.Within False) (alike : Alike e other) :
    Alike (xs.foldl f e) (xs.foldl f other) := by
  -- Both engines take the same step and stay alike. Who watches is asked of the first only.
  induction xs generalizing e other with
  | nil => exact alike
  | cons a rest ih =>
    obtain ⟨effects, after⟩ := step a List.mem_cons_self e other store alike
    exact ih (fun b member => step b (List.mem_cons_of_mem a member)) (effects.within store) after

theorem notifyWith_alike {run : Runner} (indifferent : Indifferent run) (id : String)
    (value : Value) {o : Observer} (quiet : o.Within False)
    {e other : Engine} (store : e.board.store.Within False) (alike : Alike e other) :
    Alike (e.notifyWith run id value o) (other.notifyWith run id value o) := by
  cases o with
  | view ref =>
    simp only [notifyWith]
    rcases redraw_alike alike ref with ⟨fault, failed, alsoFailed⟩ |
      ⟨after, later, drawn, alsoDrawn, same⟩
    · rw [failed, alsoFailed]
      exact alike.log _ _ _
    · rw [drawn, alsoDrawn]
      exact same
  | custom name react =>
    -- The observer's program ends the same way in both, so both log its fault or neither does.
    have ends := indifferent (react id value) e other (quiet id value) store alike
    simp only [notifyWith]
    cases first : run (react id value) e with
    | mk stop after =>
      cases second : run (react id value) other with
      | mk alsoStop later =>
        rw [first, second] at ends
        obtain ⟨rfl, same⟩ := ends
        cases alsoStop with
        | failed fault => exact same.log _ _ _
        | done | deferred | paused => exact same

section

variable {run : Runner} (chains : Chains False run) (indifferent : Indifferent run)
include chains indifferent

theorem writeWith_alike (id : String) (value : Value) {e other : Engine}
    (store : e.board.store.Within False) (alike : Alike e other) :
    Alike (e.writeWith run id value) (other.writeWith run id value) := by
  have written := alike.withStore (e.board.store.set id value)
  simp only [writeWith, announceWith, alike.board]
  refine foldl_alike _ _ (fun o member _ _ within same => ?_) store written
  have quiet : o.Within False := store id o member
  exact ⟨notifyWith_effects chains id _ _ o quiet within,
    notifyWith_alike indifferent id _ quiet within same⟩

theorem runWith_indifferent : Indifferent (Program.runWith run) := by
  intro p
  -- The log and the counters are never read, so every step sees the same in both engines.
  induction p with
  | done | fail | defer | pause => exact fun e other _ _ alike => ⟨rfl, alike⟩
  | report what next ih =>
    rintro e other ⟨⟩ store alike
    next rest =>
      have reported := alike.map (f := fun e => e.report what) fun _ _ _ _ => ⟨_, _, _, rfl⟩
      exact ih _ _ rest store reported
  | log level event fields next ih =>
    rintro e other ⟨⟩ store alike
    next rest => exact ih _ _ rest store (alike.log level event fields)
  | askVars next ih =>
    rintro e other ⟨⟩ store alike
    next rest =>
      have vars : other.shared.vars = e.shared.vars := by
        obtain ⟨lines, counters, rules, rfl⟩ := alike
        rfl
      simp only [Program.runWith, vars]
      exact ih _ _ _ (rest _) store alike
  | read id next ih =>
    rintro e other ⟨⟩ store alike
    next rest =>
      simp only [Program.runWith, alike.board]
      exact ih _ _ _ (rest _) store alike
  | write id value next ih =>
    rintro e other ⟨⟩ store alike
    next rest =>
      have within := (writeWith_effects chains id value e store).within store
      exact ih _ _ rest within (writeWith_alike chains indifferent id value store alike)
  | writeProperty id name value next ih =>
    rintro e other ⟨⟩ store alike
    next rest =>
      have within := (writeWith_effects chains id
        ((e.board.store.get id).withProperty name value) e store).within store
      have written := writeWith_alike chains indifferent id
        ((e.board.store.get id).withProperty name value) store alike
      refine ih _ _ rest within ?_
      simpa only [writePropertyWith, writeWith, Store.setProperty, alike.board] using written
  | unsubscribe handle next ih =>
    rintro e other ⟨⟩ store alike
    next rest =>
      simp only [Program.runWith, alike.board]
      cases Entries.get? handle e.board.handles with
      | none => exact ⟨rfl, alike⟩
      | some s =>
        have effect : Effect False e (e.withStore (e.board.store.unsubscribe s)) :=
          .unsubscribe e s
        exact ih _ _ rest (Effects.within (.single effect) store) (alike.withStore _)
  | draw chart next ih =>
    rintro e other ⟨⟩ store alike
    next rest =>
      have random : other.shared.random = e.shared.random := by
        obtain ⟨lines, counters, rules, rfl⟩ := alike
        rfl
      simp only [Program.runWith, alike.board, random]
      exact ih _ _ _ (rest _) store (alike.updateWidget chart _)
  | dispatch trigger context next ih =>
    -- The one step that would look at the rules.
    rintro e other ⟨⟩
    next allowed _ => exact allowed.elim

end

/-- Quiet runs do not depend on the log, the counters and the rules, at any depth of nesting. -/
theorem runAt_indifferent (depth : Nat) : Indifferent (Program.runAt depth) := by
  induction depth with
  | zero => exact fun p e other _ _ alike => ⟨rfl, alike⟩
  | succ depth ih => exact runWith_indifferent (runAt_chains False depth) ih

theorem run_indifferent : Indifferent Program.run :=
  runAt_indifferent nestingLimit

/-! ## The stages of an action -/

theorem noteUnresolved_alike (e : Engine) (tokens : List String) :
    Alike e (e.noteUnresolved tokens) := by
  unfold noteUnresolved
  induction tokens generalizing e with
  | nil => exact .refl e
  | cons token rest ih => exact .trans ⟨_, _, _, rfl⟩ (ih _)

theorem supersede_alike {e other : Engine} (alike : Alike e other) (target : String) :
    Alike (e.supersede target) (other.supersede target) := by
  obtain ⟨lines, counters, rules, rfl⟩ := alike
  unfold supersede
  dsimp only
  cases Entries.get? target e.board.inFlight with
  | none => exact ⟨_, _, _, rfl⟩
  | some ref =>
    dsimp only
    cases e.board.tasks[ref]? with
    | none => exact ⟨_, _, _, rfl⟩
    | some previous =>
      dsimp only
      split
      · exact ⟨_, _, _, rfl⟩
      · exact ⟨_, _, _, rfl⟩

theorem occupy_alike {e other : Engine} (alike : Alike e other) (target : String) (ref : Nat) :
    Alike (e.occupy target ref) (other.occupy target ref) := by
  unfold occupy
  rw [alike.board]
  split
  · have superseded := supersede_alike alike target
    exact superseded.map
      (f := fun e => { e with board.inFlight := Entries.put target ref e.board.inFlight })
      fun _ _ _ _ => ⟨_, _, _, rfl⟩
  · exact alike

theorem schedule_alike {e other : Engine} (alike : Alike e other) (body : Program)
    (action : Action) (id : String) :
    Alike (e.schedule body action id) (other.schedule body action id) := by
  -- whether a loop is running is no difference between the two
  have loop : other.shared.loop = e.shared.loop := by
    obtain ⟨lines, counters, rules, rfl⟩ := alike
    rfl
  unfold schedule
  rw [loop, alike.board]
  split
  · exact alike.map (f := fun e => (e.record .noLoop).log .warning "async_handler_without_loop"
      (actionFields action)) fun _ _ _ _ => ⟨_, _, _, rfl⟩
  · have added := alike.map (f := fun e => e.addTask (e.taskOf body action id))
      fun _ _ _ _ => ⟨_, _, _, rfl⟩
    exact (occupy_alike added action.target _).map (f := fun e => e.record .scheduled)
      fun _ _ _ _ => ⟨_, _, _, rfl⟩

theorem conclude_alike {e other : Engine} (alike : Alike e other) (dispatchId : String)
    (action : Action) (stop : Stop) :
    Alike (e.conclude dispatchId action stop) (other.conclude dispatchId action stop) := by
  cases stop with
  | failed fault =>
    exact alike.map (f := fun e => e.conclude dispatchId action (.failed fault))
      fun _ _ _ _ => ⟨_, _, _, rfl⟩
  | done result =>
    exact alike.map (f := fun e => e.conclude dispatchId action (.done result))
      fun _ _ _ _ => ⟨_, _, _, rfl⟩
  | deferred coroutine body => exact schedule_alike alike body action dispatchId
  | paused rest => exact schedule_alike alike rest action dispatchId

end Patchbay.Engine
