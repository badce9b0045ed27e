import Patchbay.Proofs.Engine.Accounting
import Patchbay.Proofs.Log.Nesting
import Patchbay.Proofs.Widget.Handling

/-!
# Log variables of nested dispatches

A dispatch binds its trigger and its id while its handlers are called, and they may dispatch in
turn. Whatever is called, at any depth and after any failures, sees the trigger and the id of the
dispatch that it is called in, and in the end the variables are as they were found
(`Engine.contexts_restored`).
-/

namespace Patchbay

open Relation (ReflTransGen)

/-! ## Programs effect by effect -/

namespace Program

/-- The next effect of a program, with what is left to be run. There is none where a program ends or
stops. -/
def advance (nested : Runner) : Program → Engine → Option (Program × Engine)
  | .done _, _ => none
  | .fail _, _ => none
  | .defer _ _, _ => none
  | .pause _, _ => none
  | .report what next, e => some (next, e.report what)
  | .log level event fields next, e => some (next, e.log level event fields)
  | .askVars next, e => some (next e.shared.vars, e)
  | .read id next, e => some (next (e.board.store.get id), e)
  | .write id value next, e => some (next, e.writeWith nested id value)
  | .writeProperty id name value next, e => some (next, e.writePropertyWith nested id name value)
  | .unsubscribe handle next, e =>
    match Entries.get? handle e.board.handles with
    | none => some (.fail (.missing handle), e)
    | some s => some (next, e.withStore (e.board.store.unsubscribe s))
  | .draw chart next, e =>
    let count := (e.board.widgets[chart]?.map Widget.drawn).getD 0
    some (next (e.shared.random chart count),
      e.updateWidget chart fun w => { w with drawn := w.drawn + 1 })
  | .dispatch trigger context next, e => some (next, e.dispatchWith nested trigger context)

/-- Where a program has no next effect, its run is over and has changed nothing. -/
theorem runWith_of_ended {nested : Runner} {p : Program} {e : Engine}
    (ended : p.advance nested e = none) : (p.runWith nested e).2 = e := by
  cases p with
  | done | fail | defer | pause => rfl
  | unsubscribe handle next =>
    simp only [advance] at ended
    split at ended <;> cases ended
  | report | log | askVars | read | write | writeProperty | draw | dispatch => cases ended

/-- To run a program is to do its effects one after another. For what holds of every run it is
enough to look at runs that are over, and at the next effect of the others. -/
theorem advance_induction (nested : Runner) {holds : Program → Engine → Prop}
    (ended : ∀ p e, p.advance nested e = none → holds p e)
    (goes : ∀ p e rest after, p.advance nested e = some (rest, after) →
      p.runWith nested e = rest.runWith nested after → holds rest after → holds p e) :
    ∀ p e, holds p e := by
  intro p
  induction p with
  | done | fail | defer | pause => exact fun e => ended _ e rfl
  | report what next ih => exact fun e => goes _ e _ _ rfl rfl (ih _)
  | log level event fields next ih => exact fun e => goes _ e _ _ rfl rfl (ih _)
  | askVars next ih => exact fun e => goes _ e _ _ rfl rfl (ih _ _)
  | read id next ih => exact fun e => goes _ e _ _ rfl rfl (ih _ _)
  | write id value next ih => exact fun e => goes _ e _ _ rfl rfl (ih _)
  | writeProperty id name value next ih => exact fun e => goes _ e _ _ rfl rfl (ih _)
  | unsubscribe handle next ih =>
    intro e
    cases found : Entries.get? handle e.board.handles with
    | none =>
      exact goes _ e (.fail (.missing handle)) e (by simp only [advance, found])
        (by simp only [runWith, found]) (ended _ e rfl)
    | some s =>
      exact goes _ e _ _ (by simp only [advance, found]; rfl) (by simp only [runWith, found])
        (ih _)
  | draw chart next ih => exact fun e => goes _ e _ _ rfl rfl (ih _ _)
  | dispatch trigger context next ih => exact fun e => goes _ e _ _ rfl rfl (ih _)

end Program

namespace Engine

/-! ## What is bound -/

/-- No log variable is bound twice. -/
def VarsDistinct (e : Engine) : Prop :=
  (Entries.keys e.shared.vars).Nodup

/-- The same log variables are bound as before, to the same values. -/
structure SameVars (e after : Engine) : Prop where
  distinct : after.VarsDistinct
  same : ∀ name, Entries.get? name after.shared.vars = Entries.get? name e.shared.vars

theorem SameVars.of_eq {e after : Engine} (distinct : e.VarsDistinct)
    (same : after.shared.vars = e.shared.vars) : SameVars e after :=
  ⟨by rwa [VarsDistinct, same], fun name => by rw [same]⟩

theorem SameVars.trans {first second third : Engine} (earlier : SameVars first second)
    (later : SameVars second third) : SameVars first third :=
  ⟨later.distinct, fun name => (later.same name).trans (earlier.same name)⟩

theorem foldl_sameVars {α : Type} {f : Engine → α → Engine}
    (step : ∀ e : Engine, e.VarsDistinct → ∀ a, SameVars e (f e a)) (xs : List α) {e : Engine}
    (distinct : e.VarsDistinct) : SameVars e (xs.foldl f e) :=
  List.foldlRecOn (motive := SameVars e) _ _ (.of_eq distinct rfl)
    fun between same a _ => same.trans (step between same.distinct a)

theorem supersede_vars (e : Engine) (target : String) :
    (e.supersede target).shared.vars = e.shared.vars := by
  rcases supersede_cases e target with same | ⟨ref, -, same⟩ <;> rw [same]
  rfl

theorem schedule_vars (e : Engine) (body : Program) (action : Action) (id : String) :
    (e.schedule body action id).shared.vars = e.shared.vars := by
  unfold schedule occupy
  split
  · rfl
  · split
    · exact supersede_vars (e.addTask (e.taskOf body action id)) action.target
    · rfl

theorem conclude_vars (dispatchId : String) (action : Action) (e : Engine) (stop : Stop) :
    (e.conclude dispatchId action stop).shared.vars = e.shared.vars := by
  cases stop with
  | failed | done => rfl
  | deferred coroutine body => exact schedule_vars e body action dispatchId
  | paused rest => exact schedule_vars e rest action dispatchId

theorem calling_vars (e : Engine) (context : Value) (action : Action) :
    (e.calling context action).shared.vars = e.shared.vars := by
  obtain ⟨lines, unresolved, called⟩ := e.calling_eq context action
  rw [called]

theorem beginDispatch_vars (e : Engine) (trigger : String) :
    (e.beginDispatch trigger).shared.vars = (e.bindDispatch trigger).2 := by
  obtain ⟨lines, begun⟩ := e.beginDispatch_eq trigger
  rw [begun]

/-! ## Dispatches -/

/-- A dispatch that a program runs in. -/
structure Frame where
  trigger : String
  id : String

/-- What a dispatch binds. -/
def Frame.own (f : Frame) : List (String × Value) :=
  [("dispatch_id", .text f.id), ("trigger", .text f.trigger)]

theorem Frame.nodup_own (f : Frame) : (Entries.keys f.own).Nodup := by
  simp [Frame.own, Entries.keys]

/-- The dispatch of a trigger that begins now. -/
def frame (e : Engine) (trigger : String) : Frame :=
  ⟨trigger, e.nextDispatchId⟩

theorem beginDispatch_clear {e : Engine} (distinct : e.VarsDistinct) (trigger : String) :
    (e.beginDispatch trigger).VarsDistinct := by
  rw [VarsDistinct, beginDispatch_vars]
  exact Log.Binder.nodup_enter _ distinct

theorem get?_beginDispatch (e : Engine) (trigger name : String) :
    Entries.get? name (e.beginDispatch trigger).shared.vars =
      (Entries.get? name (e.frame trigger).own).or (Entries.get? name e.shared.vars) := by
  rw [beginDispatch_vars]
  exact Log.Binder.get?_enter (e.frame trigger).nodup_own _ name

/-- However the variables have changed in between, a dispatch restores them if the change is undone
by then. -/
theorem endDispatch_sameVars {e after : Engine} (distinct : e.VarsDistinct) (trigger : String)
    (same : SameVars (e.beginDispatch trigger) after) :
    SameVars e (endDispatch e trigger after) where
  distinct := Log.Binder.nodup_exit _ same.distinct
  same := by
    refine Log.Binder.get?_exit_enter (e.frame trigger).nodup_own distinct fun name => ?_
    rw [same.same, beginDispatch_vars]
    rfl

/-- A way to run programs that leaves the variables as they are. -/
def Restores (run : Runner) : Prop :=
  ∀ p (e : Engine), e.VarsDistinct → SameVars e (run p e).2

section

variable {run : Runner} (restores : Restores run)
include restores

theorem notifyWith_sameVars (id : String) (value : Value) (e : Engine) (distinct : e.VarsDistinct)
    (o : Observer) : SameVars e (e.notifyWith run id value o) := by
  cases o with
  | view ref =>
    obtain ⟨-, keeps⟩ := notify_view run id value e ref
    exact .of_eq distinct (by rw [keeps.shared])
  | custom name react =>
    have ran := restores (react id value) e distinct
    simp only [notifyWith]
    split
    next fault after stopped =>
      rw [stopped] at ran
      exact ran.trans (.of_eq ran.distinct rfl)
    next stop after _ stopped => rwa [stopped] at ran

theorem writeWith_sameVars (id : String) (value : Value) (e : Engine) (distinct : e.VarsDistinct) :
    SameVars e (e.writeWith run id value) := by
  rw [writeWith_eq]
  have stored : SameVars e (e.storing id value) := .of_eq distinct rfl
  exact stored.trans (foldl_sameVars (notifyWith_sameVars restores id value) _ stored.distinct)

theorem runActionWith_sameVars (context : Value) (dispatchId : String) (e : Engine)
    (distinct : e.VarsDistinct) (action : Action) :
    SameVars e (e.runActionWith run context dispatchId action) := by
  have called : SameVars e (e.calling context action) :=
    .of_eq distinct (e.calling_vars context action)
  refine called.trans ?_
  change SameVars _ ((e.calling context action).carryOutWith run dispatchId action
    ((e.scope context).resolveAll action.args).outcome)
  cases ((e.scope context).resolveAll action.args).outcome with
  | error fault => exact .of_eq called.distinct rfl
  | ok args =>
    simp only [carryOutWith]
    split
    · exact .of_eq called.distinct rfl
    next r _ =>
      -- whether the handler fails or not, it has restored the variables
      have ran := restores (r.handler.call (.record args)) _ called.distinct
      exact ran.trans (.of_eq ran.distinct (conclude_vars dispatchId action _ _))

theorem actions_sameVars (context : Value) (dispatchId : String) (actions : List Action)
    {e : Engine} (distinct : e.VarsDistinct) :
    SameVars e (actions.foldl (runActionWith run context dispatchId) e) :=
  foldl_sameVars (runActionWith_sameVars restores context dispatchId) actions distinct

theorem dispatchWith_sameVars (trigger : String) (context : Value) (e : Engine)
    (distinct : e.VarsDistinct) : SameVars e (e.dispatchWith run trigger context) :=
  endDispatch_sameVars distinct trigger
    (actions_sameVars restores context e.nextDispatchId (e.actionsOn trigger)
      (beginDispatch_clear distinct trigger))

/-- No single effect changes what is bound once it is over. -/
theorem advance_sameVars {p rest : Program} {e after : Engine} (distinct : e.VarsDistinct)
    (goes : p.advance run e = some (rest, after)) : SameVars e after := by
  cases p with
  | done | fail | defer | pause => cases goes
  | report | log | askVars | read | draw =>
    cases goes
    exact .of_eq distinct rfl
  | write id value next =>
    cases goes
    exact writeWith_sameVars restores id value e distinct
  | writeProperty id name value next =>
    cases goes
    exact writeWith_sameVars restores id ((e.board.store.get id).withProperty name value) e distinct
  | unsubscribe handle next =>
    simp only [Program.advance] at goes
    split at goes
    · cases goes
      exact .of_eq distinct rfl
    · cases goes
      exact .of_eq distinct rfl
  | dispatch trigger context next =>
    cases goes
    exact dispatchWith_sameVars restores trigger context e distinct

theorem runWith_restores : Restores (Program.runWith run) := by
  refine Program.advance_induction run (fun p e ended distinct => ?_)
    fun p e rest after goes same ih distinct => ?_
  · exact .of_eq distinct (by rw [Program.runWith_of_ended ended])
  · rw [same]
    have advanced := advance_sameVars restores distinct goes
    exact advanced.trans (ih advanced.distinct)

end

theorem runAt_restores (depth : Nat) : Restores (Program.runAt depth) := by
  induction depth with
  | zero => exact fun p e distinct => .of_eq distinct rfl
  | succ depth ih => exact runWith_restores ih

/-! ## Everything that is called -/

/-- A program about to be run, the dispatches that it runs in, the innermost first, and how deep it
may set off others. -/
structure Moment where
  depth : Nat
  frames : List Frame
  program : Program
  engine : Engine

/-- What a program is about to write. -/
def writing? (e : Engine) : Program → Option (String × Value)
  | .write id value _ => some (id, value)
  | .writeProperty id name value _ => some (id, (e.board.store.get id).withProperty name value)
  | _ => none

/-- The state in which a dispatch comes to an action, after the actions before it. -/
def atAction (depth : Nat) (trigger : String) (context : Value) (before : List Action)
    (e : Engine) : Engine :=
  before.foldl (runActionWith (Program.runAt depth) context e.nextDispatchId)
    (e.beginDispatch trigger)

/-- A program goes on with its next effect; or it dispatches, and the handler of an action is
called; or it writes, and an observer is called. -/
inductive Leads : Moment → Moment → Prop
  | goes {depth : Nat} {frames : List Frame} {p rest : Program} {e after : Engine}
    (goes : p.advance (Program.runAt depth) e = some (rest, after)) :
    Leads ⟨depth + 1, frames, p, e⟩ ⟨depth + 1, frames, rest, after⟩
  | handler {depth : Nat} {frames : List Frame} {trigger : String} {context : Value}
    {next : Program} {e : Engine} {before after : List Action} {action : Action}
    {args : Entries String Value} {r : Registration}
    (actions : e.actionsOn trigger = before ++ action :: after)
    (resolved : (((e.atAction depth trigger context before).scope context).resolveAll
      action.args).outcome = .ok args)
    (known : (e.atAction depth trigger context before).board.registry.lookup action.target
      action.type = some r) :
    Leads ⟨depth + 1, frames, .dispatch trigger context next, e⟩
      ⟨depth, e.frame trigger :: frames, r.handler.call (.record args),
        (e.atAction depth trigger context before).calling context action⟩
  | observer {depth : Nat} {frames : List Frame} {p : Program} {e : Engine} {id name : String}
    {value : Value} {before after : List Observer} {react : String → Value → Program}
    (writes : e.writing? p = some (id, value))
    (observers : e.board.store.observersOf id = before ++ .custom name react :: after) :
    Leads ⟨depth + 1, frames, p, e⟩ ⟨depth, frames, react id value,
      before.foldl (notifyWith (Program.runAt depth) id value) (e.storing id value)⟩

/-- What is bound where a program is about to be run: what the innermost dispatch binds, and under
all other names what was bound at the start. What is bound is the same once it has been run. -/
structure Sees (start : Engine) (m : Moment) : Prop where
  distinct : m.engine.VarsDistinct
  own : ∀ f outer, m.frames = f :: outer →
    Entries.get? "dispatch_id" m.engine.shared.vars = some (.text f.id) ∧
      Entries.get? "trigger" m.engine.shared.vars = some (.text f.trigger)
  others : ∀ name, m.frames = [] ∨ name ≠ "dispatch_id" ∧ name ≠ "trigger" →
    Entries.get? name m.engine.shared.vars = Entries.get? name start.shared.vars
  restored : SameVars m.engine (m.program.runAt m.depth m.engine).2

theorem Sees.of_clear {e : Engine} (distinct : e.VarsDistinct) (depth : Nat) (p : Program) :
    Sees e ⟨depth, [], p, e⟩ where
  distinct := distinct
  own _ _ none := nomatch none
  others _ _ := rfl
  restored := runAt_restores depth p e distinct

/-- In the same dispatches, the same is seen. -/
theorem Sees.within {start : Engine} {m : Moment} (sees : Sees start m) {e : Engine}
    (same : SameVars m.engine e) (depth : Nat) (p : Program) :
    Sees start ⟨depth, m.frames, p, e⟩ where
  distinct := same.distinct
  own f outer frames := by
    rw [same.same, same.same]
    exact sees.own f outer frames
  others name other := by
    rw [same.same]
    exact sees.others name other
  restored := runAt_restores depth p e same.distinct

/-- In a dispatch of its own, the dispatch itself is seen. -/
theorem Sees.dispatched {start : Engine} {m : Moment} (sees : Sees start m) {trigger : String}
    {e : Engine} (same : SameVars (m.engine.beginDispatch trigger) e) (depth : Nat)
    (p : Program) : Sees start ⟨depth, m.engine.frame trigger :: m.frames, p, e⟩ where
  distinct := same.distinct
  own f outer frames := by
    cases frames
    rw [same.same, same.same, get?_beginDispatch, get?_beginDispatch]
    exact ⟨rfl, rfl⟩
  others name other := by
    have apart : name ≠ "dispatch_id" ∧ name ≠ "trigger" := other.resolve_left nofun
    have unbound : Entries.get? name (m.engine.frame trigger).own = none := by
      simp [Frame.own, Entries.get?, Ne.symm apart.1, Ne.symm apart.2]
    rw [same.same, get?_beginDispatch, unbound, Option.none_or]
    exact sees.others name (.inr apart)
  restored := runAt_restores depth p e same.distinct

theorem Leads.sees {start : Engine} {m later : Moment} (leads : Leads m later)
    (sees : Sees start m) : Sees start later := by
  cases leads with
  | @goes depth frames p rest e after goes =>
    exact sees.within (advance_sameVars (runAt_restores depth) sees.distinct goes) _ _
  | @handler depth frames trigger context next e before after action args r =>
    have reached := actions_sameVars (runAt_restores depth) context e.nextDispatchId before
      (beginDispatch_clear sees.distinct trigger)
    have called : SameVars (e.atAction depth trigger context before)
        ((e.atAction depth trigger context before).calling context action) :=
      .of_eq reached.distinct (calling_vars _ context action)
    exact sees.dispatched (reached.trans called) _ _
  | @observer depth frames p e id name value before after react =>
    have stored : SameVars e (e.storing id value) := .of_eq sees.distinct rfl
    exact sees.within (stored.trans (foldl_sameVars
      (notifyWith_sameVars (runAt_restores depth) id value) before stored.distinct)) _ _

/-- Contexts restore what was bound before them, under any nesting. So do dispatches, in which every
program that is called sees the variables of its own dispatch. -/
theorem contexts_restored :
    (∀ start : Log.Scene, start.Clear → ∀ crossings active,
      Log.activeAfter [] crossings = some active → start.Nested crossings active) ∧
    ∀ e : Engine, e.VarsDistinct →
      (∀ depth p m, ReflTransGen Leads ⟨depth, [], p, e⟩ m → Sees e m) ∧
      ∀ trigger context, SameVars e (e.dispatch trigger context) := by
  refine ⟨fun start distinct crossings active crossed => Log.Scene.nested distinct crossed,
    fun e distinct => ⟨fun depth p m leads => ?_, fun trigger context => ?_⟩⟩
  · induction leads with
    | refl => exact .of_clear distinct depth p
    | tail _ leads sees => exact leads.sees sees
  · exact dispatchWith_sameVars (runAt_restores nestingLimit) trigger context e distinct

/-- Two contexts that bind one name both, and another name each. -/
def overlapping : Log.Scene where
  vars := [("a", .int 1), ("d", .int 2)]
  contexts i :=
    if i = 0 then ⟨[("a", .int 3), ("b", .int 4)], []⟩ else ⟨[("b", .int 5), ("c", .int 6)], []⟩

/-- A page on which the handler of one trigger fires another one, and both handlers fail. -/
def relay : Engine where
  shared := {
    vars := [("trigger", .text "before"), ("user", .text "u")]
    loop := false
    random := fun _ _ => default }
  board := {
    registry := ⟨[
      (("a", "ask"), ⟨"a", "ask", ⟨false, fun _ =>
        .dispatch "second" .null (.fail (.missing "a"))⟩⟩),
      (("b", "fail"), ⟨"b", "fail", ⟨false, fun _ => .fail (.missing "b")⟩⟩)]⟩
    serialize := true }
  page := { rules := [⟨"first", [⟨"ask", "a", []⟩]⟩, ⟨"second", [⟨"fail", "b", []⟩]⟩] }

/-- A second entry of the second context is nested in the first one, and the handler that is called
in a dispatch inside of another sees the inner one. -/
theorem contexts_restored_relay :
    overlapping.Clear ∧
    Log.activeAfter [] [.enter 0, .enter 1, .exit 1, .enter 1] = some [1, 0] ∧
    overlapping.Nested [.enter 0, .enter 1, .exit 1, .enter 1] [1, 0] ∧
    relay.VarsDistinct ∧
    (∃ m, ReflTransGen Leads ⟨3, [], .dispatch "first" .null (.done .null), relay⟩ m ∧
      m.frames.map Frame.trigger = ["second", "first"] ∧ Sees relay m) ∧
    SameVars relay (relay.dispatch "first" .null) := by
  have clear : overlapping.Clear := by
    refine ⟨by decide, fun i => ?_⟩
    simp only [overlapping]
    split <;> decide
  have crossed : Log.activeAfter [] [.enter 0, .enter 1, .exit 1, .enter 1] = some [1, 0] := rfl
  have distinct : relay.VarsDistinct := by
    rw [VarsDistinct]
    decide
  obtain ⟨scenes, engines⟩ := contexts_restored
  obtain ⟨moments, dispatches⟩ := engines relay distinct
  refine ⟨clear, crossed, scenes overlapping clear _ _ crossed, distinct, ?_, dispatches _ _⟩
  have first := @Leads.handler 2 [] "first" .null (.done .null) relay [] [] ⟨"ask", "a", []⟩ []
    _ rfl rfl rfl
  have second := @Leads.handler 1 [relay.frame "first"] "second" .null (.fail (.missing "a"))
    ((relay.atAction 2 "first" .null []).calling .null ⟨"ask", "a", []⟩) [] []
    ⟨"fail", "b", []⟩ [] _ rfl rfl rfl
  have reached := (ReflTransGen.single first).tail second
  exact ⟨_, reached, rfl, moments _ _ _ reached⟩

end Engine
end Patchbay
