import Patchbay.Command
import Patchbay.Proofs.Document.Decoded
import Patchbay.Proofs.Json.Lines
import Patchbay.Proofs.Page.Firing
import Patchbay.Proofs.Page.Refusals

/-!
# What the command prints

The triggers of all arguments are fired before the event loop takes a turn. So in the store that is
printed, everything but the charts is as the triggers alone have left it, and a chart has points
exactly if one of them has asked for a refresh: `Command.run_outcome`. Which refreshes are cancelled
on the way makes no difference to that.
-/

namespace Patchbay

open Relation (ReflTransGen)

theorem Json.exists_map_of_readMap {text : String} {value : Value}
    (read : readMap text = .ok value) : ∃ entries, value = .map entries := by
  unfold readMap asMap at read
  split at read
  · split at read
    · cases read
      exact ⟨_, rfl⟩
    · cases read
  · cases read

namespace Command

/-! ## Arguments -/

/-- The name of the trigger that an argument fires: what stands before its first equals sign. -/
def triggerName (arg : String) : String :=
  String.ofList (arg.toList.takeWhile (· != '='))

/-- What stands behind the first equals sign of an argument. -/
def contextText? (arg : String) : Option String :=
  match arg.toList.dropWhile (· != '=') with
  | [] => none
  | _ :: rest => some (String.ofList rest)

/-- An argument gives no context, or a JSON map. -/
def WellFormed (arg : String) : Prop :=
  ∀ text, contextText? arg = some text → ∃ context, Json.readMap text = .ok context

instance : DecidablePred WellFormed := fun arg =>
  decidable_of_iff ((contextText? arg).all fun text => (Json.readMap text).isOk) <| by
    unfold WellFormed
    cases contextText? arg with
    | none => simp
    | some text => cases read : Json.readMap text <;> simp [read, Except.isOk, Except.toBool]

/-- The context that an argument gives, null if there is none. -/
def contextOf (arg : String) : Value :=
  match contextText? arg with
  | none => .null
  | some text =>
    match Json.readMap text with
    | .ok context => context
    | .error _ => .null

/-- What an argument asks for. -/
def asked (arg : String) : String × Value :=
  (triggerName arg, contextOf arg)

theorem parseTrigger_eq (arg : String) : parseTrigger arg =
    match contextText? arg with
    | none => .ok (triggerName arg, .null)
    | some text =>
      match Json.readMap text with
      | .ok context => .ok (triggerName arg, context)
      | .error cause => .error (.triggerContext (triggerName arg) cause) := by
  unfold parseTrigger contextText?
  dsimp only
  cases arg.toList.dropWhile (· != '=') <;> rfl

theorem parseTrigger_asked {arg : String} (formed : WellFormed arg) :
    parseTrigger arg = .ok (asked arg) := by
  rw [parseTrigger_eq, asked, contextOf]
  cases given : contextText? arg with
  | none => rfl
  | some text =>
    obtain ⟨context, read⟩ := formed text given
    simp only [read]

theorem parseTrigger_malformed {arg : String} (malformed : ¬WellFormed arg) :
    ∃ cause, parseTrigger arg = .error cause := by
  simp only [WellFormed, not_forall, not_exists] at malformed
  obtain ⟨text, given, unread⟩ := malformed
  simp only [parseTrigger_eq, given]
  cases read : Json.readMap text with
  | ok context => exact absurd read (unread context)
  | error cause => exact ⟨_, rfl⟩

/-- A trigger can be fired in every context that an argument gives. -/
theorem contextOf_fireable (arg : String) : Engine.Fireable (contextOf arg) := by
  unfold contextOf
  cases given : contextText? arg with
  | none => exact ⟨.inl rfl, nofun⟩
  | some text =>
    dsimp only
    cases read : Json.readMap text with
    | error cause => exact ⟨.inl rfl, nofun⟩
    | ok context =>
      have whole := Json.readMapOrRepair_of_readMap read false
      exact ⟨.inr (Json.exists_map_of_readMap read), Json.readMapOrRepair_encodable whole⟩

theorem contexts_fireable (args : List String) :
    ∀ t ∈ args.map asked, Engine.Fireable t.2 := by
  intro t member
  obtain ⟨arg, -, rfl⟩ := List.mem_map.mp member
  exact contextOf_fireable arg

/-! ## Firing all -/

/-- When no argument is refused, their triggers are fired one after another, and each chart that
they ask for gets a refresh scheduled. `other` is a page that differs in what does not matter. -/
theorem fireAll_fired {document : Document} (encodable : document.Encodable) {args : List String}
    (formed : ∀ arg ∈ args, WellFormed arg) {e other : Engine} (firing : e.Firing document)
    (firing' : other.Firing document) (twin : e.Twin other) :
    ∃ after, fireAll e args = (.ok (), after) ∧ after.Firing document ∧
      after.Twin (other.dispatchAll (args.map asked)) ∧
      ∀ id, id ∈ after.targets ↔ id ∈ e.targets ∨ ∃ arg ∈ args,
        ∃ action ∈ other.actionsOn (triggerName arg), action.Draws other.declared id := by
  induction args generalizing e other with
  | nil => exact ⟨e, rfl, firing, twin, by simp⟩
  | cons arg rest ih =>
    have read := parseTrigger_asked (formed arg List.mem_cons_self)
    have fireable := contextOf_fireable arg
    -- the line that is logged first makes no difference
    let logged := e.log .info "firing" [("trigger", .text (triggerName arg))]
    have firing_logged : logged.Firing document := firing.of_note rfl rfl rfl rfl
    have twin_logged : logged.Twin other := ⟨twin.declared, twin.rules, twin.values⟩
    obtain ⟨after, ends, last, alike, targets⟩ := ih
      (fun other member => formed other (List.mem_cons_of_mem _ member))
      (firing_logged.dispatch encodable (triggerName arg) fireable)
      (firing'.dispatch encodable (triggerName arg) fireable)
      (twin_logged.dispatch firing_logged firing' (triggerName arg) (contextOf arg))
    have steady := (Engine.dispatch_effects (triggerName arg) (contextOf arg) other).steady
    have declared : (other.dispatch (triggerName arg) (contextOf arg)).declared =
        other.declared := steady.declared
    refine ⟨after, ?_, last, alike, fun id => ?_⟩
    · simp only [fireAll, read, asked]
      exact ends
    · have here := firing_logged.sound.used.dispatch_targets encodable fireable
        firing_logged.loop (triggerName arg) id
      rw [twin_logged.actionsOn, twin_logged.declared] at here
      have before : logged.targets = e.targets := rfl
      rw [targets, here, before]
      simp only [declared, steady.actionsOn, List.exists_mem_cons_iff, or_assoc]

/-- An argument that is refused stops the command. -/
theorem fireAll_refused {args : List String} (malformed : ∃ arg ∈ args, ¬WellFormed arg)
    (e : Engine) : ∃ cause, (fireAll e args).1 = .error cause := by
  induction args generalizing e with
  | nil =>
    obtain ⟨arg, member, -⟩ := malformed
    cases member
  | cons arg rest ih =>
    unfold fireAll
    cases read : parseTrigger arg with
    | error cause => exact ⟨cause, rfl⟩
    | ok t =>
      refine ih ?_ _
      obtain ⟨other, member, bad⟩ := malformed
      rcases List.mem_cons.mp member with rfl | later
      · obtain ⟨cause, refused⟩ := parseTrigger_malformed bad
        cases read.symm.trans refused
      · exact ⟨other, later, bad⟩

/-! ## What is printed -/

/-- A run has ended regularly and has printed its store, on one line. -/
def Prints (ran : Except Crash Finish × Engine) : Prop :=
  ∃ line, Json.text? ran.2.board.store.snapshot 0 = some line ∧ '\n' ∉ line.toList ∧
    ran.1 = .ok ⟨0, line ++ "\n"⟩

/-- What the store holds after the triggers of arguments have been fired on a page and all refreshes
have been run. -/
structure Left (page : Engine) (args : List String) (values : Entries String Value) : Prop where
  /-- Charts aside, all is as it is when the triggers are fired one after another. -/
  others : ∀ id, page.Uncharted id → Entries.get? id values =
    Entries.get? id (page.dispatchAll (args.map asked)).board.store.values
  /-- A chart has an entry if one of the triggers is that of a rule that sets its value. -/
  charts : ∀ w ∈ page.declared, w.type = .chart → ((Entries.get? w.id values).isSome ↔
    ∃ arg ∈ args, ∃ rule ∈ page.page.rules, rule.trigger = triggerName arg ∧
      ∃ action ∈ rule.actions, action.type = "setValue" ∧ action.target = w.id)
  points : ∀ w ∈ page.declared, w.type = .chart → ∀ v,
    Entries.get? w.id values = some v → Engine.IsPoints v

theorem settle_sound {document : Document} {e : Engine} (encodable : document.Encodable)
    (sound : e.Sound document) (keyed : e.Keyed) :
    (Engine.eventLoop.settle e).Sound document ∧ (Engine.eventLoop.settle e).Keyed :=
  @EventLoop.settle_invariant Engine Engine.eventLoop (fun e => e.Sound document ∧ e.Keyed)
    (fun _ h => ⟨h.1.of_board rfl rfl, h.2⟩)
    (fun r e h => ⟨h.1.happens encodable (.turn r.turn e),
      (Engine.turn_turned h.1.used.orderly r.turn).keyed h.2⟩) e ⟨sound, keyed⟩

theorem unmount_values (ref : Nat) (e : Engine) :
    (e.unmount ref).board.store.values = e.board.store.values := by
  unfold Engine.unmount
  split <;> rfl

/-- A page that is closed leaves its values in the store. -/
theorem closePage_values (e : Engine) :
    e.closePage.board.store.values = e.board.store.values := by
  have all (refs : List Nat) (e : Engine) :
      (refs.foldl (fun e ref => e.unmount ref) e).board.store.values =
        e.board.store.values := by
    induction refs generalizing e with
    | nil => rfl
    | cons ref rest ih => exact (ih (e.unmount ref)).trans (unmount_values ref e)
  exact all (e.page.widgets.map Prod.snd) e

/-- Once there is a log, what the command does is to run the page of its file. -/
theorem run_of_usable {settings : Settings} (usable : Log.Usable settings.logLevel) (file : File)
    (args : List String) (e : Engine) : run settings file args e = runFile settings file args e := by
  obtain ⟨rank, shows⟩ := usable
  have sink : (logSetup settings).sink = .ok ⟨rank, settings.jsonLogs, .errors⟩ := by
    simp only [Log.Setup.sink, logSetup, shows, Except.map]
  rw [run, sink]

section

variable {settings : Settings} {bytes : ByteArray} {text : String} {start opened : Engine}
  (decoded : String.fromUTF8? bytes = some text)
  (opens : start.openDocument settings.strictBindings (Document.ofText settings.limits false
    (String.ofList (unifyLineEnds text.toList))) = (.ok (), opened))
include decoded opens

theorem runFile_prints {document : Document} (encodable : document.Encodable)
    (firing : opened.Firing document) (unasked : opened.targets = []) {page : Engine}
    (firing' : page.Firing document) (twin : opened.Twin page) {args : List String}
    (formed : ∀ arg ∈ args, WellFormed arg) :
    Prints (runFile settings (.content bytes) args start) ∧
      Left page args (runFile settings (.content bytes) args start).2.board.store.values := by
  obtain ⟨after, fired, last, alike, targets⟩ :=
    fireAll_fired encodable formed firing firing' twin
  obtain ⟨sound, keyed⟩ := settle_sound encodable last.sound last.keyed
  obtain ⟨others, charts, points⟩ := last.primed.settled last.sound.used.orderly sound.unfailed
  have written : Json.text? (Engine.eventLoop.settle after).board.store.snapshot 0 ≠ none :=
    fun none => sound.used.encodable_snapshot keyed ((Json.text?_eq_none_iff _ _).mp none)
  obtain ⟨line, printed⟩ := Option.ne_none_iff_exists'.mp written
  have ran : runFile settings (.content bytes) args start =
      (.ok ⟨0, line ++ "\n"⟩, (Engine.eventLoop.settle after).closePage) := by
    simp only [runFile, decoded, runPage, opens, fired, printed]
  have values := closePage_values (Engine.eventLoop.settle after)
  have snapshot : (Engine.eventLoop.settle after).closePage.board.store.snapshot =
      (Engine.eventLoop.settle after).board.store.snapshot := congrArg Value.record values
  rw [ran]
  refine ⟨⟨line, by rw [snapshot, printed], Json.text?_line printed, rfl⟩, ?_⟩
  rw [values]
  have declared : after.declared = page.declared :=
    alike.declared.trans (firing'.dispatchAll encodable (contexts_fireable args)).2
  constructor
  · intro id uncharted
    rw [others id (by rwa [Engine.Uncharted, declared]), alike.values]
  · intro w member chart
    rw [charts w (declared ▸ member) chart, targets, unasked]
    simp only [List.not_mem_nil, false_or, firing'.sound.used.draws_iff member chart]
  · intro w member chart
    exact points w (declared ▸ member) chart

theorem runFile_refuses {args : List String} (malformed : ∃ arg ∈ args, ¬WellFormed arg) :
    (runFile settings (.content bytes) args start).1 = .ok ⟨1, ""⟩ := by
  obtain ⟨cause, refused⟩ := fireAll_refused malformed opened
  cases fired : fireAll opened args with
  | mk result after =>
    rw [fired] at refused
    cases refused
    simp only [runFile, decoded, runPage, opens, fired, refuse]

end

/-! ## Both ways to run tasks -/

/-- A page that is opened by the command has an event loop. -/
theorem loop_of_opens {settings : Settings} {firstId : Nat} {random : Nat → Nat → Binary64}
    {strict : Bool} {document : Document} {page : Engine}
    (opens : (start settings firstId random).openDocument strict (.ok document) = (.ok (), page)) :
    page.shared.loop = true := by
  have kept := Engine.openDocument_loop strict document (start settings firstId random)
  rwa [opens] at kept

theorem start_blank (settings : Settings) (firstId : Nat) (random : Nat → Nat → Binary64) :
    (start settings firstId random).Blank :=
  ⟨rfl, rfl, rfl, rfl, rfl, rfl⟩

/-- A chart that one run has drawn, every run has drawn. -/
theorem Left.agree {page : Engine} {args : List String} {values values' : Entries String Value}
    (left : Left page args values) (left' : Left page args values') (id : String) :
    Entries.has id values = Entries.has id values' ∧
      (page.Uncharted id → Entries.get? id values = Entries.get? id values') := by
  have others (uncharted : page.Uncharted id) : Entries.get? id values = Entries.get? id values' :=
    (left.others id uncharted).trans (left'.others id uncharted).symm
  refine ⟨?_, others⟩
  by_cases uncharted : page.Uncharted id
  · rw [Entries.has, Entries.has, others uncharted]
  · simp only [Engine.Uncharted, not_forall, not_not] at uncharted
    obtain ⟨w, member, chart, rfl⟩ := uncharted
    exact Bool.eq_iff_iff.mpr
      ((left.charts w member chart).trans (left'.charts w member chart).symm)

/-- Two arguments that have the same chart refreshed. -/
def pollArgs : List String :=
  ["t.onChange", "t.onChange=\x7b\x7d"]

/-- The opening of that page by the command. -/
def pollOpened : Except Fault Unit × Engine :=
  (start .standard 0 fun _ _ => default).openDocument Settings.standard.strictBindings
    (Document.ofText Settings.standard.limits false
      (String.ofList (unifyLineEnds Engine.pollText.toList)))

end Command
end Patchbay
