import Patchbay.Fault
import Patchbay.Log

/-!
# Programs

What a handler or an observer does, one effect after another. A program says nothing about the
state that it runs in; the engine runs it. Handlers are functions from their arguments to
programs, so any computation between two effects is allowed.
-/

namespace Patchbay

inductive Program where
  | done (result : Value)
  | fail (fault : Fault)
  /-- Ends and leaves a body to be run in the background. Coroutines can be closed unrun, other
  awaitable bodies cannot. -/
  | defer (coroutine : Bool) (body : Program)
  /-- Lets others go first. -/
  | pause (next : Program)
  /-- Tells the host of the page something. -/
  | report (what : Value) (next : Program)
  | log (level : Log.Level) (event : String) (fields : List (String × Value)) (next : Program)
  /-- Asks for the variables bound around log lines. -/
  | askVars (next : Log.Vars → Program)
  /-- Reads the value of a widget, null if it has none. -/
  | read (id : String) (next : Value → Program)
  | write (id : String) (value : Value) (next : Program)
  | writeProperty (id name : String) (value : Value) (next : Program)
  | unsubscribe (handle : String) (next : Program)
  | draw (chart : Nat) (next : Binary64 → Program)
  | dispatch (trigger : String) (context : Value) (next : Program)

namespace Program

instance : Inhabited Program := ⟨.done .null⟩

/-- Runs a second program after a first one, whose result is dropped. -/
def andThen : Program → Program → Program
  | .done _, p => p
  | .fail fault, _ => .fail fault
  | .defer _ _, p => p
  | .pause next, p => .pause (next.andThen p)
  | .report what next, p => .report what (next.andThen p)
  | .log level event fields next, p => .log level event fields (next.andThen p)
  | .askVars next, p => .askVars fun vars => (next vars).andThen p
  | .read id next, p => .read id fun value => (next value).andThen p
  | .write id value next, p => .write id value (next.andThen p)
  | .writeProperty id name value next, p => .writeProperty id name value (next.andThen p)
  | .unsubscribe handle next, p => .unsubscribe handle (next.andThen p)
  | .draw chart next, p => .draw chart fun x => (next x).andThen p
  | .dispatch trigger context next, p => .dispatch trigger context (next.andThen p)

def sequence (programs : List Program) : Program :=
  programs.foldr Program.andThen (.done .null)

def pauses : Nat → Program → Program
  | 0, p => p
  | n + 1, p => .pause (pauses n p)

/-- Goes on with a result that may be a fault. -/
def bind {α : Type} (result : Except Fault α) (next : α → Program) : Program :=
  match result with
  | .ok a => next a
  | .error fault => .fail fault

end Program

/-- An argument of a handler, null if it is not given. Arguments that are no map have none. -/
def argument (name : String) : Value → Except Fault Value
  | .map entries => .ok ((Entries.get? (Key.text name) entries).getD .null)
  | other => .error (.noAttribute other.kind.name "get")

structure Handler where
  /-- Whether each call leaves a coroutine behind. -/
  isAsync : Bool
  call : Value → Program

end Patchbay
