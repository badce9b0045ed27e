import Patchbay.Engine.Dispatch

/-!
# Running programs

A program is run effect by effect. A write or a dispatch on the way runs other programs inside it,
so running is bounded by how deep programs may be nested; a program nested deeper fails.
-/

namespace Patchbay

/-- Runs a program. `nested` runs the programs of observers and handlers that it sets off. -/
def Program.runWith (nested : Runner) : Program → Engine → Stop × Engine
  | .done result, e => (.done result, e)
  | .fail fault, e => (.failed fault, e)
  | .defer coroutine body, e => (.deferred coroutine body, e)
  | .pause next, e => (.paused next, e)
  | .report what next, e => next.runWith nested (e.report what)
  | .log level event fields next, e => next.runWith nested (e.log level event fields)
  | .askVars next, e => (next e.shared.vars).runWith nested e
  | .read id next, e => (next (e.board.store.get id)).runWith nested e
  | .write id value next, e => next.runWith nested (e.writeWith nested id value)
  | .writeProperty id name value next, e =>
    next.runWith nested (e.writePropertyWith nested id name value)
  | .unsubscribe handle next, e =>
    match Entries.get? handle e.board.handles with
    | none => (.failed (.missing handle), e)
    | some s => next.runWith nested (e.withStore (e.board.store.unsubscribe s))
  | .draw chart next, e =>
    let count := (e.board.widgets[chart]?.map Widget.drawn).getD 0
    (next (e.shared.random chart count)).runWith nested
      (e.updateWidget chart fun w => { w with drawn := w.drawn + 1 })
  | .dispatch trigger context next, e =>
    next.runWith nested (e.dispatchWith nested trigger context)

/-- Runs a program that may set off others down to a depth. -/
def Program.runAt : Nat → Runner
  | 0 => fun _ e => (.failed .tooManyNested, e)
  | depth + 1 => Program.runWith (Program.runAt depth)

def nestingLimit : Nat := 200

def Program.run : Runner :=
  Program.runAt nestingLimit

/-- What a program sets off is run one level deeper. -/
theorem Program.run_eq : run = runWith (runAt (nestingLimit - 1)) :=
  rfl

namespace Engine

def write (id : String) (value : Value) (e : Engine) : Engine :=
  e.writeWith Program.run id value

def writeProperty (id name : String) (value : Value) (e : Engine) : Engine :=
  e.writePropertyWith Program.run id name value

def dispatch (trigger : String) (context : Value) (e : Engine) : Engine :=
  e.dispatchWith Program.run trigger context

end Engine
end Patchbay
