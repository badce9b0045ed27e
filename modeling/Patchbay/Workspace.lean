import Patchbay.Engine.EventLoop
import Patchbay.Engine.Opening

/-!
# Workspaces

Several pages of one program, on one board or on a board each. One of them is the current page.
They share the log, the counters and the event loop.
-/

namespace Patchbay

structure Workspace where
  shared : Shared
  boards : List Board
  /-- Each page with the number of its board. -/
  pages : List (Nat × Page)
  current : Nat := 0

namespace Workspace

/-- A board without anything, and a page without anything on it. -/
def blank (shared : Shared) (serialize : Bool) : Workspace :=
  ⟨shared, [{ serialize := serialize }], [(0, {})], 0⟩

/-- The current page with its board, if there is one. -/
def engine? (w : Workspace) : Option Engine :=
  match w.pages[w.current]? with
  | none => none
  | some (index, page) => (w.boards[index]?).map fun board => ⟨w.shared, board, page⟩

def withEngine (w : Workspace) (e : Engine) : Workspace :=
  { w with
    shared := e.shared
    boards := w.boards.set e.board.index e.board
    pages := w.pages.modify w.current fun entry => (entry.1, e.page) }

def within {α : Type} (w : Workspace) (act : Engine → α × Engine) : Option α × Workspace :=
  match w.engine? with
  | none => (none, w)
  | some e =>
    let (a, e) := act e
    (some a, w.withEngine e)

/-- Takes a turn on its board. Rules are those of the current page. -/
def turn (w : Workspace) (r : Ready) : Workspace :=
  match w.boards[r.board]? with
  | none => w
  | some board =>
    let page := ((w.pages[w.current]?).map Prod.snd).getD {}
    let e := (Engine.mk w.shared board page).turn r.turn
    { w with shared := e.shared, boards := w.boards.set r.board e.board }

def eventLoop : EventLoop Workspace where
  queue w := w.shared.queue
  clear w := { w with shared.queue := [] }
  run r w := w.turn r

/-- What a direct call of a handler comes to. -/
inductive Called where
  | value (result : Value)
  | fault (fault : Fault)
  /-- Its body would have to wait, but no event loop is running. -/
  | closed

/-- Runs a body to its end, with a round of the event loop at each pause. -/
def await : Nat → Program → Workspace → Called × Workspace
  | 0, _, w => (.closed, w)
  | fuel + 1, body, w =>
    match w.within body.run with
    | (some (.done value), w) => (.value value, w)
    | (some (.failed fault), w) => (.fault fault, w)
    | (some (.deferred _ _), w) => (.value .null, w)
    | (some (.paused rest), w) => await fuel rest (eventLoop.tick w)
    | (none, w) => (.closed, w)

/-- Calls a handler directly and waits for what it leaves behind. -/
def call (handler : Handler) (args : Value) (w : Workspace) : Called × Workspace :=
  let waiting (body : Program) (w : Workspace) : Called × Workspace :=
    if w.shared.loop then await EventLoop.roundLimit body w else (.closed, w)
  match w.within (handler.call args).run with
  | (some (.done value), w) => (.value value, w)
  | (some (.failed fault), w) => (.fault fault, w)
  | (some (.deferred _ body), w) => waiting body w
  | (some (.paused rest), w) => waiting rest (eventLoop.tick w)
  | (none, w) => (.closed, w)

end Workspace
end Patchbay
