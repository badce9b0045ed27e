import Patchbay.Engine.Execution
import Patchbay.Widget.Handlers

/-!
# Registering and mounting

A widget that is mounted registers its handlers, watches its own entry of the store and draws
itself. Unmounting only ends the watch; the handlers stay.
-/

namespace Patchbay.Engine

def register (widget action : Value) (handler : Option Handler) (e : Engine) :
    Except Invalid Registration × Engine :=
  match Registry.check widget action handler with
  | .error cause => (.error cause, e)
  | .ok r =>
    let names : List (String × Value) :=
      [("widget_id", .text r.widget), ("action_type", .text r.action)]
    let e := if (e.board.registry.lookup r.widget r.action).isSome then
        e.log .debug "handler_replaced" names
      else e
    let e := { e with board.registry := e.board.registry.insert r }
    (.ok r, e.log .debug "handler_registered" (names ++
      [("kind", .text r.kind.name), ("is_async", .bool r.handler.isAsync)]))

/-- Registers handlers of one widget, up to the first that is refused. -/
def registerAll (id : String) (e : Engine) : List (String × Handler) → Except Fault Unit × Engine
  | [] => (.ok (), e)
  | (action, handler) :: rest =>
    match e.register (.text id) (.text action) (some handler) with
    | (.error cause, e) => (.error (.invalid cause), e)
    | (.ok _, e) => e.registerAll id rest

/-- Mounts a widget, unless it is mounted. A widget that cannot draw itself stays mounted. -/
def mount (ref : Nat) (e : Engine) : Except Fault Unit × Engine :=
  match e.board.widgets[ref]? with
  | none => (.ok (), e)
  | some w =>
    if w.mounted then (.ok (), e)
    else
      match e.registerAll w.id (w.handlers ref) with
      | (.error fault, e) => (.error fault, e)
      | (.ok (), e) =>
        -- The watch begins before the first drawing, and stays if that fails.
        let s : Subscription := ⟨w.id, .view ref⟩
        let e := (e.withStore (e.board.store.subscribe s)).updateWidget ref fun w =>
          { w with subscription := some s }
        match e.redraw ref with
        | .error fault => (.error fault, e)
        | .ok e =>
          (.ok (), e.log .debug "widget_mounted"
            [("widget_id", .text w.id), ("type", .text w.type.name)])

/-- Mounts widgets in order, up to the first that fails. -/
def mountAll (e : Engine) : List Nat → Except Fault Unit × Engine
  | [] => (.ok (), e)
  | ref :: rest =>
    match e.mount ref with
    | (.error fault, e) => (.error fault, e)
    | (.ok (), e) => e.mountAll rest

def unmount (ref : Nat) (e : Engine) : Engine :=
  match (e.board.widgets[ref]?).bind Widget.subscription with
  | none => e
  | some s =>
    (e.withStore (e.board.store.unsubscribe s)).updateWidget ref fun w =>
      { w with subscription := none }

/-- Watches an id, under a name that the watch can be ended by. -/
def subscribe (handle : String) (s : Subscription) (e : Engine) : Engine :=
  { (e.withStore (e.board.store.subscribe s)) with
    board.handles := Entries.put handle s e.board.handles }

def unsubscribe (handle : String) (e : Engine) : Except Fault Unit × Engine :=
  match (Program.unsubscribe handle (.done .null)).run e with
  | (.failed fault, e) => (.error fault, e)
  | (_, e) => (.ok (), e)

end Patchbay.Engine
