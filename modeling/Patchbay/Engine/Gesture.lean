import Patchbay.Engine.Mounting

/-!
# Gestures

What a user does to a widget. Input is written to the store first; then the widget fires its
trigger, with its own new value as context. A click takes along the values of all widgets that
the rules of the button refer to.
-/

namespace Patchbay

inductive Gesture where
  | select (value : Value)
  | typeText (text : Value)
  | pick (date : Value)
  | click

def Gesture.component : Gesture → ComponentType
  | .select _ => .dropdown
  | .typeText _ => .textbox
  | .pick _ => .calendar
  | .click => .button

def Gesture.name : Gesture → String
  | .select _ => "select"
  | .typeText _ => "type_text"
  | .pick _ => "pick"
  | .click => "click"

/-- Adds what the store has for ids to a context, the button's own id left out. -/
def Store.collect (store : Store) (own : String) (context : Entries String Value)
    (ids : List String) : Entries String Value :=
  ids.foldl (fun context id =>
    let value := store.get id
    if id == own || value.isNull then context else Entries.put id value context) context

/-- The context of a click: the values of all widgets that arguments of the rules on the click
refer to. -/
def Store.clickContext (store : Store) (rules : List Rule) (button : String) :
    Entries String Value :=
  let actions := (Engine.matching rules s!"{button}.onClick").flatMap Rule.actions
  store.collect button []
    (actions.flatMap fun action => action.args.flatMap fun arg => arg.2.referencedIds)

/-- The label that a widget has for a value. Only dropdowns have labels. -/
def Widget.askLabel (w : Widget) (value : Value) : Except Fault Value :=
  if w.type = .dropdown then w.labelFor value
  else .error (.noAttribute w.type.className "label_for")

namespace Engine

/-- The context that a click would take along now. Only buttons collect one. -/
def askContext (w : Widget) (e : Engine) : Except Fault (Entries String Value) :=
  if w.type = .button then .ok (e.board.store.clickContext e.page.rules w.id)
  else .error (.noAttribute w.type.className "collect_context")

def fire (w : Widget) (event : String) (context : Value) (e : Engine) : Engine :=
  let trigger := s!"{w.id}.{event}"
  (e.log .debug "widget_fired" [("widget_id", .text w.id), ("trigger", .text trigger)]).dispatch
    trigger context

/-- The context of a change: the new value of the widget itself. -/
def ownContext (w : Widget) (fields : List (String × Value)) : Value :=
  .record [(w.id, .record fields)]

/-- Runs the writes of a gesture, then what follows from their result. -/
def afterwards (result : Stop × Engine) (next : Value → Engine → Engine) :
    Except Fault Unit × Engine :=
  match result with
  | (.done value, e) => (.ok (), next value e)
  | (.failed fault, e) => (.error fault, e)
  | (_, e) => (.ok (), e)

/-- Does a gesture to a widget. A widget of another sort does not know it. -/
def performOn (w : Widget) (gesture : Gesture) (e : Engine) : Except Fault Unit × Engine :=
  if w.type ≠ gesture.component then
    (.error (.noAttribute w.type.className gesture.name), e)
  else
    match gesture with
    | .select value =>
      afterwards ((w.choose value).run e) fun label => fire w "onChange" (ownContext w
        [("value", value), ("selected_value", value), ("selected_text", label)])
    | .typeText text =>
      afterwards ((Widget.writeText w.id text).run e) fun _ => fire w "onChange" (ownContext w
        [("value", text), ("text", text)])
    | .pick date =>
      -- A date takes the place of the whole entry, so there is nothing to run.
      (.ok (), (e.write w.id date).fire w "onChange" (ownContext w [("value", date)]))
    | .click =>
      (.ok (), e.fire w "onClick" (.record (e.board.store.clickContext e.page.rules w.id)))

end Engine
end Patchbay
