import Patchbay.Widget

/-!
# What widgets do

The programs behind the handlers that widgets register and behind what a user does to them.
-/

namespace Patchbay.Widget

/-- Keeps the value and the text of a textbox alike. -/
def writeText (id : String) (text : Value) : Program :=
  .writeProperty id "value" text <| .writeProperty id "text" text <| .done .null

/-- Chooses a value of a dropdown, with the label of its option. The label is the result. -/
def choose (w : Widget) (value : Value) : Program :=
  .bind (w.labelFor value) fun label =>
    .writeProperty w.id "value" value <|
    .writeProperty w.id "selected_value" value <|
    .writeProperty w.id "selected_text" label <|
    .done label

def setDate (w : Widget) (args : Value) : Program :=
  .bind (argument "value" args) fun value => .write w.id value <| .done .null

def setChoice (w : Widget) (args : Value) : Program :=
  .bind (argument "value" args) fun value =>
    .log .debug "dropdown_set_value" [("widget_id", .text w.id), ("value", value)] <|
    (choose w value).andThen (.done .null)

def setContent (w : Widget) (event name : String) (args : Value) : Program :=
  .bind (argument name args) fun value =>
    .log .debug event [("widget_id", .text w.id), (name, value)] <| writeText w.id value

/-- A data point of a chart: a number below 100. -/
def dataPoint (name : String) (x : Binary64) : Value :=
  .record [("name", .text name), ("value", .float (x.scale 100))]

/-- Gives a chart three new data points, after others had their turn. -/
def refresh (chart : Nat) (w : Widget) (args : Value) : Program :=
  .log .debug "chart_refresh_started" [("widget_id", .text w.id), ("args", args)] <|
  .pause <|
  .draw chart fun a => .draw chart fun b => .draw chart fun c =>
  let data : Value := .list [dataPoint "A" a, dataPoint "B" b, dataPoint "C" c]
  .write w.id data <|
  .log .debug "chart_refresh_completed" [("widget_id", .text w.id), ("points", .int 3)] <|
  .done data

/-- The handlers that a widget registers when it is mounted, by action type. -/
def handlers (ref : Nat) (w : Widget) : List (String × Handler) :=
  match w.type with
  | .button => []
  | .calendar => [("setValue", ⟨false, w.setDate⟩)]
  | .dropdown => [("setValue", ⟨false, w.setChoice⟩)]
  | .textbox =>
    [("setValue", ⟨false, w.setContent "textbox_set_value" "value"⟩),
      ("setText", ⟨false, w.setContent "textbox_set_text" "text"⟩)]
  | .chart =>
    let handler : Handler := ⟨true, fun args => .defer true (w.refresh ref args)⟩
    [("setValue", handler), ("updateChartData", handler)]

end Patchbay.Widget
