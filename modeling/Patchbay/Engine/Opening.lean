import Patchbay.Engine.Gesture
import Patchbay.Settings

/-!
# Opening pages

A page is opened from its bindings and components: the bindings are compiled, the widgets are made
and then mounted, in the order of their declaration. Opening stops at the first fault.
-/

namespace Patchbay

/-- A widget as a page declares it, its sort by name. -/
structure Declaration where
  id : String
  type : String
  props : Entries String Value

def Component.declaration (c : Component) : Declaration :=
  ⟨c.id, c.type.name, c.props⟩

namespace Engine

def compile (strict : Bool) (bindings : List Binding) (e : Engine) :
    Except Invalid (List Rule) × Engine :=
  match Binding.compile strict bindings with
  | .error cause =>
    let place := ((Binding.firstDead? 0 bindings).map Prod.fst).getD 0
    (.error cause, e.log .error "malformed_binding"
      [("field", .text s!"bindings[{place}].via"), ("error", .text cause.message)])
  | .ok rules =>
    let dead := bindings.filter Binding.isDead
    let e := dead.foldl (fun e b => e.log .warning "dead_rule"
      [("source", .text b.source), ("target", .text b.target), ("trigger", .text b.trigger)]) e
    let e := { e with
      shared.counters := e.shared.counters.recordCompiled rules.length dead.length }
    (.ok rules, e.log .debug "rules_compiled"
      [("count", .int rules.length), ("rules", .list (rules.map Rule.toValue))])

/-- Compiles bindings that are given as values. All of them are read before any is compiled. -/
def compileValues (strict : Bool) (values : List Value) (e : Engine) :
    Except Invalid (List Rule) × Engine :=
  match Binding.checkList 0 values with
  | .error cause => (.error cause, e)
  | .ok bindings => e.compile strict bindings

/-- Adds a widget to the board and to the page, under its id. -/
def addWidget (w : Widget) (e : Engine) : Nat × Engine :=
  let ref := e.board.widgets.length
  (ref, { e with
    board.widgets := e.board.widgets ++ [w]
    page.widgets := Entries.put w.id ref e.page.widgets })

/-- Makes declared widgets, up to the first whose id is taken or whose sort is unknown. -/
def declareAll (e : Engine) : List Declaration → Except Invalid Unit × Engine
  | [] => (.ok (), e)
  | d :: rest =>
    if Entries.has d.id e.page.widgets then (.error (.repeatedId d.id), e)
    else
      match ComponentType.ofName? d.type with
      | none => (.error (.unknownType d.type), e)
      | some type =>
        let (_, e) := e.addWidget { id := d.id, type := type, props := d.props }
        e.declareAll rest

def openPage (strict : Bool) (declarations : List Declaration) (bindings : List Binding)
    (e : Engine) : Except Fault Unit × Engine :=
  match e.compile strict bindings with
  | (.error cause, e) => (.error (.invalid cause), e)
  | (.ok rules, e) =>
    match { e with page.rules := rules }.declareAll declarations with
    | (.error cause, e) => (.error (.invalid cause), e)
    | (.ok (), e) =>
      match e.mountAll (e.page.widgets.map Prod.snd) with
      | (.error fault, e) => (.error fault, e)
      | (.ok (), e) =>
        (.ok (), e.log .info "page_mounted"
          [("widgets", .int e.page.widgets.length), ("rules", .int e.page.rules.length)])

def logReading (e : Engine) : Except Invalid Document → Engine
  | .ok document => e.log .info "page_config_parsed"
    [("components", .int document.components.length),
      ("bindings", .int document.bindings.length)]
  | .error (.documentText cause) =>
    e.log .error "json_parse_failed" [("error", .text cause.message)]
  | .error (.document issues) =>
    e.log .error "invalid_page_config" [("errors", .int issues.length)]
  | .error (.sharedIds ids) =>
    e.log .error "duplicate_component_ids" [("ids", .list (ids.map .text))]
  | .error _ => e

def openDocument (strict : Bool) (reading : Except Invalid Document) (e : Engine) :
    Except Fault Unit × Engine :=
  let e := e.logReading reading
  match reading with
  | .error cause => (.error (.invalid cause), e)
  | .ok document =>
    e.openPage strict (document.components.map Component.declaration) document.bindings

/-- Opens a page from a value, of which a map must be made first. -/
def openValue (strict : Bool) (limits : Limits) (value : Value) (e : Engine) :
    Except Fault Unit × Engine :=
  match Document.asMap value with
  | .error fault => (.error fault, e)
  | .ok map => e.openDocument strict (Document.ofValue limits map "")

def closePage (e : Engine) : Engine :=
  ((e.page.widgets.map Prod.snd).foldl (fun e ref => e.unmount ref) e).log .info "page_closed"
    [("widgets", .int e.page.widgets.length)]

end Engine

def Settings.limits (s : Settings) : Limits :=
  ⟨s.maxConfigSize, s.maxConfigDepth⟩

end Patchbay
