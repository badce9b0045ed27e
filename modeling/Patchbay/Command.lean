import Patchbay.Engine.EventLoop
import Patchbay.Engine.Opening

/-!
# The command

Sets up the log, opens the page of a document file, fires triggers one after another, waits for what
they leave in the background and prints the store. What the library refuses ends the command with
code 1; any other fault ends it without a code.
-/

namespace Patchbay.Command

/-- Splits a trigger argument at its first equals sign. What follows is the context, a JSON map;
without the sign there is no context. -/
def parseTrigger (arg : String) : Except Invalid (String × Value) :=
  let cs := arg.toList
  let trigger := String.ofList (cs.takeWhile (· != '='))
  match cs.dropWhile (· != '=') with
  | [] => .ok (trigger, .null)
  | _ :: rest =>
    match Json.readMap (String.ofList rest) with
    | .ok context => .ok (trigger, context)
    | .error cause => .error (.triggerContext trigger cause)

/-- Every way to end a line becomes a line feed. -/
def unifyLineEnds : List Char → List Char
  | '\r' :: '\n' :: rest => '\n' :: unifyLineEnds rest
  | '\r' :: rest => '\n' :: unifyLineEnds rest
  | c :: rest => c :: unifyLineEnds rest
  | [] => []

inductive File where
  /-- It cannot be read; the text says why. -/
  | unreadable (reason : String)
  | content (bytes : ByteArray)

inductive Crash where
  | logging (cause : Log.Unusable)
  | undecodable
  | fault (fault : Fault)

/-- A regular end of the command: its code and what it prints. -/
structure Finish where
  code : Nat
  output : String

/-- Fires the triggers of arguments, up to the first that is refused. -/
def fireAll (e : Engine) : List String → Except Invalid Unit × Engine
  | [] => (.ok (), e)
  | arg :: rest =>
    match parseTrigger arg with
    | .error cause => (.error cause, e)
    | .ok (trigger, context) =>
      fireAll ((e.log .info "firing" [("trigger", .text trigger)]).dispatch trigger context) rest

/-- Runs a page from the text of its document and gives its store at the end. The page is closed
whatever happens after it was opened. -/
def runPage (settings : Settings) (text : String) (args : List String) (e : Engine) :
    Except Fault Value × Engine :=
  match e.openDocument settings.strictBindings
      (Document.ofText settings.limits false text) with
  | (.error fault, e) => (.error fault, e)
  | (.ok (), e) =>
    match fireAll e args with
    -- Triggers fired before the refusal keep their effects, but tasks do not run.
    | (.error cause, e) => (.error (.invalid cause), e.closePage)
    | (.ok (), e) =>
      let e := Engine.eventLoop.settle e
      (.ok e.board.store.snapshot, e.closePage)

def refuse (reason : String) (e : Engine) : Except Crash Finish × Engine :=
  (.ok ⟨1, ""⟩, e.log .error "run_failed" [("error", .text reason)])

def start (settings : Settings) (firstId : Nat) (random : Nat → Nat → Binary64) : Engine where
  shared := { loop := true, nextId := firstId, random := random }
  board := { serialize := settings.serializeTasks }
  page := {}

/-- Runs the page of a file and prints the store at the end. -/
def runFile (settings : Settings) (file : File) (args : List String) (e : Engine) :
    Except Crash Finish × Engine :=
  match file with
  | .unreadable reason => refuse reason e
  | .content bytes =>
    match String.fromUTF8? bytes with
    | none => (.error .undecodable, e)
    | some text =>
      match runPage settings (String.ofList (unifyLineEnds text.toList)) args e with
      | (.error (.invalid cause), e) => refuse cause.message e
      | (.error fault, e) => (.error (.fault fault), e)
      | (.ok snapshot, e) =>
        match Json.text? snapshot 0 with
        | some output => (.ok ⟨0, output ++ "\n"⟩, e)
        | none => (.error (.fault .tupleKey), e)

/-- How the command has its log: apart from what it prints. -/
def logSetup (settings : Settings) : Log.Setup where
  level := settings.logLevel
  json := settings.jsonLogs
  stream := .errors

/-- The command. Without its log it does not begin. -/
def run (settings : Settings) (file : File) (args : List String) (e : Engine) :
    Except Crash Finish × Engine :=
  match (logSetup settings).sink with
  | .error cause => (.error (.logging cause), e)
  | .ok _ => runFile settings file args e

end Patchbay.Command
