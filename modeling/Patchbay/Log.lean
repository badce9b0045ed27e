import Patchbay.Text.Quoted
import Patchbay.Value

/-!
# Log lines

A line has a level, an event and fields. Variables that are bound around it go with it, which is
how the lines of one dispatch carry its trigger and its id. A log is set up with the name of the
lowest level that it shows; a few names cannot be used for that (`Log.usable_iff`).
-/

namespace Patchbay

namespace Log

inductive Level where
  | debug
  | info
  | warning
  | error
  | critical
  deriving DecidableEq, Repr

def Level.rank : Level → Nat
  | .debug => 10
  | .info => 20
  | .warning => 30
  | .error => 40
  | .critical => 50

def Level.name : Level → String
  | .debug => "debug"
  | .info => "info"
  | .warning => "warning"
  | .error => "error"
  | .critical => "critical"

def Level.ofMethod : String → Level
  | "debug" => .debug
  | "warning" => .warning
  | "warn" => .warning
  | "error" => .error
  | "exception" => .error
  | "critical" => .critical
  | "fatal" => .critical
  | _ => .info

/-- The upper case of a character, as far as it is in ASCII. Outside of ASCII, that is the case for
the dotless i, the long s, the sharp s and the Latin ligatures. -/
def upperChar : Char → List Char
  | '\u0131' => ['I']
  | '\u017f' => ['S']
  | '\u00df' => ['S', 'S']
  | '\ufb00' => ['F', 'F']
  | '\ufb01' => ['F', 'I']
  | '\ufb02' => ['F', 'L']
  | '\ufb03' => ['F', 'F', 'I']
  | '\ufb04' => ['F', 'F', 'L']
  | '\ufb05' => ['S', 'T']
  | '\ufb06' => ['S', 'T']
  | c => [c.toUpper]

def upperName (s : String) : String :=
  String.ofList (s.toList.flatMap upperChar)

/-- Why a log cannot be set up with a level name: the name stands for a constant, but not for that
of a level. -/
inductive Unusable where
  /-- The constant is a text. -/
  | text (s : String)
  /-- The constant is a table; the text shows what is in it. -/
  | table (shown : String)
  deriving DecidableEq

def Unusable.message : Unusable → String
  | .text s => s!"Unknown level: {Text.quoted s}"
  | .table shown => s!"Level not an integer or a valid string: {shown}"

/-- The format of lines of text where no other is given. -/
def basicFormat : String := "%(levelname)s:%(name)s:%(message)s"

/-- The table of the kinds of formats: how each is marked, what reads it, and its basic format. -/
def formatStyles : String :=
  "\x7b'%': (<class 'logging.PercentStyle'>, '%(levelname)s:%(name)s:%(message)s'), " ++
  "'\x7b': (<class 'logging.StrFormatStyle'>, " ++
  "'\x7blevelname\x7d:\x7bname\x7d:\x7bmessage\x7d'), " ++
  "'$': (<class 'logging.StringTemplateStyle'>, " ++
  "'$\x7blevelname\x7d:$\x7bname\x7d:$\x7bmessage\x7d')\x7d"

/-- The lowest rank that is shown under a level name, which may be in any case. Unknown names show
what `INFO` shows. -/
def threshold (level : String) : Except Unusable Nat :=
  match upperName level with
  | "CRITICAL" => .ok 50
  | "FATAL" => .ok 50
  | "ERROR" => .ok 40
  | "WARNING" => .ok 30
  | "WARN" => .ok 30
  | "DEBUG" => .ok 10
  | "NOTSET" => .ok 0
  | "BASIC_FORMAT" => .error (.text basicFormat)
  | "_STYLES" => .error (.table formatStyles)
  | _ => .ok 20

/-- A log can be set up with this level name. -/
def Usable (level : String) : Prop :=
  ∃ rank, threshold level = .ok rank

/-- All names can be used but for those of two constants that are no levels. -/
theorem usable_iff {level : String} :
    Usable level ↔ upperName level ≠ "BASIC_FORMAT" ∧ upperName level ≠ "_STYLES" := by
  unfold Usable threshold
  split <;> simp_all

instance (level : String) : Decidable (Usable level) :=
  decidable_of_iff _ usable_iff.symm

abbrev Vars := Entries String Value

structure Line where
  level : Level
  event : String
  fields : List (String × Value)
  vars : Vars

/-- What a line says in JSON: the bound variables, over them its fields, over these its event,
logger and level. -/
def Line.toValue (logger : String) (line : Line) : Value :=
  .record (Entries.ofPairs (line.vars ++ line.fields ++
    [("event", .text line.event), ("logger", .text logger), ("level", .text line.level.name)]))

/-- Where the lines of a log go. -/
inductive Stream where
  | output
  | errors
  deriving DecidableEq, Repr

/-- What a log is set up with. -/
structure Setup where
  level : String := "INFO"
  json : Bool := false
  stream : Stream := .output

/-- A log that has been set up: it shows lines from a rank on. -/
structure Sink where
  rank : Nat
  json : Bool
  stream : Stream

def Setup.sink (setup : Setup) : Except Unusable Sink :=
  (threshold setup.level).map fun rank => ⟨rank, setup.json, setup.stream⟩

/-- The lines that are shown, of those that are logged. -/
def Sink.shown (sink : Sink) (lines : List Line) : List Line :=
  lines.filter fun line => sink.rank ≤ line.level.rank

/-- Variables to bind for a while. What they hide is kept until they are unbound. -/
structure Binder where
  own : List (String × Value)
  hidden : Vars := []

namespace Binder

/-- Binds the variables and remembers what they hide. -/
def enter (b : Binder) (vars : Vars) : Binder × Vars :=
  ({ b with hidden := vars.filter fun entry => Entries.has entry.1 b.own },
    b.own.foldl (fun vars entry => Entries.put entry.1 entry.2 vars) vars)

/-- Unbinds the variables and brings back what they hid. -/
def exit (b : Binder) (vars : Vars) : Vars :=
  b.hidden.foldl (fun vars entry => Entries.put entry.1 entry.2 vars)
    (vars.filter fun entry => !Entries.has entry.1 b.own)

end Binder
end Log
end Patchbay
