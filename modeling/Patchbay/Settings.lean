import Patchbay.Settings.Numeral

/-!
# Settings

A setting is given in code or by an environment variable, in this order, and has a default. The
values of variables are texts, so that every setting can be read from one; truth values and
numbers also stand for each other where nothing is lost.
-/

namespace Patchbay

structure Settings where
  logLevel : String
  jsonLogs : Bool
  /-- Refuse dead bindings instead of compiling them. -/
  strictBindings : Bool
  /-- Let only the latest background task of a target go on. -/
  serializeTasks : Bool
  /-- Seconds that a chart waits before it has new data. -/
  chartRefreshDelay : Binary64
  maxConfigSize : Int
  maxConfigDepth : Int

namespace Settings

def standard : Settings where
  logLevel := "INFO"
  jsonLogs := false
  strictBindings := false
  serializeTasks := false
  chartRefreshDelay := Binary64.ofDecimal false 5 (-1)
  maxConfigSize := 512 * 1024
  maxConfigDepth := 20

def boolOfText? (s : String) : Option Bool :=
  let word := s.toLower
  if ["true", "t", "yes", "y", "on", "1"].contains word then some true
  else if ["false", "f", "no", "n", "off", "0"].contains word then some false
  else none

def boolOfInt : Int → Schema.Checked Bool
  | 0 => .ok false
  | 1 => .ok true
  | _ => Schema.refuse .boolText

/-- Whether a whole floating point number counts as an integer: strictly between the bounds of
words. -/
def isWhole (n : Int) : Bool :=
  n.natAbs < Schema.wordBound

/-- Reads a truth value. Numbers that are no words are of the wrong sort. -/
def checkBool : Value → Schema.Checked Bool
  | .bool b => .ok b
  | .int n => if Schema.isWord n then boolOfInt n else Schema.refuse .bool
  | .float x => match x.toInt? with
    | some n => if isWhole n then boolOfInt n else Schema.refuse .bool
    | none => Schema.refuse .bool
  | .text s => match boolOfText? s with
    | some b => .ok b
    | none => Schema.refuse .boolText
  | _ => Schema.refuse .bool

def intOfFloat (x : Binary64) : Schema.Checked Int :=
  match x.toInt? with
  | some n => if isWhole n then .ok n else Schema.refuse .intSize
  | none => match x with
    | .finite _ _ _ => Schema.refuse .fractional
    | _ => Schema.refuse .infinite

def checkInt : Value → Schema.Checked Int
  | .int n => .ok n
  | .bool b => .ok b.toInt
  | .float x => intOfFloat x
  | .text s => checkIntText s
  | _ => Schema.refuse .int

def checkPositive (value : Value) : Schema.Checked Int :=
  match checkInt value with
  | .ok n => if 0 < n then .ok n else Schema.refuse .positive
  | .error issues => .error issues

/-- Reads a floating point number. An integer that rounds to an infinity is none. -/
def checkFloat : Value → Schema.Checked Binary64
  | .float x => .ok x
  | .int n => match Binary64.ofInt n with
    | .infinity _ => Schema.refuse .float
    | x => .ok x
  | .bool b => .ok (Binary64.ofInt b.toInt)
  | .text s => checkFloatText s
  | _ => Schema.refuse .float

def checkNonnegative (value : Value) : Schema.Checked Binary64 :=
  match checkFloat value with
  | .ok x => if x.isNonnegative then .ok x else Schema.refuse .nonnegative
  | .error issues => .error issues

/-- A variable's name in lower case. The Kelvin sign is the one character outside ASCII whose
lower case is in it. -/
def lowerName (s : String) : String :=
  String.ofList (s.toList.map fun c => if c == '\u212a' then 'k' else c.toLower)

/-- The value of the environment variable of a setting: the family name and the setting's name,
in any case. Of several spellings the last one counts. -/
def fromEnvironment? (family name : String) (environment : List (String × String)) : Option Value :=
  let wanted := lowerName (family ++ name)
  (environment.filter fun entry => lowerName entry.1 == wanted).getLast?.map (.text ·.2)

def names : List String :=
  ["log_level", "json_logs", "strict_bindings", "serialize_async_handlers",
    "chart_refresh_delay", "max_config_size", "max_config_depth"]

def gather (family : String) (environment : List (String × String))
    (given : Entries String Value) : Entries Key Value :=
  names.filterMap fun name =>
    match Entries.get? name given with
    | some value => some (.text name, value)
    | none => (fromEnvironment? family name environment).map fun value => (.text name, value)

/-- Reads the settings from what is given in code and in the environment. -/
def check (family : String) (environment : List (String × String))
    (given : Entries String Value) : Schema.Checked Settings :=
  let entries := gather family environment given
  let d := standard
  Schema.Checked.build Settings.mk
    |> Schema.Checked.part (Schema.optional entries "log_level" d.logLevel Schema.text)
    |> Schema.Checked.part (Schema.optional entries "json_logs" d.jsonLogs checkBool)
    |> Schema.Checked.part (Schema.optional entries "strict_bindings" d.strictBindings checkBool)
    |> Schema.Checked.part
      (Schema.optional entries "serialize_async_handlers" d.serializeTasks checkBool)
    |> Schema.Checked.part
      (Schema.optional entries "chart_refresh_delay" d.chartRefreshDelay checkNonnegative)
    |> Schema.Checked.part
      (Schema.optional entries "max_config_size" d.maxConfigSize checkPositive)
    |> Schema.Checked.part
      (Schema.optional entries "max_config_depth" d.maxConfigDepth checkPositive)

/-- Settings that are read once: what has been read before is used again. -/
def checkOnce (cached : Option Settings) (family : String)
    (environment : List (String × String)) : Schema.Checked Settings × Option Settings :=
  match cached with
  | some settings => (.ok settings, some settings)
  | none =>
    match check family environment [] with
    | .ok settings => (.ok settings, some settings)
    | .error issues => (.error issues, none)

def toValue (s : Settings) : Value :=
  .record [("log_level", .text s.logLevel), ("json_logs", .bool s.jsonLogs),
    ("strict_bindings", .bool s.strictBindings),
    ("serialize_async_handlers", .bool s.serializeTasks),
    ("chart_refresh_delay", .float s.chartRefreshDelay),
    ("max_config_size", .int s.maxConfigSize), ("max_config_depth", .int s.maxConfigDepth)]

end Settings
end Patchbay
