import Dockboard.Config
import Dockboard.Text.Blank
import Dockboard.Text.Numeral

set_option autoImplicit false

/-! # Arguments

The settings are given by arguments, each setting at most once:

    --name value    --name=value    -n value    -nvalue    -n=value
    --name          -n              -nm

A value that follows as an argument of its own does not begin with a hyphen, except that it may
be one. Nothing else may be given; after two hyphens, nothing at all.

A value is looked at when the next option is met or the arguments end, and one that is part of
its option at once. Of several things wrong the first is reported in this order. An argument that
means nothing is reported at once, whatever value stands before it.
-/

namespace Dockboard

open Dockboard.Text

namespace Arguments

/-- What is given with a value. -/
inductive Setting where
  | host
  | debounce
  | monitorInterval
  | statusTtl
  | logTail
  | logBuffer
  | logFile
  | logFilter
  deriving DecidableEq, Repr, Inhabited

/-- What is given without a value. -/
inductive Flag where
  | all
  | noHeader
  | noColor
  deriving DecidableEq, Repr, Inhabited

/-- What an option is about. -/
inductive Switch where
  | setting (setting : Setting)
  | flag (flag : Flag)
  | help
  | version
  deriving DecidableEq, Repr, Inhabited

/-- Every option, with its name, its letter if it has one, and what it does. -/
def options : List (Switch × String × Option Char × String) :=
  [(.setting .host, "host", some 'H', "Daemon endpoint (unix://, tcp:// or http://)"),
   (.setting .debounce, "debounce-ms", none,
     "Window over which daemon events are merged into one refresh"),
   (.setting .monitorInterval, "monitor-interval-ms", none,
     "How often the monitor view lists running containers again"),
   (.setting .statusTtl, "status-ttl-ms", none, "Lifetime of transient status messages"),
   (.setting .logTail, "log-tail", none, "Lines of history requested when opening logs"),
   (.setting .logBuffer, "log-buffer", none, "Maximum number of lines a pager keeps"),
   (.flag .all, "all", some 'a', "Show stopped containers too"),
   (.flag .noHeader, "no-header", none, "Start with the daemon header hidden"),
   (.flag .noColor, "no-color", none, "Disable colours"),
   (.setting .logFile, "log-file", none, "Where diagnostics are written"),
   (.setting .logFilter, "log-filter", none, "Which diagnostics are written"),
   (.help, "help", some 'h', "Print help"),
   (.version, "version", some 'V', "Print version")]

/-- The option with that name. -/
def named? (name : List Char) : Option Switch :=
  (options.find? fun (_, own, _, _) => own.toList == name).map Prod.fst

/-- The option with that letter. -/
def lettered? (letter : Char) : Option Switch :=
  (options.find? fun (_, _, own, _) => own == some letter).map Prod.fst

/-- Why arguments give no settings. -/
inductive Refusal where
  /-- Help has been asked for. -/
  | help
  /-- The version has been asked for. -/
  | version
  /-- There is no such option, or it is no option at all. -/
  | unknown (argument : List Char)
  /-- The value is missing or empty. -/
  | noValue (setting : Setting)
  /-- The value is no number of 64 bits. -/
  | noNumber (setting : Setting) (value : List Char)
  /-- There is a value where none belongs. -/
  | needlessValue (switch : Switch)
  /-- The option has been given before. -/
  | repeated (switch : Switch)
  deriving DecidableEq, Repr, Inhabited

/-- What has been given. -/
structure Given where
  texts : List (Setting × List Char) := []
  numbers : List (Setting × Nat) := []
  flags : List Flag := []
  /-- A setting whose value is to follow, or has followed but has not been looked at. -/
  pending : Option (Setting × Option (List Char)) := none
  deriving DecidableEq, Repr, Inhabited

namespace Given

/-- The text of a setting. -/
def text? (given : Given) (setting : Setting) : Option String :=
  (given.texts.lookup setting).map String.ofList

/-- The number of a setting. -/
def number? (given : Given) (setting : Setting) : Option Nat := given.numbers.lookup setting

/-- Add a setting with its value. -/
def set (given : Given) (setting : Setting) (value : List Char) : Except Refusal Given :=
  if (given.texts.lookup setting).isSome || (given.numbers.lookup setting).isSome then
    .error (.repeated (.setting setting))
  else
    match setting with
    | .host | .logFilter => .ok { given with texts := (setting, value) :: given.texts }
    | .logFile =>
        if value.isEmpty then .error (.noValue setting)
        else .ok { given with texts := (setting, value) :: given.texts }
    | .debounce | .monitorInterval | .statusTtl | .logTail | .logBuffer =>
        match Numeral.read? Numeral.max64 value with
        | some n => .ok { given with numbers := (setting, n) :: given.numbers }
        | none => .error (.noNumber setting value)

/-- Look at the value of a setting that is pending. -/
def settle (given : Given) : Except Refusal Given :=
  match given.pending with
  | none => .ok given
  | some (setting, none) => .error (.noValue setting)
  | some (setting, some value) => { given with pending := none }.set setting value

/-- Add an option without a value. -/
def turn (given : Given) (switch : Switch) : Except Refusal Given := do
  let given ← given.settle
  match switch with
  | .help => .error .help
  | .version => .error .version
  | .setting setting => .ok { given with pending := some (setting, none) }
  | .flag flag =>
      if given.flags.contains flag then .error (.repeated switch)
      else .ok { given with flags := flag :: given.flags }

/-- Read an argument after two hyphens. -/
def readNamed (given : Given) (argument : List Char) : Except Refusal Given :=
  let (name, value) :=
    match splitOnce '=' argument with
    | some (name, value) => (name, some value)
    | none => (argument, none)
  match named? name, value with
  | none, _ => .error (.unknown ('-' :: '-' :: argument))
  | some (.setting setting), some value => do (← given.settle).set setting value
  | some switch, some _ => .error (.needlessValue switch)
  | some switch, none => given.turn switch

/-- Read an argument after one hyphen. -/
def readLetters (given : Given) : List Char → Except Refusal Given
  | [] => .ok given
  | letter :: rest =>
      match lettered? letter with
      | none => .error (.unknown ['-', letter])
      | some (.setting setting) =>
          match rest with
          | [] => given.turn (.setting setting)
          | '=' :: value => do (← given.settle).set setting value
          | value => do (← given.settle).set setting value
      | some switch => do readLetters (← given.turn switch) rest

/-- Read an argument that names no option. -/
def readOther (given : Given) (argument : List Char) : Except Refusal Given :=
  match given.pending with
  | some (setting, none) => .ok { given with pending := some (setting, some argument) }
  | _ => .error (.unknown argument)

/-- Read arguments one after the other. -/
def read (given : Given) : List (List Char) → Except Refusal Given
  | [] => given.settle
  | argument :: rest =>
      match argument with
      | ['-', '-'] =>
          match rest with
          | [] => given.settle
          | extra :: _ => .error (.unknown extra)
      | '-' :: '-' :: named => do read (← given.readNamed named) rest
      | '-' :: letter :: more => do read (← given.readLetters (letter :: more)) rest
      | other => do read (← given.readOther other) rest

/-! ## Settings -/

/-- The shortest time for which reports are gathered: with none at all, each would be followed
up by itself. -/
def minDebounce : Nat := 10

/-- The shortest time after which containers are listed again. -/
def minMonitorInterval : Nat := 250

/-- The settings that have been given, where `host` is the usual address of the daemon. -/
def config (given : Given) (host : Option String) : Config :=
  let usual : Config := {}
  { host := ((given.text? .host).or host).filter fun host => !(trim host.toList).isEmpty
    debounce := max ((given.number? .debounce).getD usual.debounce) minDebounce
    monitorInterval :=
      max ((given.number? .monitorInterval).getD usual.monitorInterval) minMonitorInterval
    statusTtl := (given.number? .statusTtl).getD usual.statusTtl
    logTail := (given.number? .logTail).getD usual.logTail
    logBuffer := max ((given.number? .logBuffer).getD usual.logBuffer) 1
    showAll := given.flags.contains .all
    showHeader := !given.flags.contains .noHeader
    noColor := given.flags.contains .noColor
    logFile := given.text? .logFile
    logFilter := given.text? .logFilter }

end Given

/-- The settings given by `arguments`, where `host` is the usual address of the daemon. -/
def read (arguments : List String) (host : Option String) : Except Refusal Config :=
  ((Given.read {} (arguments.map String.toList))).map (·.config host)

/-! ## What is said in place of a start -/

/-- The name of an option. -/
def nameOf (switch : Switch) : String :=
  "--" ++ ((options.find? (·.1 == switch)).map (·.2.1)).getD ""

/-- The line about an option in the help. -/
def helpLine : Switch × String × Option Char × String → String
  | (switch, name, letter, purpose) =>
      let short := letter.elim "    " fun c => s!"-{c}, "
      let value :=
        match switch with
        | .setting _ => " <VALUE>"
        | _ => ""
      s!"  {short}--{name}{value}\n          {purpose}\n"

/-- What is said when help is asked for. -/
def help : String :=
  "An interactive terminal dashboard for Docker and Docker Swarm.\n\n" ++
    "Usage: dockboard [OPTIONS]\n\n" ++ "Options:\n" ++ String.join (options.map helpLine)

/-- What is said when the version is asked for. -/
def version : String := "dockboard 0.1.0\n"

/-- What is said of arguments that give no settings. -/
def Refusal.message : Refusal → String
  | .help => Arguments.help
  | .version => Arguments.version
  | .unknown argument => s!"error: unexpected argument {quoted argument} found\n"
  | .noValue setting => s!"error: a value is required for {nameOf (.setting setting)}\n"
  | .noNumber setting value =>
      s!"error: invalid value {quoted value} for {nameOf (.setting setting)}\n"
  | .needlessValue switch => s!"error: unexpected value for {nameOf switch}\n"
  | .repeated switch => s!"error: {nameOf switch} cannot be used multiple times\n"
where
  quoted (s : List Char) : String := "'" ++ String.ofList s ++ "'"

/-- The code with which it is ended: 0 if what has been asked for has been said. -/
def Refusal.exitCode : Refusal → Nat
  | .help | .version => 0
  | _ => 2

end Arguments

end Dockboard
