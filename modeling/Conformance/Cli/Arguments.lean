import Conformance.Text.Decimal
import Conformance.Text.Span

/-!
# Arguments of the command line

The command line asks either for tests to be run or for the tokens of a script. Options may stand anywhere
behind the name of the command; each is given at most once. Arguments count from left to right: the first
one that is out of place, or that asks for help, settles what is done.
-/
namespace Conformance.Cli

open Text

/-- What is asked for when tests are to be run. -/
structure RunOptions where
  /-- The tests, or directories of tests, in the order given. -/
  paths : List String := []
  /-- The configuration file. -/
  config : Option String := none
  /-- The service's executable. -/
  client : Option String := none
  /-- How many tests run at once. -/
  jobs : Option Nat := none
  /-- The seconds for one test. -/
  timeout : Option UInt64 := none
  /-- The directory for all that tests put out. -/
  out : Option String := none
  verbose : Bool := false
  /-- The file that a log is written to. -/
  logFile : Option String := none
  deriving DecidableEq, Repr, Inhabited

/-- What a command line asks for. -/
inductive Request where
  | run (options : RunOptions)
  | tokens (script : String)
  deriving DecidableEq, Repr, Inhabited

/-- What keeps a command line from being carried out. -/
inductive Aside where
  | misuse
  | help
  | version
  deriving DecidableEq, Repr, Inhabited

/-- The options that take a value. -/
inductive Key where
  | config
  | client
  | jobs
  | timeout
  | out
  | logFile
  deriving DecidableEq, Repr, Inhabited

/-- The names of the options that take a value. -/
def keys : List (String × Key) :=
  [("config", .config), ("client", .client), ("jobs", .jobs), ("timeout", .timeout),
    ("out", .out), ("log-file", .logFile)]

/-- A value that may be given once, set to what a text says. -/
def setOnce {α : Type} (old : Option α) (new : Option α) : Except Aside (Option α) :=
  if old.isSome || new.isNone then .error .misuse else .ok new

/-- The text of a path, which is not empty. -/
def pathText (s : String) : Option String := if s = "" then none else some s

/-- The number that a text says, if it fits a word. -/
def wordText (s : String) : Option Nat := readBelow? 10 wordBound s.toList

namespace RunOptions

/-- The options with the value of one of them set. -/
def set (o : RunOptions) (key : Key) (value : String) : Except Aside RunOptions :=
  match key with
  | .config => return { o with config := ← setOnce o.config (pathText value) }
  | .client => return { o with client := ← setOnce o.client (pathText value) }
  | .jobs => return { o with jobs := ← setOnce o.jobs (wordText value) }
  | .timeout =>
    return { o with timeout := ← setOnce o.timeout ((wordText value).map UInt64.ofNat) }
  | .out => return { o with out := ← setOnce o.out (pathText value) }
  | .logFile => return { o with logFile := ← setOnce o.logFile (pathText value) }

/-- The options with more said while tests run. -/
def speakUp (o : RunOptions) : Except Aside RunOptions :=
  if o.verbose then .error .misuse else .ok { o with verbose := true }

/-- The options with another path. -/
def addPath (o : RunOptions) (path : String) : Except Aside RunOptions :=
  if path = "" then .error .misuse else .ok { o with paths := o.paths ++ [path] }

/-- The options after an argument that begins with two dashes, given without them, and the option whose
value has to follow. -/
def long (o : RunOptions) (arg : List Char) : Except Aside (RunOptions × Option Key) :=
  let (name, value) := match breakAt? (· = '=') arg with
    | some (name, value) => (String.ofList name, some (String.ofList value))
    | none => (String.ofList arg, none)
  match keys.lookup name, value with
  | some key, some value => return (← o.set key value, none)
  | some key, none => .ok (o, some key)
  | none, some _ => .error .misuse
  | none, none =>
    if name = "verbose" then return (← o.speakUp, none)
    else if name = "help" then .error .help
    else .error .misuse

/-- The options after letters behind one dash, and the option whose value has to follow. -/
def short (o : RunOptions) : List Char → Except Aside (RunOptions × Option Key)
  | [] => .ok (o, none)
  | 'v' :: rest => do short (← o.speakUp) rest
  | 'j' :: [] => .ok (o, some .jobs)
  | 'j' :: '=' :: rest | 'j' :: rest => return (← o.set .jobs (String.ofList rest), none)
  | 'h' :: _ => .error .help
  | _ :: _ => .error .misuse

/-- The options after the arguments; of those behind `--` all are paths. -/
def read (o : RunOptions) (onlyPaths : Bool) : List String → Except Aside RunOptions
  | [] => if o.paths.isEmpty then .error .misuse else .ok o
  | arg :: rest =>
    if onlyPaths then do read (← o.addPath arg) true rest
    else
      let behind (step : Except Aside (RunOptions × Option Key)) : Except Aside RunOptions := do
        let (o, key) ← step
        match key, rest with
        | none, rest => read o false rest
        | some _, [] => .error .misuse
        | some key, value :: rest =>
          if value.toList.head? = some '-' && value ≠ "-" then .error .misuse
          else read (← o.set key value) false rest
      match arg.toList with
      | ['-', '-'] => read o true rest
      | '-' :: '-' :: name => behind (o.long name)
      | '-' :: letter :: letters => behind (o.short (letter :: letters))
      | _ => do read (← o.addPath arg) false rest

end RunOptions

/-- The script that the arguments name. -/
def readTokens (script : Option String) (onlyPaths : Bool) : List String → Except Aside String
  | [] =>
    match script with
    | some script => .ok script
    | none => .error .misuse
  | arg :: rest =>
    let named : Except Aside String := do
      let script ← setOnce script (pathText arg)
      readTokens script onlyPaths rest
    if onlyPaths then named
    else
      match arg.toList with
      | ['-', '-'] => readTokens script true rest
      | '-' :: 'h' :: _ => .error .help
      | '-' :: _ :: _ => .error (if arg = "--help" then .help else .misuse)
      | _ => named

/-- What the command line asks for. -/
def Request.read : List String → Except Aside Request
  | "run" :: rest => return .run (← ({} : RunOptions).read false rest)
  | "tokens" :: rest => return .tokens (← readTokens none false rest)
  | ["help"] | ["help", "run"] | ["help", "tokens"] | ["help", "help"] => .error .help
  | arg :: _ =>
    match arg.toList with
    | '-' :: 'h' :: _ => .error .help
    | '-' :: 'V' :: _ => .error .version
    | _ =>
      .error (if arg = "--help" then .help else if arg = "--version" then .version else .misuse)
  | [] => .error .misuse

end Conformance.Cli
