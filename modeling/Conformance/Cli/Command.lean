import Conformance.Cli.Arguments
import Conformance.Config.Reader
import Conformance.Runs.Batch
import Conformance.Script.Lexer
import Conformance.Text.Listing

/-!
# Carrying out a command line

What a command line asks for is carried out in a world and answered with text and an exit code: 0 if all
is well, 1 if a test has not passed, 2 if the command could not be carried out.
-/
namespace Conformance.Cli

open Files Service Cases Config Runs Text

/-- What the program says, and the code it exits with. -/
structure Answer where
  stdout : String := ""
  stderr : String := ""
  code : Nat := 0
  deriving DecidableEq, Repr, Inhabited

/-- The name of the program and its version. -/
def versionText : String := "rpctest 0.1.0\n"

/-- How the program is used. -/
def helpText : String :=
  String.join
    ["Scripted conformance tests for JSON-RPC services\n\n",
      "Usage: rpctest run [OPTIONS] <PATHS>...\n",
      "       rpctest tokens <SCRIPT>\n\n",
      "Options of run:\n",
      "      --config <FILE>     Configuration file\n",
      "      --client <FILE>     Service executable to launch\n",
      "  -j, --jobs <N>          Number of tests to run at once\n",
      "      --timeout <SECS>    Limit for each test, in seconds\n",
      "      --out <DIR>         Directory for data directories and transcripts\n",
      "  -v, --verbose           Show transcripts\n",
      "      --log-file <FILE>   Also write a log to this file\n",
      "  -h, --help              Show this help\n",
      "  -V, --version           Show the version\n"]

/-- The answer to a command line that is not carried out. -/
def Aside.answer : Aside → Answer
  | misuse => { stderr := "error: wrong usage\n\n" ++ helpText, code := 2 }
  | help => { stdout := helpText }
  | version => { stdout := versionText }

/-- The settings with what the command line says about them. -/
def overridden (o : RunOptions) (s : Settings) : Except Fault Settings :=
  if o.jobs = some 0 then .error (.config "--jobs must be at least 1")
  else
    .ok { s with
      service := { s.service with executable := o.client.getD s.service.executable }
      timeouts := { s.timeouts with run := o.timeout.getD s.timeouts.run }
      runner := { s.runner with
        jobs := o.jobs.getD s.runner.jobs
        outDir := o.out.getD s.runner.outDir } }

variable {σ : Type}

/-- Opens the file that a log is written to, with the directories above it. -/
def openLog (path : String) : Effect σ Unit := do
  match Path.parent? path with
  | some dir => Effect.onDisk (·.createDirs dir)
  | none => pure ()
  let disk := (← get).disk
  let held := (disk.readText path).toOption.getD ""
  if !disk.isFile path then Effect.onDisk (·.writeText path held)

/-- The settings and the tests that the options ask for. `usual` is the configuration file that is read if
none is named. -/
def prepare (usual : Option String) (o : RunOptions) : Effect σ (Settings × List TestCase) := do
  match o.logFile with
  | some path => openLog path
  | none => pure ()
  let disk := (← get).disk
  let prepared : Except Fault (Settings × List TestCase) := do
    let settings ← match o.config with
      | some path => Config.load disk path
      | none => Config.loadOrUsual disk usual
    let settings ← overridden o settings
    let dirs ← Cases.discover disk o.paths
    return (settings, ← dirs.mapM (TestCase.load disk))
  match prepared with
  | .ok done => return done
  | .error f => throw f

/-- What is said before tests run. -/
def heading (s : Settings) (tests : Nat) : String :=
  let plural := if tests = 1 then "" else "s"
  s!"Running {tests} test{plural} ({Nat.min s.runner.jobs tests} at a time)\n"

/-- The answer when tests have run, from their endings. -/
def verdict (time : Nat → String) (verbose : Bool) (s : Settings) (tests : Nat)
    (endings : List Ending) : Answer :=
  let reports := reportsOf endings
  { stdout := String.join
      [heading s tests, shownText time verbose (jobsFor s tests) endings, summaryText reports]
    code := if allPassed reports then 0 else 1 }

/-- The answer to a fault. -/
def faultAnswer (f : Fault) : Answer := { stderr := s!"Error: {f.message}\n", code := 2 }

/-- Runs the tests that the options ask for. -/
def runTests (outside : Outside σ) (time : Nat → String) (usual : Option String) (o : RunOptions)
    (w : World σ) : Answer × World σ :=
  match prepare usual o w with
  | .error f w => (faultAnswer f, w)
  | .ok (_, []) w => ({ stdout := "No tests found\n" }, w)
  | .ok (settings, cases) w =>
    let batch := Batch.run outside settings cases w
    (verdict time o.verbose settings cases.length batch.ended, batch.world)

/-- The text brought to a width by spaces behind it. -/
def padRight (width : Nat) (s : String) : String :=
  s ++ String.ofList (List.replicate (width - s.length) ' ')

/-- The text brought to a width by spaces in front of it. -/
def padLeft (width : Nat) (s : String) : String :=
  String.ofList (List.replicate (width - s.length) ' ') ++ s

/-- The line that shows a token. -/
def tokenLine (t : Script.Token) : String :=
  String.join [padLeft 4 (toString t.place.line), ":", padRight 4 (toString t.place.column), " ",
    padRight 14 t.kind.name, " ", listing t.text, "\n"]

/-- The tokens of a script, a line for each. -/
def showTokens (disk : Disk) (script : String) : Answer :=
  match disk.readText script with
  | .error e => faultAnswer (.fileRead script e.message)
  | .ok src => { stdout := String.join ((Script.tokens src).map tokenLine) }

/-- Carries out a command line. `time` writes how long a run took, and `usual` is the configuration file
that is read if none is named. -/
def perform (outside : Outside σ) (time : Nat → String) (usual : Option String)
    (args : List String) (w : World σ) : Answer × World σ :=
  match Request.read args with
  | .error aside => (aside.answer, w)
  | .ok (.run o) => runTests outside time usual o w
  | .ok (.tokens script) => (showTokens w.disk script, w)

end Conformance.Cli
