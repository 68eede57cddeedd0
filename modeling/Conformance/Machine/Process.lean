import Conformance.Files.Disk
import Conformance.Machine.Command
import Conformance.Service.World

/-!
# Processes of service scripts

A process carries out the commands of its script one step after the other. Every step takes a millisecond,
and a sleep as long as it says. What the process puts out goes to the files that it was launched with,
until the script says otherwise.
-/
namespace Conformance.Machine

open Files Text Service

/-- Where output goes. -/
inductive Sink where
  | file (path : String)
  | nowhere
  deriving DecidableEq, Repr, Inhabited

/-- What a process still has to do. -/
inductive Step where
  | run (c : Command)
  /-- Goes on with the first commands if the last one succeeded, else with the others. -/
  | choose (yes no : List Command)
  /-- Goes on if the last command succeeded, or if it did not, as `wanted`. -/
  | proceed (wanted : Bool) (c : Command)
  /-- Turns success into failure and failure into success. -/
  | invert
  /-- Puts the streams back to where they went before. -/
  | restore (stdout stderr : Sink)
  deriving Repr, Inhabited

/-- A process. -/
structure Process where
  pid : Nat
  directory : String
  /-- The path of the script. -/
  script : String
  args : List String
  todo : List Step
  /-- The milliseconds until the next step, beyond the usual one. -/
  asleep : Nat := 0
  /-- What the last command ended with. -/
  last : Nat := 0
  /-- The variables that have been assigned, with their values. -/
  assigned : List (String × String) := []
  /-- The signals that are ignored. -/
  ignored : List Nat := []
  /-- What to do on signals. -/
  handlers : List (Nat × List Command) := []
  /-- Signals that wait for their handlers. -/
  pending : List Nat := []
  stdout : Sink
  stderr : Sink
  ended : Option ExitStatus := none
  deriving Repr, Inhabited

/-- A process together with the files that it works on. -/
abbrev Working := Process × Disk

namespace Process

/-- What the parameters of the process stand for. -/
def parameters (p : Process) : Parameters where
  value name :=
    match name with
    | "$" => toString p.pid
    | "?" => toString p.last
    | "#" => toString p.args.length
    | "*" => " ".intercalate p.args
    | "0" => p.script
    | name =>
      match nat? name.toList with
      | some n => (p.args[n - 1]?).getD ""
      | none => (p.assigned.lookup name).getD ""
  args := p.args

/-- The path as seen from the directory of the process. -/
def path (p : Process) (name : String) : String := Path.join p.directory name

/-- The process ended like this. -/
def endAs (status : ExitStatus) (p : Process) : Process :=
  { p with ended := some (p.ended.getD status), todo := [], asleep := 0 }

/-- The last command ended with this number. -/
def finish (code : Nat) (w : Working) : Working := ({ w.1 with last := code }, w.2)

/-! ## Signals -/

/-- The number of a signal, from its name or its number. -/
def signalOf? (name : String) : Option Nat :=
  match nat? name.toList with
  | some n => if n ≤ 64 then some n else none
  | none =>
    if name = "EXIT" then some 0
    else (signalNames.find? fun (_, s) => s = name || s = "SIG" ++ name).map (·.1)

/-- The signals that nothing comes of unless they are handled. -/
def harmless : List Nat := [0, 17, 18, 19, 20, 21, 22, 23, 28]

/-- A signal arrives. -/
def signal (n : Nat) (p : Process) : Process :=
  if p.ended.isSome then p
  else if n = 9 then p.endAs (.killed 9)
  else if p.ignored.contains n then p
  else if (p.handlers.lookup n).isSome then { p with pending := p.pending ++ [n] }
  else if harmless.contains n then p
  else p.endAs (.killed n)

/-! ## Output -/

/-- The text added to the end of where output goes. -/
def emit (sink : Sink) (text : String) (disk : Disk) : Disk :=
  match sink with
  | .nowhere => disk
  | .file path =>
    match disk.readText path with
    | .ok old => (disk.writeText path (old ++ text)).toOption.getD disk
    | .error _ => disk

/-- Puts out a text. -/
def say (text : String) (w : Working) : Working := (w.1, emit w.1.stdout text w.2)

/-- Puts out a complaint. -/
def complain (text : String) (w : Working) : Working :=
  (w.1, emit w.1.stderr (w.1.script ++ ": " ++ text ++ "\n") w.2)

/-- The process with one of its streams redirected. -/
def withStream (stream : Nat) (sink : Sink) (p : Process) : Process :=
  if stream = 2 then { p with stderr := sink } else if stream = 1 then { p with stdout := sink } else p

/-- The file that takes a stream, emptied if asked for; none if it cannot be written. -/
def openFile (target : Word) (empty : Bool) (w : Working) : Option (Sink × Disk) :=
  let name := textOf w.1.parameters target
  if name = "/dev/null" then some (.nowhere, w.2)
  else
    let path := w.1.path name
    let text := if empty then "" else (w.2.readText path).toOption.getD ""
    match w.2.writeText path text with
    | .ok disk => some (.file path, disk)
    | .error _ => none

/-- The streams redirected in order; none if one cannot be. -/
def redirect : List Redirect → Working → Option Working
  | [], w => some w
  | r :: rest, w =>
    match r with
    | .write stream target =>
      (openFile target true w).bind fun (sink, disk) => redirect rest (w.1.withStream stream sink, disk)
    | .append stream target =>
      (openFile target false w).bind fun (sink, disk) => redirect rest (w.1.withStream stream sink, disk)
    | .same stream other =>
      redirect rest (w.1.withStream stream (if other = 2 then w.1.stderr else w.1.stdout), w.2)
    | .read target =>
      let name := textOf w.1.parameters target
      if name = "/dev/null" || w.2.isFile (w.1.path name) then redirect rest w else none

/-! ## Simple commands -/

/-- The character that the letter behind a backslash means. -/
def escaped? : Char → Option Char
  | 'a' => some '\x07'
  | 'b' => some '\x08'
  | 'f' => some '\x0c'
  | 'n' => some '\n'
  | 'r' => some '\r'
  | 't' => some '\t'
  | 'v' => some '\x0b'
  | '\\' => some '\\'
  | _ => none

/-- The text with its escapes carried out, up to one that ends the output, and whether there was
one. -/
def unescaped : List Char → List Char × Bool
  | '\\' :: 'c' :: _ => ([], true)
  | '\\' :: '0' :: a :: b :: c :: r =>
    let digits := ([a, b, c].takeWhile fun d => '0' ≤ d && d ≤ '7')
    let (cs, stopped) := unescaped ([a, b, c].drop digits.length ++ r)
    (Char.ofNat ((natIn? 8 ('0' :: digits)).getD 0 % 256) :: cs, stopped)
  | '\\' :: d :: r =>
    let (cs, stopped) := unescaped r
    match escaped? d with
    | some e => (e :: cs, stopped)
    | none => ('\\' :: d :: cs, stopped)
  | c :: r =>
    let (cs, stopped) := unescaped r
    (c :: cs, stopped)
  | [] => ([], false)
termination_by cs => cs.length
decreasing_by
  all_goals simp_wf
  all_goals grind

/-- What `echo` puts out. -/
def echoed (args : List String) : String :=
  let (args, ending) := match args with
    | "-n" :: rest => (rest, "")
    | args => (args, "\n")
  let (cs, stopped) := unescaped (" ".intercalate args).toList
  String.ofList cs ++ if stopped then "" else ending

/-- The milliseconds that an argument of `sleep` means. -/
def milliseconds? (s : String) : Option Nat :=
  let cs := s.toList
  let (number, unit) := match cs.getLast? with
    | some 's' => (cs.dropLast, 1)
    | some 'm' => (cs.dropLast, 60)
    | some 'h' => (cs.dropLast, 3600)
    | some 'd' => (cs.dropLast, 86400)
    | _ => (cs, 1)
  let whole := number.takeWhile (· ≠ '.')
  let fraction := (number.dropWhile (· ≠ '.')).drop 1
  if whole.isEmpty && fraction.isEmpty then none
  else
    match natIn? 10 ('0' :: whole), natIn? 10 ('0' :: fraction) with
    | some w, some f =>
      let scale := Nat.pow 10 fraction.length
      some (((w * scale + f) * unit * 1000 + scale - 1) / scale)
    | _, _ => none

/-- Does something to the files for each of the names; what goes wrong is complained about. -/
def forEach (what : String) (f : Disk → String → Except FileError Disk) :
    List String → Working → Working
  | [], w => finish 0 w
  | name :: rest, w =>
    match f w.2 (w.1.path name) with
    | .ok disk => forEach what f rest (w.1, disk)
    | .error e =>
      finish 1 (forEach what f rest (complain s!"{what}: {name}: {e.message}" w))

/-- Whether the condition of `test` holds; none if it is none. -/
def condition? (w : Working) : List String → Option Bool
  | "!" :: rest => (condition? w rest).map (!·)
  | ["-f", name] => some (w.2.isFile (w.1.path name))
  | ["-d", name] => some (w.2.isDir (w.1.path name))
  | ["-e", name] => some (w.2.exists? (w.1.path name))
  | ["-x", name] => some (w.2.isProgram (w.1.path name) || w.2.isDir (w.1.path name))
  | ["-n", s] => some (s ≠ "")
  | ["-z", s] => some (s = "")
  | [a, "=", b] => some (a = b)
  | [a, "!=", b] => some (a ≠ b)
  | [a, "-eq", b] => some (a.toInt? = b.toInt?)
  | [a, "-ne", b] => some (a.toInt? ≠ b.toInt?)
  | [a, "-lt", b] => some (a.toInt?.getD 0 < b.toInt?.getD 0)
  | [a, "-gt", b] => some (a.toInt?.getD 0 > b.toInt?.getD 0)
  | [s] => some (s ≠ "")
  | [] => some false
  | _ => none

/-- Sets what is to be done on signals. -/
def setTrap (action : String) : List String → Working → Working
  | [], w => finish 0 w
  | name :: rest, w =>
    match signalOf? name with
    | none => finish 1 (complain s!"trap: {name}: bad trap" w)
    | some n =>
      let p := w.1
      let handlers := p.handlers.filter (·.1 ≠ n)
      let ignored := p.ignored.filter (· ≠ n)
      let p :=
        if action = "-" then { p with handlers, ignored }
        else if action = "" then { p with handlers, ignored := n :: ignored }
        else { p with handlers := (n, commandsOf action) :: handlers, ignored }
      setTrap action rest (p, w.2)

/-- Sends a signal to processes. Only the process itself can be reached. -/
def sendSignal (n : Nat) : List String → Working → Working
  | [], w => w
  | target :: rest, w =>
    if nat? target.toList = some w.1.pid then sendSignal n rest (w.1.signal n, w.2)
    else finish 1 (sendSignal n rest (complain "kill: No such process" w))

/-- What `kill` does. -/
def killed (args : List String) (w : Working) : Working :=
  let bad : Working := finish 2 (complain "kill: bad signal" w)
  let w := finish 0 w
  match args with
  | "-s" :: name :: targets =>
    match signalOf? name with
    | some n => sendSignal n targets w
    | none => bad
  | "--" :: targets => sendSignal 15 targets w
  | first :: targets =>
    match first.toList with
    | '-' :: name =>
      match signalOf? (String.ofList name) with
      | some n => sendSignal n targets w
      | none => bad
    | _ => sendSignal 15 (first :: targets) w
  | [] => bad

/-- The process exits, with the number that is asked for or that of the last command. -/
def exited (args : List String) (w : Working) : Working :=
  match args with
  | [] => (w.1.endAs (.exited w.1.last), w.2)
  | code :: _ =>
    match nat? code.toList with
    | some n => (w.1.endAs (.exited (n % 256)), w.2)
    | none =>
      let w := complain s!"exit: Illegal number: {code}" w
      (w.1.endAs (.exited 2), w.2)

/-- The files without what is at the path, and a directory only if all in it may go. -/
def removed (recursive force : Bool) (disk : Disk) (path : String) : Except FileError Disk :=
  if disk.isDir path then (if recursive then disk.removeDir path else .error .isDirectory)
  else
    match disk.removeFile path with
    | .ok disk => .ok disk
    | .error e => if force then .ok disk else .error e

/-- The letters of the options in front, and the other arguments. -/
def options (args : List String) : List Char × List String :=
  let isOption (s : String) : Bool := s.toList.head? = some '-' && s ≠ "-"
  ((args.takeWhile isOption).flatMap (·.toList.drop 1), args.dropWhile isOption)

/-- Puts out the files in order. -/
def concatenated : List String → Working → Working
  | [], w => finish 0 w
  | name :: rest, w =>
    match w.2.readText (w.1.path name) with
    | .ok text => concatenated rest (say text w)
    | .error e => finish 1 (concatenated rest (complain s!"cat: {name}: {e.message}" w))

/-- Carries out the command of this name; none if there is no such command. -/
def perform? (name : String) (args : List String) (w : Working) : Option Working :=
  let (flags, names) := options args
  match name with
  | ":" | "true" => some (finish 0 w)
  | "false" => some (finish 1 w)
  | "echo" => some (finish 0 (say (echoed args) w))
  | "pwd" => some (finish 0 (say (w.1.directory ++ "\n") w))
  | "cd" =>
    let target := args.headD w.1.directory
    let dir := w.1.path target
    if w.2.isDir dir then some (finish 0 ({ w.1 with directory := dir }, w.2))
    else some (finish 2 (complain s!"cd: no directory {target}" w))
  | "touch" =>
    some (forEach name (fun disk path =>
      if disk.exists? path then .ok disk else disk.writeText path "") names w)
  | "mkdir" =>
    some (forEach name (fun disk path =>
      if flags.contains 'p' then disk.createDirs path
      else if disk.exists? path then .error .present
      else if disk.isDir ((Path.parent? path).getD "/") then disk.createDirs path
      else .error .notFound) names w)
  | "rm" =>
    some (forEach name
      (removed (flags.contains 'r' || flags.contains 'R') (flags.contains 'f')) names w)
  | "cat" => some (concatenated names w)
  | "sleep" =>
    match names.mapM milliseconds? with
    | some times => if names.isEmpty then some (finish 1 (complain "sleep: missing operand" w))
      else some (finish 0 ({ w.1 with asleep := times.foldl Nat.add 0 }, w.2))
    | none =>
      if names = ["infinity"] then some ({ w.1 with asleep := wordBound }, w.2)
      else some (finish 1 (complain "sleep: invalid time interval" w))
  | "exit" => some (exited args w)
  | "kill" => some (killed args w)
  | "trap" =>
    match args with
    | "--" :: action :: names | action :: names => some (setTrap action names w)
    | [] => some (finish 0 w)
  | "test" =>
    match condition? w args with
    | some holds => some (finish (if holds then 0 else 1) w)
    | none => some (finish 2 (complain "test: unexpected operator" w))
  | "[" =>
    match if args.getLast? = some "]" then condition? w args.dropLast else none with
    | some holds => some (finish (if holds then 0 else 1) w)
    | none => some (finish 2 (complain "[: unexpected operator" w))
  | _ => none

/-- The variable and the value that a word sets. -/
def assignment? (p : Parameters) : Word → Option (String × String)
  | .bare s :: rest => do
    let (name, value) ← breakAt? (· = '=') s.toList
    if !name.isEmpty && name.all isNameChar && !(name.headD '0').isDigit then
      some (String.ofList name, String.ofList value ++ textOf p rest)
    else none
  | _ => none

/-- Sets variables. -/
def assign : List (String × String) → Process → Process
  | [], p => p
  | (name, value) :: rest, p =>
    assign rest { p with assigned := (name, value) :: p.assigned.filter (·.1 ≠ name) }

/-- Carries out a simple command. -/
def simple (words : List Word) (redirects : List Redirect) (w : Working) : Working :=
  let p := w.1
  let given := words.takeWhile fun word => (assignment? p.parameters word).isSome
  let set := given.filterMap (assignment? p.parameters)
  let fields := (words.drop given.length).flatMap (fieldsOf p.parameters)
  match redirect redirects w with
  | none => finish 2 (complain "cannot open file" w)
  | some w' =>
    let restored (done : Working) : Working :=
      ({ done.1 with stdout := p.stdout, stderr := p.stderr }, done.2)
    match fields with
    | [] => finish 0 (restored (assign set w'.1, w'.2))
    | ["exec"] => finish 0 w'
    | "exec" :: name :: args =>
      let q := { w'.1 with todo := [], handlers := [], pending := [] }
      match perform? name args (q, w'.2) with
      | some done => done
      | none => exited ["127"] (complain s!"exec: {name}: not found" (q, w'.2))
    | name :: args =>
      match perform? name args w' with
      | some done => restored done
      | none => finish 127 (restored (complain s!"{name}: not found" w'))

/-! ## Running -/

/-- Carries out one step. -/
def step (s : Step) (w : Working) : Working :=
  let first (steps : List Step) : Working := ({ w.1 with todo := steps ++ w.1.todo }, w.2)
  match s with
  | .choose yes no =>
    if w.1.last = 0 then first (yes.map .run) else finish 0 (first (no.map .run))
  | .proceed wanted c => if (w.1.last == 0) == wanted then first [.run c] else w
  | .invert => finish (if w.1.last = 0 then 1 else 0) w
  | .restore stdout stderr => ({ w.1 with stdout, stderr }, w.2)
  | .run c =>
    match c with
    | .simple words redirects => simple words redirects w
    | .both a b => first [.run a, .proceed true b]
    | .either a b => first [.run a, .proceed false b]
    | .not c => first [.run c, .invert]
    | .group body => first (body.map .run)
    | .redirected c redirects =>
      match redirect redirects w with
      | none => finish 2 (complain "cannot open file" w)
      | some (p, disk) =>
        let todo := [.run c, .restore w.1.stdout w.1.stderr] ++ p.todo
        ({ p with todo }, disk)
    | .choice test yes no => first (test.map .run ++ [.choose yes no])
    | .loop true test body =>
      first (test.map .run ++ [.choose (body ++ [.loop true test body]) []])
    | .loop false test body =>
      first (test.map .run ++ [.choose [] (body ++ [.loop false test body])])
    | .unreadable => exited ["2"] (complain "Syntax error" w)

/-- The process with the handlers of pending signals put in front of what it has to do. -/
def handle (p : Process) : Process :=
  { p with
    pending := []
    todo := (p.pending.flatMap fun n => (p.handlers.lookup n).getD []).map .run ++ p.todo }

/-- One step of a process that is not asleep. A process that has nothing left to do exits. -/
def advance (w : Working) : Working :=
  let p := w.1.handle
  match p.todo with
  | [] => (p.endAs (.exited p.last), w.2)
  | s :: rest => step s ({ p with todo := rest }, w.2)

/-- Lets milliseconds pass. -/
def pass : Nat → Nat → Working → Working
  | 0, _, w => w
  | n + 1, ms, w =>
    if w.1.ended.isSome || ms = 0 then w
    else if w.1.asleep = 0 then pass n (ms - 1) (advance w)
    else
      let slept := Nat.min ms w.1.asleep
      pass n (ms - slept) ({ w.1 with asleep := w.1.asleep - slept }, w.2)

end Process

end Conformance.Machine
