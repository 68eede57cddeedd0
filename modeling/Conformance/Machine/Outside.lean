import Conformance.Machine.Process
import Conformance.Text.Blank

/-!
# A machine in memory

A machine runs service scripts as processes on a disk. Nobody listens on its network: every exchange with
a service is lost. It serves to try out tests and the handling of processes without anything outside
the program.
-/
namespace Conformance.Machine

open Files Text Service

/-- The directories that programs are looked for in. -/
def programDirs : List String := ["/usr/bin", "/bin"]

/-- The programs that carry out service scripts. -/
def shells : List String := ["sh", "dash", "bash"]

/-- The usual programs, and the scripts that do their work. -/
def programs : List (String × String) :=
  [("true", "exit 0"), ("false", "exit 1"), ("echo", "echo \"$@\""), ("cat", "cat \"$@\""),
    ("sleep", "exec sleep \"$@\""), ("pwd", "pwd"), ("touch", "touch \"$@\""),
    ("mkdir", "mkdir \"$@\""), ("rm", "rm \"$@\""), ("kill", "kill \"$@\"")]

/-- The script of these commands. -/
def scriptOf (body : String) : String := "#!/bin/sh\n" ++ body ++ "\n"

/-- The disk with a program. -/
def withProgram (path : String) (content : Content) (disk : Disk) : Disk :=
  (disk.write path content true).toOption.getD disk

/-- The disk with a directory of programs. -/
def withPrograms (disk : Disk) (dir : String) : Disk :=
  let disk := (disk.createDirs dir).toOption.getD disk
  let disk := shells.foldl (fun disk name =>
    withProgram (Path.join dir name) (.bytes [0x7f, 0x45, 0x4c, 0x46]) disk) disk
  programs.foldl (fun disk (name, body) =>
    withProgram (Path.join dir name) (.text (scriptOf body)) disk) disk

/-- The disk with the usual programs. -/
def furnished (disk : Disk) : Disk := programDirs.foldl withPrograms disk

/-- The processes of the machine. -/
structure Machine where
  processes : List Process := []
  deriving Repr, Inhabited

/-- The interpreter that the first line of a script names, and its argument. -/
def interpreter? (text : String) : Option (String × Option String) := do
  let rest ← dropPrefix? ['#', '!'] text.toList
  let line := (lines rest).headD []
  let line := line.dropWhile fun c => c = ' ' || c = '\t'
  let (path, arg) := match breakAt? (fun c => c = ' ' || c = '\t') line with
    | some (path, arg) => (path, String.ofList (trim arg))
    | none => (line, "")
  if path.isEmpty then none
  else some (String.ofList path, if arg = "" then none else some arg)

/-- Whether the path is that of a program that carries out service scripts. -/
def isShell (path : String) : Bool :=
  programDirs.any fun dir => shells.any fun name => path = Path.join dir name

/-- The file at the path, if it can be executed. -/
def program (disk : Disk) (path : String) : Except FileError Content :=
  match disk.entry path with
  | .error e => .error e
  | .ok (.dir _) => .error .notExecutable
  | .ok (.file content executable) => if executable then .ok content else .error .notExecutable

/-- What a program that is executed comes to. -/
structure Image where
  /-- The path of the script that is carried out. -/
  script : String
  body : String
  args : List String
  deriving DecidableEq, Repr, Inhabited

/-- Whether the argument switches checks of a shell on, which change nothing about a script that passes
them. -/
def isCheck (arg : String) : Bool :=
  match arg.toList with
  | '-' :: flags => !flags.isEmpty && flags.all fun c => c = 'e' || c = 'u'
  | _ => false

/-- What a shell comes to that is executed itself: the script that its first argument names. -/
def shellImage (disk : Disk) (path : String) (args : List String) : Image :=
  match args.dropWhile isCheck with
  | [] => ⟨path, "", []⟩
  | first :: rest =>
    if first.toList.head? = some '-' then ⟨path, "echo 'Illegal option' >&2\nexit 2", []⟩
    else
      match disk.readText first with
      | .ok body => ⟨first, body, rest⟩
      | .error _ => ⟨path, "echo 'cannot open script' >&2\nexit 2", []⟩

/-- What the program at the path comes to, when at most `n` interpreters are named one after the
other. -/
def imageOf (disk : Disk) : Nat → String → List String → Except FileError Image
  | 0, _, _ => .error .badFormat
  | n + 1, path, args => do
    let content ← program disk path
    if isShell path then .ok (shellImage disk path args)
    else
      match content with
      | .bytes _ => .error .badFormat
      | .text text =>
        match interpreter? text with
        | none => .error .badFormat
        | some (interpreter, arg) =>
          let _ ← program disk interpreter
          if isShell interpreter && arg.isNone then .ok ⟨path, text, args⟩
          else imageOf disk n interpreter (arg.toList ++ path :: args)

namespace Machine

/-- Launches a program as a process of the given number. -/
def launch (pid : Nat) (l : Launch) (disk : Disk) (m : Machine) : Except FileError Machine := do
  let directory := "/" ++ "/".intercalate (Path.resolved (Path.join disk.here l.directory))
  if !disk.isDir directory then throw .notFound
  let absolute (path : String) : String := Path.join disk.here path
  let image ← imageOf { disk with here := directory } 4 l.executable l.args
  let process : Process :=
    { pid, directory
      script := image.script
      args := image.args
      todo := (commandsOf image.body).map .run
      stdout := .file (absolute l.stdout)
      stderr := .file (absolute l.stderr) }
  return { processes := m.processes ++ [process] }

/-- Lets milliseconds pass for one process after the other. -/
def passEach (ms : Nat) : List Process → Disk → List Process × Disk
  | [], disk => ([], disk)
  | p :: rest, disk =>
    let (p, disk) := Process.pass (ms + 1) ms (p, disk)
    let (rest, disk) := passEach ms rest disk
    (p :: rest, disk)

/-- The machine with the process of this number changed. -/
def change (pid : Nat) (f : Process → Process) (m : Machine) : Machine :=
  { processes := m.processes.map fun p => if p.pid = pid then f p else p }

/-- How the process of this number ended, if it has. A process that there is not has ended. -/
def status (pid : Nat) (m : Machine) : Option ExitStatus :=
  match m.processes.find? (·.pid = pid) with
  | some p => p.ended
  | none => some (.exited 0)

/-- The characters that no name of a host holds. -/
def isForbidden (c : Char) : Bool := c.toNat ≤ 0x20 || c = '\x7f' || "<>[]^|%\\".toList.contains c

/-- What comes of a request: there is nobody to answer it. -/
def exchange (endpoint : Endpoint) : Exchange :=
  let host := endpoint.host.toList
  if host.isEmpty || host.any isForbidden then .lost "builder error"
  else .lost s!"connection failed: nobody listens at {endpoint.url}"

end Machine

/-- What a run deals with on the machine. -/
def outside : Outside Machine where
  launch := Machine.launch
  pass ms disk m :=
    let (processes, disk) := Machine.passEach ms m.processes disk
    (disk, { processes })
  status := Machine.status
  terminate pid := Machine.change pid (Process.signal 15)
  kill pid := Machine.change pid (Process.signal 9)
  exchange endpoint _ m := (Machine.exchange endpoint, 0, m)
  listening _ := some []
  searchPath := programDirs

end Conformance.Machine
