import Conformance.Script.Lexer
import Conformance.Script.Session

/-!
# Running a script

The tokens of a script are carried out one after the other. A line that a marker opens is a command
for the active client; all other text is expected in the client's output. A mismatch is recorded and
the script goes on; a fault ends it.
-/
namespace Conformance.Script

open Text Expr

/-- How the result of an expectation shows in the transcript. -/
inductive Echo where
  /-- As script text: what was matched, or what was expected and what was there. -/
  | literal
  /-- By way of an expression: what was matched is collected. -/
  | capture
  /-- By way of a reference, whose value has been collected already. -/
  | silent
  deriving DecidableEq, Repr, Inhabited

/-- What a script does: it changes the session, and may end with a fault. -/
abbrev Action (σ : Type) := EStateM Fault (Session σ)

/-- A token's place in a file. -/
structure Site where
  file : String
  place : Position
  deriving DecidableEq, Repr, Inhabited

namespace Site

/-- The fault of a script that cannot be carried out here. -/
def syntaxFault (site : Site) (message : String) : Fault :=
  .scriptSyntax site.file site.place.line site.place.column message

end Site

/-- A command line that has been opened: its text so far, and the place of its marker. -/
structure CommandLine where
  text : String
  place : Position
  deriving DecidableEq, Repr, Inhabited

section Actions

variable {σ : Type}

/-- Adds text to the transcript. -/
def write (text : String) : Action σ Unit := modify (·.write text)

/-- The active client, which has to be registered. -/
def activeClient : Action σ Client := do
  let s ← get
  match s.active with
  | none => throw .noActiveClient
  | some name =>
    match s.client? name with
    | none => throw (.unknownClient name)
    | some c => return c

/-- The program breaks down. No script can go on after that. -/
def crash {α : Type} : Action σ α := do
  modify fun s => { s with crashed := true }
  throw (.internal "output is read from within a character")

/-- The unread output of a client. The program breaks down if it starts within a character. -/
def unread (client : Client) : Action σ String :=
  match client.output.residual? with
  | some residual => pure residual
  | none => crash

/-- Records the outcome of an expectation on `client` and shows it. -/
def record (site : Site) (echo : Echo) (client : Client) : Output.Outcome → Action σ Captures
  | .matched text groups => do
    match echo with
    | .literal => write text
    | .capture => modify fun s => { s with matched := s.matched ++ [text] }
    | .silent => pure ()
    return groups
  | .mismatch expected actual => do
    if echo = .literal then
      write ("!\x7b " ++ expected ++ " \x7d!~\x7b " ++ actual ++ " \x7d~")
    let failure : Output.Failure :=
      { file := site.file, line := site.place.line, column := site.place.column,
        client := client.name, command := client.lastCommand, expected, actual }
    modify fun s => { s with failures := s.failures ++ [failure] }
    return []

/-- Checks one expectation against the output of the active client. Nothing is checked while
expectations are disabled, nor for an empty text. -/
def check (site : Site) (echo : Echo) (expectation : Expectation) : Action σ Captures := do
  let s ← get
  if !s.expectEnabled then
    match echo, expectation with
    | .literal, .literal text => write text
    | _, _ => pure ()
    return []
  else if expectation = .literal "" then return []
  else
    let client ← activeClient
    let _ ← unread client
    let (result, output) := client.output.check expectation
    modify (·.updateClient client.name fun c => { c with output })
    match result with
    | .error p => throw p.fault
    | .ok outcome => record site echo client outcome

/-- Shows what was matched since the last time, if `shown`, and forgets it. -/
def dumpMatched (shown : Bool) : Action σ Unit := do
  let s ← get
  if shown then write ("~\x7b" ++ String.join s.matched ++ "\x7d~")
  modify fun s => { s with matched := [] }

/-- Shows what the last command put out and no expectation has read. -/
def flushResidual : Action σ Unit := do
  let s ← get
  match s.pending with
  | none => return
  | some name =>
    set { s with pending := none }
    match s.client? name with
    | none => return
    | some c =>
      let residual ← unread c
      let trimmed := residual.trimWhite
      if trimmed = "" then return
      else if s.expectEnabled && s.showMatch then write ("!\x7b \x7d!~\x7b " ++ trimmed ++ " \x7d~\n")
      else write residual

/-- The setting that the word of a switch stands for. -/
def switch? : String → Option Bool
  | "enable" => some true
  | "disable" => some false
  | _ => none

/-- A directive, from the words of its command line, and what it does to the session. -/
def directive? (words : List String) (s : Session σ) : Option (Session σ) :=
  match words with
  | ["!client", name] => some { s with active := some name }
  | ["!expect", word] => (switch? word).map fun on => { s with expectEnabled := on }
  | ["!showmatch", word] => (switch? word).map fun on => { s with showMatch := on }
  | ["!showlinenumber", word] => (switch? word).map fun on => { s with showLineNumbers := on }
  | ["!showlineno", word] => (switch? word).map fun on => { s with showLineNumbers := on }
  | _ => none

/-- Sends a command to the active client, whose output is then that of the command. -/
def sendCommand (link : Link σ) (command : String) (line : Nat) : Action σ Unit := do
  let client ← activeClient
  let s ← get
  let (reply, state) := link.send client.name command s.link
  set { s with link := state, sent := s.sent ++ [(client.name, command)] }
  match reply with
  | .error f => throw (.command command line f)
  | .ok text =>
    modify (·.updateClient client.name fun c =>
      { c with output := c.output.reset text, lastCommand := some command })
    modify fun s => { s with pending := some client.name }

/-- Carries out a complete command line. -/
def execute (link : Link σ) (file : String) (line : CommandLine) : Action σ Unit := do
  let command := line.text.trimWhite
  if command.toList.head? = some '!' then
    match directive? command.whiteWords (← get) with
    | some s => set s
    | none => throw (.unknownDirective file line.place.line line.place.column command)
  else sendCommand link command line.place.line

/-- The text of the variable that a reference names. -/
def resolve (site : Site) (name : String) : Action σ String := do
  match (← get).vars.get? name with
  | some v => return v.text
  | none => throw (.unknownVariable site.file name site.place.line site.place.column)

/-- Evaluates an expression block. The variables are handed to the evaluation, and its expectations
are checked here. -/
def evaluate (site : Site) (source : String) : Action σ Value := fun s =>
  match Expr.eval (check site .capture) source (s.vars, s) with
  | .ok v (vars, s) => .ok v { s with vars }
  | .error f (vars, s) =>
    let f := match f with
      | .expression message => site.syntaxFault message
      | f => f
    .error f { s with vars }

/-- What is said about a block that cannot be taken apart. -/
def malformed : String := "malformed expression block"

/-- Carries out an expression block. A string result is expected in the output. -/
def block (site : Site) (token : Token) : Action σ Unit := do
  match token.expressionParts? with
  | none => throw (site.syntaxFault malformed)
  | some (source, _) =>
    let v ← evaluate site source
    match v with
    | .str text => let _ ← check site .capture (.literal text)
    | _ => pure ()
    write ("$\x7b" ++ source ++ "\x7d$")
    dumpMatched (← get).showMatch

/-- What is said about a block without its end. -/
def unterminated : String := "unterminated expression block, expected '\x7d$'"

/-- Carries out one token. `line` is the command line that is open, and the result is the one open
after the token. -/
def step (link : Link σ) (file : String) (line : Option CommandLine) (token : Token) :
    Action σ (Option CommandLine) := do
  let site : Site := ⟨file, token.place⟩
  let append : Option CommandLine := line.map fun l => { l with text := l.text ++ token.text }
  match token.kind, line with
  | .commandMarker, none =>
    flushResidual
    if (← get).showLineNumbers then write s!"L{token.place.line}: "
    write marker
    return some ⟨"", token.place⟩
  | .expression, line =>
    block site token
    return line
  | .reference, line =>
    let value ← resolve site (String.ofList (token.text.toList.drop 1))
    modify fun s => { s with matched := s.matched ++ [value] }
    if line.isNone then let _ ← check site .silent (.literal value)
    write token.text
    dumpMatched (← get).showMatch
    return line.map fun l => { l with text := l.text ++ value }
  | .comment, line =>
    write token.text
    return line
  | .whitespace, line | .newline, line =>
    if token.endsLine then
      match line with
      | some l => execute link file l
      | none => pure ()
      write token.text
      return none
    else
      write token.text
      return append
  | .literal, line | .commandMarker, line =>
    if occurs ['$', '\x7b'] token.text.toList then throw (site.syntaxFault unterminated)
    if line.isSome then write token.text
    else let _ ← check site .literal (.literal token.text)
    dumpMatched false
    return append

/-- Carries out tokens in order. -/
def runTokens (link : Link σ) (file : String) (line : Option CommandLine) :
    List Token → Action σ (Option CommandLine)
  | [] => pure line
  | t :: ts => do
    let line ← step link file line t
    runTokens link file line ts

/-- Runs a script; `file` names it in faults and failures. -/
def runScript (link : Link σ) (file src : String) : Action σ Unit := do
  match ← runTokens link file none (tokens src) with
  | some line => execute link file line
  | none => pure ()
  flushResidual

end Actions

end Conformance.Script
