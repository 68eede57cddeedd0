import Conformance.Machine.Word
import Conformance.Text.Decimal
import Conformance.Text.Span

/-!
# Commands of a service script

A service is launched by a script in a small command language: simple commands with redirected output,
sequences, conditions and loops. A script is read command by command; where no command can be read, it
ends with a complaint.
-/
namespace Conformance.Machine

open Text

/-- Where a stream of a command goes instead. -/
inductive Redirect where
  /-- To a file, which is emptied first. -/
  | write (stream : Nat) (target : Word)
  /-- To the end of a file. -/
  | append (stream : Nat) (target : Word)
  /-- To where another stream goes. -/
  | same (stream other : Nat)
  /-- From a file. -/
  | read (target : Word)
  deriving DecidableEq, Repr, Inhabited

/-- A command. -/
inductive Command where
  | simple (words : List Word) (redirects : List Redirect)
  | both (first second : Command)
  | either (first second : Command)
  | not (c : Command)
  | group (body : List Command)
  /-- A command whose streams are redirected while it runs. -/
  | redirected (c : Command) (redirects : List Redirect)
  | choice (test yes no : List Command)
  /-- Repeats the body as long as the test comes out as `while_`. -/
  | loop (while_ : Bool) (test body : List Command)
  /-- What follows cannot be read. -/
  | unreadable
  deriving Repr, Inhabited

/-! ## Tokens -/

/-- A token of a script. -/
inductive Token where
  | word (w : Word)
  | newline
  | operator (s : String)
  /-- The start of a redirection, in front of its target. -/
  | redirect (stream : Nat) (s : String)
  deriving DecidableEq, Repr, Inhabited

/-- Whether the character ends a word. -/
def isMeta (c : Char) : Bool := " \t\n;&|()<>".toList.contains c

/-- Whether the character may stand in the name of a variable. -/
def isNameChar (c : Char) : Bool := c.isAlphanum || c = '_'

/-- The parameter behind a dollar sign, and the rest. -/
def readParam (isQuoted : Bool) : List Char → Option (Piece × List Char)
  | '@' :: r => some (.args isQuoted, r)
  | '*' :: r => some (if isQuoted then .param "*" true else .args false, r)
  | '\x7b' :: r =>
    match breakAt? (· = '\x7d') r with
    | some (['@'], rest) => some (.args isQuoted, rest)
    | some (name, rest) =>
      if name.isEmpty || !name.all isNameChar then none
      else some (.param (String.ofList name) isQuoted, rest)
    | none => none
  | '(' :: _ => none
  | c :: r =>
    if c.isDigit || c = '$' || c = '?' || c = '#' || c = '!' then some (.param c.toString isQuoted, r)
    else if isNameChar c then
      some (.param (String.ofList (c :: r.takeWhile isNameChar)) isQuoted, r.dropWhile isNameChar)
    else some (.quoted "$", c :: r)
  | [] => some (.quoted "$", [])

/-- The pieces between double quotes, and the rest behind them. `held` is the reversed text before. -/
def readQuoted (held : List Char) : Nat → List Char → Option (Word × List Char)
  | 0, _ => none
  | _, [] => none
  | n + 1, c :: r =>
    let text : Piece := .quoted (String.ofList held.reverse)
    match c, r with
    | '"', r => some ([text], r)
    | '\\', '\n' :: r => readQuoted held n r
    | '\\', d :: r =>
      if d = '"' || d = '\\' || d = '$' || d = '\x60' then readQuoted (d :: held) n r
      else readQuoted (d :: '\\' :: held) n r
    | '\x60', _ => none
    | '$', r => do
      let (p, r) ← readParam true r
      let (w, r) ← readQuoted [] n r
      return (text :: p :: w, r)
    | c, r => readQuoted (c :: held) n r

/-- The pieces of a word, and the rest behind it. -/
def readWord : Nat → List Char → Option (Word × List Char)
  | 0, _ => none
  | _, [] => some ([], [])
  | n + 1, c :: r =>
    let more (p : Word) (r : List Char) : Option (Word × List Char) := do
      let (w, r) ← readWord n r
      match p, w with
      | [.bare s], .bare t :: w => return (.bare (s ++ t) :: w, r)
      | p, w => return (p ++ w, r)
    if isMeta c then some ([], c :: r)
    else
      match c, r with
      | '\x27', r => do
        let (s, r) ← breakAt? (· = '\x27') r
        more [.quoted (String.ofList s)] r
      | '"', r => do
        let (w, r) ← readQuoted [] n r
        more w r
      | '\\', '\n' :: r => readWord n r
      | '\\', d :: r => more [.quoted d.toString] r
      | '\x60', _ => none
      | '$', r => do
        let (p, r) ← readParam false r
        more [p] r
      | c, r => more [.bare c.toString] r

/-- The operator that the text begins with, and the rest. -/
def readOperator? : List Char → Option (Token × List Char)
  | '&' :: '&' :: r => some (.operator "&&", r)
  | '|' :: '|' :: r => some (.operator "||", r)
  | ';' :: ';' :: _ => none
  | ';' :: r => some (.operator ";", r)
  | '&' :: r => some (.operator "&", r)
  | '|' :: r => some (.operator "|", r)
  | '(' :: r => some (.operator "(", r)
  | ')' :: r => some (.operator ")", r)
  | _ => none

/-- The start of a redirection of `stream`, and the rest. -/
def readRedirect? (stream : Option Nat) : List Char → Option (Token × List Char)
  | '>' :: '>' :: r => some (.redirect (stream.getD 1) ">>", r)
  | '>' :: '&' :: r => some (.redirect (stream.getD 1) ">&", r)
  | '>' :: '|' :: r => some (.redirect (stream.getD 1) ">", r)
  | '>' :: r => some (.redirect (stream.getD 1) ">", r)
  | '<' :: '<' :: _ => none
  | '<' :: r => some (.redirect (stream.getD 0) "<", r)
  | _ => none

/-- The tokens of a script as far as it can be read, and whether that is all of it. -/
def tokensOf : Nat → List Char → List Token × Bool
  | 0, _ => ([], false)
  | _, [] => ([], true)
  | n + 1, c :: r =>
    let next (t : Token) (r : List Char) : List Token × Bool :=
      let (ts, all) := tokensOf n r
      (t :: ts, all)
    match c, r with
    | ' ', r | '\t', r => tokensOf n r
    | '\\', '\n' :: r => tokensOf n r
    | '\n', r => next .newline r
    | '#', r => tokensOf n (r.dropWhile (· ≠ '\n'))
    | c, r =>
      let digits := (c :: r).takeWhile (·.isDigit)
      let behind := (c :: r).dropWhile (·.isDigit)
      let stream := nat? digits
      match readRedirect? stream (if stream.isSome then behind else c :: r) with
      | some (t, r) => next t r
      | none =>
        match readOperator? (c :: r) with
        | some (t, r) => next t r
        | none =>
          match readWord (n + 1) (c :: r) with
          | some (w, r) => if w.isEmpty then ([], false) else next (.word w) r
          | none => ([], false)

/-! ## Reading commands -/

/-- The words that begin or end a compound command. -/
def reserved : List String :=
  ["if", "then", "elif", "else", "fi", "while", "until", "do", "done", "for", "case", "esac", "in",
    "\x7b", "\x7d", "!"]

/-- The reserved word that the tokens begin with, and the rest. -/
def reserved? : List Token → Option (String × List Token)
  | .word w :: rest => do
    let s ← bareText? w
    if reserved.contains s then some (s, rest) else none
  | _ => none

/-- The tokens behind newlines. -/
def skipNewlines : List Token → List Token
  | .newline :: rest => skipNewlines rest
  | ts => ts

/-- The tokens behind this reserved word, which has to come. -/
def behind (word : String) (ts : List Token) : Option (List Token) := do
  let (s, rest) ← reserved? ts
  if s = word then some rest else none

/-- The redirection with this start and target. -/
def redirectTo (stream : Nat) (start : String) (target : Word) : Option Redirect :=
  if start = ">" then some (.write stream target)
  else if start = ">>" then some (.append stream target)
  else if start = "<" then some (.read target)
  else do
    let s ← bareText? target
    let other ← nat? s.toList
    return .same stream other

/-- The words and redirections of a simple command, and the rest. -/
def readSimple (words : List Word) (redirects : List Redirect) :
    List Token → Option (Command × List Token)
  | .word w :: rest => readSimple (words ++ [w]) redirects rest
  | .redirect stream start :: .word target :: rest => do
    let r ← redirectTo stream start target
    readSimple words (redirects ++ [r]) rest
  | .redirect .. :: _ => none
  | ts => if words.isEmpty && redirects.isEmpty then none else some (.simple words redirects, ts)

/-- A compound command with the redirections that follow it, and the rest. -/
def readRedirects (c : Command) (redirects : List Redirect) :
    List Token → Option (Command × List Token)
  | .redirect stream start :: .word target :: rest => do
    let r ← redirectTo stream start target
    readRedirects c (redirects ++ [r]) rest
  | .redirect .. :: _ => none
  | ts => some (if redirects.isEmpty then c else .redirected c redirects, ts)

mutual

/-- A command without `&&` and `||` outside it, and the rest. -/
def readOne : Nat → List Token → Option (Command × List Token)
  | 0, _ => none
  | n + 1, ts =>
    match reserved? ts with
    | none => readSimple [] [] ts
    | some ("!", rest) => do
      let (c, rest) ← readOne n rest
      return (.not c, rest)
    | some ("\x7b", rest) => do
      let (body, rest) ← readList n rest
      readRedirects (.group body) [] (← behind "\x7d" rest)
    | some ("if", rest) => do
      let (c, rest) ← readChoice n rest
      readRedirects c [] rest
    | some ("while", rest) => do
      let (c, rest) ← readLoop true n rest
      readRedirects c [] rest
    | some ("until", rest) => do
      let (c, rest) ← readLoop false n rest
      readRedirects c [] rest
    | some _ => none

/-- What follows `if`. -/
def readChoice : Nat → List Token → Option (Command × List Token)
  | 0, _ => none
  | n + 1, ts => do
    let (test, ts) ← readList n ts
    let (yes, ts) ← readList n (← behind "then" ts)
    match reserved? ts with
    | some ("elif", ts) => do
      let (no, ts) ← readChoice n ts
      return (.choice test yes [no], ts)
    | some ("else", ts) => do
      let (no, ts) ← readList n ts
      return (.choice test yes no, ← behind "fi" ts)
    | some ("fi", ts) => return (.choice test yes [], ts)
    | _ => none

/-- What follows `while` or `until`. -/
def readLoop (while_ : Bool) : Nat → List Token → Option (Command × List Token)
  | 0, _ => none
  | n + 1, ts => do
    let (test, ts) ← readList n ts
    let (body, ts) ← readList n (← behind "do" ts)
    return (.loop while_ test body, ← behind "done" ts)

/-- Commands joined by `&&` and `||`. -/
def readJoined (left : Command) : Nat → List Token → Option (Command × List Token)
  | 0, _ => none
  | n + 1, ts =>
    match ts with
    | .operator "&&" :: rest => do
      let (right, rest) ← readOne n (skipNewlines rest)
      readJoined (.both left right) n rest
    | .operator "||" :: rest => do
      let (right, rest) ← readOne n (skipNewlines rest)
      readJoined (.either left right) n rest
    | ts => some (left, ts)

/-- A command with all that is joined to it, and the rest. -/
def readCommand : Nat → List Token → Option (Command × List Token)
  | 0, _ => none
  | n + 1, ts => do
    let (c, rest) ← readOne n ts
    readJoined c n rest

/-- The commands up to a reserved word, at least one. -/
def readList : Nat → List Token → Option (List Command × List Token)
  | 0, _ => none
  | n + 1, ts => do
    let (c, rest) ← readCommand n (skipNewlines ts)
    let rest ← match rest with
      | .newline :: rest => some (skipNewlines rest)
      | .operator ";" :: rest => some (skipNewlines rest)
      | rest => if (reserved? rest).isSome then some rest else none
    match reserved? rest with
    | some (s, _) =>
      if ["then", "elif", "else", "fi", "do", "done", "\x7d"].contains s then return ([c], rest)
      else
        let (cs, rest) ← readList n rest
        return (c :: cs, rest)
    | none =>
      let (cs, rest) ← readList n rest
      return (c :: cs, rest)

end

/-- The commands of a whole script, with at most `n` of them. -/
def readAll : Nat → List Token → Bool → List Command
  | 0, _, _ => [.unreadable]
  | n + 1, ts, all =>
    match skipNewlines ts with
    | [] => if all then [] else [.unreadable]
    | ts =>
      match readCommand (4 * ts.length + 4) ts with
      | none => [.unreadable]
      | some (c, .newline :: rest) => c :: readAll n rest all
      | some (c, .operator ";" :: rest) => c :: readAll n rest all
      | some (c, []) => if all then [c] else [.unreadable]
      | some _ => [.unreadable]

/-- The commands of a script. -/
def commandsOf (script : String) : List Command :=
  let cs := script.toList
  let (ts, all) := tokensOf (cs.length + 1) cs
  readAll (ts.length + 1) ts all

end Conformance.Machine
