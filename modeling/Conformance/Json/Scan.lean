import Conformance.Json.Reader

/-!
# Finding one JSON value in output

The value at the start of a text is delimited without being built. The check is looser than
reading: there is no limit on nesting, and an escape may name half of a surrogate pair. A value that
does not end by itself has to be followed by something that cannot belong to it.
-/
namespace Conformance.Json

/-- The text behind an escape (it starts behind the backslash). -/
def skipEscape? : List Char → Option (List Char)
  | 'u' :: r => (hex4? r).map (·.2)
  | c :: r =>
    if c = '"' || c = '\\' || c = '/' || c = 'b' || c = 'f' || c = 'n' || c = 'r' || c = 't' then
      some r
    else none
  | [] => none

theorem length_skipEscape?_lt {cs r : List Char} (h : skipEscape? cs = some r) :
    r.length < cs.length := by
  unfold skipEscape? at h
  split at h
  · obtain ⟨⟨n, r'⟩, h₁, rfl⟩ := Option.map_eq_some_iff.1 h
    have := length_hex4?_lt h₁
    simp only [List.length_cons]
    omega
  · split at h
    · simp only [Option.some.injEq] at h
      simp [← h]
    · simp at h
  · simp at h

/-- The text behind the closing quote of a string whose opening quote has been passed. -/
def skipString? (cs : List Char) : Option (List Char) :=
  match cs with
  | [] => none
  | '"' :: r => some r
  | '\\' :: r =>
    match h : skipEscape? r with
    | none => none
    | some r' => skipString? r'
  | c :: r => if c.toNat < 0x20 then none else skipString? r
termination_by cs.length
decreasing_by
  · have := length_skipEscape?_lt h
    simp only [List.length_cons]
    omega
  · simp

mutual

/-- The text behind the value at the start of a text. -/
def skipValue? (fuel : Nat) (cs : List Char) : Option (List Char) :=
  match fuel with
  | 0 => none
  | fuel + 1 =>
    match skipSpace cs with
    | 'n' :: 'u' :: 'l' :: 'l' :: r => some r
    | 't' :: 'r' :: 'u' :: 'e' :: r => some r
    | 'f' :: 'a' :: 'l' :: 's' :: 'e' :: r => some r
    | '"' :: r => skipString? r
    | '[' :: r =>
      match skipSpace r with
      | ']' :: r => some r
      | r => skipItems? fuel r
    | '{' :: r =>
      match skipSpace r with
      | '}' :: r => some r
      | r => skipMembers? fuel r
    | cs => (number? cs).map (·.2)

/-- The text behind the closing bracket of an array with at least one more item. -/
def skipItems? (fuel : Nat) (cs : List Char) : Option (List Char) :=
  match fuel with
  | 0 => none
  | fuel + 1 =>
    match skipValue? fuel cs with
    | none => none
    | some r =>
      match skipSpace r with
      | ',' :: r => skipItems? fuel r
      | ']' :: r => some r
      | _ => none

/-- The text behind the closing brace of an object with at least one more member. -/
def skipMembers? (fuel : Nat) (cs : List Char) : Option (List Char) :=
  match fuel with
  | 0 => none
  | fuel + 1 =>
    match skipSpace cs with
    | '"' :: r =>
      match skipString? r with
      | none => none
      | some r =>
        match skipSpace r with
        | ':' :: r =>
          match skipValue? fuel r with
          | none => none
          | some r =>
            match skipSpace r with
            | ',' :: r => skipMembers? fuel r
            | '}' :: r => some r
            | _ => none
        | _ => none
    | _ => none

end

/-- Whether a value that starts with `c` ends by itself. -/
def endsItself (c : Char) : Bool := c = '"' || c = '[' || c = '\x7b'

/-- Whether a number, a truth value or `null` may be followed by this text. -/
def endsValue : List Char → Bool
  | [] => true
  | c :: _ =>
    isSpace c || c = '"' || c = '[' || c = ']' || c = '\x7b' || c = '\x7d' || c = ',' || c = ':'

/-- The text behind the value that stands at the very start of `cs`. -/
def behindValue? (cs : List Char) : Option (List Char) :=
  match cs with
  | [] => none
  | c :: _ =>
    match skipValue? (fuelFor cs) cs with
    | none => none
    | some rest => if endsItself c || endsValue rest then some rest else none

end Conformance.Json
