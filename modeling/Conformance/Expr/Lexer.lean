import Conformance.Expr.Problem

/-!
# Splitting an expression into tokens

Blanks separate tokens and are dropped, except that a line feed separates statements like a
semicolon.
-/
namespace Conformance.Expr

open Text

/-- Whether the character can begin a name. -/
def beginsName (c : Char) : Bool := isAlphabetic c || c = '_'

/-- Whether the character can continue a name. -/
def continuesName (c : Char) : Bool := isAlphanumeric c || c = '_'

/-- Whether the character opens a string literal, which the same character closes. -/
def isQuote (c : Char) : Bool := c = '"' || c = '\x27'

/-- The character that an escape stands for. -/
def unescape (c : Char) : Char :=
  if c = 'n' then '\n' else if c = 't' then '\t' else if c = 'r' then '\r' else c

/-- The content of a string literal whose opening `quote` has been passed, and the text behind the
closing one. -/
def stringBody? (quote : Char) : List Char → Option (List Char × List Char)
  | [] => none
  | [c] => if c = quote && c ≠ '\\' then some ([], []) else none
  | c :: d :: r =>
    if c = '\\' then (stringBody? quote r).map fun (s, rest) => (unescape d :: s, rest)
    else if c = quote then some ([], d :: r)
    else (stringBody? quote (d :: r)).map fun (s, rest) => (c :: s, rest)

/-- The operators, a longer one before its beginning. -/
def operators : List Op :=
  [.eq, .ne, .assign, .plus, .minus, .times, .divide, .rem, .not, .lparen, .rparen, .lbracket,
    .rbracket, .comma]

/-- The operator at the start of a text, and the text behind it. -/
def operator? (cs : List Char) : Option (Op × List Char) :=
  operators.findSome? fun o => (dropPrefix? o.text.toList cs).map fun rest => (o, rest)

/-- What stands at the start of a text: a token, or a blank without one, and the text behind it. -/
def step (c : Char) (r : List Char) : Except Problem (Option Token × List Char) :=
  if c = '\n' then .ok (some .sep, r)
  else if isWhite c then .ok (none, r)
  else if c.isDigit then
    let digits := c :: r.takeWhile Char.isDigit
    match (nat? digits).filter (· < Nat.pow 2 63) with
    | some n => .ok (some (.int n), r.dropWhile Char.isDigit)
    | none => .error (.literalTooLarge (String.ofList digits))
  else if beginsName c then
    .ok (some (.ident (String.ofList (c :: r.takeWhile continuesName))), r.dropWhile continuesName)
  else if isQuote c then
    match stringBody? c r with
    | some (s, rest) => .ok (some (.str (String.ofList s)), rest)
    | none => .error .unterminatedString
  else if c = ';' then .ok (some .sep, r)
  else
    match operator? (c :: r) with
    | some (o, rest) => .ok (some (.op o), rest)
    | none => .error (.unexpectedCharacter c)

theorem length_stringBody?_lt {quote : Char} {cs s rest : List Char}
    (h : stringBody? quote cs = some (s, rest)) : rest.length < cs.length := by
  fun_induction stringBody? quote cs generalizing s rest with
  | case1 => simp at h
  | case2 c hc => simp_all
  | case3 c hc => simp at h
  | case4 d r ih =>
    obtain ⟨⟨s', rest'⟩, h', he⟩ := Option.map_eq_some_iff.1 h
    obtain ⟨-, rfl⟩ := Prod.mk.inj he
    have := ih h'
    simp only [List.length_cons]
    omega
  | case5 d r _ => simp_all
  | case6 c d r _ _ ih =>
    obtain ⟨⟨s', rest'⟩, h', he⟩ := Option.map_eq_some_iff.1 h
    obtain ⟨-, rfl⟩ := Prod.mk.inj he
    have := ih h'
    simp only [List.length_cons] at *
    omega

theorem length_operator?_lt {cs rest : List Char} {o : Op} (h : operator? cs = some (o, rest)) :
    rest.length < cs.length := by
  obtain ⟨o', -, h⟩ := List.exists_of_findSome?_eq_some h
  obtain ⟨rest', hrest, he⟩ := Option.map_eq_some_iff.1 h
  obtain ⟨rfl, rfl⟩ := Prod.mk.inj he
  rw [dropPrefix?_eq_some_iff.1 hrest, List.length_append]
  have : 0 < o'.text.toList.length := by cases o' <;> decide
  omega

/-- Every step passes at least one character. -/
theorem length_step_lt {c : Char} {r rest : List Char} {t : Option Token}
    (h : step c r = .ok (t, rest)) : rest.length < (c :: r).length := by
  have hdrop (p : Char → Bool) : (r.dropWhile p).length < (c :: r).length :=
    Nat.lt_succ_of_le (List.dropWhile_sublist p).length_le
  unfold step at h
  split at h
  · simp_all
  split at h
  · simp_all
  split at h
  · dsimp only at h
    split at h
    · simp only [Except.ok.injEq, Prod.mk.injEq] at h
      rw [← h.2]
      exact hdrop _
    · simp at h
  split at h
  · simp only [Except.ok.injEq, Prod.mk.injEq] at h
    rw [← h.2]
    exact hdrop _
  split at h
  · split at h
    · rename_i s rest' hs
      simp only [Except.ok.injEq, Prod.mk.injEq] at h
      rw [← h.2]
      exact Nat.lt_succ_of_lt (length_stringBody?_lt hs)
    · simp at h
  split at h
  · simp_all
  split at h
  · rename_i o rest' ho
    simp only [Except.ok.injEq, Prod.mk.injEq] at h
    rw [← h.2]
    exact length_operator?_lt ho
  · simp at h

/-- The tokens of a text, or the first thing that is wrong with it. -/
def lex (cs : List Char) : Except Problem (List Token) :=
  match cs with
  | [] => .ok []
  | c :: r =>
    match _h : step c r with
    | .error p => .error p
    | .ok (t, rest) =>
      match lex rest with
      | .error p => .error p
      | .ok ts => .ok (t.toList ++ ts)
termination_by cs.length
decreasing_by exact length_step_lt _h

end Conformance.Expr
