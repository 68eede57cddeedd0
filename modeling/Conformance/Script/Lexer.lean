import Conformance.Script.Token

/-!
# Splitting a script into tokens

At every place of a script the lexemes are tried in a fixed order: newline, blank run with the
newline behind it, expression block with its recorded result, `$` reference, command marker,
comment. What lies between two lexemes is one literal. No character is lost, so the texts of the
tokens put together give the script again.
-/
namespace Conformance.Script

open Text

/-- A lexeme found at the start of a text: its kind, its characters and the text behind it. -/
structure Lexeme where
  kind : Kind
  text : List Char
  rest : List Char
  deriving DecidableEq, Repr

/-- The newline at the start of a text: CR LF, CR or LF. -/
def newline? : List Char → Option (List Char × List Char)
  | '\r' :: '\n' :: r => some (['\r', '\n'], r)
  | '\r' :: r => some (['\r'], r)
  | '\n' :: r => some (['\n'], r)
  | _ => none

/-- The blank run at the start of a text, together with a newline directly behind it. -/
def blankRun? (cs : List Char) : Option (List Char × List Char) :=
  match cs.takeWhile isInlineBlank with
  | [] => none
  | blank =>
    let rest := cs.dropWhile isInlineBlank
    match newline? rest with
    | some (nl, rest) => some (blank ++ nl, rest)
    | none => some (blank, rest)

/-- The text between `opening` and the first `closing` behind it, with both brackets. -/
def bracketed? (opening closing cs : List Char) : Option (List Char × List Char) := do
  let body ← dropPrefix? opening cs
  let (inside, rest) ← breakOn? closing body
  return (opening ++ inside ++ closing, rest)

/-- The expression block at the start of a text, with the recorded result directly behind it. -/
def block? (cs : List Char) : Option (List Char × List Char) := do
  let (block, rest) ← bracketed? ['$', '{'] ['}', '$'] cs
  match bracketed? ['~', '{'] ['}', '~'] rest with
  | some (recorded, rest) => return (block ++ recorded, rest)
  | none => return (block, rest)

/-- The `$` reference at the start of a text. -/
def reference? : List Char → Option (List Char × List Char)
  | '$' :: c :: r =>
    if isNameStart c then
      some ('$' :: c :: r.takeWhile isNameRest, r.dropWhile isNameRest)
    else none
  | _ => none

/-- The command marker at the start of a text. -/
def commandMarker? (cs : List Char) : Option (List Char × List Char) :=
  (dropPrefix? ['>', '>', '>'] cs).map fun rest => (['>', '>', '>'], rest)

/-- The comment at the start of a text. -/
def comment? (cs : List Char) : Option (List Char × List Char) :=
  bracketed? ['#', '{'] ['}', '#'] cs

/-- The lexeme at the start of a text, the first that fits in the fixed order. -/
def lexeme? (cs : List Char) : Option Lexeme :=
  let found (kind : Kind) : List Char × List Char → Lexeme := fun (text, rest) => ⟨kind, text, rest⟩
  (newline? cs).map (found .newline) <|>
  (blankRun? cs).map (found .whitespace) <|>
  (block? cs).map (found .expression) <|>
  (reference? cs).map (found .reference) <|>
  (commandMarker? cs).map (found .commandMarker) <|>
  (comment? cs).map (found .comment)

/-- The characters up to the next place where a lexeme starts, and the text from there. -/
def literalRun : List Char → List Char × List Char
  | [] => ([], [])
  | c :: r =>
    if (lexeme? (c :: r)).isSome then ([], c :: r)
    else let (run, rest) := literalRun r; (c :: run, rest)

/-- The first token of a text that is not empty: a lexeme, or the literal before the next one. -/
def nextLexeme (c : Char) (r : List Char) : Lexeme :=
  match lexeme? (c :: r) with
  | some found => found
  | none => let (run, rest) := literalRun r; ⟨.literal, c :: run, rest⟩

theorem literalRun_append (cs : List Char) : (literalRun cs).1 ++ (literalRun cs).2 = cs := by
  induction cs with
  | nil => rfl
  | cons c r ih => unfold literalRun; split <;> simp_all

theorem newline?_append {cs a b : List Char} (h : newline? cs = some (a, b)) : a ++ b = cs := by
  unfold newline? at h
  split at h <;> simp_all
  all_goals (obtain ⟨rfl, rfl⟩ := h; rfl)

theorem blankRun?_append {cs a b : List Char} (h : blankRun? cs = some (a, b)) : a ++ b = cs := by
  unfold blankRun? at h
  split at h
  · simp at h
  · dsimp only at h
    split at h
    · rename_i nl rest hn
      obtain ⟨rfl, rfl⟩ : cs.takeWhile isInlineBlank ++ nl = a ∧ rest = b := by simpa using h
      simp [List.append_assoc, newline?_append hn, List.takeWhile_append_dropWhile]
    · obtain ⟨rfl, rfl⟩ : cs.takeWhile isInlineBlank = a ∧ cs.dropWhile isInlineBlank = b := by
        simpa using h
      exact List.takeWhile_append_dropWhile

theorem bracketed?_append {opening closing cs a b : List Char}
    (h : bracketed? opening closing cs = some (a, b)) : a ++ b = cs := by
  simp only [bracketed?, Option.pure_def, Option.bind_eq_bind, Option.bind_eq_some_iff] at h
  obtain ⟨body, hb, ⟨inside, rest⟩, hi, he⟩ := h
  obtain ⟨rfl, rfl⟩ : opening ++ inside ++ closing = a ∧ rest = b := by simpa using he
  rw [dropPrefix?_eq_some_iff.1 hb, eq_of_breakOn?_eq_some hi]
  simp

theorem block?_append {cs a b : List Char} (h : block? cs = some (a, b)) : a ++ b = cs := by
  simp only [block?, Option.pure_def, Option.bind_eq_bind, Option.bind_eq_some_iff] at h
  obtain ⟨⟨block, rest⟩, hb, he⟩ := h
  have hcs := bracketed?_append hb
  split at he
  · rename_i recorded rest' hr
    obtain ⟨rfl, rfl⟩ : block ++ recorded = a ∧ rest' = b := by simpa using he
    rw [List.append_assoc, bracketed?_append hr, hcs]
  · obtain ⟨rfl, rfl⟩ : block = a ∧ rest = b := by simpa using he
    exact hcs

theorem reference?_append {cs a b : List Char} (h : reference? cs = some (a, b)) :
    a ++ b = cs := by
  unfold reference? at h
  split at h
  · split at h
    · rename_i c r _
      obtain ⟨rfl, rfl⟩ : '$' :: c :: r.takeWhile isNameRest = a ∧ r.dropWhile isNameRest = b := by
        simpa using h
      simp [List.takeWhile_append_dropWhile]
    · simp at h
  · simp at h

theorem commandMarker?_append {cs a b : List Char} (h : commandMarker? cs = some (a, b)) :
    a ++ b = cs := by
  obtain ⟨rest, hr, he⟩ := Option.map_eq_some_iff.1 h
  obtain ⟨rfl, rfl⟩ : ['>', '>', '>'] = a ∧ rest = b := by simpa using he
  exact (dropPrefix?_eq_some_iff.1 hr).symm

/-- A lexeme is of the kind by which it was found. -/
theorem lexeme?_cases {cs : List Char} {l : Lexeme} (h : lexeme? cs = some l) :
    (l.kind = .newline ∧ newline? cs = some (l.text, l.rest)) ∨
    (l.kind = .whitespace ∧ blankRun? cs = some (l.text, l.rest)) ∨
    (l.kind = .expression ∧ block? cs = some (l.text, l.rest)) ∨
    (l.kind = .reference ∧ reference? cs = some (l.text, l.rest)) ∨
    (l.kind = .commandMarker ∧ commandMarker? cs = some (l.text, l.rest)) ∨
    (l.kind = .comment ∧ comment? cs = some (l.text, l.rest)) := by
  simp only [lexeme?, Option.orElse_eq_orElse, Option.orElse_eq_or, Option.or_eq_some_iff,
    Option.map_eq_some_iff] at h
  -- One case for each kind of lexeme, in the order in which they are tried.
  rcases h with ⟨⟨a, b⟩, h, rfl⟩ | ⟨-, ⟨⟨a, b⟩, h, rfl⟩ | ⟨-, ⟨⟨a, b⟩, h, rfl⟩ |
    ⟨-, ⟨⟨a, b⟩, h, rfl⟩ | ⟨-, ⟨⟨a, b⟩, h, rfl⟩ | ⟨-, ⟨a, b⟩, h, rfl⟩⟩⟩⟩⟩
  · exact .inl ⟨rfl, h⟩
  · exact .inr (.inl ⟨rfl, h⟩)
  · exact .inr (.inr (.inl ⟨rfl, h⟩))
  · exact .inr (.inr (.inr (.inl ⟨rfl, h⟩)))
  · exact .inr (.inr (.inr (.inr (.inl ⟨rfl, h⟩))))
  · exact .inr (.inr (.inr (.inr (.inr ⟨rfl, h⟩))))

/-- A lexeme and the text behind it make up the text that it was found in. -/
theorem lexeme?_append {cs : List Char} {l : Lexeme} (h : lexeme? cs = some l) :
    l.text ++ l.rest = cs := by
  rcases lexeme?_cases h with ⟨-, h⟩ | ⟨-, h⟩ | ⟨-, h⟩ | ⟨-, h⟩ | ⟨-, h⟩ | ⟨-, h⟩
  · exact newline?_append h
  · exact blankRun?_append h
  · exact block?_append h
  · exact reference?_append h
  · exact commandMarker?_append h
  · exact bracketed?_append h

theorem newline?_ne_nil {cs a b : List Char} (h : newline? cs = some (a, b)) : a ≠ [] := by
  unfold newline? at h
  split at h <;> simp_all
  all_goals (obtain ⟨rfl, rfl⟩ := h; simp)

theorem blankRun?_ne_nil {cs a b : List Char} (h : blankRun? cs = some (a, b)) : a ≠ [] := by
  unfold blankRun? at h
  split at h
  · simp at h
  · rename_i hne
    have hne : cs.takeWhile isInlineBlank ≠ [] := hne
    dsimp only at h
    split at h
    · rename_i nl rest _
      obtain ⟨rfl, -⟩ : cs.takeWhile isInlineBlank ++ nl = a ∧ rest = b := by simpa using h
      simp [hne]
    · obtain ⟨rfl, -⟩ : cs.takeWhile isInlineBlank = a ∧ cs.dropWhile isInlineBlank = b := by
        simpa using h
      exact hne

theorem bracketed?_ne_nil {opening closing cs a b : List Char} (ho : opening ≠ [])
    (h : bracketed? opening closing cs = some (a, b)) : a ≠ [] := by
  simp only [bracketed?, Option.pure_def, Option.bind_eq_bind, Option.bind_eq_some_iff] at h
  obtain ⟨body, -, ⟨inside, rest⟩, -, he⟩ := h
  obtain ⟨rfl, -⟩ : opening ++ inside ++ closing = a ∧ rest = b := by simpa using he
  simp [ho]

theorem block?_ne_nil {cs a b : List Char} (h : block? cs = some (a, b)) : a ≠ [] := by
  simp only [block?, Option.pure_def, Option.bind_eq_bind, Option.bind_eq_some_iff] at h
  obtain ⟨⟨block, rest⟩, hb, he⟩ := h
  have hne := bracketed?_ne_nil (by simp) hb
  split at he
  · rename_i recorded rest' _
    obtain ⟨rfl, -⟩ : block ++ recorded = a ∧ rest' = b := by simpa using he
    simp [hne]
  · obtain ⟨rfl, -⟩ : block = a ∧ rest = b := by simpa using he
    exact hne

/-- A lexeme holds at least one character. -/
theorem lexeme?_text_ne_nil {cs : List Char} {l : Lexeme} (h : lexeme? cs = some l) :
    l.text ≠ [] := by
  rcases lexeme?_cases h with ⟨-, h⟩ | ⟨-, h⟩ | ⟨-, h⟩ | ⟨-, h⟩ | ⟨-, h⟩ | ⟨-, h⟩
  · exact newline?_ne_nil h
  · exact blankRun?_ne_nil h
  · exact block?_ne_nil h
  · unfold reference? at h
    split at h
    · split at h <;> simp at h
      simp [← h.1]
    · simp at h
  · obtain ⟨rest, -, he⟩ := Option.map_eq_some_iff.1 h
    obtain ⟨htext, -⟩ : ['>', '>', '>'] = l.text ∧ rest = l.rest := by simpa using he
    simp [← htext]
  · exact bracketed?_ne_nil (by simp) h

theorem nextLexeme_append (c : Char) (r : List Char) :
    (nextLexeme c r).text ++ (nextLexeme c r).rest = c :: r := by
  unfold nextLexeme
  split
  · exact lexeme?_append ‹_›
  · simp [literalRun_append]

theorem nextLexeme_text_ne_nil (c : Char) (r : List Char) : (nextLexeme c r).text ≠ [] := by
  unfold nextLexeme
  split
  · exact lexeme?_text_ne_nil ‹_›
  · simp

/-- What lies behind the first lexeme is shorter than the text. -/
theorem length_nextLexeme_rest_lt (c : Char) (r : List Char) :
    (nextLexeme c r).rest.length < (c :: r).length := by
  have happend := congrArg List.length (nextLexeme_append c r)
  have hpos := List.length_pos_iff.2 (nextLexeme_text_ne_nil c r)
  simp only [List.length_append] at happend
  omega

/-- All lexemes of a text, in order. -/
def lexemes : List Char → List Lexeme
  | [] => []
  | c :: r => nextLexeme c r :: lexemes (nextLexeme c r).rest
termination_by cs => cs.length
decreasing_by exact length_nextLexeme_rest_lt c r

/-- The tokens made of consecutive texts, the first of which starts at `p`. -/
def place (p : Position) : List (List Char) → List Token
  | [] => []
  | t :: ts => ⟨String.ofList t, p⟩ :: place (p.advance t) ts

/-- The tokens of a script. -/
def tokens (src : String) : List Token :=
  place .start ((lexemes src.toList).map (·.text))

end Conformance.Script
