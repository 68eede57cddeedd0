import Conformance.Proofs.Script.Kinds
import Conformance.Proofs.Text.Words

/-!
# The grammar of a script

Which tokens a text has is said here without the lexer: by the forms that a lexeme can have (`Form`), by the order in
which they are tried (`Begins`), and by what is left between two lexemes (`Scan`). The lexer finds these tokens, and
there are no others (`scan_iff`).

* `lexeme?_eq_some_iff` is the comparison at one place of a text, form by form;
* `tokens_scan_iff` is the one for whole scripts, with the kinds that are read off the texts of the tokens.
-/
namespace Conformance.Script

open Text

/-! ## Forms -/

/-- The text reaches from `opening` to the first `closing` behind it, if `behind` follows the text. -/
def Enclosed (opening closing text behind : List Char) : Prop :=
  ∃ inside, text = opening ++ inside ++ closing ∧
    ∀ x y, inside ++ closing ++ behind = x ++ closing ++ y → inside.length ≤ x.length

/-- The text has the form of a lexeme of the kind, if `behind` follows it. -/
inductive Form : Kind → List Char → List Char → Prop where
  | crlf (behind : List Char) : Form .newline ['\r', '\n'] behind
  | cr {behind : List Char} (hbehind : behind.head? ≠ some '\n') : Form .newline ['\r'] behind
  | lf (behind : List Char) : Form .newline ['\n'] behind
  | blankRun {blanks behind : List Char} (hne : blanks ≠ []) (hblanks : ∀ c ∈ blanks, isInlineBlank c = true)
      (hbehind : ∀ c ∈ behind.head?, isOutputBlank c = false) : Form .whitespace blanks behind
  | blankLine {blanks newline behind : List Char} (hne : blanks ≠ [])
      (hblanks : ∀ c ∈ blanks, isInlineBlank c = true) (hnewline : Form .newline newline behind) :
      Form .whitespace (blanks ++ newline) behind
  | block {text behind : List Char} (htext : Enclosed ['$', '\x7b'] ['\x7d', '$'] text behind)
      (hbehind : ∀ recorded rest, behind = recorded ++ rest → ¬Enclosed ['~', '\x7b'] ['\x7d', '~'] recorded rest) :
      Form .expression text behind
  | recordedBlock {text recorded behind : List Char}
      (htext : Enclosed ['$', '\x7b'] ['\x7d', '$'] text (recorded ++ behind))
      (hrecorded : Enclosed ['~', '\x7b'] ['\x7d', '~'] recorded behind) : Form .expression (text ++ recorded) behind
  | reference {c : Char} {name behind : List Char} (hc : isNameStart c = true)
      (hname : ∀ d ∈ name, isNameRest d = true) (hbehind : ∀ d ∈ behind.head?, isNameRest d = false) :
      Form .reference ('$' :: c :: name) behind
  | commandMarker (behind : List Char) : Form .commandMarker ['>', '>', '>'] behind
  | comment {text behind : List Char} (htext : Enclosed ['#', '\x7b'] ['\x7d', '#'] text behind) :
      Form .comment text behind

/-- The kinds of lexemes in the order in which they are tried. -/
def lexemeKinds : List Kind := [.newline, .whitespace, .expression, .reference, .commandMarker, .comment]

/-- A lexeme of the kind begins a text that has the two parts: the first part has its form, and no kind that is tried
before it has one at the front of the whole. -/
def Begins (k : Kind) (text behind : List Char) : Prop :=
  ∃ earlier later, lexemeKinds = earlier ++ k :: later ∧ Form k text behind ∧
    ∀ k' ∈ earlier, ∀ text' behind', text ++ behind = text' ++ behind' → ¬Form k' text' behind'

/-- No lexeme begins the text. -/
def Plain (cs : List Char) : Prop := ∀ k text behind, cs = text ++ behind → ¬Form k text behind

/-- The division of a text into lexemes and literals, each with its kind. A literal goes on up to the next place where
a lexeme begins, or to the end. -/
inductive Scan : List Char → List (Kind × List Char) → Prop where
  | nil : Scan [] []
  | lexeme {k : Kind} {text behind : List Char} {ts : List (Kind × List Char)} (hbegins : Begins k text behind)
      (hscan : Scan behind ts) : Scan (text ++ behind) ((k, text) :: ts)
  | literal {text behind : List Char} {ts : List (Kind × List Char)} (hne : text ≠ [])
      (hinside : ∀ x d y, text = x ++ d :: y → Plain (d :: (y ++ behind))) (hstop : behind = [] ∨ ¬Plain behind)
      (hscan : Scan behind ts) : Scan (text ++ behind) ((.literal, text) :: ts)

/-! ## What each form is recognised by -/

theorem bracketed?_eq_some_iff {opening closing cs a b : List Char} :
    bracketed? opening closing cs = some (a, b) ↔ cs = a ++ b ∧ Enclosed opening closing a b := by
  simp only [bracketed?, Option.pure_def, Option.bind_eq_bind, Option.bind_eq_some_iff]
  constructor
  · rintro ⟨body, hbody, ⟨inside, rest⟩, hbreak, he⟩
    obtain ⟨rfl, rfl⟩ : opening ++ inside ++ closing = a ∧ rest = b := by simpa using he
    obtain ⟨rfl, hfirst⟩ := breakOn?_eq_some_iff.1 hbreak
    refine ⟨?_, inside, rfl, hfirst⟩
    rw [dropPrefix?_eq_some_iff.1 hbody]
    simp only [List.append_assoc]
  · rintro ⟨rfl, inside, rfl, hfirst⟩
    refine ⟨inside ++ closing ++ b, dropPrefix?_eq_some_iff.2 (by simp only [List.append_assoc]), (inside, b), ?_, rfl⟩
    exact breakOn?_eq_some_iff.2 ⟨rfl, hfirst⟩

theorem newline?_eq_some_iff {cs a b : List Char} :
    newline? cs = some (a, b) ↔ cs = a ++ b ∧ Form .newline a b := by
  constructor
  · intro h
    unfold newline? at h
    split at h
    · obtain ⟨rfl, rfl⟩ : ['\r', '\n'] = a ∧ _ = b := by simpa using h
      exact ⟨rfl, .crlf _⟩
    · rename_i r hne
      obtain ⟨rfl, rfl⟩ : ['\r'] = a ∧ r = b := by simpa using h
      refine ⟨rfl, .cr fun hhead => ?_⟩
      obtain ⟨r', rfl⟩ := List.head?_eq_some_iff.1 hhead
      exact hne r' rfl
    · obtain ⟨rfl, rfl⟩ : ['\n'] = a ∧ _ = b := by simpa using h
      exact ⟨rfl, .lf _⟩
    · contradiction
  · rintro ⟨rfl, hform⟩
    cases hform with
    | crlf => rfl
    | lf => rfl
    | cr hbehind =>
      show newline? ('\r' :: b) = some (['\r'], b)
      unfold newline?
      split
      · rename_i r heq
        obtain rfl : b = '\n' :: r := (List.cons.inj heq).2
        exact absurd rfl hbehind
      · rename_i r _ heq
        rw [(List.cons.inj heq).2]
      · rename_i heq
        exact absurd (List.cons.inj heq).1 (by decide)
      · rename_i hcr _
        exact absurd rfl (hcr b)

/-- There is no newline at the front exactly if no newline character is. -/
theorem newline?_eq_none_iff {cs : List Char} :
    newline? cs = none ↔ ∀ c ∈ cs.head?, c ≠ '\r' ∧ c ≠ '\n' := by
  cases cs with
  | nil => simp [newline?]
  | cons c r =>
    by_cases hcr : c = '\r'
    · subst hcr
      have hsome : newline? ('\r' :: r) ≠ none := by
        unfold newline?
        split <;> simp_all
      simp [hsome]
    · by_cases hlf : c = '\n'
      · subst hlf
        simp [newline?]
      · simp [newline?, hcr, hlf]

theorem isOutputBlank_eq_false_iff {c : Char} :
    isOutputBlank c = false ↔ isInlineBlank c = false ∧ c ≠ '\r' ∧ c ≠ '\n' := by
  simp only [isOutputBlank, Bool.or_eq_false_iff, decide_eq_false_iff_not, and_assoc]

theorem blankRun?_eq_some_iff {cs a b : List Char} :
    blankRun? cs = some (a, b) ↔ cs = a ++ b ∧ Form .whitespace a b := by
  constructor
  · intro h
    -- the longest run of blanks decides all: what is behind it is a newline or not
    obtain ⟨hcs, hblanks, hstop⟩ : cs = cs.takeWhile isInlineBlank ++ cs.dropWhile isInlineBlank ∧
        (∀ c ∈ cs.takeWhile isInlineBlank, isInlineBlank c = true) ∧
        ∀ c ∈ (cs.dropWhile isInlineBlank).head?, isInlineBlank c = false :=
      takeWhile_dropWhile_iff.1 ⟨rfl, rfl⟩
    unfold blankRun? at h
    split at h
    · contradiction
    · rename_i hne
      dsimp only at h
      split at h
      · rename_i nl rest hnl
        obtain ⟨rfl, rfl⟩ : cs.takeWhile isInlineBlank ++ nl = a ∧ rest = b := by simpa using h
        obtain ⟨hrest, hform⟩ := newline?_eq_some_iff.1 hnl
        refine ⟨?_, .blankLine hne hblanks hform⟩
        rw [List.append_assoc, ← hrest]
        exact hcs
      · rename_i hnl
        obtain ⟨rfl, rfl⟩ : cs.takeWhile isInlineBlank = a ∧ cs.dropWhile isInlineBlank = b := by simpa using h
        refine ⟨hcs, .blankRun hne hblanks fun c hc => ?_⟩
        exact isOutputBlank_eq_false_iff.2 ⟨hstop c hc, newline?_eq_none_iff.1 hnl c hc⟩
  · rintro ⟨rfl, hform⟩
    cases hform with
    | blankRun hne hblanks hbehind =>
      obtain ⟨htake, hdrop⟩ := takeWhile_dropWhile_iff.2
        ⟨rfl, hblanks, fun c hc => (isOutputBlank_eq_false_iff.1 (hbehind c hc)).1⟩
      have hnl : newline? b = none :=
        newline?_eq_none_iff.2 fun c hc => (isOutputBlank_eq_false_iff.1 (hbehind c hc)).2
      unfold blankRun?
      rw [htake, hdrop]
      split
      · contradiction
      · dsimp only
        rw [hnl]
    | @blankLine blanks nl _ hne hblanks hnewline =>
      have hnl : newline? (nl ++ b) = some (nl, b) := newline?_eq_some_iff.2 ⟨rfl, hnewline⟩
      have hhead : ∀ c ∈ (nl ++ b).head?, isInlineBlank c = false := by
        cases hnewline <;> simp [isInlineBlank]
      obtain ⟨htake, hdrop⟩ := takeWhile_dropWhile_iff.2 ⟨rfl, hblanks, hhead⟩
      unfold blankRun?
      rw [List.append_assoc, htake, hdrop]
      split
      · contradiction
      · dsimp only
        rw [hnl]

theorem block?_eq_some_iff {cs a b : List Char} :
    block? cs = some (a, b) ↔ cs = a ++ b ∧ Form .expression a b := by
  simp only [block?, Option.pure_def, Option.bind_eq_bind, Option.bind_eq_some_iff]
  constructor
  · rintro ⟨⟨text, rest⟩, htext, h⟩
    obtain ⟨rfl, henclosed⟩ := bracketed?_eq_some_iff.1 htext
    split at h
    · rename_i recorded rest' hrecorded
      obtain ⟨rfl, rfl⟩ : text ++ recorded = a ∧ rest' = b := by simpa using h
      obtain ⟨rfl, henclosed'⟩ := bracketed?_eq_some_iff.1 hrecorded
      exact ⟨(List.append_assoc ..).symm, .recordedBlock henclosed henclosed'⟩
    · rename_i hnone
      obtain ⟨rfl, rfl⟩ : text = a ∧ rest = b := by simpa using h
      refine ⟨rfl, .block henclosed fun recorded rest' hsplit henclosed' => ?_⟩
      have hsome := bracketed?_eq_some_iff.2 ⟨hsplit, henclosed'⟩
      rw [hsome] at hnone
      contradiction
  · rintro ⟨rfl, hform⟩
    cases hform with
    | block htext hbehind =>
      refine ⟨(a, b), bracketed?_eq_some_iff.2 ⟨rfl, htext⟩, ?_⟩
      -- a recorded result would belong to the block
      have hnone : bracketed? ['~', '\x7b'] ['\x7d', '~'] b = none := by
        rw [Option.eq_none_iff_forall_ne_some]
        rintro ⟨recorded, rest⟩ hsome
        obtain ⟨hsplit, henclosed⟩ := bracketed?_eq_some_iff.1 hsome
        exact hbehind recorded rest hsplit henclosed
      dsimp only
      rw [hnone]
    | @recordedBlock text recorded _ htext hrecorded =>
      refine ⟨(text, recorded ++ b), bracketed?_eq_some_iff.2 ⟨List.append_assoc .., htext⟩, ?_⟩
      dsimp only
      rw [bracketed?_eq_some_iff.2 ⟨rfl, hrecorded⟩]

theorem reference?_eq_some_iff {cs a b : List Char} :
    reference? cs = some (a, b) ↔ cs = a ++ b ∧ Form .reference a b := by
  constructor
  · intro h
    unfold reference? at h
    split at h
    · rename_i c r
      split at h
      · rename_i hc
        obtain ⟨rfl, rfl⟩ : '$' :: c :: r.takeWhile isNameRest = a ∧ r.dropWhile isNameRest = b := by simpa using h
        obtain ⟨hr, hname, hstop⟩ : r = r.takeWhile isNameRest ++ r.dropWhile isNameRest ∧
            (∀ d ∈ r.takeWhile isNameRest, isNameRest d = true) ∧
            ∀ d ∈ (r.dropWhile isNameRest).head?, isNameRest d = false :=
          takeWhile_dropWhile_iff.1 ⟨rfl, rfl⟩
        exact ⟨congrArg (fun r => '$' :: c :: r) hr, .reference hc hname hstop⟩
      · contradiction
    · contradiction
  · rintro ⟨rfl, hform⟩
    cases hform with
    | @reference c name _ hc hname hbehind =>
      obtain ⟨htake, hdrop⟩ := takeWhile_dropWhile_iff.2 ⟨rfl, hname, hbehind⟩
      show reference? ('$' :: c :: (name ++ b)) = _
      rw [reference?, if_pos hc, htake, hdrop]

theorem commandMarker?_eq_some_iff {cs a b : List Char} :
    commandMarker? cs = some (a, b) ↔ cs = a ++ b ∧ Form .commandMarker a b := by
  rw [commandMarker?, Option.map_eq_some_iff]
  constructor
  · rintro ⟨rest, hrest, he⟩
    obtain ⟨rfl, rfl⟩ : ['>', '>', '>'] = a ∧ rest = b := by simpa using he
    exact ⟨dropPrefix?_eq_some_iff.1 hrest, .commandMarker _⟩
  · rintro ⟨rfl, hform⟩
    cases hform with
    | commandMarker => exact ⟨b, rfl, rfl⟩

theorem comment?_eq_some_iff {cs a b : List Char} :
    comment? cs = some (a, b) ↔ cs = a ++ b ∧ Form .comment a b := by
  rw [comment?, bracketed?_eq_some_iff]
  constructor
  · rintro ⟨hcs, htext⟩
    exact ⟨hcs, .comment htext⟩
  · rintro ⟨hcs, hform⟩
    cases hform with
    | comment htext => exact ⟨hcs, htext⟩

/-! ## One lexeme -/

/-- The lexeme of the kind at the start of a text. -/
def recognise? : Kind → List Char → Option (List Char × List Char)
  | .newline => newline?
  | .whitespace => blankRun?
  | .expression => block?
  | .reference => reference?
  | .commandMarker => commandMarker?
  | .comment => comment?
  | .literal => fun _ => none

theorem recognise?_eq_some_iff {k : Kind} {cs a b : List Char} :
    recognise? k cs = some (a, b) ↔ cs = a ++ b ∧ Form k a b := by
  cases k with
  | newline => exact newline?_eq_some_iff
  | whitespace => exact blankRun?_eq_some_iff
  | expression => exact block?_eq_some_iff
  | reference => exact reference?_eq_some_iff
  | commandMarker => exact commandMarker?_eq_some_iff
  | comment => exact comment?_eq_some_iff
  | literal =>
    constructor
    · intro h
      contradiction
    · rintro ⟨-, hform⟩
      cases hform

theorem recognise?_eq_none_iff {k : Kind} {cs : List Char} :
    recognise? k cs = none ↔ ∀ a b, cs = a ++ b → ¬Form k a b := by
  rw [Option.eq_none_iff_forall_ne_some]
  constructor
  · intro hnone a b hcs hform
    exact hnone (a, b) (recognise?_eq_some_iff.2 ⟨hcs, hform⟩)
  · rintro hform ⟨a, b⟩ hsome
    obtain ⟨hcs, h⟩ := recognise?_eq_some_iff.1 hsome
    exact hform a b hcs h

theorem lexeme?_eq_findSome? (cs : List Char) :
    lexeme? cs = lexemeKinds.findSome? fun k => (recognise? k cs).map fun p => ⟨k, p.1, p.2⟩ := by
  simp only [lexeme?, lexemeKinds, recognise?, List.findSome?_cons, List.findSome?_nil]
  -- Both sides take the first of the six that is there.
  cases newline? cs <;> cases blankRun? cs <;> cases block? cs <;> cases reference? cs <;>
    cases commandMarker? cs <;> cases comment? cs <;> rfl

/-- The lexer finds the lexeme that begins a text. -/
theorem lexeme?_eq_some_iff {cs : List Char} {l : Lexeme} :
    lexeme? cs = some l ↔ cs = l.text ++ l.rest ∧ Begins l.kind l.text l.rest := by
  obtain ⟨k, text, rest⟩ := l
  rw [lexeme?_eq_findSome?, List.findSome?_eq_some_iff]
  constructor
  · rintro ⟨earlier, k', later, horder, hsome, hnone⟩
    obtain ⟨⟨a, b⟩, hrecognised, he⟩ := Option.map_eq_some_iff.1 hsome
    obtain ⟨rfl, rfl, rfl⟩ := Lexeme.mk.inj he
    obtain ⟨rfl, hform⟩ := recognise?_eq_some_iff.1 hrecognised
    refine ⟨rfl, earlier, later, horder, hform, fun k hk => ?_⟩
    exact recognise?_eq_none_iff.1 (Option.map_eq_none_iff.1 (hnone k hk))
  · rintro ⟨rfl, earlier, later, horder, hform, hnone⟩
    refine ⟨earlier, k, later, horder, ?_, fun k' hk' => ?_⟩
    · rw [recognise?_eq_some_iff.2 ⟨rfl, hform⟩]
      rfl
    · rw [recognise?_eq_none_iff.2 (hnone k' hk')]
      rfl

theorem plain_iff {cs : List Char} : Plain cs ↔ lexeme? cs = none := by
  rw [lexeme?_eq_findSome?, List.findSome?_eq_none_iff]
  constructor
  · intro hplain k _
    rw [recognise?_eq_none_iff.2 (hplain k)]
    rfl
  · intro hnone k a b hcs hform
    -- Literals have no form, and all other kinds are tried.
    have hk : k ∈ lexemeKinds := by
      cases hform <;> decide
    exact recognise?_eq_none_iff.1 (Option.map_eq_none_iff.1 (hnone k hk)) a b hcs hform

/-! ## All lexemes -/

/-- The kinds and texts of lexemes. -/
def labels (ls : List Lexeme) : List (Kind × List Char) := ls.map fun l => (l.kind, l.text)

/-- The first lexeme of a text, and those of the text behind it. -/
theorem lexemes_of_lexeme? {cs : List Char} {l : Lexeme} (h : lexeme? cs = some l) :
    lexemes cs = l :: lexemes l.rest := by
  cases cs with
  | nil =>
    have hnil := lexeme?_append h
    exact absurd (List.append_eq_nil_iff.1 hnil).1 (lexeme?_text_ne_nil h)
  | cons c r => rw [lexemes_cons, nextLexeme, h]

/-- The first token of a text has the form of its kind, or it is a literal, in which no lexeme begins. -/
theorem nextLexeme_form (c : Char) (r : List Char) :
    Form (nextLexeme c r).kind (nextLexeme c r).text (nextLexeme c r).rest ∨
      (nextLexeme c r).kind = .literal ∧ ∀ a d b, (nextLexeme c r).text = a ++ d :: b →
        lexeme? (d :: (b ++ (nextLexeme c r).rest)) = none := by
  cases h : lexeme? (c :: r) with
  | some l =>
    have hnext : nextLexeme c r = l := by rw [nextLexeme, h]
    obtain ⟨-, -, -, -, hform, -⟩ := lexeme?_eq_some_iff.1 h
    rw [hnext]
    exact .inl hform
  | none =>
    rw [nextLexeme_of_none h]
    exact .inr ⟨rfl, fun a d b htext => lexeme?_eq_none_iff.2 (literalRun_noLexeme htext)⟩

/-- The characters up to the next place where a lexeme begins are a literal run. -/
theorem literalRun_of_plain {text behind : List Char}
    (hinside : ∀ x d y, text = x ++ d :: y → Plain (d :: (y ++ behind))) (hstop : behind = [] ∨ ¬Plain behind) :
    literalRun (text ++ behind) = (text, behind) := by
  induction text with
  | nil =>
    cases behind with
    | nil => rfl
    | cons c r =>
      have hsome : (lexeme? (c :: r)).isSome := by
        rcases hstop with hnil | hplain
        · contradiction
        · rw [plain_iff] at hplain
          exact Option.isSome_iff_ne_none.2 hplain
      rw [List.nil_append, literalRun, if_pos hsome]
  | cons c text ih =>
    have hnone : lexeme? (c :: (text ++ behind)) = none := plain_iff.1 (hinside [] c text rfl)
    have hrest := ih fun x d y htext => hinside (c :: x) d y (congrArg (c :: ·) htext)
    rw [List.cons_append, literalRun, hnone, hrest]
    rfl

theorem scan_lexemes (cs : List Char) : Scan cs (labels (lexemes cs)) := by
  induction cs using lexemes.induct with
  | case1 =>
    rw [lexemes]
    exact .nil
  | case2 c r ih =>
    rw [lexemes_cons]
    cases h : lexeme? (c :: r) with
    | some l =>
      have hnext : nextLexeme c r = l := by rw [nextLexeme, h]
      obtain ⟨hcs, hbegins⟩ := lexeme?_eq_some_iff.1 h
      rw [hnext] at ih ⊢
      rw [hcs]
      exact .lexeme hbegins ih
    | none =>
      -- A literal goes on until a lexeme begins, or to the end.
      have hne := nextLexeme_text_ne_nil c r
      rw [nextLexeme_of_none h] at hne ih ⊢
      have hscan : Scan ((literalRun (c :: r)).1 ++ (literalRun (c :: r)).2)
          ((.literal, (literalRun (c :: r)).1) :: labels (lexemes (literalRun (c :: r)).2)) := by
        refine .literal hne (fun x d y htext => ?_) ?_ ih
        · exact plain_iff.2 (lexeme?_eq_none_iff.2 (literalRun_noLexeme htext))
        · refine (literalRun_rest (c :: r)).imp_right fun hsome => ?_
          rw [plain_iff]
          exact Option.isSome_iff_ne_none.1 hsome
      rwa [literalRun_append] at hscan

theorem Scan.eq_labels {cs : List Char} {ts : List (Kind × List Char)} (h : Scan cs ts) :
    ts = labels (lexemes cs) := by
  induction h with
  | nil =>
    rw [lexemes]
    rfl
  | @lexeme k text behind ts hbegins hscan ih =>
    have hlexeme : lexeme? (text ++ behind) = some ⟨k, text, behind⟩ := lexeme?_eq_some_iff.2 ⟨rfl, hbegins⟩
    rw [lexemes_of_lexeme? hlexeme, ih]
    rfl
  | @literal text behind ts hne hinside hstop hscan ih =>
    obtain ⟨c, r, rfl⟩ := List.exists_cons_of_ne_nil hne
    have hnone : lexeme? (c :: (r ++ behind)) = none := plain_iff.1 (hinside [] c r rfl)
    have hrun : literalRun (c :: (r ++ behind)) = (c :: r, behind) := literalRun_of_plain hinside hstop
    have hnext : nextLexeme c (r ++ behind) = ⟨.literal, c :: r, behind⟩ := by
      rw [nextLexeme_of_none hnone, hrun]
    rw [List.cons_append, lexemes_cons, hnext, ih]
    rfl

/-- The lexemes of a text are its only division. -/
theorem scan_iff {cs : List Char} {ts : List (Kind × List Char)} : Scan cs ts ↔ ts = labels (lexemes cs) := by
  constructor
  · exact Scan.eq_labels
  · rintro rfl
    exact scan_lexemes cs

theorem flatten_lexemes (cs : List Char) : ((lexemes cs).map (·.text)).flatten = cs := by
  induction cs using lexemes.induct with
  | case1 =>
    rw [lexemes]
    rfl
  | case2 c r ih => rw [lexemes_cons, List.map_cons, List.flatten_cons, ih, nextLexeme_append]

/-- Behind any lexeme, the scan goes on as if the text began there. -/
theorem lexemes_drop (cs : List Char) (n : Nat) :
    lexemes (((lexemes cs).drop n).map (·.text)).flatten = (lexemes cs).drop n := by
  induction n generalizing cs with
  | zero => rw [List.drop_zero, flatten_lexemes]
  | succ n ih =>
    cases cs with
    | nil =>
      have hnil : lexemes [] = [] := by rw [lexemes]
      rw [hnil, List.drop_nil, List.map_nil, List.flatten_nil, hnil]
    | cons c r =>
      rw [lexemes_cons, List.drop_succ_cons]
      exact ih (nextLexeme c r).rest

/-! ## Tokens -/

/-- The text that tokens make up. -/
def textOf (ts : List Token) : String := String.join (ts.map (·.text))

theorem toList_textOf (ts : List Token) : (textOf ts).toList = (ts.map (·.text.toList)).flatten := by
  rw [textOf, String.toList_join, List.flatMap_map, List.flatMap_def]

/-- The labels of lexemes are read off their texts. -/
theorem labels_lexemes (cs : List Char) :
    labels (lexemes cs) = ((lexemes cs).map (·.text)).map fun text => (kindOf text, text) := by
  rw [labels, List.map_map]
  refine List.map_congr_left fun l hl => ?_
  obtain ⟨c, r, rfl⟩ := exists_nextLexeme hl
  exact congrArg (·, (nextLexeme c r).text) (nextLexeme_classified c r).kindOf.symm

theorem tokens_labels (src : String) :
    ((tokens src).map fun t => (t.kind, t.text.toList)) = labels (lexemes src.toList) := by
  rw [labels_lexemes, ← tokens_texts, List.map_map]
  rfl

/-- A token that is no literal has the form of its kind. -/
theorem form_of_mem_tokens {src : String} {t : Token} (ht : t ∈ tokens src) (hk : t.kind ≠ .literal) :
    ∃ behind, Form t.kind t.text.toList behind := by
  have hmem := List.mem_map_of_mem (f := fun t : Token => (t.kind, t.text.toList)) ht
  rw [tokens_labels, labels] at hmem
  obtain ⟨l, hl, heq⟩ := List.mem_map.1 hmem
  obtain ⟨hkind, htext⟩ := Prod.mk.inj heq
  obtain ⟨c, r, rfl⟩ := exists_nextLexeme hl
  rw [← hkind] at hk ⊢
  rw [← htext]
  exact ⟨_, (nextLexeme_form c r).resolve_right fun h => hk h.1⟩

theorem textOf_tokens (src : String) : textOf (tokens src) = src := by
  rw [← String.toList_inj, toList_textOf, tokens_texts, flatten_lexemes]

/-- The texts of the tokens behind any of them are those of the tokens of the text behind it. -/
theorem tokens_drop_texts (src : String) (n : Nat) :
    (tokens (textOf ((tokens src).drop n))).map (·.text) = ((tokens src).drop n).map (·.text) := by
  have hlexemes : ((tokens src).drop n).map (·.text.toList) = ((lexemes src.toList).drop n).map (·.text) := by
    rw [List.map_drop, tokens_texts, List.map_drop]
  have htexts : (tokens (textOf ((tokens src).drop n))).map (·.text.toList) =
      ((tokens src).drop n).map (·.text.toList) := by
    rw [tokens_texts, toList_textOf, hlexemes, lexemes_drop]
  have hofList := congrArg (List.map String.ofList) htexts
  simpa only [List.map_map, Function.comp_def, String.ofList_toList] using hofList

/-- The tokens of a script are the division of its text that the grammar gives, each with the kind that is read off its
text alone: lexemes in the order in which their kinds are tried, and between them literals, as long as they can be. No
token is empty, no character is lost, and no two literals stand side by side. From any place between two tokens, the
script that is left has the tokens that are left. -/
theorem tokens_scan_iff (src : String) :
    (∀ ts, Scan src.toList ts ↔ ts = (tokens src).map fun t => (t.kind, t.text.toList)) ∧
    "" ∉ (tokens src).map (·.text) ∧
    textOf (tokens src) = src ∧
    (tokens src).IsChain (fun a b => ¬(a.kind = .literal ∧ b.kind = .literal)) ∧
    ∀ n, (tokens (textOf ((tokens src).drop n))).map (fun t => (t.kind, t.text)) =
      ((tokens src).drop n).map fun t => (t.kind, t.text) := by
  refine ⟨fun ts => ?_, ?_, textOf_tokens src, ?_, fun n => ?_⟩
  · rw [tokens_labels]
    exact scan_iff
  · intro hempty
    obtain ⟨t, ht, htext⟩ := List.mem_map.1 hempty
    obtain ⟨l, -, hl, -, hne⟩ := exists_lexeme ht
    rw [htext] at hl
    exact hne hl.symm
  · refine (isChain_tokens src).imp fun a b hab => ?_
    rintro ⟨ha, hb⟩
    exact hab ha hb
  · have hkinds := congrArg (List.map fun text : String => (kindOf text.toList, text)) (tokens_drop_texts src n)
    rw [List.map_map, List.map_map] at hkinds
    exact hkinds

end Conformance.Script
