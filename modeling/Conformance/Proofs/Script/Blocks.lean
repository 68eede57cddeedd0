import Conformance.Proofs.Script.Grammar
import Conformance.Proofs.Script.SyntaxFaults

/-!
# Expression blocks

A block is written as its source between brackets, and a result may be recorded behind it (`blockOf`, `recordOf`). The
lexer finds the whole of it, and the token gives back what was written (`Legible.tokens_eq`,
`Legible.expressionParts?_eq`). Source and record may begin and end with characters of the brackets: where two different
characters close a text, the first of them cannot stand in for the second (`enclosed_iff`).
-/
namespace Conformance.Script

open Text

/-! ## Texts between brackets -/

section Enclosed

variable {opening text inside behind : List Char} {p q : Char}

/-- Two different characters close a text at its end if and only if they stand side by side nowhere else in it. -/
theorem enclosed_iff (hne : p ≠ q) :
    Enclosed opening [p, q] text behind ↔ ∃ inside, text = opening ++ inside ++ [p, q] ∧ ¬[p, q] <:+: inside := by
  refine exists_congr fun inside => and_congr_right fun _ => ⟨?_, fun hinside x y hxy => ?_⟩
  · rintro hfirst ⟨x, y, rfl⟩
    have hlength := hfirst x (y ++ [p, q] ++ behind) (by simp only [List.append_assoc])
    simp only [List.length_append, List.length_cons, List.length_nil] at hlength
    omega
  · rw [List.append_assoc, List.append_assoc] at hxy
    rcases List.append_eq_append_iff.1 hxy with ⟨z, rfl, -⟩ | ⟨z, rfl, hz⟩
    · rw [List.length_append]
      exact Nat.le_add_right _ _
    · -- The characters would stand in the text, or the first of them would be the second.
      match z, hz with
      | [], _ => simp
      | [c], hz =>
        simp only [List.cons_append, List.nil_append, List.cons.injEq] at hz
        exact absurd hz.2.1.symm hne
      | c :: d :: z, hz =>
        simp only [List.cons_append, List.nil_append, List.cons.injEq] at hz
        obtain ⟨rfl, rfl, -⟩ := hz
        exact absurd ⟨x, z, by simp⟩ hinside

theorem breakOn?_of_not_infix (hne : p ≠ q) (h : ¬[p, q] <:+: inside) (behind : List Char) :
    breakOn? [p, q] (inside ++ [p, q] ++ behind) = some (inside, behind) := by
  have henclosed : Enclosed [] [p, q] (inside ++ [p, q]) behind := (enclosed_iff hne).2 ⟨inside, rfl, h⟩
  obtain ⟨inside', htext, hfirst⟩ := henclosed
  obtain rfl := List.append_cancel_right htext
  exact breakOn?_eq_some_iff.2 ⟨rfl, hfirst⟩

end Enclosed

/-! ## Blocks as texts -/

/-- The block with this source. -/
def blockOf (source : String) : String := "$\x7b" ++ source ++ "\x7d$"

/-- What stands behind a block for its recorded result. -/
def recordOf (recorded : Option String) : String := (recorded.map fun r => "~\x7b" ++ r ++ "\x7d~").getD ""

/-- The source and the record can be told from the text of the block. -/
structure Legible (source : String) (recorded : Option String) : Prop where
  source : ¬['\x7d', '$'] <:+: source.toList
  recorded : ∀ r ∈ recorded, ¬['\x7d', '~'] <:+: r.toList

variable {source behind : String} {recorded : Option String}

theorem toList_blockOf (source : String) :
    (blockOf source).toList = ['$', '\x7b'] ++ (source.toList ++ ['\x7d', '$']) := by
  rw [blockOf, String.toList_append, String.toList_append]
  rfl

theorem toList_recordOf_some (r : String) :
    (recordOf (some r)).toList = ['~', '\x7b'] ++ r.toList ++ ['\x7d', '~'] := by
  rw [recordOf, Option.map_some, Option.getD_some, String.toList_append, String.toList_append]
  rfl

theorem Legible.form (h : Legible source recorded) {behind : List Char}
    (hbehind : recorded = none → ∀ x y, behind ≠ ['~', '\x7b'] ++ x ++ ['\x7d', '~'] ++ y) :
    Form .expression (blockOf source ++ recordOf recorded).toList behind := by
  have hblock : ∀ behind, Enclosed ['$', '\x7b'] ['\x7d', '$'] (blockOf source).toList behind := by
    intro behind
    rw [toList_blockOf, ← List.append_assoc]
    exact (enclosed_iff (by decide)).2 ⟨_, rfl, h.source⟩
  rw [String.toList_append]
  cases recorded with
  | none =>
    have hempty : (recordOf none).toList = [] := rfl
    rw [hempty, List.append_nil]
    refine .block (hblock behind) fun recorded rest hsplit henclosed => ?_
    obtain ⟨inside, rfl, -⟩ := henclosed
    exact hbehind rfl inside rest hsplit
  | some r =>
    refine .recordedBlock (hblock _) ?_
    rw [toList_recordOf_some]
    exact (enclosed_iff (by decide)).2 ⟨_, rfl, h.recorded r rfl⟩

/-- What has the form of a block is the first lexeme of its text. -/
theorem lexeme?_of_block {text behind : List Char} (h : Form .expression text behind) :
    lexeme? (text ++ behind) = some ⟨.expression, text, behind⟩ := by
  have hdollar : ∃ r, text ++ behind = '$' :: r := by
    cases h with
    | block htext =>
      obtain ⟨inside, rfl, -⟩ := htext
      exact ⟨_, rfl⟩
    | recordedBlock htext =>
      obtain ⟨inside, rfl, -⟩ := htext
      exact ⟨_, rfl⟩
  have hblock : block? (text ++ behind) = some (text, behind) := block?_eq_some_iff.2 ⟨rfl, h⟩
  obtain ⟨r, hr⟩ := hdollar
  rw [hr] at hblock ⊢
  have hnewline : newline? ('$' :: r) = none := rfl
  have hblank : blankRun? ('$' :: r) = none := rfl
  rw [lexeme?, hnewline, hblank, hblock]
  rfl

/-- A script that begins with a lexeme has it as its first token, and behind it the tokens of the text behind it. -/
theorem tokens_of_lexeme? {text behind : String} {k : Kind}
    (h : lexeme? (text ++ behind).toList = some ⟨k, text.toList, behind.toList⟩) :
    ∃ rest, tokens (text ++ behind) = ⟨text, .start⟩ :: rest ∧ textOf rest = behind := by
  refine ⟨place (Position.start.advance text.toList) ((lexemes behind.toList).map (·.text)), ?_, ?_⟩
  · rw [tokens, lexemes_of_lexeme? h, List.map_cons, place, String.ofList_toList]
  · rw [← String.toList_inj, toList_textOf, place_texts, flatten_lexemes]

/-- The first token of a script that begins with a block is the block. -/
theorem Legible.tokens_eq (h : Legible source recorded)
    (hbehind : recorded = none → ∀ x y, behind.toList ≠ ['~', '\x7b'] ++ x ++ ['\x7d', '~'] ++ y) :
    ∃ rest, tokens (blockOf source ++ recordOf recorded ++ behind) =
      ⟨blockOf source ++ recordOf recorded, .start⟩ :: rest ∧ textOf rest = behind := by
  have hlexeme := lexeme?_of_block (h.form hbehind)
  rw [← String.toList_append] at hlexeme
  exact tokens_of_lexeme? hlexeme

theorem Legible.kind_eq (h : Legible source recorded) (place : Position) :
    (⟨blockOf source ++ recordOf recorded, place⟩ : Token).kind = .expression := by
  have hform : Form .expression (blockOf source ++ recordOf recorded).toList [] :=
    h.form fun _ x y heq => by simp at heq
  exact (lexeme?_classified (lexeme?_of_block hform)).1.kindOf

/-- The token gives back the source and the record. -/
theorem Legible.expressionParts?_eq (h : Legible source recorded) (place : Position) :
    (⟨blockOf source ++ recordOf recorded, place⟩ : Token).expressionParts? = some (source, recorded) := by
  have hbody : dropPrefix? ['$', '\x7b'] (blockOf source ++ recordOf recorded).toList =
      some (source.toList ++ ['\x7d', '$'] ++ (recordOf recorded).toList) := by
    rw [dropPrefix?_eq_some_iff, String.toList_append, toList_blockOf, List.append_assoc]
  have hrecord : ((dropPrefix? ['~', '\x7b'] (recordOf recorded).toList).bind (dropSuffix? ['\x7d', '~'])).map
      String.ofList = recorded := by
    cases recorded with
    | none => rfl
    | some r =>
      have hopening : dropPrefix? ['~', '\x7b'] (recordOf (some r)).toList = some (r.toList ++ ['\x7d', '~']) := by
        rw [dropPrefix?_eq_some_iff, toList_recordOf_some, List.append_assoc]
      have hclosing : dropSuffix? ['\x7d', '~'] (r.toList ++ ['\x7d', '~']) = some r.toList :=
        dropSuffix?_eq_some_iff.2 rfl
      rw [hopening, Option.bind_some, hclosing, Option.map_some, String.ofList_toList]
  rw [Token.expressionParts?, hbody, Option.bind_eq_bind, Option.bind_some,
    breakOn?_of_not_infix (by decide) h.source]
  show some (String.ofList source.toList, ((dropPrefix? ['~', '\x7b'] (recordOf recorded).toList).bind
    (dropSuffix? ['\x7d', '~'])).map String.ofList) = some (source, recorded)
  rw [hrecord, String.ofList_toList]

/-! ## Blocks of scripts -/

/-- What has the form of a block is written with a source and a record that can be told from it. -/
theorem Form.exists_legible {text behind : List Char} (h : Form .expression text behind) :
    ∃ source recorded, text = (blockOf source ++ recordOf recorded).toList ∧ Legible source recorded := by
  cases h with
  | block htext =>
    obtain ⟨inside, rfl, hinside⟩ := (enclosed_iff (by decide)).1 htext
    rw [← String.toList_ofList (l := inside)] at hinside
    refine ⟨String.ofList inside, none, ?_, hinside, fun r hr => by cases hr⟩
    rw [String.toList_append, toList_blockOf, String.toList_ofList, List.append_assoc]
    exact (List.append_nil _).symm
  | recordedBlock htext hrecorded =>
    obtain ⟨inside, rfl, hinside⟩ := (enclosed_iff (by decide)).1 htext
    obtain ⟨r, rfl, hr⟩ := (enclosed_iff (by decide)).1 hrecorded
    rw [← String.toList_ofList (l := inside)] at hinside
    rw [← String.toList_ofList (l := r)] at hr
    refine ⟨String.ofList inside, some (String.ofList r), ?_, hinside, ?_⟩
    · rw [String.toList_append, toList_blockOf, toList_recordOf_some, String.toList_ofList, String.toList_ofList,
        List.append_assoc ['$', '\x7b']]
    · rintro _ ⟨⟩
      exact hr

/-- A token of a script that is a block is written with the source and the record that it gives back. -/
theorem exists_legible_of_mem_tokens {src : String} {t : Token} (ht : t ∈ tokens src) (hk : t.kind = .expression) :
    ∃ source recorded, t.text = blockOf source ++ recordOf recorded ∧ Legible source recorded ∧
      t.expressionParts? = some (source, recorded) := by
  obtain ⟨behind, hform⟩ := form_of_mem_tokens ht (by rw [hk]; decide)
  rw [hk] at hform
  obtain ⟨source, recorded, htext, hlegible⟩ := hform.exists_legible
  have htext : t.text = blockOf source ++ recordOf recorded := String.toList_inj.1 htext
  refine ⟨source, recorded, htext, hlegible, ?_⟩
  obtain ⟨text, place⟩ := t
  obtain rfl := htext
  exact hlegible.expressionParts?_eq place

/-- What is written as a block is the first token of a script that begins with it, and this token gives back the source
and the record. A block without a record must not have what could be one behind it. Each block of a script is written
like this. Whatever its text is, a token that is a block can be taken apart, so no run ends with a block that cannot. -/
theorem blocks_round_trip :
    (∀ (source : String) (recorded : Option String) (behind : String),
      ¬['\x7d', '$'] <:+: source.toList →
      (∀ r ∈ recorded, ¬['\x7d', '~'] <:+: r.toList) →
      (recorded = none → ∀ x y, behind.toList ≠ ['~', '\x7b'] ++ x ++ ['\x7d', '~'] ++ y) →
      ∃ t rest, tokens (blockOf source ++ recordOf recorded ++ behind) = t :: rest ∧
        t.text = blockOf source ++ recordOf recorded ∧ t.place = .start ∧ textOf rest = behind ∧
        t.kind = .expression ∧ t.expressionParts? = some (source, recorded)) ∧
    (∀ (src : String) (t : Token), t ∈ tokens src → t.kind = .expression →
      ∃ source recorded, t.text = blockOf source ++ recordOf recorded ∧
        t.expressionParts? = some (source, recorded)) ∧
    (∀ t : Token, t.kind = .expression → ∃ parts, t.expressionParts? = some parts) ∧
    ∀ {σ : Type} (link : Link σ) (file src : String) (s s' : Session σ) (f : String) (line column : Nat),
      (runScript link file src).run s ≠ .error (.scriptSyntax f line column malformed) s' := by
  refine ⟨fun source recorded behind hsource hrecorded hbehind => ?_, fun src t ht hk => ?_, fun t hk => ?_, ?_⟩
  · have hlegible : Legible source recorded := ⟨hsource, hrecorded⟩
    obtain ⟨rest, htokens, hrest⟩ := hlegible.tokens_eq hbehind
    exact ⟨_, rest, htokens, rfl, rfl, hrest, hlegible.kind_eq _, hlegible.expressionParts?_eq _⟩
  · obtain ⟨source, recorded, htext, -, hparts⟩ := exists_legible_of_mem_tokens ht hk
    exact ⟨source, recorded, htext, hparts⟩
  · obtain ⟨source, recorded, hparts⟩ := expressionParts?_of_kind hk
    exact ⟨_, hparts⟩
  · intro σ link file src s s' f line column hrun
    have hmessage : ∀ p : Expr.Problem, p.message ≠ malformed := fun p => (problem_message_ne p).2
    obtain ⟨_, t, _, _, -, -, -, hfault, -⟩ := runScript_error hmessage hrun (.scriptSyntax f line column)
    have hsame : malformed = unterminated := by injection hfault
    exact absurd hsame (by decide)

/-- A source that ends like a block, a record that begins like one, and the same again behind the block. -/
theorem blocks_round_trip_touching :
    ∃ t rest, tokens (blockOf "x\x7d" ++ recordOf (some "\x7b$") ++ "~\x7b\x7d~") = t :: rest ∧
      t.text = "$\x7bx\x7d\x7d$~\x7b\x7b$\x7d~" ∧ t.place = .start ∧ textOf rest = "~\x7b\x7d~" ∧
      t.kind = .expression ∧ t.expressionParts? = some ("x\x7d", some "\x7b$") :=
  blocks_round_trip.1 "x\x7d" (some "\x7b$") "~\x7b\x7d~" (by decide +kernel)
    (fun r hr => by
      obtain rfl := Option.mem_some.1 hr
      decide +kernel)
    fun h => by cases h

end Conformance.Script
