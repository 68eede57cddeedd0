import Mathlib.Data.List.Chain
import Conformance.Script.Lexer

/-!
# The kinds of tokens

The kind that is read off the text of a token is the kind of the lexeme that it was made of. So what is said
about the text of a kind of lexeme holds of the tokens of that kind: newlines and blank runs hold nothing but
blanks, and literals hold none.
-/
namespace Conformance.Script

open Text

/-! ## Kinds of texts -/

theorem marker_toList : marker.toList = ['>', '>', '>'] := by decide +kernel

theorem endsLine_concat (cs : List Char) (c : Char) :
    endsLine (cs ++ [c]) = (decide (c = '\n') || decide (c = '\r')) := by
  simp [endsLine]

/-- A text ends its line only with a newline character. -/
theorem endsLine_eq_false {cs : List Char} (h : ∀ c ∈ cs, c ≠ '\n' ∧ c ≠ '\r') : endsLine cs = false := by
  obtain rfl | ⟨r, c, rfl⟩ := List.eq_nil_or_concat cs
  · rfl
  · obtain ⟨hn, hr⟩ := h c (by simp)
    rw [List.concat_eq_append, endsLine_concat]
    simp [hn, hr]

theorem isSome_breakOn?_append (pat a b : List Char) : (breakOn? pat (a ++ (pat ++ b))).isSome := by
  induction a with
  | nil =>
    have hstarts : dropPrefix? pat (pat ++ b) = some b := dropPrefix?_eq_some_iff.2 rfl
    rw [List.nil_append]
    cases hcs : pat ++ b with
    | nil =>
      obtain ⟨rfl, -⟩ := List.append_eq_nil_iff.1 hcs
      rfl
    | cons c r =>
      rw [hcs] at hstarts
      rw [breakOn?, hstarts]
      rfl
  | cons c a ih =>
    rw [List.cons_append, breakOn?]
    split
    · rfl
    · rw [Option.isSome_map]
      exact ih

theorem kindOf_of_startsBlank {cs : List Char} (h : startsBlank cs = true) : kindOf cs = .whitespace := by
  have hmarker : cs ≠ marker.toList := by
    rintro rfl
    revert h
    decide +kernel
  rw [kindOf, if_neg hmarker]
  split <;> rfl

/-- A text that neither is a marker, nor ends its line, nor begins with a blank. -/
structure Inline (cs : List Char) : Prop where
  ne_marker : cs ≠ ['>', '>', '>']
  endsLine : Script.endsLine cs = false
  startsBlank : Script.startsBlank cs = false

theorem inline_cons {c : Char} {r : List Char} (hc : c ≠ '>') (hblank : isInlineBlank c = false)
    (hend : Script.endsLine (c :: r) = false) : Inline (c :: r) :=
  ⟨fun h => hc (List.cons.inj h).1, hend, hblank⟩

theorem Inline.kindOf_eq {cs : List Char} (h : Inline cs) :
    kindOf cs =
      if ((dropPrefix? ['$', '\x7b'] cs).map (occurs ['\x7d', '$'])).getD false then .expression
      else if startsReference cs then .reference
      else if isCommentText cs then .comment
      else .literal := by
  rw [kindOf, marker_toList, if_neg h.ne_marker, h.endsLine, h.startsBlank]
  rfl

theorem text_of_marker {t : Token} (hk : t.kind = .commandMarker) : t.text.toList = ['>', '>', '>'] := by
  rw [Token.kind, kindOf, marker_toList] at hk
  by_contra hne
  rw [if_neg hne] at hk
  split_ifs at hk

/-- The text of a reference is its name behind a dollar. -/
theorem text_of_reference {t : Token} (hk : t.kind = .reference) :
    t.text = "$" ++ String.ofList (t.text.toList.drop 1) := by
  have hstarts : startsReference t.text.toList = true := by
    rw [Token.kind, kindOf] at hk
    by_contra hnone
    rw [if_neg hnone] at hk
    split_ifs at hk
  cases htext : t.text.toList with
  | nil =>
    rw [htext] at hstarts
    cases hstarts
  | cons c r =>
    have hdollar : c = '$' := by
      rw [htext] at hstarts
      unfold startsReference at hstarts
      split at hstarts
      · rename_i heq
        exact (List.cons.inj heq).1
      · cases hstarts
    rw [← String.toList_inj, htext, hdollar]
    simp

/-- A token of the kind is a block. -/
theorem expressionParts?_of_kind {t : Token} (hk : t.kind = .expression) :
    ∃ source recorded, t.expressionParts? = some (source, recorded) := by
  have hblock : ((dropPrefix? ['$', '\x7b'] t.text.toList).map (occurs ['\x7d', '$'])).getD false = true := by
    rw [Token.kind, kindOf] at hk
    by_contra hnone
    rw [if_neg hnone] at hk
    split_ifs at hk
  cases hbody : dropPrefix? ['$', '\x7b'] t.text.toList with
  | none =>
    rw [hbody] at hblock
    cases hblock
  | some body =>
    rw [hbody] at hblock
    have hsome : (breakOn? ['\x7d', '$'] body).isSome := hblock
    obtain ⟨⟨source, rest⟩, hbreak⟩ := Option.isSome_iff_exists.1 hsome
    rw [Token.expressionParts?, hbody, Option.bind_eq_bind, Option.bind_some, hbreak]
    exact ⟨_, _, rfl⟩

/-! ## Lexemes -/

theorem newline?_kind {cs a b : List Char} (h : newline? cs = some (a, b)) :
    kindOf a = .newline ∧ ∀ c ∈ a, isOutputBlank c = true := by
  unfold newline? at h
  split at h <;> simp at h
  all_goals
    obtain ⟨rfl, -⟩ := h
    exact ⟨by decide +kernel, by simp [isOutputBlank]⟩

theorem blankRun?_kind {cs a b : List Char} (h : blankRun? cs = some (a, b)) :
    kindOf a = .whitespace ∧ ∀ c ∈ a, isOutputBlank c = true := by
  have hblank : ∀ c ∈ cs.takeWhile isInlineBlank, isInlineBlank c = true :=
    List.all_eq_true.1 List.all_takeWhile
  have hstart : ∀ x, cs.takeWhile isInlineBlank ≠ [] →
      kindOf (cs.takeWhile isInlineBlank ++ x) = .whitespace := by
    intro x hne
    obtain ⟨c, r, hcr⟩ := List.exists_cons_of_ne_nil hne
    refine kindOf_of_startsBlank ?_
    rw [hcr]
    exact hblank c (by rw [hcr]; exact List.mem_cons_self)
  have houtput : ∀ c ∈ cs.takeWhile isInlineBlank, isOutputBlank c = true := by
    intro c hc
    rw [isOutputBlank, hblank c hc]
    rfl
  unfold blankRun? at h
  split at h
  · contradiction
  · rename_i hne
    dsimp only at h
    split at h
    · rename_i nl rest hnl
      obtain ⟨rfl, -⟩ : cs.takeWhile isInlineBlank ++ nl = a ∧ rest = b := by simpa using h
      refine ⟨hstart nl hne, fun c hc => ?_⟩
      rcases List.mem_append.1 hc with hc | hc
      · exact houtput c hc
      · exact (newline?_kind hnl).2 c hc
    · obtain ⟨rfl, -⟩ : cs.takeWhile isInlineBlank = a ∧ cs.dropWhile isInlineBlank = b := by simpa using h
      refine ⟨?_, houtput⟩
      rw [← List.append_nil (cs.takeWhile isInlineBlank)]
      exact hstart [] hne

theorem bracketed?_eq_some {opening closing cs a b : List Char} (h : bracketed? opening closing cs = some (a, b)) :
    ∃ inside, a = opening ++ inside ++ closing := by
  obtain ⟨body, -, h⟩ := Option.bind_eq_some_iff.1 h
  obtain ⟨⟨inside, rest⟩, -, h⟩ := Option.bind_eq_some_iff.1 h
  obtain ⟨rfl, -⟩ : opening ++ inside ++ closing = a ∧ rest = b := by simpa using h
  exact ⟨inside, rfl⟩

theorem kindOf_block (inside x : List Char)
    (hend : endsLine ('$' :: '\x7b' :: (inside ++ (['\x7d', '$'] ++ x))) = false) :
    kindOf ('$' :: '\x7b' :: (inside ++ (['\x7d', '$'] ++ x))) = .expression := by
  have hinline := inline_cons (by decide) (by decide) hend
  have hstarts : dropPrefix? ['$', '\x7b'] ('$' :: '\x7b' :: (inside ++ (['\x7d', '$'] ++ x))) =
      some (inside ++ (['\x7d', '$'] ++ x)) := dropPrefix?_eq_some_iff.2 rfl
  rw [hinline.kindOf_eq, hstarts, if_pos]
  exact isSome_breakOn?_append _ _ _

theorem block?_kind {cs a b : List Char} (h : block? cs = some (a, b)) : kindOf a = .expression := by
  obtain ⟨⟨block, rest⟩, hblock, h⟩ := Option.bind_eq_some_iff.1 h
  obtain ⟨inside, rfl⟩ := bracketed?_eq_some hblock
  dsimp only at h
  split at h
  · rename_i recorded rest' hrecorded
    obtain ⟨rfl, -⟩ : ['$', '\x7b'] ++ inside ++ ['\x7d', '$'] ++ recorded = a ∧ rest' = b := by simpa using h
    obtain ⟨record, rfl⟩ := bracketed?_eq_some hrecorded
    have hend := endsLine_concat
      ('$' :: '\x7b' :: (inside ++ (['\x7d', '$'] ++ (['~', '\x7b'] ++ record ++ ['\x7d'])))) '~'
    simpa using kindOf_block inside (['~', '\x7b'] ++ record ++ ['\x7d', '~']) (by simpa using hend)
  · obtain ⟨rfl, -⟩ : ['$', '\x7b'] ++ inside ++ ['\x7d', '$'] = a ∧ rest = b := by simpa using h
    have hend := endsLine_concat ('$' :: '\x7b' :: (inside ++ ['\x7d'])) '$'
    simpa using kindOf_block inside [] (by simpa using hend)

theorem ne_newline_of_isNameRest {c : Char} (h : isNameRest c = true) : c ≠ '\n' ∧ c ≠ '\r' := by
  constructor
  · rintro rfl
    exact absurd h (by decide)
  · rintro rfl
    exact absurd h (by decide)

theorem isNameRest_of_isNameStart {c : Char} (h : isNameStart c = true) : isNameRest c = true := by
  simp only [isNameStart, isNameRest, Char.isAlphanum, Bool.or_eq_true] at h ⊢
  rcases h with h | h
  · exact .inl (.inl h)
  · exact .inr h

theorem reference?_kind {cs a b : List Char} (h : reference? cs = some (a, b)) : kindOf a = .reference := by
  unfold reference? at h
  split at h
  · rename_i c r
    split at h
    · rename_i hc
      obtain ⟨rfl, -⟩ : '$' :: c :: r.takeWhile isNameRest = a ∧ r.dropWhile isNameRest = b := by simpa using h
      have hend : endsLine ('$' :: c :: r.takeWhile isNameRest) = false := by
        refine endsLine_eq_false fun d hd => ?_
        rcases List.mem_cons.1 hd with rfl | hd
        · exact ⟨by decide, by decide⟩
        rcases List.mem_cons.1 hd with rfl | hd
        · exact ne_newline_of_isNameRest (isNameRest_of_isNameStart hc)
        · exact ne_newline_of_isNameRest (List.all_eq_true.1 List.all_takeWhile d hd)
      have hbrace : c ≠ '\x7b' := by
        rintro rfl
        exact absurd hc (by decide)
      rw [(inline_cons (by decide) (by decide) hend).kindOf_eq]
      have hstarts : dropPrefix? ['$', '\x7b'] ('$' :: c :: r.takeWhile isNameRest) = none := by
        simp [dropPrefix?, hbrace.symm]
      rw [hstarts]
      exact if_pos hc
    · contradiction
  · contradiction

theorem commandMarker?_kind {cs a b : List Char} (h : commandMarker? cs = some (a, b)) :
    kindOf a = .commandMarker := by
  obtain ⟨rest, -, he⟩ := Option.map_eq_some_iff.1 h
  obtain ⟨rfl, -⟩ : ['>', '>', '>'] = a ∧ rest = b := by simpa using he
  rw [kindOf, marker_toList, if_pos rfl]

theorem isCommentText_brackets (inside : List Char) :
    isCommentText (['#', '\x7b'] ++ inside ++ ['\x7d', '#']) = true := by
  have hstarts : dropPrefix? ['#', '\x7b'] (['#', '\x7b'] ++ inside ++ ['\x7d', '#']) =
      some (inside ++ ['\x7d', '#']) := dropPrefix?_eq_some_iff.2 (by simp)
  have hsuffix : dropPrefix? ['\x7d', '#'].reverse (['#', '\x7b'] ++ inside ++ ['\x7d', '#']).reverse =
      some (['#', '\x7b'] ++ inside).reverse := dropPrefix?_eq_some_iff.2 (by simp)
  rw [isCommentText, dropSuffix?, hstarts, hsuffix]
  simp

theorem comment?_kind {cs a b : List Char} (h : comment? cs = some (a, b)) : kindOf a = .comment := by
  obtain ⟨inside, rfl⟩ := bracketed?_eq_some h
  have hend := endsLine_concat ('#' :: '\x7b' :: (inside ++ ['\x7d'])) '#'
  have hinline : Inline ('#' :: '\x7b' :: (inside ++ ['\x7d', '#'])) :=
    inline_cons (by decide) (by decide) (by simpa using hend)
  have hcomment := isCommentText_brackets inside
  simp only [List.cons_append, List.nil_append] at hcomment ⊢
  rw [hinline.kindOf_eq, hcomment]
  rfl

/-- What the text of a token tells about its kind. -/
structure Classified (l : Lexeme) : Prop where
  kindOf : kindOf l.text = l.kind
  blank : l.kind = .newline ∨ l.kind = .whitespace → ∀ c ∈ l.text, isOutputBlank c = true
  word : l.kind = .literal → ∀ c ∈ l.text, isOutputBlank c = false

/-- The kind of a lexeme is read off its text. -/
theorem lexeme?_classified {cs : List Char} {l : Lexeme} (h : lexeme? cs = some l) :
    Classified l ∧ l.kind ≠ .literal := by
  obtain ⟨kind, text, rest⟩ := l
  rcases lexeme?_cases h with ⟨rfl, h⟩ | ⟨rfl, h⟩ | ⟨rfl, h⟩ | ⟨rfl, h⟩ | ⟨rfl, h⟩ | ⟨rfl, h⟩
  · exact ⟨⟨(newline?_kind h).1, fun _ => (newline?_kind h).2, by simp⟩, by simp⟩
  · exact ⟨⟨(blankRun?_kind h).1, fun _ => (blankRun?_kind h).2, by simp⟩, by simp⟩
  · exact ⟨⟨block?_kind h, by simp, by simp⟩, by simp⟩
  · exact ⟨⟨reference?_kind h, by simp, by simp⟩, by simp⟩
  · exact ⟨⟨commandMarker?_kind h, by simp, by simp⟩, by simp⟩
  · exact ⟨⟨comment?_kind h, by simp, by simp⟩, by simp⟩

/-! ## Literals -/

/-- No lexeme starts at the front of the text. -/
structure NoLexeme (cs : List Char) : Prop where
  newline : newline? cs = none
  blankRun : blankRun? cs = none
  block : block? cs = none
  reference : reference? cs = none
  commandMarker : commandMarker? cs = none
  comment : comment? cs = none

theorem lexeme?_eq_none_iff {cs : List Char} : lexeme? cs = none ↔ NoLexeme cs := by
  simp only [lexeme?, Option.orElse_eq_orElse, Option.orElse_eq_or, Option.or_eq_none_iff,
    Option.map_eq_none_iff]
  constructor
  · rintro ⟨hnl, hblank, hblock, href, hmarker, hcomment⟩
    exact ⟨hnl, hblank, hblock, href, hmarker, hcomment⟩
  · rintro ⟨hnl, hblank, hblock, href, hmarker, hcomment⟩
    exact ⟨hnl, hblank, hblock, href, hmarker, hcomment⟩

theorem NoLexeme.not_blank {c : Char} {r : List Char} (h : NoLexeme (c :: r)) : isOutputBlank c = false := by
  have hinline : isInlineBlank c = false := by
    cases hc : isInlineBlank c with
    | false => rfl
    | true =>
      have hrun := h.blankRun
      unfold blankRun? at hrun
      rw [List.takeWhile_cons, if_pos hc] at hrun
      dsimp only at hrun
      split at hrun <;> contradiction
  have hnl : c ≠ '\n' := by
    rintro rfl
    cases h.newline
  have hcr : c ≠ '\r' := by
    rintro rfl
    have hnewline := h.newline
    unfold newline? at hnewline
    split at hnewline <;> simp_all
  simp [isOutputBlank, hinline, hnl, hcr]

/-- No lexeme starts inside a literal. -/
theorem literalRun_noLexeme {cs a b : List Char} {d : Char} (h : (literalRun cs).1 = a ++ d :: b) :
    NoLexeme (d :: (b ++ (literalRun cs).2)) := by
  induction cs generalizing a with
  | nil => simp [literalRun] at h
  | cons c r ih =>
    rw [literalRun] at h ⊢
    split
    · rename_i hsome
      rw [if_pos hsome] at h
      simp at h
    · rename_i hnone
      rw [if_neg hnone] at h
      -- `d` is either the first character of the run, where no lexeme starts, or one further on.
      cases a with
      | nil =>
        obtain ⟨rfl, hrun⟩ := List.cons.inj h
        dsimp only at hrun ⊢
        rw [← hrun, literalRun_append]
        exact lexeme?_eq_none_iff.1 (Option.not_isSome_iff_eq_none.1 hnone)
      | cons e a =>
        exact ih (List.cons.inj h).2

theorem bracketed?_isSome (opening closing inside x : List Char) :
    (bracketed? opening closing (opening ++ (inside ++ (closing ++ x)))).isSome := by
  obtain ⟨⟨a, b⟩, hbreak⟩ := Option.isSome_iff_exists.1 (isSome_breakOn?_append closing inside x)
  have hstarts : dropPrefix? opening (opening ++ (inside ++ (closing ++ x))) =
      some (inside ++ (closing ++ x)) := dropPrefix?_eq_some_iff.2 rfl
  simp [bracketed?, hstarts, hbreak]

theorem NoLexeme.not_expression {cs rest : List Char} (h : NoLexeme (cs ++ rest)) :
    ((dropPrefix? ['$', '\x7b'] cs).map (occurs ['\x7d', '$'])).getD false = false := by
  cases hcs : dropPrefix? ['$', '\x7b'] cs with
  | none => rfl
  | some body =>
    rw [Option.map_some, Option.getD_some, Bool.eq_false_iff]
    intro hoccurs
    obtain ⟨⟨i, a⟩, hbody⟩ := Option.isSome_iff_exists.1 hoccurs
    -- The block that the text holds would be a lexeme, whatever stands behind the text.
    have hopen := bracketed?_isSome ['$', '\x7b'] ['\x7d', '$'] i (a ++ rest)
    have hsplit : cs ++ rest = ['$', '\x7b'] ++ (i ++ (['\x7d', '$'] ++ (a ++ rest))) := by
      rw [dropPrefix?_eq_some_iff.1 hcs, eq_of_breakOn?_eq_some hbody]
      simp only [List.append_assoc]
    rw [← hsplit] at hopen
    obtain ⟨⟨block, behind⟩, hblock⟩ := Option.isSome_iff_exists.1 hopen
    have hnone := h.block
    simp only [block?, hblock, Option.bind_eq_bind, Option.bind_some] at hnone
    split at hnone <;> contradiction

theorem NoLexeme.not_reference {cs rest : List Char} (h : NoLexeme (cs ++ rest)) :
    startsReference cs = false := by
  unfold startsReference
  split
  · rename_i c r
    rw [Bool.eq_false_iff]
    intro hc
    have hnone := h.reference
    simp only [List.cons_append, reference?] at hnone
    rw [if_pos hc] at hnone
    contradiction
  · rfl

theorem NoLexeme.not_comment {cs rest : List Char} (h : NoLexeme (cs ++ rest)) : isCommentText cs = false := by
  rw [Bool.eq_false_iff]
  intro hcomment
  simp only [isCommentText, dropSuffix?, Option.isSome_map, Bool.and_eq_true, decide_eq_true_eq] at hcomment
  obtain ⟨⟨hlen, hstarts⟩, hsuffix⟩ := hcomment
  obtain ⟨x, hx⟩ := Option.isSome_iff_exists.1 hstarts
  obtain ⟨y, hy⟩ := Option.isSome_iff_exists.1 hsuffix
  rw [dropPrefix?_eq_some_iff] at hx hy
  have hy : cs = y.reverse ++ ['\x7d', '#'] := by
    rw [← List.reverse_reverse cs, hy]
    simp
  -- The brackets do not overlap, so the text has an inside.
  obtain ⟨z, hz⟩ : ∃ z, x = z ++ ['\x7d', '#'] := by
    rcases List.append_eq_append_iff.1 (hx.symm.trans hy) with ⟨z, -, hz⟩ | ⟨z, hz, hz'⟩
    · exact ⟨z, hz⟩
    · have hzero : z = [] := by
        have hylen := congrArg List.length hy
        have hzlen := congrArg List.length hz
        simp only [List.length_append, List.length_cons, List.length_nil] at hylen hzlen
        exact List.length_eq_zero_iff.1 (by omega)
      exact ⟨[], by rw [hz', hzero]; rfl⟩
  have hsome := bracketed?_isSome ['#', '\x7b'] ['\x7d', '#'] z rest
  have hsplit : cs ++ rest = ['#', '\x7b'] ++ (z ++ (['\x7d', '#'] ++ rest)) := by
    rw [hx, hz]
    simp only [List.append_assoc]
  rw [← hsplit] at hsome
  have hnone := h.comment
  rw [comment?] at hnone
  rw [hnone] at hsome
  contradiction

/-- A text in which no lexeme starts is a literal, whatever is behind it. -/
theorem kindOf_of_noLexeme {cs rest : List Char}
    (h : ∀ a d b, cs = a ++ d :: b → NoLexeme (d :: (b ++ rest))) (hne : cs ≠ []) : kindOf cs = .literal := by
  obtain ⟨c, r, rfl⟩ := List.exists_cons_of_ne_nil hne
  have hfirst : NoLexeme (c :: r ++ rest) := h [] c r rfl
  have hblank := hfirst.not_blank
  simp only [isOutputBlank, Bool.or_eq_false_iff, decide_eq_false_iff_not] at hblank
  have hend : endsLine (c :: r) = false := by
    refine endsLine_eq_false fun d hd => ?_
    obtain ⟨a, b, hab⟩ := List.append_of_mem hd
    have hd := (h a d b hab).not_blank
    simp only [isOutputBlank, Bool.or_eq_false_iff, decide_eq_false_iff_not] at hd
    exact ⟨hd.2, hd.1.2⟩
  have hmarker : c :: r ≠ ['>', '>', '>'] := by
    intro hcr
    have hnone := hfirst.commandMarker
    rw [hcr] at hnone
    contradiction
  have hinline : Inline (c :: r) := ⟨hmarker, hend, hblank.1.1⟩
  rw [hinline.kindOf_eq, hfirst.not_expression, hfirst.not_reference, hfirst.not_comment]
  rfl

/-! ## Tokens -/

theorem nextLexeme_of_none {c : Char} {r : List Char} (h : lexeme? (c :: r) = none) :
    nextLexeme c r = ⟨.literal, (literalRun (c :: r)).1, (literalRun (c :: r)).2⟩ := by
  rw [nextLexeme, h, literalRun, h]
  rfl

/-- The kind of the first token of a text is read off its text. -/
theorem nextLexeme_classified (c : Char) (r : List Char) : Classified (nextLexeme c r) := by
  cases h : lexeme? (c :: r) with
  | some l =>
    rw [nextLexeme, h]
    exact (lexeme?_classified h).1
  | none =>
    have hne := nextLexeme_text_ne_nil c r
    rw [nextLexeme_of_none h] at hne ⊢
    have hinside : ∀ a d b, (literalRun (c :: r)).1 = a ++ d :: b →
        NoLexeme (d :: (b ++ (literalRun (c :: r)).2)) := fun a d b => literalRun_noLexeme
    refine ⟨kindOf_of_noLexeme hinside hne, by simp, fun _ d hd => ?_⟩
    obtain ⟨a, b, hab⟩ := List.append_of_mem hd
    exact (hinside a d b hab).not_blank

theorem literalRun_rest (cs : List Char) :
    (literalRun cs).2 = [] ∨ (lexeme? (literalRun cs).2).isSome := by
  induction cs with
  | nil => exact .inl rfl
  | cons c r ih =>
    rw [literalRun]
    split
    · exact .inr ‹_›
    · exact ih

/-- Behind a literal there is a lexeme, or nothing. -/
theorem nextLexeme_literal_rest {c d : Char} {r r' : List Char} (h : (nextLexeme c r).kind = .literal)
    (hrest : (nextLexeme c r).rest = d :: r') : (nextLexeme d r').kind ≠ .literal := by
  cases hl : lexeme? (c :: r) with
  | some l =>
    rw [nextLexeme, hl] at h
    exact absurd h (lexeme?_classified hl).2
  | none =>
    rw [nextLexeme_of_none hl] at hrest
    rcases literalRun_rest (c :: r) with hnil | hsome
    · rw [show (literalRun (c :: r)).2 = d :: r' from hrest] at hnil
      contradiction
    · rw [show (literalRun (c :: r)).2 = d :: r' from hrest] at hsome
      obtain ⟨l, hl'⟩ := Option.isSome_iff_exists.1 hsome
      rw [nextLexeme, hl']
      exact (lexeme?_classified hl').2

theorem lexemes_cons (c : Char) (r : List Char) :
    lexemes (c :: r) = nextLexeme c r :: lexemes (nextLexeme c r).rest := by
  rw [lexemes]

/-- Every lexeme is the first one of some text. -/
theorem exists_nextLexeme {cs : List Char} {l : Lexeme} (h : l ∈ lexemes cs) : ∃ c r, l = nextLexeme c r := by
  induction cs using lexemes.induct with
  | case1 => simp [lexemes] at h
  | case2 c r ih =>
    rw [lexemes_cons] at h
    rcases List.mem_cons.1 h with rfl | h
    · exact ⟨c, r, rfl⟩
    · exact ih h

/-- Two literals never stand side by side. -/
theorem isChain_lexemes (cs : List Char) :
    (lexemes cs).IsChain fun a b => a.kind = .literal → b.kind ≠ .literal := by
  induction cs using lexemes.induct with
  | case1 =>
    rw [lexemes]
    exact .nil
  | case2 c r ih =>
    rw [lexemes_cons]
    cases hrest : (nextLexeme c r).rest with
    | nil =>
      rw [lexemes]
      exact .singleton _
    | cons d r' =>
      rw [hrest, lexemes_cons] at ih
      rw [lexemes_cons]
      exact .cons_cons (fun h => nextLexeme_literal_rest h hrest) ih

theorem place_texts (p : Position) (ts : List (List Char)) :
    (place p ts).map (·.text.toList) = ts := by
  induction ts generalizing p with
  | nil => rfl
  | cons t ts ih => rw [place, List.map_cons, ih, String.toList_ofList]

theorem tokens_texts (src : String) :
    (tokens src).map (·.text.toList) = (lexemes src.toList).map (·.text) := place_texts _ _

/-- The kinds of the tokens are those of the lexemes. -/
theorem tokens_kinds (src : String) : (tokens src).map (·.kind) = (lexemes src.toList).map (·.kind) := by
  have hkinds := congrArg (List.map kindOf) (tokens_texts src)
  rw [List.map_map, List.map_map] at hkinds
  refine hkinds.trans (List.map_congr_left fun l hl => ?_)
  obtain ⟨c, r, rfl⟩ := exists_nextLexeme hl
  exact (nextLexeme_classified c r).kindOf

theorem isChain_tokens (src : String) :
    (tokens src).IsChain fun a b => a.kind = .literal → b.kind ≠ .literal := by
  have hchain := (List.isChain_map (R := fun a b : Kind => a = .literal → b ≠ .literal) Lexeme.kind).2
    (isChain_lexemes src.toList)
  rw [show (lexemes src.toList).map Lexeme.kind = (tokens src).map Token.kind from (tokens_kinds src).symm]
    at hchain
  exact (List.isChain_map Token.kind).1 hchain

/-- The token of a lexeme. -/
theorem exists_lexeme {src : String} {t : Token} (h : t ∈ tokens src) :
    ∃ l, Classified l ∧ t.text.toList = l.text ∧ t.kind = l.kind ∧ l.text ≠ [] := by
  have hmem := List.mem_map_of_mem (f := (·.text.toList)) h
  rw [tokens_texts] at hmem
  obtain ⟨l, hl, htext⟩ := List.mem_map.1 hmem
  obtain ⟨c, r, rfl⟩ := exists_nextLexeme hl
  have hclassified := nextLexeme_classified c r
  refine ⟨_, hclassified, htext.symm, ?_, nextLexeme_text_ne_nil c r⟩
  rw [Token.kind, ← htext]
  exact hclassified.kindOf

/-- Only blanks end a line. -/
theorem kind_of_endsLine {t : Token} (h : t.endsLine = true) : t.kind = .newline ∨ t.kind = .whitespace := by
  have hmarker : t.text.toList ≠ marker.toList := by
    intro hmarker
    rw [Token.endsLine, hmarker] at h
    exact absurd h (by decide +kernel)
  rw [Token.endsLine] at h
  rw [Token.kind, kindOf, if_neg hmarker, if_pos h]
  split
  · exact .inr rfl
  · exact .inl rfl

end Conformance.Script
