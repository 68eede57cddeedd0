import Mathlib.Data.List.Forall2
import Conformance.Proofs.Output.Reading
import Conformance.Proofs.Text.Words

/-!
# Literals and words

A literal without blanks in it sees nothing of the output but its words. It takes the next word, or the beginning of it,
so that the rest of that word comes next; another word is passed over.

* `WordState` is the machine that reads words, and `State.SeenAs` relates an output and how far it has been read to it;
* `matchLiteral_expect` is one step of both, and `trace_related` takes it along a whole list of literals, so that outputs
  of the same words cannot be told apart by literals (`literals_over_words`).
-/
namespace Conformance.Output

open Text

variable {s : State} {before after : List Char} {text : String}

/-- The words of a text are separated by the blanks of captured output. -/
def outputWords (cs : List Char) : List (List Char) := runs isOutputBlank cs

/-- The literal is a word: it is not empty and holds no blanks. -/
structure IsWord (text : String) : Prop where
  ne_nil : text.toList ≠ []
  solid : ∀ c ∈ text.toList, isOutputBlank c = false

instance (text : String) : Decidable (IsWord text) :=
  decidable_of_iff (text.toList ≠ [] ∧ text.toList.all (!isOutputBlank ·) = true)
    ⟨fun h => ⟨h.1, by simpa using h.2⟩, fun h => ⟨h.1, by simpa using h.2⟩⟩

/-! ## One literal -/

/-- What can still be read for one who sees words only, and what has been counted. The first word may be the rest of a
longer one. -/
structure WordState where
  words : List (List Char)
  hasFailed : Bool
  failureCount : Nat
  deriving DecidableEq, Repr

/-- Expects a word or the beginning of one. Another word, if there is any, is passed over. -/
def WordState.expect (m : WordState) (text : String) : Outcome × WordState :=
  match dropPrefix? text.toList (m.words.headD []) with
  | some left => (.matched text [], { m with words := if left = [] then m.words.tail else left :: m.words.tail })
  | none => (.mismatch text (String.ofList (m.words.headD [])), ⟨m.words.tail, true, m.failureCount + 1⟩)

/-- One who sees words only sees the state so. -/
structure State.SeenAs (s : State) (m : WordState) : Prop where
  words : ∃ before after, s.At before after ∧ outputWords after = m.words
  hasFailed : s.hasFailed = m.hasFailed
  failureCount : s.failureCount = m.failureCount

/-- A literal without blanks reaches no further than the word it stands at. -/
theorem dropPrefix?_word {pat w rest : List Char} (hpat : ∀ c ∈ pat, isOutputBlank c = false)
    (hrest : ∀ c ∈ rest.head?, isOutputBlank c = true) :
    dropPrefix? pat (w ++ rest) = (dropPrefix? pat w).map (· ++ rest) := by
  induction pat generalizing w with
  | nil => rfl
  | cons p pat ih =>
    obtain ⟨hp, hpat⟩ := List.forall_mem_cons.1 hpat
    cases w with
    | nil =>
      cases rest with
      | nil => rfl
      | cons c rest =>
        have hne : p ≠ c := by
          rintro rfl
          exact Bool.false_ne_true (hp.symm.trans (hrest p rfl))
        exact (if_neg hne : (if p = c then dropPrefix? pat rest else none) = none)
    | cons c w =>
      rw [List.cons_append, dropPrefix?, dropPrefix?]
      split
      · exact ih hpat
      · rfl

/-- What is left of a word is the first word of what is left. -/
theorem outputWords_append {left rest : List Char} (hleft : ∀ c ∈ left, isOutputBlank c = false)
    (hrest : ∀ c ∈ rest.head?, isOutputBlank c = true) :
    outputWords (left ++ rest) = if left = [] then outputWords rest else left :: outputWords rest := by
  split
  next h => rw [h, List.nil_append]
  next h => exact runs_word_append h hleft hrest

/-- A literal that is a word does to the output what it does to the words of it. -/
theorem matchLiteral_expect {m : WordState} (h : s.SeenAs m) (hword : IsWord text) :
    (s.matchLiteral text).1 = (m.expect text).1 ∧ (s.matchLiteral text).2.SeenAs (m.expect text).2 := by
  obtain ⟨before, after, hat, hwords⟩ := h.words
  obtain ⟨hhead, htail⟩ := @runs_eq_front isOutputBlank after
  have hskip := hat.skipBlanks
  -- behind the blanks stand the next word, which may be empty, and what follows it
  obtain ⟨w, hw⟩ : ∃ w, w = (after.dropWhile isOutputBlank).takeWhile (!isOutputBlank ·) := ⟨_, rfl⟩
  obtain ⟨rest, hrest⟩ : ∃ rest, rest = (after.dropWhile isOutputBlank).dropWhile (!isOutputBlank ·) := ⟨_, rfl⟩
  obtain ⟨hsplit, hsolid, hstop⟩ := takeWhile_dropWhile_iff.1 ⟨hw.symm, hrest.symm⟩
  simp only [Bool.not_eq_true', Bool.not_eq_false'] at hsolid hstop
  have hfirst : m.words.headD [] = w := by rw [← hwords, outputWords, hhead, hw]
  have hothers : m.words.tail = outputWords rest := by rw [← hwords, outputWords, htail, hrest, outputWords]
  have hdrop : dropPrefix? text.toList s.skipBlanks.rest = (dropPrefix? text.toList w).map (· ++ rest) := by
    rw [hskip.rest_eq, hsplit, dropPrefix?_word hword.solid hstop]
  rw [hsplit] at hskip
  rw [State.matchLiteral, WordState.expect, hfirst, hothers, hdrop]
  cases hleft : dropPrefix? text.toList w with
  | some left =>
    obtain rfl := dropPrefix?_eq_some_iff.1 hleft
    rw [List.append_assoc] at hskip
    refine ⟨rfl, ⟨_, left ++ rest, hskip.take, ?_⟩, h.hasFailed, h.failureCount⟩
    exact outputWords_append (fun c hc => hsolid c (List.mem_append_right _ hc)) hstop
  | none =>
    have hactual : s.skipBlanks.rest.takeWhile (!isOutputBlank ·) = w := by rw [hskip.rest_eq, ← hsplit, hw]
    rw [Option.map_none, Option.isSome_none, if_neg Bool.false_ne_true, State.fail, hactual]
    refine ⟨rfl, ⟨_, rest, hskip.take.countFailure, rfl⟩, rfl, ?_⟩
    exact congrArg (· + 1) h.failureCount

/-- A literal that is one word, and no beginning of a longer word that is there, takes the next word of the output.
It is met if that word is the literal, and else the word is reported. -/
theorem matchLiteral_word (h : s.At before after) (hne : text.toList ≠ [])
    (hword : ∀ c ∈ text.toList, isOutputBlank c = false)
    (hstarts : ∀ r, (outputWords after).head? = some r → text.toList <+: r → text.toList = r) :
    ∃ before' after', (s.matchLiteral text).2.At before' after' ∧
      outputWords after' = (outputWords after).tail ∧
      (s.matchLiteral text).1 =
        if (outputWords after).head? = some text.toList then .matched text []
        else .mismatch text (String.ofList ((outputWords after).head?.getD [])) := by
  have hseen : s.SeenAs ⟨outputWords after, s.hasFailed, s.failureCount⟩ := ⟨⟨before, after, h, rfl⟩, rfl, rfl⟩
  obtain ⟨houtcome, ⟨before', after', hat', hwords'⟩, -, -⟩ := matchLiteral_expect hseen ⟨hne, hword⟩
  refine ⟨before', after', hat', ?_⟩
  rw [hwords', houtcome, WordState.expect, List.headD_eq_head?_getD]
  dsimp only
  cases hdrop : dropPrefix? text.toList ((outputWords after).head?.getD []) with
  | some left =>
    have hsplit := dropPrefix?_eq_some_iff.1 hdrop
    cases hhead : (outputWords after).head? with
    | none =>
      rw [hhead] at hsplit
      exact absurd (List.append_eq_nil_iff.1 hsplit.symm).1 hne
    | some w =>
      rw [hhead, Option.getD_some] at hsplit
      have hwhole : text.toList = w := hstarts w hhead ⟨left, hsplit.symm⟩
      obtain rfl : left = [] := List.append_right_eq_self.1 (hsplit.symm.trans hwhole.symm)
      dsimp only
      rw [if_pos rfl, if_pos (congrArg some hwhole.symm)]
      exact ⟨rfl, rfl⟩
  | none =>
    have hother : (outputWords after).head? ≠ some text.toList := by
      intro hhead
      rw [hhead, Option.getD_some] at hdrop
      have hsome := dropPrefix?_eq_some_iff.2 (List.append_nil text.toList).symm
      cases hdrop.symm.trans hsome
    rw [if_neg hother]
    exact ⟨rfl, rfl⟩

/-- A literal is met where exactly its text is unread, if the text does not begin with a blank. -/
theorem matchLiteral_verbatim (h : s.At before text.toList)
    (hsolid : ∀ c ∈ text.toList.head?, isOutputBlank c = false) : s.matchLiteral text = (.matched text [], s.take text.toList) := by
  have hblanks : text.toList.takeWhile isOutputBlank = [] := by
    cases htext : text.toList with
    | nil => rfl
    | cons c r => exact List.takeWhile_cons_of_neg (Bool.eq_false_iff.1 (hsolid c (htext ▸ rfl)))
  have hskip : s.skipBlanks = s := by
    rw [State.skipBlanks, h.rest_eq, hblanks]
    rfl
  have hprefix : dropPrefix? text.toList text.toList = some [] := dropPrefix?_eq_some_iff.2 (List.append_nil _).symm
  rw [State.matchLiteral, hskip, h.rest_eq, hprefix]
  rfl

/-- A blank at the front is passed over, and not found any more then. -/
theorem matchLiteral_of_blank (h : s.At before text.toList) {c : Char} (hc : c ∈ text.toList.head?)
    (hblank : isOutputBlank c = true) : ∃ actual, (s.matchLiteral text).1 = .mismatch text actual := by
  obtain ⟨r, htext⟩ := List.head?_eq_some_iff.1 hc
  have hnone : dropPrefix? text.toList s.skipBlanks.rest = none := by
    refine Option.eq_none_iff_forall_ne_some.2 fun left hleft => ?_
    -- what is behind the blank is too short
    have hlength := congrArg List.length (dropPrefix?_eq_some_iff.1 hleft)
    have hshorter := (r.dropWhile_sublist isOutputBlank).length_le
    rw [h.skipBlanks.rest_eq, htext, List.dropWhile_cons_of_pos hblank, List.length_append, List.length_cons] at hlength
    omega
  rw [State.matchLiteral, hnone]
  exact ⟨_, rfl⟩

/-! ## All literals -/

/-- What comes of texts that are expected one after another: each outcome, and the state behind it. -/
def trace {σ : Type} (expect : σ → String → Outcome × σ) (s : σ) : List String → List (Outcome × σ)
  | [] => []
  | t :: ts => expect s t :: trace expect (expect s t).2 ts

/-- What one text keeps of two states that are related, a list of texts keeps at each of its steps. -/
theorem trace_related {σ τ : Type} {expect : σ → String → Outcome × σ} {expect' : τ → String → Outcome × τ}
    {R : σ → τ → Prop} {texts : List String}
    (hstep : ∀ s m, R s m → ∀ t ∈ texts, (expect s t).1 = (expect' m t).1 ∧ R (expect s t).2 (expect' m t).2)
    {s : σ} {m : τ} (h : R s m) :
    List.Forall₂ (fun x y => x.1 = y.1 ∧ R x.2 y.2) (trace expect s texts) (trace expect' m texts) := by
  induction texts generalizing s m with
  | nil => exact .nil
  | cons t ts ih =>
    have hfirst := hstep s m h t List.mem_cons_self
    exact .cons hfirst (ih (fun s m h t ht => hstep s m h t (List.mem_cons_of_mem _ ht)) hfirst.2)

/-- Two readings with the same words in front of them, and with the same counted. -/
structure State.Alike (s s' : State) : Prop where
  words : ∃ left left', s.residual? = some left ∧ s'.residual? = some left' ∧
    outputWords left.toList = outputWords left'.toList
  hasFailed : s.hasFailed = s'.hasFailed
  failureCount : s.failureCount = s'.failureCount

/-- What is seen as the same words is alike. -/
theorem State.SeenAs.alike {s' : State} {m : WordState} (h : s.SeenAs m) (h' : s'.SeenAs m) : s.Alike s' := by
  obtain ⟨_, after, hat, hwords⟩ := h.words
  obtain ⟨_, after', hat', hwords'⟩ := h'.words
  refine ⟨⟨_, _, hat.residual?_eq, hat'.residual?_eq, ?_⟩, h.hasFailed.trans h'.hasFailed.symm,
    h.failureCount.trans h'.failureCount.symm⟩
  rw [String.toList_ofList, String.toList_ofList, hwords, hwords']

theorem seenAs_reset (s : State) (output : String) :
    (s.reset output).SeenAs ⟨outputWords output.toList, false, s.failureCount⟩ :=
  ⟨⟨[], output.toList, State.at_reset s output, rfl⟩, rfl, rfl⟩

/-- Literals are matched by a machine over words. On outputs that have the same words, with whatever blanks between them,
every list of literals that are words comes to the same outcomes, and at each step the counters are equal and the same
words are left, also where a literal is only the beginning of a word. All this is as the words alone tell it. -/
theorem literals_over_words {output output' : String} (hwords : outputWords output.toList = outputWords output'.toList)
    {s s' : State} (hcount : s.failureCount = s'.failureCount) {texts : List String} (htexts : ∀ t ∈ texts, IsWord t) :
    List.Forall₂ (fun x y => x.1 = y.1 ∧ x.2.Alike y.2) (trace State.matchLiteral (s.reset output) texts)
        (trace State.matchLiteral (s'.reset output') texts) ∧
      List.Forall₂ (fun x y => x.1 = y.1 ∧ x.2.SeenAs y.2) (trace State.matchLiteral (s.reset output) texts)
        (trace WordState.expect ⟨outputWords output.toList, false, s.failureCount⟩ texts) := by
  have hseen := seenAs_reset s output
  have hseen' : (s'.reset output').SeenAs ⟨outputWords output.toList, false, s.failureCount⟩ := by
    rw [hwords, hcount]
    exact seenAs_reset s' output'
  have hstep : ∀ a m, State.SeenAs a m → ∀ t ∈ texts,
      (a.matchLiteral t).1 = (m.expect t).1 ∧ (a.matchLiteral t).2.SeenAs (m.expect t).2 :=
    fun a m ha t ht => matchLiteral_expect ha (htexts t ht)
  have hstep' : ∀ a b : State, (∃ m, a.SeenAs m ∧ b.SeenAs m) → ∀ t ∈ texts,
      (a.matchLiteral t).1 = (b.matchLiteral t).1 ∧
        ∃ m, (a.matchLiteral t).2.SeenAs m ∧ (b.matchLiteral t).2.SeenAs m := by
    rintro a b ⟨m, ha, hb⟩ t ht
    obtain ⟨houtcome, ha⟩ := hstep a m ha t ht
    obtain ⟨houtcome', hb⟩ := hstep b m hb t ht
    exact ⟨houtcome.trans houtcome'.symm, _, ha, hb⟩
  refine ⟨(trace_related hstep' ⟨_, hseen, hseen'⟩).imp ?_, trace_related hstep hseen⟩
  rintro x y ⟨houtcome, m, hx, hy⟩
  exact ⟨houtcome, hx.alike hy⟩

/-- A literal takes the beginning of a word, and the next one is compared with the rest of that word. -/
theorem literals_over_words_within_word :
    outputWords "ab  cd\ne".toList = outputWords "\tab\x0ccd e \r\n".toList ∧
      (∀ t ∈ ["a", "x", "cd", "f", "g"], IsWord t) ∧
      List.Forall₂ (fun x y => x.1 = y.1 ∧ x.2.Alike y.2)
        (trace State.matchLiteral (State.new.reset "ab  cd\ne") ["a", "x", "cd", "f", "g"])
        (trace State.matchLiteral (State.new.reset "\tab\x0ccd e \r\n") ["a", "x", "cd", "f", "g"]) ∧
      (trace State.matchLiteral (State.new.reset "ab  cd\ne") ["a", "x", "cd", "f", "g"]).map Prod.fst =
        [.matched "a" [], .mismatch "x" "b", .matched "cd" [], .mismatch "f" "e", .mismatch "g" ""] := by
  have hwords : outputWords "ab  cd\ne".toList = outputWords "\tab\x0ccd e \r\n".toList := by decide +kernel
  have htexts : ∀ t ∈ ["a", "x", "cd", "f", "g"], IsWord t := by
    simp only [List.forall_mem_cons, List.not_mem_nil, false_implies, implies_true, and_true]
    decide
  exact ⟨hwords, htexts, (literals_over_words hwords rfl htexts).1, by decide +kernel⟩

end Conformance.Output
