import Conformance.Proofs.Output.Literal
import Conformance.Proofs.Script.CommandLine
import Conformance.Proofs.Script.Kinds

/-!
# Literals behind a command

The literals behind a command line are compared with the words of the reply one by one. A literal that is not there
takes the place of one word, so the literals behind it are compared as if it had been there.
-/
namespace Conformance.Script

open Text Expr Output

variable {σ : Type} {s s' : Session σ} (link : Link σ) {file name command : String} {words : List (List Char)}

/-- A token that is text to be expected, or blank. -/
def Token.IsPlain (t : Token) : Prop :=
  (t.kind = .newline ∨ t.kind = .whitespace) ∨
    (t.kind = .literal ∧ occurs ['$', '\x7b'] t.text.toList = false)

instance (t : Token) : Decidable t.IsPlain := inferInstanceAs (Decidable (_ ∨ _))

/-- The literals among tokens. -/
def literals (ts : List Token) : List Token := ts.filter (·.kind = .literal)

/-- The failure of a literal with `actual` in its place. -/
def literalFailure (file name command : String) (t : Token) (actual : List Char) : Failure :=
  { file, line := t.place.line, column := t.place.column, client := name, command := some command,
    expected := t.text, actual := String.ofList actual }

/-- The failures of literals that are compared with words one by one. Where the words have come to an end, nothing
is there. -/
def mismatches (file name command : String) (es : List Token) (words : List (List Char)) : List Failure :=
  ((es.mapIdx fun i e => (e, words[i]?.getD [])).filter fun p => p.1.text.toList ≠ p.2).map fun p =>
    literalFailure file name command p.1 p.2

/-- The first literal is compared with the first word, and the others with the words behind it. -/
theorem mismatches_cons {e : Token} (hne : e.text.toList ≠ []) (es : List Token) :
    mismatches file name command (e :: es) words =
      (if words.head? = some e.text.toList then [] else
        [literalFailure file name command e (words.head?.getD [])]) ++
      mismatches file name command es words.tail := by
  have hrest : (es.mapIdx fun i e => (e, words[i + 1]?.getD [])) =
      es.mapIdx fun i e => (e, words.tail[i]?.getD []) := by
    simp only [List.getElem?_tail]
  rw [mismatches, mismatches, List.mapIdx_cons, hrest, List.filter_cons]
  cases words with
  | nil => simp [hne]
  | cons w words =>
    by_cases hw : e.text.toList = w
    · simp [hw]
    · simp [hw, Ne.symm hw]

/-- Expectations are checked against the output of the client, which has these words left. -/
structure Expecting (s : Session σ) (name command : String) (words : List (List Char)) : Prop where
  enabled : s.expectEnabled = true
  active : s.active = some name
  pending : ∀ n, s.pending = some n → n = name
  client : ∃ c before after, s.client? name = some c ∧ c.lastCommand = some command ∧
    c.output.At before after ∧ outputWords after = words

theorem Session.Shows.expecting (h : Expecting s name command words) (h' : s.Shows s') :
    Expecting s' name command words := by
  obtain ⟨_, _, _, hpending, rfl⟩ := h'
  refine ⟨h.enabled, h.active, fun n hn => ?_, h.client⟩
  rcases hpending with rfl | rfl
  · exact h.pending n hn
  · contradiction

theorem Session.Shows.failures_eq (h : s.Shows s') : s'.failures = s.failures := by
  obtain ⟨_, _, _, -, rfl⟩ := h
  rfl

/-- What waits to be shown is the output of the client, and that can be read. -/
theorem Expecting.readable (h : Expecting s name command words) : s.Readable := by
  intro n c hn hc
  obtain ⟨c', before, after, hclient, -, hat, -⟩ := h.client
  obtain rfl := h.pending n hn
  obtain rfl := Option.some.inj (hclient.symm.trans hc)
  exact State.cursorValid_iff.2 ⟨before, after, hat⟩

/-! ## One token -/

/-- Blanks between literals are only shown. -/
theorem step_blank {t : Token} (hk : t.kind = .newline ∨ t.kind = .whitespace) (s : Session σ) :
    ∃ s', (step link file none t).run s = .ok none s' ∧ s.Shows s' := by
  refine ⟨s.write t.text, ?_, shows_write t.text s⟩
  rcases hk with hk | hk
  all_goals
    simp only [step, hk, Option.map_none]
    split <;> rfl

/-- The check of a literal takes one word, and fails if it is another one. -/
theorem check_word (file : String) {t : Token} (hne : t.text.toList ≠ [])
    (hword : ∀ c ∈ t.text.toList, isOutputBlank c = false)
    (hstarts : ∀ r, words.head? = some r → t.text.toList <+: r → t.text.toList = r)
    (h : Expecting s name command words) :
    ∃ u, (check ⟨file, t.place⟩ .literal (.literal t.text)).run s = .ok [] u ∧ Expecting u name command words.tail ∧
      u.failures = s.failures ++
        if words.head? = some t.text.toList then []
        else [literalFailure file name command t (words.head?.getD [])] := by
  obtain ⟨c, before, after, hclient, hcommand, hat, rfl⟩ := h.client
  obtain ⟨before', after', hat', htail, hresult⟩ := matchLiteral_word hat hne hword hstarts
  have hname := Session.client?_name hclient
  have htext : ¬ Expectation.literal t.text = .literal "" := by
    intro heq
    exact hne (by rw [Expectation.literal.inj heq]; rfl)
  rw [check, EStateM.run_bind, EStateM.run_get]
  simp only [h.enabled, Bool.not_true, Bool.false_eq_true, if_false, if_neg htext]
  obtain ⟨residual, hunread⟩ := run_unread (State.cursorValid_iff.2 ⟨before, after, hat⟩) s
  rw [run_bind_ok (run_activeClient h.active hclient), run_bind_ok hunread]
  have hread : Expecting (s.updateClient name fun d => { d with output := (c.output.matchLiteral t.text).2 })
      name command (outputWords after).tail :=
    ⟨h.enabled, h.active, h.pending, _, before', after', Session.client?_updateClient hclient fun _ h => h, hcommand, hat',
      htail⟩
  rw [State.check, Prod.map, hresult, hname, EStateM.run_bind, EStateM.run_modify]
  dsimp only
  split
  · refine ⟨_, rfl, Session.Shows.expecting hread ⟨_, _, _, .inl rfl, rfl⟩, ?_⟩
    rw [List.append_nil]
    rfl
  · refine ⟨_, rfl, ⟨hread.enabled, hread.active, hread.pending, hread.client⟩, ?_⟩
    rw [hname, hcommand]
    rfl

/-- A literal takes one word, and fails if it is another one. -/
theorem step_literal {t : Token} (hk : t.kind = .literal) (hopen : occurs ['$', '\x7b'] t.text.toList = false)
    (hne : t.text.toList ≠ []) (hword : ∀ c ∈ t.text.toList, isOutputBlank c = false)
    (hstarts : ∀ r, words.head? = some r → t.text.toList <+: r → t.text.toList = r)
    (h : Expecting s name command words) :
    ∃ s', (step link file none t).run s = .ok none s' ∧ Expecting s' name command words.tail ∧
      s'.failures = s.failures ++
        if words.head? = some t.text.toList then []
        else [literalFailure file name command t (words.head?.getD [])] := by
  obtain ⟨u, hu, hexpecting, hfailures⟩ := check_word file hne hword hstarts h
  obtain ⟨v, hv, huv⟩ := run_dumpMatched false u
  refine ⟨v, ?_, huv.expecting hexpecting, by rw [huv.failures_eq, hfailures]⟩
  simp only [step, hk, hopen, Bool.false_eq_true, if_false, Option.isSome_none, Option.map_none]
  rw [run_bind_ok hu, run_bind_ok hv]
  rfl

/-! ## All tokens -/

theorem literals_cons_of_blank {t : Token} (hk : t.kind = .newline ∨ t.kind = .whitespace) (ts : List Token) :
    literals (t :: ts) = literals ts := by
  refine List.filter_cons_of_neg ?_
  rcases hk with hk | hk
  all_goals simp [hk]

theorem literals_cons_of_literal {t : Token} (hk : t.kind = .literal) (ts : List Token) :
    literals (t :: ts) = t :: literals ts :=
  List.filter_cons_of_pos (by simp [hk])

/-- The literals among plain tokens take one word each, in order. -/
theorem runTokens_plain {src : String} {body : List Token} (hlexed : ∀ t ∈ body, t ∈ tokens src)
    (hplain : ∀ t ∈ body, t.IsPlain)
    (hstarts : ∀ (i : Nat) (e : Token) (r : List Char), (literals body)[i]? = some e → words[i]? = some r →
      e.text.toList <+: r → e.text.toList = r)
    (h : Expecting s name command words) :
    ∃ s', (runTokens link file none body).run s = .ok none s' ∧
      Expecting s' name command (words.drop (literals body).length) ∧
      s'.failures = s.failures ++ mismatches file name command (literals body) words := by
  -- token by token: a blank takes no word, and a literal takes the next one
  induction body generalizing s words with
  | nil => exact ⟨s, rfl, h, (List.append_nil _).symm⟩
  | cons t ts ih =>
    obtain ⟨ht, hts⟩ := List.forall_mem_cons.1 hlexed
    obtain ⟨hplain, hplains⟩ := List.forall_mem_cons.1 hplain
    rcases hplain with hk | ⟨hk, hopen⟩
    · obtain ⟨u, hu, hsu⟩ := step_blank link hk s
      rw [literals_cons_of_blank hk] at hstarts ⊢
      obtain ⟨v, hv, hexpecting, hfailures⟩ := ih hts hplains hstarts (hsu.expecting h)
      exact ⟨v, by rw [run_runTokens_cons link _ hu, hv], hexpecting, by rw [hfailures, hsu.failures_eq]⟩
    · obtain ⟨l, hl, htext, hkind, hne⟩ := exists_lexeme ht
      rw [← htext] at hne
      have hword : ∀ c ∈ t.text.toList, isOutputBlank c = false := by
        rw [htext]
        exact hl.word (hkind ▸ hk)
      rw [literals_cons_of_literal hk] at hstarts ⊢
      obtain ⟨u, hu, hexpecting, hfailures⟩ := step_literal link hk hopen hne hword
        (fun r hr => hstarts 0 t r rfl (by rw [← hr, List.head?_eq_getElem?])) h
      have hrest : ∀ (i : Nat) (e : Token) (r : List Char), (literals ts)[i]? = some e →
          words.tail[i]? = some r → e.text.toList <+: r → e.text.toList = r := by
        intro i e r he hr
        rw [List.getElem?_tail] at hr
        exact hstarts (i + 1) e r he hr
      obtain ⟨v, hv, hexpecting, hfailures'⟩ := ih hts hplains hrest hexpecting
      refine ⟨v, by rw [run_runTokens_cons link _ hu, hv], ?_, ?_⟩
      · rw [List.drop_tail] at hexpecting
        exact hexpecting
      · rw [hfailures', hfailures, List.append_assoc, ← mismatches_cons hne]

/-- The literals among plain tokens are the words of their text. -/
theorem outputWords_plain {src : String} {body : List Token} (hlexed : ∀ t ∈ body, t ∈ tokens src)
    (hchain : body.IsChain fun a b => a.kind = .literal → b.kind ≠ .literal) (hplain : ∀ t ∈ body, t.IsPlain) :
    outputWords (body.flatMap (·.text.toList)) = (literals body).map (·.text.toList) := by
  induction body with
  | nil => rfl
  | cons t ts ih =>
    obtain ⟨ht, hts⟩ := List.forall_mem_cons.1 hlexed
    obtain ⟨htplain, hplains⟩ := List.forall_mem_cons.1 hplain
    have hrest := ih hts hchain.tail hplains
    obtain ⟨l, hl, htext, hkind, hne⟩ := exists_lexeme ht
    rw [List.flatMap_cons]
    rcases htplain with hk | ⟨hk, -⟩
    · rw [literals_cons_of_blank hk, ← hrest]
      refine runs_blanks_append ?_
      rw [htext]
      exact hl.blank (hkind ▸ hk)
    · rw [literals_cons_of_literal hk, List.map_cons, ← hrest]
      refine runs_word_append (by rw [htext]; exact hne) (by rw [htext]; exact hl.word (hkind ▸ hk)) ?_
      intro c hc
      cases ts with
      | nil => contradiction
      | cons u us =>
        -- A blank token is next, since literals do not stand side by side.
        obtain ⟨hu, -⟩ := List.forall_mem_cons.1 hts
        obtain ⟨huplain, -⟩ := List.forall_mem_cons.1 hplains
        have huk := huplain.resolve_right fun hliteral => hchain.rel hk hliteral.1
        obtain ⟨l', hl', htext', hkind', hne'⟩ := exists_lexeme hu
        obtain ⟨d, r, hdr⟩ := List.exists_cons_of_ne_nil hne'
        rw [List.flatMap_cons, htext', hdr] at hc
        obtain rfl : d = c := by simpa using hc
        exact hl'.blank (hkind' ▸ huk) d (by rw [hdr]; exact List.mem_cons_self)

/-- Words that are all there do not fail. -/
theorem mismatches_self (es : List Token) :
    mismatches file name command es (es.map (·.text.toList)) = [] := by
  have hnone : (es.mapIdx fun i e => (e, (es.map (·.text.toList))[i]?.getD [])).filter
      (fun p => p.1.text.toList ≠ p.2) = [] := by
    rw [List.filter_eq_nil_iff]
    intro p hp
    obtain ⟨i, hi, rfl⟩ := List.mem_mapIdx.1 hp
    simp [hi]
  rw [mismatches, hnone]
  rfl

/-- When a script has ended, nothing is waiting to be shown that could not be read. -/
theorem readable_of_runScript {src : String} (h : (runScript link file src).run s = .ok () s') : s'.Readable := by
  have hflush : ∃ u : Session σ, flushResidual.run u = .ok () s' := by
    rw [runScript, EStateM.run_bind] at h
    split at h
    · rename_i line u _
      cases line with
      | none => exact ⟨u, h⟩
      | some line =>
        dsimp only at h
        rw [EStateM.run_bind] at h
        split at h
        · exact ⟨_, h⟩
        · contradiction
    · contradiction
  obtain ⟨u, hu⟩ := hflush
  by_cases hreadable : u.Readable
  · obtain ⟨v, hv, -, hpending⟩ := run_flushResidual hreadable
    obtain rfl : v = s' := by
      rw [hv] at hu
      injection hu
    exact Session.readable_of_pending hpending
  · obtain ⟨f, v, hv, -⟩ := run_flushResidual_of_not_readable hreadable
    rw [hv] at hu
    contradiction

/-- A command line that is answered leaves the words of the reply to be expected. -/
theorem runTokens_answered (file : String) {opening ending : Token} {line : List Token} {name text reply : String}
    {c : Client} {state : σ} (body : List Token) (hopening : opening.kind = .commandMarker)
    (hline : commandText? s.vars line = some text) (hbang : text.trimWhite.toList.head? ≠ some '!')
    (hending : ending.kind = .whitespace ∨ ending.kind = .newline) (hends : ending.endsLine = true)
    (henabled : s.expectEnabled = true) (hactive : s.active = some name) (hclient : s.client? name = some c)
    (hreadable : s.Readable) (hsend : link.send name text.trimWhite s.link = (.ok reply, state)) :
    ∃ w, (runTokens link file none (opening :: (line ++ ending :: body))).run s =
        (runTokens link file none body).run w ∧
      Expecting w name text.trimWhite (outputWords reply.toList) ∧ w.failures = s.failures := by
  -- `u` behind the marker, `v` behind the command line, `w` behind its end.
  obtain ⟨u, hu, hsu⟩ := step_commandMarker link file hopening hreadable
  obtain ⟨v, hv, huv⟩ := runTokens_commandText link file (ending :: body) (hsu.vars_eq ▸ hline)
    ⟨"", opening.place⟩
  obtain ⟨hvenabled, hvactive, hvclient, hvlink, hvfailures⟩ : v.expectEnabled = true ∧ v.active = some name ∧
      v.client? name = some c ∧ v.link = s.link ∧ v.failures = s.failures := by
    obtain ⟨_, _, _, -, rfl⟩ := hsu.trans huv
    exact ⟨henabled, hactive, hclient, rfl, rfl⟩
  rw [String.empty_append] at hv
  obtain ⟨w, hw, hanswered⟩ := step_endsLine link file (⟨text, opening.place⟩ : CommandLine)
    hending hends hbang hvactive hvclient (by rw [hvlink]; exact hsend)
  have hexpecting : Expecting w name text.trimWhite (outputWords reply.toList) :=
    ⟨hanswered.enabled.trans hvenabled, hanswered.active, hanswered.pending,
      _, _, _, hanswered.client, rfl, State.at_reset c.output reply, rfl⟩
  exact ⟨w, by rw [run_runTokens_cons link _ hu, hv, run_runTokens_cons link _ hw], hexpecting,
    hanswered.failures.trans hvfailures⟩

/-- The words that are expected next are those of the output that is unread. -/
theorem Expecting.residual (h : Expecting s name command words) :
    ∃ c left, s.client? name = some c ∧ c.output.residual? = some left ∧ outputWords left.toList = words := by
  obtain ⟨c, before, after, hc, -, hat, hafter⟩ := h.client
  exact ⟨c, String.ofList after, hc, hat.residual?_eq, by rw [String.toList_ofList, hafter]⟩

/-- A script that is a command line and plain text behind it compares the literals of the text with the words of the
reply one by one, as long as no literal is the beginning of a longer word in its place: it ends without a fault, it
records one failure for each literal that is not the word in its place, and the words beyond the literals are left
unread. So text with the words of the reply does not fail, however both are laid out. Output of an earlier command that
still waits to be shown has to be readable, as it is whenever a script has ended. -/
theorem runScript_resync (link : Link σ) (file src : String) (s : Session σ) {opening ending : Token}
    {line body : List Token} {name text reply : String} {c : Client} {state : σ}
    (hsrc : tokens src = opening :: (line ++ ending :: body)) (hopening : opening.kind = .commandMarker)
    (hline : commandText? s.vars line = some text) (hbang : text.trimWhite.toList.head? ≠ some '!')
    (hending : ending.kind = .whitespace ∨ ending.kind = .newline) (hends : ending.endsLine = true)
    (hplain : ∀ t ∈ body, t.IsPlain) (henabled : s.expectEnabled = true) (hactive : s.active = some name)
    (hclient : s.client? name = some c) (hreadable : s.Readable)
    (hsend : link.send name text.trimWhite s.link = (.ok reply, state)) :
    ((∀ (i : Nat) (e : Token) (r : List Char), (literals body)[i]? = some e →
          (outputWords reply.toList)[i]? = some r → e.text.toList <+: r → e.text.toList = r) →
      ∃ s' c' left, (runScript link file src).run s = .ok () s' ∧
        s'.failures = s.failures ++
          mismatches file name text.trimWhite (literals body) (outputWords reply.toList) ∧
        s'.client? name = some c' ∧ c'.output.residual? = some left ∧
        outputWords left.toList = (outputWords reply.toList).drop (literals body).length) ∧
    (outputWords (body.flatMap (·.text.toList)) = outputWords reply.toList →
      ∃ s' c' left, (runScript link file src).run s = .ok () s' ∧ s'.failures = s.failures ∧
        s'.client? name = some c' ∧ c'.output.residual? = some left ∧ outputWords left.toList = []) := by
  have hlexed : ∀ t ∈ body, t ∈ tokens src := fun t ht => by rw [hsrc]; simp [ht]
  have hresync : (∀ (i : Nat) (e : Token) (r : List Char), (literals body)[i]? = some e →
        (outputWords reply.toList)[i]? = some r → e.text.toList <+: r → e.text.toList = r) →
      ∃ s' c' left, (runScript link file src).run s = .ok () s' ∧
        s'.failures = s.failures ++
          mismatches file name text.trimWhite (literals body) (outputWords reply.toList) ∧
        s'.client? name = some c' ∧ c'.output.residual? = some left ∧
        outputWords left.toList = (outputWords reply.toList).drop (literals body).length := by
    intro hstarts
    obtain ⟨w, hw, hexpecting, hwfailures⟩ := runTokens_answered link file body hopening hline hbang hending
      hends henabled hactive hclient hreadable hsend
    obtain ⟨x, hx, hread, hfailures⟩ := runTokens_plain link hlexed hplain hstarts hexpecting
    obtain ⟨y, hy, hxy, -⟩ := run_flushResidual hread.readable
    obtain ⟨c', left, hc', hleft, hwords⟩ := (hxy.expecting hread).residual
    refine ⟨y, c', left, ?_, ?_, hc', hleft, hwords⟩
    · rw [runScript, run_bind_ok (by rw [hsrc, hw, hx])]
      exact hy
    · rw [hxy.failures_eq, hfailures, hwfailures]
  refine ⟨hresync, fun hwords => ?_⟩
  have hchain : (opening :: (line ++ ending :: body)).IsChain fun a b => a.kind = .literal → b.kind ≠ .literal := by
    rw [← hsrc]
    exact isChain_tokens src
  have hliterals := outputWords_plain hlexed hchain.tail.right_of_append.tail hplain
  rw [hwords] at hliterals
  -- Each literal is the word in its place, so it is no beginning of a longer one.
  obtain ⟨s', c', left, hrun, hfailures, hc', hleft, hunread⟩ := hresync fun i e r he hr hstarts => by
    rw [hliterals, List.getElem?_map, he] at hr
    exact Option.some.inj hr
  rw [hliterals, mismatches_self, List.append_nil] at hfailures
  rw [hliterals, List.drop_eq_nil_of_le (by rw [List.length_map])] at hunread
  exact ⟨s', c', left, hrun, hfailures, hc', hleft, hunread⟩

/-- One wrong word in the middle of the reply fails, and the word behind it does not. -/
theorem runScript_resync_wrong_word :
    let link : Link Unit := ⟨fun _ _ s => (.ok "alpha\n beta gamma", s)⟩
    let s : Session Unit := { active := some "node", clients := [{ name := "node" }], link := () }
    ∃ s', (runScript link "a.btstest" ">>> list\nalpha wrong  gamma\n").run s = .ok () s' ∧
      s'.failures = [⟨"a.btstest", 2, 7, "node", some "list", "wrong", "beta"⟩] := by
  intro link s
  let body : List Token :=
    [⟨"alpha", ⟨2, 1⟩⟩, ⟨" ", ⟨2, 6⟩⟩, ⟨"wrong", ⟨2, 7⟩⟩, ⟨"  ", ⟨2, 12⟩⟩, ⟨"gamma", ⟨2, 14⟩⟩, ⟨"\n", ⟨2, 19⟩⟩]
  have hsrc : tokens ">>> list\nalpha wrong  gamma\n" =
      ⟨">>>", ⟨1, 1⟩⟩ :: ([⟨" ", ⟨1, 4⟩⟩, ⟨"list", ⟨1, 5⟩⟩] ++ ⟨"\n", ⟨1, 9⟩⟩ :: body) := by decide +kernel
  have hliterals : literals body = [⟨"alpha", ⟨2, 1⟩⟩, ⟨"wrong", ⟨2, 7⟩⟩, ⟨"gamma", ⟨2, 14⟩⟩] := by decide +kernel
  have hwords : outputWords "alpha\n beta gamma".toList = ["alpha".toList, "beta".toList, "gamma".toList] := by
    decide +kernel
  have hcommand : String.trimWhite " list" = "list" := by decide +kernel
  have hresync := runScript_resync link "a.btstest" _ s hsrc (by decide +kernel)
    (show commandText? s.vars _ = some " list" by decide +kernel) (by decide +kernel) (by decide +kernel)
    (by decide +kernel) (show ∀ t ∈ body, t.IsPlain by decide +kernel) rfl rfl rfl (Session.readable_of_pending rfl) rfl
  obtain ⟨s', c', left, hrun, hfailures, -⟩ := hresync.1 (by
    intro i e r he hr
    rw [hliterals] at he
    rw [hwords] at hr
    rcases i with _ | _ | _ | i
    · obtain rfl := Option.some.inj he
      obtain rfl := Option.some.inj hr
      decide +kernel
    · obtain rfl := Option.some.inj he
      obtain rfl := Option.some.inj hr
      decide +kernel
    · obtain rfl := Option.some.inj he
      obtain rfl := Option.some.inj hr
      decide +kernel
    · contradiction)
  refine ⟨s', hrun, ?_⟩
  rw [hfailures, hliterals, hwords, hcommand]
  decide +kernel

end Conformance.Script
