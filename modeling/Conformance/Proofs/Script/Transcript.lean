import Conformance.Proofs.Script.Dispatch
import Conformance.Proofs.Script.Printing

/-!
# The transcript

A script that ends without a fault leaves a transcript that is made up of its tokens, in order. A token is shown as it
stands, but for the results that are recorded in blocks and for literals that fail, and behind a block or a reference
stands what was matched for it alone. Between the tokens, only what a command has left unread is shown, once, where the
next command line is opened or where the script ends (`runScript_transcript`).

Two things are known at each place of the run (`step_shows`): nothing that was matched before waits to be shown, and
the client whose output is flushed next is the one of the command that was sent since a line was opened the last time.
-/
namespace Conformance.Script

open Text Expr Output

variable {σ : Type}

/-! ## What is shown at a place -/

/-- Each place of a run with the places in front of it; `before` are in front of all. -/
def withBefore (before : List (Visit σ)) : List (Visit σ) → List (List (Visit σ) × Visit σ)
  | [] => []
  | v :: vs => (before, v) :: withBefore (before ++ [v]) vs

section Texts

variable (link : Link σ) (file : String)

/-- The token without the result that is recorded in it. -/
def Token.unrecorded (t : Token) : String :=
  match t.kind, t.expressionParts? with
  | .expression, some (source, _) => "$\x7b" ++ source ++ "\x7d$"
  | _, _ => t.text

/-- Whether a command line is opened at a place. -/
def Visit.opens (v : Visit σ) : Bool := v.isMarker && v.line.isNone

/-- The failures that are recorded at a place. -/
def Visit.failures (v : Visit σ) : List Failure := (v.after link file).failures.drop v.session.failures.length

/-- How a token is shown: a literal outside a command line that fails, with what was there instead. -/
def Visit.shows (v : Visit σ) (t : Token) : String :=
  match t.kind, v.line, v.failures link file with
  | .literal, none, f :: _ => mismatchText f.expected f.actual
  | _, _, _ => t.unrecorded

/-- The texts that stand for a token: the value of a reference, or what is matched for a block. -/
def Visit.texts? (v : Visit σ) (t : Token) : Option (List String) :=
  match t.kind with
  | .reference => some ((v.session.vars.get? (String.ofList (t.text.toList.drop 1))).map (·.text)).toList
  | .expression => some (v.session.matchedBy (v.log link file))
  | _ => none

/-- What is shown of the token at a place: the number of a line that is opened, the token, and the texts that stand for
it. -/
def Visit.ownText (v : Visit σ) : String :=
  match v.next with
  | none => ""
  | some t =>
    (if v.opens && v.session.showLineNumbers then s!"L{t.place.line}: " else "") ++ v.shows link file t ++
      ((v.texts? link file t).map (matchedText v.session.showMatch)).getD ""

/-- The command that was sent last since a line was opened, with its client. -/
def lastCall? (before : List (Visit σ)) : Option (String × String) :=
  (callsOf ((before.reverse.takeWhile (!·.opens)).flatMap (Visit.log link file))).head?

/-- The command whose output is shown as far as it is unread, where a line is opened or where the script ends: the one
that was sent last. -/
def Visit.shownCall? (before : List (Visit σ)) (v : Visit σ) : Option (String × String) :=
  match v.next with
  | none => lastCall? link file (before ++ [v])
  | some _ => if v.opens then lastCall? link file before else none

/-- The unread output that is shown at a place. -/
def Visit.left? (before : List (Visit σ)) (v : Visit σ) : Option String :=
  (v.after link file).left? ((v.shownCall? link file before).map (·.1))

/-- All that is shown at a place. -/
def Visit.text (before : List (Visit σ)) (v : Visit σ) : String :=
  (v.after link file).leftText (v.left? link file before) ++ v.ownText link file

end Texts

variable {link : Link σ} {file : String} {v : Visit σ} {t : Token} {line line' : Option CommandLine}
  {s s' u : Session σ}

theorem text_of_commandMarker (hk : t.kind = .commandMarker) : t.text = marker := by
  rw [Token.kind, kindOf] at hk
  split at hk
  · exact String.toList_injective ‹_›
  · grind

theorem Visit.after_of_ok (hnext : v.next = some t) (h : (step link file v.line t).run v.session = .ok line' s') :
    v.after link file = s' := by
  rw [Visit.after, hnext]
  exact endOf_of_ok h

theorem Visit.opens_eq (hnext : v.next = some t) : v.opens = (decide (t.kind = .commandMarker) && v.line.isNone) := by
  rw [Visit.opens, Visit.isMarker, hnext, Option.any_some]

theorem Visit.endsCommand_eq (hnext : v.next = some t) :
    v.endsCommand = ((decide (t.kind = .newline) || decide (t.kind = .whitespace)) && t.endsLine) := by
  rw [Visit.endsCommand, hnext, Option.all_some, Token.endsCommand]

/-! ## One token -/

/-- Where no line is opened, no number is shown. -/
theorem ownText_of_not_opens (hnext : v.next = some t) (h : v.opens = false) :
    v.ownText link file =
      v.shows link file t ++ ((v.texts? link file t).map (matchedText v.session.showMatch)).getD "" := by
  rw [Visit.ownText, hnext, h]
  exact congrArg (· ++ _) String.empty_append

/-- A token that stands for no other text and does not fail is shown as it is. -/
theorem ownText_of_plain (hnext : v.next = some t) (h : v.opens = false)
    (hk : t.kind ≠ .expression ∧ t.kind ≠ .reference)
    (hliteral : t.kind = .literal → v.line.isSome ∨ v.failures link file = []) : v.ownText link file = t.text := by
  have htexts : v.texts? link file t = none := by
    rw [Visit.texts?]
    split
    · exact absurd ‹_› hk.2
    · exact absurd ‹_› hk.1
    · rfl
  have hunrecorded : t.unrecorded = t.text := by
    rw [Token.unrecorded]
    split
    · exact absurd ‹_› hk.1
    · rfl
  have hshows : v.shows link file t = t.unrecorded := by
    rw [Visit.shows]
    split
    · rename_i f _ hkind hline hfailures
      rcases hliteral hkind with h | h
      · simp [hline] at h
      · simp [hfailures] at h
    · rfl
  rw [ownText_of_not_opens hnext h, htexts, hshows, hunrecorded]
  exact String.append_empty

/-- The client whose output is flushed next behind a place; `pending` is the one whose output would be flushed before. -/
def Visit.waiting (link : Link σ) (file : String) (v : Visit σ) (pending : Option String) : Option String :=
  if v.opens then none else ((callsOf (v.log link file)).head?.map (·.1)).or pending

/-- What is known behind the step that is made at a place. -/
structure Shown (link : Link σ) (file : String) (v : Visit σ) (s' : Session σ) : Prop where
  transcript : s'.transcript =
    v.session.transcript ++ ((if v.opens then s'.leftText (s'.left? v.session.pending) else "") ++ v.ownText link file)
  matched : s'.matched = []
  pending : s'.pending = v.waiting link file v.session.pending
  answered : ∀ call ∈ callsOf (v.log link file), s'.HasAnswered call

/-- Where no line is opened and none ends, only the token is shown. -/
theorem shown_of_prints {text : String} (hmatched : v.session.matched = []) (hopens : v.opens = false)
    (hends : v.endsCommand = false) (htext : v.ownText link file = text) (h : Prints v.session text [] s') :
    Shown link file v s' where
  transcript := by
    rw [hopens, if_neg Bool.false_ne_true, String.empty_append, htext]
    exact h.transcript
  matched := by rw [h.matched, hmatched, List.nil_append]
  pending := by
    rw [Visit.waiting, hopens, if_neg Bool.false_ne_true, callsOf_log_of_not_endsCommand link file hends]
    exact h.pending
  answered := by simp [callsOf_log_of_not_endsCommand link file hends]

/-- Blanks are shown behind the line that they end. -/
theorem blank_shown (hnext : v.next = some t) (hmatched : v.session.matched = [])
    (hk : t.kind = .newline ∨ t.kind = .whitespace) (h : (step link file v.line t).run v.session = .ok line' s') :
    Shown link file v s' := by
  have hopens : v.opens = false := by
    rw [Visit.opens_eq hnext]
    rcases hk with hk | hk <;> simp [hk]
  have htext : v.ownText link file = t.text :=
    ownText_of_plain hnext hopens (by rcases hk with hk | hk <;> simp [hk]) (by rcases hk with hk | hk <;> simp [hk])
  have hcommand : v.endsCommand = t.endsLine := by
    rw [Visit.endsCommand, hnext, Option.all_some, endsCommand_of_blank hk]
  rw [step_of_blank link file hk] at h
  split at h
  · rename_i hends
    obtain ⟨_, u, hfinish, h⟩ := run_bind_eq_ok h
    have hcloses := finish_closes hfinish
    injection h with _ h
    obtain rfl := h
    have hlog := log_of_endsCommand link file (hcommand.trans hends)
    refine ⟨?_, hcloses.matched.trans hmatched, ?_, fun call hcall => ?_⟩
    · rw [hopens, if_neg Bool.false_ne_true, String.empty_append, htext, ← hcloses.transcript]
      rfl
    · rw [Visit.waiting, hopens, if_neg Bool.false_ne_true, hlog]
      exact hcloses.pending
    · rw [hlog] at hcall
      exact (hcloses.answered call hcall).congr rfl
  · rename_i hends
    injection h with _ h
    obtain rfl := h
    exact shown_of_prints hmatched hopens (by simp [hcommand, hends]) htext (prints_write t.text v.session)

/-- A line is opened behind what is left of the output of the last command. -/
theorem opening_shown (hnext : v.next = some t) (hmatched : v.session.matched = []) (hk : t.kind = .commandMarker)
    (hline : v.line = none) (h : (step link file v.line t).run v.session = .ok line' s') : Shown link file v s' := by
  have hopens : v.opens = true := by simp [Visit.opens_eq hnext, hk, hline]
  have hown : v.ownText link file = (if v.session.showLineNumbers then s!"L{t.place.line}: " else "") ++ marker := by
    rw [Visit.ownText, hnext, hopens, Bool.true_and]
    dsimp only
    rw [Visit.shows, Visit.texts?, Token.unrecorded, hk, text_of_commandMarker hk]
    exact String.append_empty
  rw [hline, step_of_opening link file hk] at h
  obtain ⟨_, u, hflush, h⟩ := run_bind_eq_ok h
  rw [run_bind_ok (run_numberLine t.place.line u)] at h
  injection h with _ h
  obtain rfl := h
  -- Neither the switches nor the outputs are changed by what is flushed.
  obtain rfl := flushResidual_eq_ok hflush
  have hends : v.endsCommand = false := by simp [Visit.endsCommand_eq hnext, hk]
  refine ⟨?_, hmatched, ?_, by simp [callsOf_log_of_not_endsCommand link file hends]⟩
  · rw [hopens, if_pos rfl, hown]
    simp only [← String.append_assoc]
    rfl
  · rw [Visit.waiting, hopens, if_pos rfl]
    rfl

/-- Text is shown as it is, or as a failure. -/
theorem text_shown (hnext : v.next = some t) (hmatched : v.session.matched = [])
    (hk : t.kind = .literal ∨ t.kind = .commandMarker ∧ v.line.isSome)
    (h : (step link file v.line t).run v.session = .ok line' s') : Shown link file v s' := by
  have hafter := Visit.after_of_ok hnext h
  have hopens : v.opens = false := by
    rw [Visit.opens_eq hnext]
    rcases hk with hk | ⟨hk, hline⟩
    · simp [hk]
    · simp [Option.isNone_eq_false_iff.2 hline]
  have hends : v.endsCommand = false := by
    rcases hk with hk | ⟨hk, -⟩ <;> simp [Visit.endsCommand_eq hnext, hk]
  rw [step_of_text link file hk] at h
  split at h
  · contradiction
  · obtain ⟨_, u, hexpect, h⟩ := run_bind_eq_ok h
    injection h with _ h
    -- What has been matched is forgotten, but nothing has been.
    have hprints : ∀ text, Prints v.session text [] u → Prints v.session text [] s' := fun text hu => by
      rw [← h]
      exact ⟨hu.transcript, by rw [hmatched]; rfl, hu.pending, hu.expectEnabled, hu.showMatch⟩
    have hrecorded : s'.failures = u.failures := by rw [← h]
    obtain ⟨hfailures, hu⟩ | ⟨hline, f, hfailures, hu⟩ := expectText_prints hexpect
    · have hnone : v.failures link file = [] := by
        rw [Visit.failures, hafter, hrecorded, hfailures, List.drop_length]
      refine shown_of_prints hmatched hopens hends (ownText_of_plain hnext hopens ?_ fun _ => .inr hnone) (hprints _ hu)
      rcases hk with hk | ⟨hk, -⟩ <;> simp [hk]
    · have hone : v.failures link file = [f] := by
        rw [Visit.failures, hafter, hrecorded, hfailures, List.drop_left]
      have hk := hk.resolve_right fun h => by simp [hline] at h
      refine shown_of_prints hmatched hopens hends ?_ (hprints _ hu)
      rw [ownText_of_not_opens hnext hopens, Visit.shows, Visit.texts?, hk, hline, hone]
      exact String.append_empty

/-- A reference is shown with its value. -/
theorem reference_shown (hnext : v.next = some t) (hmatched : v.session.matched = []) (hk : t.kind = .reference)
    (h : (step link file v.line t).run v.session = .ok line' s') : Shown link file v s' := by
  have hopens : v.opens = false := by simp [Visit.opens_eq hnext, hk]
  have hends : v.endsCommand = false := by simp [Visit.endsCommand_eq hnext, hk]
  rw [step_of_reference link file hk] at h
  cases hvar : v.session.vars.get? (String.ofList (t.text.toList.drop 1)) with
  | none =>
    rw [EStateM.run_bind, run_resolve_of_none _ hvar] at h
    contradiction
  | some value =>
    rw [run_bind_ok (run_resolve_of_some _ hvar)] at h
    obtain ⟨_, u, hcollect, h⟩ := run_bind_eq_ok h
    obtain ⟨_, w, hexpect, h⟩ := run_bind_eq_ok h
    obtain ⟨_, w', hpresent, h⟩ := run_bind_eq_ok h
    injection h with _ h
    obtain rfl := h
    have hu : Prints v.session "" [value.text] u := by
      injection hcollect with _ hcollect
      obtain rfl := hcollect
      exact ⟨String.append_empty.symm, rfl, rfl, rfl, rfl⟩
    have hw := hu.trans (expectValue_prints hexpect)
    refine shown_of_prints hmatched hopens hends ?_ (present_prints hmatched hw hpresent)
    rw [ownText_of_not_opens hnext hopens, Visit.shows, Visit.texts?, Token.unrecorded, hk, hvar]
    rfl

/-- A block is shown without the result that is recorded in it. -/
theorem expression_shown (hnext : v.next = some t) (hmatched : v.session.matched = []) (hk : t.kind = .expression)
    (h : (step link file v.line t).run v.session = .ok line' s') : Shown link file v s' := by
  have hopens : v.opens = false := by simp [Visit.opens_eq hnext, hk]
  have hends : v.endsCommand = false := by simp [Visit.endsCommand_eq hnext, hk]
  rw [step_of_expression link file hk] at h
  obtain ⟨_, u, hblock, h⟩ := run_bind_eq_ok h
  injection h with _ h
  obtain rfl := h
  obtain ⟨source, recorded, hparts, hprints⟩ := block_prints hmatched hblock
  refine shown_of_prints hmatched hopens hends ?_ hprints
  have hlog : v.log link file = blockLog ⟨file, t.place⟩ source v.session := by
    rw [Visit.log, hnext]
    dsimp only
    unfold tokenLog
    rw [hk, hparts]
  rw [ownText_of_not_opens hnext hopens, Visit.shows, Visit.texts?, Token.unrecorded, hk, hparts, hlog]
  rfl

/-- A step that ends without a fault shows what the place says, if nothing that was matched before waits to be shown. -/
theorem step_shows (hnext : v.next = some t) (hmatched : v.session.matched = [])
    (h : (step link file v.line t).run v.session = .ok line' s') : Shown link file v s' := by
  cases hk : t.kind with
  | newline => exact blank_shown hnext hmatched (.inl hk) h
  | whitespace => exact blank_shown hnext hmatched (.inr hk) h
  | expression => exact expression_shown hnext hmatched hk h
  | reference => exact reference_shown hnext hmatched hk h
  | literal => exact text_shown hnext hmatched (.inl hk) h
  | commandMarker =>
    cases hline : v.line with
    | none => exact opening_shown hnext hmatched hk hline h
    | some l => exact text_shown hnext hmatched (.inr ⟨hk, by rw [hline]; rfl⟩) h
  | comment =>
    rw [step_of_comment link file hk] at h
    injection h with _ h
    obtain rfl := h
    have hopens : v.opens = false := by simp [Visit.opens_eq hnext, hk]
    have hends : v.endsCommand = false := by simp [Visit.endsCommand_eq hnext, hk]
    exact shown_of_prints hmatched hopens hends (ownText_of_plain hnext hopens (by simp [hk]) (by simp [hk]))
      (prints_write t.text v.session)

/-! ## Runs -/

/-- The command that was sent last is the one that is sent at the place, if one is. -/
theorem lastCall?_concat (before : List (Visit σ)) (v : Visit σ) :
    lastCall? link file (before ++ [v]) =
      if v.opens then none else (callsOf (v.log link file)).head?.or (lastCall? link file before) := by
  -- Read backwards, the places go on to the one where a line was opened last.
  rw [lastCall?, lastCall?, List.reverse_append, List.reverse_singleton, List.singleton_append]
  by_cases hopens : v.opens = true
  · rw [List.takeWhile_cons_of_neg (by simp [hopens]), if_pos hopens]
    rfl
  · rw [List.takeWhile_cons_of_pos (by simp [hopens]), if_neg hopens, List.flatMap_cons, callsOf_append,
      List.head?_append]

theorem waiting_lastCall? (before : List (Visit σ)) (v : Visit σ) :
    v.waiting link file ((lastCall? link file before).map (·.1)) =
      (lastCall? link file (before ++ [v])).map (·.1) := by
  rw [Visit.waiting, lastCall?_concat]
  split
  · rfl
  · exact Option.map_or.symm

/-- What is known at a place from those in front of it: nothing that was matched waits to be shown, and the output that
is flushed next is that of the command that was sent last. -/
structure Settled (link : Link σ) (file : String) (before : List (Visit σ)) (s : Session σ) : Prop where
  matched : s.matched = []
  pending : s.pending = (lastCall? link file before).map (·.1)
  answered : ∀ call ∈ lastCall? link file before, s.HasAnswered call

/-- A command that was sent last is still the one that its client has answered last. -/
theorem answered_concat {before : List (Visit σ)} (hmoves : Moves link v.session (v.log link file) s')
    (hbefore : ∀ call ∈ lastCall? link file before, v.session.HasAnswered call)
    (hcalls : ∀ call ∈ callsOf (v.log link file), s'.HasAnswered call) :
    ∀ call ∈ lastCall? link file (before ++ [v]), s'.HasAnswered call := by
  intro call hcall
  rw [lastCall?_concat] at hcall
  split at hcall
  · contradiction
  · rcases Option.or_eq_some_iff.1 hcall with hhead | ⟨hnone, hlast⟩
    · exact hcalls call (List.mem_of_mem_head? hhead)
    · exact hmoves.hasAnswered (List.head?_eq_none_iff.1 hnone) (hbefore call hlast)

/-- What is shown at a place, in a session that is as `step_shows` leaves it. -/
theorem Shown.text (h : Shown link file v s') (hafter : v.after link file = s') (hnext : v.next = some t)
    {before : List (Visit σ)} (hpending : v.session.pending = (lastCall? link file before).map (·.1)) :
    s'.transcript = v.session.transcript ++ v.text link file before := by
  rw [h.transcript, Visit.text, Visit.left?, Visit.shownCall?, hnext, hafter, hpending]
  cases v.opens <;> rfl

/-- The command whose unread output is shown where a line is opened is the one that its client has answered last. -/
theorem Settled.answered_shownCall? {before : List (Visit σ)} (h : Settled link file before v.session)
    (hnext : v.next = some t) : ∀ call ∈ v.shownCall? link file before, (v.after link file).HasAnswered call := by
  intro call hcall
  rw [Visit.shownCall?, hnext] at hcall
  dsimp only at hcall
  split at hcall
  · -- A marker sends nothing, so what the client has answered last is the same behind it.
    rename_i hopens
    have hmarker : t.kind = .commandMarker := by
      rw [Visit.opens_eq hnext, Bool.and_eq_true, decide_eq_true_eq] at hopens
      exact hopens.1
    have hends : v.endsCommand = false := by simp [Visit.endsCommand_eq hnext, hmarker]
    exact (after_does link file v).toMoves.hasAnswered (callsOf_log_of_not_endsCommand link file hends)
      (h.answered call hcall)
  · contradiction

/-- At the end of a script, what the last command has left unread is shown. -/
theorem conclude_shows {before : List (Visit σ)} (hv : v.next = none) (hsettled : Settled link file before v.session)
    (h : (conclude link file v.line).run v.session = .ok () u) :
    u.transcript = v.session.transcript ++ v.text link file before ∧
      ∀ call ∈ v.shownCall? link file before, (v.after link file).HasAnswered call := by
  have hafter : v.after link file = u := by
    rw [Visit.after, hv]
    exact endOf_of_ok h
  have hlog : v.log link file = lineLog link v.session v.line := by rw [Visit.log, hv]
  have hopens : v.opens = false := by rw [Visit.opens, Visit.isMarker, hv]; rfl
  have hshown : v.shownCall? link file before = lastCall? link file (before ++ [v]) := by rw [Visit.shownCall?, hv]
  -- A line that is still open is closed first, so its own command is the one that was sent last.
  obtain ⟨_, w, hfinish, hflush⟩ := run_bind_eq_ok h
  have hcloses := finish_closes hfinish
  have hu := flushResidual_eq_ok hflush
  have hpending : w.pending = (v.shownCall? link file before).map (·.1) := by
    rw [hcloses.pending, hsettled.pending, hshown, ← waiting_lastCall?, Visit.waiting, hopens, hlog]
    rfl
  refine ⟨?_, ?_⟩
  · have htext : v.text link file before = w.leftText (w.left? w.pending) := by
      rw [Visit.text, Visit.left?, Visit.ownText, hafter, ← hpending, hu, hv]
      exact String.append_empty
    rw [hu, htext, ← hcloses.transcript]
    rfl
  · rw [hafter, hshown]
    refine answered_concat (hafter ▸ (after_does link file v).toMoves) hsettled.answered fun call hcall => ?_
    rw [hlog] at hcall
    exact (hcloses.answered call hcall).congr (by rw [hu]; rfl)

/-- What is shown in a run, by induction on the tokens. -/
theorem run_shows {ts : List Token} {before : List (Visit σ)} (hsettled : Settled link file before s)
    (h : (runTokens link file line ts >>= conclude link file).run s = .ok () u) :
    let places := withBefore before (visits link file line s ts)
    places.map (·.2.next) = ts.map some ++ [none] ∧
      u.transcript = s.transcript ++ String.join (places.map fun p => p.2.text link file p.1) ∧
      ∀ p ∈ places, ∀ call ∈ p.2.shownCall? link file p.1, (p.2.after link file).HasAnswered call := by
  intro places
  induction ts generalizing line s before with
  | nil =>
    obtain ⟨htranscript, hanswered⟩ := conclude_shows (v := ⟨s, line, none⟩) rfl hsettled h
    refine ⟨rfl, ?_, fun p hp => ?_⟩
    · rw [htranscript]
      exact congrArg (s.transcript ++ ·) String.empty_append.symm
    · obtain rfl := List.mem_singleton.1 hp
      exact hanswered
  | cons t ts ih =>
    let v : Visit σ := ⟨s, line, some t⟩
    rw [runTokens, bind_assoc] at h
    obtain ⟨line', s', hstep, h⟩ := run_bind_eq_ok h
    have hafter : v.after link file = s' := endOf_of_ok hstep
    have hshown : Shown link file v s' := step_shows rfl hsettled.matched hstep
    -- behind the step, what is known at a place is known with this one among those in front of it
    have hsettled' : Settled link file (before ++ [v]) s' :=
      ⟨hshown.matched, by rw [hshown.pending, ← waiting_lastCall?]; exact congrArg _ hsettled.pending,
        answered_concat (hafter ▸ (after_does link file v).toMoves) hsettled.answered hshown.answered⟩
    obtain ⟨hnext, htranscript, hanswered⟩ := ih hsettled' h
    have hplaces : places = (before, v) :: withBefore (before ++ [v]) (visits link file line' s' ts) :=
      congrArg (withBefore before) (visits_cons_ok link file hstep ts)
    rw [hplaces]
    refine ⟨congrArg (some t :: ·) hnext, ?_, fun p hp => ?_⟩
    · rw [htranscript, hshown.text hafter rfl hsettled.pending, List.map_cons, String.join_cons]
      exact String.append_assoc
    · rcases List.mem_cons.1 hp with rfl | hp
      · exact hsettled.answered_shownCall? rfl
      · exact hanswered p hp

/-- The command that waits behind a place was sent before it, or is sent there. -/
theorem lastCall?_concat_sublist (before : List (Visit σ)) (v : Visit σ) :
    (lastCall? link file (before ++ [v])).toList.Sublist
      ((lastCall? link file before).toList ++ callsOf (v.log link file)) := by
  rw [lastCall?_concat]
  split
  · exact List.nil_sublist _
  · cases callsOf (v.log link file) with
    | nil => exact List.sublist_append_left _ _
    | cons call calls => exact (List.singleton_sublist.2 List.mem_cons_self).trans (List.sublist_append_right _ _)

/-- The commands whose unread output is shown were sent in this order, so what each has left is shown once at most. -/
theorem shownCalls_sublist (ts : List Token) (line : Option CommandLine) (s : Session σ) (before : List (Visit σ)) :
    ((withBefore before (visits link file line s ts)).filterMap fun p => p.2.shownCall? link file p.1).Sublist
      ((lastCall? link file before).toList ++
        callsOf ((visits link file line s ts).flatMap (Visit.log link file))) := by
  induction ts generalizing line s before with
  | nil =>
    have hsublist : (lastCall? link file (before ++ [⟨s, line, none⟩])).toList.Sublist _ :=
      lastCall?_concat_sublist before _
    rw [visits, List.flatMap_singleton, withBefore, withBefore, List.filterMap_cons, Visit.shownCall?]
    dsimp only
    cases hcall : lastCall? link file (before ++ [⟨s, line, none⟩]) with
    | none => exact List.nil_sublist _
    | some call => rwa [hcall] at hsublist
  | cons t ts ih =>
    let v : Visit σ := ⟨s, line, some t⟩
    obtain ⟨rest, hvisits, hrest⟩ : ∃ rest, visits link file line s (t :: ts) = v :: rest ∧
        ((withBefore (before ++ [v]) rest).filterMap fun p => p.2.shownCall? link file p.1).Sublist
          ((lastCall? link file (before ++ [v])).toList ++ callsOf (rest.flatMap (Visit.log link file))) := by
      cases h : (step link file line t).run s with
      | ok line' s' => exact ⟨_, visits_cons_ok link file h ts, ih line' s' (before ++ [v])⟩
      | error f s' => exact ⟨[], visits_cons_error link file h ts, List.nil_sublist _⟩
    have hshown : v.shownCall? link file before = if v.opens then lastCall? link file before else none := rfl
    rw [hvisits, withBefore, List.flatMap_cons, callsOf_append, ← List.append_assoc]
    by_cases hopens : v.opens = true
    · -- The command that waited is shown here, and none waits behind the place.
      rw [lastCall?_concat, if_pos hopens] at hrest
      rw [if_pos hopens] at hshown
      rw [List.filterMap_cons, hshown, List.append_assoc]
      have hlater := hrest.trans (List.sublist_append_right (callsOf (v.log link file)) _)
      cases lastCall? link file before with
      | none => exact hlater
      | some call => exact hlater.cons_cons call
    · rw [if_neg hopens] at hshown
      rw [List.filterMap_cons, hshown]
      exact hrest.trans ((lastCall?_concat_sublist before v).append (List.Sublist.refl _))

/-- If no failure has been added in the end, none is recorded at any place. -/
theorem failures_eq_nil {ts : List Token} (h : (runTokens link file line ts >>= conclude link file).run s = .ok () u)
    (hsame : u.failures = s.failures) : ∀ v ∈ visits link file line s ts, v.failures link file = [] := by
  induction ts generalizing line s with
  | nil =>
    intro v hv
    obtain rfl : v = ⟨s, line, none⟩ := List.mem_singleton.1 hv
    have hafter : (⟨s, line, none⟩ : Visit σ).after link file = u :=
      endOf_of_ok (h : (conclude link file line).run s = .ok () u)
    rw [Visit.failures, hafter, hsame, List.drop_length]
  | cons t ts ih =>
    rw [runTokens, bind_assoc] at h
    obtain ⟨line', s', hstep, h⟩ := run_bind_eq_ok h
    -- Failures are only added, by the step and by the rest of the run.
    obtain ⟨added, hadded, -⟩ := (step_does link file line t s).failures
    obtain ⟨added', hadded', -⟩ :=
      (run_of_steps link file Moves.trans (fun v => (after_does link file v).toMoves) line' s' ts).failures
    rw [endOf_of_ok hstep] at hadded
    rw [endOf_of_ok h, hadded, hsame, List.append_assoc, List.self_eq_append_right, List.append_eq_nil_iff] at hadded'
    have hkept : s'.failures = s.failures := by rw [hadded, hadded'.1, List.append_nil]
    rw [visits_cons_ok link file hstep]
    intro v hv
    rcases List.mem_cons.1 hv with rfl | hv
    · have hafter : (⟨s, line, some t⟩ : Visit σ).after link file = s' := endOf_of_ok hstep
      rw [Visit.failures, hafter, hkept, List.drop_length]
    · exact ih h (hsame.trans hkept.symm) v hv

theorem withBefore_map_snd (before vs : List (Visit σ)) : (withBefore before vs).map (·.2) = vs := by
  induction vs generalizing before with
  | nil => rfl
  | cons v vs ih => exact congrArg (v :: ·) (ih (before ++ [v]))

/-- Without numbers, matched texts, failures and unread output, a token is all that is shown at its place. -/
theorem Visit.text_of_plain {before : List (Visit σ)} (hmatch : v.session.showMatch = false)
    (hnumbers : v.session.showLineNumbers = false) (hfailures : v.failures link file = [])
    (hblank : ∀ text ∈ v.left? link file before, text.trimWhite = "") :
    v.text link file before = (v.next.map Token.unrecorded).getD "" := by
  have hleft : (v.after link file).leftText (v.left? link file before) = "" := by
    cases hleft : v.left? link file before with
    | none => rfl
    | some text => exact if_pos (hblank text hleft)
  rw [Visit.text, hleft, String.empty_append, Visit.ownText]
  cases v.next with
  | none => rfl
  | some t =>
    have hshows : v.shows link file t = t.unrecorded := by
      rw [Visit.shows, hfailures]
      split
      · contradiction
      · rfl
    dsimp only
    rw [hmatch, hnumbers, Bool.and_false, if_neg Bool.false_ne_true, String.empty_append, hshows]
    cases v.texts? link file t <;> exact String.append_empty

/-- The transcript of a script that ends without a fault, run in a session in which nothing waits to be shown. What the
run adds to the transcript is, for each token in turn and for the end of the script, the text of the place: what the
command that was sent last has left unread, if a line is opened here or the script ends; the number of a line that is
opened, if lines are numbered; the token, but for recorded results and failed literals; and behind a reference or a
block, what was matched for it, if this is shown. The output is that of the command, since its client has answered no
other one after it, and no command has its unread output shown twice. So if nothing of this is shown, and nothing fails
or is left, the script is shown as it stands, without recorded results. -/
theorem runScript_transcript (link : Link σ) (file src : String) (s u : Session σ) (hmatched : s.matched = [])
    (hpending : s.pending = none) (h : (runScript link file src).run s = .ok () u) :
    let places := withBefore [] (scriptVisits link file src s)
    places.map (·.2.next) = (tokens src).map some ++ [none] ∧
    u.transcript = s.transcript ++ String.join (places.map fun p => p.2.text link file p.1) ∧
    (∀ p ∈ places, ∀ call ∈ p.2.shownCall? link file p.1, (p.2.after link file).HasAnswered call) ∧
    (places.filterMap fun p => p.2.shownCall? link file p.1).Sublist (callsOf (scriptLog link file src s)) ∧
    ((∀ p ∈ places, p.2.session.showMatch = false ∧ p.2.session.showLineNumbers = false ∧
        ∀ text ∈ p.2.left? link file p.1, text.trimWhite = "") →
      u.failures = s.failures →
      u.transcript = s.transcript ++ String.join ((tokens src).map Token.unrecorded)) := by
  intro places
  rw [runScript_eq] at h
  have hsettled : Settled link file [] s :=
    ⟨hmatched, hpending, fun call hcall => absurd hcall (Option.not_mem_none call)⟩
  obtain ⟨hnext, htranscript, hanswered⟩ := run_shows hsettled h
  refine ⟨hnext, htranscript, hanswered, shownCalls_sublist (tokens src) none s [], fun hplain hsame => ?_⟩
  have hplaces : places.map (·.2) = scriptVisits link file src s := withBefore_map_snd [] _
  have htexts : places.map (fun p => p.2.text link file p.1) = (tokens src).map Token.unrecorded ++ [""] := by
    have htext : ∀ p ∈ places, p.2.text link file p.1 = (p.2.next.map Token.unrecorded).getD "" := fun p hp => by
      obtain ⟨hmatch, hnumbers, hblank⟩ := hplain p hp
      have hvisit : p.2 ∈ scriptVisits link file src s := hplaces ▸ List.mem_map_of_mem hp
      exact Visit.text_of_plain hmatch hnumbers (failures_eq_nil h hsame p.2 hvisit) hblank
    have hmap := congrArg (List.map fun next : Option Token => (next.map Token.unrecorded).getD "") hnext
    rw [List.map_map, List.map_append, List.map_map] at hmap
    exact (List.map_congr_left htext).trans hmap
  rw [htranscript]
  refine congrArg (s.transcript ++ ·) ?_
  show String.join (places.map fun p => p.2.text link file p.1) = _
  rw [htexts, String.join_append]
  exact String.append_empty

/-- With all switches on, a script with a failed literal and with output that is left unread; and a script of which all
is met, with the switches off. -/
theorem runScript_transcript_greetings :
    let link : Link Unit := ⟨fun _ _ state => (.ok "bob world 42 left", state)⟩
    let s : Session Unit :=
      { vars := Env.empty.set "who" (.str "bob"), active := some "alice", clients := [{ name := "alice" }], link := () }
    let loud : Session Unit := { s with showMatch := true, showLineNumbers := true }
    let failing := ">>> greet\n$who there $\x7b\"42\"\x7d$~\x7b41\x7d~\n>>> greet"
    let plain := ">>> greet\n$who world $\x7b\"42\"\x7d$~\x7b41\x7d~ left\n"
    let places := withBefore [] (scriptVisits link "a" failing loud)
    let u := endOf (runScript link "a" failing) loud
    let v := endOf (runScript link "a" plain) s
    u.transcript = String.join (places.map fun p => p.2.text link "a" p.1) ∧
      (places.map fun p => p.2.text link "a" p.1) =
        ["L1: >>>", " ", "greet", "\n",
          "$who~\x7bbob\x7d~", " ", "!\x7b there \x7d!~\x7b world \x7d~", " ", "$\x7b\"42\"\x7d$~\x7b42\x7d~", "\n",
          "!\x7b \x7d!~\x7b left \x7d~\nL3: >>>", " ", "greet",
          "!\x7b \x7d!~\x7b bob world 42 left \x7d~\n"] ∧
      v.transcript = String.join ((tokens plain).map Token.unrecorded) ∧
      (tokens plain).map Token.unrecorded =
        [">>>", " ", "greet", "\n", "$who", " ", "world", " ", "$\x7b\"42\"\x7d$", " ", "left", "\n"] := by
  intro link s loud failing plain places u v
  obtain ⟨-, hu, -⟩ :=
    runScript_transcript link "a" failing loud u rfl rfl (run_eq_of_resultOf (by decide +kernel))
  obtain ⟨-, -, -, -, hv⟩ :=
    runScript_transcript link "a" plain s v rfl rfl (run_eq_of_resultOf (by decide +kernel))
  have hv := hv (by decide +kernel) (by decide +kernel)
  rw [String.empty_append] at hu hv
  exact ⟨hu, by decide +kernel, hv, by decide +kernel⟩

end Conformance.Script
