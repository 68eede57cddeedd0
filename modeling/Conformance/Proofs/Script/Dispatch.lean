import Conformance.Proofs.Script.Moves

/-!
# Which commands are sent

A command line reaches from a marker to the token that ends its line, or to the end of the script. The lines of a run
are read off its places: the tokens that it comes to, each with the session there (`completedLines`). What is sent is
one command for each of these lines, with the text that the tokens within the line make up, to the client that is
active where the line ends (`runScript_dispatch`).
-/
namespace Conformance.Script

open Text Expr

variable {σ α β : Type}

/-! ## The lines of a run -/

/-- Whether the token ends a command line that is open. -/
def Token.endsCommand (t : Token) : Bool := (t.kind = .newline || t.kind = .whitespace) && t.endsLine

/-- What a token within a command line adds to it. Expressions and comments add nothing. -/
def linePart (vars : Env) (t : Token) : String :=
  match t.kind with
  | .whitespace | .literal | .commandMarker => t.text
  | .reference => ((vars.get? (String.ofList (t.text.toList.drop 1))).map (·.text)).getD ""
  | .newline | .expression | .comment => ""

/-- Whether a command line can begin here. -/
def Visit.isMarker (v : Visit σ) : Bool := v.next.any (·.kind = .commandMarker)

/-- Whether a command line that is open ends here: at a token, or at the end of the script. -/
def Visit.endsCommand (v : Visit σ) : Bool := v.next.all (·.endsCommand)

/-- What the place adds to a command line that is open. -/
def Visit.part (v : Visit σ) : String := (v.next.map (linePart v.session.vars)).getD ""

/-- The text that the places within a command line make up. -/
def lineText (inside : List (Visit σ)) : String := String.join (inside.map (·.part))

theorem lineText_cons (v : Visit σ) (inside : List (Visit σ)) : lineText (v :: inside) = v.part ++ lineText inside := by
  rw [lineText, List.map_cons, String.join_cons]
  rfl

/-- The command lines that are completed: for each, the places between the marker that opens it and its end, and the
place where it ends. -/
def completedLines : List (Visit σ) → List (List (Visit σ) × Visit σ)
  | [] => []
  | v :: vs =>
    if v.isMarker then
      match _h : vs.dropWhile (!·.endsCommand) with
      -- A fault within the line, which is not completed then.
      | [] => []
      | ending :: rest => (vs.takeWhile (!·.endsCommand), ending) :: completedLines rest
    else completedLines vs
  termination_by vs => vs.length
  decreasing_by
    · have hlength := List.length_dropWhile_le (!·.endsCommand) vs
      rw [_h, List.length_cons] at hlength
      exact Nat.lt_succ_of_lt hlength
    · exact Nat.lt_succ_self vs.length

/-- The command that is sent at the end of a line, and its client. Directives are not sent. -/
def lineCall? (text : String) (s : Session σ) : Option (String × String) :=
  if text.trimWhite.toList.head? = some '!' then none else s.activeClient?.map fun c => (c.name, text.trimWhite)

/-! ## The line that is open -/

/-- An action that ends without a fault gives back this value. -/
def Returns (x : Action σ α) (a : α) : Prop := ∀ (s : Session σ) b s', x.run s = .ok b s' → b = a

theorem returns_pure (a : α) : Returns (pure a : Action σ α) a := by
  rintro s b s' h
  injection h with h
  exact h.symm

theorem returns_throw (f : Fault) (a : α) : Returns (throw f : Action σ α) a := by
  rintro s b s' h
  injection h

theorem returns_bind {x : Action σ α} {f : α → Action σ β} {b : β} (h : ∀ a, Returns (f a) b) :
    Returns (x >>= f) b := by
  intro s c s' hrun
  rw [EStateM.run_bind] at hrun
  split at hrun
  · exact h _ _ _ _ hrun
  · injection hrun

theorem endsLine_of_newline {t : Token} (h : t.kind = .newline) : t.endsLine = true := by
  rw [Token.kind, kindOf] at h
  rw [Token.endsLine]
  grind

variable {link : Link σ} {file : String} {line line' : Option CommandLine} {t : Token} {s s' : Session σ}

theorem endsCommand_of_blank (hk : t.kind = .newline ∨ t.kind = .whitespace) : t.endsCommand = t.endsLine := by
  rcases hk with hk | hk <;> simp [Token.endsCommand, hk]

/-- The command line that is open behind a token. -/
def openAfter (vars : Env) (t : Token) : Option CommandLine → Option CommandLine
  | none => if t.kind = .commandMarker then some ⟨"", t.place⟩ else none
  | some l => if t.endsCommand then none else some (l.add (linePart vars t))

theorem CommandLine.add_empty (l : CommandLine) : l.add "" = l := by
  rw [CommandLine.add, String.append_empty]

/-- A token that neither opens nor ends a line adds to the one that is open. -/
theorem openAfter_of_add (vars : Env) (hopens : t.kind = .commandMarker → line.isSome) (hends : t.endsCommand = false) :
    openAfter vars t line = line.map (·.add (linePart vars t)) := by
  cases line with
  | none =>
    refine if_neg fun hk => ?_
    have hline := hopens hk
    contradiction
  | some l =>
    rw [openAfter, hends]
    rfl

theorem openAfter_of_blank (vars : Env) (hk : t.kind = .newline ∨ t.kind = .whitespace) :
    openAfter vars t line = if t.endsLine then none else line.map (·.add t.text) := by
  have hmarker : t.kind ≠ .commandMarker := by
    rcases hk with hk | hk <;> simp [hk]
  have hcommand := endsCommand_of_blank hk
  by_cases hends : t.endsLine = true
  · rw [if_pos hends]
    cases line with
    | none => exact if_neg hmarker
    | some l => exact if_pos (hcommand.trans hends)
  · have hk : t.kind = .whitespace := hk.resolve_left fun hk => hends (endsLine_of_newline hk)
    rw [if_neg hends, openAfter_of_add vars (fun h => absurd h hmarker) (by simp [hcommand, hends]), linePart, hk]

theorem openAfter_of_text (vars : Env) (hk : t.kind = .literal ∨ t.kind = .commandMarker ∧ line.isSome) :
    openAfter vars t line = line.map (·.add t.text) := by
  have hopens : t.kind = .commandMarker → line.isSome := by
    rcases hk with hk | ⟨hk, hline⟩
    · simp [hk]
    · exact fun _ => hline
  have hends : t.endsCommand = false := by
    rcases hk with hk | ⟨hk, -⟩ <;> simp [Token.endsCommand, hk]
  have hpart : linePart vars t = t.text := by
    rcases hk with hk | ⟨hk, -⟩ <;> simp [linePart, hk]
  rw [openAfter_of_add vars hopens hends, hpart]

theorem openAfter_of_silent (vars : Env) (hk : t.kind = .expression ∨ t.kind = .comment) :
    openAfter vars t line = line := by
  have hopens : t.kind ≠ .commandMarker := by
    rcases hk with hk | hk <;> simp [hk]
  have hends : t.endsCommand = false := by
    rcases hk with hk | hk <;> simp [Token.endsCommand, hk]
  have hpart : linePart vars t = "" := by
    rcases hk with hk | hk <;> simp [linePart, hk]
  rw [openAfter_of_add vars (fun h => absurd h hopens) hends, hpart, funext CommandLine.add_empty]
  exact congrFun Option.map_id line

/-- Behind a token, a command line is open if one was and the token does not end it, or if the token is a marker. -/
theorem step_line (h : (step link file line t).run s = .ok line' s') : line' = openAfter s.vars t line := by
  -- The line behind a token does not depend on the session, but for a reference.
  have hblank : t.kind = .newline ∨ t.kind = .whitespace → Returns (step link file line t) (openAfter s.vars t line) := by
    intro hk
    rw [openAfter_of_blank s.vars hk, step_of_blank link file hk]
    split
    · exact returns_bind fun _ => returns_bind fun _ => returns_pure none
    · exact returns_bind fun _ => returns_pure _
  have htext : t.kind = .literal ∨ t.kind = .commandMarker ∧ line.isSome →
      Returns (step link file line t) (openAfter s.vars t line) := by
    intro hk
    rw [openAfter_of_text s.vars hk, step_of_text link file hk]
    split
    · exact returns_throw _ _
    · exact returns_bind fun _ => returns_bind fun _ => returns_pure _
  cases hk : t.kind with
  | newline => exact hblank (.inl hk) s line' s' h
  | whitespace => exact hblank (.inr hk) s line' s' h
  | expression =>
    rw [step_of_expression link file hk] at h
    rw [openAfter_of_silent s.vars (.inl hk)]
    exact (returns_bind fun _ => returns_pure line : Returns _ _) s line' s' h
  | comment =>
    rw [step_of_comment link file hk] at h
    rw [openAfter_of_silent s.vars (.inr hk)]
    exact (returns_bind fun _ => returns_pure line : Returns _ _) s line' s' h
  | literal => exact htext (.inl hk) s line' s' h
  | commandMarker =>
    cases line with
    | some l => exact htext (.inr ⟨hk, rfl⟩) s line' s' h
    | none =>
      rw [step_of_opening link file hk] at h
      rw [openAfter, if_pos hk]
      exact (returns_bind fun _ => returns_bind fun _ => returns_bind fun _ => returns_pure _ : Returns _ _) s line' s' h
  | reference =>
    rw [step_of_reference link file hk] at h
    rw [openAfter_of_add s.vars (by simp [hk]) (by simp [Token.endsCommand, hk]), linePart, hk]
    cases hvar : s.vars.get? (String.ofList (t.text.toList.drop 1)) with
    | none =>
      rw [EStateM.run_bind, run_resolve_of_none _ hvar] at h
      contradiction
    | some v =>
      rw [run_bind_ok (run_resolve_of_some _ hvar)] at h
      exact (returns_bind fun _ => returns_bind fun _ => returns_bind fun _ => returns_pure _ : Returns _ _) s line' s' h

/-! ## The lines that are completed -/

/-- The texts of the lines that are completed, with the places where they end; a line may be open at first. -/
def linesFrom : Option String → List (Visit σ) → List (String × Visit σ)
  | none, vs => (completedLines vs).map fun line => (lineText line.1, line.2)
  | some text, vs =>
    match vs.dropWhile (!·.endsCommand) with
    | [] => []
    | ending :: rest =>
      (text ++ lineText (vs.takeWhile (!·.endsCommand)), ending) ::
        (completedLines rest).map fun line => (lineText line.1, line.2)

variable {v : Visit σ}

theorem linesFrom_nil (text : Option String) : linesFrom text ([] : List (Visit σ)) = [] := by
  cases text with
  | none =>
    rw [linesFrom, completedLines]
    rfl
  | some text => rfl

theorem linesFrom_marker (h : v.isMarker = true) (vs : List (Visit σ)) :
    linesFrom none (v :: vs) = linesFrom (some "") vs := by
  rw [linesFrom, linesFrom, completedLines, if_pos h]
  split
  · rename_i hdrop
    rw [hdrop]
    rfl
  · rename_i ending rest hdrop
    simp only [hdrop, List.map_cons, String.empty_append]

theorem linesFrom_outside (h : ¬ v.isMarker = true) (vs : List (Visit σ)) :
    linesFrom none (v :: vs) = linesFrom none vs := by
  rw [linesFrom, linesFrom, completedLines, if_neg h]

theorem linesFrom_end (h : v.endsCommand = true) (text : String) (vs : List (Visit σ)) :
    linesFrom (some text) (v :: vs) = (text, v) :: linesFrom none vs := by
  have hdrop : (v :: vs).dropWhile (!·.endsCommand) = v :: vs := List.dropWhile_cons_of_neg (by simp [h])
  have htake : (v :: vs).takeWhile (!·.endsCommand) = [] := List.takeWhile_cons_of_neg (by simp [h])
  simp only [linesFrom, hdrop, htake]
  exact congrArg (fun front => (front, v) :: linesFrom none vs) String.append_empty

theorem linesFrom_inside (h : v.endsCommand = false) (text : String) (vs : List (Visit σ)) :
    linesFrom (some text) (v :: vs) = linesFrom (some (text ++ v.part)) vs := by
  have hdrop : (v :: vs).dropWhile (!·.endsCommand) = vs.dropWhile (!·.endsCommand) :=
    List.dropWhile_cons_of_pos (by simp [h])
  have htake : (v :: vs).takeWhile (!·.endsCommand) = v :: vs.takeWhile (!·.endsCommand) :=
    List.takeWhile_cons_of_pos (by simp [h])
  simp only [linesFrom, hdrop, htake, lineText_cons, String.append_assoc]

/-- The text of the command line that ends at the place, if one is open. -/
def Visit.ended? (v : Visit σ) : Option String := if v.endsCommand then v.line.map (·.text) else none

/-- The lines that end at the places of a run are those that are completed. -/
theorem ended_visits (link : Link σ) (file : String) (line : Option CommandLine) (s : Session σ) (ts : List Token) :
    (visits link file line s ts).filterMap (fun v => v.ended?.map (·, v)) =
      linesFrom (line.map (·.text)) (visits link file line s ts) := by
  -- Over the tokens, with any line open: behind a token it is the one that `step_line` says.
  induction ts generalizing line s with
  | nil =>
    cases line with
    | none =>
      rw [visits, Option.map_none, linesFrom_outside (by simp [Visit.isMarker]), linesFrom_nil]
      rfl
    | some l =>
      rw [visits, Option.map_some, linesFrom_end (by simp [Visit.endsCommand]), linesFrom_nil]
      rfl
  | cons t ts ih =>
    let v : Visit σ := ⟨s, line, some t⟩
    obtain ⟨rest, hrest, hvisits⟩ : ∃ rest, rest.filterMap (fun v => v.ended?.map (·, v)) =
        linesFrom ((openAfter s.vars t line).map (·.text)) rest ∧ visits link file line s (t :: ts) = v :: rest := by
      cases h : (step link file line t).run s with
      | ok line' s' =>
        refine ⟨visits link file line' s' ts, ?_, visits_cons_ok link file h ts⟩
        rw [← step_line h]
        exact ih line' s'
      | error f s' => exact ⟨[], (linesFrom_nil _).symm, visits_cons_error link file h ts⟩
    have hends : v.endsCommand = t.endsCommand := Option.all_some
    rw [hvisits]
    cases line with
    | none =>
      have hended : v.ended? = none := ite_self _
      rw [List.filterMap_cons_none (by rw [hended]; rfl), hrest, openAfter]
      by_cases hk : t.kind = .commandMarker
      · rw [if_pos hk]
        exact (linesFrom_marker (v := v) (by simp [v, Visit.isMarker, hk]) rest).symm
      · rw [if_neg hk]
        exact (linesFrom_outside (v := v) (by simp [v, Visit.isMarker, hk]) rest).symm
    | some l =>
      cases hcommand : t.endsCommand with
      | true =>
        have hended : v.ended? = some l.text := if_pos (hends.trans hcommand)
        rw [List.filterMap_cons_some (by rw [hended]; rfl), hrest, openAfter, if_pos hcommand]
        exact (linesFrom_end (hends.trans hcommand) l.text rest).symm
      | false =>
        have hended : v.ended? = none := if_neg (by simp [hends, hcommand])
        rw [List.filterMap_cons_none (by rw [hended]; rfl), hrest, openAfter, if_neg (by simp [hcommand])]
        exact (linesFrom_inside (hends.trans hcommand) l.text rest).symm

/-! ## What is sent -/

theorem callsOf_expectationLog (s : Session σ) (e : Expectation) : callsOf (expectationLog s e) = [] := by
  rw [expectationLog]
  cases s.checkedClient? e <;> rfl

theorem callsOf_lineLog (link : Link σ) (s : Session σ) (l : CommandLine) :
    callsOf (lineLog link s (some l)) = (lineCall? l.text s).toList := by
  rw [lineLog, lineCall?]
  split
  · rfl
  · cases s.activeClient? <;> rfl

/-- At a token that ends a command line, only the line is carried out. -/
theorem tokenLog_of_endsCommand (link : Link σ) (file : String) (s : Session σ) (line : Option CommandLine)
    (h : t.endsCommand = true) : tokenLog link file s line t = lineLog link s line := by
  obtain ⟨hk, hends⟩ := Bool.and_eq_true_iff.1 h
  have hk : t.kind = .newline ∨ t.kind = .whitespace := by simpa using hk
  unfold tokenLog
  rcases hk with hk | hk
  · rw [hk]
    exact if_pos hends
  · rw [hk]
    exact if_pos hends

/-- At any other token, nothing is sent. -/
theorem callsOf_tokenLog (link : Link σ) (file : String) (s : Session σ) (line : Option CommandLine)
    (h : t.endsCommand = false) : callsOf (tokenLog link file s line t) = [] := by
  have hends : t.kind = .newline ∨ t.kind = .whitespace → ¬ t.endsLine = true := fun hk => by
    simp [← endsCommand_of_blank hk, h]
  unfold tokenLog
  cases hk : t.kind with
  | newline => exact congrArg callsOf (if_neg (hends (.inl hk)))
  | whitespace => exact congrArg callsOf (if_neg (hends (.inr hk)))
  | expression =>
    dsimp only
    split
    · exact callsOf_blockLog _ _ s
    · rfl
  | reference =>
    cases line with
    | none =>
      dsimp only
      split
      · exact callsOf_expectationLog s _
      · rfl
    | some l => rfl
  | commandMarker => rfl
  | comment => rfl
  | literal =>
    cases line with
    | none =>
      dsimp only
      split
      · rfl
      · exact callsOf_expectationLog s _
    | some l => rfl

theorem log_of_endsCommand (link : Link σ) (file : String) (h : v.endsCommand = true) :
    v.log link file = lineLog link v.session v.line := by
  rw [Visit.endsCommand] at h
  rw [Visit.log]
  cases hnext : v.next with
  | none => rfl
  | some t =>
    rw [hnext] at h
    exact tokenLog_of_endsCommand link file v.session v.line h

theorem callsOf_log_of_not_endsCommand (link : Link σ) (file : String) (h : v.endsCommand = false) :
    callsOf (v.log link file) = [] := by
  rw [Visit.endsCommand] at h
  rw [Visit.log]
  cases hnext : v.next with
  | none =>
    rw [hnext] at h
    contradiction
  | some t =>
    rw [hnext] at h
    exact callsOf_tokenLog link file v.session v.line h

/-- What is sent at a place is the command of the line that ends there. -/
theorem callsOf_log (link : Link σ) (file : String) (v : Visit σ) :
    callsOf (v.log link file) = (v.ended?.bind (lineCall? · v.session)).toList := by
  rw [Visit.ended?]
  cases hends : v.endsCommand with
  | false =>
    rw [callsOf_log_of_not_endsCommand link file hends, if_neg Bool.false_ne_true]
    rfl
  | true =>
    rw [log_of_endsCommand link file hends, if_pos rfl]
    cases v.line with
    | none => rfl
    | some l => rw [callsOf_lineLog, Option.map_some, Option.bind_some]

/-- The calls of a whole run are those of its lines. -/
theorem callsOf_scriptLog (link : Link σ) (file src : String) (s : Session σ) :
    callsOf (scriptLog link file src s) =
      (completedLines (scriptVisits link file src s)).filterMap fun line => lineCall? (lineText line.1) line.2.session := by
  have hlines := ended_visits link file none s (tokens src)
  rw [Option.map_none, linesFrom] at hlines
  have hsends : ∀ v : Visit σ, v.ended?.bind (lineCall? · v.session) =
      (v.ended?.map (·, v)).bind fun line => lineCall? line.1 line.2.session := by
    intro v
    cases v.ended? <;> rfl
  calc callsOf (scriptLog link file src s)
      = (scriptVisits link file src s).filterMap fun v => v.ended?.bind (lineCall? · v.session) := by
        rw [List.filterMap_eq_flatMap_toList, scriptLog, callsOf, List.filterMap_flatMap]
        exact congrArg (fun f => (scriptVisits link file src s).flatMap f) (funext (callsOf_log link file))
    _ = ((scriptVisits link file src s).filterMap fun v => v.ended?.map (·, v)).filterMap
          fun line => lineCall? line.1 line.2.session := by
        rw [List.filterMap_filterMap]
        exact congrArg (fun f => (scriptVisits link file src s).filterMap f) (funext hsends)
    _ = (completedLines (scriptVisits link file src s)).filterMap
          fun line => lineCall? (lineText line.1) line.2.session := by
        simp only [scriptVisits, hlines, List.filterMap_map, Function.comp_def]

/-- A line that cannot be sent ends the run. -/
theorem faults_of_no_client (link : Link σ) (file : String) {v : Visit σ} {text : String} (hended : v.ended? = some text)
    (hbang : text.trimWhite.toList.head? ≠ some '!') (hclient : v.session.activeClient? = none) :
    v.Faults link file v.session.noClientFault v.session := by
  obtain ⟨hends, hline⟩ := Option.ite_none_right_eq_some.1 hended
  obtain ⟨l, hl, rfl⟩ := Option.map_eq_some_iff.1 hline
  have hfinish : (finish link file v.line).run v.session = .error v.session.noClientFault v.session := by
    rw [hl, finish, execute, if_neg hbang, sendCommand, EStateM.run_bind, run_activeClient_eq, hclient]
  rw [Visit.Faults]
  cases hnext : v.next with
  | none =>
    dsimp only
    rw [conclude, EStateM.run_bind, hfinish]
  | some t =>
    rw [Visit.endsCommand, hnext, Option.all_some, Token.endsCommand, Bool.and_eq_true] at hends
    dsimp only
    rw [step_of_blank link file (by simpa using hends.1), if_pos hends.2, EStateM.run_bind, hfinish]

/-- What a script sends is one command for each command line that is completed, in order, to the client that is active
where the line ends; directives are not sent. The lines are those of the places that the run comes to: each token in
turn, in the session that the tokens in front leave, up to the first fault. A line that has no active client to be sent
to is the end of the run. -/
theorem runScript_dispatch (link : Link σ) (file src : String) (s : Session σ) :
    let lines := completedLines (scriptVisits link file src s)
    let calls := lines.filterMap fun line => lineCall? (lineText line.1) line.2.session
    (endOf (runScript link file src) s).link = link.sendAll s.link calls ∧
    (endOf (runScript link file src) s).sent = s.sent ++ calls ∧
    (∀ line ∈ lines, (lineText line.1).trimWhite.toList.head? ≠ some '!' → line.2.session.activeClient? = none →
      (scriptVisits link file src s).getLast? = some line.2 ∧
      (runScript link file src).run s = .error line.2.session.noClientFault line.2.session) ∧
    ∀ (n : Nat) (v : Visit σ), (scriptVisits link file src s)[n]? = some v ↔
      n ≤ (tokens src).length ∧
      (runTokens link file none ((tokens src).take n)).run s = .ok v.line v.session ∧ v.next = (tokens src)[n]? := by
  intro lines calls
  have hmoves := runScript_moves link file src s
  have hcalls := callsOf_scriptLog link file src s
  refine ⟨?_, ?_, fun line hline hbang hclient => ?_, fun n v => visits_getElem?_eq_some_iff link file⟩
  · rw [hmoves.link, hcalls]
  · rw [hmoves.sent, hcalls]
  · have hended : (lineText line.1, line.2) ∈
        (scriptVisits link file src s).filterMap fun v => v.ended?.map (·, v) := by
      rw [scriptVisits, ended_visits, Option.map_none, linesFrom]
      exact List.mem_map_of_mem hline
    obtain ⟨v, hv, htext⟩ := List.mem_filterMap.1 hended
    obtain ⟨text, htext, hpair⟩ := Option.map_eq_some_iff.1 htext
    obtain ⟨rfl, rfl⟩ := Prod.mk.inj hpair
    rw [runScript_eq]
    exact visits_faults link file hv (faults_of_no_client link file htext hbang hclient)

end Conformance.Script
