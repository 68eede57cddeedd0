import Conformance.Proofs.Script.Beside
import Conformance.Script.Suite

/-!
# Scripts one after the other

A script that ends with a line leaves nothing open, so running scripts one after the other is running the text that they
make up (`runScripts_join`). Only the first shows what is left of an output at the end of each script; nothing else is
done there, unless the program breaks down because this output cannot be read.
-/
namespace Conformance.Script

open Text Expr Output

variable {σ : Type}

/-! ## Scripts put together -/

/-- The tokens of scripts, each below the one before it. -/
def stacked : List String → List Token
  | [] => []
  | src :: rest => tokens src ++ (stacked rest).map (.down (newlineCount src.toList))

/-- The number of lines that scripts end. -/
def lineCount : List String → Nat
  | [] => 0
  | src :: rest => newlineCount src.toList + lineCount rest

/-- The script is empty, or ends with its last line. -/
def EndsLine (src : String) : Prop := ∀ t ∈ (tokens src).getLast?, t.endsLine = true

instance (src : String) : Decidable (EndsLine src) :=
  inferInstanceAs (Decidable (∀ t ∈ (tokens src).getLast?, t.endsLine = true))

/-- Behind a script that ends with a line, the next line begins. -/
theorem EndsLine.advance {src : String} (h : EndsLine src) :
    Position.start.advance src.toList = Position.start.down (newlineCount src.toList) := by
  have htext : src.toList = ((tokens src).map (·.text.toList)).flatten := by rw [tokens_texts, flatten_lexemes]
  rcases List.eq_nil_or_concat' (tokens src) with hnil | ⟨front, t, hlast⟩
  · rw [htext, hnil]
    rfl
  · have hends : t.endsLine = true := h t (by rw [hlast]; exact List.getLast?_concat)
    obtain ⟨a, c, hc, ht⟩ : ∃ a c, (c = '\r' ∨ c = '\n') ∧ t.text.toList = a ++ [c] := by
      rcases List.eq_nil_or_concat' t.text.toList with hempty | ⟨a, c, ht⟩
      · rw [Token.endsLine, hempty] at hends
        contradiction
      · rw [Token.endsLine, ht, endsLine_concat] at hends
        refine ⟨a, c, ?_, ht⟩
        simpa [or_comm] using hends
    have hsrc : src.toList = (front.map (·.text.toList)).flatten ++ a ++ [c] := by
      rw [htext, hlast, List.map_append, List.flatten_append, List.map_singleton, List.flatten_singleton, ht,
        List.append_assoc]
    have hcount : newlineCount src.toList ≠ 0 := by
      intro hzero
      have hne := newlineCount_eq_zero_iff.1 hzero c (by rw [hsrc]; simp)
      rcases hc with rfl | rfl
      · exact hne.1 rfl
      · exact hne.2 rfl
    have hlastLine : lastLine src.toList = [] := by
      rw [hsrc, lastLine_append_newline hc]
      rfl
    rw [advance_eq, if_neg hcount, hlastLine]
    rfl

/-- The tokens of scripts that end with a line are the ones of the text that they make up, if it has their texts. -/
theorem tokens_join {srcs : List String} (hends : ∀ src ∈ srcs, EndsLine src)
    (htexts : (tokens (String.join srcs)).map (·.text) = srcs.flatMap fun src => (tokens src).map (·.text)) :
    tokens (String.join srcs) = stacked srcs := by
  -- Each script begins on a new line, so its tokens stand further down by the lines in front of it.
  have hplace : place .start (srcs.flatMap fun src => (lexemes src.toList).map (·.text)) = stacked srcs := by
    clear htexts
    induction srcs with
    | nil => rfl
    | cons src rest ih =>
      obtain ⟨hsrc, hrest⟩ := List.forall_mem_cons.1 hends
      rw [List.flatMap_cons, place_append, foldl_advance_lexemes, hsrc.advance, place_down, ih hrest]
      rfl
  have hlexemes : (lexemes (String.join srcs).toList).map (·.text) =
      srcs.flatMap fun src => (lexemes src.toList).map (·.text) := by
    have hchars := congrArg (List.map String.toList) htexts
    simp only [List.map_flatMap, List.map_map] at hchars
    rw [← tokens_texts]
    refine hchars.trans ?_
    simp only [← tokens_texts]
    rfl
  rw [tokens, hlexemes, hplace]

/-! ## Running scripts -/

section Runs

variable (link : Link σ) (file : String)

/-- Runs scripts in order, each under its name. -/
def runScripts : List (String × String) → Action σ Unit
  | [] => pure ()
  | script :: rest => do
    runScript link script.1 script.2
    runScripts rest

/-- Running files that do not change is running the scripts that are in them. -/
theorem runFiles_eq_runScripts (disk : σ → Files.Disk) {scripts : List (String × String)}
    (h : ∀ script ∈ scripts, ∀ state, (disk state).readText script.1 = .ok script.2) :
    runFiles link disk (scripts.map (·.1)) = runScripts link scripts := by
  induction scripts with
  | nil => rfl
  | cons script rest ih =>
    obtain ⟨hscript, hrest⟩ := List.forall_mem_cons.1 h
    have hfile : runFile link disk script.1 = runScript link script.1 script.2 := by
      funext s
      show (runFile link disk script.1).run s = _
      rw [runFile, EStateM.run_bind, EStateM.run_get]
      simp only [hscript]
      rfl
    rw [List.map_cons, runFiles, hfile, ih hrest]
    rfl

/-- The text that scripts make up. -/
def joined (scripts : List (String × String)) : String := String.join (scripts.map (·.2))

/-- The failure of one of the scripts, and the same failure in a file in which all of them stand: it comes behind the
lines of the scripts before, in the same column. -/
def Relocated (scripts : List (String × String)) (file : String) (f g : Failure) : Prop :=
  ∃ i script, scripts[i]? = some script ∧ f.file = script.1 ∧
    g = { f with file, line := f.line + lineCount ((scripts.take i).map (·.2)) }

variable {link file} {s s' u v : Session σ} {R : Failure → Failure → Prop} {base : List Failure} {fit : Prop}

/-- No line is open behind tokens that end with one. -/
theorem line_eq_none {ts : List Token} (hends : ∀ t ∈ ts.getLast?, t.endsLine = true) {line : Option CommandLine}
    (h : (runTokens link file none ts).run s = .ok line s') : line = none := by
  rcases List.eq_nil_or_concat' ts with rfl | ⟨front, t, rfl⟩
  · injection h with hline
    exact hline.symm
  · have ht : t.endsLine = true := hends t List.getLast?_concat
    rw [runTokens_append, EStateM.run_bind] at h
    cases hfront : (runTokens link file none front).run s with
    | error f u =>
      rw [hfront] at h
      contradiction
    | ok line' u =>
      rw [hfront] at h
      have hlast : (step link file line' t >>= fun line => pure line : Action σ _).run u = .ok line s' := h
      rw [bind_pure] at hlast
      rw [step_line hlast, openAfter_of_blank _ (kind_of_endsLine ht), if_pos ht]

theorem lineCount_take_cons (script : String × String) (rest : List (String × String)) (i : Nat) :
    lineCount (((script :: rest).take (i + 1)).map (·.2)) =
      newlineCount script.2.toList + lineCount ((rest.take i).map (·.2)) := rfl

/-- Scripts do the same in order and as one text, wherever the text begins. -/
theorem runScripts_inStep {scripts : List (String × String)} {n : Nat} (hends : ∀ script ∈ scripts, EndsLine script.2)
    (hsites : ∀ i script, scripts[i]? = some script → ∀ place,
      Corresponding R ⟨script.1, place⟩ ⟨file, place.down (n + lineCount ((scripts.take i).map (·.2)))⟩)
    (h : Beside R base u v)
    (hfit : fit → ∀ w ∈ visits link file none v ((stacked (scripts.map (·.2))).map (Token.down n)),
      w.session.CursorsValid) :
    InStep fit (Beside R base) Eq ((runScripts link scripts).run u)
      ((runTokens link file none ((stacked (scripts.map (·.2))).map (Token.down n)) >>= conclude link file).run v) := by
  -- Over the scripts: between two of them no line is open, and the first run alone flushes what is left.
  induction scripts generalizing n u v with
  | nil => exact flushResidual_inStep_right h
  | cons script rest ih =>
    obtain ⟨hscript, hrest⟩ := List.forall_mem_cons.1 hends
    have hstacked : (stacked ((script :: rest).map (·.2))).map (Token.down n) =
        (tokens script.2).map (Token.down n) ++
          (stacked (rest.map (·.2))).map (Token.down (n + newlineCount script.2.toList)) := by
      rw [List.map_cons, stacked, List.map_append, List.map_map]
      refine congrArg _ (List.map_congr_left fun t _ => ?_)
      simp only [Function.comp_apply, Token.down, Position.down, Token.mk.injEq, Position.mk.injEq, true_and, and_true]
      omega
    rw [hstacked] at hfit ⊢
    rw [runScripts, runScript_eq, runTokens_append, bind_assoc, bind_assoc]
    refine (runTokens_inStep (hsites 0 script rfl) rfl h hfit).bind fun line line' u' v' hu hv hline hs => ?_
    obtain rfl : line = none := line_eq_none hscript hu
    obtain rfl : line' = none := Option.map_eq_none_iff.1 hline.symm
    replace hfit := fun hf w hw => hfit hf w (mem_visits_append link file hv hw)
    have hflush := flushResidual_inStep_left hs fun hf =>
      hfit hf _ (List.mem_of_getElem? (visits_getElem?_zero link file none v' _))
    have hconclude : conclude link script.1 none = flushResidual := rfl
    rw [hconclude, ← pure_bind () fun _ => runTokens link file none _ >>= conclude link file]
    refine hflush.bind fun _ _ u'' v'' _ hv'' _ hs' => ?_
    obtain rfl : v' = v'' := by
      injection hv''
    refine ih hrest (fun i script' hi place => ?_) hs' hfit
    have hsite := hsites (i + 1) script' hi place
    rw [lineCount_take_cons, ← Nat.add_assoc] at hsite
    exact hsite

/-- Runs in step end with the same, unless one of them breaks down; the first does not if the second does not and all
outputs are fit to be read. -/
theorem same_of_inStep {x y : Action σ Unit} (h : InStep fit (Beside R base) Eq (x.run u) (y.run v)) :
    ((endOf x u).crashed = false → (endOf y v).crashed = false →
      (resultOf x u).mapError unplaced = (resultOf y v).mapError unplaced ∧ Beside R base (endOf x u) (endOf y v)) ∧
    (fit → (endOf y v).crashed = false → (endOf x u).crashed = false) := by
  rw [endOf, endOf, resultOf, resultOf]
  generalize x.run u = r at h
  generalize y.run v = r' at h
  cases h with
  | value hvalue h => exact ⟨fun _ _ => ⟨rfl, h⟩, fun _ hv => (h.same Session.crashed fun _ => rfl).trans hv⟩
  | fault hfault h =>
    exact ⟨fun _ _ => ⟨congrArg Except.error hfault, h⟩, fun _ hv => (h.same Session.crashed fun _ => rfl).trans hv⟩
  | brokeDown₁ r hcrashed hfit =>
    refine ⟨fun hu _ => ?_, fun hf => absurd hf hfit⟩
    rw [hcrashed] at hu
    contradiction
  | brokeDown₂ r hcrashed =>
    refine ⟨fun _ hv => ?_, fun _ hv => ?_⟩
    · rw [hcrashed] at hv
      contradiction
    · rw [hcrashed] at hv
      contradiction

end Runs

/-- Running scripts in order is running the text that they make up, if each of them is empty or ends with a line and the
tokens of the text are those of the scripts: unless the program breaks down, the same commands are sent, the runs end
both without a fault or with the same fault up to its place, and they leave the same variables, switches, active client
and clients with the same outputs. The same failures are recorded, in the second run behind the lines of the scripts
before. The program does not break down if all outputs can be read when the run begins and all patterns are sound. -/
theorem runScripts_join (link : Link σ) (file : String) (scripts : List (String × String)) (s : Session σ)
    (hends : ∀ script ∈ scripts, EndsLine script.2)
    (htexts : (tokens (joined scripts)).map (·.text) = scripts.flatMap fun script => (tokens script.2).map (·.text)) :
    let u := endOf (runScripts link scripts) s
    let v := endOf (runScript link file (joined scripts)) s
    (u.crashed = false → v.crashed = false →
      (resultOf (runScripts link scripts) s).mapError unplaced =
        (resultOf (runScript link file (joined scripts)) s).mapError unplaced ∧
      u.sent = v.sent ∧ u.link = v.link ∧ u.vars = v.vars ∧ u.active = v.active ∧ u.clients = v.clients ∧
      u.expectEnabled = v.expectEnabled ∧ u.showMatch = v.showMatch ∧ u.showLineNumbers = v.showLineNumbers ∧
      ∃ added added', u.failures = s.failures ++ added ∧ v.failures = s.failures ++ added' ∧
        List.Forall₂ (Relocated scripts file) added added') ∧
    (s.Fit → SoundLog (scriptLog link file (joined scripts) s) → u.crashed = false ∧ v.crashed = false) := by
  intro u v
  -- the tokens of the scripts, each moved down by the lines in front of it
  have htokens : tokens (joined scripts) = stacked (scripts.map (·.2)) := by
    refine tokens_join (fun src hsrc => ?_) ?_
    · obtain ⟨script, hscript, rfl⟩ := List.mem_map.1 hsrc
      exact hends script hscript
    · rw [List.flatMap_map]
      exact htexts
  have hdown : (stacked (scripts.map (·.2))).map (Token.down 0) = tokens (joined scripts) := by
    rw [htokens]
    exact List.map_id _
  have hsites : ∀ i script, scripts[i]? = some script → ∀ place, Corresponding (Relocated scripts file)
      ⟨script.1, place⟩ ⟨file, place.down (0 + lineCount ((scripts.take i).map (·.2)))⟩ := by
    intro i script hi place client command expected actual
    refine ⟨i, script, hi, rfl, ?_⟩
    rw [Nat.zero_add]
    rfl
  have hstart : Beside (Relocated scripts file) s.failures s s :=
    ⟨rfl, [], [], (List.append_nil _).symm, (List.append_nil _).symm, .nil⟩
  let fit : Prop := s.Fit ∧ SoundLog (scriptLog link file (joined scripts) s)
  have hinStep : InStep fit (Beside (Relocated scripts file) s.failures) Eq ((runScripts link scripts).run s)
      ((runScript link file (joined scripts)).run s) := by
    rw [runScript_eq, ← hdown]
    refine runScripts_inStep hends hsites hstart fun hfit w hw => ?_
    rw [hdown] at hw
    exact (visits_fit hfit.1 hfit.2 w hw).valid
  obtain ⟨hsame, hrunning⟩ := same_of_inStep hinStep
  refine ⟨fun hu hv => ?_, fun hfit hsound => ?_⟩
  · obtain ⟨hresult, hs⟩ := hsame hu hv
    exact ⟨hresult, hs.same Session.sent fun _ => rfl, hs.same Session.link fun _ => rfl,
      hs.same Session.vars fun _ => rfl, hs.same Session.active fun _ => rfl, hs.same Session.clients fun _ => rfl,
      hs.same Session.expectEnabled fun _ => rfl, hs.same Session.showMatch fun _ => rfl,
      hs.same Session.showLineNumbers fun _ => rfl, hs.failures⟩
  · have hv : v.crashed = false := (runScript_fit hfit hsound).running
    exact ⟨hrunning ⟨hfit, hsound⟩ hv, hv⟩

/-- The failures of the second script come behind the lines of the first. -/
theorem runScripts_join_two_scripts :
    let link : Link Unit := ⟨fun _ _ state => (.ok "hello world", state)⟩
    let s : Session Unit := { active := some "alice", clients := [{ name := "alice" }], link := () }
    let scripts : List (String × String) :=
      [("01.btstest", ">>> greet\nhello there\n"), ("02.btstest", "#\x7b two\nlines \x7d#\n>>> greet\nbye $nobody\n")]
    let u := endOf (runScripts link scripts) s
    let v := endOf (runScript link "all.btstest" (joined scripts)) s
    (u.failures.map fun f => (f.file, f.line, f.column)) = [("01.btstest", 2, 7), ("02.btstest", 4, 1)] ∧
      (v.failures.map fun f => (f.file, f.line, f.column)) = [("all.btstest", 2, 7), ("all.btstest", 6, 1)] ∧
      (resultOf (runScripts link scripts) s).mapError unplaced = .error (.unknownVariable "" "nobody" 0 0) ∧
      (resultOf (runScripts link scripts) s).mapError unplaced =
        (resultOf (runScript link "all.btstest" (joined scripts)) s).mapError unplaced ∧
      u.sent = v.sent ∧ u.clients = v.clients := by
  intro link s scripts u v
  obtain ⟨hsame, hrunning⟩ :=
    runScripts_join link "all.btstest" scripts s (by decide +kernel) (by decide +kernel)
  obtain ⟨hu, hv⟩ := hrunning ⟨rfl, Session.cursorsValid_of_forall (by decide +kernel)⟩ (by decide +kernel)
  obtain ⟨hresult, hsent, -, -, -, hclients, -⟩ := hsame hu hv
  exact ⟨by decide +kernel, by decide +kernel, by decide +kernel, hresult, hsent, hclients⟩

/-- A pattern of the second script leaves the cursor within a character. In order, what is left of the output has been
shown by then, at the end of the first script; in one text it is shown at the next command, and the program breaks
down. -/
theorem joined_parts_at_broken_cursor :
    let link : Link Unit := ⟨fun _ _ state => (.ok "éb", state)⟩
    let s : Session Unit := { active := some "alice", clients := [{ name := "alice" }], link := () }
    let scripts : List (String × String) :=
      [("01.btstest", ">>> say\n"), ("02.btstest", "$\x7b regex(\"x)|(?:b\") \x7d$\n>>> say\n")]
    let u := endOf (runScripts link scripts) s
    let v := endOf (runScript link "all.btstest" (joined scripts)) s
    (∀ script ∈ scripts, EndsLine script.2) ∧
      ((tokens (joined scripts)).map (·.text) = scripts.flatMap fun script => (tokens script.2).map (·.text)) ∧
      resultOf (runScripts link scripts) s = .ok () ∧ u.sent = [("alice", "say"), ("alice", "say")] ∧
      v.crashed = true ∧ resultOf (runScript link "all.btstest" (joined scripts)) s ≠ .ok () ∧
      v.sent = [("alice", "say")] := by
  decide +kernel

end Conformance.Script
