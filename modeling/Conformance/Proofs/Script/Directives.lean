import Conformance.Proofs.Script.Faults
import Conformance.Proofs.Text.Rows

/-!
# Directives

A command line whose text begins with an exclamation mark is a directive, or a fault. A directive is written as two
words: one that names what is set, and one that says to what. Carrying one out sets that and nothing else, and any other
line ends the script with the session as it was (`execute_directive_iff`).
-/
namespace Conformance.Script

open Text

variable {σ : Type} {link : Link σ} {file : String} {l : CommandLine} {s s' u : Session σ}

/-! ## What a directive says -/

/-- What can be turned on and off. -/
inductive Switch where
  | expect
  | showMatch
  | showLineNumbers
  deriving DecidableEq, Repr, Inhabited

/-- The names that a switch has in a script. -/
def Switch.names : Switch → List String
  | .expect => ["!expect"]
  | .showMatch => ["!showmatch"]
  | .showLineNumbers => ["!showlinenumber", "!showlineno"]

/-- The word for a setting of a switch. -/
def settingWord (on : Bool) : String := if on then "enable" else "disable"

/-- A directive makes a client the active one, or turns a switch. -/
inductive Directive where
  | client (name : String)
  | turn (switch : Switch) (on : Bool)
  deriving DecidableEq, Repr, Inhabited

/-- The words that a directive is written with: its name and its argument. -/
def Directive.spellings : Directive → List (String × String)
  | .client name => [("!client", name)]
  | .turn switch on => switch.names.map (·, settingWord on)

/-- The directive is written in this text. -/
def Directive.WrittenIn (d : Directive) (text : String) : Prop :=
  ∃ words ∈ d.spellings, TwoWords text.toList words.1.toList words.2.toList

/-- The session in which what the directive says is set, and all else is as before. -/
def Directive.set : Directive → Session σ → Session σ
  | .client name, s => { s with active := some name }
  | .turn .expect on, s => { s with expectEnabled := on }
  | .turn .showMatch on, s => { s with showMatch := on }
  | .turn .showLineNumbers on, s => { s with showLineNumbers := on }

/-! ## How a directive is read -/

theorem switch?_eq_some_iff {word : String} {on : Bool} : switch? word = some on ↔ word = settingWord on := by
  constructor
  · intro h
    unfold switch? at h
    split at h
    · exact Option.some.inj h ▸ rfl
    · exact Option.some.inj h ▸ rfl
    · cases h
  · rintro rfl
    cases on <;> rfl

/-- Two words are a directive if they spell one. -/
theorem directive?_eq_some_iff {words : List String} :
    directive? words s = some u ↔ ∃ d : Directive, ∃ p ∈ d.spellings, words = [p.1, p.2] ∧ u = d.set s := by
  constructor
  · intro h
    -- all switches are read alike, whatever they are called
    have hturn : ∀ (switch : Switch) (name word : String), name ∈ switch.names →
        (switch? word).map (fun on => (Directive.turn switch on).set s) = some u →
          ∃ d : Directive, ∃ p ∈ d.spellings, [name, word] = [p.1, p.2] ∧ u = d.set s := by
      intro switch name word hname hword
      obtain ⟨on, hon, rfl⟩ := Option.map_eq_some_iff.1 hword
      obtain rfl := switch?_eq_some_iff.1 hon
      exact ⟨.turn switch on, (name, settingWord on), List.mem_map.2 ⟨name, hname, rfl⟩, rfl, rfl⟩
    unfold directive? at h
    split at h
    next name => exact ⟨.client name, ("!client", name), List.mem_singleton_self _, rfl, (Option.some.inj h).symm⟩
    next word => exact hturn .expect _ word (by decide) h
    next word => exact hturn .showMatch _ word (by decide) h
    next word => exact hturn .showLineNumbers _ word (by decide) h
    next word => exact hturn .showLineNumbers _ word (by decide) h
    next => cases h
  · rintro ⟨d, p, hp, rfl, rfl⟩
    cases d with
    | client name =>
      obtain rfl := List.mem_singleton.1 hp
      rfl
    | turn switch on =>
      obtain ⟨name, hname, rfl⟩ := List.mem_map.1 hp
      have hon : switch? (settingWord on) = some on := switch?_eq_some_iff.2 rfl
      cases switch with
      | expect =>
        obtain rfl := List.mem_singleton.1 hname
        simp only [directive?, hon, Option.map_some, Directive.set]
      | showMatch =>
        obtain rfl := List.mem_singleton.1 hname
        simp only [directive?, hon, Option.map_some, Directive.set]
      | showLineNumbers =>
        rcases List.mem_pair.1 hname with rfl | rfl
        · simp only [directive?, hon, Option.map_some, Directive.set]
        · simp only [directive?, hon, Option.map_some, Directive.set]

/-- The words of a trimmed text are two exactly if the text itself is made up of them. -/
theorem whiteWords_trimWhite_iff {text first second : String} :
    text.trimWhite.whiteWords = [first, second] ↔ TwoWords text.toList first.toList second.toList := by
  rw [← words_eq_pair_iff, whiteWords_eq_iff, String.trimWhite, String.toList_ofList, words_trim]
  rfl

/-- A command line is read as the directive that is written in it. -/
theorem directive?_line_iff {text : String} :
    directive? text.trimWhite.whiteWords s = some u ↔ ∃ d : Directive, d.WrittenIn text ∧ u = d.set s := by
  rw [directive?_eq_some_iff]
  constructor
  · rintro ⟨d, p, hp, hwords, rfl⟩
    exact ⟨d, ⟨p, hp, whiteWords_trimWhite_iff.1 hwords⟩, rfl⟩
  · rintro ⟨d, ⟨p, hp, htwo⟩, rfl⟩
    exact ⟨d, p, hp, whiteWords_trimWhite_iff.2 htwo, rfl⟩

/-- At most one directive is written in a text. -/
theorem Directive.WrittenIn.eq {d d' : Directive} {text : String} (h : d.WrittenIn text) (h' : d'.WrittenIn text) :
    d = d' := by
  obtain ⟨p, hp, hwords⟩ := h
  obtain ⟨q, hq, hwords'⟩ := h'
  have hpq := whiteWords_trimWhite_iff.2 hwords
  rw [whiteWords_trimWhite_iff.2 hwords'] at hpq
  obtain ⟨hfirst, hrest⟩ := List.cons.inj hpq
  obtain rfl : p = q := Prod.ext hfirst.symm (List.cons.inj hrest).1.symm
  cases d with
  | client name =>
    obtain rfl := List.mem_singleton.1 hp
    cases d' with
    | client name' => exact congrArg _ (Prod.mk.inj (List.mem_singleton.1 hq)).2
    | turn switch on => cases switch <;> simp [spellings, Switch.names] at hq
  | turn switch on =>
    cases d' with
    | client name =>
      obtain rfl := List.mem_singleton.1 hq
      cases switch <;> simp [spellings, Switch.names] at hp
    | turn switch' on' =>
      obtain ⟨name, hname, rfl⟩ := List.mem_map.1 hp
      obtain ⟨name', hname', heq⟩ := List.mem_map.1 hq
      obtain ⟨rfl, hword⟩ := Prod.mk.inj heq
      have hon : on' = on := Option.some.inj ((switch?_eq_some_iff.2 hword.symm).symm.trans (switch?_eq_some_iff.2 rfl))
      have hswitch : switch = switch' := by
        cases switch <;> cases switch' <;> simp_all [Switch.names]
      rw [hon, hswitch]

/-! ## How a directive is carried out -/

theorem run_execute_of_bang (h : l.text.trimWhite.toList.head? = some '!') :
    (execute link file l).run s =
      match directive? l.text.trimWhite.whiteWords s with
      | some u => .ok () u
      | none => .error (.unknownDirective file l.place.line l.place.column l.text.trimWhite) s := by
  rw [execute, if_pos h, EStateM.run_bind, EStateM.run_get]
  dsimp only
  cases directive? l.text.trimWhite.whiteWords s <;> rfl

theorem run_execute_eq_ok_iff (h : l.text.trimWhite.toList.head? = some '!') :
    (execute link file l).run s = .ok () s' ↔ ∃ d : Directive, d.WrittenIn l.text ∧ s' = d.set s := by
  rw [run_execute_of_bang h, ← directive?_line_iff]
  cases directive? l.text.trimWhite.whiteWords s <;> simp

theorem run_execute_eq_error_iff (h : l.text.trimWhite.toList.head? = some '!') {f : Fault} :
    (execute link file l).run s = .error f s' ↔
      (∀ d : Directive, ¬ d.WrittenIn l.text) ∧
        f = .unknownDirective file l.place.line l.place.column l.text.trimWhite ∧ s' = s := by
  have hnone : directive? l.text.trimWhite.whiteWords s = none ↔ ∀ d : Directive, ¬ d.WrittenIn l.text := by
    rw [Option.eq_none_iff_forall_ne_some]
    exact ⟨fun hno d hd => hno _ (directive?_line_iff.2 ⟨d, hd, rfl⟩),
      fun hno u hu => (directive?_line_iff.1 hu).elim fun d hd => hno d hd.1⟩
  rw [run_execute_of_bang h, ← hnone]
  cases directive? l.text.trimWhite.whiteWords s with
  | some u => simp
  | none => simp [eq_comm]

/-- A place where a directive is to be carried out, and none is written, is the last one of a run. -/
theorem faults_of_not_directive {v : Visit σ} (hline : v.line = some l) (hends : v.endsCommand = true)
    (h : l.text.trimWhite.toList.head? = some '!') (hno : ∀ d : Directive, ¬ d.WrittenIn l.text) :
    v.Faults link file (.unknownDirective file l.place.line l.place.column l.text.trimWhite) v.session := by
  have hfinish : (finish link file v.line).run v.session =
      .error (.unknownDirective file l.place.line l.place.column l.text.trimWhite) v.session := by
    rw [hline, finish]
    exact (run_execute_eq_error_iff h).2 ⟨hno, rfl, rfl⟩
  rw [Visit.Faults]
  cases hnext : v.next with
  | none =>
    change (conclude link file v.line).run v.session = _
    rw [conclude, EStateM.run_bind, hfinish]
  | some t =>
    rw [Visit.endsCommand, hnext, Option.all_some] at hends
    have hkind : t.kind = .newline ∨ t.kind = .whitespace := by
      rw [Token.endsCommand, Bool.and_eq_true, Bool.or_eq_true, decide_eq_true_eq, decide_eq_true_eq] at hends
      exact hends.1
    rw [endsCommand_of_blank hkind] at hends
    change (step link file v.line t).run v.session = _
    rw [step_of_blank link file hkind, if_pos hends, EStateM.run_bind, hfinish]

theorem Directive.set_same (d : Directive) (s : Session σ) :
    (d.set s).link = s.link ∧ (d.set s).sent = s.sent ∧ (d.set s).clients = s.clients ∧
      (d.set s).pending = s.pending := by
  cases d with
  | client name => exact ⟨rfl, rfl, rfl, rfl⟩
  | turn switch on => cases switch <;> exact ⟨rfl, rfl, rfl, rfl⟩

/-- A command line that begins with an exclamation mark is carried out exactly if a directive is written in it, and what
this one says is then all that has been set. Otherwise the fault holds the text of the line, and nothing has been set.
Whatever the connections are, they are not used, and neither are outputs replaced or left to be shown. In a script, the
fault ends the run where the line ends, and names the place of the marker that opened the line. -/
theorem execute_directive_iff (h : l.text.trimWhite.toList.head? = some '!') :
    (∀ s', (execute link file l).run s = .ok () s' ↔ ∃ d : Directive, d.WrittenIn l.text ∧ s' = d.set s) ∧
    (∀ d d' : Directive, d.WrittenIn l.text → d'.WrittenIn l.text → d = d') ∧
    (∀ f s', (execute link file l).run s = .error f s' ↔
      (∀ d : Directive, ¬ d.WrittenIn l.text) ∧
        f = .unknownDirective file l.place.line l.place.column l.text.trimWhite ∧ s' = s) ∧
    (∀ link' : Link σ, (execute link' file l).run s = (execute link file l).run s) ∧
    ((endOf (execute link file l) s).link = s.link ∧ (endOf (execute link file l) s).sent = s.sent ∧
      (endOf (execute link file l) s).clients = s.clients ∧ (endOf (execute link file l) s).pending = s.pending) ∧
    ∀ src s₀ (v : Visit σ), v ∈ scriptVisits link file src s₀ → v.line = some l → v.endsCommand = true →
      (∀ d : Directive, ¬ d.WrittenIn l.text) →
        ∃ front, scriptVisits link file src s₀ = front ++ [v] ∧ OpenedIn front l ∧
          (runScript link file src).run s₀ =
            .error (.unknownDirective file l.place.line l.place.column l.text.trimWhite) v.session := by
  refine ⟨fun s' => run_execute_eq_ok_iff h, fun _ _ => Directive.WrittenIn.eq, fun f s' => run_execute_eq_error_iff h,
    fun link' => by rw [run_execute_of_bang h, run_execute_of_bang h], ?_, ?_⟩
  · cases hrun : (execute link file l).run s with
    | ok a u =>
      obtain ⟨d, -, rfl⟩ := (run_execute_eq_ok_iff h).1 hrun
      rw [endOf_of_ok hrun]
      exact d.set_same s
    | error f u =>
      obtain ⟨-, -, rfl⟩ := (run_execute_eq_error_iff h).1 hrun
      rw [endOf_of_error hrun]
      exact ⟨rfl, rfl, rfl, rfl⟩
  · intro src s₀ v hv hline hends hno
    obtain ⟨hlast, hrun⟩ := visits_faults link file hv (faults_of_not_directive hline hends h hno)
    obtain ⟨front, hvisits⟩ := List.getLast?_eq_some_iff.1 hlast
    refine ⟨front, hvisits, ?_, by rw [runScript_eq]; exact hrun⟩
    obtain ⟨l₀, hnone, -⟩ | hopened := opened_or hvisits hline
    · cases hnone
    · exact hopened

/-- A directive between blanks is carried out, and with a word too many it ends the script, at the place of its
marker. -/
theorem execute_directive_iff_switch :
    let link : Link Unit := ⟨fun _ _ state => (.ok "", state)⟩
    let s : Session Unit := { link := () }
    let l : CommandLine := ⟨" !showlineno\tenable ", ⟨1, 1⟩⟩
    let l' : CommandLine := ⟨" !showlineno enable now", ⟨2, 1⟩⟩
    let src := ">>> !expect disable\n>>> !showlineno enable now\n"
    let f : Fault := .unknownDirective "a" 2 1 "!showlineno enable now"
    l.text.trimWhite.toList.head? = some '!' ∧ l'.text.trimWhite.toList.head? = some '!' ∧
      (execute link "a" l).run s = .ok () { s with showLineNumbers := true } ∧
      (execute link "a" l').run s = .error f s ∧ (∀ d : Directive, ¬ d.WrittenIn l'.text) ∧
      resultOf (runScript link "a" src) s = .error f := by
  intro link s l l' src f
  have hbang : l.text.trimWhite.toList.head? = some '!' := by decide +kernel
  have hbang' : l'.text.trimWhite.toList.head? = some '!' := by decide +kernel
  have hwords : l.text.trimWhite.whiteWords = ["!showlineno", "enable"] := by decide +kernel
  have hfault : resultOf (execute link "a" l') s = .error f := by decide +kernel
  have hwritten : (Directive.turn .showLineNumbers true).WrittenIn l.text :=
    ⟨("!showlineno", "enable"), by decide, whiteWords_trimWhite_iff.1 hwords⟩
  obtain ⟨hok, -⟩ := @execute_directive_iff Unit link "a" l s hbang
  obtain ⟨-, -, herror, -⟩ := @execute_directive_iff Unit link "a" l' s hbang'
  obtain ⟨hno, hf, -⟩ := (herror f _).1 (run_eq_of_resultOf_error hfault)
  have hscript : resultOf (runScript link "a" src) s = .error f := by decide +kernel
  exact ⟨hbang, hbang', (hok _).2 ⟨_, hwritten, rfl⟩, (herror f s).2 ⟨hno, hf, rfl⟩, hno, hscript⟩

end Conformance.Script
