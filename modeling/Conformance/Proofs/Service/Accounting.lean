import Conformance.Proofs.Json.Parts
import Conformance.Proofs.Service.Codec
import Conformance.Proofs.Text.Rows

/-!
# What a stand-in answers, and what it counts

A stand-in answers each request under its number, and the status of the answer says what became of it. Wrong credentials
are turned down, a request that cannot be carried out is refused (`Request.Refused` lists the ways), and all others have a
result (`StandIn.Accounts`). Whatever has come in before, a stand-in that is asked for its status tells how many command
lines it was given by those it knows, refused ones among them (`StandIn.requests_accounted`).
-/
namespace Conformance.Service

open Json Text

variable {s : StandIn} {credentials : Option String} {r : Request} {n : UInt64} {line : String}

/-! ## Credentials -/

/-- The credentials are the name and the password that the stand-in was launched with. A name ends at the first colon,
so nobody gives one with a colon in it. -/
def StandIn.Knows (s : StandIn) (credentials : Option String) : Prop :=
  ':' ∉ s.username.toList ∧ credentials = some (s.username ++ ":" ++ s.password)

theorem StandIn.admits_iff : s.admits credentials = true ↔ s.Knows credentials := by
  have hbreak : s.admits credentials = true ↔
      (credentials.bind fun c => breakAt? (· = ':') c.toList) = some (s.username.toList, s.password.toList) := by
    rw [StandIn.admits]
    cases credentials.bind fun c => breakAt? (· = ':') c.toList with
    | none => simp
    | some parts => simp [Prod.ext_iff, String.ext_iff]
  rw [hbreak, Option.bind_eq_some_iff, StandIn.Knows]
  constructor
  · rintro ⟨c, rfl, hparts⟩
    obtain ⟨colon, hc, hcolon, hname⟩ := breakAt?_eq_some_iff.1 hparts
    obtain rfl := of_decide_eq_true hcolon
    refine ⟨fun hmem => of_decide_eq_false (hname ':' hmem) rfl, congrArg some (String.ext ?_)⟩
    simp [hc]
  · rintro ⟨hname, rfl⟩
    refine ⟨_, rfl, breakAt?_eq_some_iff.2 ⟨':', by simp, rfl, fun d hd => decide_eq_false ?_⟩⟩
    rintro rfl
    exact hname hd

instance : Decidable (s.Knows credentials) := decidable_of_iff _ StandIn.admits_iff

/-! ## Command lines -/

/-- The commands of a stand-in. -/
def commandNames : List String := ["about", "balance", "echo", "get_info", "help", "sleep"]

/-- The text says a number of seconds: decimal digits, perhaps behind a plus sign, of a number that 64 bits can hold. -/
def SaysSeconds (text : String) (seconds : Nat) : Prop :=
  seconds < wordBound ∧ ∃ (plus : Bool) (ds : List Char), text.toList = (if plus then ['+'] else []) ++ ds ∧
    ds ≠ [] ∧ (∀ c ∈ ds, c.isDigit = true) ∧ Nat.ofDigitChars 10 ds 0 = seconds

theorem saysSeconds_iff {text : String} {seconds : Nat} :
    SaysSeconds text seconds ↔ readBelow? 10 wordBound text.toList = some seconds := by
  simp only [SaysSeconds, readBelow?_eq_some_iff, natIn?_ten_eq_some_iff]

/-- What says a number of seconds is one word. -/
theorem SaysSeconds.solid {text : String} {seconds : Nat} (h : SaysSeconds text seconds) :
    text.toList ≠ [] ∧ ∀ c ∈ text.toList, isWhite c = false := by
  obtain ⟨-, plus, ds, htext, hne, hdigits, -⟩ := h
  have hwhite : ∀ c ∈ ds, isWhite c = false := fun c hc => isWhite_of_isDigit (hdigits c hc)
  rw [htext]
  refine ⟨List.append_ne_nil_of_right_ne_nil _ hne, List.forall_mem_append.2 ⟨?_, hwhite⟩⟩
  cases plus with
  | true => exact List.forall_mem_singleton.2 (by decide)
  | false => exact fun c hc => absurd hc List.not_mem_nil

/-- The command of a line is its first word, and the other words are those of the rest. -/
theorem StandIn.commandWords_cases (line : String) :
    (words line.toList = [] ∧ commandWords line = ("", "")) ∨
      ∃ command after, command ≠ [] ∧ words line.toList = command :: words after ∧
        commandWords line = (String.ofList command, String.ofList (trim after)) := by
  unfold commandWords
  rw [← words_trim]
  dsimp only
  have hhead : ∀ c, (trim line.toList).head? = some c → isWhite c = false := fun c => head?_trim
  generalize trim line.toList = cs at hhead
  cases hbreak : breakAt? isWhite cs with
  | some parts =>
    obtain ⟨command, after⟩ := parts
    obtain ⟨blank, rfl, hblank, hcommand⟩ := breakAt?_eq_some_iff.1 hbreak
    have hne : command ≠ [] := by
      rintro rfl
      rw [hhead blank rfl] at hblank
      cases hblank
    have hwords : words (command ++ blank :: after) = command :: words (blank :: after) :=
      runs_word_append hne hcommand fun c hc => Option.some.inj hc ▸ hblank
    rw [words, words, runs_cons_of_sep hblank] at hwords
    exact .inr ⟨command, after, hne, hwords, rfl⟩
  | none =>
    have hsolid : ∀ c ∈ cs, isWhite c = false := breakAt?_eq_none_iff.1 hbreak
    by_cases hne : cs = []
    · rw [hne]
      exact .inl ⟨rfl, rfl⟩
    · exact .inr ⟨cs, [], hne, words_eq_singleton_iff.2 ⟨trim_eq_self hsolid, hne, hsolid⟩, rfl⟩

theorem head?_whiteWords_iff {name : String} (hname : name ≠ "") :
    line.whiteWords.head? = some name ↔ (StandIn.commandWords line).1 = name := by
  rw [String.whiteWords]
  obtain ⟨hwords, hline⟩ | ⟨command, after, -, hwords, hline⟩ := StandIn.commandWords_cases line
  · rw [hwords, hline]
    exact iff_of_false (fun h => by cases h) hname.symm
  · rw [hwords, hline, List.map_cons, List.head?_cons, Option.some_inj]

theorem whiteWords_eq_pair_iff {name text : String} (hname : name ≠ "") (hne : text.toList ≠ [])
    (hsolid : ∀ c ∈ text.toList, isWhite c = false) :
    line.whiteWords = [name, text] ↔ StandIn.commandWords line = (name, text) := by
  rw [whiteWords_eq_iff, List.map_cons, List.map_singleton]
  obtain ⟨hwords, hline⟩ | ⟨command, after, -, hwords, hline⟩ := StandIn.commandWords_cases line
  · rw [hwords, hline]
    exact iff_of_false (fun h => by cases h) fun h => hname (Prod.mk.inj h).1.symm
  · have hrest : words after = [text.toList] ↔ trim after = text.toList := by
      rw [words_eq_singleton_iff, and_iff_left ⟨hne, hsolid⟩]
    rw [hwords, hline, List.cons.injEq, hrest, Prod.mk.injEq, String.ext_iff, String.ext_iff, String.toList_ofList,
      String.toList_ofList]

/-- The command of the line is none that a stand-in has. -/
def UnknownCommand (line : String) : Prop := ∀ name ∈ commandNames, line.whiteWords.head? ≠ some name

/-- The line is to let time pass, but what follows is no number of seconds. -/
def SleepsForNoTime (line : String) : Prop :=
  line.whiteWords.head? = some "sleep" ∧ ∀ text seconds, line.whiteWords = ["sleep", text] → ¬ SaysSeconds text seconds

theorem unknownCommand_iff : UnknownCommand line ↔ (StandIn.commandWords line).1 ∉ commandNames := by
  have hnames : ∀ name ∈ commandNames, line.whiteWords.head? = some name ↔ (StandIn.commandWords line).1 = name := by
    intro name hname
    apply head?_whiteWords_iff
    rintro rfl
    exact absurd hname (by decide)
  constructor
  · intro h hmem
    exact h _ hmem ((hnames _ hmem).2 rfl)
  · intro h name hmem hhead
    exact h ((hnames name hmem).1 hhead ▸ hmem)

theorem sleepsForNoTime_iff :
    SleepsForNoTime line ↔ (StandIn.commandWords line).1 = "sleep" ∧
      readBelow? 10 wordBound (StandIn.commandWords line).2.toList = none := by
  rw [SleepsForNoTime, head?_whiteWords_iff (by decide)]
  refine and_congr_right fun hsleep => ⟨fun h => ?_, fun h text seconds hwords hsays => ?_⟩
  · refine Option.eq_none_iff_forall_ne_some.2 fun seconds hseconds => ?_
    have hsays := saysSeconds_iff.2 hseconds
    have hwords := (whiteWords_eq_pair_iff (by decide) hsays.solid.1 hsays.solid.2).2 (Prod.ext hsleep rfl)
    exact h _ seconds hwords hsays
  · rw [(whiteWords_eq_pair_iff (by decide) hsays.solid.1 hsays.solid.2).1 hwords, saysSeconds_iff.1 hsays] at h
    cases h

/-- A command line comes to an error if its command is unknown, or has no number of seconds to sleep. -/
theorem StandIn.execute_eq_error_iff :
    (∃ e, s.execute n line = .error e) ↔ UnknownCommand line ∨ SleepsForNoTime line := by
  rw [unknownCommand_iff, sleepsForNoTime_iff]
  unfold execute
  generalize commandWords line = parts
  obtain ⟨command, rest⟩ := parts
  dsimp only
  split
  case h_6 =>
    cases readBelow? 10 wordBound rest.toList with
    | some seconds => simp [commandNames]
    | none => simp
  case h_7 hinfo hecho habout hhelp hbalance hsleep =>
    have hother : command ∉ commandNames := by
      simpa [commandNames] using ⟨habout, hbalance, hecho, hinfo, hhelp, hsleep⟩
    simp [hother]
  all_goals simp [commandNames]

/-- The command for the status shows it. -/
theorem StandIn.execute_info (h : line.whiteWords.head? = some "get_info") :
    s.execute n line = .ok (s.info n, 0) := by
  have hcommand := (head?_whiteWords_iff (by decide)).1 h
  unfold execute
  generalize commandWords line = parts at hcommand
  obtain ⟨command, rest⟩ := parts
  obtain rfl : command = "get_info" := hcommand
  rfl

/-! ## What cannot be carried out -/

/-- The request asks for this command line. -/
def Request.Asks (r : Request) (line : String) : Prop :=
  r.method = executeMethod ∧ r.params.head? = some (.str line)

/-- The ways in which a request cannot be carried out. -/
inductive Request.Refused (r : Request) : Prop where
  /-- There is no such method. -/
  | method (hstatus : r.method ≠ statusMethod) (hexecute : r.method ≠ executeMethod)
  /-- The command line is missing: the first parameter is no string. -/
  | params (hexecute : r.method = executeMethod) (hparams : ∀ line, r.params.head? ≠ some (.str line))
  /-- There is no such command. -/
  | command (line : String) (hline : r.Asks line) (hunknown : UnknownCommand line)
  /-- The time to sleep is no number of seconds. -/
  | duration (line : String) (hline : r.Asks line) (hsleep : SleepsForNoTime line)

theorem StandIn.commandLine?_eq_some_iff : commandLine? r = some line ↔ r.params.head? = some (.str line) := by
  rw [commandLine?, Option.bind_eq_some_iff]
  constructor
  · rintro ⟨v, hv, hline⟩
    cases v with
    | str text => rw [hv, ← Option.some.inj hline]
    | _ => cases hline
  · intro h
    exact ⟨_, h, rfl⟩

theorem Request.Asks.method_ne (h : r.Asks line) : r.method ≠ statusMethod := by
  rw [h.1]
  decide

theorem Request.not_refused_of_status (h : r.method = statusMethod) : ¬ r.Refused := by
  intro hrefused
  cases hrefused with
  | method hstatus _ => exact hstatus h
  | params hexecute _ => exact absurd (h.symm.trans hexecute) (by decide)
  | command line hline _ => exact hline.method_ne h
  | duration line hline _ => exact hline.method_ne h

theorem Request.refused_iff_of_asks (h : r.Asks line) : r.Refused ↔ UnknownCommand line ∨ SleepsForNoTime line := by
  have honly : ∀ other, r.Asks other → other = line := fun other hother =>
    Json.str.inj (Option.some.inj (hother.2.symm.trans h.2))
  constructor
  · intro hrefused
    cases hrefused with
    | method _ hexecute => exact absurd h.1 hexecute
    | params _ hparams => exact absurd h.2 (hparams line)
    | command other hother hunknown => exact .inl (honly other hother ▸ hunknown)
    | duration other hother hsleep => exact .inr (honly other hother ▸ hsleep)
  · rintro (hunknown | hsleep)
    · exact .command line h hunknown
    · exact .duration line h hsleep

theorem Request.not_refused_of_info (h : r.Asks line) (hinfo : line.whiteWords.head? = some "get_info") :
    ¬ r.Refused := by
  rw [refused_iff_of_asks h]
  rintro (hunknown | ⟨hsleep, -⟩)
  · exact hunknown "get_info" (by decide) hinfo
  · exact absurd (hinfo.symm.trans hsleep) (by decide)

/-! ## How a request is carried out -/

theorem StandIn.perform_of_status (h : r.method = statusMethod) : s.perform r n = (.ok (s.info n, 0), n) := by
  rw [perform, if_pos h]

/-- A command line is counted first and then carried out. -/
theorem StandIn.perform_of_asks (h : r.Asks line) : s.perform r n = (s.execute (n + 1) line, n + 1) := by
  rw [perform, if_neg h.method_ne, if_pos h.1, commandLine?_eq_some_iff.2 h.2]

/-- Whatever else is asked for is refused, and not counted. -/
theorem StandIn.perform_of_not_asks (hstatus : r.method ≠ statusMethod) (h : ∀ line, ¬ r.Asks line) :
    r.Refused ∧ ∃ e, s.perform r n = (.error e, n) := by
  by_cases hexecute : r.method = executeMethod
  · have hparams : ∀ line, r.params.head? ≠ some (.str line) := fun line hline => h line ⟨hexecute, hline⟩
    have hnone : commandLine? r = none :=
      Option.eq_none_iff_forall_ne_some.2 fun line hline => hparams line (commandLine?_eq_some_iff.1 hline)
    rw [perform, if_neg hstatus, if_pos hexecute, hnone]
    exact ⟨.params hexecute hparams, _, rfl⟩
  · rw [perform, if_neg hstatus, if_neg hexecute]
    exact ⟨.method hstatus hexecute, _, rfl⟩

/-- A request comes to an error exactly in one of the ways in which it cannot be carried out. -/
theorem StandIn.perform_eq_error_iff : (∃ e, (s.perform r n).1 = .error e) ↔ r.Refused := by
  by_cases hstatus : r.method = statusMethod
  · rw [perform_of_status hstatus]
    refine iff_of_false ?_ (Request.not_refused_of_status hstatus)
    rintro ⟨e, he⟩
    cases he
  by_cases hasks : ∃ line, r.Asks line
  · obtain ⟨line, hline⟩ := hasks
    rw [perform_of_asks hline, Request.refused_iff_of_asks hline, execute_eq_error_iff]
  · obtain ⟨hrefused, e, he⟩ := perform_of_not_asks (s := s) (n := n) hstatus (not_exists.1 hasks)
    exact iff_of_true ⟨e, congrArg Prod.fst he⟩ hrefused

theorem StandIn.perform_snd_of_not_asks (h : ∀ line, ¬ r.Asks line) : (s.perform r n).2 = n := by
  by_cases hstatus : r.method = statusMethod
  · rw [perform_of_status hstatus]
  · obtain ⟨-, e, he⟩ := perform_of_not_asks (s := s) (n := n) hstatus h
    rw [he]

/-! ## Replies -/

theorem StandIn.reply_of_unknown (h : ¬ s.Knows credentials) :
    s.reply credentials r n =
      ({ status := 401, response := some (.failure r.id unauthorizedCode "unauthorized") }, n) := by
  rw [reply, Bool.eq_false_iff.2 (mt admits_iff.1 h)]
  rfl

theorem StandIn.reply_of_error (h : s.Knows credentials) {e : Int64 × String} {after : UInt64}
    (hperform : s.perform r n = (.error e, after)) :
    s.reply credentials r n = ({ status := 500, response := some (.failure r.id e.1 e.2) }, after) := by
  rw [reply, admits_iff.2 h, hperform]
  rfl

theorem StandIn.reply_of_ok (h : s.Knows credentials) {out : Json × Nat} {after : UInt64}
    (hperform : s.perform r n = (.ok out, after)) :
    s.reply credentials r n = ({ status := 200, response := some (.success r.id out.1), delay := out.2 }, after) := by
  rw [reply, admits_iff.2 h, hperform]
  rfl

theorem StandIn.reply_snd (h : s.Knows credentials) : (s.reply credentials r n).2 = (s.perform r n).2 := by
  cases hperform : s.perform r n with
  | mk result after =>
    cases result with
    | error e => rw [reply_of_error h hperform]
    | ok out => rw [reply_of_ok h hperform]

/-- The result tells this number of command lines, in a word of 64 bits: the number itself, as long as 64 bits can hold
it. -/
def Response.Tells (reply : Response) (number : Nat) : Prop :=
  ∃ v, reply.result = some v ∧ ∃ shown : UInt64, v.member? "commands_run" = some (.ofNat shown.toNat) ∧
    shown = .ofNat number ∧ (number < UInt64.size → shown.toNat = number)

theorem StandIn.member?_info (s : StandIn) (n : UInt64) :
    (s.info n).member? "commands_run" = some (.ofNat n.toNat) :=
  lookup_insertMember_self "commands_run" (.ofNat n.toNat) _

/-- What a stand-in sends back to a request that comes with these credentials, when it has counted so many command lines
before: the reply repeats the number of the request, the status says what became of it, and where the status of the
stand-in is asked for, by the method or by the command, the reply tells how many lines have been counted. -/
structure StandIn.Accounts (s : StandIn) (credentials : Option String) (r : Request) (before : Nat) (o : Outgoing)
    (reply : Response) : Prop where
  sent : o.response = some reply
  echoes : reply.echoes r.id = true
  unknown_iff : o.status = 401 ↔ ¬ s.Knows credentials
  refused_iff : o.status = 500 ↔ s.Knows credentials ∧ r.Refused
  performed_iff : o.status = 200 ↔ s.Knows credentials ∧ ¬ r.Refused
  error : o.status = 401 ∨ o.status = 500 → reply.error.isSome = true ∧ reply.result = none
  result : o.status = 200 → reply.result.isSome = true ∧ reply.error = none
  told : s.Knows credentials → r.method = statusMethod → reply.Tells before
  told_line : s.Knows credentials → ∀ line, r.Asks line → line.whiteWords.head? = some "get_info" →
    reply.Tells (before + 1)

theorem StandIn.accounts_of_unknown (hknown : ¬ s.Knows credentials) (before : Nat) :
    s.Accounts credentials r before (s.reply credentials r (.ofNat before)).1
      (.failure r.id unauthorizedCode "unauthorized") := by
  rw [reply_of_unknown hknown]
  exact {
    sent := rfl
    echoes := Response.echoes_success r.id .null
    unknown_iff := iff_of_true rfl hknown
    refused_iff := iff_of_false (by simp) fun h => hknown h.1
    performed_iff := iff_of_false (by simp) fun h => hknown h.1
    error := fun _ => ⟨rfl, rfl⟩
    result := fun h => absurd h (by simp)
    told := fun h => absurd h hknown
    told_line := fun h => absurd h hknown }

theorem StandIn.accounts_of_error (hknown : s.Knows credentials) {before : Nat} {e : Int64 × String} {after : UInt64}
    (hperform : s.perform r (.ofNat before) = (.error e, after)) :
    s.Accounts credentials r before (s.reply credentials r (.ofNat before)).1 (.failure r.id e.1 e.2) := by
  have hrefused : r.Refused := perform_eq_error_iff.1 ⟨e, congrArg Prod.fst hperform⟩
  rw [reply_of_error hknown hperform]
  exact {
    sent := rfl
    echoes := Response.echoes_success r.id .null
    unknown_iff := iff_of_false (by simp) fun h => h hknown
    refused_iff := iff_of_true rfl ⟨hknown, hrefused⟩
    performed_iff := iff_of_false (by simp) fun h => h.2 hrefused
    error := fun _ => ⟨rfl, rfl⟩
    result := fun h => absurd h (by simp)
    told := fun _ hstatus => absurd hrefused (Request.not_refused_of_status hstatus)
    told_line := fun _ line hline hinfo => absurd hrefused (Request.not_refused_of_info hline hinfo) }

theorem StandIn.accounts_of_ok (hknown : s.Knows credentials) {before : Nat} {out : Json × Nat} {after : UInt64}
    (hperform : s.perform r (.ofNat before) = (.ok out, after)) :
    s.Accounts credentials r before (s.reply credentials r (.ofNat before)).1 (.success r.id out.1) := by
  have hrefused : ¬ r.Refused := by
    intro h
    obtain ⟨e, he⟩ := perform_eq_error_iff.2 h
    rw [hperform] at he
    cases he
  -- a status that is shown is the result
  have htells : ∀ number, (s.perform r (.ofNat before)).1 = .ok (s.info (.ofNat number), 0) →
      (Response.success r.id out.1).Tells number := by
    intro number hinfo
    rw [hperform] at hinfo
    rw [Except.ok.inj hinfo]
    exact ⟨_, rfl, _, s.member?_info _, rfl, UInt64.toNat_ofNat_of_lt⟩
  rw [reply_of_ok hknown hperform]
  exact {
    sent := rfl
    echoes := Response.echoes_success r.id out.1
    unknown_iff := iff_of_false (by simp) fun h => h hknown
    refused_iff := iff_of_false (by simp) fun h => hrefused h.2
    performed_iff := iff_of_true rfl ⟨hknown, hrefused⟩
    error := fun h => absurd h (by simp)
    result := fun _ => ⟨rfl, rfl⟩
    told := fun _ hstatus => htells before (congrArg Prod.fst (perform_of_status hstatus))
    told_line := fun _ line hline hinfo => htells (before + 1) (by
      rw [perform_of_asks hline, execute_info hinfo, UInt64.ofNat_add]
      rfl) }

/-- Every request has a reply that accounts for it. -/
theorem StandIn.exists_accounts (s : StandIn) (credentials : Option String) (r : Request) (before : Nat) :
    ∃ reply, s.Accounts credentials r before (s.reply credentials r (.ofNat before)).1 reply := by
  by_cases hknown : s.Knows credentials
  · cases hperform : s.perform r (.ofNat before) with
    | mk result after =>
      cases result with
      | error e => exact ⟨_, accounts_of_error hknown hperform⟩
      | ok out => exact ⟨_, accounts_of_ok hknown hperform⟩
  · exact ⟨_, accounts_of_unknown hknown before⟩

/-! ## Histories -/

/-- The message gives a command line, with the credentials that the stand-in knows. -/
def StandIn.Counts (s : StandIn) (i : Incoming) : Prop :=
  s.Knows i.credentials ∧ ∃ r line, requestOf i = .ok r ∧ r.Asks line

theorem StandIn.counts_iff {i : Incoming} :
    s.Counts i ↔ (s.admits i.credentials && (requestOf i).toOption.any fun r =>
      decide (r.method = executeMethod) && (commandLine? r).isSome) = true := by
  have hasks : ∀ r : Request, (decide (r.method = executeMethod) && (commandLine? r).isSome) = true ↔
      ∃ line, r.Asks line := by
    intro r
    simp only [Bool.and_eq_true, decide_eq_true_eq, Option.isSome_iff_exists, commandLine?_eq_some_iff, Request.Asks,
      exists_and_left]
  rw [StandIn.Counts, Bool.and_eq_true, admits_iff]
  cases requestOf i with
  | error status => simp [Except.toOption]
  | ok r => simp [Except.toOption, ← hasks]

instance : DecidablePred s.Counts := fun _ => decidable_of_iff _ StandIn.counts_iff.symm

/-- How many of the messages are counted. -/
def StandIn.counted (s : StandIn) (messages : List Incoming) : Nat := messages.countP (s.Counts ·)

/-- A message that gives a command line is counted, and nothing else is. -/
theorem StandIn.answer_snd (s : StandIn) (i : Incoming) (n : UInt64) :
    (s.answer i n).2 = if s.Counts i then n + 1 else n := by
  cases hr : requestOf i with
  | error status =>
    have hnot : ¬ s.Counts i := by
      rintro ⟨-, r, line, hok, -⟩
      rw [hr] at hok
      cases hok
    rw [answer, hr, if_neg hnot]
  | ok r =>
    have hcounts : s.Counts i ↔ s.Knows i.credentials ∧ ∃ line, r.Asks line := by
      simp [StandIn.Counts, hr]
    rw [answer, hr]
    dsimp only
    by_cases hknown : s.Knows i.credentials
    · rw [reply_snd hknown]
      by_cases hasks : ∃ line, r.Asks line
      · obtain ⟨line, hline⟩ := hasks
        rw [perform_of_asks hline, if_pos (hcounts.2 ⟨hknown, line, hline⟩)]
      · rw [perform_snd_of_not_asks (not_exists.1 hasks), if_neg fun h => hasks (hcounts.1 h).2]
    · rw [reply_of_unknown hknown, if_neg fun h => hknown (hcounts.1 h).1]

/-- Each message is answered with the counter where the messages in front of it have left it: one further for each that is
counted. -/
theorem StandIn.getElem?_answers (s : StandIn) (n : UInt64) (messages : List Incoming) (k : Nat) :
    (s.answers n messages)[k]? =
      messages[k]?.map fun i => (s.answer i (n + .ofNat (s.counted (messages.take k)))).1 := by
  induction messages generalizing n k with
  | nil => simp [answers]
  | cons i rest ih =>
    cases k with
    | zero =>
      have hzero : n + UInt64.ofNat 0 = n := UInt64.add_zero n
      rw [answers, List.take_zero, counted, List.countP_nil, hzero]
      rfl
    | succ k =>
      have hcounter : (s.answer i n).2 + .ofNat (s.counted (rest.take k)) =
          n + .ofNat (s.counted (i :: rest.take k)) := by
        by_cases hcounts : s.Counts i
        · have hmore : s.counted (i :: rest.take k) = s.counted (rest.take k) + 1 :=
            List.countP_cons_of_pos (decide_eq_true hcounts)
          rw [answer_snd, if_pos hcounts, hmore, Nat.add_comm, UInt64.ofNat_add, ← UInt64.add_assoc]
          rfl
        · have hsame : s.counted (i :: rest.take k) = s.counted (rest.take k) :=
            List.countP_cons_of_neg (mt of_decide_eq_true hcounts)
          rw [answer_snd, if_neg hcounts, hsame]
      rw [answers, List.getElem?_cons_succ, List.getElem?_cons_succ, ih, List.take_succ_cons, hcounter]

theorem StandIn.length_answers (s : StandIn) (n : UInt64) (messages : List Incoming) :
    (s.answers n messages).length = messages.length := by
  induction messages generalizing n with
  | nil => rfl
  | cons i rest ih => rw [answers, List.length_cons, List.length_cons, ih]

/-- Whatever messages come in, one after the other, each has an answer, and each that brings a request has a reply that
accounts for it: it repeats the number of the request, has status 401 if the credentials are not the right ones, status
500 if the request cannot be carried out, and a result with status 200 otherwise. A status of the stand-in that is asked
for tells how many messages have given a command line with the right credentials so far, whatever became of them. -/
theorem StandIn.requests_accounted (s : StandIn) (messages : List Incoming) :
    (s.answers 0 messages).length = messages.length ∧
      ∀ k i r, messages[k]? = some i → requestOf i = .ok r → ∃ o reply, (s.answers 0 messages)[k]? = some o ∧
        s.Accounts i.credentials r (s.counted (messages.take k)) o reply := by
  refine ⟨s.length_answers 0 messages, ?_⟩
  intro k i r hi hr
  obtain ⟨reply, hreply⟩ := s.exists_accounts i.credentials r (s.counted (messages.take k))
  refine ⟨_, reply, ?_, hreply⟩
  rw [s.getElem?_answers, hi, Option.map_some, UInt64.zero_add, answer, hr]

/-- A command line from nobody is not counted and one that is refused is, so the status tells of one. -/
theorem StandIn.requests_accounted_refused_line :
    let s : StandIn := { username := "alice", password := "secret", rpcPort := 8090 }
    let r : Request := .new statusMethod [] 3
    let i : Incoming := { credentials := some "alice:secret", body := r.text }
    let messages : List Incoming :=
      [{ body := (Request.new executeMethod [.str "help"] 1).text },
        { credentials := some "alice:secret", body := (Request.new executeMethod [.str "nope"] 2).text }, i]
    messages[2]? = some i ∧ requestOf i = .ok r ∧
      ∃ (o : Outgoing) (reply : Response), (s.answers 0 messages)[2]? = some o ∧ o.status = 200 ∧
        reply.echoes 3 = true ∧ reply.Tells 1 := by
  intro s r i messages
  have hi : messages[2]? = some i := rfl
  have hbrings : i.Brings r := ⟨rfl, rfl, by decide +kernel, by decide +kernel, rfl⟩
  have hr : requestOf i = .ok r := hbrings.requestOf fun _ hv => absurd hv List.not_mem_nil
  obtain ⟨o, reply, ho, haccounts⟩ := (s.requests_accounted messages).2 2 i r hi hr
  have hknown : s.Knows i.credentials := by decide +kernel
  have hcounted : s.counted (messages.take 2) = 1 := by decide +kernel
  have hstatus := haccounts.performed_iff.2 ⟨hknown, Request.not_refused_of_status rfl⟩
  have htold := haccounts.told hknown rfl
  rw [hcounted] at htold
  exact ⟨hi, hr, o, reply, ho, hstatus, haccounts.echoes, htold⟩

end Conformance.Service
