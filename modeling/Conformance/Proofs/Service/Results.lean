import Conformance.Proofs.Json.Outline
import Conformance.Proofs.Json.Printing
import Conformance.Proofs.Service.Attempts

/-!
# From the result in a reply to the output of a command

The output of a command is made from the result in the reply to it. Nothing of the result is lost on the way
(`execute_keeps_result`): the output is read as the value that the reply spells, and each number without an exponent
stands in it as it stands in the reply.
-/
namespace Conformance.Service

open Json

/-- The depth to which a result may be nested: the reply around it counts as well. -/
def resultDepth : Nat := maxDepth - 1

/-- The body is that of a reply to the request of this number, and carries the value as its result. What else the reply
says does not matter. -/
def CarriesResult (id : UInt64) (body : String) (v : Json) : Prop :=
  ∃ members, SpellsObject resultDepth body.toList members ∧
    (∀ name ∈ ["result", "error", "id"], (members.filter (·.1 = name)).length ≤ 1) ∧
    members.lookup "result" = some v ∧
    (members.lookup "error" = none ∨ members.lookup "error" = some .null) ∧
    ∃ w, members.lookup "id" = some w ∧ w.kept.word? = some id.toNat

/-- What the output of a command is to the result that a reply spells. -/
inductive OutputOf : Json → String → Prop
  | text (s : String) : OutputOf (.str s) s
  | nothing : OutputOf .null ""
  /-- Another value is put out as JSON, which spells the same value and has the same numbers in the same order. -/
  | value {v : Json} {text : String} (hstr : ∀ s, v ≠ .str s) (hnull : v ≠ .null)
      (hread : Json.read? text = some v.kept) (hspells : Spells resultDepth text.toList v.kept)
      (hnumbers : v.kept.numbers = v.numbers.map keptNumber)
      (hexact : ∀ n ∈ v.numbers, 'e' ∉ n.toList → 'E' ∉ n.toList → keptNumber n = n ∧ n.toList <:+: text.toList) :
      OutputOf v text

/-! ## The output -/

theorem keptNumber_of_no_exponent {cs : List Char} {n : String} (h : NumberIn cs n) (he : 'e' ∉ n.toList)
    (hE : 'E' ∉ n.toList) : keptNumber n = n := by
  obtain ⟨m, rfl, -⟩ := h
  rw [String.toList_ofList] at he hE
  rw [keptNumber_text, Numeral.text_kept (Numeral.exponent_eq_none he hE)]

theorem outputOf_indented {cs : List Char} {v : Json} (h : Spells resultDepth cs v) (hstr : ∀ s, v ≠ .str s)
    (hnull : v ≠ .null) : OutputOf v v.kept.indented := by
  refine .value hstr hnull h.deeper.read?_indented h.indented (numbers_kept v) fun n hn he hE => ?_
  have hkept := keptNumber_of_no_exponent (h.numberIn n hn) he hE
  -- the number is one of the numbers of the value that is put out
  have hmem : n ∈ v.kept.numbers := by
    rw [numbers_kept]
    exact List.mem_map.2 ⟨n, hn, hkept⟩
  obtain ⟨m, rfl, hm⟩ := h.indented.numberIn n hmem
  rw [String.toList_ofList]
  exact ⟨hkept, hm⟩

theorem outputOf_spelled {cs : List Char} {v : Json} (h : Spells resultDepth cs v) :
    OutputOf v (Caller.outputText v.kept) := by
  cases v with
  | str s => exact .text s
  | null => exact .nothing
  | bool b => exact outputOf_indented h (fun s hs => by cases hs) (fun hs => by cases hs)
  | number n => exact outputOf_indented h (fun s hs => by cases hs) (fun hs => by cases hs)
  | arr items => exact outputOf_indented h (fun s hs => by cases hs) (fun hs => by cases hs)
  | obj members => exact outputOf_indented h (fun s hs => by cases hs) (fun hs => by cases hs)

/-! ## The reply -/

theorem kept_eq_null {v : Json} (h : v.kept = .null) : v = .null := by
  cases v with
  | null => rfl
  | bool | number | str | arr | obj => cases h

theorem readWithin?_deeper {depth : Nat} {cs : List Char} {v : Json} (h : readWithin? 0 cs = some v) :
    readWithin? depth cs = some v := by
  obtain ⟨front, text, back, raw, hfront, hback, rfl, htext, rfl⟩ := readWithin?_inv h
  have hdeep : ∀ n, Spells n text raw := fun n => by
    induction n with
    | zero => exact htext
    | succ n ih => exact ih.deeper
  exact readWithin?_of_spells hfront (hdeep depth) hback

theorem spells_null {depth : Nat} {cs : List Char} {v : Json} (h : Spells depth cs v) (hv : v = .null) :
    Spells 0 cs .null := by
  cases h with
  | null => exact .null 0
  | yes | no | number | string | emptyArray | array | emptyObject | object => cases hv

theorem readWithin?_null {depth : Nat} {cs : List Char} (h : SpellsBehindGap depth cs .null) :
    readWithin? 0 cs = some .null := by
  obtain ⟨front, text, hfront, rfl, htext⟩ := h
  exact SpellsBehindGap.readWithin? ⟨front, text, hfront, rfl, spells_null htext rfl⟩

/-- A field that may be left out counts as such where it is null. -/
theorem optional?_spelled {depth : Nat} {cs : List Char} {v : Json} (h : SpellsBehindGap depth cs v) :
    optional? (readWithin? depth) (some cs) = some (if v = .null then none else some v.kept) := by
  have hread := h.readWithin?
  rw [optional?]
  split
  · rename_i hnull
    have hkept : v.kept = .null := Option.some.inj (hread.symm.trans (readWithin?_deeper hnull))
    rw [if_pos (kept_eq_null hkept)]
  · rename_i hnull
    have hv : v ≠ .null := by
      rintro rfl
      exact hnull (readWithin?_null h)
    rw [if_neg hv, hread]
    rfl

/-- A reply that carries a result is read so. -/
theorem read?_of_carriesResult {id : UInt64} {body : String} {v : Json} (h : CarriesResult id body v) :
    (∃ cs, Spells resultDepth cs v) ∧
      ∃ r, Response.read? body = some r ∧ r.error = none ∧ r.echoes id = true ∧ r.result.getD .null = v.kept := by
  -- the fields are looked up among the texts of the members, and spell what is found among the members
  obtain ⟨members, hbody, hnames, hresult, herror, w, hid, hw⟩ := h
  obtain ⟨texts, houtline, hspells⟩ := outline?_of_spells hbody
  have hfields := fields?_object hspells hnames
  have hresult' := lookup_spellsMember hspells "result"
  have herror' := lookup_spellsMember hspells "error"
  have hid' := lookup_spellsMember hspells "id"
  rw [hresult] at hresult'
  rw [hid] at hid'
  obtain ⟨result, hresulttext, hv⟩ : ∃ cs, texts.lookup "result" = some cs ∧ SpellsBehindGap resultDepth cs v := by
    generalize texts.lookup "result" = t at hresult'
    cases hresult' with
    | some h => exact ⟨_, rfl, h⟩
  obtain ⟨idtext, hidtext, hidv⟩ : ∃ cs, texts.lookup "id" = some cs ∧ SpellsBehindGap resultDepth cs w := by
    generalize texts.lookup "id" = t at hid'
    cases hid' with
    | some h => exact ⟨_, rfl, h⟩
  have herrorread : optional? ErrorObject.read? (texts.lookup "error") = some none := by
    generalize texts.lookup "error" = t at herror'
    rcases herror with herror | herror
    · rw [herror] at herror'
      cases herror'
      rfl
    · rw [herror] at herror'
      cases herror' with
      | some h => rw [optional?, if_pos (readWithin?_null h)]
  have hspelled : ∃ cs, Spells resultDepth cs v := by
    obtain ⟨-, text, -, -, htext⟩ := hv
    exact ⟨text, htext⟩
  refine ⟨hspelled, ⟨if v = .null then none else some v.kept, none, w.kept⟩, ?_, rfl, ?_, ?_⟩
  · simp only [Response.read?, houtline, Option.bind_eq_bind, Option.bind_some, hfields, List.map_cons, List.map_nil]
    rw [hresulttext, hidtext, herrorread]
    show (optional? (readWithin? resultDepth) (some result)).bind _ = _
    rw [optional?_spelled hv]
    show (readWithin? resultDepth idtext).bind _ = _
    rw [hidv.readWithin?]
    rfl
  · simp only [Response.echoes, hw, decide_true]
  · show Option.getD (if v = .null then none else some v.kept) .null = v.kept
    split
    · rename_i hnull
      rw [hnull]
      rfl
    · rfl

/-- The result of what is read as a reply is spelled in it, or there is none. -/
theorem read?_result {body : String} {r : Response} (h : Response.read? body = some r) :
    ∃ v, r.result.getD .null = v.kept ∧ (v = .null ∨ ∃ cs, cs <:+: body.toList ∧ Spells resultDepth cs v) := by
  simp only [Response.read?, Option.bind_eq_bind, Option.bind_eq_some_iff] at h
  obtain ⟨o, houtline, fields, hfields, h⟩ := h
  split at h
  · rename_i result error id
    simp only [Option.bind_eq_some_iff] at h
    obtain ⟨result', hresult, error', -, hr⟩ := h
    obtain rfl : r.result = result' := by
      cases id with
      | none => rw [← Option.some.inj hr]
      | some cs =>
        obtain ⟨w, -, hr⟩ := Option.bind_eq_some_iff.1 hr
        rw [← Option.some.inj hr]
    cases result with
    | none =>
      exact ⟨.null, by rw [← Option.some.inj hresult]; rfl, .inl rfl⟩
    | some cs =>
      rw [optional?] at hresult
      split at hresult
      · exact ⟨.null, by rw [← Option.some.inj hresult]; rfl, .inl rfl⟩
      · obtain ⟨v, hv, hr⟩ := Option.map_eq_some_iff.1 hresult
        obtain ⟨front, text, back, raw, -, -, rfl, htext, rfl⟩ := readWithin?_inv hv
        have hinfix := outline?_inside houtline _ (Outline.mem_texts_of_fields? hfields List.mem_cons_self)
        exact ⟨raw, by rw [← hr]; rfl, .inr ⟨text, (List.infix_append' front text back).trans hinfix, htext⟩⟩
  · cases h

/-! ## Commands -/

theorem Caller.attempt_mem_attempts {σ : Type} (carrier : Carrier σ) (method : String) (params : List Json)
    (caller : Caller) (s : σ) :
    (caller.attempt carrier method params s).1 ∈ caller.attempts carrier method params s := by
  cases h : isMismatch (caller.attempt carrier method params s).1.result with
  | false =>
    rw [attempts_of_not_mismatch carrier method params caller s h]
    exact List.mem_singleton_self _
  | true =>
    rw [attempts_of_mismatch carrier method params caller s h]
    exact List.mem_cons_self

/-- A call ends with what one of its attempts says, unless that is that the reply belongs to another request. -/
theorem Caller.call_of_attempt {σ : Type} (carrier : Carrier σ) (method : String) (params : List Json) (caller : Caller)
    (s : σ) {a : Attempt} (ha : a ∈ caller.attempts carrier method params s) (hown : isMismatch a.result = false) :
    (caller.call carrier method params s).1 = a.result := by
  cases h : isMismatch (caller.attempt carrier method params s).1.result with
  | false =>
    rw [attempts_of_not_mismatch carrier method params caller s h] at ha
    obtain rfl := List.mem_singleton.1 ha
    rw [call_of_not_mismatch carrier method params caller s h]
  | true =>
    rw [attempts_of_mismatch carrier method params caller s h] at ha
    rw [call_of_mismatch carrier method params caller s h]
    rcases List.mem_pair.1 ha with rfl | rfl
    · rw [hown] at h
      cases h
    · rfl

/-- A call ends with the result of an attempt, if one has a result. -/
theorem Caller.call_of_attempt_ok {σ : Type} (carrier : Carrier σ) (method : String) (params : List Json)
    (caller : Caller) (s : σ) {a : Attempt} {v : Json} (ha : a ∈ caller.attempts carrier method params s)
    (hv : a.result = .ok v) : (caller.call carrier method params s).1 = .ok v := by
  rw [caller.call_of_attempt carrier method params s ha (by rw [hv]; rfl), hv]

/-- What a command puts out is what the reply to it carries. A reply that carries a result ends the command with its
output, a string as it is, nothing for null, and any other value as a text that is read as the same value and in which
each number without an exponent stands digit by digit. And all output comes from a value that a reply spells, or from a
reply without one. -/
theorem execute_keeps_result {σ : Type} (carrier : Carrier σ) (line : String) (caller : Caller) (s : σ) :
    (∀ a ∈ caller.attempts carrier executeMethod [.str line] s, ∀ status body v, a.exchange = .reply status body →
      isSuccess status = true → CarriesResult a.request.id body v →
      ∃ text, (caller.execute carrier line s).1 = .ok text ∧ OutputOf v text) ∧
    ∀ text, (caller.execute carrier line s).1 = .ok text →
      ∃ a ∈ caller.attempts carrier executeMethod [.str line] s, ∃ status body v, a.exchange = .reply status body ∧
        OutputOf v text ∧ (v = .null ∨ ∃ cs, cs <:+: body.toList ∧ Spells resultDepth cs v) := by
  have hexecute : (caller.execute carrier line s).1 =
      (caller.call carrier executeMethod [.str line] s).1.map Caller.outputText := rfl
  constructor
  · intro a ha status body v hreply hstatus hcarries
    obtain ⟨⟨cs, hcs⟩, r, hread, herror, hechoes, hresult⟩ := read?_of_carriesResult hcarries
    have hresponse : a.exchange.response? = some (status, r) := by
      rw [hreply]
      exact Option.map_eq_some_iff.2 ⟨r, hread, rfl⟩
    have hok : a.result = .ok v.kept := hresult ▸ Exchange.result_of_own hresponse herror hstatus hechoes
    rw [hexecute, Caller.call_of_attempt_ok carrier _ _ caller s ha hok]
    exact ⟨_, rfl, outputOf_spelled hcs⟩
  · intro text htext
    -- a call says what its last attempt says
    obtain ⟨a, hlast, hcall⟩ := caller.exists_last_attempt carrier executeMethod [.str line] s
    rw [hexecute, hcall] at htext
    obtain ⟨v, hv, rfl⟩ : ∃ v, a.result = .ok v ∧ Caller.outputText v = text := by
      cases hresult : a.result with
      | error fault => rw [hresult] at htext; cases htext
      | ok v => rw [hresult] at htext; exact ⟨v, rfl, Except.ok.inj htext⟩
    obtain ⟨status, r, hresponse, -, -, -, rfl⟩ := Exchange.result_eq_ok_iff.1 hv
    obtain ⟨body, hreply, hread⟩ := Exchange.exists_of_response? hresponse
    obtain ⟨raw, hraw, hspelled⟩ := read?_result hread
    refine ⟨a, List.mem_of_getLast? hlast, status, body, raw, hreply, ?_, hspelled⟩
    rw [hraw]
    rcases hspelled with rfl | ⟨cs, -, hcs⟩
    · exact .nothing
    · exact outputOf_spelled hcs

/-- An amount that no floating-point number holds. -/
def amount : Numeral :=
  ⟨false, "12".toList, some "340000000000000001".toList, none, by decide +kernel, by decide +kernel, by decide +kernel⟩

/-- A number with an exponent that is not written as it is kept. -/
def roundNumber : Numeral :=
  ⟨false, ['5'], none, some ⟨'E', none, ['2'], .inr rfl, nofun, by decide⟩, by decide, by decide, by decide⟩

/-- A reply with both of them. -/
def amountReply : String := "\x7b\"id\":1, \"result\":[12.340000000000000001, 5E2]\x7d"

/-- The two numbers, as the reply spells them. -/
def amountResult : Json := .arr [.number "12.340000000000000001", .number "5E2"]

/-- Who asks for the amount. -/
def amountCaller : Caller := ⟨⟨"127.0.0.1", 8090, "username", "password"⟩, 1⟩

theorem carriesResult_amount : CarriesResult 1 amountReply amountResult := by
  have hresult : Spells resultDepth "[12.340000000000000001, 5E2]".toList amountResult :=
    .array (.more gap_nil (.number _ amount) gap_nil (.last gap_space (.number _ roundNumber) gap_nil))
  have hid : Spells resultDepth ['1'] (.number "1") :=
    .number _ ⟨false, ['1'], none, none, by decide, by decide, by decide⟩
  have hidname : stringBody? ['i', 'd', '"'] = some (['i', 'd'], []) := by decide +kernel
  have hresultname : stringBody? ['r', 'e', 's', 'u', 'l', 't', '"'] = some (['r', 'e', 's', 'u', 'l', 't'], []) := by
    decide +kernel
  have hmembers := SpellsMembers.more gap_nil hidname gap_nil gap_nil hid gap_nil
    (.last gap_space hresultname gap_nil gap_nil hresult gap_nil)
  refine ⟨_, ⟨[], _, [], gap_nil, gap_nil, hmembers, by decide +kernel⟩, by decide +kernel, by decide +kernel,
    .inl (by decide +kernel), .number "1", by decide +kernel, by decide +kernel⟩

/-- The amount comes out digit by digit. -/
theorem execute_keeps_result_amount :
    ∃ text, (amountCaller.execute Carrier.replying "balance" [(200, amountReply)]).1 = .ok text ∧
      OutputOf amountResult text ∧ "12.340000000000000001".toList <:+: text.toList := by
  have hattempt := amountCaller.attempt_mem_attempts Carrier.replying executeMethod [.str "balance"] [(200, amountReply)]
  obtain ⟨text, htext, houtput⟩ := (execute_keeps_result Carrier.replying "balance" amountCaller [(200, amountReply)]).1
    _ hattempt 200 amountReply amountResult rfl rfl carriesResult_amount
  refine ⟨text, htext, houtput, ?_⟩
  cases houtput with
  | value _ _ _ _ _ hexact =>
    exact (hexact "12.340000000000000001" List.mem_cons_self (by decide +kernel) (by decide +kernel)).2

end Conformance.Service
