import Conformance.Proofs.Service.Results
import Conformance.Service.StandIn

/-!
# Both ends of the wire

Requests and replies are read back from what writes them (`Request.read?_text`, `Response.read?_text`), up to a null that
may be left out as well. So a caller gets the result that a service sends under the number of its request, and the error
that a service sends under any number (`peers_agree`).
-/
namespace Conformance.Service

open Json Text

/-! ## Whole numbers and strings in messages -/

theorem readString?_quoted (s : String) : readString? (quoted s).toList = some s := by
  have hread := readWithin?_of_spells gap_nil (spells_quoted 0 s) gap_nil
  rw [List.nil_append, List.append_nil] at hread
  rw [readString?, hread]
  rfl

/-- The decimal form of an integer spells it. -/
theorem spells_ofInt (depth : Nat) (n : Int) : Spells depth (toString n).toList (Json.ofInt n) := by
  have hspells := Spells.number depth (Numeral.ofInt n)
  rw [Numeral.text_ofInt, String.ofList_toList] at hspells
  exact hspells

theorem readable_ofInt (depth : Nat) (n : Int) : Readable depth (Json.ofInt n) := by
  refine readable_iff.2 ⟨(spells_ofInt depth n).proper, ?_⟩
  rw [Json.ofInt, kept, ← String.ofList_toList (s := toString n), ← Numeral.text_ofInt, keptNumber_text,
    Numeral.text_kept rfl]

theorem readable_ofNat (depth n : Nat) : Readable depth (Json.ofNat n) := readable_ofInt depth n

/-- The decimal form of an integer is taken as the text of one. -/
theorem integerText?_toString (n : Int) : integerText? (toString n).toList = some (toString n).toList := by
  have hread : readWithin? 0 (toString n).toList = some (Json.ofInt n) := (readable_ofInt 0 n).readWithin?_compact
  -- the only decimal form that is not taken as it stands is that of a negative zero
  have hzero : (toString n).toList ≠ ['-', '0'] := by
    intro h
    rw [toList_toString_int] at h
    split at h
    · obtain ⟨c, r, hdigits, hc⟩ := head_toDigits n.toNat
      obtain rfl : c = '-' := (List.cons.inj (hdigits.symm.trans h)).1
      cases hc
    · have hvalue := natIn?_toDigits (-n).toNat
      rw [(List.cons.inj h).2] at hvalue
      have hzero : (-n).toNat = 0 := (Option.some.inj hvalue).symm
      omega
  have hdigits : (toString n).toList.all (fun c => c.isDigit || c = '-') = true := by
    rw [toList_toString_int]
    split
    · exact List.all_eq_true.2 fun c hc => by rw [isDigit_of_mem_toDigits c hc]; rfl
    · exact List.all_eq_true.2 (List.forall_mem_cons.2
        ⟨rfl, fun c hc => by rw [isDigit_of_mem_toDigits c hc]; rfl⟩)
  rw [integerText?, hread]
  show (if _ then _ else _) = _
  rw [if_pos]
  rw [hdigits, Bool.and_true]
  exact decide_eq_true hzero

theorem readSigned?_toString (n : Int64) : readSigned? (toString n.toInt).toList = some n := by
  rw [readSigned?, integerText?_toString, Option.bind_some, readInt64?_toString]

theorem readWord?_toString (n : UInt64) : readWord? (toString n).toList = some n := by
  have hdigits : (toString n).toList = Nat.toDigits 10 n.toNat := Nat.toList_repr
  have hinteger := integerText?_toString n.toNat
  rw [show (toString (n.toNat : Int)).toList = (toString n).toList from rfl] at hinteger
  have hread : readBelow? 10 wordBound (Nat.toDigits 10 n.toNat) = some n.toNat := readBelow?_toDigits n.toNat_lt
  rw [readWord?, hinteger, Option.bind_some, hdigits, hread, Option.map_some, UInt64.ofNat_toNat]

/-! ## The members of a message -/

/-- The characters of members with commas between them, up to the closing brace. -/
def membersText : List (String × String) → List Char
  | [] => ['}']
  | [(name, text)] => (quoted name).toList ++ ':' :: (text.toList ++ ['}'])
  | (name, text) :: m :: r => (quoted name).toList ++ ':' :: (text.toList ++ ',' :: membersText (m :: r))

theorem toList_objectText (members : List (String × String)) :
    (objectText members).toList = '{' :: membersText members := by
  suffices h : ((",".intercalate (members.map fun m => quoted m.1 ++ ":" ++ m.2)).toList ++ ['}']) =
      membersText members by
    rw [objectText, String.toList_append, String.toList_append, List.append_assoc]
    exact congrArg ('{' :: ·) h
  induction members with
  | nil => rfl
  | cons m r ih =>
    obtain ⟨name, text⟩ := m
    cases r with
    | nil => simp [membersText]
    | cons m r =>
      rw [membersText, ← ih]
      simp

/-- The text spells some value within the depth. -/
def SpellsSome (depth : Nat) (text : String) : Prop := ∃ v, Spells depth text.toList v

theorem spellsSome_quoted (depth : Nat) (s : String) : SpellsSome depth (quoted s) := ⟨.str s, spells_quoted depth s⟩

theorem spellsSome_toString (depth : Nat) (n : Int) : SpellsSome depth (toString n) := ⟨Json.ofInt n, spells_ofInt depth n⟩

theorem spellsSome_compact {depth : Nat} {v : Json} (h : Readable depth v) : SpellsSome depth v.compact :=
  ⟨v, h.spells_compact⟩

section Members

variable {depth : Nat} {members : List (String × String)}

theorem exists_spellsMembers (hne : members ≠ []) (h : ∀ m ∈ members, SpellsSome depth m.2) :
    ∃ values, SpellsMembers depth (membersText members) values := by
  induction members with
  | nil => exact absurd rfl hne
  | cons m r ih =>
    obtain ⟨name, text⟩ := m
    obtain ⟨⟨v, hv⟩, hr⟩ := List.forall_mem_cons.1 h
    have hname := stringBody?_flatMap_escaped name.toList
    cases r with
    | nil =>
      have hlast := SpellsMembers.last gap_nil hname gap_nil gap_nil hv gap_nil
      exact ⟨_, by simpa [membersText, toList_quoted] using hlast⟩
    | cons m r =>
      obtain ⟨values, hvalues⟩ := ih (List.cons_ne_nil m r) hr
      have hmore := SpellsMembers.more gap_nil hname gap_nil gap_nil hv gap_nil hvalues
      exact ⟨_, by simpa [membersText, toList_quoted] using hmore⟩

/-- An object whose members spell values spells one itself. -/
theorem spellsSome_objectText (hne : members ≠ []) (h : ∀ m ∈ members, SpellsSome depth m.2) :
    SpellsSome (depth + 1) (objectText members) := by
  obtain ⟨values, hvalues⟩ := exists_spellsMembers hne h
  refine ⟨ofMembers values, ?_⟩
  rw [toList_objectText]
  exact .object hvalues

/-- Members whose texts spell values are taken apart into these texts. -/
theorem memberTexts?_membersText (hne : members ≠ []) (h : ∀ m ∈ members, SpellsSome depth m.2) :
    ∀ fuel, (membersText members).length ≤ fuel →
      memberTexts? fuel (membersText members) = some (members.map fun m => (m.1, m.2.toList), []) := by
  induction members with
  | nil => exact absurd rfl hne
  | cons m r ih =>
    obtain ⟨name, text⟩ := m
    obtain ⟨⟨v, hv⟩, hr⟩ := List.forall_mem_cons.1 h
    intro fuel hfuel
    have hname := stringBody?_append (stringBody?_flatMap_escaped name.toList)
    cases r with
    | nil =>
      obtain ⟨fuel, rfl⟩ : ∃ n, fuel = n + 1 := ⟨fuel - 1, by simp [membersText] at hfuel; omega⟩
      have hvalue := valueText?_of_spells gap_nil hv (endsNumber_gap gap_nil (.inr (.inr rfl)) [])
      have hlast := memberTexts?_last fuel (hname (':' :: (text.toList ++ ['}']))) (skipSpace_cons (by decide) _) hvalue
        (skipSpace_cons (by decide) [])
      rw [String.ofList_toList] at hlast
      simpa [membersText, toList_quoted] using hlast
    | cons m r =>
      simp only [membersText, toList_quoted, List.length_append, List.length_cons] at hfuel
      obtain ⟨fuel, rfl⟩ : ∃ n, fuel = n + 1 := ⟨fuel - 1, by omega⟩
      have hvalue := valueText?_of_spells gap_nil hv (endsNumber_gap gap_nil (.inl rfl) (membersText (m :: r)))
      have hmore := memberTexts?_more fuel (hname (':' :: (text.toList ++ ',' :: membersText (m :: r))))
        (skipSpace_cons (by decide) _) hvalue (skipSpace_cons (by decide) _)
      rw [ih (List.cons_ne_nil m r) hr fuel (by omega), String.ofList_toList] at hmore
      simpa [membersText, toList_quoted] using hmore

/-- The outline of an object is that of its members. -/
theorem outline?_objectText (hne : members ≠ []) (h : ∀ m ∈ members, SpellsSome depth m.2) :
    outline? (objectText members).toList = some (.object (members.map fun m => (m.1, m.2.toList))) := by
  have hquote : ∃ r, membersText members = '"' :: r := by
    match members, hne with
    | [(name, text)], _ => exact ⟨_, by rw [membersText, toList_quoted]; rfl⟩
    | (name, text) :: m :: r, _ => exact ⟨_, by rw [membersText, toList_quoted]; rfl⟩
  obtain ⟨r, hr⟩ := hquote
  have hmembers := memberTexts?_membersText hne h ((membersText members).length + 1) (by omega)
  rw [hr] at hmembers
  have hat : outlineAt? (objectText members).toList = some (.object (members.map fun m => (m.1, m.2.toList)), []) := by
    rw [toList_objectText, hr]
    simp only [outlineAt?, skipSpace_cons (show isSpace '{' = false by decide),
      skipSpace_cons (show isSpace '"' = false by decide)]
    show (memberTexts? (('"' :: r).length + 1) ('"' :: r)).map _ = _
    rw [hmembers]
    rfl
  rw [outline?, hat]
  rfl

/-- An object is not read as null. -/
theorem readWithin?_objectText_ne_null (members : List (String × String)) :
    readWithin? 0 (objectText members).toList ≠ some .null := by
  rw [toList_objectText]
  simp [readWithin?, value?, fuelFor, skipSpace_cons (show isSpace '{' = false by decide)]

end Members

/-- A value that may be left out is read back from its compact form, unless it is null. -/
theorem optional?_compact {depth : Nat} (v : Option Json) (h : ∀ w ∈ v, Readable depth w) :
    optional? (readWithin? depth) (v.map fun w => w.compact.toList) = some (v.filter (· ≠ .null)) := by
  cases v with
  | none => rfl
  | some w =>
    have hw := h w rfl
    have hspells : SpellsBehindGap depth w.compact.toList w := ⟨[], w.compact.toList, gap_nil, rfl, hw.spells_compact⟩
    rw [Option.map_some, optional?_spelled hspells, (readable_iff.1 hw).2, Option.filter_some]
    by_cases hnull : w = .null
    · simp [hnull]
    · simp [hnull]

/-! ## Requests -/

/-- The values in the request can be read where they stand in its text, inside the request and its parameters. -/
def Request.Fits (r : Request) : Prop := ∀ v ∈ r.params, Readable (maxDepth - 2) v

/-- The members of the text of a request. -/
def Request.members (r : Request) : List (String × String) :=
  [("method", quoted r.method), ("params", (Json.arr r.params).compact), ("jsonrpc", quoted r.version),
    ("id", toString r.id)]

/-- A request is read back from its text. -/
theorem Request.read?_text {r : Request} (h : r.Fits) : Request.read? r.text = some r := by
  have hparams : Readable (maxDepth - 1) (.arr r.params) := readable_arr h
  have hmembers : ∀ m ∈ r.members, SpellsSome (maxDepth - 1) m.2 := by
    simp only [Request.members, List.forall_mem_cons]
    exact ⟨spellsSome_quoted _ _, spellsSome_compact hparams, spellsSome_quoted _ _, spellsSome_toString _ r.id.toNat,
      fun _ hm => absurd hm List.not_mem_nil⟩
  have houtline : outline? r.text.toList = some (.object (r.members.map fun m => (m.1, m.2.toList))) :=
    outline?_objectText (List.cons_ne_nil _ _) hmembers
  -- each name stands there once, so each field is the text of its member
  have hfields : (Outline.object (r.members.map fun m => (m.1, m.2.toList))).fields? ["method", "params", "jsonrpc", "id"] =
      some [some (quoted r.method).toList, some (Json.arr r.params).compact.toList, some (quoted r.version).toList,
        some (toString r.id).toList] := by
    simp [Request.members, Outline.fields?, List.lookup_cons]
  simp only [Request.read?, Request.ofOutline?, houtline, hfields, hparams.readWithin?_compact, readString?_quoted,
    readWord?_toString, Option.bind_eq_bind, Option.bind_some, Option.pure_def]

/-- A text that is a request has it at its front. -/
theorem Request.readFront?_of_read? {text : String} {r : Request} (h : Request.read? text = some r) :
    Request.readFront? text = some r := by
  obtain ⟨o, houtline, hr⟩ := Option.bind_eq_some_iff.1 h
  unfold outline? at houtline
  split at houtline
  · rename_i found rest hfound
    rw [Option.ite_none_right_eq_some] at houtline
    rw [Request.readFront?, hfound, Option.bind_some, Option.some.inj houtline.2, hr]
  · cases houtline

/-! ## Replies -/

/-- The values in the reply can be read where they stand in its text, inside the reply and, if it comes to that, inside
its error. -/
structure Response.Fits (r : Response) : Prop where
  result : ∀ v ∈ r.result, Readable resultDepth v
  data : ∀ e ∈ r.error, ∀ v ∈ e.data, Readable (maxDepth - 2) v
  id : Readable resultDepth r.id

/-- The error as it comes in: data that is null counts as left out. -/
def ErrorObject.received (e : ErrorObject) : ErrorObject := { e with data := e.data.filter (· ≠ .null) }

/-- The reply as it comes in: a result that is null counts as left out, and so does the data of an error. -/
def Response.received (r : Response) : Response :=
  { r with result := r.result.filter (· ≠ .null), error := r.error.map (·.received) }

/-- The members of the text of an error. -/
def ErrorObject.members (e : ErrorObject) : List (String × String) :=
  [("code", toString e.code.toInt), ("message", quoted e.message)] ++ (e.data.map fun v => ("data", v.compact)).toList

theorem ErrorObject.text_eq (e : ErrorObject) : e.text = objectText e.members := by
  unfold ErrorObject.text ErrorObject.members
  cases e.data with
  | none => rfl
  | some v => rfl

theorem ErrorObject.spellsSome_members {e : ErrorObject} (h : ∀ v ∈ e.data, Readable (maxDepth - 2) v) :
    ∀ m ∈ e.members, SpellsSome (maxDepth - 2) m.2 := by
  unfold ErrorObject.members
  refine List.forall_mem_append.2 ⟨List.forall_mem_cons.2 ⟨spellsSome_toString _ _, ?_⟩, ?_⟩
  · exact List.forall_mem_singleton.2 (spellsSome_quoted _ _)
  · intro m hm
    obtain ⟨v, hv, rfl⟩ := Option.map_eq_some_iff.1 (Option.mem_toList.1 hm)
    exact spellsSome_compact (h v hv)

/-- An error is read back from its text. -/
theorem ErrorObject.read?_text {e : ErrorObject} (h : ∀ v ∈ e.data, Readable (maxDepth - 2) v) :
    ErrorObject.read? e.text.toList = some e.received := by
  have houtline : outline? e.text.toList = some (.object (e.members.map fun m => (m.1, m.2.toList))) :=
    e.text_eq ▸ outline?_objectText (List.cons_ne_nil _ _) (ErrorObject.spellsSome_members h)
  have hfields : (Outline.object (e.members.map fun m => (m.1, m.2.toList))).fields? ["code", "message", "data"] =
      some [some (toString e.code.toInt).toList, some (quoted e.message).toList,
        e.data.map fun v => v.compact.toList] := by
    unfold ErrorObject.members
    cases e.data with
    | none => simp [Outline.fields?, List.lookup_cons]
    | some v => simp [Outline.fields?, List.lookup_cons]
  simp only [ErrorObject.read?, houtline, hfields, readSigned?_toString, readString?_quoted, optional?_compact e.data h,
    Option.bind_eq_bind, Option.bind_some, Option.pure_def]
  rfl

/-- An error that may be left out is read back from its text. -/
theorem optional?_error {error : Option ErrorObject} (h : ∀ e ∈ error, ∀ v ∈ e.data, Readable (maxDepth - 2) v) :
    optional? ErrorObject.read? (error.map fun e => e.text.toList) = some (error.map (·.received)) := by
  cases error with
  | none => rfl
  | some e =>
    have hnull : readWithin? 0 e.text.toList ≠ some .null := e.text_eq ▸ readWithin?_objectText_ne_null e.members
    rw [Option.map_some, optional?, if_neg hnull, ErrorObject.read?_text (h e rfl)]
    rfl

/-- The members of the text of a reply. -/
def Response.members (r : Response) : List (String × String) :=
  (r.result.map fun v => ("result", v.compact)).toList ++ (r.error.map fun e => ("error", e.text)).toList ++
    [("id", r.id.compact)]

theorem Response.text_eq (r : Response) : r.text = objectText r.members := by
  unfold Response.text Response.members
  cases r.result <;> cases r.error <;> rfl

theorem Response.spellsSome_members {r : Response} (h : r.Fits) : ∀ m ∈ r.members, SpellsSome resultDepth m.2 := by
  unfold Response.members
  refine List.forall_mem_append.2 ⟨List.forall_mem_append.2 ⟨?_, ?_⟩, List.forall_mem_singleton.2 (spellsSome_compact h.id)⟩
  · intro m hm
    obtain ⟨v, hv, rfl⟩ := Option.map_eq_some_iff.1 (Option.mem_toList.1 hm)
    exact spellsSome_compact (h.result v hv)
  · intro m hm
    obtain ⟨e, he, rfl⟩ := Option.map_eq_some_iff.1 (Option.mem_toList.1 hm)
    rw [e.text_eq]
    exact spellsSome_objectText (List.cons_ne_nil _ _) (ErrorObject.spellsSome_members (h.data e he))

/-- A reply is read back from its text. -/
theorem Response.read?_text {r : Response} (h : r.Fits) : Response.read? r.text = some r.received := by
  have hne : r.members ≠ [] := List.append_ne_nil_of_right_ne_nil _ (List.cons_ne_nil _ _)
  have houtline : outline? r.text.toList = some (.object (r.members.map fun m => (m.1, m.2.toList))) :=
    r.text_eq ▸ outline?_objectText hne (Response.spellsSome_members h)
  have hfields : (Outline.object (r.members.map fun m => (m.1, m.2.toList))).fields? ["result", "error", "id"] =
      some [r.result.map fun v => v.compact.toList, r.error.map fun e => e.text.toList, some r.id.compact.toList] := by
    unfold Response.members
    cases r.result <;> cases r.error <;> simp [Outline.fields?, List.lookup_cons]
  have hresult := optional?_compact r.result h.result
  have hid := h.id.readWithin?_compact
  rw [resultDepth] at hresult hid
  simp only [Response.read?, houtline, hfields, hresult, optional?_error h.data, hid, Option.bind_eq_bind, Option.bind_some,
    Option.pure_def]
  rfl

/-! ## Calls -/

theorem Response.fits_success (id : UInt64) {v : Json} (h : Readable resultDepth v) : (Response.success id v).Fits where
  result _ hw := Option.some.inj hw ▸ h
  data _ he := absurd he (Option.not_mem_none _)
  id := readable_ofNat _ _

theorem Response.fits_failure (id : UInt64) (code : Int64) (message : String) : (Response.failure id code message).Fits where
  result _ hv := absurd hv (Option.not_mem_none _)
  data e he v hv := by
    rw [← Option.some.inj he] at hv
    exact absurd hv (Option.not_mem_none _)
  id := readable_ofNat _ _

theorem Response.echoes_success (id : UInt64) (v : Json) : (Response.success id v).echoes id = true := by
  have hread : readBelow? 10 wordBound (Nat.toDigits 10 id.toNat) = some id.toNat := readBelow?_toDigits id.toNat_lt
  rw [← Nat.toList_repr] at hread
  exact decide_eq_true hread

/-- A reply with a result, under the number of the request and with the status of a success, says that result. -/
theorem Exchange.result_of_success (id : UInt64) {status : Nat} {v : Json} (hv : Readable resultDepth v)
    (hs : isSuccess status = true) : (Exchange.reply status (Response.success id v).text).result id = .ok v := by
  have hread : (Exchange.reply status (Response.success id v).text).response? =
      some (status, (Response.success id v).received) := by
    rw [Exchange.response?, Response.read?_text (Response.fits_success id hv)]
    rfl
  have hvalue : (Response.success id v).received.result.getD .null = v := by
    show ((some v).filter (· ≠ .null)).getD .null = v
    rw [Option.filter_some]
    by_cases hnull : v = .null
    · simp [hnull]
    · simp [hnull]
  rw [Exchange.result_of_own hread rfl hs (Response.echoes_success id v), hvalue]

/-- A reply with an error says that error, whatever its number and its status are. -/
theorem Exchange.result_of_failure (id id' : UInt64) (status : Nat) (code : Int64) (message : String) :
    (Exchange.reply status (Response.failure id' code message).text).result id = .error (.protocol code message none) := by
  have hread : (Exchange.reply status (Response.failure id' code message).text).response? =
      some (status, (Response.failure id' code message).received) := by
    rw [Exchange.response?, Response.read?_text (Response.fits_failure id' code message)]
    rfl
  exact Exchange.result_of_error hread rfl

/-- Both ends of the wire agree. A request is read back from its text; so is a reply, but that a null result and null data
of an error count as left out, which changes nothing in the number that it repeats. And a call gives the result that a
service sends with the status of a success under the number of one of its requests, and the error that a service sends
under any number and with any status. -/
theorem peers_agree :
    (∀ r : Request, r.Fits → Request.read? r.text = some r) ∧
    (∀ r : Response, r.Fits →
      Response.read? r.text = some r.received ∧ ∀ id, r.received.echoes id = r.echoes id) ∧
    ∀ (σ : Type) (carrier : Carrier σ) (method : String) (params : List Json) (caller : Caller) (s : σ),
      ∀ a ∈ caller.attempts carrier method params s,
        (∀ status v, isSuccess status = true → Readable resultDepth v →
          a.exchange = .reply status (Response.success a.request.id v).text →
          (caller.call carrier method params s).1 = .ok v) ∧
        ∀ status id code message, a.exchange = .reply status (Response.failure id code message).text →
          (caller.call carrier method params s).1 = .error (.protocol code message none) := by
  refine ⟨fun r h => Request.read?_text h, fun r h => ⟨Response.read?_text h, fun _ => rfl⟩, ?_⟩
  intro σ carrier method params caller s a ha
  constructor
  · intro status v hs hv hreply
    have hresult : a.result = .ok v := by
      rw [Attempt.result, hreply]
      exact Exchange.result_of_success a.request.id hv hs
    exact caller.call_of_attempt_ok carrier method params s ha hresult
  · intro status id code message hreply
    have hresult : a.result = .error (.protocol code message none) := by
      rw [Attempt.result, hreply]
      exact Exchange.result_of_failure a.request.id id status code message
    rw [caller.call_of_attempt carrier method params s ha (by rw [hresult]; rfl), hresult]

/-- A request with quotes in a string, a value inside another one, and a number that has to stay exact. -/
def exactRequest : Request := .new executeMethod [.str "say \"hi\"", .arr [.null, .number "0.10"]] 7

theorem fits_exactRequest : exactRequest.Fits :=
  List.forall_mem_cons.2 ⟨readable_str _ _, List.forall_mem_singleton.2 ⟨"[null,0.10]".toList, by decide +kernel⟩⟩

/-- A reply with a null result beside an error whose data is null. -/
def nullReply : Response := ⟨some .null, some ⟨-1, "refused", some .null⟩, .ofNat 7⟩

theorem fits_nullReply : nullReply.Fits where
  result _ hv := Option.some.inj hv ▸ readable_null _
  data e he v hv := by
    rw [← Option.some.inj he] at hv
    exact Option.some.inj hv ▸ readable_null _
  id := readable_ofNat _ _

/-- Messages at both ends, and calls that are answered with an array and with an error to another request. -/
theorem peers_agree_exact :
    Request.read? exactRequest.text = some exactRequest ∧
    Response.read? nullReply.text = some ⟨none, some ⟨-1, "refused", none⟩, .ofNat 7⟩ ∧
    (lateCaller.call Carrier.replying executeMethod [] [(200, (Response.success 1 (.arr [.null])).text)]).1 =
      .ok (.arr [.null]) ∧
    (lateCaller.call Carrier.replying executeMethod [] [(404, (Response.failure 9 20005 "unknown").text)]).1 =
      .error (.protocol 20005 "unknown" none) := by
  have hsuccess := lateCaller.attempt_mem_attempts Carrier.replying executeMethod []
    [(200, (Response.success 1 (.arr [.null])).text)]
  have hfailure := lateCaller.attempt_mem_attempts Carrier.replying executeMethod []
    [(404, (Response.failure 9 20005 "unknown").text)]
  refine ⟨peers_agree.1 exactRequest fits_exactRequest, (peers_agree.2.1 nullReply fits_nullReply).1, ?_, ?_⟩
  · exact (peers_agree.2.2 _ _ _ _ _ _ _ hsuccess).1 200 (.arr [.null]) rfl ⟨"[null]".toList, by decide +kernel⟩ rfl
  · exact (peers_agree.2.2 _ _ _ _ _ _ _ hfailure).2 404 9 20005 "unknown" rfl

/-! ## The stand-in -/

theorem StandIn.readable_info (t : StandIn) (commands : UInt64) : Readable 1 (t.info commands) := by
  apply readable_ofMembers
  simp only [List.forall_mem_cons]
  refine ⟨readable_ofNat 0 _, readable_ofNat 0 _, readable_ofNat 0 _, ?_, ?_, readable_ofNat 0 _,
    fun _ hm => absurd hm List.not_mem_nil⟩
  · cases t.p2pPort with
    | none => exact readable_null 0
    | some port => exact readable_ofNat 0 _
  · cases t.genesis with
    | none => exact readable_null 0
    | some path => exact readable_str 0 path

theorem StandIn.readable_execute {t : StandIn} {commands : UInt64} {line : String} {v : Json} {delay : Nat}
    (h : t.execute commands line = .ok (v, delay)) : Readable 1 v := by
  unfold StandIn.execute at h
  split at h
  split at h
  · obtain ⟨rfl, -⟩ := Prod.mk.inj (Except.ok.inj h)
    exact t.readable_info commands
  · obtain ⟨rfl, -⟩ := Prod.mk.inj (Except.ok.inj h)
    exact readable_str 1 _
  · obtain ⟨rfl, -⟩ := Prod.mk.inj (Except.ok.inj h)
    exact ⟨aboutResult.compact.toList, by decide +kernel⟩
  · obtain ⟨rfl, -⟩ := Prod.mk.inj (Except.ok.inj h)
    exact readable_str 1 _
  · obtain ⟨rfl, -⟩ := Prod.mk.inj (Except.ok.inj h)
    exact ⟨balanceResult.compact.toList, by decide +kernel⟩
  · split at h
    · obtain ⟨rfl, -⟩ := Prod.mk.inj (Except.ok.inj h)
      exact readable_null 1
    · cases h
  · cases h

/-- What the stand-in gives as a result can be read from its reply. -/
theorem StandIn.readable_perform {t : StandIn} {r : Request} {commands : UInt64} {v : Json} {delay : Nat}
    (h : (t.perform r commands).1 = .ok (v, delay)) : Readable resultDepth v := by
  suffices hv : Readable 1 v from hv.mono (by decide)
  unfold StandIn.perform at h
  split at h
  · obtain ⟨rfl, -⟩ := Prod.mk.inj (Except.ok.inj h)
    exact t.readable_info commands
  · split at h
    · split at h
      · exact StandIn.readable_execute h
      · cases h
    · cases h

/-- The message brings the request to where the stand-in takes requests. -/
structure Incoming.Brings (i : Incoming) (r : Request) : Prop where
  path : i.path = rpcPath
  verb : i.verb = "POST"
  contentType : i.contentType.any StandIn.isJsonType = true
  size : byteLength i.body.toList ≤ StandIn.bodyLimit
  body : i.body = r.text

/-- The stand-in takes the request that was sent. -/
theorem Incoming.Brings.requestOf {i : Incoming} {r : Request} (h : i.Brings r) (hfits : r.Fits) :
    StandIn.requestOf i = .ok r := by
  have hpath : ¬ i.path ≠ rpcPath := not_not_intro h.path
  have hverb : ¬ i.verb ≠ "POST" := not_not_intro h.verb
  have htype : ¬ (!i.contentType.any StandIn.isJsonType) = true := by
    rw [h.contentType]
    exact Bool.false_ne_true
  have hread : Request.readFront? i.body = some r := by
    rw [h.body]
    exact Request.readFront?_of_read? (Request.read?_text hfits)
  rw [StandIn.requestOf, if_neg hpath, if_neg hverb, if_neg htype, if_neg (Nat.not_lt.2 h.size), hread]

/-- What the message of a stand-in is to the one who asked. -/
def Outgoing.exchange (o : Outgoing) : Exchange := .reply o.status ((o.response.map (·.text)).getD "")

/-- What the stand-in makes of a request: the result of what it carries out, or an error. -/
def StandIn.verdict (t : StandIn) (credentials : Option String) (r : Request) (commands : UInt64) : Except Fault Json :=
  if t.admits credentials then
    ((t.perform r commands).1.map (·.1)).mapError fun e => .protocol e.1 e.2 none
  else .error (.protocol unauthorizedCode "unauthorized" none)

theorem StandIn.result_of_reply (t : StandIn) (credentials : Option String) (r : Request) (commands : UInt64) :
    (t.reply credentials r commands).1.exchange.result r.id = t.verdict credentials r commands := by
  unfold StandIn.reply StandIn.verdict
  cases t.admits credentials with
  | false => exact Exchange.result_of_failure r.id r.id 401 unauthorizedCode "unauthorized"
  | true =>
    cases h : t.perform r commands with
    | mk result commands' =>
      cases result with
      | error e => exact Exchange.result_of_failure r.id r.id 500 e.1 e.2
      | ok out => exact Exchange.result_of_success r.id (StandIn.readable_perform (congrArg Prod.fst h)) rfl

/-- A call that is answered by the stand-in gives what the stand-in makes of the request. -/
theorem StandIn.call_of_answer {σ : Type} (t : StandIn) (carrier : Carrier σ) (method : String) (params : List Json)
    (caller : Caller) (s : σ) (commands : UInt64) {a : Attempt} (ha : a ∈ caller.attempts carrier method params s)
    (hfits : a.request.Fits) {i : Incoming} (hbrings : i.Brings a.request)
    (hexchange : a.exchange = (t.answer i commands).1.exchange) :
    (caller.call carrier method params s).1 = t.verdict i.credentials a.request commands := by
  have hresult : a.result = t.verdict i.credentials a.request commands := by
    rw [Attempt.result, hexchange, StandIn.answer, hbrings.requestOf hfits]
    exact t.result_of_reply i.credentials a.request commands
  rw [caller.call_of_attempt carrier method params s ha, hresult]
  rw [hresult, StandIn.verdict]
  split
  · cases (t.perform a.request commands).1 <;> rfl
  · rfl

end Conformance.Service
