import Conformance.Ports.Listening
import Conformance.Proofs.Text.Hexadecimal
import Conformance.Proofs.Text.Rows
import Mathlib.Data.List.Forall2
import Mathlib.Data.List.ReduceOption

/-!
# What a table of sockets shows

A row shows a socket by the two ends of it, and the socket listens on the port of its own end if the port of the other
end is 0000. From a table the ports are read that its rows show, in their order, whatever stands in the other rows
(`listeningPorts_exact`).
-/
namespace Conformance.Ports

open Text

/-- A port as it can be written in a row: hexadecimal digits in either letter case for a number of 16 bits. A plus sign
in front of them does not count. -/
structure PortNumeral where
  plus : Bool
  digits : List HexDigit
  ne_nil : digits ≠ []
  lt : hexNumber digits < portBound

/-- One end of a socket. The address is that of a host in any form, such as the eight hexadecimal digits of IPv4 and the
thirty-two of IPv6. -/
structure SocketEnd where
  address : List Char
  numeral : PortNumeral

namespace PortNumeral

/-- The characters that write the port. -/
def text (n : PortNumeral) : List Char := (if n.plus then ['+'] else []) ++ n.digits.map (·.char)

/-- The port that is written. -/
def port (n : PortNumeral) : UInt16 := UInt16.ofNat (hexNumber n.digits)

theorem readBelow?_text (n : PortNumeral) : readBelow? 16 portBound n.text = some (hexNumber n.digits) :=
  readBelow?_sixteen_eq_some_iff.2 ⟨n.lt, n.plus, n.digits, n.ne_nil, rfl, rfl⟩

/-- Nothing is read but what writes a port. -/
theorem exists_of_readBelow? {cs : List Char} {value : Nat} (h : readBelow? 16 portBound cs = some value) :
    ∃ n : PortNumeral, cs = n.text := by
  obtain ⟨hlt, plus, digits, hne, hcs, rfl⟩ := readBelow?_sixteen_eq_some_iff.1 h
  exact ⟨⟨plus, digits, hne, hlt⟩, hcs⟩

theorem colon_not_mem (n : PortNumeral) : ':' ∉ n.text := by
  have hdigit : ∀ d : HexDigit, d.char ≠ ':' := by
    have hall : ∀ value : Fin 16, ∀ upper : Bool, (HexDigit.mk value upper).char ≠ ':' := by decide
    intro d
    exact hall d.value d.upper
  intro hmem
  rcases List.mem_append.1 hmem with hmem | hmem
  · cases hplus : n.plus <;> simp [hplus] at hmem
  · obtain ⟨d, -, hd⟩ := List.mem_map.1 hmem
    exact hdigit d hd

/-- The port of the end of a socket that is not connected, with its four digits. -/
def unset : PortNumeral where
  plus := false
  digits := List.replicate 4 ⟨0, false⟩
  ne_nil := by decide
  lt := by decide

theorem text_unset : unset.text = ['0', '0', '0', '0'] := by decide

end PortNumeral

/-- The characters that write the end of a socket. -/
def SocketEnd.text (e : SocketEnd) : List Char := e.address ++ ':' :: e.numeral.text

/-- The field does not write the end of a socket: it has no colon, or no port stands behind its last colon. -/
def NoEnd (field : List Char) : Prop :=
  ':' ∉ field ∨ ∃ address port, field = address ++ ':' :: port ∧ ':' ∉ port ∧ ∀ n : PortNumeral, port ≠ n.text

/-- What a row shows: the port that a socket listens on, or nothing. -/
inductive RowShows : List Char → Option UInt16 → Prop
  | listening {row index : List Char} {here remote : SocketEnd} {further : List (List Char)}
      (h : Fields row (index :: here.text :: remote.text :: further))
      (hremote : remote.numeral.text = ['0', '0', '0', '0']) : RowShows row (some here.numeral.port)
  | connected {row index : List Char} {here remote : SocketEnd} {further : List (List Char)}
      (h : Fields row (index :: here.text :: remote.text :: further))
      (hremote : remote.numeral.text ≠ ['0', '0', '0', '0']) : RowShows row none
  | tooFew {row : List Char} {fields : List (List Char)} (h : Fields row fields) (hfew : fields.length < 3) :
      RowShows row none
  | noEnd {row field : List Char} {fields : List (List Char)} (h : Fields row fields)
      (hfield : fields[1]? = some field ∨ fields[2]? = some field) (hnone : NoEnd field) : RowShows row none

/-! ## The ends of a socket -/

/-- The last colon stands where the port begins. -/
theorem breakAtLast?_colon (address : List Char) {port : List Char} (h : ':' ∉ port) :
    breakAtLast? (· = ':') (address ++ ':' :: port) = some (address, port) := by
  refine breakAtLast?_eq_some_iff.2 ⟨':', rfl, by decide, fun c hc => ?_⟩
  rw [decide_eq_false_iff_not]
  rintro rfl
  exact h hc

theorem colon_split_inj {a b p q : List Char} (hp : ':' ∉ p) (hq : ':' ∉ q) (h : a ++ ':' :: p = b ++ ':' :: q) :
    a = b ∧ p = q := by
  have hsplit := breakAtLast?_colon a hp
  rw [h, breakAtLast?_colon _ hq] at hsplit
  obtain ⟨rfl, rfl⟩ := Prod.mk.inj (Option.some.inj hsplit)
  exact ⟨rfl, rfl⟩

/-- A field ends in `:0000` exactly if this is the port behind its last colon. -/
theorem dropSuffix?_unset_iff (address : List Char) {port : List Char} (h : ':' ∉ port) :
    (dropSuffix? [':', '0', '0', '0', '0'] (address ++ ':' :: port)).isSome ↔ port = ['0', '0', '0', '0'] := by
  rw [Option.isSome_iff_exists]
  constructor
  · rintro ⟨front, hfront⟩
    exact (colon_split_inj h (by decide) (dropSuffix?_eq_some_iff.1 hfront)).2
  · rintro rfl
    exact ⟨address, dropSuffix?_eq_some_iff.2 rfl⟩

/-- A field writes the end of a socket or does not. -/
theorem exists_end_or_noEnd (field : List Char) : (∃ e : SocketEnd, field = e.text) ∨ NoEnd field := by
  by_cases hcolon : ':' ∈ field
  · -- the last colon is the first one from the back
    obtain ⟨back, front, hsplit, hback⟩ := List.eq_append_cons_of_mem (List.mem_reverse.2 hcolon)
    have hfield : field = front.reverse ++ ':' :: back.reverse := by
      rw [← List.reverse_reverse field, hsplit]
      simp
    have hport : ':' ∉ back.reverse := by simpa using hback
    by_cases hnumeral : ∃ n : PortNumeral, back.reverse = n.text
    · obtain ⟨n, hn⟩ := hnumeral
      exact .inl ⟨⟨front.reverse, n⟩, by rw [hfield, hn, SocketEnd.text]⟩
    · exact .inr (.inr ⟨_, _, hfield, hport, fun n hn => hnumeral ⟨n, hn⟩⟩)
  · exact .inr (.inl hcolon)

theorem NoEnd.dropSuffix?_eq_none {field : List Char} (h : NoEnd field) :
    dropSuffix? [':', '0', '0', '0', '0'] field = none := by
  rw [Option.eq_none_iff_forall_ne_some]
  intro front hfront
  have hfield : field = front ++ ':' :: PortNumeral.unset.text := by
    rw [PortNumeral.text_unset]
    exact dropSuffix?_eq_some_iff.1 hfront
  rcases h with hcolon | ⟨address, port, hsplit, hport, hnone⟩
  · apply hcolon
    rw [hfield]
    exact List.mem_append_right _ List.mem_cons_self
  · rw [hsplit] at hfield
    exact hnone _ (colon_split_inj hport PortNumeral.unset.colon_not_mem hfield).2

theorem NoEnd.no_port {field : List Char} (h : NoEnd field) :
    (breakAtLast? (· = ':') field).bind (fun found => readBelow? 16 portBound found.2) = none := by
  rcases h with hcolon | ⟨address, port, rfl, hport, hnone⟩
  · have hbreak : breakAtLast? (· = ':') field = none := by
      rw [Option.eq_none_iff_forall_ne_some]
      intro found hfound
      obtain ⟨c, hfield, hc, -⟩ := breakAtLast?_eq_some_iff.1 hfound
      apply hcolon
      rw [hfield, ← of_decide_eq_true hc]
      exact List.mem_append_right _ List.mem_cons_self
    rw [hbreak]
    rfl
  · rw [breakAtLast?_colon _ hport, Option.bind_some, Option.eq_none_iff_forall_ne_some]
    intro value hvalue
    obtain ⟨n, hn⟩ := PortNumeral.exists_of_readBelow? hvalue
    exact hnone n hn

/-! ## Rows -/

/-- What is read of a row with three fields at least. -/
theorem listeningPort?_of_fields {row index here remote : List Char} {further : List (List Char)}
    (h : Fields row (index :: here :: remote :: further)) :
    listeningPort? row =
      if (dropSuffix? [':', '0', '0', '0', '0'] remote).isSome then
        ((breakAtLast? (· = ':') here).bind fun found => readBelow? 16 portBound found.2).map UInt16.ofNat
      else none := by
  rw [listeningPort?, h.words_eq]
  show (dropSuffix? [':', '0', '0', '0', '0'] remote).bind (fun _ => (breakAtLast? (· = ':') here).bind fun found =>
    (readBelow? 16 portBound found.2).bind fun n => some (UInt16.ofNat n)) = _
  cases dropSuffix? [':', '0', '0', '0', '0'] remote with
  | none => rfl
  | some front =>
    cases breakAtLast? (· = ':') here with
    | none => rfl
    | some found =>
      rw [Option.bind_some, Option.bind_some, Option.bind_some]
      cases readBelow? 16 portBound found.2 <;> rfl

/-- A row has too few fields, or three of them at least. -/
theorem few_or_three (fields : List (List Char)) :
    fields.length < 3 ∨ ∃ index here remote further, fields = index :: here :: remote :: further := by
  rcases fields with - | ⟨index, - | ⟨here, - | ⟨remote, further⟩⟩⟩
  · exact .inl (by simp)
  · exact .inl (by simp)
  · exact .inl (by simp)
  · exact .inr ⟨index, here, remote, further, rfl⟩

theorem listeningPort?_of_few {row : List Char} {fields : List (List Char)} (h : Fields row fields)
    (hfew : fields.length < 3) : listeningPort? row = none := by
  rw [listeningPort?, h.words_eq]
  rcases fields with - | ⟨index, - | ⟨here, - | ⟨remote, further⟩⟩⟩
  · rfl
  · rfl
  · rfl
  · rw [List.length_cons, List.length_cons, List.length_cons] at hfew
    omega

/-- What is read of a row is what it shows. -/
theorem RowShows.listeningPort?_eq {row : List Char} {shown : Option UInt16} (h : RowShows row shown) :
    listeningPort? row = shown := by
  cases h with
  | @listening index here remote further h hremote =>
    rw [listeningPort?_of_fields h, SocketEnd.text, if_pos ((dropSuffix?_unset_iff _ (by rw [hremote]; decide)).2 hremote),
      SocketEnd.text, breakAtLast?_colon _ here.numeral.colon_not_mem, Option.bind_some, here.numeral.readBelow?_text]
    rfl
  | @connected index here remote further h hremote =>
    have hconnected := mt (dropSuffix?_unset_iff remote.address remote.numeral.colon_not_mem).1 hremote
    rw [listeningPort?_of_fields h, SocketEnd.text, if_neg hconnected]
  | tooFew h hfew => exact listeningPort?_of_few h hfew
  | @noEnd field fields h hfield hnone =>
    rcases few_or_three fields with hfew | ⟨index, here, remote, further, rfl⟩
    · exact listeningPort?_of_few h hfew
    rw [listeningPort?_of_fields h]
    rcases hfield with hhere | hremote
    · obtain rfl : here = field := Option.some.inj hhere
      rw [hnone.no_port]
      simp
    · obtain rfl : remote = field := Option.some.inj hremote
      rw [hnone.dropSuffix?_eq_none]
      rfl

/-- Each row shows something. -/
theorem exists_rowShows (row : List Char) : ∃ shown, RowShows row shown := by
  obtain ⟨fields, h⟩ := exists_fields row
  rcases few_or_three fields with hfew | ⟨index, here, remote, further, rfl⟩
  · exact ⟨none, .tooFew h hfew⟩
  rcases exists_end_or_noEnd here with ⟨here, rfl⟩ | hnone
  · rcases exists_end_or_noEnd remote with ⟨remote, rfl⟩ | hnone
    · by_cases hremote : remote.numeral.text = ['0', '0', '0', '0']
      · exact ⟨_, .listening h hremote⟩
      · exact ⟨_, .connected h hremote⟩
    · exact ⟨none, .noEnd h (.inr rfl) hnone⟩
  · exact ⟨none, .noEnd h (.inl rfl) hnone⟩

/-- What a row shows is what is read of it. -/
theorem rowShows_iff {row : List Char} {shown : Option UInt16} : RowShows row shown ↔ listeningPort? row = shown := by
  constructor
  · exact RowShows.listeningPort?_eq
  · rintro rfl
    obtain ⟨shown, h⟩ := exists_rowShows row
    exact h.listeningPort?_eq ▸ h

/-! ## Tables -/

/-- From a table that is put together from a heading and rows, the ports are read that the rows show, in their order. A
row shows the port of its own end of a socket if the port of the other end is 0000. It shows nothing if that is another
one, if it has fewer than three fields, or if the second or third of them has no colon or no port of 16 bits behind its
last colon; and each row shows something or nothing, whatever the others show. -/
theorem listeningPorts_exact {heading : List Char} {rows : List (List Char)} {shown : List (Option UInt16)}
    (hheading : '\n' ∉ heading) (hrows : ∀ row ∈ rows, '\n' ∉ row) (h : List.Forall₂ RowShows rows shown)
    (ended : Bool) :
    listeningPorts (String.ofList (textOfLines heading rows ended)) = shown.reduceOption ∧
      ∀ row, ∃! port, RowShows row port := by
  have hblank : listeningPort? [] = none := rfl
  have hcr : ∀ l, listeningPort? (l ++ ['\r']) = listeningPort? l := by
    intro l
    have hreturn : ∀ c ∈ ['\r'], isWhite c = true := by
      intro c hc
      rw [List.mem_singleton.1 hc]
      decide
    have hwords : words (l ++ ['\r']) = words l := runs_append_blanks hreturn l
    rw [listeningPort?, listeningPort?, hwords]
  have hshown : rows.filterMap listeningPort? = shown.reduceOption := by
    clear hrows
    induction h with
    | nil => rfl
    | @cons row port rows shown hrow _ ih =>
      rw [List.filterMap_cons, hrow.listeningPort?_eq, ih]
      cases port <;> rfl
  refine ⟨?_, fun row => ?_⟩
  · rw [listeningPorts, String.toList_ofList, filterMap_lines_textOfLines hblank hcr hheading hrows, hshown]
  · exact ⟨listeningPort? row, rowShows_iff.2 rfl, fun other hother => hother.listeningPort?_eq.symm⟩

/-- A table of four rows: a listening socket of IPv4, a connected one of IPv6, a row without a colon in its third field,
and a listening socket with its port in small letters and tabs between the fields. -/
theorem listeningPorts_exact_four_rows :
    let rows := ["   0: 0100007F:7530 00000000:0000 0A 00000000:00000000".toList,
      "   1: 00000000000000000000000001000000:7531 00000000000000000000000001000000:9C40 01".toList,
      "   2: 0100007F:7532 00000000 0A".toList, "3:\t00000000:1f90\t00000000:0000".toList]
    let shown := [some 30000, none, none, some 8080]
    ('\n' ∉ "  sl  local_address rem_address".toList ∧ (∀ row ∈ rows, '\n' ∉ row) ∧ List.Forall₂ RowShows rows shown) ∧
      listeningPorts (String.ofList (textOfLines "  sl  local_address rem_address".toList rows true)) = [30000, 8080] := by
  intro rows shown
  have hheading : '\n' ∉ "  sl  local_address rem_address".toList := by decide
  have hrows : ∀ row ∈ rows, '\n' ∉ row := by
    simp only [rows, List.forall_mem_cons]
    decide
  have hshown : List.Forall₂ RowShows rows shown := by
    simp only [rows, shown, List.forall₂_cons, List.Forall₂.nil, rowShows_iff]
    decide +kernel
  exact ⟨⟨hheading, hrows, hshown⟩, (listeningPorts_exact hheading hrows hshown true).1⟩

/-- The digits behind a plus sign are read as a port, although the sign is no hexadecimal digit. -/
theorem plus_sign_passed_over :
    listeningPorts "  sl  local_address rem_address\n   0: 0100007F:+1F9 00000000:0000 0A\n" = [505] ∧
      ∀ ds : List HexDigit, "+1F9".toList ≠ ds.map (·.char) := by
  refine ⟨by decide +kernel, ?_⟩
  intro ds hds
  have hnumber : natIn? 16 (ds.map (·.char)) = none := by
    rw [← hds]
    decide
  cases ds with
  | nil => cases hds
  | cons d ds =>
    rw [natIn?_eq_some_iff.2 ⟨d :: ds, List.cons_ne_nil d ds, rfl, rfl⟩] at hnumber
    cases hnumber

end Conformance.Ports
