import Conformance.Json.Reader
import Conformance.Proofs.Text.Decimal

/-!
# Numbers as they are written

A number of a JSON text is a sign, a whole part, a fraction and an exponent. The reader takes exactly the numbers that
are written so (`number?_text`, `number?_inv`), and keeps of each its text, except that the exponent is brought into one form.
A number without an exponent is therefore kept as it is written (`Numeral.text_kept`).
-/
namespace Conformance.Json

/-- At least one decimal digit, and nothing else. -/
def Digits (cs : List Char) : Prop := cs ≠ [] ∧ ∀ c ∈ cs, c.isDigit = true

theorem digits_iff {cs : List Char} : Digits cs ↔ cs ≠ [] ∧ cs.all Char.isDigit = true := by
  rw [Digits, List.all_eq_true]

-- the characters of the text are looked at, not all there are
instance (cs : List Char) : Decidable (Digits cs) := decidable_of_iff _ digits_iff.symm

/-- The exponent of a number as it is written. -/
structure Exponent where
  mark : Char
  sign : Option Char
  digits : List Char
  mark_eq : mark = 'e' ∨ mark = 'E'
  sign_eq : ∀ c ∈ sign, c = '+' ∨ c = '-'
  isDigits : Digits digits

/-- The text of the exponent. -/
def Exponent.text (e : Exponent) : List Char := e.mark :: (e.sign.toList ++ e.digits)

/-- The exponent in the form in which it is kept. -/
def Exponent.kept (e : Exponent) : Exponent where
  mark := 'e'
  sign := some (e.sign.getD '+')
  digits := e.digits
  mark_eq := .inl rfl
  sign_eq c hc := by
    obtain rfl : e.sign.getD '+' = c := Option.some.inj hc
    cases h : e.sign with
    | none => exact .inl rfl
    | some c => exact e.sign_eq c h
  isDigits := e.isDigits

/-- A number as it is written. -/
structure Numeral where
  negative : Bool
  whole : List Char
  fraction : Option (List Char)
  exponent : Option Exponent
  whole_digits : Digits whole
  /-- Only a zero alone starts with a zero. -/
  whole_zero : whole.head? = some '0' → whole = ['0']
  fraction_digits : ∀ ds ∈ fraction, Digits ds

namespace Numeral

/-- The text of a fraction with its point. -/
def fractionText (fraction : Option (List Char)) : List Char := (fraction.map ('.' :: ·)).getD []

/-- The text of the number. -/
def text (n : Numeral) : List Char :=
  (if n.negative then ['-'] else []) ++ n.whole ++ fractionText n.fraction ++ (n.exponent.map (·.text)).getD []

/-- The number in the form in which it is kept. -/
def kept (n : Numeral) : Numeral := { n with exponent := n.exponent.map (·.kept) }

/-- A number without an exponent is kept with exactly its sign, digits and fraction. -/
theorem text_kept {n : Numeral} (h : n.exponent = none) : n.kept.text = n.text := by
  rw [text, text, kept, h]
  rfl

theorem exponent_eq_none {n : Numeral} (he : 'e' ∉ n.text) (hE : 'E' ∉ n.text) : n.exponent = none := by
  cases h : n.exponent with
  | none => rfl
  | some e =>
    have hmark : e.mark ∈ n.text := by simp [text, h, Exponent.text]
    rcases e.mark_eq with hm | hm
    · exact absurd (hm ▸ hmark) he
    · exact absurd (hm ▸ hmark) hE

theorem kept_kept (n : Numeral) : n.kept.kept = n.kept := by
  obtain ⟨negative, whole, fraction, exponent, hwhole, hzero, hfraction⟩ := n
  cases exponent <;> rfl

/-- There are no digits behind the point when there is no point. -/
theorem digits_of_mem_none (ds : List Char) (h : ds ∈ none) : Digits ds := absurd h (Option.not_mem_none ds)

/-- The decimal form of an integer. -/
def ofInt (n : Int) : Numeral where
  negative := decide (n < 0)
  whole := Nat.toDigits 10 n.natAbs
  fraction := none
  exponent := none
  whole_digits := ⟨Nat.toDigits_ne_nil, Text.isDigit_of_mem_toDigits⟩
  whole_zero := Text.toDigits_eq_of_head
  fraction_digits := digits_of_mem_none

theorem text_ofInt (n : Int) : (ofInt n).text = (toString n).toList := by
  have hplain : (ofInt n).text = (if n < 0 then ['-'] else []) ++ Nat.toDigits 10 n.natAbs := by
    simp [text, ofInt, fractionText]
  rw [hplain, Text.toList_toString_int]
  by_cases h : n < 0
  · rw [if_pos h, if_neg (by omega), show n.natAbs = (-n).toNat by omega]
    rfl
  · rw [if_neg h, if_pos (by omega), show n.natAbs = n.toNat by omega]
    rfl

end Numeral

/-- The text does not go on with anything that belongs to a number. -/
def EndsNumber (rest : List Char) : Prop :=
  ∀ c ∈ rest.head?, c.isDigit = false ∧ c ≠ '.' ∧ c ≠ 'e' ∧ c ≠ 'E'

theorem EndsNumber.not_digit {rest : List Char} (h : EndsNumber rest) : ∀ c ∈ rest.head?, c.isDigit = false :=
  fun c hc => (h c hc).1

/-! ## The parts of a number -/

theorem takeWhile_digits {ds rest : List Char} (hds : Digits ds) (hrest : ∀ c ∈ rest.head?, c.isDigit = false) :
    (ds ++ rest).takeWhile Char.isDigit = ds ∧ (ds ++ rest).dropWhile Char.isDigit = rest := by
  rw [List.takeWhile_append_of_pos hds.2, List.dropWhile_append_of_pos hds.2]
  cases rest with
  | nil => simp
  | cons c r =>
    have hc := hrest c rfl
    simp [hc]

theorem digits?_append {ds rest : List Char} (hds : Digits ds) (hrest : ∀ c ∈ rest.head?, c.isDigit = false) :
    digits? (ds ++ rest) = some (ds, rest) := by
  obtain ⟨htake, hdrop⟩ := takeWhile_digits hds hrest
  rw [digits?, htake, hdrop]
  cases ds with
  | nil => exact absurd rfl hds.1
  | cons d ds => rfl

theorem digits?_inv {cs ds rest : List Char} (h : digits? cs = some (ds, rest)) : cs = ds ++ rest ∧ Digits ds := by
  unfold digits? at h
  split at h
  · contradiction
  · rename_i hne
    obtain ⟨rfl, rfl⟩ : cs.takeWhile Char.isDigit = ds ∧ cs.dropWhile Char.isDigit = rest := by simpa using h
    exact ⟨List.takeWhile_append_dropWhile.symm, hne, List.all_eq_true.1 List.all_takeWhile⟩

/-- A whole part does not go on with a further digit. -/
theorem whole?_append {ds rest : List Char} (hds : Digits ds) (hzero : ds.head? = some '0' → ds = ['0'])
    (hrest : ∀ c ∈ rest.head?, c.isDigit = false) : whole? (ds ++ rest) = some (ds, rest) := by
  cases ds with
  | nil => exact absurd rfl hds.1
  | cons d ds =>
    by_cases hd : d = '0'
    · subst hd
      obtain rfl : ds = [] := (List.cons.inj (hzero rfl)).2
      cases rest with
      | nil => rfl
      | cons c r =>
        have hc := hrest c rfl
        simp [whole?, hc]
    · rw [List.cons_append, whole?]
      · exact digits?_append hds hrest
      · intro r h
        exact hd (List.cons.inj h).1

theorem whole?_inv {cs ds rest : List Char} (h : whole? cs = some (ds, rest)) :
    cs = ds ++ rest ∧ Digits ds ∧ (ds.head? = some '0' → ds = ['0']) := by
  have hzero : Digits ['0'] := by decide
  unfold whole? at h
  split at h
  · split at h
    · split at h
      · contradiction
      · obtain ⟨rfl, rfl⟩ : ['0'] = ds ∧ _ = rest := by simpa using h
        exact ⟨rfl, hzero, fun _ => rfl⟩
    · obtain ⟨rfl, rfl⟩ : ['0'] = ds ∧ [] = rest := by simpa using h
      exact ⟨rfl, hzero, fun _ => rfl⟩
  · rename_i hne
    obtain ⟨rfl, hds⟩ := digits?_inv h
    refine ⟨rfl, hds, fun hhead => ?_⟩
    obtain ⟨d, ds', rfl⟩ := List.exists_cons_of_ne_nil hds.1
    obtain rfl : d = '0' := Option.some.inj hhead
    exact absurd rfl (hne (ds' ++ rest))

theorem fraction?_append {fraction : Option (List Char)} {rest : List Char} (h : ∀ ds ∈ fraction, Digits ds)
    (hrest : ∀ c ∈ rest.head?, c.isDigit = false ∧ c ≠ '.') :
    fraction? (Numeral.fractionText fraction ++ rest) = some (Numeral.fractionText fraction, rest) := by
  cases fraction with
  | none =>
    show fraction? rest = some ([], rest)
    rw [fraction?]
    intro r hr
    exact (hrest '.' (by rw [hr]; rfl)).2 rfl
  | some ds =>
    show (digits? (ds ++ rest)).map _ = _
    rw [digits?_append (h ds rfl) fun c hc => (hrest c hc).1]
    rfl

theorem fraction?_inv {cs text rest : List Char} (h : fraction? cs = some (text, rest)) :
    ∃ fraction, cs = Numeral.fractionText fraction ++ rest ∧ text = Numeral.fractionText fraction ∧
      ∀ ds ∈ fraction, Digits ds := by
  unfold fraction? at h
  split at h
  · obtain ⟨⟨ds, r⟩, hds, he⟩ := Option.map_eq_some_iff.1 h
    obtain ⟨rfl, rfl⟩ : '.' :: ds = text ∧ r = rest := by simpa using he
    obtain ⟨rfl, hdigits⟩ := digits?_inv hds
    exact ⟨some ds, rfl, rfl, fun _ h => Option.some.inj h ▸ hdigits⟩
  · obtain ⟨rfl, rfl⟩ : [] = text ∧ cs = rest := by simpa using h
    exact ⟨none, rfl, rfl, fun _ h => by cases h⟩

theorem exponent?_text (e : Exponent) {rest : List Char} (hrest : ∀ c ∈ rest.head?, c.isDigit = false) :
    exponent? (e.text ++ rest) = some (e.kept.text, rest) := by
  obtain ⟨mark, sign, digits, hmark, hsign, hdigits⟩ := e
  have hmark : (mark = 'e' || mark = 'E') = true := by simpa using hmark
  have hread := digits?_append hdigits hrest
  show exponent? (mark :: (sign.toList ++ digits ++ rest)) = some ('e' :: sign.getD '+' :: digits, rest)
  rw [List.append_assoc]
  unfold exponent?
  dsimp only
  rw [if_pos hmark]
  cases sign with
  | some c =>
    rcases hsign c rfl with rfl | rfl
    · show (digits? (digits ++ rest)).map (fun r => ('e' :: '+' :: r.1, r.2)) = _
      rw [hread]
      rfl
    · show (digits? (digits ++ rest)).map (fun r => ('e' :: '-' :: r.1, r.2)) = _
      rw [hread]
      rfl
  | none =>
    -- the first digit is not taken for a sign
    obtain ⟨d, ds, rfl⟩ := List.exists_cons_of_ne_nil hdigits.1
    have hd := hdigits.2 d List.mem_cons_self
    split
    · rename_i h
      obtain rfl : d = '+' := (List.cons.inj h).1
      exact absurd hd (by decide)
    · rename_i h
      obtain rfl : d = '-' := (List.cons.inj h).1
      exact absurd hd (by decide)
    · rw [Option.toList_none, List.nil_append, hread]
      rfl

theorem exponent?_of_none {rest : List Char} (h : ∀ c ∈ rest.head?, c ≠ 'e' ∧ c ≠ 'E') :
    exponent? rest = some ([], rest) := by
  cases rest with
  | nil => rfl
  | cons c r =>
    obtain ⟨he, hE⟩ := h c rfl
    simp [exponent?, he, hE]

theorem exponent?_inv {cs text rest : List Char} (h : exponent? cs = some (text, rest)) :
    (cs = rest ∧ text = []) ∨ ∃ e : Exponent, cs = e.text ++ rest ∧ text = e.kept.text := by
  unfold exponent? at h
  split at h
  · rename_i c r
    split at h
    · rename_i hmark
      have hmark : c = 'e' ∨ c = 'E' := by simpa using hmark
      refine .inr ?_
      split at h
      all_goals
        obtain ⟨⟨ds, r'⟩, hds, he⟩ := Option.map_eq_some_iff.1 h
        obtain ⟨rfl, rfl⟩ : _ = text ∧ r' = rest := by simpa using he
        obtain ⟨rfl, hdigits⟩ := digits?_inv hds
      · exact ⟨⟨c, some '+', ds, hmark, fun _ h => .inl (Option.some.inj h).symm, hdigits⟩, rfl, rfl⟩
      · exact ⟨⟨c, some '-', ds, hmark, fun _ h => .inr (Option.some.inj h).symm, hdigits⟩, rfl, rfl⟩
      · exact ⟨⟨c, none, ds, hmark, fun _ h => (by cases h), hdigits⟩, rfl, rfl⟩
    · obtain ⟨rfl, rfl⟩ : [] = text ∧ c :: r = rest := by simpa using h
      exact .inl ⟨rfl, rfl⟩
  · obtain ⟨rfl, rfl⟩ : [] = text ∧ [] = rest := by simpa using h
    exact .inl ⟨rfl, rfl⟩

/-! ## Whole numbers -/

/-- The reader of a number, one part after the other. -/
theorem number?_signed (negative : Bool) {cs : List Char} (h : cs.head? ≠ some '-') :
    number? ((if negative then ['-'] else []) ++ cs) =
      (whole? cs).bind fun w => (fraction? w.2).bind fun f => (exponent? f.2).bind fun e =>
        some ((if negative then ['-'] else []) ++ w.1 ++ f.1 ++ e.1, e.2) := by
  cases negative with
  | true => rfl
  | false =>
    show number? cs = _
    cases cs with
    | nil => rfl
    | cons c r =>
      have hc : c ≠ '-' := fun hc => h (by rw [hc]; rfl)
      unfold number?
      split
      rename_i sign rest heq
      split at heq
      · rename_i hminus
        exact absurd (List.cons.inj hminus).1 hc
      · obtain ⟨rfl, rfl⟩ := Prod.mk.inj heq
        rfl

/-- A number is read as it is written, and what follows it is left. -/
theorem number?_text (n : Numeral) {rest : List Char} (h : EndsNumber rest) :
    number? (n.text ++ rest) = some (n.kept.text, rest) := by
  obtain ⟨d, ds, hwhole⟩ := List.exists_cons_of_ne_nil n.whole_digits.1
  have hd := n.whole_digits.2 d (hwhole ▸ List.mem_cons_self)
  have hexponent : exponent? ((n.exponent.map (·.text)).getD [] ++ rest) =
      some ((n.kept.exponent.map (·.text)).getD [], rest) := by
    rw [Numeral.kept]
    cases n.exponent with
    | none => exact exponent?_of_none fun c hc => (h c hc).2.2
    | some e => exact exponent?_text e h.not_digit
  -- what follows the whole part, and what follows the fraction, is no further digit
  have hbehind : ∀ c ∈ ((n.exponent.map (·.text)).getD [] ++ rest).head?, c.isDigit = false ∧ c ≠ '.' := by
    cases n.exponent with
    | none => exact fun c hc => ⟨(h c hc).1, (h c hc).2.1⟩
    | some e =>
      intro c hc
      obtain rfl : e.mark = c := Option.some.inj hc
      rcases e.mark_eq with hm | hm <;> rw [hm] <;> decide
  have hfraction := fraction?_append n.fraction_digits hbehind
  have hpoint : ∀ c ∈ (Numeral.fractionText n.fraction ++ ((n.exponent.map (·.text)).getD [] ++ rest)).head?,
      c.isDigit = false := by
    cases n.fraction with
    | none => exact fun c hc => (hbehind c hc).1
    | some ds =>
      intro c hc
      obtain rfl : '.' = c := Option.some.inj hc
      decide
  have hwhole' := whole?_append n.whole_digits n.whole_zero hpoint
  have hhead : (n.whole ++ (Numeral.fractionText n.fraction ++ ((n.exponent.map (·.text)).getD [] ++ rest))).head? ≠
      some '-' := by
    rw [hwhole]
    intro hminus
    obtain rfl : d = '-' := Option.some.inj hminus
    contradiction
  rw [Numeral.text, List.append_assoc, List.append_assoc, List.append_assoc, number?_signed n.negative hhead, hwhole',
    Option.bind_some, hfraction, Option.bind_some, hexponent, Option.bind_some]
  rfl

/-- What is read as a number is written so. -/
theorem number?_inv {cs text rest : List Char} (h : number? cs = some (text, rest)) :
    ∃ n : Numeral, cs = n.text ++ rest ∧ text = n.kept.text := by
  -- the sign first, then each part hands on what it leaves
  obtain ⟨negative, cs, rfl, hhead⟩ : ∃ negative, ∃ cs', cs = (if negative then ['-'] else []) ++ cs' ∧
      (negative = true ∨ cs'.head? ≠ some '-') := by
    cases cs with
    | nil => exact ⟨false, [], rfl, .inr (by simp)⟩
    | cons c r =>
      by_cases hc : c = '-'
      · exact ⟨true, r, by rw [hc]; rfl, .inl rfl⟩
      · exact ⟨false, c :: r, rfl, .inr fun h => hc (Option.some.inj h)⟩
  have hparts : number? ((if negative then ['-'] else []) ++ cs) =
      (whole? cs).bind fun w => (fraction? w.2).bind fun f => (exponent? f.2).bind fun e =>
        some ((if negative then ['-'] else []) ++ w.1 ++ f.1 ++ e.1, e.2) := by
    rcases hhead with rfl | hhead
    · rfl
    · exact number?_signed negative hhead
  rw [hparts] at h
  obtain ⟨⟨whole, r₁⟩, hw, h⟩ := Option.bind_eq_some_iff.1 h
  obtain ⟨⟨ftext, r₂⟩, hf, h⟩ := Option.bind_eq_some_iff.1 h
  obtain ⟨⟨etext, r₃⟩, he, heq⟩ := Option.bind_eq_some_iff.1 h
  obtain ⟨rfl, rfl⟩ : _ = text ∧ r₃ = rest := by simpa using heq
  obtain ⟨rfl, hdigits, hzero⟩ := whole?_inv hw
  obtain ⟨fraction, hr₁, rfl, hfraction⟩ := fraction?_inv hf
  rcases exponent?_inv he with ⟨hr₂, rfl⟩ | ⟨e, hr₂, rfl⟩
  · refine ⟨⟨negative, whole, fraction, none, hdigits, hzero, hfraction⟩, ?_, ?_⟩
    · dsimp only at hr₁ hr₂
      rw [hr₁, hr₂]
      simp only [Numeral.text, List.append_assoc]
      rfl
    · simp only [Numeral.text, Numeral.kept, List.append_assoc]
      rfl
  · refine ⟨⟨negative, whole, fraction, some e, hdigits, hzero, hfraction⟩, ?_, ?_⟩
    · dsimp only at hr₁ hr₂
      rw [hr₁, hr₂]
      simp only [Numeral.text, List.append_assoc]
      rfl
    · simp only [Numeral.text, Numeral.kept, List.append_assoc]
      rfl

end Conformance.Json
