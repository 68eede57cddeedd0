import Conformance.Service.Ready

/-!
# The wait for a service

A wait asks for the status of a service again and again: its `Poll.Course` is the attempts that it makes, one behind
another. How many there are is bounded by the ceiling of the schedule, since no sleep takes less than what it is asked
to and none is asked to go on behind the ceiling (`Backoff.Proper.delayAfter_bounds`). A wait that begins in a state,
with as much fuel as there are attempts or more, comes to what its course says (`Poll.Course.eq`).
-/
namespace Conformance.Service

/-! ## What exchanges keep -/

section Keeps

variable {τ : Type} {P : τ → Prop}

/-- What exchanges keep is kept by a call. -/
theorem Caller.call_keeps {carrier : Carrier τ}
    (hexchange : ∀ endpoint request t, P t → P (carrier.exchange endpoint request t).2) (method : String)
    (params : List Json) (caller : Caller) {t : τ} (ht : P t) : P (caller.call carrier method params t).2.2 := by
  have honce : ∀ (caller : Caller) {t : τ}, P t → P (caller.callOnce carrier method params t).2.2 :=
    fun caller t ht => hexchange _ _ t ht
  have hfirst := honce caller ht
  rw [Caller.call]
  split
  · rename_i hmismatch
    rw [hmismatch] at hfirst
    exact honce _ hfirst
  · exact hfirst

/-- What exchanges and sleeps keep is kept while a service is waited for. -/
theorem Caller.awaitReadyFrom_keeps {timed : TimedCarrier τ}
    (hexchange : ∀ endpoint request t, P t → P (timed.exchange endpoint request t).2)
    (hsleep : ∀ delay t, P t → P (timed.sleep delay t).2) (schedule : Backoff) (start n : Nat) (caller : Caller) {t : τ}
    (ht : P t) : P (caller.awaitReadyFrom timed schedule start n t).2.2 := by
  induction n generalizing caller t with
  | zero => exact ht
  | succ n ih =>
    have hcall := Caller.call_keeps hexchange statusMethod [] caller ht
    rw [Caller.awaitReadyFrom]
    split
    · rename_i hreply
      rw [hreply] at hcall
      exact hcall
    · rename_i hreply
      rw [hreply] at hcall
      exact hcall
    · rename_i hreply
      rw [hreply] at hcall
      split
      · exact hcall
      · rename_i delay _
        have hslept := hsleep delay _ hcall
        split
        · rename_i hresult
          rw [hresult] at hslept
          exact hslept
        · rename_i hresult
          rw [hresult] at hslept
          exact ih _ hslept

end Keeps

/-! ## Delays -/

namespace Backoff

variable {b : Backoff} {elapsed delay : Nat}

/-- A schedule that tells at any time how long to wait, and never not at all. -/
structure Proper (b : Backoff) : Prop where
  phases_ne : b.phases ≠ []
  interval_pos : ∀ phase ∈ b.phases, 0 < phase.2

theorem Proper.exists_interval (h : b.Proper) (elapsed : Nat) :
    ∃ interval, b.interval? elapsed = some interval ∧ 0 < interval := by
  rw [interval?]
  cases hphase : b.phases.find? fun phase => elapsed < phase.1 with
  | some phase => exact ⟨phase.2, rfl, h.interval_pos phase (List.mem_of_find?_eq_some hphase)⟩
  | none =>
    -- behind the last phase its interval goes on
    refine ⟨(b.phases.getLast h.phases_ne).2, ?_, h.interval_pos _ (List.getLast_mem h.phases_ne)⟩
    rw [Option.none_or, List.getLast?_eq_some_getLast h.phases_ne]
    rfl

theorem Proper.delayAfter_eq_none_iff (h : b.Proper) : b.delayAfter elapsed = none ↔ b.ceiling ≤ elapsed := by
  obtain ⟨interval, hinterval, -⟩ := h.exists_interval elapsed
  rw [delayAfter, hinterval]
  split <;> simp_all

/-- No sleep goes on behind the ceiling, and each of them takes some time. -/
theorem Proper.delayAfter_bounds (h : b.Proper) (hdelay : b.delayAfter elapsed = some delay) :
    0 < delay ∧ elapsed + delay ≤ b.ceiling := by
  obtain ⟨interval, hinterval, hpos⟩ := h.exists_interval elapsed
  rw [delayAfter, hinterval] at hdelay
  split at hdelay
  · cases hdelay
  · rename_i hceiling
    obtain rfl : Nat.min interval (b.ceiling - elapsed) = delay := Option.some.inj hdelay
    have hle : Nat.min interval (b.ceiling - elapsed) ≤ b.ceiling - elapsed := Nat.min_le_right _ _
    have hlt : 0 < Nat.min interval (b.ceiling - elapsed) := Nat.lt_min.2 ⟨hpos, by omega⟩
    omega

end Backoff

/-! ## The attempts of a wait -/

variable {σ : Type} {t : TimedCarrier σ} {P : σ → Prop} {schedule : Backoff} {start : Nat}

/-- In the states that `P` holds of, the clock does not go back while requests travel, a sleep takes as long as it is
asked to or longer, and nothing but a cancellation ends it before. -/
structure TimedCarrier.Steady (t : TimedCarrier σ) (P : σ → Prop) : Prop where
  exchange : ∀ endpoint request s, P s →
    P (t.exchange endpoint request s).2 ∧ t.now s ≤ t.now (t.exchange endpoint request s).2
  slept : ∀ delay s s', P s → t.sleep delay s = (.ok (), s') → P s' ∧ t.now s + delay ≤ t.now s'
  interrupted : ∀ delay s f s', P s → t.sleep delay s = (.error f, s') → f = .cancelled

/-- Where an attempt begins: who makes it, and in which state. -/
structure Poll (σ : Type) where
  caller : Caller
  state : σ

namespace Poll

/-- What comes of an attempt. -/
def done (t : TimedCarrier σ) (p : Poll σ) : Except Fault Json × Caller × σ :=
  p.caller.call t.toCarrier statusMethod [] p.state

/-- The time from `start` to the end of an attempt. -/
def elapsed (t : TimedCarrier σ) (start : Nat) (p : Poll σ) : Nat := t.now (p.done t).2.2 - start

/-- The attempt fails, and the wait has not been cancelled. -/
def Failed (t : TimedCarrier σ) (p : Poll σ) : Prop := ∃ f, (p.done t).1 = .error f ∧ f ≠ .cancelled

/-- The attempt `p` fails before the ceiling is reached, and the attempt `q` is made after a sleep. -/
structure Precedes (t : TimedCarrier σ) (schedule : Backoff) (start : Nat) (p q : Poll σ) : Prop where
  failed : p.Failed t
  elapsed_lt : p.elapsed t start < schedule.ceiling
  slept : ∃ delay, schedule.delayAfter (p.elapsed t start) = some delay ∧
    t.sleep delay (p.done t).2.2 = (.ok (), q.state)
  caller_eq : q.caller = (p.done t).2.1

/-- What a wait comes to whose last attempt is `p`. Only an attempt that fails when the ceiling is reached makes it give
up, and nothing is done then. -/
inductive Closes (t : TimedCarrier σ) (schedule : Backoff) (start : Nat) (p : Poll σ) :
    Except Fault Unit × Caller × σ → Prop
  | answered {v : Json} (hdone : (p.done t).1 = .ok v) : Closes t schedule start p (.ok (), (p.done t).2)
  | cancelled (hdone : (p.done t).1 = .error .cancelled) :
      Closes t schedule start p (.error .cancelled, (p.done t).2)
  | gaveUp (hfailed : p.Failed t) (hceiling : schedule.ceiling ≤ p.elapsed t start) :
      Closes t schedule start p (.error (.readyTimeout (schedule.ceiling / nanosPerSecond)), (p.done t).2)
  | interrupted {delay : Nat} {s : σ} (hfailed : p.Failed t) (hceiling : p.elapsed t start < schedule.ceiling)
      (hdelay : schedule.delayAfter (p.elapsed t start) = some delay)
      (hsleep : t.sleep delay (p.done t).2.2 = (.error .cancelled, s)) :
      Closes t schedule start p (.error .cancelled, (p.done t).2.1, s)

variable {p q : Poll σ} {r : Except Fault Unit × Caller × σ}

/-- An attempt is the last one, or another one follows. -/
theorem closes_or_precedes (hproper : schedule.Proper) (ht : t.Steady P) (hp : P (p.done t).2.2) :
    (∃ r, p.Closes t schedule start r) ∨ ∃ q, p.Precedes t schedule start q := by
  cases hdone : (p.done t).1 with
  | ok v => exact .inl ⟨_, .answered hdone⟩
  | error f =>
    by_cases hf : f = .cancelled
    · exact .inl ⟨_, .cancelled (hf ▸ hdone)⟩
    · have hfailed : p.Failed t := ⟨f, hdone, hf⟩
      cases hdelay : schedule.delayAfter (p.elapsed t start) with
      | none => exact .inl ⟨_, .gaveUp hfailed (hproper.delayAfter_eq_none_iff.1 hdelay)⟩
      | some delay =>
        have hlt : p.elapsed t start < schedule.ceiling := by
          have hbounds := hproper.delayAfter_bounds hdelay
          omega
        cases hsleep : t.sleep delay (p.done t).2.2 with
        | mk slept s =>
          cases slept with
          | ok _ => exact .inr ⟨⟨(p.done t).2.1, s⟩, hfailed, hlt, ⟨delay, hdelay, hsleep⟩, rfl⟩
          | error f =>
            obtain rfl := ht.interrupted delay _ f s hp hsleep
            exact .inl ⟨_, .interrupted hfailed hlt hdelay hsleep⟩

/-! ## What the loop does with an attempt -/

theorem call_eq {a : Except Fault Json} (h : (p.done t).1 = a) :
    p.caller.call t.toCarrier statusMethod [] p.state = (a, (p.done t).2.1, (p.done t).2.2) := Prod.ext h rfl

/-- Behind an attempt that fails, what the schedule says of the time and what comes of the sleep decide. -/
theorem Failed.awaitReadyFrom_eq (h : p.Failed t) (n : Nat) :
    (schedule.delayAfter (p.elapsed t start) = none → p.caller.awaitReadyFrom t schedule start (n + 1) p.state =
      (.error (.readyTimeout (schedule.ceiling / nanosPerSecond)), (p.done t).2)) ∧
    ∀ delay slept s, schedule.delayAfter (p.elapsed t start) = some delay →
      t.sleep delay (p.done t).2.2 = (slept, s) →
      (∀ f, slept = .error f →
        p.caller.awaitReadyFrom t schedule start (n + 1) p.state = (.error f, (p.done t).2.1, s)) ∧
      (slept = .ok () → p.caller.awaitReadyFrom t schedule start (n + 1) p.state =
        (p.done t).2.1.awaitReadyFrom t schedule start n s) := by
  obtain ⟨f, hf, hne⟩ := h
  rw [Caller.awaitReadyFrom, call_eq hf]
  split
  · rename_i hcall
    cases hcall
  · rename_i hcall
    cases hcall
    exact absurd rfl hne
  · rename_i hcall
    cases hcall
    rw [elapsed]
    refine ⟨fun hdelay => ?_, fun delay slept s hdelay hsleep => ⟨fun f hslept => ?_, fun hslept => ?_⟩⟩
    · rw [hdelay]
    · rw [hdelay]
      dsimp only
      rw [hsleep, hslept]
    · rw [hdelay]
      dsimp only
      rw [hsleep, hslept]

theorem Closes.eq (hproper : schedule.Proper) (h : p.Closes t schedule start r) (n : Nat) :
    p.caller.awaitReadyFrom t schedule start (n + 1) p.state = r := by
  cases h with
  | answered hdone => rw [Caller.awaitReadyFrom, call_eq hdone]
  | cancelled hdone => rw [Caller.awaitReadyFrom, call_eq hdone]
  | gaveUp hfailed hceiling => exact (hfailed.awaitReadyFrom_eq n).1 (hproper.delayAfter_eq_none_iff.2 hceiling)
  | interrupted hfailed hceiling hdelay hsleep =>
    exact ((hfailed.awaitReadyFrom_eq n).2 _ _ _ hdelay hsleep).1 _ rfl

theorem Precedes.eq (h : p.Precedes t schedule start q) (n : Nat) :
    p.caller.awaitReadyFrom t schedule start (n + 1) p.state = q.caller.awaitReadyFrom t schedule start n q.state := by
  obtain ⟨delay, hdelay, hsleep⟩ := h.slept
  rw [h.caller_eq]
  exact ((h.failed.awaitReadyFrom_eq n).2 delay _ _ hdelay hsleep).2 rfl

/-! ## The clock -/

theorem done_steady (ht : t.Steady P) (hp : P p.state) : P (p.done t).2.2 ∧ t.now p.state ≤ t.now (p.done t).2.2 :=
  Caller.call_keeps (P := fun s => P s ∧ t.now p.state ≤ t.now s)
    (fun endpoint request s hs =>
      ⟨(ht.exchange endpoint request s hs.1).1, Nat.le_trans hs.2 (ht.exchange endpoint request s hs.1).2⟩)
    statusMethod [] p.caller ⟨hp, Nat.le_refl _⟩

/-- A wait goes on in less time than it had. -/
theorem Precedes.remaining_lt (hproper : schedule.Proper) (ht : t.Steady P) (hp : P p.state)
    (hstart : start ≤ t.now p.state) (h : p.Precedes t schedule start q) :
    P q.state ∧ start ≤ t.now q.state ∧
      schedule.ceiling - (t.now q.state - start) < schedule.ceiling - (t.now p.state - start) := by
  obtain ⟨hdone, hnow⟩ := done_steady ht hp
  obtain ⟨delay, hdelay, hsleep⟩ := h.slept
  obtain ⟨hq, hslept⟩ := ht.slept delay _ q.state hdone hsleep
  have hpos := (hproper.delayAfter_bounds hdelay).1
  have hlt := h.elapsed_lt
  rw [elapsed] at hlt
  exact ⟨hq, by omega, by omega⟩

/-! ## The course of a wait -/

/-- The attempts of a wait, one behind another, and what it comes to. -/
inductive Course (t : TimedCarrier σ) (schedule : Backoff) (start : Nat) :
    List (Poll σ) → Except Fault Unit × Caller × σ → Prop
  | last {p : Poll σ} {r : Except Fault Unit × Caller × σ} (h : p.Closes t schedule start r) :
      Course t schedule start [p] r
  | more {p q : Poll σ} {later : List (Poll σ)} {r : Except Fault Unit × Caller × σ} (h : p.Precedes t schedule start q)
      (hlater : Course t schedule start (q :: later) r) : Course t schedule start (p :: q :: later) r

/-- Every wait has a course, whose length is bounded by the time that is left. -/
theorem exists_course (hproper : schedule.Proper) (ht : t.Steady P) (p : Poll σ) (hp : P p.state)
    (hstart : start ≤ t.now p.state) :
    ∃ later r, Course t schedule start (p :: later) r ∧
      later.length ≤ schedule.ceiling - (t.now p.state - start) := by
  induction hleft : schedule.ceiling - (t.now p.state - start) using Nat.strongRecOn generalizing p with
  | _ left ih =>
    rcases closes_or_precedes hproper ht (done_steady ht hp).1 with ⟨r, hcloses⟩ | ⟨q, hprecedes⟩
    · exact ⟨[], r, .last hcloses, Nat.zero_le _⟩
    · obtain ⟨hq, hqstart, hlt⟩ := hprecedes.remaining_lt hproper ht hp hstart
      obtain ⟨later, r, hcourse, hlength⟩ := ih _ (hleft ▸ hlt) q hq hqstart rfl
      refine ⟨q :: later, r, .more hprecedes hcourse, ?_⟩
      rw [List.length_cons]
      omega

namespace Course

variable {p : Poll σ} {later polls : List (Poll σ)} {r : Except Fault Unit × Caller × σ}

/-- With as much fuel as there are attempts, the loop comes to what the course says. -/
theorem eq (hproper : schedule.Proper) (h : Course t schedule start (p :: later) r) {n : Nat} (hn : later.length < n) :
    p.caller.awaitReadyFrom t schedule start n p.state = r := by
  induction later generalizing p n with
  | nil =>
    cases h with
    | last h =>
      obtain ⟨n, rfl⟩ := Nat.exists_eq_add_one.2 hn
      exact h.eq hproper n
  | cons q later ih =>
    cases h with
    | more h hlater =>
      obtain ⟨n, rfl⟩ := Nat.exists_eq_add_one.2 (Nat.zero_lt_of_lt hn)
      rw [h.eq]
      exact ih hlater (Nat.lt_of_succ_lt_succ hn)

/-- An attempt that fails when the ceiling is reached is the last one, and the wait is given up right behind it. -/
theorem eq_of_late (h : Course t schedule start polls r) {q : Poll σ} (hq : q ∈ polls) (hfailed : q.Failed t)
    (hceiling : schedule.ceiling ≤ q.elapsed t start) :
    polls.getLast? = some q ∧ r = (.error (.readyTimeout (schedule.ceiling / nanosPerSecond)), (q.done t).2) := by
  induction h with
  | last hcloses =>
    obtain rfl := List.mem_singleton.1 hq
    obtain ⟨f, hf, hne⟩ := hfailed
    refine ⟨rfl, ?_⟩
    cases hcloses with
    | answered hdone => cases hdone.symm.trans hf
    | cancelled hdone =>
      cases hdone.symm.trans hf
      exact absurd rfl hne
    | gaveUp => rfl
    | interrupted _ hlt => exact absurd hlt (Nat.not_lt.2 hceiling)
  | more hprecedes _ ih =>
    rw [List.getLast?_cons_cons]
    rcases List.mem_cons.1 hq with rfl | hq
    · exact absurd hprecedes.elapsed_lt (Nat.not_lt.2 hceiling)
    · exact ih hq

/-- No failure of an attempt is what a wait fails with, other than a cancellation. -/
theorem cancelled_or_late (h : Course t schedule start polls r) {f : Fault} (hr : r.1 = .error f) :
    f = .cancelled ∨ (f = .readyTimeout (schedule.ceiling / nanosPerSecond) ∧
      ∃ q ∈ polls, q.Failed t ∧ schedule.ceiling ≤ q.elapsed t start) := by
  induction h with
  | @last p _ hcloses =>
    cases hcloses with
    | answered => cases hr
    | cancelled => exact .inl (Except.error.inj hr).symm
    | gaveUp hfailed hceiling =>
      exact .inr ⟨(Except.error.inj hr).symm, p, List.mem_singleton_self p, hfailed, hceiling⟩
    | interrupted => exact .inl (Except.error.inj hr).symm
  | more _ _ ih =>
    rcases ih hr with hf | ⟨hf, q, hq, hlate⟩
    · exact .inl hf
    · exact .inr ⟨hf, q, List.mem_cons_of_mem _ hq, hlate⟩

end Course

end Poll

/-- If the schedule has a phase and all its intervals are positive, the clock does not go back and every sleep takes as
long as it is asked to, a wait makes finitely many attempts: no more than there are moments up to the ceiling. Each
delay is positive and ends at the ceiling or before. Whatever an attempt fails with is passed over, except a
cancellation. The wait is given up exactly if an attempt fails and the ceiling has been reached then, and all is left as
this one left it. -/
theorem ready_wait_ends (hphases : schedule.phases ≠ []) (hpos : ∀ phase ∈ schedule.phases, 0 < phase.2)
    (ht : t.Steady P) (caller : Caller) {s : σ} (hs : P s) :
    (∀ elapsed, (schedule.delayAfter elapsed = none ↔ schedule.ceiling ≤ elapsed) ∧
      ∀ delay, schedule.delayAfter elapsed = some delay → 0 < delay ∧ elapsed + delay ≤ schedule.ceiling) ∧
    ∃ later, Poll.Course t schedule (t.now s) (⟨caller, s⟩ :: later) (caller.awaitReady t schedule s) ∧
      later.length ≤ schedule.ceiling ∧
      (∀ n > later.length, caller.awaitReadyFrom t schedule (t.now s) n s = caller.awaitReady t schedule s) ∧
      (∀ p ∈ ⟨caller, s⟩ :: later, p.Failed t → schedule.ceiling ≤ p.elapsed t (t.now s) →
        (⟨caller, s⟩ :: later).getLast? = some p ∧ caller.awaitReady t schedule s =
          (.error (.readyTimeout (schedule.ceiling / nanosPerSecond)), (p.done t).2)) ∧
      ∀ f, (caller.awaitReady t schedule s).1 = .error f →
        f = .cancelled ∨ (f = .readyTimeout (schedule.ceiling / nanosPerSecond) ∧
          ∃ p ∈ ⟨caller, s⟩ :: later, p.Failed t ∧ schedule.ceiling ≤ p.elapsed t (t.now s)) := by
  have hproper : schedule.Proper := ⟨hphases, hpos⟩
  obtain ⟨later, r, hcourse, hlength⟩ := Poll.exists_course hproper ht ⟨caller, s⟩ hs (Nat.le_refl _)
  rw [Nat.sub_self, Nat.sub_zero] at hlength
  have hr : caller.awaitReady t schedule s = r := hcourse.eq hproper (Nat.lt_succ_of_le hlength)
  rw [hr]
  exact ⟨fun _ => ⟨hproper.delayAfter_eq_none_iff, fun _ => hproper.delayAfter_bounds⟩, later, hcourse, hlength,
    fun _ hn => hcourse.eq hproper hn, fun _ hp hfailed hceiling => hcourse.eq_of_late hp hfailed hceiling,
    fun _ => hcourse.cancelled_or_late⟩

/-- A host that takes no connection: a request is lost after one and a half seconds. -/
def absent : TimedCarrier Nat where
  exchange _ _ now := (.lost "connection failed", now + 1500 * nanosPerMilli)
  now now := now
  sleep delay now := (.ok (), now + delay)

theorem absent_steady : absent.Steady fun _ => True where
  exchange _ _ _ _ := ⟨trivial, Nat.le_add_right _ _⟩
  slept delay now later _ hsleep := by
    cases hsleep
    exact ⟨trivial, Nat.le_refl _⟩
  interrupted delay now f later _ hsleep := by cases hsleep

theorem absent_failed (p : Poll Nat) : p.Failed absent := ⟨.transport "connection failed", rfl, by decide⟩

/-- The usual schedule with a ceiling of two seconds. -/
def shortWait : Backoff := .withCeiling (2 * nanosPerSecond)

/-- Who asks for the status of a service that is not there. -/
def stranger : Caller := ⟨⟨"127.0.0.1", 8332, "user", "password"⟩, 1⟩

/-- The second attempt begins before the ceiling and fails behind it. -/
theorem absent_course :
    Poll.Course absent shortWait 0 [⟨stranger, 0⟩, ⟨{ stranger with nextId := 2 }, 1750 * nanosPerMilli⟩]
      (.error (.readyTimeout (shortWait.ceiling / nanosPerSecond)), { stranger with nextId := 3 },
        3250 * nanosPerMilli) :=
  .more ⟨absent_failed _, by decide, ⟨250 * nanosPerMilli, by decide, rfl⟩, rfl⟩
    (.last (.gaveUp (absent_failed _) (by decide)))

theorem ready_wait_ends_absent :
    (shortWait.phases ≠ [] ∧ (∀ phase ∈ shortWait.phases, 0 < phase.2) ∧ absent.Steady fun _ => True) ∧
      ∃ later, Poll.Course absent shortWait 0 (⟨stranger, 0⟩ :: later) (stranger.awaitReady absent shortWait 0) ∧
        ∃ p ∈ ⟨stranger, 0⟩ :: later, p.Failed absent ∧ shortWait.ceiling ≤ p.elapsed absent 0 := by
  have hphases : shortWait.phases ≠ [] := by decide
  have hpos : ∀ phase ∈ shortWait.phases, 0 < phase.2 := by decide
  have hrun : stranger.awaitReady absent shortWait 0 = _ := absent_course.eq ⟨hphases, hpos⟩ (by decide)
  obtain ⟨-, later, hcourse, -, -, -, herror⟩ := ready_wait_ends hphases hpos absent_steady stranger trivial
  rcases herror _ (congrArg Prod.fst hrun) with hcancelled | ⟨-, hlate⟩
  · cases hcancelled
  · exact ⟨⟨hphases, hpos, absent_steady⟩, later, hcourse, hlate⟩

end Conformance.Service
