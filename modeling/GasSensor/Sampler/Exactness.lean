/-
# When the resistances are exact

A round of the sampler ends in `(float) V / (float) I * 120 * 75 + 0.5`, cut to an `int`, for
each active strip: `V` is the strip's stored voltage average, and `I` the floor of the mean
of the floor averages of the current over all strips.  Nothing keeps `I` from being 0.

`during` reads off the interrupts what the converters deliver during each visit.  As long as
these sums fit their variables, the averages the sampler stores are their thirtieths
(`Windows`), and the total of a round never overflows.  `resistances_exact_iff` says for
every sequence of interrupts when all its rounds are exact and defined, in exact arithmetic.  At
the rate at which the converters are triggered only the current matters:
`inRange_iff_of_paced`.
-/

import GasSensor.Sampler.Averaging
import GasSensor.Sampler.RoundEnd
import Mathlib.Algebra.Order.Round

namespace GasSensor

open FloatingPoint

namespace Sampler

open History

attribute [local instance] Arithmetic.exact

/-- **No running sum overflows** its `uint32_t` in this interrupt. -/
def NoOverflow (modbusFlag : Bool) (p : Params) (s : Sampler) : Event → Prop
  | .voltage x => s.voltageSum + x.toNat < 2 ^ 32
  | .current x => s.currentSum + x.toNat < 2 ^ 32
  | .tick => Completes modbusFlag p s .tick → s.totalAdcSummation + s.currentAverage < 2 ^ 32
  | .sysTick => True

/-- `I` at a tick that completes a round: the total with the visit the tick completes, divided
by the number of strips. -/
def roundDivisor (p : Params) (s : Sampler) : ℕ := (s.totalAdcSummation + s.currentAverage) / p.gStripCount

/-- The integer nearest to `9000 * V / I`, halves up. -/
def nearestResistance (v i : ℕ) : ℤ := round (9000 * (v : ℚ) / i)

/-- **The resistances are exact and defined** after a tick that completes a round: `I` is not 0,
and each active strip has the integer nearest to `9000 * V / I`, which fits an `int`. -/
def ExactRound (p : Params) (s s' : Sampler) : Prop :=
  roundDivisor p s ≠ 0 ∧ ∀ i, p.activeStrips i = true →
    (s'.resistanceArray i).1 = nearestResistance (s'.vSensStripValues i).1 (roundDivisor p s) ∧
      -2 ^ 31 ≤ (s'.resistanceArray i).1 ∧ (s'.resistanceArray i).1 < 2 ^ 31

/-- An interrupt that does all it should: nothing overflows, and if it completes a round, the
resistances are exact. -/
def ExactAt (t : Target) (modbusFlag : Bool) (p : Params) (s : Sampler) (e : Event) : Prop :=
  NoOverflow modbusFlag p s e ∧
    (Completes modbusFlag p s e → (s.currentActiveStripIndex + 1) % p.gStripCount = 0 →
      ∀ s', step t modbusFlag p s e = .ok s' → ExactRound p s s')

/-- The voltage result an interrupt delivers. -/
def voltageResult : Event → ℕ
  | .voltage x => x.toNat
  | _ => 0

/-- The current result an interrupt delivers. -/
def currentResult : Event → ℕ
  | .current x => x.toNat
  | _ => 0

/-- The sum of `f` over the interrupts of the `m`-th visit, when there have been `k` ticks
before. -/
def during (f : Event → ℕ) (m : ℕ) : ℕ → List Event → ℕ
  | _, [] => 0
  | k, e :: es => (if k / 30 = m then f e else 0) + during f m (if e = .tick then k + 1 else k) es

/-- `I` of the `q`-th round: each of its visits averages the current results it has got, and
`I` is the mean of these. -/
def roundCurrentOf (p : Params) (es : List Event) (q : ℕ) : ℕ :=
  (∑ j ∈ Finset.range p.strips.length, during currentResult (q * p.strips.length + j) 0 es / 30)
    / p.strips.length

/-- **The converters deliver what the sampler can handle**: their results during a visit fit a
`uint32_t` when added up, and in each complete round the quotient is defined for every
visit. -/
structure InRange (p : Params) (es : List Event) : Prop where
  sums : ∀ m, during voltageResult m 0 es < 2 ^ 32 ∧ during currentResult m 0 es < 2 ^ 32
  rounds : ∀ q, (q + 1) * p.strips.length ≤ ticks es / 30 → ∀ j < p.strips.length,
    ResistanceDefined (during voltageResult (q * p.strips.length + j) 0 es / 30) (roundCurrentOf p es q)

variable {t : Target} {modbusFlag : Bool} {p : Params} {f : Event → ℕ} {m k : ℕ} {es : List Event} {e : Event}
  {s s' : Sampler} {vs : List Visit} {v i : ℕ}

/-- One more interrupt belongs to the visit in progress. -/
theorem during_concat (f : Event → ℕ) (m k : ℕ) (es : List Event) (e : Event) :
    during f m k (es ++ [e]) = during f m k es + if (k + ticks es) / 30 = m then f e else 0 := by
  induction es generalizing k with
  | nil => simp [during, ticks]
  | cons e' es ih =>
      have hticks : (if e' = .tick then k + 1 else k) + ticks es = k + ticks (e' :: es) := by
        by_cases he : e' = .tick
        · rw [if_pos he, he]
          simp only [ticks, List.count_cons_self]
          omega
        · rw [if_neg he]
          simp [ticks, List.count_cons_of_ne he]
      rw [List.cons_append, during, ih, hticks, during, Nat.add_assoc]

/-- An interrupt that delivers nothing. -/
theorem during_concat_of_zero (he : f e = 0) (m : ℕ) : during f m 0 (es ++ [e]) = during f m 0 es := by
  rw [during_concat, he, ite_self, Nat.add_zero]

theorem roundCurrentOf_concat_tick (p : Params) (es : List Event) (q : ℕ) :
    roundCurrentOf p (es ++ [.tick]) q = roundCurrentOf p es q := by
  rw [roundCurrentOf, roundCurrentOf]
  simp only [during_concat_of_zero (f := currentResult) (e := .tick) rfl]

/-- Visits that have ended get nothing any more. -/
theorem during_concat_of_lt (h : m < ticks es / 30) (e : Event) :
    during f m 0 (es ++ [e]) = during f m 0 es := by
  rw [during_concat, Nat.zero_add, if_neg (by omega), Nat.add_zero]

/-- Visits that have not begun have got nothing. -/
theorem during_of_gt (h : ticks es / 30 < m) : during f m 0 es = 0 := by
  induction es using List.reverseRecOn with
  | nil => rfl
  | append_singleton es e ih =>
      have hle : ticks es ≤ ticks (es ++ [e]) := (List.sublist_append_left es [e]).count_le _
      rw [during_concat, Nat.zero_add, if_neg (by omega), ih (by omega)]

/-- A resistance before it is cut. -/
theorem resistanceValue_eq (hi : i ≠ 0) : resistanceValue v i = .finite ((v : ℚ) / i * 120 * 75 + 1 / 2) := by
  have hi' : (i : ℚ) ≠ 0 := by exact_mod_cast hi
  simp only [resistanceValue, float_exact, double_exact, Rounding.exact_round, Rounding.div_finite _ _ hi',
    Rounding.mul_finite, Rounding.add_finite]

/-- The nearest integer is the floor of what the code cuts. -/
theorem floor_eq_nearestResistance (v i : ℕ) : ⌊(v : ℚ) / i * 120 * 75 + 1 / 2⌋ = nearestResistance v i := by
  rw [nearestResistance, round_eq]
  congr 2
  ring

/-- Under a divisor other than 0 the stored value is the nearest integer and fits exactly if
the conversion is defined. -/
theorem resistance_exact_iff (hi : i ≠ 0) :
    (resistance t v i = nearestResistance v i ∧ -2 ^ 31 ≤ resistance t v i ∧ resistance t v i < 2 ^ 31) ↔
      ResistanceDefined v i := by
  have hlt : nearestResistance v i < 2 ^ 31 ↔ resistanceValue v i < .finite (2 ^ 31) := by
    rw [← floor_eq_nearestResistance, Int.floor_lt, resistanceValue_eq hi, Value.finite_lt_finite]
    norm_cast
  constructor
  · rintro ⟨heq, -, hfits⟩
    rw [heq, hlt] at hfits
    exact ⟨hi, hfits⟩
  · intro h
    obtain ⟨r, hr, h0, -, hfloor⟩ := resistance_of_defined (t := t) h
    rw [resistanceValue_eq hi, Value.finite.injEq] at hr
    have hnearest : ⌊r⌋ = nearestResistance v i := by rw [← hr, floor_eq_nearestResistance]
    have hpos : 0 ≤ ⌊r⌋ := Int.floor_nonneg.2 h0
    rw [hfloor, hnearest, hlt]
    rw [hnearest] at hpos
    exact ⟨rfl, by omega, h.2⟩

/-- **The sampler holds what has been delivered**: the running sums are those of the visit in
progress, and the averages of completed visits their thirtieths. -/
structure Windows (es : List Event) (r : Recorded) : Prop where
  voltageSum : r.sampler.voltageSum = during voltageResult r.visits.length 0 es
  currentSum : r.sampler.currentSum = during currentResult r.visits.length 0 es
  voltage : ∀ m u, r.visits[m]? = some u → u.voltage = during voltageResult m 0 es / 30
  current : ∀ m u, r.visits[m]? = some u → u.current = during currentResult m 0 es / 30

theorem windows_init {s₀ : Sampler} (hv : s₀.voltageSum = 0) (hc : s₀.currentSum = 0) : Windows [] ⟨s₀, []⟩ :=
  ⟨hv, hc, by simp, by simp⟩

/-- What one more interrupt has to satisfy. -/
def StepInRange (p : Params) (es : List Event) : Event → Prop
  | .voltage x => during voltageResult (ticks es / 30) 0 es + x.toNat < 2 ^ 32
  | .current x => during currentResult (ticks es / 30) 0 es + x.toNat < 2 ^ 32
  | .tick => ∀ q, (q + 1) * p.strips.length * 30 = ticks es + 1 → ∀ j < p.strips.length,
      ResistanceDefined (during voltageResult (q * p.strips.length + j) 0 es / 30) (roundCurrentOf p es q)
  | .sysTick => True

/-- An interrupt that ends no visit keeps the averages. -/
theorem Windows.keep (h : Windows es ⟨s, vs⟩) (hlen : vs.length = ticks es / 30)
    (hv : s'.voltageSum = s.voltageSum + voltageResult e) (hc : s'.currentSum = s.currentSum + currentResult e) :
    Windows (es ++ [e]) ⟨s', vs⟩ := by
  have hlt : ∀ {m u}, vs[m]? = some u → m < ticks es / 30 := fun hu =>
    hlen ▸ (List.getElem?_eq_some_iff.1 hu).1
  refine ⟨?_, ?_, fun m u hu => ?_, fun m u hu => ?_⟩
  · rw [during_concat, Nat.zero_add, if_pos hlen.symm]
    exact hv.trans (congrArg (· + _) h.voltageSum)
  · rw [during_concat, Nat.zero_add, if_pos hlen.symm]
    exact hc.trans (congrArg (· + _) h.currentSum)
  · rw [during_concat_of_lt (hlt hu)]
    exact h.voltage m u hu
  · rw [during_concat_of_lt (hlt hu)]
    exact h.current m u hu

/-- The 30th tick averages what the visit has got. -/
theorem Windows.visit (h : Windows es ⟨s, vs⟩) (hlen : vs.length = ticks es / 30) :
    Windows (es ++ [.tick]) ⟨afterVisit t p s, vs ++ [newVisit p s vs.length]⟩ := by
  have hvs : s.voltageSum = during voltageResult vs.length 0 es := h.voltageSum
  have hcs : s.currentSum = during currentResult vs.length 0 es := h.currentSum
  have hnext : ticks es / 30 < (vs ++ [newVisit p s vs.length]).length := by
    rw [List.length_append, List.length_singleton]
    omega
  refine ⟨?_, ?_, fun m u hu => ?_, fun m u hu => ?_⟩
  · rw [during_concat_of_zero rfl, during_of_gt hnext]
    rfl
  · rw [during_concat_of_zero rfl, during_of_gt hnext]
    rfl
  · rw [during_concat_of_zero rfl]
    rcases getElem?_concat_eq_some.1 hu with hold | ⟨rfl, rfl⟩
    · exact h.voltage m u hold
    · rw [← hvs]
      rfl
  · rw [during_concat_of_zero rfl]
    rcases getElem?_concat_eq_some.1 hu with hold | ⟨rfl, rfl⟩
    · exact h.current m u hold
    · rw [← hcs]
      rfl

section Round

variable {q : ℕ} (hp : p.Counted) (h : Rounds t p es ⟨s, vs⟩) (hw : Windows es ⟨s, vs⟩)
  (hq : (q + 1) * p.strips.length = vs.length + 1)

include h hq

/-- The round that the visit closes begins `n` visits before. -/
theorem roundStart_eq : roundStart p.strips.length vs.length = q * p.strips.length := by
  have h0 : (vs.length + 1) % p.strips.length = 0 := hq ▸ Nat.mul_mod_left _ _
  have hround := roundStart_add_of_succ_mod h.strips_pos h0
  rw [Nat.succ_mul] at hq
  omega

include hp hw

/-- `I` is the mean of what the visits of the round average. -/
theorem roundDivisor_eq : roundDivisor p s = roundCurrentOf p es q := by
  have hcurrent := (hw.visit (t := t) (p := p) h.length).current
  have hlen : (vs ++ [newVisit p s vs.length]).length = vs.length + 1 := by
    rw [List.length_append, List.length_singleton]
  rw [roundDivisor, h.total_concat.1, hp.eq_length, roundStart_eq h hq, ← roundCurrentOf_concat_tick,
    roundCurrentOf, roundSum_eq_sum (by rw [hlen, ← hq, Nat.succ_mul]) hcurrent]

/-- **A round is exact and defined** exactly if the quotients of its visits are. -/
theorem exactRound_iff : ExactRound p s (afterVisit t p s) ↔ ∀ j < p.strips.length,
    ResistanceDefined (during voltageResult (q * p.strips.length + j) 0 es / 30) (roundCurrentOf p es q) := by
  have hpos := h.strips_pos
  have hlen : (vs ++ [newVisit p s vs.length]).length = vs.length + 1 := by
    rw [List.length_append, List.length_singleton]
  have hnext : (s.currentActiveStripIndex + 1) % p.strips.length = 0 := by
    rw [h.next_eq, ← hq, Nat.mul_mod_left]
  have hstored : ∀ j < p.strips.length,
      ((afterVisit t p s).vSensStripValues (p.stripAt (q * p.strips.length + j))).1
      = during voltageResult (q * p.strips.length + j) 0 es / 30 := by
    intro j hj
    rw [Nat.succ_mul] at hq
    obtain ⟨u, hu⟩ : ∃ u, (vs ++ [newVisit p s vs.length])[q * p.strips.length + j]? = some u :=
      ⟨_, List.getElem?_eq_getElem (by omega)⟩
    rw [h.stored_afterVisit hu (by omega), ← during_concat_of_zero (e := .tick) rfl]
    exact (hw.visit (t := t) (p := p) h.length).voltage _ u hu
  have hresistance : ∀ i, p.activeStrips i = true → ((afterVisit t p s).resistanceArray i).1
      = resistance t ((afterVisit t p s).vSensStripValues i).1 (roundDivisor p s) := by
    intro i hi
    change (if _ ∧ _ then _ else _ : ℤ × ℤ).1 = _
    rw [if_pos ⟨hnext, hi⟩, roundDivisor, Nat.mod_eq_of_lt h.total_concat.2, hp.eq_length]
    rfl
  rw [ExactRound]
  constructor
  · rintro ⟨hI, hall⟩ j hj
    have hexact := hall _ (Params.active_stripAt hpos (q * p.strips.length + j))
    rw [hresistance _ (Params.active_stripAt hpos _), hstored j hj, resistance_exact_iff hI,
      roundDivisor_eq hp h hw hq] at hexact
    exact hexact
  · intro hdefined
    refine ⟨roundDivisor_eq hp h hw hq ▸ (hdefined 0 hpos).1, fun i hi => ?_⟩
    obtain ⟨j, hj, rfl⟩ := Params.exists_stripAt hi
    have hstrip : p.stripAt j = p.stripAt (q * p.strips.length + j) :=
      (Params.stripAt_eq_iff hpos).2 (Nat.mul_add_mod_self_right _ _ _).symm
    rw [hresistance _ hi, hstrip, hstored j hj, roundDivisor_eq hp h hw hq,
      resistance_exact_iff (hdefined j hj).1]
    exact hdefined j hj

end Round

/-- **The tick that ends a visit** is as it should be exactly if the round it completes, if it
completes one, is in range. -/
theorem exactAt_visit (hp : p.Counted) (h : Rounds t p es ⟨s, vs⟩) (hw : Windows es ⟨s, vs⟩)
    (hge : ¬ s.currentCountIndex < 29) : ExactAt t modbusFlag p s .tick ↔ StepInRange p es .tick := by
  have hpos := h.strips_pos
  have hcount : s.currentCountIndex = ticks es % 30 := h.count
  have hlen : vs.length = ticks es / 30 := h.length
  have hticks : ticks es + 1 = (vs.length + 1) * 30 := by omega
  have hstep : step t modbusFlag p s .tick = .ok (afterVisit t p s) := tick_of_ge hp h.aligned hge
  constructor
  · rintro ⟨-, hround⟩ q hq
    have hq : (q + 1) * p.strips.length = vs.length + 1 :=
      Nat.eq_of_mul_eq_mul_right (by decide) (hq.trans hticks)
    have hcompletes : Completes modbusFlag p s .tick :=
      ⟨rfl, fun hzero => hpos.ne' (hp.eq_length.symm.trans hzero.1), hge⟩
    refine (exactRound_iff hp h hw hq).1 (hround hcompletes ?_ _ hstep)
    rw [hp.eq_length, h.next_eq, ← hq, Nat.mul_mod_left]
  · refine fun hrange => ⟨fun _ => h.total_concat.2, fun _ h0 s' hs' => ?_⟩
    rw [hp.eq_length, h.next_eq] at h0
    obtain ⟨q, hq⟩ := exists_eq_mul_left_of_dvd (Nat.dvd_of_mod_eq_zero h0)
    cases q with
    | zero => omega
    | succ q =>
        rw [hstep] at hs'
        cases hs'
        exact (exactRound_iff hp h hw hq.symm).2 (hrange q (by rw [← hq, hticks]))

/-- **One interrupt of a measurement**: it is as it should be exactly if it is in range, and
then the sampler still holds what has been delivered. -/
theorem exactAt_iff (hp : p.Counted) {r r' : Recorded} (h : Rounds t p es r) (hw : Windows es r)
    (hstep : recordStep t modbusFlag p r e = .ok r') :
    (ExactAt t modbusFlag p r.sampler e ↔ StepInRange p es e) ∧ (StepInRange p es e → Windows (es ++ [e]) r') := by
  obtain ⟨s, vs⟩ := r
  have hlen : vs.length = ticks es / 30 := h.length
  have hvs : s.voltageSum = during voltageResult vs.length 0 es := hw.voltageSum
  have hcs : s.currentSum = during currentResult vs.length 0 es := hw.currentSum
  cases e with
  | tick =>
      by_cases hlt : s.currentCountIndex < 29
      · have hcount : s.currentCountIndex = ticks es % 30 := h.count
        have hn : p.gStripCount ≠ 0 := hp.eq_length ▸ h.strips_pos.ne'
        rw [recordStep_of_lt hn hlt] at hstep
        cases hstep
        have hnot : ¬ Completes modbusFlag p s .tick := fun hc => hc.2.2 hlt
        have hexact : ExactAt t modbusFlag p s .tick :=
          ⟨fun hc => absurd hc hnot, fun hc => absurd hc hnot⟩
        refine ⟨iff_of_true hexact fun q hq => ?_, fun _ => hw.keep hlen rfl rfl⟩
        omega
      · refine ⟨exactAt_visit hp h hw hlt, fun _ => ?_⟩
        rw [recordStep_of_ge hp h.aligned hlt, newVisit, h.stripAt_position] at hstep
        cases hstep
        exact hw.visit hlen
  | voltage x =>
      rw [recordStep_of_ne_tick (by simp) rfl] at hstep
      cases hstep
      have hexact : ExactAt t modbusFlag p s (.voltage x) ↔ s.voltageSum + x.toNat < 2 ^ 32 :=
        and_iff_left fun hc => absurd hc.1 (by simp)
      rw [hexact, hvs, hlen]
      refine ⟨Iff.rfl, fun hlt => hw.keep hlen ?_ rfl⟩
      change (s.voltageSum + x.toNat) % 2 ^ 32 = _
      rw [Nat.mod_eq_of_lt (by rw [hvs, hlen]; exact hlt)]
      rfl
  | current x =>
      rw [recordStep_of_ne_tick (by simp) rfl] at hstep
      cases hstep
      have hexact : ExactAt t modbusFlag p s (.current x) ↔ s.currentSum + x.toNat < 2 ^ 32 :=
        and_iff_left fun hc => absurd hc.1 (by simp)
      rw [hexact, hcs, hlen]
      refine ⟨Iff.rfl, fun hlt => hw.keep hlen rfl ?_⟩
      change (s.currentSum + x.toNat) % 2 ^ 32 = _
      rw [Nat.mod_eq_of_lt (by rw [hcs, hlen]; exact hlt)]
      rfl
  | sysTick =>
      rw [recordStep_of_ne_tick (by simp) rfl] at hstep
      cases hstep
      have hexact : ExactAt t modbusFlag p s .sysTick ↔ True :=
        and_iff_left fun hc => absurd hc.1 (by simp)
      exact ⟨hexact, fun _ => hw.keep hlen rfl rfl⟩

/-- What a complete round has got does not change any more. -/
theorem roundCurrentOf_concat {q : ℕ} (hq : (q + 1) * p.strips.length ≤ ticks es / 30) (e : Event) :
    roundCurrentOf p (es ++ [e]) q = roundCurrentOf p es q := by
  rw [roundCurrentOf, roundCurrentOf]
  congr 1
  refine Finset.sum_congr rfl fun j hj => ?_
  have hj : j < p.strips.length := Finset.mem_range.1 hj
  rw [Nat.succ_mul] at hq
  rw [during_concat_of_lt (by omega)]

theorem defined_concat_iff {q j : ℕ} (hq : (q + 1) * p.strips.length ≤ ticks es / 30) (hj : j < p.strips.length)
    (e : Event) :
    ResistanceDefined (during voltageResult (q * p.strips.length + j) 0 (es ++ [e]) / 30)
        (roundCurrentOf p (es ++ [e]) q) ↔
      ResistanceDefined (during voltageResult (q * p.strips.length + j) 0 es / 30) (roundCurrentOf p es q) := by
  rw [roundCurrentOf_concat hq]
  rw [Nat.succ_mul] at hq
  rw [during_concat_of_lt (by omega)]

theorem inRange_nil (hpos : 0 < p.strips.length) : InRange p [] := by
  refine ⟨fun m => by simp [during], fun q hq => ?_⟩
  have hround : 0 < (q + 1) * p.strips.length := Nat.mul_pos (Nat.succ_pos q) hpos
  exact absurd (hround.trans_le hq) (by simp [ticks])

/-- Interrupts are in range exactly if each of them is. -/
theorem inRange_concat : InRange p (es ++ [e]) ↔ InRange p es ∧ StepInRange p es e := by
  have hmono : ticks es ≤ ticks (es ++ [e]) := (List.sublist_append_left es [e]).count_le _
  have hsums : ∀ f m, during f m 0 es ≤ during f m 0 (es ++ [e]) := fun f m => by
    rw [during_concat]
    exact Nat.le_add_right _ _
  constructor
  · intro h
    refine ⟨⟨fun m => ⟨(hsums _ m).trans_lt (h.sums m).1, (hsums _ m).trans_lt (h.sums m).2⟩,
      fun q hq j hj => (defined_concat_iff hq hj e).1 (h.rounds q (by omega) j hj)⟩, ?_⟩
    cases e with
    | voltage x =>
        have hlt := (h.sums (ticks es / 30)).1
        rw [during_concat, Nat.zero_add, if_pos rfl] at hlt
        exact hlt
    | current x =>
        have hlt := (h.sums (ticks es / 30)).2
        rw [during_concat, Nat.zero_add, if_pos rfl] at hlt
        exact hlt
    | tick =>
        intro q hq j hj
        have hnew := h.rounds q (by rw [ticks_concat_tick]; omega) j hj
        rwa [during_concat_of_zero rfl, roundCurrentOf_concat_tick] at hnew
    | sysTick => trivial
  · rintro ⟨h, hstep⟩
    refine ⟨fun m => ?_, fun q hq j hj => ?_⟩
    · rw [during_concat, during_concat, Nat.zero_add]
      obtain ⟨hv, hc⟩ := h.sums m
      split_ifs with hm
      · subst hm
        cases e with
        | voltage x => exact ⟨hstep, hc⟩
        | current x => exact ⟨hv, hstep⟩
        | tick => exact ⟨hv, hc⟩
        | sysTick => exact ⟨hv, hc⟩
      · exact ⟨hv, hc⟩
    · by_cases hle : (q + 1) * p.strips.length ≤ ticks es / 30
      · exact (defined_concat_iff hle hj e).2 (h.rounds q hle j hj)
      · -- only a tick completes a round
        have he : e = .tick := by
          by_contra hne
          rw [ticks_concat_of_ne hne] at hq
          exact hle hq
        subst he
        rw [ticks_concat_tick] at hq
        rw [during_concat_of_zero rfl, roundCurrentOf_concat_tick]
        exact hstep q (by omega) j hj

/-- A measurement from a sampler whose sums are clear. -/
theorem exactAt_run (modbusFlag : Bool) (hp : p.Counted) {s₀ : Sampler} (h₀ : Rounds t p [] ⟨s₀, []⟩)
    (hv₀ : s₀.voltageSum = 0) (hc₀ : s₀.currentSum = 0) (es : List Event) :
    ∃ r, es.foldlM (recordStep t modbusFlag p) ⟨s₀, []⟩ = .ok r ∧ Rounds t p es r ∧
      (Run.AtEveryStep (step t modbusFlag p) (ExactAt t modbusFlag p) s₀ es ↔ InRange p es) ∧
      (InRange p es → Windows es r) := by
  induction es using List.reverseRecOn with
  | nil =>
      refine ⟨_, rfl, h₀, iff_of_true ?_ (inRange_nil h₀.strips_pos), fun _ => windows_init hv₀ hc₀⟩
      intro fs e u v hfs
      exact absurd (List.prefix_nil.1 hfs) (List.append_ne_nil_of_right_ne_nil fs (by simp))
  | append_singleton es e ih =>
      obtain ⟨r, hr, hR, hiff, hW⟩ := ih
      obtain ⟨r', hr', hR'⟩ : ∃ r', recordStep t modbusFlag p r e = .ok r' ∧ Rounds t p (es ++ [e]) r' :=
        hR.step hp e
      have hrun : es.foldlM (step t modbusFlag p) s₀ = .ok r.sampler := by
        rw [← record_run es ⟨s₀, []⟩, hr]
        rfl
      obtain ⟨s', hs', -⟩ := Run.bind_eq_ok.1 hr'
      refine ⟨r', by rw [Run.foldlM_concat, hr, Run.ok_bind, hr'], hR', ?_, fun h => ?_⟩
      · rw [Run.atEveryStep_concat, hiff, inRange_concat]
        refine and_congr_right fun hes => ?_
        rw [← (exactAt_iff hp hR (hW hes) hr').1]
        constructor
        · exact fun hlast => hlast _ _ hrun hs'
        · intro hexact u v hu hv
          rw [hrun] at hu
          cases hu
          exact hexact
      · obtain ⟨hes, he⟩ := inRange_concat.1 h
        exact (exactAt_iff hp hR (hW hes) hr').2 he

/-- **When the resistances are exact and defined.**  From every configuration with at least one
strip, for every sequence of ticks, conversion results and SysTick increments: no sum
overflows and all completed rounds are exact and defined if and only if what the converters
deliver is in range. -/
theorem resistances_exact_iff {malloc : Malloc ℕ} (t : Target) (modbusFlag : Bool) (hp : p.Counted)
    (hpos : 0 < p.strips.length) (hm : (malloc p.gStripCount).isSome) (hf : p.muxFreq ≠ 0) (es : List Event) :
    ∃ s₀, configure malloc p boot = .ok s₀ ∧ (∃ s, es.foldlM (step t modbusFlag p) s₀ = .ok s) ∧
      (Run.AtEveryStep (step t modbusFlag p) (ExactAt t modbusFlag p) s₀ es ↔ InRange p es) := by
  obtain ⟨s₀, hs₀, h₀⟩ := rounds_of_configure (t := t) hp hpos hm hf
  have hsums := sums_of_configure hp hpos hm hf hs₀
  obtain ⟨r, hr, -, hiff, -⟩ := exactAt_run modbusFlag hp h₀ hsums.1 hsums.2 es
  refine ⟨s₀, hs₀, ⟨r.sampler, ?_⟩, hiff⟩
  rw [← record_run es ⟨s₀, []⟩, hr]
  rfl

/-- Strip 1 selected, everything else as at boot. -/
def firstStrip : Params :=
  { Params.boot with activeStrips := fun i => i = 0, gStripCount := 1 }

/-- One visit in which all voltage results are 240 and all current results are `c`. -/
def visitWithCurrent (c : UInt16) : List Event := (List.replicate 30 [.voltage 240, .current c, .tick]).flatten

/-- The hypotheses of `resistances_exact_iff` are satisfiable: one visit of one strip. -/
theorem resistances_exact_iff_firstStrip :
    ∃ s₀, configure zeroedMalloc firstStrip boot = .ok s₀ ∧
      (∃ s, (visitWithCurrent 30).foldlM (step .saturating false firstStrip) s₀ = .ok s) ∧
      (Run.AtEveryStep (step .saturating false firstStrip) (ExactAt .saturating false firstStrip) s₀
        (visitWithCurrent 30) ↔ InRange firstStrip (visitWithCurrent 30)) :=
  resistances_exact_iff .saturating false (by decide) (by decide) rfl (by decide) _

/-- **Without a current the sampler divides by 0.** -/
theorem zeroCurrent_not_exact :
    ∃ s₀, configure zeroedMalloc firstStrip boot = .ok s₀ ∧
      ¬ Run.AtEveryStep (step .saturating false firstStrip) (ExactAt .saturating false firstStrip) s₀
        (visitWithCurrent 0) := by
  obtain ⟨s₀, hs₀, h₀⟩ := rounds_of_configure (t := .saturating) (p := firstStrip) (by decide) (by decide)
    (show (zeroedMalloc 1).isSome from rfl) (by decide)
  have hsums := sums_of_configure (by decide) (by decide) rfl (by decide) hs₀
  obtain ⟨r, -, -, hiff, -⟩ := exactAt_run false (by decide) h₀ hsums.1 hsums.2 (visitWithCurrent 0)
  refine ⟨s₀, hs₀, fun h => ?_⟩
  have hdefined := (hiff.1 h).rounds 0 (by decide +kernel) 0 (by decide)
  exact hdefined.1 (by decide +kernel)

/-- Whether an interrupt delivers a voltage result. -/
def voltageCount : Event → ℕ
  | .voltage _ => 1
  | _ => 0

/-- Whether an interrupt delivers a current result. -/
def currentCount : Event → ℕ
  | .current _ => 1
  | _ => 0

/-- **No visit gets many results.**  A visit triggers each converter 30 times; more than three
times as many results are allowed. -/
def Paced (es : List Event) : Prop := ∀ m, during voltageCount m 0 es ≤ 109 ∧ during currentCount m 0 es ≤ 109

/-- **Conversions that keep up are paced**: no visit gets more than 30 results of a converter. -/
theorem Timely.paced {x y : ℕ → UInt16} {i j : ℕ} (h : Timely x y es k i j) : Paced es := by
  -- the results of the visit in progress are among the last triggers
  have hcount : (∀ m, during voltageCount m 0 es ≤ 30 ∧ during currentCount m 0 es ≤ 30) ∧
      during voltageCount (k / 30) 0 es + 30 * (k / 30) ≤ i + 1 ∧
      during currentCount (k / 30) 0 es + 30 * (k / 30) ≤ j + 1 := by
    induction h with
    | boot => simp [during]
    | @tick es k hT ih =>
        have hk := hT.bounds.1
        simp only [during_concat_of_zero (f := voltageCount) (e := .tick) rfl,
          during_concat_of_zero (f := currentCount) (e := .tick) rfl]
        refine ⟨ih.1, ?_⟩
        rcases (show (k + 1) / 30 = k / 30 ∨ (k + 1) / 30 = k / 30 + 1 by omega) with hsame | hnext
        · rw [hsame]
          exact ⟨by omega, by omega⟩
        · rw [during_of_gt (by omega), during_of_gt (by omega)]
          omega
    | @voltage es k i j hT hi ih =>
        obtain ⟨hall, hv, hc⟩ := ih
        have hk := hT.bounds.1
        simp only [during_concat_of_zero (f := currentCount) (e := .voltage (x i)) rfl, during_concat,
          Nat.zero_add, hk]
        refine ⟨fun m => ⟨?_, (hall m).2⟩, ?_, hc⟩
        · have hm := (hall m).1
          split_ifs with hcur
          · subst hcur
            change _ + 1 ≤ 30
            omega
          · exact hm
        · rw [if_pos trivial]
          change _ + 1 + _ ≤ _
          omega
    | @current es k i j hT hj ih =>
        obtain ⟨hall, hv, hc⟩ := ih
        have hk := hT.bounds.1
        simp only [during_concat_of_zero (f := voltageCount) (e := .current (y j)) rfl, during_concat,
          Nat.zero_add, hk]
        refine ⟨fun m => ⟨(hall m).1, ?_⟩, hv, ?_⟩
        · have hm := (hall m).2
          split_ifs with hcur
          · subst hcur
            change _ + 1 ≤ 30
            omega
          · exact hm
        · rw [if_pos trivial]
          change _ + 1 + _ ≤ _
          omega
    | sysTick hT ih =>
        simpa only [during_concat_of_zero (f := voltageCount) (e := .sysTick) rfl,
          during_concat_of_zero (f := currentCount) (e := .sysTick) rfl] using ih
  exact fun m => ⟨(hcount.1 m).1.trans (by decide), (hcount.1 m).2.trans (by decide)⟩

/-- Results of at most 16 bits each. -/
theorem during_le {g : Event → ℕ} (h : ∀ e, f e ≤ 65535 * g e) (m k : ℕ) (es : List Event) :
    during f m k es ≤ 65535 * during g m k es := by
  induction es generalizing k with
  | nil => exact Nat.zero_le _
  | cons e es ih =>
      rw [during, during, Nat.mul_add]
      refine Nat.add_le_add ?_ (ih _)
      split_ifs
      · exact h e
      · exact Nat.zero_le _

theorem Paced.during_voltage_le (h : Paced es) (m : ℕ) : during voltageResult m 0 es ≤ 65535 * 109 := by
  refine (during_le (g := voltageCount) (fun e => ?_) m 0 es).trans (Nat.mul_le_mul_left _ (h m).1)
  cases e with
  | voltage x => have := x.toNat_lt; simp only [voltageResult, voltageCount]; omega
  | tick | current _ | sysTick => exact Nat.zero_le _

theorem Paced.during_current_le (h : Paced es) (m : ℕ) : during currentResult m 0 es ≤ 65535 * 109 := by
  refine (during_le (g := currentCount) (fun e => ?_) m 0 es).trans (Nat.mul_le_mul_left _ (h m).2)
  cases e with
  | current x => have := x.toNat_lt; simp only [currentResult, currentCount]; omega
  | tick | voltage _ | sysTick => exact Nat.zero_le _

/-- **Only the current matters.**  At the rate of the triggers no sum overflows and every
quotient fits, as long as the averaged current of no complete round is 0. -/
theorem inRange_iff_of_paced (hpos : 0 < p.strips.length) (h : Paced es) :
    InRange p es ↔ ∀ q, (q + 1) * p.strips.length ≤ ticks es / 30 → roundCurrentOf p es q ≠ 0 := by
  constructor
  · exact fun hrange q hq => (hrange.rounds q hq 0 hpos).1
  · intro hcurrent
    refine ⟨fun m => ⟨(h.during_voltage_le m).trans_lt (by norm_num),
      (h.during_current_le m).trans_lt (by norm_num)⟩, fun q hq j _ => ⟨hcurrent q hq, ?_⟩⟩
    have hv : during voltageResult (q * p.strips.length + j) 0 es / 30 ≤ 238110 := by
      have := h.during_voltage_le (q * p.strips.length + j)
      omega
    generalize during voltageResult (q * p.strips.length + j) 0 es / 30 = v at hv ⊢
    have hi : (1 : ℚ) ≤ roundCurrentOf p es q := by exact_mod_cast Nat.one_le_iff_ne_zero.2 (hcurrent q hq)
    have hquot : (v : ℚ) / roundCurrentOf p es q ≤ v := div_le_self (Nat.cast_nonneg v) hi
    have hcast : (v : ℚ) ≤ 238110 := by exact_mod_cast hv
    rw [resistanceValue_eq (hcurrent q hq), Value.finite_lt_finite]
    linarith

end Sampler
end GasSensor
