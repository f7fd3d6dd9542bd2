/-
# Which conversions an average is made of

The 30th tick of a visit triggers the 30th conversion and, in the same handler
run, divides and clears the sums.  The result of that conversion arrives after
the handler has finished, because the ADC interrupts have a lower priority
than CTIMER2 (the priority list at the end of `main.c`), so it is added to the
sum of the next visit.

`Timely` is the order of events this gives: the `k`-th result of each ADC is
the result of the `k`-th trigger and is delivered between that tick and the
next.  `visit_average` says what every visit then stores: the average of the
last conversion of the visit before, or of nothing in the first visit, and the
first 29 conversions of its own.  It is the average of the visit's own 30
conversions exactly when exchanging these two does not change the quotient.
-/

import GasSensor.Sampler.RoundRobin
import Mathlib.Algebra.BigOperators.Intervals
import Mathlib.Algebra.Order.BigOperators.Group.Finset

namespace GasSensor
namespace Sampler

open Finset History

/-- The order of events of a measurement whose conversions keep up: `v k` and
`c k` are the results of the `k`-th trigger, each delivered after the tick that
triggered it and before the next tick.  The indices count the ticks and the
voltage and current results so far. -/
inductive Timely (v c : ℕ → UInt16) : List Event → ℕ → ℕ → ℕ → Prop
  | boot : Timely v c [] 0 0 0
  | tick {es k} : Timely v c es k k k → Timely v c (es ++ [.tick]) (k + 1) k k
  | voltage {es k i j} : Timely v c es k i j → i < k →
      Timely v c (es ++ [.voltage (v i)]) k (i + 1) j
  | current {es k i j} : Timely v c es k i j → j < k →
      Timely v c (es ++ [.current (c j)]) k i (j + 1)
  | sysTick {es k i j} : Timely v c es k i j → Timely v c (es ++ [.sysTick]) k i j

/-- At most the result of the last trigger is outstanding. -/
theorem Timely.bounds {v c : ℕ → UInt16} {es : List Event} {k i j : ℕ} (h : Timely v c es k i j) :
    ticks es = k ∧ i ≤ k ∧ k ≤ i + 1 ∧ j ≤ k ∧ k ≤ j + 1 := by
  induction h with
  | boot => simp [ticks]
  | tick _ ih => rw [ticks_concat_tick]; omega
  | voltage _ _ ih => rw [ticks_concat_of_ne (by simp)]; omega
  | current _ _ ih => rw [ticks_concat_of_ne (by simp)]; omega
  | sysTick _ ih => rwa [ticks_concat_of_ne (by simp)]

/-- The sum of the results with numbers in `[a, b)`. -/
def sumOver (x : ℕ → UInt16) (a b : ℕ) : ℕ := ∑ k ∈ Ico a b, (x k).toNat

theorem sumOver_succ (x : ℕ → UInt16) {a b : ℕ} (h : a ≤ b) :
    sumOver x a (b + 1) = sumOver x a b + (x b).toNat :=
  sum_Ico_succ_top h _

theorem sumOver_self (x : ℕ → UInt16) (a : ℕ) : sumOver x a a = 0 := by simp [sumOver]

/-- At most 31 results fit into 32 bits. -/
theorem sumOver_lt (x : ℕ → UInt16) {a b : ℕ} (h : b ≤ a + 31) : sumOver x a b < 2 ^ 32 :=
  calc sumOver x a b
      ≤ (Ico a b).card • 65535 := sum_le_card_nsmul _ _ _ fun k _ => by
        have := (x k).toNat_lt
        omega
    _ = (b - a) * 65535 := by rw [Nat.card_Ico]; rfl
    _ ≤ 31 * 65535 := Nat.mul_le_mul_right _ (by omega)
    _ < 2 ^ 32 := by norm_num

/-- Adding a result to a running sum of at most 30 results does not wrap. -/
theorem sumOver_add_mod (x : ℕ → UInt16) {a b : ℕ} (h : a ≤ b) (hb : b ≤ a + 30) :
    (sumOver x a b + (x b).toNat) % 2 ^ 32 = sumOver x a (b + 1) := by
  rw [← sumOver_succ x h, Nat.mod_eq_of_lt (sumOver_lt x (by omega))]

/-- What the `m`-th visit averages: the results from number `30 m - 1`, the last
of the visit before (none for the first visit), up to its own 29th. -/
def averaged (x : ℕ → UInt16) (m : ℕ) : ℕ := sumOver x (30 * m - 1) (30 * m + 29) / 30

/-- The average of the 30 conversions triggered during the `m`-th visit. -/
def ownAverage (x : ℕ → UInt16) (m : ℕ) : ℕ := sumOver x (30 * m) (30 * m + 30) / 30

/-- The running sums and the recorded averages of a timely measurement. -/
structure Sums (v c : ℕ → UInt16) (i j : ℕ) (r : Recorded) : Prop where
  voltageSum : r.sampler.voltageSum = sumOver v (30 * r.visits.length - 1) i
  currentSum : r.sampler.currentSum = sumOver c (30 * r.visits.length - 1) j
  voltage : ∀ m u, r.visits[m]? = some u → u.voltage = averaged v m
  current : ∀ m u, r.visits[m]? = some u → u.current = averaged c m

section Run

variable {t : Target} {p : Params} {v c : ℕ → UInt16} {es : List Event} {s : Sampler} {vs : List Visit}
  {i j k : ℕ}

/-- A voltage result is added to the sum of the visit in progress. -/
theorem Sums.addVoltage (h : Sums v c i j ⟨s, vs⟩) (hlow : 30 * vs.length - 1 ≤ i)
    (hhigh : i ≤ 30 * vs.length - 1 + 30) : Sums v c (i + 1) j ⟨adc0IRQHandler (v i) s, vs⟩ := by
  refine ⟨?_, h.currentSum, h.voltage, h.current⟩
  have hsum : s.voltageSum = sumOver v (30 * vs.length - 1) i := h.voltageSum
  change (s.voltageSum + (v i).toNat) % 2 ^ 32 = _
  rw [hsum]
  exact sumOver_add_mod v hlow hhigh

/-- A current result is added to the sum of the visit in progress. -/
theorem Sums.addCurrent (h : Sums v c i j ⟨s, vs⟩) (hlow : 30 * vs.length - 1 ≤ j)
    (hhigh : j ≤ 30 * vs.length - 1 + 30) : Sums v c i (j + 1) ⟨adc1IRQHandler (c j) s, vs⟩ := by
  refine ⟨h.voltageSum, ?_, h.voltage, h.current⟩
  have hsum : s.currentSum = sumOver c (30 * vs.length - 1) j := h.currentSum
  change (s.currentSum + (c j).toNat) % 2 ^ 32 = _
  rw [hsum]
  exact sumOver_add_mod c hlow hhigh

variable [Arithmetic]

/-- The 30th tick averages the results delivered by then and starts over. -/
theorem Sums.visit (h : Sums v c k k ⟨s, vs⟩) (hk : k = 30 * vs.length + 29) :
    Sums v c k k ⟨afterVisit t p s, vs ++ [newVisit p s vs.length]⟩ := by
  have hvsum : s.voltageSum = sumOver v (30 * vs.length - 1) k := h.voltageSum
  have hcsum : s.currentSum = sumOver c (30 * vs.length - 1) k := h.currentSum
  have hnext : 30 * (vs ++ [newVisit p s vs.length]).length - 1 = k := by
    rw [List.length_append, List.length_singleton]
    omega
  refine ⟨?_, ?_, ?_, ?_⟩
  · rw [hnext, sumOver_self]
    rfl
  · rw [hnext, sumOver_self]
    rfl
  · intro m u hu
    rcases getElem?_concat_eq_some.1 hu with hold | ⟨rfl, rfl⟩
    · exact h.voltage m u hold
    · simp only [newVisit, voltageAverage, softwareAverageCount, hvsum, averaged, hk]
  · intro m u hu
    rcases getElem?_concat_eq_some.1 hu with hold | ⟨rfl, rfl⟩
    · exact h.current m u hold
    · simp only [newVisit, currentAverage, softwareAverageCount, hcsum, averaged, hk]

/-- **What a visit averages.**  Over every timely run of a measurement, each
visit stores the average of the carried-over conversion and its own first 29,
for the voltage and for the current. -/
theorem visit_average (modbusFlag : Bool) (hp : p.Counted) {r₀ : Recorded} (h₀ : Rounds t p [] r₀)
    (hv₀ : r₀.sampler.voltageSum = 0) (hc₀ : r₀.sampler.currentSum = 0) (h : Timely v c es k i j) :
    ∃ r, es.foldlM (recordStep t modbusFlag p) r₀ = .ok r ∧ Rounds t p es r ∧ Sums v c i j r := by
  induction h with
  | boot =>
      have hnil : r₀.visits = [] := List.eq_nil_of_length_eq_zero h₀.length
      refine ⟨r₀, rfl, h₀, ?_, ?_, ?_, ?_⟩
      · rw [hv₀, hnil]; exact (sumOver_self v 0).symm
      · rw [hc₀, hnil]; exact (sumOver_self c 0).symm
      · simp [hnil]
      · simp [hnil]
  | @tick es k hT ih =>
      obtain ⟨r, hr, hR, hS⟩ := ih
      obtain ⟨s, vs⟩ := r
      obtain ⟨hk, -⟩ := hT.bounds
      have hcount : s.currentCountIndex = ticks es % 30 := hR.count
      have hlen : vs.length = ticks es / 30 := hR.length
      have hn : p.gStripCount ≠ 0 := by
        rw [hp.eq_length]
        have := hR.strips_pos
        omega
      by_cases hlt : s.currentCountIndex < 29
      · refine ⟨_, ?_, hR.countTick hlt, hS.voltageSum, hS.currentSum, hS.voltage, hS.current⟩
        rw [Run.foldlM_concat, hr]
        exact recordStep_of_lt hn hlt vs
      · -- the 30th tick: results 0 .. k - 1 have been delivered, and k = 30 m + 29
        refine ⟨_, ?_, hR.visitTick hlt, hS.visit (by omega)⟩
        rw [Run.foldlM_concat, hr]
        change recordStep t modbusFlag p ⟨s, vs⟩ .tick = _
        rw [recordStep_of_ge hp hR.aligned hlt vs, newVisit, hR.stripAt_position]
        rfl
  | @voltage es k i j hT hi ih =>
      obtain ⟨⟨s, vs⟩, hr, hR, hS⟩ := ih
      obtain ⟨hk, hb⟩ := hT.bounds
      have hlen : vs.length = ticks es / 30 := hR.length
      refine ⟨_, ?_, hR.voltage (v i), hS.addVoltage (by omega) (by omega)⟩
      rw [Run.foldlM_concat, hr]
      exact recordStep_of_ne_tick (t := t) (e := .voltage (v i)) (by simp) rfl vs
  | @current es k i j hT hj ih =>
      obtain ⟨⟨s, vs⟩, hr, hR, hS⟩ := ih
      obtain ⟨hk, hb⟩ := hT.bounds
      have hlen : vs.length = ticks es / 30 := hR.length
      refine ⟨_, ?_, hR.current (c j), hS.addCurrent (by omega) (by omega)⟩
      rw [Run.foldlM_concat, hr]
      exact recordStep_of_ne_tick (t := t) (e := .current (c j)) (by simp) rfl vs
  | sysTick hT ih =>
      obtain ⟨⟨s, vs⟩, hr, hR, hS⟩ := ih
      refine ⟨_, ?_, hR.sysTick, hS.voltageSum, hS.currentSum, hS.voltage, hS.current⟩
      rw [Run.foldlM_concat, hr]
      exact recordStep_of_ne_tick (t := t) (e := .sysTick) (by simp) rfl vs

end Run

/-! ### When the average is the visit's own -/

/-- Every completed visit went to the strip the multiplexer selected and holds
the floor averages of exactly the 30 voltage and the 30 current conversions
triggered during it. -/
def AveragesOwnConversions (p : Params) (v c : ℕ → UInt16) (r : Recorded) : Prop :=
  ∀ m u, r.visits[m]? = some u →
    u.strip = p.stripAt m ∧ u.voltage = ownAverage v m ∧ u.current = ownAverage c m

/-- The conversion carried over into the `m`-th visit: the last of the visit
before, and 0 in the first visit after boot. -/
def carriedOver (x : ℕ → UInt16) (m : ℕ) : ℕ := if m = 0 then 0 else (x (30 * m - 1)).toNat

/-- Replacing the 30th conversion of the `m`-th visit by the one carried over
from the visit before does not change the quotient by 30. -/
def CarryHarmless (x : ℕ → UInt16) (m : ℕ) : Prop :=
  (carriedOver x m + sumOver x (30 * m) (30 * m + 29)) / 30
    = (sumOver x (30 * m) (30 * m + 29) + (x (30 * m + 29)).toNat) / 30

theorem averaged_eq (x : ℕ → UInt16) (m : ℕ) :
    averaged x m = (carriedOver x m + sumOver x (30 * m) (30 * m + 29)) / 30 := by
  rcases Nat.eq_zero_or_pos m with rfl | hm
  · simp [averaged, carriedOver]
  · have hsplit : sumOver x (30 * m - 1) (30 * m + 29)
        = (x (30 * m - 1)).toNat + sumOver x (30 * m) (30 * m + 29) := by
      unfold sumOver
      rw [sum_eq_sum_Ico_succ_bot (by omega), show 30 * m - 1 + 1 = 30 * m by omega]
    rw [averaged, hsplit, carriedOver, if_neg (by omega)]

theorem averaged_eq_ownAverage_iff (x : ℕ → UInt16) (m : ℕ) :
    averaged x m = ownAverage x m ↔ CarryHarmless x m := by
  have hsucc := sumOver_succ x (show 30 * m ≤ 30 * m + 29 by omega)
  rw [averaged_eq, ownAverage, show 30 * m + 30 = 30 * m + 29 + 1 from rfl, hsucc]
  exact Iff.rfl

/-- **When averaging is per strip and complete.**  Over every timely run from a
configuration with at least one strip, the visits hold the averages of their
own 30 conversions if and only if in each completed visit the conversion
carried over from the visit before is as good as the visit's own 30th.  The
conversion number `k` is triggered while the multiplexer selects the strip of
visit `k / 30`. -/
theorem averages_own_iff [Arithmetic] {t : Target} {modbusFlag : Bool} {p : Params} {malloc : Malloc ℕ}
    {v c : ℕ → UInt16} {es : List Event} {k i j : ℕ} (hp : p.Counted) (hpos : 0 < p.strips.length)
    (hm : (malloc p.gStripCount).isSome) (hf : p.muxFreq ≠ 0) (h : Timely v c es k i j) :
    ∃ s₀ r, configure malloc p boot = .ok s₀ ∧ es.foldlM (recordStep t modbusFlag p) ⟨s₀, []⟩ = .ok r ∧
      r.sampler.triggers = k ∧ r.sampler.mux.channel = p.stripAt (k / 30) ∧
      (AveragesOwnConversions p v c r ↔ ∀ m < k / 30, CarryHarmless v m ∧ CarryHarmless c m) := by
  obtain ⟨s₀, hs₀, h₀⟩ := rounds_of_configure (t := t) hp hpos hm hf
  have hsums := sums_of_configure hp hpos hm hf hs₀
  obtain ⟨r, hr, hR, hS⟩ := visit_average modbusFlag hp h₀ hsums.1 hsums.2 h
  obtain ⟨hk, -⟩ := h.bounds
  have hlen : r.visits.length = k / 30 := by rw [hR.length, hk]
  refine ⟨s₀, r, hs₀, hr, hR.triggers.trans hk, ?_, ?_, ?_⟩
  · rw [hR.aligned.mux, hR.position, Params.stripAt_mod, hlen]
  · intro hown m hlt
    obtain ⟨u, hu⟩ : ∃ u, r.visits[m]? = some u := ⟨_, List.getElem?_eq_getElem (by omega)⟩
    obtain ⟨-, hvolt, hcur⟩ := hown m u hu
    rw [hS.voltage m u hu] at hvolt
    rw [hS.current m u hu] at hcur
    exact ⟨(averaged_eq_ownAverage_iff v m).1 hvolt, (averaged_eq_ownAverage_iff c m).1 hcur⟩
  · intro hall m u hu
    have hlt : m < k / 30 := hlen ▸ (List.getElem?_eq_some_iff.1 hu).1
    refine ⟨hR.strip m u hu, ?_, ?_⟩
    · rw [hS.voltage m u hu]
      exact (averaged_eq_ownAverage_iff v m).2 (hall m hlt).1
    · rw [hS.current m u hu]
      exact (averaged_eq_ownAverage_iff c m).2 (hall m hlt).2

attribute [local instance] Arithmetic.uncontracted

/-- The schedule that delivers both results right after each tick. -/
def punctual (v c : ℕ → UInt16) : ℕ → List Event
  | 0 => []
  | k + 1 => ((punctual v c k ++ [.tick]) ++ [.voltage (v k)]) ++ [.current (c k)]

theorem timely_punctual (v c : ℕ → UInt16) (k : ℕ) : Timely v c (punctual v c k) k k k := by
  induction k with
  | zero => exact .boot
  | succ k ih => exact .current (.voltage (.tick ih) k.lt_succ_self) k.lt_succ_self

/-- The hypotheses of `averages_own_iff` are satisfiable: a whole round of two strips, each
tick followed by its two results. -/
theorem averages_own_iff_twoStrips :
    ∃ s₀ r, configure zeroedMalloc twoStrips boot = .ok s₀ ∧
      (punctual (fun _ => 7) (fun _ => 9) 60).foldlM (recordStep .saturating false twoStrips) ⟨s₀, []⟩ = .ok r ∧
        r.sampler.triggers = 60 ∧ r.sampler.mux.channel = twoStrips.stripAt (60 / 30) ∧
        (AveragesOwnConversions twoStrips (fun _ => 7) (fun _ => 9) r ↔
          ∀ m < 60 / 30, CarryHarmless (fun _ => 7) m ∧ CarryHarmless (fun _ => 9) m) :=
  averages_own_iff (by decide) (by decide) rfl (by decide) (timely_punctual _ _ 60)

/-- **The first visit falls short.**  With every conversion giving 30, the 30th
tick after boot stores the average 29. -/
theorem first_visit_short :
    ∃ s₀ r, configure zeroedMalloc twoStrips boot = .ok s₀ ∧
      Timely (fun _ => 30) (fun _ => 30) (punctual (fun _ => 30) (fun _ => 30) 30) 30 30 30 ∧
      (punctual (fun _ => 30) (fun _ => 30) 30).foldlM (recordStep .saturating false twoStrips) ⟨s₀, []⟩ = .ok r ∧
      ¬ AveragesOwnConversions twoStrips (fun _ => 30) (fun _ => 30) r := by
  obtain ⟨s₀, hs₀, h₀⟩ := rounds_of_configure (t := .saturating) (p := twoStrips) (by decide)
    (by decide) (show (zeroedMalloc 2).isSome from rfl) (by decide)
  have hsums := sums_of_configure (by decide) (by decide) rfl (by decide) hs₀
  have hT := timely_punctual (fun _ => 30) (fun _ => 30) 30
  obtain ⟨r, hr, hR, hS⟩ := visit_average false (by decide) h₀ hsums.1 hsums.2 hT
  refine ⟨s₀, r, hs₀, hT, hr, fun hown => ?_⟩
  have hlen : r.visits.length = 1 := by rw [hR.length, hT.bounds.1]
  obtain ⟨u, hu⟩ : ∃ u, r.visits[0]? = some u := ⟨_, List.getElem?_eq_getElem (by omega)⟩
  have hvolt : averaged (fun _ => 30) 0 = ownAverage (fun _ => 30) 0 :=
    (hS.voltage 0 u hu).symm.trans (hown 0 u hu).2.1
  exact absurd hvolt (by decide)

end Sampler
end GasSensor
