/-
# The visits of a measurement

`Rounds` is the invariant of a measurement from its configuration on: it ties
the tick counter, the position in the block of active strips, the multiplexer,
the stored voltages, the running total and the resistances to the list of
visits completed so far.  Every interrupt keeps it (`Rounds.step`), so it
holds after every sequence of interrupts and no interrupt of a measurement is
a fault (`rounds_run`).

The visits fall into rounds of as many visits as there are active strips
(`GasSensor.Lib.Rounds`); the total of the round in progress is the sum of its
current averages, and the resistances are those of the last complete round.
-/

import GasSensor.Lib.Rounds
import GasSensor.Sampler.Visit

namespace GasSensor
namespace Sampler

open History

/-- The CTIMER2 ticks among the interrupts. -/
def ticks (es : List Event) : ℕ := es.count .tick

/-- The SysTick increments among the interrupts. -/
def sysTicks (es : List Event) : ℕ := es.count .sysTick

@[simp] theorem ticks_concat_tick (es : List Event) : ticks (es ++ [.tick]) = ticks es + 1 := by
  simp [ticks]

theorem ticks_concat_of_ne {e : Event} (he : e ≠ .tick) (es : List Event) :
    ticks (es ++ [e]) = ticks es := by
  simp [ticks, List.count_singleton, beq_false_of_ne he]

@[simp] theorem sysTicks_concat_sysTick (es : List Event) :
    sysTicks (es ++ [.sysTick]) = sysTicks es + 1 := by
  simp [sysTicks]

theorem sysTicks_concat_of_ne {e : Event} (he : e ≠ .sysTick) (es : List Event) :
    sysTicks (es ++ [e]) = sysTicks es := by
  simp [sysTicks, List.count_singleton, beq_false_of_ne he]

variable [Arithmetic]

/-- **The state of a measurement after the interrupts `es`**, in terms of the
visits completed so far. -/
structure Rounds (t : Target) (p : Params) (es : List Event) (r : Recorded) : Prop where
  aligned : Aligned p r.sampler
  count : r.sampler.currentCountIndex = ticks es % 30
  length : r.visits.length = ticks es / 30
  triggers : r.sampler.triggers = ticks es
  position : r.sampler.currentActiveStripIndex = r.visits.length % p.strips.length
  strip : ∀ m v, r.visits[m]? = some v → v.strip = p.stripAt m
  stored : ∀ m v, r.visits[m]? = some v → r.visits.length ≤ m + p.strips.length →
    r.sampler.vSensStripValues (p.stripAt m) = (v.voltage, v.time)
  total : r.sampler.totalAdcSummation
    = roundSum p.strips.length (roundStart p.strips.length r.visits.length) Visit.current r.visits
  resistances : ∀ m v, r.visits[m]? = some v → m < roundStart p.strips.length r.visits.length →
    roundStart p.strips.length r.visits.length ≤ m + p.strips.length →
    r.sampler.resistanceArray (p.stripAt m) =
      (resistance t v.voltage (roundSum p.strips.length
        (roundStart p.strips.length r.visits.length - p.strips.length) Visit.current r.visits
          / p.strips.length), intOfU32 v.time)
  inactive : ∀ i, p.activeStrips i = false → r.sampler.resistanceArray i = (0, 0)
  clock : r.sampler.gTimestampMs = sysTicks es % 2 ^ 32
  times : sysTicks es < 2 ^ 32 → r.visits.Pairwise (·.time ≤ ·.time) ∧
    ∀ v ∈ r.visits, v.time ≤ r.sampler.gTimestampMs
  currentSum_lt : r.sampler.currentSum < 2 ^ 32
  current_le : ∀ v ∈ r.visits, v.current ≤ (2 ^ 32 - 1) / 30
  time_lt : ∀ v ∈ r.visits, v.time < 2 ^ 32

namespace Rounds

variable {t : Target} {modbusFlag : Bool} {p : Params} {es : List Event} {s : Sampler}
  {vs : List Visit}

/-- The invariant right after a configuration from boot. -/
theorem init {s₀ : Sampler} (ha : Aligned p s₀) (hidx : s₀.currentActiveStripIndex = 0)
    (hcount : s₀.currentCountIndex = 0) (htotal : s₀.totalAdcSummation = 0)
    (htriggers : s₀.triggers = 0) (hres : s₀.resistanceArray = fun _ => (0, 0)) (hclock : s₀.gTimestampMs = 0)
    (hsum : s₀.currentSum = 0) : Rounds t p [] ⟨s₀, []⟩ where
  aligned := ha
  count := hcount
  length := rfl
  triggers := htriggers
  position := by rw [hidx]; exact (Nat.zero_mod _).symm
  strip := by simp
  stored := by simp
  total := by rw [htotal, roundSum_nil]
  resistances := by simp
  inactive := by simp [hres]
  clock := hclock
  times := by simp
  currentSum_lt := by simp [hsum]
  current_le := by simp
  time_lt := by simp

/-- A tick inside a visit only counts. -/
theorem countTick (h : Rounds t p es ⟨s, vs⟩) (hlt : s.currentCountIndex < 29) :
    Rounds t p (es ++ [.tick]) ⟨{ s with
      triggers := s.triggers + 1
      currentCountIndex := s.currentCountIndex + 1 }, vs⟩ where
  aligned := ⟨h.aligned.indices, h.aligned.position, h.aligned.mux⟩
  count := by
    have hc : s.currentCountIndex = ticks es % 30 := h.count
    simp only [ticks_concat_tick]
    omega
  length := by
    have hc : s.currentCountIndex = ticks es % 30 := h.count
    have hl : vs.length = ticks es / 30 := h.length
    simp only [ticks_concat_tick]
    omega
  triggers := by rw [ticks_concat_tick]; exact congrArg (· + 1) h.triggers
  position := h.position
  strip := h.strip
  stored := h.stored
  total := h.total
  resistances := h.resistances
  inactive := h.inactive
  clock := by rw [sysTicks_concat_of_ne (by decide)]; exact h.clock
  times := by rw [sysTicks_concat_of_ne (by decide)]; exact h.times
  currentSum_lt := h.currentSum_lt
  current_le := h.current_le
  time_lt := h.time_lt

section Visit

variable (h : Rounds t p es ⟨s, vs⟩)

include h

theorem strips_pos : 0 < p.strips.length := by
  have := h.aligned.position
  omega

theorem stripAt_position : p.stripAt s.currentActiveStripIndex = p.stripAt vs.length := by
  have hp : s.currentActiveStripIndex = vs.length % p.strips.length := h.position
  rw [hp, Params.stripAt_mod]

/-- The position wraps to 0 exactly when the visit closes a round. -/
theorem next_eq : (s.currentActiveStripIndex + 1) % p.strips.length
    = (vs.length + 1) % p.strips.length := by
  have hp : s.currentActiveStripIndex = vs.length % p.strips.length := h.position
  rw [hp, Nat.mod_add_mod]

/-- Thirty times a current average fits 32 bits, that of the visit in progress too. -/
theorem current_le_concat : ∀ v ∈ vs ++ [newVisit p s vs.length], v.current ≤ (2 ^ 32 - 1) / 30 := by
  intro v hv
  rcases List.mem_append.1 hv with hv | hv
  · exact h.current_le v hv
  · obtain rfl := List.mem_singleton.1 hv
    have hc : s.currentSum < 2 ^ 32 := h.currentSum_lt
    exact Nat.div_le_div_right (by omega)

/-- The total with the visit in progress is the sum of the round's current averages, which
fits 32 bits. -/
theorem total_concat :
    s.totalAdcSummation + s.currentAverage
      = roundSum p.strips.length (roundStart p.strips.length vs.length) Visit.current
          (vs ++ [newVisit p s vs.length]) ∧
      s.totalAdcSummation + s.currentAverage < 2 ^ 32 := by
  have htot : s.totalAdcSummation = roundSum p.strips.length
      (roundStart p.strips.length vs.length) Visit.current vs := h.total
  have hle : roundSum p.strips.length (roundStart p.strips.length vs.length) Visit.current
      (vs ++ [newVisit p s vs.length]) ≤ p.strips.length * ((2 ^ 32 - 1) / 30) :=
    roundSum_le h.current_le_concat
  have h8 : p.strips.length ≤ 8 := stripList_length_le _
  have hsum : s.totalAdcSummation + s.currentAverage
      = roundSum p.strips.length (roundStart p.strips.length vs.length) Visit.current
          (vs ++ [newVisit p s vs.length]) := by
    rw [roundSum_concat_of_lt (f := Visit.current) (roundStart_le p.strips.length vs.length)
      (lt_roundStart_add h.strips_pos vs.length) (newVisit p s vs.length), ← htot]
    rfl
  refine ⟨hsum, ?_⟩
  calc s.totalAdcSummation + s.currentAverage = _ := hsum
    _ ≤ p.strips.length * ((2 ^ 32 - 1) / 30) := hle
    _ ≤ 8 * ((2 ^ 32 - 1) / 30) := Nat.mul_le_mul_right _ h8
    _ < 2 ^ 32 := by norm_num

/-- The total of a round in progress does not wrap. -/
theorem total_add :
    (s.totalAdcSummation + s.currentAverage) % 2 ^ 32
      = roundSum p.strips.length (roundStart p.strips.length vs.length) Visit.current
          (vs ++ [newVisit p s vs.length]) := by
  obtain ⟨hsum, hlt⟩ := h.total_concat
  rw [Nat.mod_eq_of_lt hlt, hsum]

/-- After the 30th tick the last `n` visits still have their voltages stored:
the new one has just been written, and no other of them went to its strip. -/
theorem stored_afterVisit {m : ℕ} {v : Visit}
    (hv : (vs ++ [newVisit p s vs.length])[m]? = some v)
    (hm : vs.length + 1 ≤ m + p.strips.length) :
    (afterVisit t p s).vSensStripValues (p.stripAt m) = (v.voltage, v.time) := by
  change Function.update s.vSensStripValues (p.stripAt s.currentActiveStripIndex)
    (s.voltageAverage, s.gTimestampMs) (p.stripAt m) = (v.voltage, v.time)
  rw [h.stripAt_position]
  rcases getElem?_concat_eq_some.1 hv with hold | ⟨rfl, rfl⟩
  · have hlt : m < vs.length := (List.getElem?_eq_some_iff.1 hold).1
    have hne : p.stripAt m ≠ p.stripAt vs.length := by
      intro he
      have := eq_of_mod_eq ((Params.stripAt_eq_iff h.strips_pos).1 he) hlt.le (by omega)
      omega
    rw [Function.update_of_ne hne]
    exact h.stored m v hold (by change vs.length ≤ _; omega)
  · rw [Function.update_self]
    rfl

/-- After the 30th tick the total is that of the round in progress. -/
theorem total_afterVisit :
    (afterVisit t p s).totalAdcSummation = roundSum p.strips.length
      (roundStart p.strips.length (vs.length + 1)) Visit.current (vs ++ [newVisit p s vs.length]) := by
  change (if (s.currentActiveStripIndex + 1) % p.strips.length = 0 then 0
    else (s.totalAdcSummation + s.currentAverage) % 2 ^ 32) = _
  rw [h.next_eq]
  by_cases h0 : (vs.length + 1) % p.strips.length = 0
  · rw [if_pos h0, roundSum_of_length_le]
    simp [roundStart, h0]
  · rw [if_neg h0, h.total_add, roundStart_succ_of_ne h.strips_pos h0]

/-- After the 30th tick each resistance is from the last complete round. -/
theorem resistances_afterVisit {m : ℕ} {v : Visit} (hv : (vs ++ [newVisit p s vs.length])[m]? = some v)
    (hlt : m < roundStart p.strips.length (vs.length + 1))
    (hle : roundStart p.strips.length (vs.length + 1) ≤ m + p.strips.length) :
    (afterVisit t p s).resistanceArray (p.stripAt m) = (resistance t v.voltage (roundSum p.strips.length
      (roundStart p.strips.length (vs.length + 1) - p.strips.length) Visit.current
        (vs ++ [newVisit p s vs.length]) / p.strips.length), intOfU32 v.time) := by
  change (if (s.currentActiveStripIndex + 1) % p.strips.length = 0 ∧ _ then _ else _) = _
  rw [h.next_eq]
  by_cases h0 : (vs.length + 1) % p.strips.length = 0
  · -- the visit closes a round: every strip's voltage is from this round
    have hstart : roundStart p.strips.length (vs.length + 1) = vs.length + 1 := by
      simp [roundStart, h0]
    have hround := roundStart_add_of_succ_mod h.strips_pos h0
    rw [hstart] at hle ⊢
    have hst := h.stored_afterVisit hv hle
    rw [if_pos ⟨h0, Params.active_stripAt h.strips_pos m⟩, ← hround, Nat.add_sub_cancel, ← h.total_add]
    change (resistance t ((afterVisit t p s).vSensStripValues (p.stripAt m)).1 _,
      intOfU32 ((afterVisit t p s).vSensStripValues (p.stripAt m)).2) = _
    rw [hst]
  · -- inside a round: nothing is recomputed
    have hstart := roundStart_succ_of_ne h.strips_pos h0
    rw [hstart] at hlt hle ⊢
    have hrs := roundStart_le p.strips.length vs.length
    have hn : p.strips.length ≤ roundStart p.strips.length vs.length := by
      have hd := Nat.dvd_of_mod_eq_zero (roundStart_mod p.strips.length vs.length)
      exact Nat.le_of_dvd (by omega) hd
    have hold : vs[m]? = some v := by
      rcases getElem?_concat_eq_some.1 hv with hold | ⟨rfl, _⟩
      · exact hold
      · omega
    rw [if_neg (fun hc => h0 hc.1), roundSum_concat_of_le (by omega)]
    exact h.resistances m v hold hlt hle

/-- **The 30th tick completes a visit.** -/
theorem visitTick (hge : ¬ s.currentCountIndex < 29) :
    Rounds t p (es ++ [.tick]) ⟨afterVisit t p s, vs ++ [newVisit p s vs.length]⟩ where
  aligned := h.aligned.afterVisit
  count := by
    have hc : s.currentCountIndex = ticks es % 30 := h.count
    simp only [ticks_concat_tick, afterVisit, visited]
    omega
  length := by
    have hc : s.currentCountIndex = ticks es % 30 := h.count
    have hl : vs.length = ticks es / 30 := h.length
    simp only [ticks_concat_tick, List.length_append, List.length_singleton]
    omega
  triggers := by rw [ticks_concat_tick]; exact congrArg (· + 1) h.triggers
  position := by
    simp only [List.length_append, List.length_singleton]
    exact h.next_eq
  strip := by
    intro m v hv
    rcases getElem?_concat_eq_some.1 hv with hold | ⟨rfl, rfl⟩
    · exact h.strip m v hold
    · rfl
  stored := by
    intro m v hv hm
    simp only [List.length_append, List.length_singleton] at hm
    exact h.stored_afterVisit hv hm
  total := by
    simp only [List.length_append, List.length_singleton]
    exact h.total_afterVisit
  resistances := by
    intro m v hv hlt hle
    simp only [List.length_append, List.length_singleton] at hlt hle ⊢
    exact h.resistances_afterVisit hv hlt hle
  inactive := by
    intro i hi
    change (if _ ∧ p.activeStrips i = true then _ else s.resistanceArray i) = _
    rw [if_neg (by simp [hi])]
    exact h.inactive i hi
  clock := by rw [sysTicks_concat_of_ne (by decide)]; exact h.clock
  times := by
    rw [sysTicks_concat_of_ne (by decide)]
    intro hs
    obtain ⟨hpair, hle⟩ := h.times hs
    refine ⟨List.pairwise_append.2 ⟨hpair, List.pairwise_singleton _ _, ?_⟩, ?_⟩
    · intro a ha b hb
      obtain rfl := List.mem_singleton.1 hb
      exact hle a ha
    · intro v hv
      rcases List.mem_append.1 hv with hv | hv
      · exact hle v hv
      · obtain rfl := List.mem_singleton.1 hv
        exact le_rfl
  currentSum_lt := by simp [afterVisit, visited]
  current_le := h.current_le_concat
  time_lt := by
    intro v hv
    rcases List.mem_append.1 hv with hv | hv
    · exact h.time_lt v hv
    · obtain rfl := List.mem_singleton.1 hv
      exact h.clock.trans_lt (Nat.mod_lt _ (by norm_num))

/-- An interrupt other than a tick changes one of the sums or the clock, and nothing else the
invariant speaks of. -/
theorem notTick {e : Event} (he : e ≠ .tick) {voltageSum currentSum gTimestampMs : ℕ}
    (hclock : gTimestampMs = sysTicks (es ++ [e]) % 2 ^ 32)
    (htimes : sysTicks (es ++ [e]) < 2 ^ 32 →
      vs.Pairwise (·.time ≤ ·.time) ∧ ∀ v ∈ vs, v.time ≤ gTimestampMs)
    (hsum : currentSum < 2 ^ 32) :
    Rounds t p (es ++ [e]) ⟨{ s with
      voltageSum
      currentSum
      gTimestampMs }, vs⟩ where
  aligned := ⟨h.aligned.indices, h.aligned.position, h.aligned.mux⟩
  count := by rw [ticks_concat_of_ne he]; exact h.count
  length := by rw [ticks_concat_of_ne he]; exact h.length
  triggers := by rw [ticks_concat_of_ne he]; exact h.triggers
  position := h.position
  strip := h.strip
  stored := h.stored
  total := h.total
  resistances := h.resistances
  inactive := h.inactive
  clock := hclock
  times := htimes
  currentSum_lt := hsum
  current_le := h.current_le
  time_lt := h.time_lt

/-- A voltage result changes nothing the invariant speaks of. -/
theorem voltage (x : UInt16) : Rounds t p (es ++ [.voltage x]) ⟨adc0IRQHandler x s, vs⟩ := by
  have hticks : sysTicks (es ++ [.voltage x]) = sysTicks es := sysTicks_concat_of_ne (by simp) es
  refine h.notTick (by simp) ?_ ?_ h.currentSum_lt
  · rw [hticks]
    exact h.clock
  · rw [hticks]
    exact h.times

/-- A current result keeps the running sum inside 32 bits. -/
theorem current (x : UInt16) : Rounds t p (es ++ [.current x]) ⟨adc1IRQHandler x s, vs⟩ := by
  have hticks : sysTicks (es ++ [.current x]) = sysTicks es := sysTicks_concat_of_ne (by simp) es
  refine h.notTick (by simp) ?_ ?_ (Nat.mod_lt _ (by norm_num))
  · rw [hticks]
    exact h.clock
  · rw [hticks]
    exact h.times

/-- A SysTick advances the clock, which has not wrapped as long as fewer than
`2 ^ 32` of them have arrived. -/
theorem sysTick : Rounds t p (es ++ [.sysTick]) ⟨sysTickHandler s, vs⟩ := by
  have hc : s.gTimestampMs = sysTicks es % 2 ^ 32 := h.clock
  refine h.notTick (by simp) ?_ ?_ h.currentSum_lt
  · rw [sysTicks_concat_sysTick, hc, Nat.mod_add_mod]
  · rw [sysTicks_concat_sysTick]
    intro hs
    obtain ⟨hpair, hle⟩ := h.times (by omega)
    refine ⟨hpair, fun v hv => ?_⟩
    have hv' : v.time ≤ s.gTimestampMs := hle v hv
    omega

end Visit

/-- **Every interrupt keeps the invariant**, and none of them is a fault. -/
theorem step (hp : p.Counted) {r : Recorded} (h : Rounds t p es r) (e : Event) :
    ∃ r', recordStep t modbusFlag p r e = .ok r' ∧ Rounds t p (es ++ [e]) r' := by
  obtain ⟨s, vs⟩ := r
  have hn : p.gStripCount ≠ 0 := by
    rw [hp.eq_length]
    have := h.strips_pos
    omega
  cases e with
  | tick =>
      by_cases hlt : s.currentCountIndex < 29
      · exact ⟨_, recordStep_of_lt hn hlt vs, h.countTick hlt⟩
      · refine ⟨_, recordStep_of_ge hp h.aligned hlt vs, ?_⟩
        rw [newVisit, h.stripAt_position]
        exact h.visitTick hlt
  | voltage x => exact ⟨_, recordStep_of_ne_tick (by simp) rfl vs, h.voltage x⟩
  | current x => exact ⟨_, recordStep_of_ne_tick (by simp) rfl vs, h.current x⟩
  | sysTick => exact ⟨_, recordStep_of_ne_tick (by simp) rfl vs, h.sysTick⟩

end Rounds

end Sampler
end GasSensor
