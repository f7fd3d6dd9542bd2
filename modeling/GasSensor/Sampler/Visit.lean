/-
# One visit to a strip

What a tick of CTIMER2 does to a sampler that is `Aligned` with its
configuration, as two equations: a tick before the 30th only counts and
triggers (`tick_of_lt`), the 30th tick leaves `afterVisit` (`tick_of_ge`).
Nothing later in the development unfolds the handler.

`Visit` is what a completed visit leaves behind: the strip the multiplexer
selected, the voltage average and the time stored for it, and the current
average added to the total.  `recordStep` runs the sampler and writes down the
visits; `record_run` says that it is the sampler's run.
-/

import GasSensor.Sampler.Configure

namespace GasSensor
namespace Sampler

variable {t : Target} {modbusFlag : Bool} {p : Params} {s : Sampler}

/-- The voltage average of the visit in progress, as the 30th tick computes it. -/
def voltageAverage (s : Sampler) : ℕ := s.voltageSum / softwareAverageCount

/-- The current average of the visit in progress. -/
def currentAverage (s : Sampler) : ℕ := s.currentSum / softwareAverageCount

variable [Arithmetic]

/-- The sampler after the 30th tick of a visit to strip `i`, with `n` for the strip
count and `channel` for the channel it selects next. -/
def visited (t : Target) (active : Strip → Bool) (n : ℕ) (i : Strip) (channel : ℕ) (s : Sampler) :
    Sampler :=
  let next := (s.currentActiveStripIndex + 1) % n
  let stored := Function.update s.vSensStripValues i (s.voltageAverage, s.gTimestampMs)
  let total := (s.totalAdcSummation + s.currentAverage) % 2 ^ 32
  { s with
    voltageSum := 0
    currentSum := 0
    resultVoltage := s.voltageAverage
    currentAdcResult := s.currentAverage
    totalAdcSummation := if next = 0 then 0 else total
    currentCountIndex := 0
    currentActiveStripIndex := next
    vSensStripValues := stored
    resistanceArray := fun i =>
      if next = 0 ∧ active i = true then
        (resistance t (stored i).1 (total / n), intOfU32 (stored i).2)
      else s.resistanceArray i
    mux := s.mux.selectMuxChannel channel
    triggers := s.triggers + 1 }

/-- The sampler after the 30th tick of a visit to the strip at its position. -/
def afterVisit (t : Target) (p : Params) (s : Sampler) : Sampler :=
  visited t p.activeStrips p.strips.length (p.stripAt s.currentActiveStripIndex)
    (p.stripAt ((s.currentActiveStripIndex + 1) % p.strips.length)).val s

/-- A tick before the 30th triggers the ADCs and counts. -/
theorem tick_of_lt (hn : p.gStripCount ≠ 0) (h : s.currentCountIndex < softwareAverageCount - 1) :
    ctimer2IRQHandler t modbusFlag p s = .ok { s with
      triggers := s.triggers + 1
      currentCountIndex := s.currentCountIndex + 1 } := by
  rw [ctimer2IRQHandler, if_neg (by simp [hn]), if_pos h]

omit [Arithmetic] in
/-- The handler stores a voltage exactly for a channel below 8. -/
theorem storeVoltage_eq_ok {channel voltage time : ℕ} {s' : Sampler} :
    storeVoltage s channel voltage time = .ok s' ↔ ∃ i : Strip, channel = i.val ∧
      s' = { s with vSensStripValues := Function.update s.vSensStripValues i (voltage, time) } := by
  unfold storeVoltage
  split
  next h =>
    rw [Except.ok.injEq, eq_comm]
    constructor
    · exact fun hs => ⟨⟨channel, h⟩, rfl, hs⟩
    · rintro ⟨i, rfl, hs⟩
      exact hs
  next h =>
    constructor
    · intro hs
      cases hs
    · rintro ⟨i, rfl, -⟩
      exact absurd i.isLt h

omit [Arithmetic] in
/-- Storing the averages and moving on: when this succeeds, and what it does then. -/
theorem advance_eq_ok {s' : Sampler} :
    advance p s = .ok s' ↔ p.gStripCount ≠ 0 ∧ ∃ i : Strip,
      s.activeStripIndices.read s.currentActiveStripIndex = .ok i.val ∧ s' = { s with
        vSensStripValues := Function.update s.vSensStripValues i (s.resultVoltage, s.gTimestampMs)
        currentSum := 0
        voltageSum := 0
        currentCountIndex := 0
        currentActiveStripIndex := (s.currentActiveStripIndex + 1) % p.gStripCount } := by
  unfold advance
  simp only [Run.bind_eq_ok, storeVoltage_eq_ok]
  constructor
  · rintro ⟨channel, hread, u, ⟨i, rfl, rfl⟩, h⟩
    split at h
    next => cases h
    next hn => exact ⟨hn, i, hread, (Except.ok.inj h).symm⟩
  · rintro ⟨hn, i, hread, rfl⟩
    exact ⟨i, hread, _, ⟨i, rfl, rfl⟩, if_neg hn⟩

/-- **The 30th tick**: when the handler succeeds, and what it does then.  It reads
the block of active strip numbers at its position and at the next one. -/
theorem completeVisit_eq_ok {s' : Sampler} :
    completeVisit t p s = .ok s' ↔ p.gStripCount ≠ 0 ∧ ∃ i : Strip, ∃ channel,
      s.activeStripIndices.read s.currentActiveStripIndex = .ok i.val ∧
      s.activeStripIndices.read ((s.currentActiveStripIndex + 1) % p.gStripCount) = .ok channel ∧
      s' = visited t p.activeStrips p.gStripCount i channel s := by
  have hvisited : ∀ i channel, (let u : Sampler := { s with
        triggers := s.triggers + 1
        currentAdcResult := s.currentSum / softwareAverageCount
        resultVoltage := s.voltageSum / softwareAverageCount
        totalAdcSummation := (s.totalAdcSummation + s.currentSum / softwareAverageCount) % 2 ^ 32
        vSensStripValues := Function.update s.vSensStripValues i
          (s.voltageSum / softwareAverageCount, s.gTimestampMs)
        currentSum := 0
        voltageSum := 0
        currentCountIndex := 0
        currentActiveStripIndex := (s.currentActiveStripIndex + 1) % p.gStripCount }
      let v := if u.currentActiveStripIndex = 0 then calculateResistanceArray t p u else u
      { v with mux := v.mux.selectMuxChannel channel })
      = visited t p.activeStrips p.gStripCount i channel s := by
    intro i channel
    dsimp only
    -- the resistances are computed exactly when the position wraps to 0
    by_cases h0 : (s.currentActiveStripIndex + 1) % p.gStripCount = 0
    · simp only [h0, if_true, calculateResistanceArray, visited, voltageAverage, currentAverage, true_and]
    · simp only [h0, if_false, visited, voltageAverage, currentAverage, false_and]
  unfold completeVisit
  simp only [Run.bind_eq_ok, advance_eq_ok]
  constructor
  · rintro ⟨u, ⟨hn, i, hread, rfl⟩, channel, hnext, h⟩
    refine ⟨hn, i, channel, hread, ?_, ?_⟩
    · split at hnext <;> exact hnext
    · rw [← hvisited]
      exact (Except.ok.inj h).symm
  · rintro ⟨hn, i, channel, hread, hnext, rfl⟩
    refine ⟨_, ⟨hn, i, hread, rfl⟩, channel, ?_, ?_⟩
    · split <;> exact hnext
    · rw [← hvisited]

/-- **What a tick can do**: nothing, count, or complete a visit. -/
theorem tick_cases {s' : Sampler} (h : ctimer2IRQHandler t modbusFlag p s = .ok s') :
    s' = s ∨
    (s.currentCountIndex < softwareAverageCount - 1 ∧ s' = { s with
      triggers := s.triggers + 1
      currentCountIndex := s.currentCountIndex + 1 }) ∨
    (¬ s.currentCountIndex < softwareAverageCount - 1 ∧
      ∃ i channel, s' = visited t p.activeStrips p.gStripCount i channel s) := by
  unfold ctimer2IRQHandler at h
  split at h
  next => exact .inl (Except.ok.inj h).symm
  next =>
    split at h
    next hlt => exact .inr (.inl ⟨hlt, (Except.ok.inj h).symm⟩)
    next hge =>
      obtain ⟨-, i, channel, -, -, hs'⟩ := completeVisit_eq_ok.1 h
      exact .inr (.inr ⟨hge, i, channel, hs'⟩)

/-- No interrupt replaces the block of active strip numbers. -/
theorem step_activeStripIndices {s' : Sampler} {e : Event}
    (h : step t modbusFlag p s e = .ok s') :
    s'.activeStripIndices = s.activeStripIndices := by
  cases e with
  | tick => rcases tick_cases h with rfl | ⟨-, rfl⟩ | ⟨-, i, channel, rfl⟩ <;> rfl
  | voltage x => cases h; rfl
  | current x => cases h; rfl
  | sysTick => cases h; rfl

omit [Arithmetic] in
theorem read_index (hi : s.activeStripIndices = .live (p.strips.map Fin.val)) {j : ℕ}
    (hj : j < p.strips.length) : s.activeStripIndices.read j = .ok (p.stripAt j).val := by
  rw [Block.read_eq_ok]
  exact ⟨_, hi, by rw [List.getElem?_map, Params.strips_getElem? hj]; rfl⟩

/-- **The 30th tick of an aligned sampler.**  The handler finds the active strip at
its position, stores the averages for it and moves on without a fault. -/
theorem tick_of_ge (hp : p.Counted) (ha : Aligned p s)
    (h : ¬ s.currentCountIndex < softwareAverageCount - 1) :
    ctimer2IRQHandler t modbusFlag p s = .ok (afterVisit t p s) := by
  have hpos : 0 < p.strips.length := by have := ha.position; omega
  have hn : p.gStripCount ≠ 0 := by rw [hp.eq_length]; omega
  have hnext : (s.currentActiveStripIndex + 1) % p.strips.length < p.strips.length :=
    Nat.mod_lt _ hpos
  rw [ctimer2IRQHandler, if_neg (by simp [hn]), if_neg h, completeVisit_eq_ok, hp.eq_length]
  exact ⟨hpos.ne', _, _, read_index ha.indices ha.position, read_index ha.indices hnext, rfl⟩

/-- A visit keeps the sampler aligned. -/
theorem Aligned.afterVisit (ha : Aligned p s) : Aligned p (afterVisit t p s) := by
  have hpos : 0 < p.strips.length := by have := ha.position; omega
  exact ⟨ha.indices, Nat.mod_lt _ hpos, Mux.channel_selectMuxChannel _ _⟩

/-- What a completed visit leaves behind. -/
structure Visit where
  strip : Strip
  voltage : ℕ
  current : ℕ
  time : ℕ
  deriving DecidableEq

/-- The step is a tick that takes the averaging branch. -/
def Completes (modbusFlag : Bool) (p : Params) (s : Sampler) (e : Event) : Prop :=
  e = .tick ∧ ¬ (p.gStripCount = 0 ∧ modbusFlag = false) ∧
    ¬ s.currentCountIndex < softwareAverageCount - 1

instance (modbusFlag : Bool) (p : Params) (s : Sampler) (e : Event) :
    Decidable (Completes modbusFlag p s e) :=
  inferInstanceAs (Decidable (_ ∧ _ ∧ _))

/-- The visit a step from `s` to `s'` completed, read off the selected channel
before the step and the stored values after it. -/
def visitOf (s s' : Sampler) : Visit where
  strip := s.mux.channel
  voltage := (s'.vSensStripValues s.mux.channel).1
  current := s'.currentAdcResult
  time := (s'.vSensStripValues s.mux.channel).2

/-- The `m`-th visit of a round robin, as its 30th tick finds the sampler. -/
def newVisit (p : Params) (s : Sampler) (m : ℕ) : Visit :=
  ⟨p.stripAt m, s.voltageAverage, s.currentAverage, s.gTimestampMs⟩

/-- A sampler with the visits it has completed, oldest first. -/
structure Recorded where
  sampler : Sampler
  visits : List Visit

/-- One interrupt, with the visit it completes written down. -/
def recordStep (t : Target) (modbusFlag : Bool) (p : Params) (r : Recorded) (e : Event) :
    Except Fault Recorded :=
  step t modbusFlag p r.sampler e >>= fun s' =>
    .ok ⟨s', if Completes modbusFlag p r.sampler e then r.visits ++ [visitOf r.sampler s'] else r.visits⟩

/-- **Recording does not change the run.** -/
theorem record_run (es : List Event) (r : Recorded) :
    Recorded.sampler <$> es.foldlM (recordStep t modbusFlag p) r
      = es.foldlM (step t modbusFlag p) r.sampler := by
  induction es generalizing r with
  | nil => rfl
  | cons e es ih =>
      simp only [List.foldlM_cons, recordStep]
      cases step t modbusFlag p r.sampler e with
      | error f => rfl
      | ok s' => exact ih _

/-- The 30th tick of an aligned sampler records the strip at its position. -/
theorem recordStep_of_ge (hp : p.Counted) (ha : Aligned p s)
    (h : ¬ s.currentCountIndex < softwareAverageCount - 1) (vs : List Visit) :
    recordStep t modbusFlag p ⟨s, vs⟩ .tick
      = .ok ⟨afterVisit t p s, vs ++ [newVisit p s s.currentActiveStripIndex]⟩ := by
  have hn : p.gStripCount ≠ 0 := by rw [hp.eq_length]; have := ha.position; omega
  have hc : Completes modbusFlag p s .tick := ⟨rfl, by simp [hn], h⟩
  have hv : visitOf s (afterVisit t p s) = newVisit p s s.currentActiveStripIndex := by
    simp [visitOf, newVisit, ha.mux, Sampler.afterVisit, visited]
  rw [recordStep, step, tick_of_ge hp ha h]
  change Except.ok _ = Except.ok _
  rw [if_pos hc, hv]

/-- A tick before the 30th records nothing. -/
theorem recordStep_of_lt (hn : p.gStripCount ≠ 0)
    (h : s.currentCountIndex < softwareAverageCount - 1) (vs : List Visit) :
    recordStep t modbusFlag p ⟨s, vs⟩ .tick = .ok ⟨{ s with
      triggers := s.triggers + 1
      currentCountIndex := s.currentCountIndex + 1 }, vs⟩ := by
  have hc : ¬ Completes modbusFlag p s .tick := fun hc => hc.2.2 h
  rw [recordStep, step, tick_of_lt hn h]
  change Except.ok _ = Except.ok _
  rw [if_neg hc]

/-- An interrupt other than the tick records nothing. -/
theorem recordStep_of_ne_tick {e : Event} (he : e ≠ .tick) {s' : Sampler}
    (h : step t modbusFlag p s e = .ok s') (vs : List Visit) :
    recordStep t modbusFlag p ⟨s, vs⟩ e = .ok ⟨s', vs⟩ := by
  have hc : ¬ Completes modbusFlag p s e := fun hc => he hc.1
  rw [recordStep, h]
  change Except.ok _ = Except.ok _
  rw [if_neg hc]

end Sampler
end GasSensor
