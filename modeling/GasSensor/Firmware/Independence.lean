/-
# A new measurement and the one before it

`InitializeAllPeripherals` resets the position of the sampler, its tick counter,
the clock and `resistance_array`, but not `VoltageSum`, `CurrentSum` and
`Total_adc_summation`: what an interrupted visit or round has left in them goes
into the first averages of the new measurement.

A history is a sequence of configurations and interrupts from boot.
`independent_iff` takes two histories that end with the same parameters and one
continuation, and says exactly when both runs write the same.
-/

import GasSensor.Firmware.Applied
import GasSensor.Sampler.Outputs
import GasSensor.Sampler.RoundRobin

namespace GasSensor
namespace Firmware

open Sampler

/-- What a history is made of. -/
inductive Input
  /-- Parameters are put into force and `InitializeAllPeripherals` runs, with no interrupt
  meanwhile. -/
  | configure (malloc : Malloc ℕ) (p : Params)
  /-- An interrupt of the sampler. -/
  | interrupt (e : Sampler.Event)

section

variable [Arithmetic]

/-- One input, on the parameters in force and the peripherals. -/
def inputStep (t : Target) (modbusFlag : Bool) (q : Params × Peripherals) :
    Input → Except Fault (Params × Peripherals)
  | .configure malloc p => initializeAllPeripherals t malloc p q.2 >>= fun (d, _) => .ok (p, d)
  | .interrupt e => q.2.sampler.interrupt t modbusFlag q.1 e >>= fun s =>
      .ok (q.1, { q.2 with sampler := s })

variable {t : Target} {modbusFlag : Bool} {p : Params} {malloc : Malloc ℕ} {d d' : Peripherals}

omit [Arithmetic] in
/-- A configuration does not touch the three sums. -/
theorem leftover_of_configure {s s' : Sampler} (h : configure malloc p s = .ok s') :
    s'.leftover = s.leftover := by
  obtain ⟨u, hu, h⟩ := Run.bind_eq_ok.1 h
  have htimer : s'.leftover = u.leftover := by
    unfold adcVoltageTimerSetup at h
    split at h
    · cases h
    · cases h
      rfl
  have hconvert : u.leftover = s.leftover := by
    obtain ⟨b, -, hu⟩ := Run.bind_eq_ok.1 hu
    split at hu
    · cases hu
      rfl
    · obtain ⟨filled, -, hu⟩ := Run.bind_eq_ok.1 hu
      cases hu
      rfl
  exact htimer.trans hconvert

/-- The voltage and current sums fit their `uint32_t`. -/
def SumsFit (l : Leftover) : Prop := l.voltageSum < 2 ^ 32 ∧ l.currentSum < 2 ^ 32

/-- Every interrupt leaves sums that fit. -/
theorem sumsFit_interrupt {s s' : Sampler} {e : Sampler.Event} (hs : SumsFit s.leftover)
    (h : s.interrupt t modbusFlag p e = .ok s') : SumsFit s'.leftover := by
  unfold interrupt at h
  split at h
  · cases h
    exact hs
  cases e with
  | voltage x => cases h; exact ⟨Nat.mod_lt _ (by norm_num), hs.2⟩
  | current x => cases h; exact ⟨hs.1, Nat.mod_lt _ (by norm_num)⟩
  | sysTick => cases h; exact hs
  | tick =>
      rcases tick_cases h with rfl | ⟨-, rfl⟩ | ⟨-, i, channel, rfl⟩
      · exact hs
      · exact hs
      · exact ⟨Nat.two_pow_pos 32, Nat.two_pow_pos 32⟩

/-- The sums fit after every history. -/
theorem sumsFit_run {es : List Input} {q : Params × Peripherals}
    (h : es.foldlM (inputStep t modbusFlag) (.boot, .boot) = .ok q) : SumsFit q.2.sampler.leftover := by
  refine Run.foldlM_invariant (I := fun q => SumsFit q.2.sampler.leftover) ?_
    ⟨Nat.two_pow_pos 32, Nat.two_pow_pos 32⟩ h
  intro q input q' hq hstep
  cases input with
  | configure malloc p =>
      obtain ⟨⟨d, status⟩, hinit, hstep⟩ := Run.bind_eq_ok.1 hstep
      cases hstep
      rcases initializeAllPeripherals_cases hinit with ⟨-, -, hsame⟩ | ⟨-, -, s', hs', hclear⟩
      · change SumsFit d.sampler.leftover
        rw [hsame]
        exact hq
      · change SumsFit d.sampler.leftover
        rw [hclear]
        change SumsFit s'.leftover
        rw [leftover_of_configure hs']
        exact hq
  | interrupt e =>
      obtain ⟨s', hs', hstep⟩ := Run.bind_eq_ok.1 hstep
      cases hstep
      exact sumsFit_interrupt hq hs'

/-- With strips and memory for the index block: what the visits compute, from the sums
as they were before the configuration. -/
theorem outputs_of_configured (hp : p.Counted) (hpos : 0 < p.strips.length)
    (hm : (malloc p.gStripCount).isSome) (hfit : SumsFit d.sampler.leftover)
    (h : initializeAllPeripherals t malloc p d = .ok (d', 0)) (es : List Sampler.Event) :
    outputs t modbusFlag p d'.sampler es
      = visitOutputs t p 0 d.sampler.leftover.totalAdcSummation d'.sampler.vSensStripValues
          (d.sampler.leftover.averages (gather 0 0 0 0 es)) := by
  rcases initializeAllPeripherals_cases h with ⟨-, hstatus, -⟩ | ⟨-, -, s', hs', hclear⟩
  · exact absurd hstatus (by decide)
  have hleft : s'.leftover = d.sampler.leftover := leftover_of_configure hs'
  obtain ⟨-, -, hidx, hcount, -⟩ := configure_ok hp hs'
  have haligned := aligned_of_configure hp hpos hm hs'
  have hcleared : Aligned p (clearMeasurement s') := ⟨haligned.indices, haligned.position, haligned.mux⟩
  have hv : (clearMeasurement s').voltageSum = (d.sampler.leftover.voltageSum + 0) % 2 ^ 32 := by
    rw [← hleft, Nat.add_zero, Nat.mod_eq_of_lt (hleft ▸ hfit.1)]
    rfl
  have hc : (clearMeasurement s').currentSum = (d.sampler.leftover.currentSum + 0) % 2 ^ 32 := by
    rw [← hleft, Nat.add_zero, Nat.mod_eq_of_lt (hleft ▸ hfit.2)]
    rfl
  have hrun : outputs t modbusFlag p (clearMeasurement s') es = _ := outputs_eq hp hcleared hv hc
  have hidx' : (clearMeasurement s').currentActiveStripIndex = 0 := hidx
  have hcount' : (clearMeasurement s').currentCountIndex = 0 := hcount
  rw [hidx', hcount'] at hrun
  rw [hclear, hrun, ← hleft]
  rfl

/-- Without a strip, or without memory for the index block, nothing is written. -/
theorem outputs_of_no_block (hp : p.Counted) (hno : p.strips = [] ∨ malloc p.gStripCount = none)
    (h : initializeAllPeripherals t malloc p d = .ok (d', 0)) (es : List Sampler.Event) :
    outputs t modbusFlag p d'.sampler es = [] := by
  rcases initializeAllPeripherals_cases h with ⟨-, hstatus, -⟩ | ⟨-, -, s', hs', hclear⟩
  · exact absurd hstatus (by decide)
  obtain ⟨-, -, -, -, hblock⟩ := configure_ok hp hs'
  refine outputs_of_unreadable fun i channel => ?_
  have hsame : d'.sampler.activeStripIndices = s'.activeStripIndices := by rw [hclear]; rfl
  rw [hsame, hblock]
  rcases hno with hnil | hnone
  · split
    · simp [hnil, Block.read, readAt]
    · simp [Block.read]
  · simp [hnone, Block.read]

/-- **When two histories make no difference** to a measurement with the parameters
`p`, for a continuation cut into visits: nothing is written in either, or no
visit is completed, or both have memory for the index block and what they
left in the sums does not show. -/
def Independent (t : Target) (p : Params) (malloc₁ malloc₂ : Malloc ℕ) (l₁ l₂ : Leftover)
    (gs : List Gathered) : Prop :=
  p.strips = [] ∨ gs = [] ∨ (malloc₁ p.gStripCount = none ∧ malloc₂ p.gStripCount = none) ∨
    ((malloc₁ p.gStripCount).isSome ∧ (malloc₂ p.gStripCount).isSome ∧ Unaffected t p l₁ l₂ gs)

/-- **When a new measurement does not depend on the old one.**  Two histories end in a
successful `InitializeAllPeripherals` with the same parameters and go on with
the same interrupts `es`.  What is then written to the two arrays is the same
exactly if `Independent` holds of what the histories left in the sums. -/
theorem independent_iff (t : Target) (modbusFlag : Bool) (hp : p.Counted) {h₁ h₂ : List Input}
    {q₁ q₂ : Params × Peripherals} {d₁ d₂ : Peripherals} {malloc₁ malloc₂ : Malloc ℕ}
    (hrun₁ : h₁.foldlM (inputStep t modbusFlag) (.boot, .boot) = .ok q₁)
    (hrun₂ : h₂.foldlM (inputStep t modbusFlag) (.boot, .boot) = .ok q₂)
    (hinit₁ : initializeAllPeripherals t malloc₁ p q₁.2 = .ok (d₁, 0))
    (hinit₂ : initializeAllPeripherals t malloc₂ p q₂.2 = .ok (d₂, 0)) (es : List Sampler.Event) :
    outputs t modbusFlag p d₁.sampler es = outputs t modbusFlag p d₂.sampler es ↔
      Independent t p malloc₁ malloc₂ q₁.2.sampler.leftover q₂.2.sampler.leftover (gather 0 0 0 0 es) := by
  by_cases hnil : p.strips = []
  · rw [outputs_of_no_block hp (.inl hnil) hinit₁, outputs_of_no_block hp (.inl hnil) hinit₂]
    exact ⟨fun _ => .inl hnil, fun _ => rfl⟩
  have hpos : 0 < p.strips.length := List.length_pos_iff.2 hnil
  have hfit₁ := sumsFit_run hrun₁
  have hfit₂ := sumsFit_run hrun₂
  -- a measurement that works writes something as soon as a visit is completed
  have hempty : ∀ total stored (l : Leftover) (gs : List Gathered),
      visitOutputs t p 0 total stored (l.averages gs) = [] ↔ gs = [] := by
    intro total stored l gs
    cases gs with
    | nil => exact ⟨fun _ => rfl, fun _ => rfl⟩
    | cons g gs => exact ⟨fun h => (nomatch h), fun h => (nomatch h)⟩
  unfold Independent
  cases hm₁ : malloc₁ p.gStripCount with
  | none =>
      rw [outputs_of_no_block hp (.inr hm₁) hinit₁]
      cases hm₂ : malloc₂ p.gStripCount with
      | none =>
          rw [outputs_of_no_block hp (.inr hm₂) hinit₂]
          simp
      | some v =>
          rw [outputs_of_configured hp hpos (by rw [hm₂]; rfl) hfit₂ hinit₂, eq_comm, hempty]
          simp [hnil]
  | some v =>
      rw [outputs_of_configured hp hpos (by rw [hm₁]; rfl) hfit₁ hinit₁]
      cases hm₂ : malloc₂ p.gStripCount with
      | none =>
          rw [outputs_of_no_block hp (.inr hm₂) hinit₂, hempty]
          simp [hnil]
      | some w =>
          rw [outputs_of_configured hp hpos (by rw [hm₂]; rfl) hfit₂ hinit₂,
            visitOutputs_leftover_iff hpos]
          simpa [hnil] using fun h => h ▸ unaffected_nil hpos

end

attribute [local instance] Arithmetic.uncontracted

/-- A measurement with two strips that is cut after one tick, when 30 has arrived from
the voltage ADC and 0 from the other. -/
def cutMeasurement : List Input :=
  [.configure zeroedMalloc twoStrips, .interrupt .tick, .interrupt (.voltage 30), .interrupt (.current 0)]

/-- A visit without a conversion. -/
def emptyVisit : List Sampler.Event := List.replicate 30 .tick

/-- The hypotheses of `independent_iff` are satisfiable: from boot, and after the cut
measurement, with a visit that is completed. -/
theorem independent_iff_cutMeasurement :
    ∃ (q : Params × Peripherals) (d₁ d₂ : Peripherals),
      cutMeasurement.foldlM (inputStep .saturating false) (.boot, .boot) = .ok q ∧
      (outputs .saturating false twoStrips d₁.sampler emptyVisit
          = outputs .saturating false twoStrips d₂.sampler emptyVisit ↔
        Independent .saturating twoStrips zeroedMalloc zeroedMalloc Sampler.boot.leftover q.2.sampler.leftover
          (gather 0 0 0 0 emptyVisit)) := by
  have hrun : (fun q : Params × Peripherals => q.2.sampler.activeStripIndices) <$>
      cutMeasurement.foldlM (inputStep .saturating false) (.boot, .boot) = .ok (.live [2, 5]) := by
    decide +kernel
  have hr : ¬ Rejected twoStrips := by
    unfold Rejected
    decide +kernel
  have hinit : ∀ d : Peripherals, d.sampler.activeStripIndices ≠ .freed →
      ∃ d', initializeAllPeripherals .saturating zeroedMalloc twoStrips d = .ok (d', 0) := by
    intro d hd
    obtain ⟨d', status, h, -⟩ := initializeAllPeripherals_ok .saturating zeroedMalloc
      (p := twoStrips) (by decide) (by decide) hd
    rcases initializeAllPeripherals_cases h with ⟨hrej, -⟩ | ⟨-, rfl, -⟩
    · exact absurd hrej hr
    · exact ⟨d', h⟩
  cases hq : cutMeasurement.foldlM (inputStep .saturating false) (.boot, .boot) with
  | error f =>
      rw [hq] at hrun
      cases hrun
  | ok q =>
      rw [hq] at hrun
      have hlive : q.2.sampler.activeStripIndices = .live [2, 5] := Except.ok.inj hrun
      obtain ⟨d₁, hd₁⟩ := hinit .boot (by simp [Peripherals.boot, Sampler.boot])
      obtain ⟨d₂, hd₂⟩ := hinit q.2 (by simp [hlive])
      have hnil : ([] : List Input).foldlM (inputStep .saturating false) (.boot, .boot) = .ok (.boot, .boot) := rfl
      exact ⟨q, d₁, d₂, rfl, independent_iff .saturating false (by decide) hnil hq hd₁ hd₂ emptyVisit⟩

/-- What a new measurement with two strips writes after a history. -/
def newMeasurement (h : List Input) (es : List Sampler.Event) : Except Fault (ℤ × List Written) := do
  let q ← h.foldlM (inputStep .saturating false) (.boot, .boot)
  let (d, status) ← initializeAllPeripherals .saturating zeroedMalloc twoStrips q.2
  .ok (status, outputs .saturating false twoStrips d.sampler es)

/-- **A measurement that was cut goes into the next one.**  Thirty ticks without a
conversion store the average 0 after boot, and 1 after the cut measurement. -/
theorem cutMeasurement_shows :
    newMeasurement [] emptyVisit = .ok (0, [.voltage 2 0 0]) ∧
      newMeasurement cutMeasurement emptyVisit = .ok (0, [.voltage 2 1 0]) := by
  constructor <;> decide +kernel

end Firmware
end GasSensor
