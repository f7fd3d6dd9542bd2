/-
# Configuring the sampler

What the configuration path leaves in the sampler.  `ConvertActiveStrips`
compacts the strip flags into the block of active strip numbers
(`convertActiveStrips_eq`), `FirstActiveStrip` finds the head of that list
(`firstActiveStrip_eq`), and after `ADC_Voltage_timer_setup` the sampler stands
at the first active strip with both counters at zero.  `Aligned` is the
relation between the strip flags, the block, the position and the multiplexer
that a measurement keeps from then on.
-/

import GasSensor.Sampler.Basic

namespace GasSensor

/-- The active strips in increasing order. -/
abbrev Params.strips (p : Params) : List Strip := stripList p.activeStrips

/-- The strip count is the number of flags that are set, as both configuration
paths leave it. -/
def Params.Counted (p : Params) : Prop := p.gStripCount = countStrips p.activeStrips

instance (p : Params) : Decidable p.Counted := inferInstanceAs (Decidable (_ = _))

theorem Params.counted_boot [Arithmetic] : Params.boot.Counted :=
  show 0 = countStrips fun _ => false by decide

theorem Params.Counted.eq_length {p : Params} (h : p.Counted) : p.gStripCount = p.strips.length := by
  rw [h, countStrips_eq]

/-- The strip of the `m`-th visit when the active strips are visited in turn. -/
def Params.stripAt (p : Params) (m : ℕ) : Strip := p.strips.getD (m % p.strips.length) 0

namespace Params

variable {p : Params}

theorem strips_getElem?_mod (h : 0 < p.strips.length) (m : ℕ) :
    p.strips[m % p.strips.length]? = some (p.stripAt m) := by
  have hlt : m % p.strips.length < p.strips.length := Nat.mod_lt m h
  rw [stripAt, List.getD_eq_getElem?_getD, List.getElem?_eq_getElem hlt, Option.getD_some]

theorem strips_getElem? {j : ℕ} (h : j < p.strips.length) : p.strips[j]? = some (p.stripAt j) := by
  have := strips_getElem?_mod (p := p) (by omega) j
  rwa [Nat.mod_eq_of_lt h] at this

@[simp] theorem stripAt_mod (m : ℕ) : p.stripAt (m % p.strips.length) = p.stripAt m := by
  rw [stripAt, stripAt, Nat.mod_mod]

/-- Only active strips are visited. -/
theorem active_stripAt (h : 0 < p.strips.length) (m : ℕ) : p.activeStrips (p.stripAt m) = true :=
  mem_stripList.1 (List.mem_of_getElem? (strips_getElem?_mod h m))

/-- Every active strip has a place in the round. -/
theorem exists_stripAt {i : Strip} (h : p.activeStrips i = true) :
    ∃ j, j < p.strips.length ∧ p.stripAt j = i := by
  obtain ⟨j, hj⟩ := List.mem_iff_getElem?.1 (mem_stripList.2 h)
  have hlt : j < p.strips.length := (List.getElem?_eq_some_iff.1 hj).1
  exact ⟨j, hlt, Option.some.inj ((strips_getElem? hlt).symm.trans hj)⟩

/-- Two visits go to the same strip exactly when they have the same place in
their rounds. -/
theorem stripAt_eq_iff (h : 0 < p.strips.length) {m k : ℕ} :
    p.stripAt m = p.stripAt k ↔ m % p.strips.length = k % p.strips.length := by
  have hm : m % p.strips.length < p.strips.length := Nat.mod_lt m h
  have hk : k % p.strips.length < p.strips.length := Nat.mod_lt k h
  constructor
  · intro he
    have hget := (strips_getElem?_mod h m).trans ((congrArg some he).trans (strips_getElem?_mod h k).symm)
    rw [List.getElem?_eq_getElem hm, List.getElem?_eq_getElem hk, Option.some.injEq] at hget
    exact (stripList_nodup p.activeStrips).getElem_inj_iff.1 hget
  · intro he
    rw [stripAt, stripAt, he]

/-- Within a round the strips are visited in increasing order. -/
theorem stripAt_lt_stripAt {j k : ℕ} (hjk : j < k) (hk : k < p.strips.length) :
    p.stripAt j < p.stripAt k := by
  have hj : j < p.strips.length := by omega
  have hsorted := List.pairwise_iff_getElem.1 (stripList_sortedLT p.activeStrips) j k hj hk hjk
  have ej := (List.getElem?_eq_getElem hj).symm.trans (strips_getElem? hj)
  have ek := (List.getElem?_eq_getElem hk).symm.trans (strips_getElem? hk)
  rwa [Option.some.inj ej, Option.some.inj ek] at hsorted

end Params

namespace Sampler

/-- The loop of `ConvertActiveStrips` stores the active strips one after the
other. -/
theorem fillIndices_live (active : Strip → Bool) (l : List Strip) (k : ℕ) (cells : List ℕ) :
    fillIndices active l k (.live cells)
      = Block.live <$> writeFrom cells k ((l.filter active).map Fin.val) := by
  induction l generalizing k cells with
  | nil => rfl
  | cons i l ih =>
      by_cases hi : active i = true
      · simp only [fillIndices, hi, if_true, List.filter_cons, List.map_cons, writeFrom, Block.write]
        cases writeAt cells k i with
        | error f => rfl
        | ok cells' => exact ih (k + 1) cells'
      · simp only [fillIndices, hi, if_false, List.filter_cons, Bool.false_eq_true]
        exact ih k cells

/-- **`ConvertActiveStrips` compacts the strip flags.**  With a strip count that
counts the flags and memory for it, the block holds exactly the active strip
numbers in increasing order. -/
theorem convertActiveStrips_eq {malloc : Malloc ℕ} {p : Params} {s : Sampler} (hp : p.Counted)
    (hs : s.activeStripIndices ≠ .freed) (hm : (malloc p.gStripCount).isSome) :
    convertActiveStrips malloc p s
      = .ok { s with activeStripIndices := .live (p.strips.map Fin.val) } := by
  obtain ⟨v, hv⟩ := Option.isSome_iff_exists.1 hm
  have hfree : ∃ b, s.activeStripIndices.freeIfNonNull = .ok b := by
    cases h : s.activeStripIndices with
    | null => exact ⟨_, rfl⟩
    | freed => exact absurd h hs
    | live cells => exact ⟨_, rfl⟩
  obtain ⟨b, hb⟩ := hfree
  have hlen : v.toList.length = (p.strips.map Fin.val).length := by
    rw [List.Vector.toList_length, List.length_map, hp.eq_length]
  have hfill : fillIndices p.activeStrips (List.finRange 8) 0 (.live v.toList)
      = .ok (.live (p.strips.map Fin.val)) := by
    rw [fillIndices_live]
    change Block.live <$> writeFrom v.toList 0 (p.strips.map Fin.val) = _
    rw [writeFrom_all hlen]
    rfl
  simp only [convertActiveStrips, hb, Block.ofMalloc, hv]
  change (fillIndices p.activeStrips (List.finRange 8) 0 (.live v.toList) >>= _) = _
  rw [hfill]
  rfl

/-- When `malloc` fails no block is left and nothing else changes. -/
theorem convertActiveStrips_eq_null {malloc : Malloc ℕ} {p : Params} {s : Sampler}
    (hs : s.activeStripIndices ≠ .freed) (hm : malloc p.gStripCount = none) :
    convertActiveStrips malloc p s = .ok { s with activeStripIndices := .null } := by
  unfold convertActiveStrips
  cases h : s.activeStripIndices with
  | null => simp [Block.freeIfNonNull, Block.ofMalloc, hm]
  | freed => exact absurd h hs
  | live cells => simp [Block.freeIfNonNull, Block.ofMalloc, hm]

/-- `FirstActiveStrip` is the strip of the first visit. -/
theorem firstActiveStrip_eq {p : Params} (h : 0 < p.strips.length) :
    firstActiveStrip p = (p.stripAt 0).val := by
  have hfind : (List.finRange 8).find? p.activeStrips = some (p.stripAt 0) := by
    rw [← List.head?_filter, List.head?_eq_getElem?]
    exact Params.strips_getElem? h
  rw [firstActiveStrip, hfind]

/-- The sampler part of `InitializeAllPeripherals`: `initialize_mux` and then
`ADC_Voltage_timer_setup`. -/
def configure (malloc : Malloc ℕ) (p : Params) (s : Sampler) : Except Fault Sampler :=
  initializeMux malloc p s >>= adcVoltageTimerSetup p

/-- **The sampler follows the configuration.**  The block holds the active strip
numbers in increasing order, the position is inside it, and the multiplexer
selects the strip at that position. -/
structure Aligned (p : Params) (s : Sampler) : Prop where
  indices : s.activeStripIndices = .live (p.strips.map Fin.val)
  position : s.currentActiveStripIndex < p.strips.length
  mux : s.mux.channel = p.stripAt s.currentActiveStripIndex

/-- What a configuration with at least one strip and with memory for its index
block does: the multiplexer selects the first strip, both counters are zero,
and nothing else is touched. -/
theorem configure_eq {malloc : Malloc ℕ} {p : Params} {s : Sampler} (hp : p.Counted)
    (hpos : 0 < p.strips.length) (hs : s.activeStripIndices ≠ .freed)
    (hm : (malloc p.gStripCount).isSome) (hf : p.muxFreq ≠ 0) :
    configure malloc p s = .ok { s with
      mux := Mux.selectMuxChannel ⟨true, false, false, false⟩ (p.stripAt 0).val
      activeStripIndices := .live (p.strips.map Fin.val)
      ctimer2 := some (48000000 / (p.muxFreq * softwareAverageCount))
      currentActiveStripIndex := 0
      currentCountIndex := 0 } := by
  have hchan : (firstActiveStrip p % 256).toNat = (p.stripAt 0).val := by
    rw [firstActiveStrip_eq hpos]
    have := (p.stripAt 0).isLt
    omega
  have hfreq : ¬ p.muxFreq * softwareAverageCount = 0 := by
    simp [softwareAverageCount, hf]
  rw [configure, initializeMux, hchan, convertActiveStrips_eq hp (by exact hs) hm]
  change adcVoltageTimerSetup p _ = _
  rw [adcVoltageTimerSetup, if_neg hfreq]

/-- A configuration that succeeds found no dangling pointer. -/
theorem ne_freed_of_configure {malloc : Malloc ℕ} {p : Params} {s s' : Sampler}
    (h : configure malloc p s = .ok s') : s.activeStripIndices ≠ .freed := by
  intro hfreed
  simp [configure, initializeMux, convertActiveStrips, hfreed, Block.freeIfNonNull] at h

/-- What a configuration that succeeded leaves, whether or not a strip is active
and whether or not there was memory. -/
theorem configure_ok {malloc : Malloc ℕ} {p : Params} {s s' : Sampler} (hp : p.Counted)
    (h : configure malloc p s = .ok s') :
    p.muxFreq ≠ 0 ∧ s'.ctimer2 = some (48000000 / (p.muxFreq * softwareAverageCount)) ∧
      s'.currentActiveStripIndex = 0 ∧ s'.currentCountIndex = 0 ∧
      s'.activeStripIndices
        = if (malloc p.gStripCount).isSome then .live (p.strips.map Fin.val) else .null := by
  obtain ⟨u, hu, hs'⟩ := Run.bind_eq_ok.1 h
  have hfreq : ¬ p.muxFreq * softwareAverageCount = 0 := by
    intro h0
    rw [adcVoltageTimerSetup, if_pos h0] at hs'
    cases hs'
  have hlive : s.activeStripIndices ≠ .freed := ne_freed_of_configure h
  have hblock : u.activeStripIndices
      = if (malloc p.gStripCount).isSome then .live (p.strips.map Fin.val) else .null := by
    cases hm : malloc p.gStripCount with
    | none =>
        rw [initializeMux, convertActiveStrips_eq_null (by exact hlive) hm] at hu
        cases hu
        rfl
    | some v =>
        rw [initializeMux, convertActiveStrips_eq hp (by exact hlive) (by rw [hm]; rfl)] at hu
        cases hu
        rfl
  rw [adcVoltageTimerSetup, if_neg hfreq] at hs'
  cases hs'
  exact ⟨fun h0 => hfreq (by rw [h0, Nat.zero_mul]), rfl, rfl, rfl, hblock⟩

/-- A configuration with at least one strip and memory for its index block leaves the
sampler aligned. -/
theorem aligned_of_configure {malloc : Malloc ℕ} {p : Params} {s s' : Sampler} (hp : p.Counted)
    (hpos : 0 < p.strips.length) (hm : (malloc p.gStripCount).isSome)
    (h : configure malloc p s = .ok s') : Aligned p s' := by
  rw [configure_eq hp hpos (ne_freed_of_configure h) hm (configure_ok hp h).1] at h
  cases h
  exact ⟨rfl, hpos, Mux.channel_selectMuxChannel _ _⟩

/-- Only a zero multiplexer frequency or a dangling pointer stops a configuration. -/
theorem configure_total (malloc : Malloc ℕ) {p : Params} {s : Sampler} (hp : p.Counted)
    (hf : p.muxFreq ≠ 0) (hs : s.activeStripIndices ≠ .freed) :
    ∃ s', configure malloc p s = .ok s' := by
  have hfreq : ¬ p.muxFreq * softwareAverageCount = 0 := by
    simp [softwareAverageCount, hf]
  cases hm : malloc p.gStripCount with
  | none =>
      rw [configure, initializeMux, convertActiveStrips_eq_null (by exact hs) hm, Run.ok_bind,
        adcVoltageTimerSetup, if_neg hfreq]
      exact ⟨_, rfl⟩
  | some v =>
      rw [configure, initializeMux, convertActiveStrips_eq hp (by exact hs) (by rw [hm]; rfl),
        Run.ok_bind, adcVoltageTimerSetup, if_neg hfreq]
      exact ⟨_, rfl⟩

end Sampler
end GasSensor
