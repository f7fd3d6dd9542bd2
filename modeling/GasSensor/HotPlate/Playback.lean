/-
# Playing one waveform after the other

Configurations with `initialize_dac_hot_plate` and callbacks of CTIMER4 in any
order, none of them interrupting the other.  A callback reads the entry at
`g_Dac14InputIndex` and advances the index modulo the size of the table; a
configuration sets the size and does not touch the index.

From an index below the size the callbacks go around the table (`callbacks_run`).
A configuration leaves the index below the size exactly if the table it sets up is
longer than the index (`configure_ok`, `lt_tableSize_iff`), so `inWaveform_iff`
compares the two over whole runs.
-/

import GasSensor.HotPlate.Waveform

namespace GasSensor

open FloatingPoint

namespace HotPlate

/-- **The invariant of playback.**  The index addresses the array, and once the timer runs
it is below the size. -/
structure PlayInv (h : HotPlate) : Prop where
  index : h.inputIndex < maxArraySize
  size : h.valueArraySize ≤ maxArraySize
  below : h.ctimer4 = true → h.inputIndex < h.valueArraySize

theorem playInv_boot : PlayInv boot := ⟨by decide, Nat.zero_le _, fun h => by cases h⟩

section
variable [Arithmetic]

/-- Parameters that `initialize_dac_hot_plate` takes, at a frequency the user
interfaces accept. -/
structure Configuration where
  params : Params
  waveType : params.waveType ≤ 2
  frequency : lowestFreqPossible ≤ params.desiredFrequency ∧ params.desiredFrequency ≤ .finite (1 / 2)

/-- A call of `initialize_dac_hot_plate` or an interrupt of CTIMER4. -/
inductive PlayEvent
  | configure (c : Configuration)
  | callback

/-- One event. -/
def playStep (t : Target) (h : HotPlate) : PlayEvent → Except Fault HotPlate
  | .configure c => (initializeDacHotPlate t c.params).1.foldlM (exec t) h
  | .callback => ctimer4IRQHandler h

/-- **The callbacks stay in the current waveform.**  The next one reads below the
table size, and any number of them put out one entry after the other, around the
table from a start below its size. -/
structure InWaveform (t : Target) (h : HotPlate) : Prop where
  index : h.inputIndex < h.valueArraySize
  codes : ∃ start < h.valueArraySize, ∀ n, ∃ h',
    (List.replicate n PlayEvent.callback).foldlM (playStep t) h = .ok h' ∧
    h'.codes = h.codes ++ (List.range n).map fun k => h.values ((start + k) % h.valueArraySize)

/-- Once the timer runs the callbacks stay in the current waveform. -/
def Confined (t : Target) (h : HotPlate) : Prop := h.ctimer4 = true → InWaveform t h

/-- The read index is below the number of samples in a period of the waveform a
configuration asks for, a quotient of `float`s. -/
def Fits (h : HotPlate) : PlayEvent → Prop
  | .configure c => .finite (h.inputIndex + 1) ≤ float.div (.finite sampleRate) c.params.desiredFrequency
  | .callback => True

variable {t : Target} {h h' : HotPlate} {c : Configuration} {p : Params}

/-- A callback that reads inside the table. -/
theorem callback_ok (t : Target) (htimer : h.ctimer4 = true) (hidx : h.inputIndex < maxArraySize)
    (hsize : 0 < h.valueArraySize) :
    playStep t h .callback = .ok { h with
      codes := h.codes ++ [h.values h.inputIndex]
      inputIndex := (h.inputIndex + 1) % h.valueArraySize } := by
  rw [playStep, ctimer4IRQHandler, if_pos htimer, dacUpdateCallback, if_pos hidx, if_neg hsize.ne']

/-- **Callbacks go around the table.** -/
theorem callbacks_run (t : Target) (htimer : h.ctimer4 = true) (hidx : h.inputIndex < h.valueArraySize)
    (hsize : h.valueArraySize ≤ maxArraySize) (n : ℕ) :
    (List.replicate n PlayEvent.callback).foldlM (playStep t) h = .ok { h with
      codes := h.codes ++ (List.range n).map fun k => h.values ((h.inputIndex + k) % h.valueArraySize)
      inputIndex := (h.inputIndex + n) % h.valueArraySize } := by
  have hpos : 0 < h.valueArraySize := Nat.zero_lt_of_lt hidx
  induction n with
  | zero =>
      change Except.ok h = _
      rw [List.range_zero, List.map_nil, List.append_nil, Nat.add_zero, Nat.mod_eq_of_lt hidx]
  | succ n ih =>
      have hlt : (h.inputIndex + n) % h.valueArraySize < maxArraySize := (Nat.mod_lt _ hpos).trans_le hsize
      rw [List.replicate_succ', Run.foldlM_concat, ih, Run.ok_bind,
        callback_ok (h := { h with
          codes := h.codes ++ (List.range n).map fun k => h.values ((h.inputIndex + k) % h.valueArraySize)
          inputIndex := (h.inputIndex + n) % h.valueArraySize }) t htimer hlt hpos]
      dsimp only
      rw [Nat.mod_add_mod, Nat.add_assoc, List.range_succ, List.map_append, List.append_assoc]
      rfl

/-- Where the timer runs, the index decides. -/
theorem inWaveform_of_lt (htimer : h.ctimer4 = true) (hidx : h.inputIndex < h.valueArraySize)
    (hsize : h.valueArraySize ≤ maxArraySize) : InWaveform t h :=
  ⟨hidx, h.inputIndex, hidx, fun n => ⟨_, callbacks_run t htimer hidx hsize n, rfl⟩⟩

/-- No assignment of the main thread touches the read index or the output. -/
theorem exec_keeps {a : Assign} (hexec : exec t h a = .ok h') :
    h'.inputIndex = h.inputIndex ∧ h'.codes = h.codes := by
  have hstore : ∀ i v, h.store i v = .ok h' → h'.inputIndex = h.inputIndex ∧ h'.codes = h.codes := by
    intro i v hstore
    unfold store at hstore
    split at hstore
    · cases hstore
      exact ⟨rfl, rfl⟩
    · cases hstore
  cases a with
  | setSize n => cases hexec; exact ⟨rfl, rfl⟩
  | write i v => exact hstore i v hexec
  | scale i m => exact hstore i _ hexec
  | setupTimer => cases hexec; exact ⟨rfl, rfl⟩

/-- A configuration that is taken ends with the start of the timer. -/
theorem initializeDacHotPlate_timer (t : Target) (hf : ¬ p.desiredFrequency < lowestFreqPossible)
    (hw : p.waveType ≤ 2) : ∃ before, (initializeDacHotPlate t p).1 = before ++ [.setupTimer] := by
  rw [initializeDacHotPlate_eq, if_pos ⟨hf, hw⟩]
  exact ⟨_, rfl⟩

/-- **A configuration** sets the size and starts the timer, and leaves the index and what
was put out as they were. -/
theorem configure_ok (t : Target) (c : Configuration) (h : HotPlate) :
    ∃ h', playStep t h (.configure c) = .ok h' ∧ h'.valueArraySize = tableSize t c.params ∧
      h'.inputIndex = h.inputIndex ∧ h'.codes = h.codes ∧ h'.ctimer4 = true := by
  obtain ⟨h', hrun, hsize, -⟩ := initializeDacHotPlate_run t c.params h
  have hkeep : h'.inputIndex = h.inputIndex ∧ h'.codes = h.codes := by
    refine Run.foldlM_invariant (I := fun u => u.inputIndex = h.inputIndex ∧ u.codes = h.codes) ?_ ⟨rfl, rfl⟩ hrun
    intro u a v hu hv
    exact ⟨(exec_keeps hv).1.trans hu.1, (exec_keeps hv).2.trans hu.2⟩
  have htimer : h'.ctimer4 = true := by
    obtain ⟨before, hbefore⟩ := initializeDacHotPlate_timer t (Value.not_lt_of_le c.frequency.1) c.waveType
    rw [hbefore, Run.foldlM_concat, Run.bind_eq_ok] at hrun
    obtain ⟨u, -, hu⟩ := hrun
    cases hu
    rfl
  rw [arraySize, min_eq_left (tableSize_le c.frequency.1)] at hsize
  exact ⟨h', hrun, hsize, hkeep.1, hkeep.2, htimer⟩

theorem Configuration.tableSize_pos (c : Configuration) : 0 < tableSize t c.params :=
  Nat.lt_of_lt_of_le (by decide) (fifty_le_tableSize c.frequency.1 c.frequency.2)

theorem PlayInv.confined (h : PlayInv h') : Confined t h' := fun htimer =>
  inWaveform_of_lt htimer (h.below htimer) h.size

/-- **One event** runs, and the callbacks after it stay in the waveform exactly if it fits. -/
theorem PlayInv.step (t : Target) (hI : PlayInv h) (e : PlayEvent) :
    ∃ h', playStep t h e = .ok h' ∧ (Confined t h' ↔ Fits h e) ∧ (Fits h e → PlayInv h') := by
  cases e with
  | configure c =>
      obtain ⟨h', hrun, hsize, hidx, -, htimer⟩ := configure_ok t c h
      have hfits : Fits h (.configure c) ↔ h'.inputIndex < h'.valueArraySize := by
        rw [hidx, hsize, lt_tableSize_iff c.frequency.1, samples_eq]
        rfl
      have hinv : Fits h (.configure c) → PlayInv h' := fun hfit => {
        index := hidx ▸ hI.index
        size := hsize ▸ tableSize_le c.frequency.1
        below := fun _ => hfits.1 hfit }
      refine ⟨h', hrun, ⟨fun hc => hfits.2 (hc htimer).index, fun hfit => (hinv hfit).confined⟩, hinv⟩
  | callback =>
      by_cases htimer : h.ctimer4 = true
      · have hpos : 0 < h.valueArraySize := Nat.zero_lt_of_lt (hI.below htimer)
        have hinv : PlayInv { h with
            codes := h.codes ++ [h.values h.inputIndex]
            inputIndex := (h.inputIndex + 1) % h.valueArraySize } := {
          index := (Nat.mod_lt _ hpos).trans_le hI.size
          size := hI.size
          below := fun _ => Nat.mod_lt _ hpos }
        exact ⟨_, callback_ok t htimer hI.index hpos, iff_of_true hinv.confined trivial, fun _ => hinv⟩
      · exact ⟨h, if_neg htimer, iff_of_true hI.confined trivial, fun _ => hI⟩

/-- **Playback stays inside the current waveform exactly if every configuration fits.**
From boot, for every sequence of configurations and callbacks, every event runs; and
in all states reached the callbacks stay in the current waveform if and only if each
configuration asks for a table longer than the index it finds. -/
theorem inWaveform_iff (t : Target) (es : List PlayEvent) :
    (∀ fs, fs <+: es → ∃ h, fs.foldlM (playStep t) boot = .ok h ∧ Confined t h) ↔
      Run.AtEveryStep (playStep t) Fits boot es :=
  Run.foldlM_good_iff playInv_boot (fun _ hI => hI.confined) (fun _ e hI => hI.step t e) es

end

attribute [local instance] Arithmetic.uncontracted

/-- The boot parameters at a frequency. -/
def atFrequency (f : Value) (hf : lowestFreqPossible ≤ f ∧ f ≤ .finite (1 / 2)) : Configuration where
  params := { Params.boot with desiredFrequency := f }
  waveType := Nat.zero_le 2
  frequency := hf

/-- A wave of 500 s: 12499 entries, since the `float` is a little above 2 mHz. -/
def slow : Configuration := atFrequency (float.convert (double.round (2 / 1000))) (by decide +kernel)

/-- A wave of 2 s: 50 entries. -/
def fast : Configuration := atFrequency (.finite (1 / 2)) (by decide +kernel)

/-- Two seconds of the slow wave, and then the fast one. -/
def slowThenFast : List PlayEvent := .configure slow :: List.replicate 50 .callback ++ [.configure fast]

/-- **Samples of an older waveform are played.**  After the change to the fast wave the next
callback reads the entry behind its table. -/
theorem slowThenFast_leaves_waveform :
    ∃ h, slowThenFast.foldlM (playStep .saturating) boot = .ok h ∧ h.inputIndex = 50 ∧ h.valueArraySize = 50 ∧
      ¬ Confined .saturating h := by
  obtain ⟨h₁, hrun₁, hsize₁, hidx₁, -, htimer₁⟩ := configure_ok .saturating slow boot
  have hslow : tableSize .saturating slow.params = 12499 := by decide +kernel
  have hfast : tableSize .saturating fast.params = 50 := by decide +kernel
  rw [hslow] at hsize₁
  have hidx₁' : h₁.inputIndex = 0 := hidx₁
  have hplay := callbacks_run .saturating htimer₁ (by omega) (hsize₁.trans_le (by decide)) 50
  obtain ⟨h₂, hrun₂, hsize₂, hidx₂, -, htimer₂⟩ := configure_ok .saturating fast { h₁ with
    codes := h₁.codes ++ (List.range 50).map fun k => h₁.values ((h₁.inputIndex + k) % h₁.valueArraySize)
    inputIndex := (h₁.inputIndex + 50) % h₁.valueArraySize }
  have hindex : h₂.inputIndex = 50 := by
    rw [hidx₂]
    dsimp only
    rw [hidx₁', hsize₁]
  refine ⟨h₂, ?_, hindex, hsize₂.trans hfast, fun hconfined => ?_⟩
  · rw [slowThenFast, Run.foldlM_concat, List.foldlM_cons, hrun₁, Run.ok_bind, hplay, Run.ok_bind, hrun₂]
  · have hbelow := (hconfined htimer₂).index
    rw [hindex, hsize₂, hfast] at hbelow
    exact absurd hbelow (by decide)

end HotPlate
end GasSensor
