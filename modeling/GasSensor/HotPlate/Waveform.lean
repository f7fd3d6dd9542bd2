/-
# What a configuration writes into the table

Closed forms of the assignments of `initialize_dac_hot_plate`.  `rawWave` is
the waveform of full scale and `waveform` the scaled one, as functions of the
parameters; both are undefined where the generator writes nothing.  A
configuration that is taken sets the size, fills the table with `rawWave`, scales
it and starts the timer (`initializeDacHotPlate_eq`), and without interrupts it
leaves the `waveform` (`initializeDacHotPlate_run`).
-/

import GasSensor.HotPlate.Basic
import Mathlib.Data.Finset.Lattice.Fold
import Mathlib.Order.Lattice.Nat

namespace GasSensor
open FloatingPoint

namespace HotPlate

variable [Arithmetic] {t : Target} {p : Params}

/-- The waveform before scaling. -/
def rawWave (t : Target) (p : Params) (size : ℕ) : Option (ℕ → ℕ) :=
  match p.waveType with
  | 0 => some (sineEntry t p)
  | 1 => if p.dutyCycle > 100 then none else some (squareEntry p size)
  | 2 => if p.dutyCycle > 100 then none else some (triangleEntry t p size)
  | _ => none

/-- The waveform that is played: entry `i` for a table of `size` entries. -/
def waveform (t : Target) (p : Params) (size : ℕ) : Option (ℕ → ℕ) :=
  (rawWave t p size).map fun raw i => scaleWord t i (raw i) (maxDacValue p)

theorem samples_eq : samples p = float.div (.finite sampleRate) p.desiredFrequency := by
  rw [samples, float.natCast sampleRate (by decide)]

/-- From `LOWEST_FREQ_POSSIBLE` on a period has at most 12500 samples. -/
theorem samples_of_le (hf : lowestFreqPossible ≤ p.desiredFrequency) :
    ∃ x, samples p = .finite x ∧ 0 ≤ x ∧ x ≤ maxArraySize := by
  obtain ⟨d, hd, hlow⟩ := lowestFreqPossible_eq
  rw [hd] at hf
  rw [samples_eq]
  match p.desiredFrequency, hf with
  | .finite f, hf =>
      have hfreq : 2 / 1000 ≤ f := hlow.trans hf
      have hpos : 0 < f := lt_of_lt_of_le (by norm_num) hfreq
      have hlo : ((0 : ℕ) : ℚ) ≤ sampleRate / f := by
        rw [Nat.cast_zero]
        positivity
      have hhi : (sampleRate : ℚ) / f ≤ maxArraySize := by
        rw [div_le_iff₀ hpos]
        calc (sampleRate : ℚ) = maxArraySize * (2 / 1000) := by norm_num [sampleRate, maxArraySize]
          _ ≤ maxArraySize * f := by gcongr
      rw [Rounding.div_finite _ _ hpos.ne']
      obtain ⟨x, hx, h0, h1⟩ := float.exists_round (by decide) hlo hhi
      exact ⟨x, hx, by rwa [Nat.cast_zero] at h0, h1⟩
  | .infinite false, _ => exact ⟨0, rfl, le_rfl, by norm_num [maxArraySize]⟩

/-- Then the conversion of the table size is defined. -/
theorem tableSize_eq (hf : lowestFreqPossible ≤ p.desiredFrequency) :
    ∃ x, samples p = .finite x ∧ 0 ≤ x ∧ tableSize t p = ⌊x⌋.toNat ∧ tableSize t p ≤ maxArraySize := by
  obtain ⟨x, hx, h0, hle⟩ := samples_of_le hf
  have hsize : tableSize t p = ⌊x⌋.toNat := by
    have hlt : x < 2 ^ 32 := hle.trans_lt (by norm_num [maxArraySize])
    rw [tableSize, hx, Target.toU32, if_pos ⟨by linarith, hlt⟩]
  have hfloor : ⌊x⌋ ≤ (maxArraySize : ℤ) := Int.floor_le_iff.2 (by push_cast; linarith)
  exact ⟨x, hx, h0, hsize, by omega⟩

theorem tableSize_le (hf : lowestFreqPossible ≤ p.desiredFrequency) : tableSize t p ≤ maxArraySize := by
  obtain ⟨_, _, _, _, hle⟩ := tableSize_eq (t := t) hf
  exact hle

/-- An index is below the table size exactly if a period has one sample more. -/
theorem lt_tableSize_iff (hf : lowestFreqPossible ≤ p.desiredFrequency) (i : ℕ) :
    i < tableSize t p ↔ .finite (i + 1) ≤ samples p := by
  obtain ⟨x, hx, h0, hsize, -⟩ := tableSize_eq (t := t) hf
  have hfloor : 0 ≤ ⌊x⌋ := Int.floor_nonneg.2 h0
  rw [hsize, hx, Value.finite_le_finite]
  constructor
  · intro h
    have hle : ((i + 1 : ℕ) : ℤ) ≤ ⌊x⌋ := by omega
    exact_mod_cast Int.le_floor.1 hle
  · intro h
    have hle : ((i + 1 : ℕ) : ℤ) ≤ ⌊x⌋ := Int.le_floor.2 (by exact_mod_cast h)
    omega

/-- The table has an entry exactly if a period has a sample. -/
theorem one_le_tableSize_iff (hf : lowestFreqPossible ≤ p.desiredFrequency) :
    1 ≤ tableSize t p ↔ .finite 1 ≤ samples p := by
  have h := lt_tableSize_iff (t := t) hf 0
  rwa [Nat.cast_zero, zero_add] at h

/-- At 0.5 Hz and below a period has at least 50 samples. -/
theorem fifty_le_samples (hf : lowestFreqPossible ≤ p.desiredFrequency)
    (hhalf : p.desiredFrequency ≤ .finite (1 / 2)) : .finite 50 ≤ samples p := by
  obtain ⟨d, hd, hlow⟩ := lowestFreqPossible_eq
  rw [hd] at hf
  obtain ⟨f, hfinite, hle, hhalf⟩ := Value.exists_finite hf hhalf
  have hpos : 0 < f := lt_of_lt_of_le (by norm_num) (hlow.trans hle)
  have hfifty : (50 : ℕ) ≤ (sampleRate : ℚ) / f := by
    rw [le_div_iff₀ hpos]
    norm_num [sampleRate]
    linarith
  rw [samples_eq, hfinite, Rounding.div_finite _ _ hpos.ne']
  exact Rounding.le_round (by decide) hfifty

theorem fifty_le_tableSize (hf : lowestFreqPossible ≤ p.desiredFrequency)
    (hhalf : p.desiredFrequency ≤ .finite (1 / 2)) : 50 ≤ tableSize t p := by
  refine Nat.succ_le_of_lt ((lt_tableSize_iff hf 49).2 ?_)
  norm_num
  exact fifty_le_samples hf hhalf

/-- What the generators execute. -/
def fillTable (t : Target) (p : Params) (size : ℕ) : List Assign :=
  match rawWave t p size with
  | none => []
  | some raw => fill size raw ++ scaleDacValues p size

/-- **What `initialize_dac_hot_plate` executes.** -/
theorem initializeDacHotPlate_eq (t : Target) (p : Params) :
    initializeDacHotPlate t p =
      if ¬ p.desiredFrequency < lowestFreqPossible ∧ p.waveType ≤ 2 then
        (setArraySize t p ++ fillTable t p (arraySize t p) ++ [.setupTimer], 0)
      else (setArraySize t p, -1) := by
  unfold initializeDacHotPlate fillTable rawWave
  by_cases hf : p.desiredFrequency < lowestFreqPossible
  · rw [if_pos hf, if_neg fun h => h.1 hf]
  · rw [if_neg hf]
    match p.waveType with
    | 0 => exact (if_pos ⟨hf, by decide⟩).symm
    | 1 =>
        rw [if_pos ⟨hf, by decide⟩]
        by_cases hd : p.dutyCycle > 100
        · simp only [generateSquareWave, if_pos hd]
        · simp only [generateSquareWave, if_neg hd]
    | 2 =>
        rw [if_pos ⟨hf, by decide⟩]
        by_cases hd : p.dutyCycle > 100
        · simp only [generateTriangleWave, if_pos hd]
        · simp only [generateTriangleWave, if_neg hd]
    | n + 3 => exact (if_neg fun h => absurd h.2 (by omega)).symm

/-- `initialize_dac_hot_plate` returns 0 exactly for a frequency that is not too
low and one of the three wave types. -/
theorem initializeDacHotPlate_snd :
    (initializeDacHotPlate t p).2 = 0 ↔ ¬ p.desiredFrequency < lowestFreqPossible ∧ p.waveType ≤ 2 := by
  rw [initializeDacHotPlate_eq]
  split
  · exact iff_of_true rfl ‹_›
  · exact iff_of_false (show ¬ (-1 : ℤ) = 0 by decide) ‹_›

/-- The assignments of a configuration in range. -/
def assigns (p : Params) (size : ℕ) (raw : ℕ → ℕ) : List Assign :=
  .setSize size :: fill size raw ++ scaleDacValues p size ++ [.setupTimer]

/-- Filling the table. -/
theorem fill_run {n : ℕ} (hn : n ≤ maxArraySize) (raw : ℕ → ℕ) (h : HotPlate) :
    (fill n raw).foldlM (exec t) h
      = .ok { h with values := fun i => if i < n then raw i else h.values i } := by
  induction n with
  | zero => rfl
  | succ n ih =>
      have hfill : fill (n + 1) raw = fill n raw ++ [.write n (raw n)] := by
        simp [fill, List.range_succ]
      rw [hfill, Run.foldlM_concat, ih (by omega), Run.ok_bind, exec, store, if_pos (by omega)]
      congr 2
      funext i
      dsimp only
      rcases Nat.lt_trichotomy i n with hi | rfl | hi
      · rw [Function.update_of_ne hi.ne, if_pos hi, if_pos (by omega)]
      · rw [Function.update_self, if_pos (by omega)]
      · rw [Function.update_of_ne hi.ne', if_neg (by omega), if_neg (by omega)]

/-- Scaling the table. -/
theorem scaleDacValues_run {n : ℕ} (hn : n ≤ maxArraySize) (h : HotPlate) :
    (scaleDacValues p n).foldlM (exec t) h
      = .ok { h with values := fun i =>
          if i < n then scaleWord t i (h.values i) (maxDacValue p) else h.values i } := by
  induction n with
  | zero => rfl
  | succ n ih =>
      have hscale : scaleDacValues p (n + 1) = scaleDacValues p n ++ [.scale n (maxDacValue p)] := by
        simp [scaleDacValues, List.range_succ]
      rw [hscale, Run.foldlM_concat, ih (by omega), Run.ok_bind, exec, store, if_pos (by omega)]
      congr 2
      funext i
      dsimp only
      rcases Nat.lt_trichotomy i n with hi | rfl | hi
      · rw [Function.update_of_ne hi.ne, if_pos hi, if_pos (by omega)]
      · rw [Function.update_self, if_neg (lt_irrefl i), if_pos (Nat.lt_succ_self i)]
      · rw [Function.update_of_ne hi.ne', if_neg (by omega), if_neg (by omega)]

/-- **Without interrupts a configuration in range leaves its waveform**, the
entries beyond it and the read index as they were, and a running timer. -/
theorem assigns_run {raw : ℕ → ℕ} {n : ℕ} (hn : n ≤ maxArraySize) (h : HotPlate) :
    (assigns p n raw).foldlM (exec t) h
      = .ok { h with
          valueArraySize := n
          values := fun i => if i < n then scaleWord t i (raw i) (maxDacValue p) else h.values i
          ctimer4 := true } := by
  have htable : (fun i => if i < n then scaleWord t i (if i < n then raw i else h.values i) (maxDacValue p)
        else if i < n then raw i else h.values i)
      = fun i => if i < n then scaleWord t i (raw i) (maxDacValue p) else h.values i := by
    funext i
    by_cases hi : i < n <;> simp only [hi, if_true, if_false]
  rw [assigns, List.foldlM_append, List.cons_append, List.foldlM_cons, exec, Run.ok_bind,
    List.foldlM_append, fill_run hn, Run.ok_bind, scaleDacValues_run hn, Run.ok_bind, List.foldlM_cons,
    exec, Run.ok_bind]
  simp only [htable]
  rfl

/-- The size that is set. -/
theorem setArraySize_run (t : Target) (p : Params) (h : HotPlate) :
    (setArraySize t p).foldlM (exec t) h = .ok { h with valueArraySize := arraySize t p } := by
  unfold setArraySize arraySize
  by_cases hclamp : tableSize t p > maxArraySize
  · rw [if_pos hclamp, min_eq_right hclamp.le]
    rfl
  · rw [if_neg hclamp, min_eq_left (not_lt.1 hclamp)]
    rfl

/-- The generators write their waveform, if there is one, and nothing else. -/
theorem fillTable_run {n : ℕ} (hn : n ≤ maxArraySize) (h : HotPlate) :
    ∃ values, (fillTable t p n).foldlM (exec t) h = .ok { h with values := values } ∧
      ∀ w, waveform t p n = some w → ∀ i < n, values i = w i := by
  unfold fillTable waveform
  cases rawWave t p n with
  | none => exact ⟨h.values, rfl, fun w hw => nomatch hw⟩
  | some raw =>
      dsimp only
      rw [List.foldlM_append, fill_run hn, Run.ok_bind, scaleDacValues_run hn]
      refine ⟨_, rfl, fun w hw i hi => ?_⟩
      rw [Option.map_some, Option.some.injEq] at hw
      rw [← hw]
      dsimp only
      rw [if_pos hi, if_pos hi]

/-- **Without interrupts every configuration runs to its end.**  It sets the table
size and leaves read index and output alone.  The table gets the waveform of the
parameters if there is one, and stays as it was if the frequency is too low. -/
theorem initializeDacHotPlate_run (t : Target) (p : Params) (h : HotPlate) :
    ∃ h', (initializeDacHotPlate t p).1.foldlM (exec t) h = .ok h' ∧ h'.valueArraySize = arraySize t p ∧
      (p.desiredFrequency < lowestFreqPossible → h'.values = h.values) ∧
      (¬ p.desiredFrequency < lowestFreqPossible → ∀ w, waveform t p (arraySize t p) = some w →
        ∀ i < arraySize t p, h'.values i = w i) := by
  rw [initializeDacHotPlate_eq]
  split
  · rename_i htaken
    obtain ⟨values, hrun, hvalues⟩ := fillTable_run (t := t) (p := p) (n := arraySize t p) (min_le_right _ _)
      { h with valueArraySize := arraySize t p }
    refine ⟨{ h with valueArraySize := arraySize t p, values := values, ctimer4 := true }, ?_, rfl,
      fun hlow => absurd hlow htaken.1, fun _ => hvalues⟩
    rw [List.foldlM_append, List.foldlM_append, setArraySize_run, Run.ok_bind, hrun, Run.ok_bind]
    rfl
  · rename_i htaken
    refine ⟨_, setArraySize_run t p h, rfl, fun _ => rfl, fun hlow w hw => ?_⟩
    have hnone : rawWave t p (arraySize t p) = none := by
      unfold rawWave
      match hwave : p.waveType with
      | 0 | 1 | 2 => exact absurd ⟨hlow, by omega⟩ htaken
      | n + 3 => rfl
    rw [waveform, hnone] at hw
    cases hw

/-- An entry of the waveform of the parameters, in a table of the size they ask
for. -/
def waveEntry (t : Target) (p : Params) (i : ℕ) : ℕ :=
  (waveform t p (tableSize t p)).getD (fun _ => 0) i

/-- An entry of the waveform before scaling. -/
def rawEntry (t : Target) (p : Params) (i : ℕ) : ℕ :=
  (rawWave t p (tableSize t p)).getD (fun _ => 0) i

/-- The largest code of the waveform of the parameters. -/
def peak (t : Target) (p : Params) : ℕ := (Finset.range (tableSize t p)).sup (waveEntry t p)

theorem waveEntry_le_peak {i : ℕ} (h : i < tableSize t p) : waveEntry t p i ≤ peak t p :=
  Finset.le_sup (f := waveEntry t p) (Finset.mem_range.2 h)

/-- The parameters the user interfaces accept for the hot plate. -/
structure InRange (p : Params) : Prop where
  waveType : p.waveType ≤ 2
  dutyCycle : p.dutyCycle ≤ 100
  frequency : lowestFreqPossible ≤ p.desiredFrequency ∧ p.desiredFrequency ≤ .finite (1 / 2)
  amplitude : p.desiredAmplitude ≤ 23

namespace InRange

theorem rawWave_eq (h : InRange p) (size : ℕ) : ∃ raw, rawWave t p size = some raw := by
  have hd : ¬ p.dutyCycle > 100 := not_lt.2 h.dutyCycle
  unfold rawWave
  match hw : p.waveType with
  | 0 => exact ⟨_, rfl⟩
  | 1 | 2 => simp only [if_neg hd]; exact ⟨_, rfl⟩
  | n + 3 => have := h.waveType; omega

theorem tableSize_pos (h : InRange p) : 0 < tableSize t p :=
  Nat.lt_of_lt_of_le (by decide) (fifty_le_tableSize h.frequency.1 h.frequency.2)

theorem tableSize_le (h : InRange p) : tableSize t p ≤ maxArraySize := HotPlate.tableSize_le h.frequency.1

/-- Parameters in range are taken. -/
theorem initializeDacHotPlate_eq (h : InRange p) :
    initializeDacHotPlate t p = (assigns p (tableSize t p) (rawEntry t p), 0) := by
  obtain ⟨raw, hraw⟩ := h.rawWave_eq (t := t) (tableSize t p)
  have hentry : rawEntry t p = raw := by
    unfold rawEntry
    rw [hraw, Option.getD_some]
  have hsize : arraySize t p = tableSize t p := min_eq_left h.tableSize_le
  have hset : setArraySize t p = [.setSize (tableSize t p)] := by
    rw [setArraySize, if_neg (not_lt.2 h.tableSize_le)]
  have hlow : ¬ p.desiredFrequency < lowestFreqPossible := Value.not_lt_of_le h.frequency.1
  rw [HotPlate.initializeDacHotPlate_eq, if_pos ⟨hlow, h.waveType⟩, fillTable, hsize, hraw, hset, hentry]
  rfl

theorem waveEntry_eq (h : InRange p) (i : ℕ) :
    waveEntry t p i = scaleWord t i (rawEntry t p i) (maxDacValue p) := by
  obtain ⟨raw, hraw⟩ := h.rawWave_eq (t := t) (tableSize t p)
  have hentry : rawEntry t p i = raw i := by rw [rawEntry, hraw, Option.getD_some]
  rw [hentry, waveEntry, waveform, hraw, Option.map_some, Option.getD_some]

end InRange

/-- The timer plays the waveform of the parameters. -/
structure Playing (t : Target) (p : Params) (h : HotPlate) : Prop where
  size : h.valueArraySize = tableSize t p
  entries : ∀ i < tableSize t p, h.values i = waveEntry t p i
  index : h.inputIndex < maxArraySize
  timer : h.ctimer4 = true

/-- A configuration in range, without interrupts. -/
theorem InRange.playing (hp : InRange p) (h : HotPlate) (hidx : h.inputIndex < maxArraySize) :
    ∃ h', (initializeDacHotPlate t p).1.foldlM (exec t) h = .ok h' ∧ h'.inputIndex = h.inputIndex ∧
      h'.codes = h.codes ∧ Playing t p h' := by
  rw [hp.initializeDacHotPlate_eq, assigns_run hp.tableSize_le]
  refine ⟨_, rfl, rfl, rfl, ?_⟩
  have hentries : ∀ i < tableSize t p,
      (if i < tableSize t p then scaleWord t i (rawEntry t p i) (maxDacValue p) else h.values i)
        = waveEntry t p i := by
    intro i hi
    rw [if_pos hi, hp.waveEntry_eq]
  exact {
    size := rfl
    entries := hentries
    index := hidx
    timer := rfl }

end HotPlate
end GasSensor
