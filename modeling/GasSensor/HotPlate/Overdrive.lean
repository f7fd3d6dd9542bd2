/-
# Replacing a waveform while it is played

The main thread runs `initialize_dac_hot_plate` for new parameters while
CTIMER4 plays the table of the old ones: the callback may run between any two
assignments.  `Progress` is the invariant: `k` entries have been filled and `j`
of them scaled, and the table is made of scaled, unscaled and old entries
accordingly.

A callback that reads an entry which is filled but not yet scaled puts out a
full-scale code.  `codes_le_peaks_iff` says that this, and an entry left over
from before the old waveform, are the only ways to exceed both peaks.
-/

import GasSensor.HotPlate.Waveform
import GasSensor.Lib.Preempt

namespace GasSensor
namespace HotPlate

open FloatingPoint Preempt

/-- The main thread and what it has still to execute. -/
abbrev Setup := Thread HotPlate Assign

/-- The entry has still to be filled. -/
def Unwritten (c : Setup) (i : ℕ) : Prop := ∃ v, Assign.write i v ∈ c.todo

/-- The entry has still to be scaled. -/
def Unscaled (c : Setup) (i : ℕ) : Prop := ∃ m, Assign.scale i m ∈ c.todo

section
variable [Arithmetic]

/-- **The entry at the read index does not exceed `bound`.**  If it is filled but
not scaled, its unscaled value does not; and if it belongs to neither waveform,
the value left over in it does not. -/
structure Harmless (t : Target) (old new : Params) (leftOver : ℕ → ℕ) (bound : ℕ) (c : Setup) : Prop where
  unscaled : Unscaled c c.state.inputIndex → ¬ Unwritten c c.state.inputIndex →
    rawEntry t new c.state.inputIndex ≤ bound
  leftOver : tableSize t old ≤ c.state.inputIndex →
    Unwritten c c.state.inputIndex ∨ tableSize t new ≤ c.state.inputIndex →
    leftOver c.state.inputIndex ≤ bound

/-- The assignments still to come when `k` entries are filled and `j` scaled. -/
def remaining (t : Target) (p : Params) (k j : ℕ) : List Assign :=
  ((List.range' k (tableSize t p - k)).map fun i => .write i (rawEntry t p i))
    ++ (List.range' j (tableSize t p - j)).map fun i => .scale i (maxDacValue p)

/-- **The invariant of the replacement.** -/
structure Progress (t : Target) (new : Params) (leftOver : ℕ → ℕ) (k j : ℕ) (c : Setup) : Prop where
  todo : ∃ before after, c.todo = before ++ remaining t new k j ++ after ∧
    (before = [] ∧ c.state.valueArraySize = tableSize t new ∨
      before = [.setSize (tableSize t new)] ∧ k = 0) ∧
    (after = [.setupTimer] ∨ after = [] ∧ k = tableSize t new ∧ j = tableSize t new)
  filled : k ≤ tableSize t new
  scaled : j = 0 ∨ k = tableSize t new
  scaled_le : j ≤ tableSize t new
  values : ∀ i, c.state.values i =
    if i < j then waveEntry t new i else if i < k then rawEntry t new i else leftOver i
  size : 0 < c.state.valueArraySize ∧ c.state.valueArraySize ≤ maxArraySize
  index : c.state.inputIndex < maxArraySize
  timer : c.state.ctimer4 = true

variable {t : Target} {old new : Params} {leftOver : ℕ → ℕ} {k j : ℕ} {c : Setup}

theorem unwritten_iff (h : Progress t new leftOver k j c) (i : ℕ) :
    Unwritten c i ↔ k ≤ i ∧ i < tableSize t new := by
  obtain ⟨before, after, htodo, hbefore, hafter⟩ := h.todo
  have hk := h.filled
  have hb : ∀ v, Assign.write i v ∉ before := by
    rcases hbefore with ⟨rfl, -⟩ | ⟨rfl, -⟩ <;> simp
  have ha : ∀ v, Assign.write i v ∉ after := by
    rcases hafter with rfl | ⟨rfl, -⟩ <;> simp
  simp only [Unwritten, htodo, remaining, List.mem_append, hb, ha, List.mem_map, List.mem_range'_1]
  constructor
  · rintro ⟨v, (h | h | ⟨a, _, ha⟩) | h⟩
    · exact h.elim
    · obtain ⟨a, hrange, ha⟩ := h
      cases ha
      omega
    · cases ha
    · exact h.elim
  · intro hi
    exact ⟨rawEntry t new i, .inl (.inr (.inl ⟨i, by omega, rfl⟩))⟩

theorem unscaled_iff (h : Progress t new leftOver k j c) (i : ℕ) :
    Unscaled c i ↔ j ≤ i ∧ i < tableSize t new := by
  obtain ⟨before, after, htodo, hbefore, hafter⟩ := h.todo
  have hj := h.scaled_le
  have hb : ∀ m, Assign.scale i m ∉ before := by
    rcases hbefore with ⟨rfl, -⟩ | ⟨rfl, -⟩ <;> simp
  have ha : ∀ m, Assign.scale i m ∉ after := by
    rcases hafter with rfl | ⟨rfl, -⟩ <;> simp
  simp only [Unscaled, htodo, remaining, List.mem_append, hb, ha, List.mem_map, List.mem_range'_1]
  constructor
  · rintro ⟨v, (h | ⟨a, _, ha⟩ | h) | h⟩
    · exact h.elim
    · cases ha
    · obtain ⟨a, hrange, ha⟩ := h
      cases ha
      omega
    · exact h.elim
  · intro hi
    exact ⟨maxDacValue new, .inl (.inr (.inr ⟨i, by omega, rfl⟩))⟩

/-- **The code at the read index exceeds no peak exactly when the entry is
harmless.** -/
theorem Progress.le_iff (hold : ∀ i < tableSize t old, leftOver i = waveEntry t old i)
    (h : Progress t new leftOver k j c) :
    c.state.values c.state.inputIndex ≤ max (peak t old) (peak t new)
      ↔ Harmless t old new leftOver (max (peak t old) (peak t new)) c := by
  set i := c.state.inputIndex with hi
  have hfilled := h.filled
  have hscaled := h.scaled
  have hscaled_le := h.scaled_le
  have hU := unwritten_iff h i
  have hS := unscaled_iff h i
  rw [h.values i]
  constructor
  · intro hle
    constructor
    · intro hs hw
      rw [hS] at hs
      rw [hU] at hw
      rwa [if_neg (by omega), if_pos (by omega)] at hle
    · intro _ hw
      rw [hU] at hw
      rwa [if_neg (by omega), if_neg (by omega)] at hle
  · intro hharm
    split_ifs with h1 h2
    · exact (waveEntry_le_peak (by omega)).trans (le_max_right _ _)
    · exact hharm.unscaled (hS.2 (by omega)) (by rw [hU]; omega)
    · rcases Nat.lt_or_ge i (tableSize t old) with hlt | hge
      · rw [hold i hlt]
        exact (waveEntry_le_peak hlt).trans (le_max_left _ _)
      · exact hharm.leftOver hge (by rw [hU]; omega)

theorem remaining_of_lt_filled (h : k < tableSize t new) :
    remaining t new k j = .write k (rawEntry t new k) :: remaining t new (k + 1) j := by
  rw [remaining, show tableSize t new - k = tableSize t new - (k + 1) + 1 by omega, List.range'_succ]
  rfl

theorem remaining_of_lt_scaled (h : j < tableSize t new) :
    remaining t new (tableSize t new) j
      = .scale j (maxDacValue new) :: remaining t new (tableSize t new) (j + 1) := by
  rw [remaining, Nat.sub_self, show tableSize t new - j = tableSize t new - (j + 1) + 1 by omega,
    List.range'_succ, remaining, Nat.sub_self]
  rfl

theorem remaining_done : remaining t new (tableSize t new) (tableSize t new) = [] := by
  simp [remaining]

/-- The callback as an interrupt of the main thread. -/
def callback (h : HotPlate) (_ : Unit) : Except Fault HotPlate := ctimer4IRQHandler h

/-- Filling one more entry. -/
theorem Progress.write (hnew : InRange new) (h : Progress t new leftOver k j c) {after : List Assign}
    (htodo : c.todo = remaining t new k j ++ after)
    (hafter : after = [.setupTimer] ∨ after = [] ∧ k = tableSize t new ∧ j = tableSize t new)
    (hsize : c.state.valueArraySize = tableSize t new) (hk : k < tableSize t new) :
    ∃ c', step (exec t) callback c .main = .ok c' ∧ c'.state.codes = c.state.codes ∧
      Progress t new leftOver (k + 1) j c' := by
  have hj : j = 0 := by
    have := h.scaled
    omega
  have hmax : k < maxArraySize := hk.trans_le hnew.tableSize_le
  rw [remaining_of_lt_filled hk] at htodo
  rw [step_main_of_cons htodo, exec, store, if_pos hmax, Run.ok_bind]
  refine ⟨_, rfl, rfl, ?_⟩
  exact { h with
    todo := ⟨[], after, rfl, .inl ⟨rfl, hsize⟩, .inl (hafter.resolve_right (by omega))⟩
    filled := hk
    scaled := .inl hj
    values := by
      intro i
      change Function.update c.state.values k (rawEntry t new k) i = _
      rcases Nat.lt_trichotomy i k with hi | rfl | hi
      · rw [Function.update_of_ne hi.ne, h.values i, if_pos hi, if_pos (show i < k + 1 by omega)]
      · rw [Function.update_self, if_neg (by omega), if_pos (by omega)]
      · rw [Function.update_of_ne hi.ne', h.values i, if_neg (show ¬ i < k by omega),
          if_neg (show ¬ i < k + 1 by omega)] }

/-- Scaling one more entry. -/
theorem Progress.scale (hnew : InRange new) (h : Progress t new leftOver (tableSize t new) j c)
    {after : List Assign} (htodo : c.todo = remaining t new (tableSize t new) j ++ after)
    (hafter : after = [.setupTimer] ∨
      after = [] ∧ tableSize t new = tableSize t new ∧ j = tableSize t new)
    (hsize : c.state.valueArraySize = tableSize t new) (hj : j < tableSize t new) :
    ∃ c', step (exec t) callback c .main = .ok c' ∧ c'.state.codes = c.state.codes ∧
      Progress t new leftOver (tableSize t new) (j + 1) c' := by
  have hmax : j < maxArraySize := hj.trans_le hnew.tableSize_le
  have hraw : c.state.values j = rawEntry t new j := by
    rw [h.values j, if_neg (lt_irrefl j), if_pos hj]
  rw [remaining_of_lt_scaled hj] at htodo
  rw [step_main_of_cons htodo, exec, store, if_pos hmax, Run.ok_bind, hraw, ← hnew.waveEntry_eq]
  refine ⟨_, rfl, rfl, ?_⟩
  exact { h with
    todo := ⟨[], after, rfl, .inl ⟨rfl, hsize⟩, .inl (hafter.resolve_right (by omega))⟩
    scaled := .inr rfl
    scaled_le := hj
    values := by
      intro i
      change Function.update c.state.values j (waveEntry t new j) i = _
      rcases Nat.lt_trichotomy i j with hi | rfl | hi
      · rw [Function.update_of_ne hi.ne, h.values i, if_pos hi, if_pos (show i < j + 1 by omega)]
      · rw [Function.update_self, if_pos (Nat.lt_succ_self i)]
      · rw [Function.update_of_ne hi.ne', h.values i, if_neg (show ¬ i < j by omega),
          if_neg (show ¬ i < j + 1 by omega)] }

/-- An assignment of the main thread keeps the invariant. -/
theorem Progress.main (hnew : InRange new) (h : Progress t new leftOver k j c) :
    ∃ c' k' j', step (exec t) callback c .main = .ok c' ∧ c'.state.codes = c.state.codes ∧
      Progress t new leftOver k' j' c' := by
  obtain ⟨before, after, htodo, hbefore, hafter⟩ := h.todo
  have hfilled := h.filled
  have hscaled_le := h.scaled_le
  rcases hbefore with ⟨rfl, hsize⟩ | ⟨rfl, hk0⟩
  · rw [List.nil_append] at htodo
    rcases Nat.lt_or_ge k (tableSize t new) with hk | hk
    · obtain ⟨c', hc', hcodes, h'⟩ := h.write hnew htodo hafter hsize hk
      exact ⟨c', _, _, hc', hcodes, h'⟩
    obtain rfl : k = tableSize t new := le_antisymm hfilled hk
    rcases Nat.lt_or_ge j (tableSize t new) with hj | hj
    · obtain ⟨c', hc', hcodes, h'⟩ := h.scale hnew htodo hafter hsize hj
      exact ⟨c', _, _, hc', hcodes, h'⟩
    obtain rfl : j = tableSize t new := le_antisymm hscaled_le hj
    rw [remaining_done, List.nil_append] at htodo
    rcases hafter with rfl | ⟨rfl, -, -⟩
    · rw [step_main_of_cons htodo, exec, Run.ok_bind]
      refine ⟨_, _, _, rfl, rfl, { h with todo := ?_, timer := rfl }⟩
      exact ⟨[], [], by rw [remaining_done]; rfl, .inl ⟨rfl, hsize⟩, .inr ⟨rfl, rfl, rfl⟩⟩
    · exact ⟨c, _, _, step_main_of_nil htodo, rfl, h⟩
  · rw [step_main_of_cons htodo, exec, Run.ok_bind]
    refine ⟨_, _, _, rfl, rfl, { h with
      todo := ⟨[], after, rfl, .inl ⟨rfl, rfl⟩, hafter⟩
      size := ⟨hnew.tableSize_pos, hnew.tableSize_le⟩ }⟩

/-- A callback puts out the entry at the read index and keeps the invariant. -/
theorem Progress.interrupt (h : Progress t new leftOver k j c) :
    ∃ c', step (exec t) callback c (.interrupt ()) = .ok c' ∧
      c'.state.codes = c.state.codes ++ [c.state.values c.state.inputIndex] ∧
      Progress t new leftOver k j c' := by
  have hlt : (c.state.inputIndex + 1) % c.state.valueArraySize < maxArraySize :=
    (Nat.mod_lt _ h.size.1).trans_le h.size.2
  refine ⟨⟨{ c.state with
    codes := c.state.codes ++ [c.state.values c.state.inputIndex]
    inputIndex := (c.state.inputIndex + 1) % c.state.valueArraySize }, c.todo⟩, ?_, rfl, ?_⟩
  · simp only [step, callback, ctimer4IRQHandler, h.timer, if_true, dacUpdateCallback, if_pos h.index,
      if_neg h.size.1.ne', Run.ok_bind]
  · exact { h with index := hlt }

/-- A preempted replacement starts with the invariant. -/
theorem progress_start (hnew : InRange new) {h₀ : HotPlate} (hold : InRange old) (h : Playing t old h₀) :
    Progress t new h₀.values 0 0 ⟨h₀, (initializeDacHotPlate t new).1⟩ where
  todo := by
    refine ⟨[.setSize (tableSize t new)], [.setupTimer], ?_, .inr ⟨rfl, rfl⟩, .inl rfl⟩
    rw [hnew.initializeDacHotPlate_eq]
    simp [assigns, remaining, fill, scaleDacValues, List.range_eq_range']
  filled := Nat.zero_le _
  scaled := .inl rfl
  scaled_le := Nat.zero_le _
  values i := by rw [if_neg (Nat.not_lt_zero i), if_neg (Nat.not_lt_zero i)]
  size := by
    rw [h.size]
    exact ⟨hold.tableSize_pos, hold.tableSize_le⟩
  index := h.index
  timer := h.timer

/-- When the main thread is done the new waveform is in place. -/
theorem Progress.playing (h : Progress t new leftOver k j c) (hdone : c.todo = []) :
    Playing t new c.state := by
  obtain ⟨before, after, htodo, hbefore, hafter⟩ := h.todo
  rw [hdone] at htodo
  simp only [List.nil_eq, List.append_eq_nil_iff] at htodo
  obtain ⟨⟨rfl, -⟩, rfl⟩ := htodo
  have hj : j = tableSize t new := by
    rcases hafter with hafter | ⟨-, -, hj⟩
    · cases hafter
    · exact hj
  have hsize : c.state.valueArraySize = tableSize t new := by
    rcases hbefore with ⟨-, hsize⟩ | ⟨hbefore, -⟩
    · exact hsize
    · cases hbefore
  exact {
    size := hsize
    entries := fun i hi => by rw [h.values i, if_pos (hj ▸ hi)]
    index := h.index
    timer := h.timer }

/-- A preempted run from any point of the replacement. -/
theorem Progress.run (hnew : InRange new) (hold : ∀ i < tableSize t old, leftOver i = waveEntry t old i)
    (schedule : List (Move Unit)) (h : Progress t new leftOver k j c) :
    ∃ c' codes k' j', schedule.foldlM (step (exec t) callback) c = .ok c' ∧
      c'.state.codes = c.state.codes ++ codes ∧ Progress t new leftOver k' j' c' ∧
      ((∀ code ∈ codes, code ≤ max (peak t old) (peak t new)) ↔
        AtInterrupts (exec t) callback
          (fun c _ => Harmless t old new leftOver (max (peak t old) (peak t new)) c) c schedule) := by
  induction schedule generalizing c k j with
  | nil =>
      refine ⟨c, [], k, j, rfl, (List.append_nil _).symm, h, ?_⟩
      exact ⟨fun _ => trivial, fun _ code hcode => absurd hcode List.not_mem_nil⟩
  | cons m schedule ih =>
      cases m with
      | main =>
          obtain ⟨c₁, k₁, j₁, h₁, hcodes₁, hP₁⟩ := h.main hnew
          obtain ⟨c', codes, k', j', hrun, hcodes, hP, hiff⟩ := ih hP₁
          refine ⟨c', codes, k', j', ?_, by rw [hcodes, hcodes₁], hP, ?_⟩
          · rw [List.foldlM_cons, h₁, Run.ok_bind, hrun]
          · rw [hiff, atInterrupts_main h₁]
      | interrupt u =>
          obtain ⟨c₁, h₁, hcodes₁, hP₁⟩ := h.interrupt
          obtain ⟨c', codes, k', j', hrun, hcodes, hP, hiff⟩ := ih hP₁
          refine ⟨c', c.state.values c.state.inputIndex :: codes, k', j', ?_, ?_, hP, ?_⟩
          · rw [List.foldlM_cons, h₁, Run.ok_bind, hrun]
          · rw [hcodes, hcodes₁, List.append_assoc, List.singleton_append]
          · rw [List.forall_mem_cons, hiff, atInterrupts_interrupt h₁, h.le_iff hold]

/-- **The hot plate is not overdriven exactly when every callback finds a harmless
entry.**  While the parameters `new` replace `old`, under every schedule, no
access leaves the table, and every code put out is at most the larger of the two
peaks if and only if each callback finds the entry at the read index
`Harmless`.  Once the main thread is done the new waveform is played. -/
theorem codes_le_peaks_iff (hold : InRange old) (hnew : InRange new) {h₀ : HotPlate}
    (h : Playing t old h₀) (schedule : List (Move Unit)) :
    ∃ c codes,
      schedule.foldlM (step (exec t) callback) ⟨h₀, (initializeDacHotPlate t new).1⟩ = .ok c ∧
        c.state.codes = h₀.codes ++ codes ∧ (c.todo = [] → Playing t new c.state) ∧
        ((∀ code ∈ codes, code ≤ max (peak t old) (peak t new)) ↔
          AtInterrupts (exec t) callback
            (fun c _ => Harmless t old new h₀.values (max (peak t old) (peak t new)) c)
            ⟨h₀, (initializeDacHotPlate t new).1⟩ schedule) := by
  obtain ⟨c, codes, k, j, hrun, hcodes, hP, hiff⟩ :=
    (progress_start hnew hold h).run hnew h.entries schedule
  exact ⟨c, codes, hrun, hcodes, hP.playing, hiff⟩

end

attribute [local instance] Arithmetic.uncontracted

/-- A square wave of 7 V at 0.5 Hz: 50 entries, at most 4964. -/
def smallSquare : Params :=
  { Params.boot with waveType := 1, desiredFrequency := .finite (1 / 2), desiredAmplitude := 7 }

theorem inRange_smallSquare : InRange smallSquare where
  waveType := by decide
  dutyCycle := by decide
  frequency := by decide +kernel
  amplitude := by decide

/-- Its full-scale entries are scaled to 4964. -/
theorem peak_smallSquare (t : Target) : peak t smallSquare ≤ 4964 := by
  refine Finset.sup_le fun i _ => ?_
  have hraw : rawEntry t smallSquare i = 16383 ∨ rawEntry t smallSquare i = 0 := by
    change squareEntry smallSquare _ i = 16383 ∨ squareEntry smallSquare _ i = 0
    unfold squareEntry
    split
    · exact .inl rfl
    · exact .inr rfl
  rw [inRange_smallSquare.waveEntry_eq]
  rcases hraw with hraw | hraw
  · have hscaled : double.mul (double.div (float.round (16383 : ℕ)) (.finite 16383)) (maxDacValue smallSquare)
        = .finite (10167389 / 2048) := by decide +kernel
    rw [hraw, scaleWord, hscaled, Target.toU32]
    norm_num
  · have hscaled : double.mul (double.div (float.round (0 : ℕ)) (.finite 16383)) (maxDacValue smallSquare)
        = .finite 0 := by decide +kernel
    rw [hraw, scaleWord, hscaled, Target.toU32]
    norm_num

/-- The hypotheses of `codes_le_peaks_iff` are satisfiable: the small square wave
replaces itself. -/
theorem codes_le_peaks_iff_smallSquare :
    ∃ h₀ c codes,
      [Move.main, .interrupt ()].foldlM (step (exec .saturating) callback)
          ⟨h₀, (initializeDacHotPlate .saturating smallSquare).1⟩ = .ok c ∧
        c.state.codes = h₀.codes ++ codes ∧ (c.todo = [] → Playing .saturating smallSquare c.state) ∧
        ((∀ code ∈ codes, code ≤ max (peak .saturating smallSquare) (peak .saturating smallSquare)) ↔
          AtInterrupts (exec .saturating) callback
            (fun c _ => Harmless .saturating smallSquare smallSquare h₀.values
              (max (peak .saturating smallSquare) (peak .saturating smallSquare)) c)
            ⟨h₀, (initializeDacHotPlate .saturating smallSquare).1⟩ [.main, .interrupt ()]) := by
  obtain ⟨h₀, -, -, -, hplay⟩ := inRange_smallSquare.playing (t := .saturating) boot (by decide)
  exact ⟨h₀, codes_le_peaks_iff inRange_smallSquare inRange_smallSquare hplay _⟩

/-- **A full-scale code is played.**  The small square wave is configured from
boot and then once more; a callback between the first two assignments to the
table puts out 16383, with both peaks at most 4964. -/
theorem full_scale_played :
    ∃ h₀ c, (initializeDacHotPlate .saturating smallSquare).1.foldlM (exec .saturating) boot = .ok h₀ ∧
      [Move.main, .main, .interrupt ()].foldlM (step (exec .saturating) callback)
          ⟨h₀, (initializeDacHotPlate .saturating smallSquare).1⟩ = .ok c ∧
        c.state.codes = [16383] ∧
        ¬ 16383 ≤ max (peak .saturating smallSquare) (peak .saturating smallSquare) := by
  obtain ⟨h₀, hrun, hidx, hcodes, hplay⟩ :=
    inRange_smallSquare.playing (t := .saturating) boot (by decide)
  have hraw : rawEntry .saturating smallSquare 0 = 16383 := by
    change squareEntry smallSquare (tableSize .saturating smallSquare) 0 = 16383
    decide +kernel
  obtain ⟨n, hn⟩ : ∃ n, tableSize .saturating smallSquare = n + 1 :=
    Nat.exists_eq_succ_of_ne_zero inRange_smallSquare.tableSize_pos.ne'
  obtain ⟨rest, htodo⟩ : ∃ rest, (initializeDacHotPlate .saturating smallSquare).1
      = .setSize (n + 1) :: .write 0 16383 :: rest := by
    rw [inRange_smallSquare.initializeDacHotPlate_eq, hn, assigns, fill, List.range_eq_range',
      List.range'_succ, List.map_cons, hraw]
    exact ⟨_, rfl⟩
  have hstart : h₀.inputIndex = 0 ∧ h₀.codes = [] ∧ h₀.ctimer4 = true := ⟨hidx, hcodes, hplay.timer⟩
  have hsteps : [Move.main, .main, .interrupt ()].foldlM (step (exec .saturating) callback)
      ⟨h₀, (initializeDacHotPlate .saturating smallSquare).1⟩
        = .ok ⟨{ h₀ with
            valueArraySize := n + 1
            values := Function.update h₀.values 0 16383
            codes := [16383]
            inputIndex := 1 % (n + 1) }, rest⟩ := by
    rw [htodo]
    simp [step, exec, store, callback, ctimer4IRQHandler, dacUpdateCallback, hstart, maxArraySize]
  have hpeak := peak_smallSquare .saturating
  exact ⟨h₀, _, hrun, hsteps, rfl, by omega⟩

end HotPlate
end GasSensor
