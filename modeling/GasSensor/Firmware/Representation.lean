/-
# When the sampler follows the parameters

A write changes the parameters at once; block, position and multiplexer follow
when `InitializeAllPeripherals` gets that far.  It does not if the hot plate
stage rejects the parameters, and then the timer goes on with the block it has.

`Represented` is what a tick of CTIMER2 relies on, `KeepsRepresented` the writes
after which it holds, in terms of the registers and of the parameters before,
and `represented_iff` compares them over whole runs with interrupts.
-/

import GasSensor.Firmware.LiveLoop

namespace GasSensor
namespace Firmware

open FloatingPoint Modbus

/-- **What a tick relies on**: the strip count counts the active strips, of which there is
one at least, the block holds exactly their numbers in increasing order, the position is
inside it, and the multiplexer selects the strip at that position. -/
structure Represented (p : Params) (s : Sampler) : Prop where
  count : p.gStripCount = countStrips p.activeStrips
  nonempty : 1 ≤ p.gStripCount
  indices : s.activeStripIndices = .live (p.strips.map Fin.val)
  position : s.currentActiveStripIndex < p.gStripCount
  mux : s.activeStripIndices.read s.currentActiveStripIndex = .ok s.mux.channel.val

/-- Wherever a tick can come, it finds what it relies on. -/
def TicksRepresented (fw : Firmware) : Prop :=
  fw.peripherals.sampler.ctimer2 ≠ none → Represented fw.server.params fw.peripherals.sampler

section
variable [Arithmetic]

/-- The hot plate stage rejects the registers: a wave type above triangle or a frequency
below 0.002 Hz, where a register that is 0 stands for the parameter in force. -/
def RejectedBy (registers : Fin 7 → UInt16) (p : Params) : Prop :=
  (3 < (registers 0).toNat ∨ registers 0 = 0 ∧ 2 < p.waveType) ∨
    registers 2 = 1 ∨ registers 2 = 0 ∧ p.desiredFrequency < lowestFreqPossible

/-- The strips the registers select. -/
def selected (registers : Fin 7 → UInt16) (p : Params) : Strip → Bool := fun i =>
  if registers 6 = 0 then p.activeStrips i else (registers 6).toNat.testBit i

/-- **The writes that keep the sampler with the parameters.**  Registers that are not
rejected have to select a strip, and `malloc` has to find memory for the block; rejected
ones must not change the selection unless the timer is not running yet. -/
def KeepsRepresented (fw : Firmware) (malloc : Malloc ℕ) (registers : Fin 7 → UInt16) : Prop :=
  ¬ RejectedBy registers fw.server.params ∧ (∃ i, selected registers fw.server.params i = true) ∧
      (malloc (countStrips (selected registers fw.server.params))).isSome ∨
    RejectedBy registers fw.server.params ∧ (fw.peripherals.sampler.ctimer2 = none ∨
      selected registers fw.server.params = fw.server.params.activeStrips)

/-- The event is an interrupt, a frame that writes nothing, or a write that keeps the
sampler with the parameters. -/
def Admissible (fw : Firmware) : LiveEvent → Prop
  | .interrupt _ => True
  | .frame malloc f => ∀ start values, acceptedWrite f.bytes = some (start, values) →
      KeepsRepresented fw malloc (storeFrom fw.server.holdingRegisters start values)

variable {t : Target} {malloc : Malloc ℕ} {registers : Fin 7 → UInt16} {p : Params} {s : Sampler}
  {fw fw' : Firmware}

omit [Arithmetic] in
theorem represented_iff_aligned : Represented p s ↔ p.Counted ∧ Sampler.Aligned p s := by
  constructor
  · intro h
    have hcount : p.Counted := h.count
    have hposition : s.currentActiveStripIndex < p.strips.length := hcount.eq_length ▸ h.position
    refine ⟨hcount, h.indices, hposition, ?_⟩
    have hmux := h.mux
    rw [Sampler.read_index h.indices hposition, Except.ok.injEq] at hmux
    exact (Fin.ext hmux).symm
  · rintro ⟨hcount, ha⟩
    have hposition := ha.position
    rw [← hcount.eq_length] at hposition
    exact ⟨hcount, Nat.zero_lt_of_lt hposition, ha.indices, hposition, by
      rw [Sampler.read_index ha.indices ha.position, ha.mux]⟩

/-- The strips the registers select are those in force afterwards. -/
theorem activeStrips_modbusUpdateParameters (registers : Fin 7 → UInt16) (p : Params) :
    (modbusUpdateParameters registers p).activeStrips = selected registers p := by
  change unlessZero (registers 6) _ p.activeStrips = _
  funext i
  by_cases h : registers 6 = 0
  · rw [unlessZero_zero h, selected, if_pos h]
  · rw [unlessZero_of_ne h, selected, if_neg h]

/-- One thousandth is below 2 mHz. -/
theorem thousandth_lt_lowestFreqPossible_iff (w : UInt16) : thousandth w < lowestFreqPossible ↔ w.toNat < 2 := by
  obtain ⟨d, hd, -⟩ := lowestFreqPossible_eq
  have hnan : thousandth w ≠ .nan := by
    rw [thousandth_eq]
    exact (Value.ne_nan_of_le (float.monotone le_rfl)).1
  rw [← Value.not_le hnan (by rw [hd]; simp), lowestFreqPossible_le_thousandth_iff, not_le]

/-- The registers are rejected exactly if the parameters they give are. -/
theorem rejected_modbusUpdateParameters (registers : Fin 7 → UInt16) (p : Params) :
    Rejected (modbusUpdateParameters registers p) ↔ RejectedBy registers p := by
  have hwave : 2 < (modbusUpdateParameters registers p).waveType ↔
      3 < (registers 0).toNat ∨ registers 0 = 0 ∧ 2 < p.waveType := by
    change 2 < unlessZero (registers 0) ((registers 0).toNat - 1) p.waveType ↔ _
    by_cases h : registers 0 = 0
    · rw [unlessZero_zero h, h]
      exact ⟨fun h2 => .inr ⟨rfl, h2⟩, fun h2 => h2.elim (fun h3 => absurd h3 (by decide)) And.right⟩
    · rw [unlessZero_of_ne h]
      simp only [h, false_and, or_false]
      omega
  have hfreq : (modbusUpdateParameters registers p).desiredFrequency < lowestFreqPossible ↔
      registers 2 = 1 ∨ registers 2 = 0 ∧ p.desiredFrequency < lowestFreqPossible := by
    change unlessZero (registers 2) (thousandth (registers 2)) p.desiredFrequency < _ ↔ _
    by_cases h : registers 2 = 0
    · rw [unlessZero_zero h, h]
      exact ⟨fun h2 => .inr ⟨rfl, h2⟩, fun h2 => h2.elim (fun h3 => absurd h3 (by decide)) And.right⟩
    · have hpos : (registers 2).toNat ≠ 0 := fun h0 => h (UInt16.toNat_inj.1 h0)
      rw [unlessZero_of_ne h, thousandth_lt_lowestFreqPossible_iff]
      simp only [h, false_and, or_false]
      rw [← UInt16.toNat_inj]
      have hone : (1 : UInt16).toNat = 1 := rfl
      omega
  rw [Rejected, hfreq, hwave, RejectedBy]
  exact or_comm

omit [Arithmetic] in
/-- What is selected is not the same selection exactly if the lists of strips differ. -/
theorem stripList_inj {a b : Strip → Bool} : stripList a = stripList b ↔ a = b := by
  constructor
  · intro h
    funext i
    have hi : i ∈ stripList a ↔ i ∈ stripList b := by rw [h]
    rw [mem_stripList, mem_stripList] at hi
    exact Bool.eq_iff_iff.2 hi
  · exact fun h => h ▸ rfl

/-- A write leaves a sampler that follows the parameters exactly if it keeps it with them. -/
theorem ticksRepresented_write (h : Sound fw) (hrep : TicksRepresented fw)
    (hparams : fw'.server.params = modbusUpdateParameters registers fw.server.params) {status : ℤ}
    (hinit : initializeAllPeripherals t malloc fw'.server.params fw.peripherals
      = .ok (fw'.peripherals, status)) :
    TicksRepresented fw' ↔ KeepsRepresented fw malloc registers := by
  have hcounted : fw'.server.params.Counted := hparams ▸ modbusUpdateParameters_counted registers h.counted
  have hstrips : fw'.server.params.activeStrips = selected registers fw.server.params :=
    hparams ▸ activeStrips_modbusUpdateParameters registers _
  have hrejected : Rejected fw'.server.params ↔ RejectedBy registers fw.server.params :=
    hparams ▸ rejected_modbusUpdateParameters registers _
  unfold TicksRepresented KeepsRepresented
  rw [← hrejected, ← hstrips, ← hcounted, represented_iff_aligned]
  rcases initializeAllPeripherals_cases hinit with ⟨hr, -, hd⟩ | ⟨hr, -, s', hs', hd⟩
  · -- the sampler is as before, only the selection may be another one
    have hs : fw'.peripherals.sampler = fw.peripherals.sampler := by rw [hd]
    simp only [hr, not_true_eq_false, false_and, true_and, false_or, hs]
    by_cases hstop : fw.peripherals.sampler.ctimer2 = none
    · simp [hstop]
    obtain ⟨-, ha⟩ := represented_iff_aligned.1 (hrep hstop)
    simp only [ne_eq, hstop, not_false_eq_true, true_imp_iff, false_or]
    constructor
    · rintro ⟨-, ha'⟩
      have hblock := ha'.indices.symm.trans ha.indices
      rw [Block.live.injEq, List.map_inj_right fun _ _ => Fin.ext] at hblock
      exact stripList_inj.1 hblock
    · intro hsame
      have hlist : fw'.server.params.strips = fw.server.params.strips := congrArg stripList hsame
      refine ⟨hcounted, hlist ▸ ha.indices, hlist ▸ ha.position, ?_⟩
      rw [ha.mux, Params.stripAt, Params.stripAt, hlist]
  · obtain ⟨-, htimer, -, -, hblock⟩ := Sampler.configure_ok hcounted hs'
    have hrun : fw'.peripherals.sampler.ctimer2 ≠ none := by
      rw [hd]
      change s'.ctimer2 ≠ none
      rw [htimer]
      exact Option.some_ne_none _
    simp only [hr, not_false_eq_true, true_and, false_and, or_false, hrun, ne_eq, true_imp_iff]
    constructor
    · rintro ⟨-, ha⟩
      have hpos : 0 < fw'.server.params.strips.length := Nat.zero_lt_of_lt ha.position
      refine ⟨⟨_, Params.active_stripAt hpos 0⟩, ?_⟩
      by_contra hm
      have hindices : s'.activeStripIndices = .live (fw'.server.params.strips.map Fin.val) := by
        have := ha.indices
        rwa [hd] at this
      rw [hblock, if_neg hm] at hindices
      cases hindices
    · rintro ⟨⟨i, hi⟩, hm⟩
      have hpos : 0 < fw'.server.params.strips.length := List.length_pos_of_mem (mem_stripList.2 hi)
      have ha := Sampler.aligned_of_configure hcounted hpos hm hs'
      rw [hd]
      exact ⟨hcounted, ha.indices, ha.position, ha.mux⟩

/-- **One event**: it succeeds and leaves a sampler that follows the parameters exactly if
it is admissible. -/
theorem liveStep_represented (t : Target) (h : Sound fw) (hrep : TicksRepresented fw) (e : LiveEvent) :
    ∃ fw', liveStep t fw e = .ok fw' ∧ (TicksRepresented fw' ↔ Admissible fw e) := by
  match e with
  | .interrupt e =>
      by_cases hstop : fw.peripherals.sampler.ctimer2 = none
      · obtain ⟨s', hs', hnone⟩ := Sampler.interrupt_of_stopped t true fw.server.params hstop e
        refine ⟨_, by rw [liveStep, hs', Run.ok_bind], iff_of_true (fun hrun => ?_) trivial⟩
        exact absurd hnone hrun
      · obtain ⟨hcounted, ha⟩ := represented_iff_aligned.1 (hrep hstop)
        obtain ⟨s', hs', ha'⟩ := Sampler.interrupt_aligned t true hcounted ha e
        refine ⟨_, by rw [liveStep, hs', Run.ok_bind], iff_of_true (fun _ => ?_) trivial⟩
        exact represented_iff_aligned.2 ⟨hcounted, ha'⟩
  | .frame malloc f =>
      obtain ⟨fw', hfw', -, -⟩ := turnStep_settings t h (malloc, f)
      refine ⟨fw', hfw', ?_⟩
      rcases turnStep_cases h hfw' with
        ⟨hnone, hsettings, hperipherals⟩ | ⟨start, values, hw, hsettings, status, hinit⟩
      · have hparams : fw'.server.params = fw.server.params := congrArg Settings.params hsettings
        refine iff_of_true ?_ fun start values hw => ?_
        · unfold TicksRepresented
          rw [hparams, hperipherals]
          exact hrep
        · rw [hnone] at hw
          cases hw
      · have hparams : fw'.server.params
            = modbusUpdateParameters (storeFrom fw.server.holdingRegisters start values) fw.server.params :=
          congrArg Settings.params hsettings
        rw [ticksRepresented_write h hrep hparams hinit]
        constructor
        · intro hkeeps start' values' hw'
          obtain ⟨rfl, rfl⟩ := Prod.mk.inj (Option.some.inj (hw.symm.trans hw'))
          exact hkeeps
        · exact fun hadm => hadm start values hw

/-- Nothing is running when the firmware starts. -/
theorem ticksRepresented_boot : TicksRepresented boot := fun h => absurd rfl h

/-- **When the sampler follows the parameters.**  In every sequence of frames and interrupts
from boot: no event faults and every tick that can come finds what it relies on, in every
state of the run, if and only if every accepted write of the run, in the state it finds,
keeps the sampler with the parameters. -/
theorem represented_iff (t : Target) (es : List LiveEvent) :
    (∀ fs, fs <+: es → ∃ fw, fs.foldlM (liveStep t) boot = .ok fw ∧ TicksRepresented fw) ↔
      Run.AtEveryStep (liveStep t) Admissible boot es := by
  refine Run.foldlM_good_iff (I := fun fw => Sound fw ∧ TicksRepresented fw)
    ⟨sound_boot, ticksRepresented_boot⟩ (fun _ h => h.2) (fun fw e ⟨hsound, hrep⟩ => ?_) es
  obtain ⟨fw', hstep, hiff⟩ := liveStep_represented t hsound hrep e
  exact ⟨fw', hstep, hiff, fun hadm => ⟨hsound.liveStep hstep, hiff.2 hadm⟩⟩

end

attribute [local instance] Arithmetic.uncontracted

/-- A write of 0x0100 to the strip register: none of its low eight bits is set. -/
def writeStrips256 : Frame := ⟨withCRC [0x01, 0x06, 0x00, 0x06, 0x01, 0x00], by decide⟩

/-- **The timer runs without an active strip**: after this write at boot a tick finds a strip
count of 0. -/
theorem writeStrips256_not_represented :
    ∃ fw, [LiveEvent.frame zeroedMalloc writeStrips256].foldlM (liveStep .saturating) boot = .ok fw ∧
      fw.peripherals.sampler.ctimer2 ≠ none ∧ fw.server.params.gStripCount = 0 ∧ ¬ TicksRepresented fw := by
  obtain ⟨fw, hfw, hiff⟩ := liveStep_represented .saturating sound_boot ticksRepresented_boot
    (.frame zeroedMalloc writeStrips256)
  have hw : acceptedWrite writeStrips256.bytes = some (6, [0x0100]) := by decide
  have hnot : ¬ TicksRepresented fw := by
    rw [hiff]
    intro hadm
    rcases hadm 6 [0x0100] hw with ⟨-, ⟨i, hi⟩, -⟩ | ⟨hr, -⟩
    · exact absurd hi (by revert i; decide)
    · revert hr
      unfold RejectedBy
      decide +kernel
  refine ⟨fw, by rw [List.foldlM_cons, hfw]; rfl, ?_, ?_, hnot⟩
  · exact fun hstop => hnot fun hrun => absurd hstop hrun
  · obtain ⟨fw', hfw', -, hsettings⟩ := turnStep_settings .saturating sound_boot (zeroedMalloc, writeStrips256)
    obtain rfl := Except.ok.inj (hfw'.symm.trans hfw)
    have hparams := congrArg Settings.params hsettings
    rw [Settings.frame_of_some hw] at hparams
    change fw'.server.params = _ at hparams
    rw [hparams]
    decide

end Firmware
end GasSensor
