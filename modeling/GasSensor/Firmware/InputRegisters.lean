/-
# The input registers and the resistances

`Modbus_HandleReadInputRegister` copies the `int` resistances into 16-bit input
registers before it answers, while the console prints the `int`s.
`Carries` says that the two agree in every response, which is so exactly if all
resistances fit a register (`carries_iff`).

Over whole runs of the main loop with interrupts this is decided where the
resistances are computed, at the end of each round (`carries_run_iff`).
-/

import GasSensor.Firmware.LiveLoop
import GasSensor.Modbus.Machine
import GasSensor.Sampler.RoundEnd

namespace GasSensor
namespace Firmware

open FloatingPoint Modbus

section
variable [Arithmetic]

/-- **Responses carry the resistances**: the response to a read of input registers
`start .. start + count - 1` that lie in the table carries, for the register of each strip
among them, the strip's resistance. -/
def Carries (resistanceArray : Strip → ℤ × ℤ) (s : Server) : Prop :=
  ∀ f : Frame, f.address = modbusAddress → f.functionCode = funcReadInputRegisters →
    field f.bytes 2 + field f.bytes 4 ≤ 8 →
    ∃ s' body values, modbusHandleRequest resistanceArray f.bytes f.bytes.length s = .ok (s', [withCRC body]) ∧
      Answer.decode body.tail = some (.registers funcReadInputRegisters values) ∧
      ∀ (i : Strip) j, j < field f.bytes 4 → i.val = field f.bytes 2 + j →
        ∃ w, values[j]? = some w ∧ (w : ℤ) = (resistanceArray i).1

/-- The resistance of a strip fits its register. -/
def Fits (resistance : ℤ) : Prop := 0 ≤ resistance ∧ resistance < 65536

/-- A read of all eight input registers. -/
def readInputRegisters : Frame := ⟨withCRC [0x01, 0x04, 0x00, 0x00, 0x00, 0x08], by decide⟩

variable {resistanceArray : Strip → ℤ × ℤ} {s : Server}

omit [Arithmetic] in
/-- A resistance that has been cleared fits. -/
theorem fits_zero : Fits 0 := ⟨le_refl _, by decide⟩

omit [Arithmetic] in
theorem inputRegistersOf_eq_iff (i : Strip) :
    ((inputRegistersOf resistanceArray i).toNat : ℤ) = (resistanceArray i).1 ↔ Fits (resistanceArray i).1 := by
  rw [inputRegistersOf, UInt16.toNat_ofNat', Fits]
  omega

/-- The response to a read in range, and what it carries. -/
theorem readInput_response (resistanceArray : Strip → ℤ × ℤ) (s : Server) {f : Frame}
    (ha : f.address = modbusAddress) (hf : f.functionCode = funcReadInputRegisters)
    (h : field f.bytes 2 + field f.bytes 4 ≤ 8) :
    ∃ s', modbusHandleRequest resistanceArray f.bytes f.bytes.length s
        = .ok (s', [withCRC (readResponse f.bytes (inputRegistersOf resistanceArray))]) ∧
      Answer.decode (readResponse f.bytes (inputRegistersOf resistanceArray)).tail
        = some (.registers funcReadInputRegisters (registersFrom
            (UInt16.toNat ∘ inputRegistersOf resistanceArray) (field f.bytes 2) (field f.bytes 4))) := by
  have ha : f.bytes.getD 0 0 = modbusAddress := ha
  have hf : f.bytes.getD 1 0 = funcReadInputRegisters := hf
  refine ⟨{ s with inputRegisters := inputRegistersOf resistanceArray }, ?_, ?_⟩
  · rw [modbusHandleRequest_eq _ _ f.deliverable.1.1, if_neg (not_not.2 ha), if_pos hf,
      modbusHandleReadInputRegister_eq _ f.deliverable.1.1, if_pos h]
  · rw [decode_readResponse (by decide) (.inr hf) h, hf]

/-- **Responses carry the resistances exactly if these fit their registers.** -/
theorem carries_iff : Carries resistanceArray s ↔ ∀ i, Fits (resistanceArray i).1 := by
  constructor
  · intro h i
    -- the response to a read of all registers shows every strip
    have hrange : field readInputRegisters.bytes 2 + field readInputRegisters.bytes 4 ≤ 8 := by decide
    obtain ⟨s', body, values, hreq, hvalues, hall⟩ := h readInputRegisters rfl rfl hrange
    obtain ⟨s'', hreq', hdecode⟩ := readInput_response resistanceArray s (f := readInputRegisters) rfl rfl hrange
    have hbody := (Prod.mk.inj (Except.ok.inj (hreq.symm.trans hreq'))).2
    obtain rfl := withCRC_inj.1 (List.singleton_inj.1 hbody)
    rw [hdecode, Option.some.injEq, Answer.registers.injEq] at hvalues
    obtain ⟨w, hw, hcarried⟩ := hall i i.val i.isLt (Nat.zero_add _).symm
    rw [← hvalues.2, registersFrom_getElem? hrange i.isLt, Option.some.injEq] at hw
    have hlt : 0 + i.val < 8 := by
      have := i.isLt
      omega
    have hidx : (⟨field readInputRegisters.bytes 2 + i.val, hlt⟩ : Fin 8) = i := Fin.ext (Nat.zero_add _)
    rw [← inputRegistersOf_eq_iff i, ← hcarried, ← hw, hidx]
    rfl
  · intro h f ha hf hrange
    obtain ⟨s', hreq, hdecode⟩ := readInput_response resistanceArray s ha hf hrange
    refine ⟨s', _, _, hreq, hdecode, fun i j hj hi => ?_⟩
    refine ⟨_, registersFrom_getElem? hrange hj, ?_⟩
    have hidx : (⟨field f.bytes 2 + j, by omega⟩ : Fin 8) = i := Fin.ext hi.symm
    rw [hidx]
    exact (inputRegistersOf_eq_iff i).2 (h i)

open Sampler in
/-- A resistance computed from a voltage average `v` and an averaged current `i` fits its
register: the number that is converted to `int` is below 65536, or the conversion is undefined
and what the machine stores for it happens to fit. -/
def RegisterFits (t : Target) (v i : ℕ) : Prop :=
  (i ≠ 0 ∧ resistanceValue v i < .finite 65536) ∨ (¬ ResistanceDefined v i ∧ Fits (t.undefinedInt v i))

open Sampler in
/-- Whatever the event computes fits: at the end of a round, the resistance of each active
strip. -/
def RoundFits (t : Target) (fw : Firmware) : LiveEvent → Prop
  | .frame _ _ => True
  | .interrupt e => CompletesRound true fw.server.params fw.peripherals.sampler e →
      ∀ i, fw.server.params.activeStrips i = true → RegisterFits t
        (fw.peripherals.sampler.roundValues i).1
        (totalAveragedCurrent fw.server.params fw.peripherals.sampler)

/-- The responses carry the resistances in this state. -/
def CarriesNow (fw : Firmware) : Prop := Carries fw.peripherals.sampler.resistanceArray fw.server

variable {t : Target} {fw fw' : Firmware} {e : LiveEvent} {v i : ℕ}

theorem fits_resistance_iff : Fits (Sampler.resistance t v i) ↔ RegisterFits t v i := by
  unfold RegisterFits
  by_cases hd : Sampler.ResistanceDefined v i
  · obtain ⟨r, hr, h0, -, heq⟩ := Sampler.resistance_of_defined (t := t) hd
    have hfloor : 0 ≤ ⌊r⌋ := Int.floor_nonneg.2 h0
    rw [heq, hr, Value.finite_lt_finite, Fits, Int.floor_lt]
    simp only [hfloor, true_and, hd, not_true_eq_false, false_and, or_false, ne_eq, hd.1, not_false_eq_true]
    norm_cast
  · have hlarge : ¬ (i ≠ 0 ∧ Sampler.resistanceValue v i < .finite 65536) := by
      rintro ⟨hi, hlt⟩
      exact hd ⟨hi, Value.lt_of_lt_of_le hlt (by norm_num)⟩
    rw [Sampler.resistance_of_not_defined hd]
    simp only [hlarge, false_or, hd, not_false_eq_true, true_and]

/-- One event keeps all resistances in their registers exactly if what it computes fits. -/
theorem carriesNow_liveStep (h : Sound fw) (hfw : CarriesNow fw) (hstep : liveStep t fw e = .ok fw') :
    CarriesNow fw' ↔ RoundFits t fw e := by
  rw [CarriesNow, carries_iff] at hfw ⊢
  match e with
  | .frame malloc f =>
      refine iff_of_true ?_ trivial
      rcases turnStep_cases h hstep with ⟨-, -, hd⟩ | ⟨start, values, -, -, status, hinit⟩
      · rw [hd]
        exact hfw
      · rcases initializeAllPeripherals_cases hinit with ⟨-, -, hd⟩ | ⟨-, -, s', -, hd⟩
        · rw [hd]
          exact hfw
        · rw [hd]
          exact fun _ => fits_zero
  | .interrupt e =>
      obtain ⟨s', hs', hfw'⟩ := Run.bind_eq_ok.1 hstep
      obtain rfl := Except.ok.inj hfw'
      change (∀ i, Fits (s'.resistanceArray i).1) ↔ (_ → _)
      rcases Sampler.interrupt_resistanceArray hs' with ⟨hnot, hsame⟩ | ⟨hround, -, hnew⟩
      · rw [hsame]
        exact iff_of_true hfw fun hround => absurd hround hnot
      · simp only [hround, true_imp_iff, hnew, ← fits_resistance_iff]
        constructor
        · intro hall i hi
          have := hall i
          rwa [if_pos hi] at this
        · intro hall i
          split
          next hi => exact hall i hi
          next => exact hfw i

/-- **When Modbus and the console report the same resistances.**  In every run of the main
loop from boot, with any sequence of frames, ticks and conversion results: all responses
to reads of input registers carry the resistances, in every state the run reaches, if and
only if at the end of each round the resistance of every active strip fits 16 bits. -/
theorem carries_run_iff (t : Target) (es : List LiveEvent) :
    (∀ fs, fs <+: es → ∀ fw, fs.foldlM (liveStep t) boot = .ok fw → CarriesNow fw) ↔
      Run.AtEveryStep (liveStep t) (RoundFits t) boot es :=
  Run.foldlM_reached_iff sound_boot (carries_iff.2 fun _ => fits_zero)
    (fun _ _ _ h hstep => h.liveStep hstep) (fun _ _ _ h hfw hstep => carriesNow_liveStep h hfw hstep) es

end

attribute [local instance] Arithmetic.uncontracted

/-- Strip 1 is selected, and its first visit averages a voltage of 8 and a current of 1. -/
def roundOf72000 : List LiveEvent :=
  .frame zeroedMalloc ⟨withCRC [0x01, 0x06, 0x00, 0x06, 0x00, 0x01], by decide⟩ ::
    .interrupt (.voltage 240) :: .interrupt (.current 30) :: List.replicate 30 (.interrupt .tick)

/-- **A resistance of 72000 Ω is reported as 6464.** -/
theorem roundOf72000_not_carried :
    (fun fw => ((fw.peripherals.sampler.resistanceArray 0).1,
        (inputRegistersOf fw.peripherals.sampler.resistanceArray 0).toNat)) <$>
      roundOf72000.foldlM (liveStep .saturating) boot = .ok (72000, 6464) ∧
    ¬ ∀ fw, roundOf72000.foldlM (liveStep .saturating) boot = .ok fw → CarriesNow fw := by
  have hrun : (fun fw => ((fw.peripherals.sampler.resistanceArray 0).1,
        (inputRegistersOf fw.peripherals.sampler.resistanceArray 0).toNat)) <$>
      roundOf72000.foldlM (liveStep .saturating) boot = .ok (72000, 6464) := by
    decide +kernel
  refine ⟨hrun, fun h => ?_⟩
  cases hfw : roundOf72000.foldlM (liveStep .saturating) boot with
  | error f =>
      rw [hfw] at hrun
      cases hrun
  | ok fw =>
      rw [hfw, Run.ok_map, Except.ok.injEq, Prod.mk.injEq] at hrun
      have hfits := carries_iff.1 (h fw hfw) 0
      rw [hrun.1] at hfits
      exact absurd hfits.2 (by decide)

end Firmware
end GasSensor
