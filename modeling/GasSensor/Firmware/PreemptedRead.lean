/-
# Reads of the input registers with interrupts inside

`Modbus_HandleReadInputRegister` copies the resistances one after the other into the
input registers and answers from these.  CTIMER2 preempts it, and where it completes a
round between two copies, the response shows some strips as they were before the round
and the others as they are after it.

`arrays` are the resistances before and after each round that the interrupts complete.
`readInput_preempted` says what is left of the response: the register of each strip is
of one of these rounds, never of an older one than the register before, and a response
with one register, or with no round completed inside, is the one the handler gives
without interrupts.
-/

import GasSensor.Firmware.Device
import GasSensor.Firmware.InputRegisters
import GasSensor.Lib.Scan

namespace GasSensor

namespace Sampler

instance completesRoundDecidable (modbusFlag : Bool) (p : Params) (s : Sampler) (e : Event) :
    Decidable (CompletesRound modbusFlag p s e) :=
  inferInstanceAs (Decidable (_ ∧ _ ∧ _))

/-- Only the end of a round changes the resistances. -/
theorem interrupt_resistanceArray_of_not [Arithmetic] {t : Target} {modbusFlag : Bool} {p : Params} (s : Sampler) (e : Event)
    (s' : Sampler) (h : s.interrupt t modbusFlag p e = .ok s') (hnot : ¬ CompletesRound modbusFlag p s e) :
    s'.resistanceArray = s.resistanceArray := by
  rcases interrupt_resistanceArray h with ⟨-, hsame⟩ | ⟨hround, -⟩
  · exact hsame
  · exact absurd hround hnot

end Sampler

namespace Firmware

open Modbus Preempt Sampler

section
variable [Arithmetic]

/-- The resistances at the start and after each round that the interrupts complete. -/
def arrays (t : Target) (p : Params) (s : Sampler) (es : List Sampler.Event) : List (Strip → ℤ × ℤ) :=
  versions (Sampler.interrupt t true p) Sampler.resistanceArray (CompletesRound true p) s es

/-- A move in the copying loop: `inputRegisters[i] = resistance_array[i][0];` or an interrupt. -/
def copyStep (t : Target) (p : Params) :
    Thread (Scan Sampler Strip UInt16) Strip → Move Sampler.Event →
      Except Fault (Thread (Scan Sampler Strip UInt16) Strip) :=
  Scan.step (fun s => inputRegistersOf s.resistanceArray) (Sampler.interrupt t true p)

/-- `Modbus_HandleReadInputRegister` with interrupts inside.  What comes behind the loop uses no
variable of the sampler. -/
def preemptedReadInputRegister (t : Target) (buffer : List UInt8) (s : Sampler) (server : Server)
    (ms : List (Move Sampler.Event)) : Except Fault (Sampler × Server × List (List UInt8)) := do
  let startAddress := (word (← readAt buffer 2) (← readAt buffer 3)).toNat
  let registerCount := (word (← readAt buffer 4) (← readAt buffer 5)).toNat
  if startAddress + registerCount ≤ 8 then
    let c ← ms.foldlM (copyStep t server.params) ⟨⟨s, server.inputRegisters⟩, List.finRange 8⟩
    let frame ← sendRegisters c.state.copied (← readAt buffer 0) (← readAt buffer 1) startAddress registerCount
    .ok (c.state.shared, { server with inputRegisters := c.state.copied }, [frame])
  else
    let s ← (interrupts ms).foldlM (Sampler.interrupt t true server.params) s
    let frame ← modbusSendError (← readAt buffer 0) (← readAt buffer 1) errorIllegalDataAddress
    .ok (s, server, [frame])

/-- Each register is of a round, and of none older than the register before. -/
def OfRounds (arrays : List (Strip → ℤ × ℤ)) (registers : Fin 8 → UInt16) : Prop :=
  ∃ round : Strip → ℕ, Monotone round ∧
    ∀ i, ∃ a, arrays[round i]? = some a ∧ registers i = inputRegistersOf a i

/-- The reply is one without interrupts, to the resistances of some round. -/
def OfOneRound (arrays : List (Strip → ℤ × ℤ)) (buffer : List UInt8) (server : Server) (sent : List (List UInt8)) :
    Prop :=
  ∃ a ∈ arrays, ∃ server', modbusHandleReadInputRegister a buffer server = .ok (server', sent)

variable {t : Target} {buffer : List UInt8} {s : Sampler} {server : Server} {ms : List (Move Sampler.Event)}
  {as : List (Strip → ℤ × ℤ)} {registers : Fin 8 → UInt16}

/-- What the handler sends for the registers it has copied. -/
theorem preemptedReadInputRegister_eq (h : 8 ≤ buffer.length) :
    preemptedReadInputRegister t buffer s server ms
      = if field buffer 2 + field buffer 4 ≤ 8 then
          ms.foldlM (copyStep t server.params) ⟨⟨s, server.inputRegisters⟩, List.finRange 8⟩ >>= fun c =>
            .ok (c.state.shared, { server with inputRegisters := c.state.copied },
              [withCRC (readResponse buffer c.state.copied)])
        else (interrupts ms).foldlM (Sampler.interrupt t true server.params) s >>= fun s =>
          .ok (s, server, [withCRC (refusal buffer errorIllegalDataAddress)]) := by
  have hr : ∀ i < 8, readAt buffer i = .ok (buffer.getD i 0) := fun i hi => readAt_getD (by omega) 0
  simp (disch := decide) only [preemptedReadInputRegister, hr, Run.ok_bind, modbusSendError_eq]
  change (if field buffer 2 + field buffer 4 ≤ 8 then _ else _) = _
  split
  next hrange =>
    refine bind_congr fun c => ?_
    change (sendRegisters c.state.copied _ _ (field buffer 2) (field buffer 4) >>= _) = _
    rw [sendRegisters_eq _ _ _ (by decide) hrange]
    rfl
  next => rfl

/-- Without interrupts it is `Modbus_HandleReadInputRegister` as a whole. -/
theorem preemptedReadInputRegister_mains (t : Target) (h : 8 ≤ buffer.length) (s : Sampler) (server : Server) :
    preemptedReadInputRegister t buffer s server (List.replicate 8 .main)
      = (fun reply => (s, reply)) <$> modbusHandleReadInputRegister s.resistanceArray buffer server := by
  have hcopy : (List.replicate 8 .main).foldlM (copyStep t server.params)
      ⟨⟨s, server.inputRegisters⟩, List.finRange 8⟩ = .ok ⟨⟨s, inputRegistersOf s.resistanceArray⟩, []⟩ := by
    refine (run_mains _ _).trans ?_
    rw [Scan.foldlM_exec]
    simp
  rw [preemptedReadInputRegister_eq h, modbusHandleReadInputRegister_eq _ h, hcopy]
  split <;> rfl

omit [Arithmetic] in
/-- A response shows only the registers it is asked for. -/
theorem readResponse_congr {table table' : Fin 8 → UInt16} (hrange : field buffer 2 + field buffer 4 ≤ 8)
    (h : ∀ i : Fin 8, field buffer 2 ≤ i → i.val < field buffer 2 + field buffer 4 → table i = table' i) :
    readResponse buffer table = readResponse buffer table' := by
  have hregisters : registersFrom table (field buffer 2) (field buffer 4)
      = registersFrom table' (field buffer 2) (field buffer 4) := by
    refine List.ext_getElem? fun j => ?_
    rcases Nat.lt_or_ge j (field buffer 4) with hj | hj
    · rw [registersFrom_getElem? hrange hj, registersFrom_getElem? hrange hj,
        h ⟨field buffer 2 + j, by omega⟩ (Nat.le_add_right _ _) (Nat.add_lt_add_left hj _)]
    · rw [List.getElem?_eq_none (by rw [registersFrom_length hrange]; exact hj),
        List.getElem?_eq_none (by rw [registersFrom_length hrange]; exact hj)]
  rw [readResponse, hregisters, readResponse]

omit [Arithmetic] in
/-- Where all the registers asked for are of one round, the reply is one without interrupts. -/
theorem ofOneRound_of_forall (h : 8 ≤ buffer.length) (hrange : field buffer 2 + field buffer 4 ≤ 8)
    {a : Strip → ℤ × ℤ} (ha : a ∈ as)
    (hall : ∀ i : Fin 8, field buffer 2 ≤ i → i.val < field buffer 2 + field buffer 4 →
      registers i = inputRegistersOf a i) :
    OfOneRound as buffer server [withCRC (readResponse buffer registers)] := by
  refine ⟨a, ha, { server with inputRegisters := inputRegistersOf a }, ?_⟩
  rw [modbusHandleReadInputRegister_eq a h, if_pos hrange, readResponse_congr hrange hall]

omit [Arithmetic] in
/-- One register is of one round, and so are all when there is no other. -/
theorem OfRounds.ofOneRound (hof : OfRounds as registers) (h : 8 ≤ buffer.length)
    (hrange : field buffer 2 + field buffer 4 ≤ 8) (hone : field buffer 4 ≤ 1 ∨ as.length = 1) :
    OfOneRound as buffer server [withCRC (readResponse buffer registers)] := by
  obtain ⟨round, -, hregisters⟩ := hof
  -- the first register asked for, or any if none is
  obtain ⟨a, ha, hvalue⟩ := hregisters ⟨min (field buffer 2) 7, by omega⟩
  refine ofOneRound_of_forall h hrange (List.mem_of_getElem? ha) fun i hlow hhigh => ?_
  rcases hone with hcount | hlength
  · have hi : i = ⟨min (field buffer 2) 7, by omega⟩ := Fin.ext (by dsimp only; omega)
    rw [hi]
    exact hvalue
  · obtain ⟨b, hb, hi⟩ := hregisters i
    obtain ⟨x, rfl⟩ := List.length_eq_one_iff.1 hlength
    rw [hi, List.mem_singleton.1 (List.mem_of_getElem? hb), List.mem_singleton.1 (List.mem_of_getElem? ha)]

/-- **A preempted read**, while the interrupts find what they rely on. -/
theorem Serviceable.preemptedReadInputRegister_ok {W : ℕ → Prop} {d : Peripherals} (hd : Serviceable true W server.params d)
    (t : Target) (h : 8 ≤ buffer.length) (hrange : field buffer 2 + field buffer 4 ≤ 8) (hms : 8 ≤ mains ms) :
    ∃ s' registers, preemptedReadInputRegister t buffer d.sampler server ms
        = .ok (s', { server with inputRegisters := registers }, [withCRC (readResponse buffer registers)]) ∧
      (interrupts ms).foldlM (Sampler.interrupt t true server.params) d.sampler = .ok s' ∧
      OfRounds (arrays t server.params d.sampler (interrupts ms)) registers := by
  have htotal : ∀ s e, Serviceable true W server.params { d with sampler := s } →
      ∃ s', s.interrupt t true server.params e = .ok s' ∧ Serviceable true W server.params { d with sampler := s' } :=
    fun s e hs => hs.interrupt t e
  obtain ⟨c, hc, hscanned⟩ : ∃ c, ms.foldlM (copyStep t server.params)
      ⟨⟨d.sampler, server.inputRegisters⟩, List.finRange 8⟩ = .ok c ∧
      Scanned (fun s : Sampler => inputRegistersOf s.resistanceArray) (Sampler.interrupt t true server.params)
        d.sampler (List.finRange 8) ms c :=
    scan_total htotal hd (List.nodup_finRange 8) server.inputRegisters ms
  obtain ⟨version, hordered, hversions⟩ :=
    hscanned.versions interrupt_resistanceArray_of_not (List.length_finRange.trans_le hms)
  refine ⟨c.state.shared, c.state.copied, ?_, hscanned.shared, version, fun i j hij => ?_, fun i =>
    hversions i (List.mem_finRange i)⟩
  · rw [preemptedReadInputRegister_eq h, if_pos hrange, hc, Run.ok_bind]
  · rcases hij.eq_or_lt with rfl | hlt
    · exact le_rfl
    · have hpair := List.pairwise_iff_getElem.1 hordered i j (by simp) (by simp) hlt
      rwa [List.getElem_finRange, List.getElem_finRange] at hpair

/-- **A read with interrupts inside.**  In every state that a master who writes documented values can
bring the device to, with any bytes, errors and interrupts between the passes of `main` and with a
`malloc` that has memory, and for every read of input registers in range, with the interrupts of
the sampler at any places in the handler: no interrupt is a fault, they leave the sampler as if nothing was read, and of the server only the input registers
change; the response shows each strip as it was in some round since the start of the handler,
no strip in an older round than the strips before it; and it is one that the handler gives without
interrupts if it has one register, or if no round was completed. -/
theorem readInput_preempted (t : Target) {es : List DeviceEvent} (hm : ∀ e ∈ es, e.Provided)
    (hproper : ∀ bytes ∈ (parts (reads (busEvents es))).flatMap fun s => (Receiver.cut s).frames, Proper bytes)
    {w : Bus} (hw : es.foldlM (deviceStep t) .start = .ok w) {f : Frame}
    (hrange : field f.bytes 2 + field f.bytes 4 ≤ 8) {ms : List (Move Sampler.Event)} (hms : 8 ≤ mains ms) :
    ∃ s' registers, preemptedReadInputRegister t f.bytes w.fw.peripherals.sampler w.fw.server ms
        = .ok (s', { w.fw.server with inputRegisters := registers }, [withCRC (readResponse f.bytes registers)]) ∧
      (interrupts ms).foldlM (Sampler.interrupt t true w.fw.server.params) w.fw.peripherals.sampler = .ok s' ∧
      OfRounds (arrays t w.fw.server.params w.fw.peripherals.sampler (interrupts ms)) registers ∧
      (field f.bytes 4 ≤ 1 ∨ (arrays t w.fw.server.params w.fw.peripherals.sampler (interrupts ms)).length = 1 →
        OfOneRound (arrays t w.fw.server.params w.fw.peripherals.sampler (interrupts ms)) f.bytes w.fw.server
          [withCRC (readResponse f.bytes registers)]) := by
  rw [← frames_heard] at hproper
  obtain ⟨w', hw', h⟩ := device_total_from [] rfl (running_start t (.inl rfl)) hm hproper
  obtain rfl := Except.ok.inj (hw'.symm.trans hw)
  obtain ⟨s', registers, hread, hrun, hof⟩ :=
    h.serviceable.preemptedReadInputRegister_ok t f.deliverable.1.1 hrange hms
  exact ⟨s', registers, hread, hrun, hof, hof.ofOneRound f.deliverable.1.1 hrange⟩

end

attribute [local instance] Arithmetic.uncontracted

/-- A write of 3 to holding register 6: strips 1 and 2. -/
def writeStrips3 : List UInt8 := withCRC [0x01, 0x06, 0x00, 0x06, 0x00, 0x03]

/-- All but the last tick of the first round, with an average of 1 at each visit. -/
def roundButLastTick : List Sampler.Event :=
  [.voltage 30, .current 30] ++ List.replicate 30 .tick ++ [.voltage 30, .current 30] ++ List.replicate 29 .tick

/-- The two strips are selected and visited. -/
def twoStripRound : List DeviceEvent :=
  (writeStrips3.map fun b => .bus (.byte zeroedMalloc b)) ++ roundButLastTick.map fun e => .bus (.interrupt e)

/-- The round is completed between the first copy and the second. -/
def tickInside : List (Move Sampler.Event) := .main :: .interrupt .tick :: List.replicate 7 .main

/-- A response that shows strip 1 before the round and strip 2 after it. -/
example : (twoStripRound.foldlM (deviceStep .saturating) .start >>= fun w => (fun r => r.2.2) <$>
    preemptedReadInputRegister .saturating readInputRegisters.bytes w.fw.peripherals.sampler w.fw.server tickInside)
      = .ok [withCRC (readResponse readInputRegisters.bytes ![0, 9000, 0, 0, 0, 0, 0, 0])] := by
  decide +kernel

theorem twoStripRound_provided : ∀ e ∈ twoStripRound, e.Provided := by
  refine List.forall_mem_append.2 ⟨fun e he => ?_, fun e he => ?_⟩
  · obtain ⟨b, -, rfl⟩ := List.mem_map.1 he
    exact hasMemory_zeroedMalloc
  · obtain ⟨e, -, rfl⟩ := List.mem_map.1 he
    exact trivial

theorem twoStripRound_proper :
    ∀ bytes ∈ (parts (reads (busEvents twoStripRound))).flatMap fun s => (Receiver.cut s).frames, Proper bytes := by
  have hframes : ((parts (reads (busEvents twoStripRound))).flatMap fun s => (Receiver.cut s).frames)
      = [writeStrips3] := by
    decide +kernel
  rw [hframes]
  exact List.forall_mem_singleton.2 (proper_of_single 6 3 (by decide) (.inr trivial) (by decide))

/-- The hypotheses of `readInput_preempted` are satisfiable. -/
theorem readInput_preempted_twoStripRound : ∃ w, twoStripRound.foldlM (deviceStep .saturating) .start = .ok w ∧
    ∃ s' registers, preemptedReadInputRegister .saturating readInputRegisters.bytes w.fw.peripherals.sampler
        w.fw.server tickInside
          = .ok (s', { w.fw.server with inputRegisters := registers },
            [withCRC (readResponse readInputRegisters.bytes registers)]) ∧
      (interrupts tickInside).foldlM (Sampler.interrupt .saturating true w.fw.server.params)
        w.fw.peripherals.sampler = .ok s' ∧
      OfRounds (arrays .saturating w.fw.server.params w.fw.peripherals.sampler (interrupts tickInside)) registers ∧
      (field readInputRegisters.bytes 4 ≤ 1 ∨
          (arrays .saturating w.fw.server.params w.fw.peripherals.sampler (interrupts tickInside)).length = 1 →
        OfOneRound (arrays .saturating w.fw.server.params w.fw.peripherals.sampler (interrupts tickInside))
          readInputRegisters.bytes w.fw.server [withCRC (readResponse readInputRegisters.bytes registers)]) := by
  have hproper := twoStripRound_proper
  rw [← frames_heard] at hproper
  obtain ⟨w, hw, -⟩ :=
    device_total_from [] rfl (running_start .saturating (.inl rfl)) twoStripRound_provided hproper
  exact ⟨w, hw, readInput_preempted .saturating twoStripRound_provided twoStripRound_proper hw
    (f := readInputRegisters) (by decide) (by decide)⟩

end Firmware
end GasSensor
