/-
# The device on the bus

`main` of `source/main.c` with `ModbusFlag` set, one byte after the other: while
`HandleModbusFrame` waits for a byte the sampler interrupts, and
`LPUART_ReadBlocking` may report an error instead of a byte.  Then the call returns
and what it has received of a frame is lost, and `main` calls it again.

`busStep` is what happens next, and `heard` the frames and interrupts a sequence of
such events amounts to.  `bus_refines` says that the device on the bus does what the
loop of `LiveLoop` does on these, fault for fault, and which frames they are: those
that `Receiver.cut` cuts each part without an error into.  So an error aligns the
receiver again, whatever stood before it.
-/

import GasSensor.Firmware.ByteLoop
import GasSensor.Firmware.LiveLoop

namespace GasSensor
namespace Firmware

open Modbus

/-- What happens next. -/
inductive BusEvent
  /-- A byte is read; `malloc` answers if it is asked before the next one. -/
  | byte (malloc : Malloc ℕ) (b : UInt8)
  /-- `LPUART_ReadBlocking` returns something else than `kStatus_Success`. -/
  | error (malloc : Malloc ℕ)
  /-- An interrupt of the sampler. -/
  | interrupt (e : Sampler.Event)

/-- The firmware while `HandleModbusFrame` waits, with the calls of
`Modbus_HandleRequest` so far. -/
structure Bus where
  fw : Firmware
  rxBuffer : List UInt8
  calls : List Call

variable [Arithmetic]

/-- Before the first byte. -/
def Bus.start : Bus := ⟨boot, [], []⟩

/-- `main` behind a call of `HandleModbusFrame` that has handled no frame. -/
def afterCall (t : Target) (malloc : Malloc ℕ) (fw : Firmware) : Except Fault Firmware :=
  if fw.server.modbusParamChanged = true then do
    let (peripherals, _) ← initializeAllPeripherals t malloc fw.server.params fw.peripherals
    .ok ⟨{ fw.server with modbusParamChanged := false }, peripherals⟩
  else .ok fw

/-- One event. -/
def busStep (t : Target) (w : Bus) : BusEvent → Except Fault Bus
  | .byte malloc b =>
      -- the loop condition reads the byte before it looks at the flag
      if w.fw.server.modbusParamChanged = true then do
        let fw ← afterCall t malloc w.fw
        .ok ⟨fw, [], w.calls⟩
      else
        let rxBuffer := storeByte w.rxBuffer b
        if Complete rxBuffer then do
          let (fw, sent) ← turn t malloc rxBuffer w.fw
          .ok ⟨fw, [], w.calls ++ [⟨rxBuffer, rxBuffer.length, sent⟩]⟩
        else .ok { w with rxBuffer }
  | .error malloc => do
      let fw ← afterCall t malloc w.fw
      .ok ⟨fw, [], w.calls⟩
  | .interrupt e => w.fw.peripherals.sampler.interrupt t true w.fw.server.params e >>= fun s =>
      .ok { w with fw := { w.fw with peripherals := { w.fw.peripherals with sampler := s } } }

variable {t : Target} {w w' : Bus} {es : List BusEvent} {malloc : Malloc ℕ} {rxBuffer : List UInt8}

/-- **What an event can do**, with no parameter change pending: store a byte, handle a frame, drop
what has been received of one, or interrupt. -/
theorem busStep_cases (h : Sound w.fw) (e : BusEvent) :
    (∃ malloc b, e = .byte malloc b ∧ ¬ Complete (storeByte w.rxBuffer b) ∧
      busStep t w e = .ok { w with rxBuffer := storeByte w.rxBuffer b }) ∨
    (∃ malloc b fw sent, e = .byte malloc b ∧ Complete (storeByte w.rxBuffer b) ∧
      turn t malloc (storeByte w.rxBuffer b) w.fw = .ok (fw, sent) ∧ Sound fw ∧
      busStep t w e = .ok ⟨fw, [], w.calls ++ [⟨storeByte w.rxBuffer b, (storeByte w.rxBuffer b).length, sent⟩]⟩) ∨
    (∃ malloc, e = .error malloc ∧ busStep t w e = .ok { w with rxBuffer := [] }) ∨
    ∃ i, e = .interrupt i ∧ busStep t w e = liveStep t w.fw (.interrupt i) >>= fun fw => .ok { w with fw } := by
  have hnot : ¬ w.fw.server.modbusParamChanged = true := by rw [h.unchanged]; decide
  cases e with
  | byte malloc b =>
      by_cases hc : Complete (storeByte w.rxBuffer b)
      · obtain ⟨fw, sent, hturn, hsound⟩ := turn_ok t malloc hc h
        refine .inr (.inl ⟨malloc, b, fw, sent, rfl, hc, hturn, hsound, ?_⟩)
        simp only [busStep, if_neg hnot, if_pos hc, hturn, Run.ok_bind]
      · refine .inl ⟨malloc, b, rfl, hc, ?_⟩
        simp only [busStep, if_neg hnot, if_neg hc]
  | error malloc =>
      refine .inr (.inr (.inl ⟨malloc, rfl, ?_⟩))
      rw [busStep, afterCall, if_neg hnot]
      rfl
  | interrupt i =>
      refine .inr (.inr (.inr ⟨i, rfl, ?_⟩))
      rw [busStep, liveStep]
      cases w.fw.peripherals.sampler.interrupt t true w.fw.server.params i <;> rfl

/-- No event is left with a parameter change pending. -/
theorem Sound.busStep (h : Sound w.fw) {e : BusEvent} (hstep : busStep t w e = .ok w') : Sound w'.fw := by
  rcases busStep_cases (t := t) h e with
    ⟨_, _, -, -, hw⟩ | ⟨_, _, fw, _, -, -, -, hsound, hw⟩ | ⟨_, -, hw⟩ | ⟨i, -, hw⟩
  · obtain rfl := Except.ok.inj (hw.symm.trans hstep)
    exact h
  · obtain rfl := Except.ok.inj (hw.symm.trans hstep)
    exact hsound
  · obtain rfl := Except.ok.inj (hw.symm.trans hstep)
    exact h
  · obtain ⟨fw, hfw, hok⟩ := Run.bind_eq_ok.1 (hw.symm.trans hstep)
    obtain rfl := Except.ok.inj hok
    exact h.liveStep hfw

/-- The bytes of one call: the events are the call of `HandleModbusFrame` taken apart, and end
where it ends. -/
theorem bus_handleModbusFrame (t : Target) (malloc : Malloc ℕ) (h : Sound w.fw) (input : List UInt8) :
    (handleModbusFrame false w.rxBuffer input = .waiting ∧
      (input.map (.byte malloc)).foldlM (busStep t) w
        = .ok { w with rxBuffer := (Receiver.feed ⟨[], w.rxBuffer⟩ input).rxBuffer }) ∨
    ∃ bytes rest, handleModbusFrame false w.rxBuffer input = .frame bytes rest ∧
      (input.map (.byte malloc)).foldlM (busStep t) w = turn t malloc bytes w.fw >>= fun (fw, sent) =>
        (rest.map (.byte malloc)).foldlM (busStep t) ⟨fw, [], w.calls ++ [⟨bytes, bytes.length, sent⟩]⟩ := by
  induction input generalizing w with
  | nil => exact .inl ⟨rfl, rfl⟩
  | cons b input ih =>
      have hnot : ¬ w.fw.server.modbusParamChanged = true := by rw [h.unchanged]; decide
      have hcall : handleModbusFrame false w.rxBuffer (b :: input) = if Complete (storeByte w.rxBuffer b)
          then .frame (storeByte w.rxBuffer b) input
          else handleModbusFrame false (storeByte w.rxBuffer b) input := rfl
      have hfeed : Receiver.feed ⟨[], w.rxBuffer⟩ (b :: input)
          = (Receiver.byte ⟨[], w.rxBuffer⟩ b).feed input := rfl
      rw [List.map_cons, List.foldlM_cons, hcall, hfeed, Receiver.byte]
      by_cases hc : Complete (storeByte w.rxBuffer b)
      · rw [if_pos hc]
        refine .inr ⟨_, _, rfl, ?_⟩
        simp only [busStep, if_neg hnot, if_pos hc, bind_assoc, Run.ok_bind]
      · rw [if_neg hc, if_neg hc]
        simp only [busStep, if_neg hnot, if_neg hc, Run.ok_bind]
        exact ih (w := { w with rxBuffer := storeByte w.rxBuffer b }) h

/-- The frames and interrupts that some events amount to, with `rxBuffer` received before them. -/
def heard : List UInt8 → List BusEvent → List LiveEvent
  | _, [] => []
  | rxBuffer, .byte malloc b :: es =>
      if h : Deliverable (storeByte rxBuffer b) then .frame malloc ⟨storeByte rxBuffer b, h⟩ :: heard [] es
      else heard (storeByte rxBuffer b) es
  | _, .error _ :: es => heard [] es
  | rxBuffer, .interrupt e :: es => .interrupt e :: heard rxBuffer es

/-- The frames of a run. -/
def frames (es : List LiveEvent) : List (List UInt8) :=
  es.filterMap fun
    | .frame _ f => some f.bytes
    | .interrupt _ => none

omit [Arithmetic] in
theorem frames_cons_frame (malloc : Malloc ℕ) (f : Frame) (es : List LiveEvent) :
    frames (.frame malloc f :: es) = f.bytes :: frames es := rfl

/-- The reads from the bus: bytes, and `none` for an error. -/
def reads (es : List BusEvent) : List (Option UInt8) :=
  es.filterMap fun
    | .byte _ b => some (some b)
    | .error _ => some none
    | .interrupt _ => none

/-- The parts of a sequence of reads between its errors. -/
def parts : List (Option UInt8) → List (List UInt8)
  | [] => [[]]
  | none :: rs => [] :: parts rs
  | some b :: rs => (b :: (parts rs).headD []) :: (parts rs).tail

omit [Arithmetic] in
theorem exists_parts_eq (rs : List (Option UInt8)) : ∃ s ss, parts rs = s :: ss := by
  match rs with
  | [] => exact ⟨_, _, rfl⟩
  | none :: rs => exact ⟨_, _, rfl⟩
  | some b :: rs => exact ⟨_, _, rfl⟩

omit [Arithmetic] in
/-- A full buffer ends a frame, so that what is handled fits. -/
theorem deliverable_iff_complete (h : rxBuffer.length ≤ modbusBufferLength) (b : UInt8) :
    Deliverable (storeByte rxBuffer b) ↔ Complete (storeByte rxBuffer b) :=
  ⟨And.left, fun hc => ⟨hc, Receiver.storeByte_length h b⟩⟩

omit [Arithmetic] in
/-- The frames heard, from a part of one on. -/
theorem frames_heard_from (h : rxBuffer.length ≤ modbusBufferLength) (es : List BusEvent) {s : List UInt8}
    {ss : List (List UInt8)} (hparts : parts (reads es) = s :: ss) :
    frames (heard rxBuffer es)
      = (Receiver.feed ⟨[], rxBuffer⟩ s).frames ++ ss.flatMap fun s => (Receiver.cut s).frames := by
  induction es generalizing rxBuffer s ss with
  | nil =>
      obtain ⟨rfl, rfl⟩ := List.cons.inj hparts
      rfl
  | cons e es ih =>
      obtain ⟨s', ss', hrest⟩ := exists_parts_eq (reads es)
      match e with
      | .interrupt e => exact ih h hparts
      | .error malloc =>
          have herror : parts (reads (.error malloc :: es)) = [] :: parts (reads es) := rfl
          rw [herror, hrest] at hparts
          obtain ⟨rfl, rfl⟩ := List.cons.inj hparts
          exact ih (Nat.zero_le _) hrest
      | .byte malloc b =>
          have hbyte : parts (reads (.byte malloc b :: es))
              = (b :: (parts (reads es)).headD []) :: (parts (reads es)).tail := rfl
          rw [hbyte, hrest] at hparts
          obtain ⟨rfl, rfl⟩ := List.cons.inj hparts
          have hlength := Receiver.storeByte_length h b
          change frames (heard rxBuffer (.byte malloc b :: es))
            = ((Receiver.byte ⟨[], rxBuffer⟩ b).feed s').frames ++ _
          rw [heard, Receiver.byte]
          by_cases hc : Complete (storeByte rxBuffer b)
          · rw [dif_pos ((deliverable_iff_complete h b).2 hc), if_pos hc, Receiver.feed_frames, frames_cons_frame,
              ih (Nat.zero_le _) hrest]
            rfl
          · rw [dif_neg (mt (deliverable_iff_complete h b).1 hc), if_neg hc]
            exact ih hlength hrest

omit [Arithmetic] in
/-- **The frames heard are those of the parts between the errors.** -/
theorem frames_heard (es : List BusEvent) :
    frames (heard [] es) = (parts (reads es)).flatMap fun s => (Receiver.cut s).frames := by
  obtain ⟨s, ss, hparts⟩ := exists_parts_eq (reads es)
  rw [frames_heard_from (Nat.zero_le _) es hparts, hparts]
  rfl

/-- From any state in which no parameter change is pending. -/
theorem bus_refines_from (t : Target) (h : Sound w.fw) (hlength : w.rxBuffer.length ≤ modbusBufferLength)
    (es : List BusEvent) :
    Bus.fw <$> es.foldlM (busStep t) w = (heard w.rxBuffer es).foldlM (liveStep t) w.fw ∧
      ∀ w', es.foldlM (busStep t) w = .ok w' →
        w'.calls.map Call.rxBuffer = w.calls.map Call.rxBuffer ++ frames (heard w.rxBuffer es) := by
  induction es generalizing w with
  | nil =>
      refine ⟨rfl, fun w' hw' => ?_⟩
      obtain rfl := Except.ok.inj hw'
      exact (List.append_nil _).symm
  | cons e es ih =>
      rw [List.foldlM_cons]
      rcases busStep_cases (t := t) h e with
        ⟨malloc, b, rfl, hc, hw⟩ | ⟨malloc, b, fw, sent, rfl, hc, hturn, hsound, hw⟩ | ⟨malloc, rfl, hw⟩ |
          ⟨i, rfl, hw⟩
      · rw [hw, Run.ok_bind, heard, dif_neg (mt (deliverable_iff_complete hlength b).1 hc)]
        exact ih (w := { w with rxBuffer := storeByte w.rxBuffer b }) h (Receiver.storeByte_length hlength b)
      · obtain ⟨hrun, hcalls⟩ := ih (w := ⟨fw, [],
          w.calls ++ [⟨storeByte w.rxBuffer b, (storeByte w.rxBuffer b).length, sent⟩]⟩) hsound (Nat.zero_le _)
        have hstep : ∀ hd, liveStep t w.fw (.frame malloc ⟨storeByte w.rxBuffer b, hd⟩) = .ok fw := by
          intro hd
          rw [liveStep, turnStep, hturn]
          rfl
        rw [hw, Run.ok_bind, heard, dif_pos ((deliverable_iff_complete hlength b).2 hc), List.foldlM_cons, hstep,
          Run.ok_bind]
        refine ⟨hrun, fun w' hw' => ?_⟩
        rw [hcalls w' hw', List.map_append, List.append_assoc]
        rfl
      · rw [hw, Run.ok_bind]
        exact ih (w := { w with rxBuffer := [] }) h (Nat.zero_le _)
      · rw [hw, heard, List.foldlM_cons]
        cases hi : liveStep t w.fw (.interrupt i) with
        | error fault => exact ⟨rfl, fun _ hw' => by cases hw'⟩
        | ok fw => exact ih (w := { w with fw }) (h.liveStep hi) hlength

/-- **The device on the bus refines the loop over frames.**  For every sequence of bytes, errors
and interrupts from boot, the firmware is what the frames and interrupts that have been heard
make of it, and faults exactly if they fault.  `Modbus_HandleRequest` has been called with
exactly these frames, and they are what each part between two errors is cut into; so
wherever a part consists of frames exactly these are handled, whatever stands in the others. -/
theorem bus_refines (t : Target) (es : List BusEvent) :
    Bus.fw <$> es.foldlM (busStep t) .start = (heard [] es).foldlM (liveStep t) boot ∧
      (∀ w, es.foldlM (busStep t) .start = .ok w → w.calls.map Call.rxBuffer = frames (heard [] es)) ∧
      (frames (heard [] es) = (parts (reads es)).flatMap fun s => (Receiver.cut s).frames) ∧
      ∀ before after (fs : List Frame), parts (reads es) = before ++ stream fs :: after →
        frames (heard [] es) = (before.flatMap fun s => (Receiver.cut s).frames) ++ fs.map Frame.bytes
          ++ after.flatMap fun s => (Receiver.cut s).frames := by
  obtain ⟨hrun, hcalls⟩ := bus_refines_from (w := .start) t sound_boot (Nat.zero_le _) es
  refine ⟨hrun, hcalls, frames_heard es, fun before after fs hparts => ?_⟩
  have hcut : Receiver.cut (stream fs) = ⟨fs.map Frame.bytes, []⟩ := by
    refine Receiver.cut_flatten _ fun f hf => ?_
    obtain ⟨f, -, rfl⟩ := List.mem_map.1 hf
    exact f.deliverable
  rw [frames_heard, hparts, List.flatMap_append, List.flatMap_cons, hcut, List.append_assoc]

end Firmware
end GasSensor
