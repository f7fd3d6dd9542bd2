/-
# What a master can rely on

A master sees the requests and the responses, and nothing of the device.  From these
it knows what the holding registers hold: for each the value of the last write that was
acknowledged, or the one it has at boot (`known`).

`exchanges_served` says that this is so in every run of the device on the bus, with
any noise and errors, and with interrupts while `main` waits for a byte: every request for
the device has exactly one response, with its checksum, and it is the answer of the register
machine that holds what the master knows, with the resistances of the moment; a request for
another device changes nothing.  What interrupts inside a read do to its answer is in
`PreemptedRead`.
-/

import GasSensor.Firmware.Bus
import GasSensor.Firmware.InputRegisters
import GasSensor.Modbus.Machine
import GasSensor.Sampler.RoundRobin

namespace GasSensor

namespace Modbus

variable [Arithmetic]

/-- The value a request has for holding register `j`. -/
def Request.value : Request → Fin 7 → Option ℕ
  | .writeSingle address value, j => if address = j.val then some value else none
  | .writeMultiple start _ _ values, j => if start ≤ j.val then values[j.val - start]? else none
  | _, _ => none

/-- The answer says that a write has been accepted. -/
def Answer.acknowledges : Answer → Bool
  | .written _ _ _ => true
  | _ => false

omit [Arithmetic] in
/-- **A register changes exactly by an acknowledged write**, to the value the request has for it. -/
theorem Machine.respond_holding (m : Machine) (q : Request) (j : Fin 7) :
    (m.respond q).1.holding j
      = if (m.respond q).2.acknowledges = true then (q.value j).getD (m.holding j) else m.holding j := by
  have hstore : ∀ start values, (m.store start values).holding j
      = (if start ≤ j.val then values[j.val - start]? else none).getD (m.holding j) := by
    intro start values
    change storeFrom m.holding start values j = _
    unfold storeFrom
    split
    · exact List.getD_eq_getElem?_getD
    · rfl
  cases q with
  | readHolding start count =>
      simp only [Machine.respond]
      split <;> rfl
  | readInput start count =>
      simp only [Machine.respond]
      split <;> rfl
  | unknown function => rfl
  | writeSingle address value =>
      have hvalue : (if address ≤ j.val then [value][j.val - address]? else none)
          = if address = j.val then some value else none := by
        by_cases heq : address = j.val
        · rw [if_pos heq, if_pos heq.le, heq, Nat.sub_self]
          rfl
        · rw [if_neg heq]
          split
          · exact List.getElem?_eq_none (by rw [List.length_singleton]; omega)
          · rfl
      simp only [Machine.respond]
      split
      · exact (hstore address [value]).trans (congrArg (Option.getD · _) hvalue)
      · rfl
  | writeMultiple start count byteCount values =>
      simp only [Machine.respond]
      split
      · exact hstore start values
      · rfl

/-- The answer in a response: what stands between its address and its CRC. -/
def Answer.ofFrame (frame : List UInt8) : Option Answer := Answer.decode (frame.take (frame.length - 2)).tail

omit [Arithmetic] in
theorem Answer.ofFrame_withCRC (body : List UInt8) : Answer.ofFrame (withCRC body) = Answer.decode body.tail := by
  rw [Answer.ofFrame, withCRC_length, Nat.add_sub_cancel, withCRC, List.take_left]

/-- The resistances as far as the server sees them. -/
def lowWords (resistanceArray : Strip → ℤ × ℤ) : Strip → ℤ × ℤ := fun i =>
  ((inputRegistersOf resistanceArray i).toNat, 0)

omit [Arithmetic] in
theorem lowWords_mem (resistanceArray : Strip → ℤ × ℤ) (i : Strip) :
    0 ≤ (lowWords resistanceArray i).1 ∧ (lowWords resistanceArray i).1 ≤ 65535 := by
  have := (inputRegistersOf resistanceArray i).toNat_lt
  change 0 ≤ ((inputRegistersOf resistanceArray i).toNat : ℤ) ∧ _
  exact ⟨by omega, by change ((inputRegistersOf resistanceArray i).toNat : ℤ) ≤ _; omega⟩

omit [Arithmetic] in
theorem inputRegistersOf_lowWords (resistanceArray : Strip → ℤ × ℤ) :
    inputRegistersOf (lowWords resistanceArray) = inputRegistersOf resistanceArray := by
  funext i
  have hlt := (inputRegistersOf resistanceArray i).toNat_lt
  have hmod : (((inputRegistersOf resistanceArray i).toNat : ℤ) % 65536).toNat
      = (inputRegistersOf resistanceArray i).toNat := by omega
  change UInt16.ofNat (((inputRegistersOf resistanceArray i).toNat : ℤ) % 65536).toNat = _
  rw [hmod, UInt16.ofNat_toNat]

/-- Nothing else of the resistances matters to a request. -/
theorem modbusHandleRequest_lowWords (resistanceArray : Strip → ℤ × ℤ) (s : Server) {buffer : List UInt8}
    (h : 8 ≤ buffer.length) :
    modbusHandleRequest (lowWords resistanceArray) buffer buffer.length s
      = modbusHandleRequest resistanceArray buffer buffer.length s := by
  rw [modbusHandleRequest_eq _ s h, modbusHandleRequest_eq _ s h, modbusHandleReadInputRegister_eq _ h,
    modbusHandleReadInputRegister_eq _ h, inputRegistersOf_lowWords]

end Modbus

namespace Firmware

open Modbus

section
variable [Arithmetic]

/-- The answer to a call, if there was one. -/
def Call.answer (c : Call) : Option Answer := c.sent.head?.bind Answer.ofFrame

/-- The value that a call has written to register `j`, as the master sees it. -/
def Call.wrote (j : Fin 7) (c : Call) : Option ℕ :=
  if c.answer.any Answer.acknowledges = true then (Request.decode c.rxBuffer).value j else none

/-- What register `j` holds: the value written last, or the one at boot. -/
def known (calls : List Call) (j : Fin 7) : ℕ :=
  ((calls.filterMap (Call.wrote j)).getLast?).getD (Server.boot.holdingRegisters j).toNat

/-- The machine that the master expects behind the device when the resistances are `resistanceArray`. -/
def expected (calls : List Call) (resistanceArray : Strip → ℤ × ℤ) : Machine where
  holding := known calls
  input := fun i => (inputRegistersOf resistanceArray i).toNat
  changed := false

/-- One more exchange. -/
theorem known_concat (calls : List Call) (c : Call) (j : Fin 7) :
    known (calls ++ [c]) j = (c.wrote j).getD (known calls j) := by
  unfold known
  rw [List.filterMap_append]
  cases hwrote : c.wrote j with
  | none =>
      have hnil : [c].filterMap (Call.wrote j) = [] := List.filterMap_cons_none hwrote
      rw [hnil, List.append_nil]
      rfl
  | some value =>
      have hone : [c].filterMap (Call.wrote j) = [value] := List.filterMap_cons_some hwrote
      rw [hone, List.getLast?_append]
      rfl

/-- **An exchange**: a request for another device has no response and leaves everything as it was;
one for this device has one response, with the address and the CRC, which carries the machine's
answer. -/
structure Exchange (m : Machine) (fw fw' : Firmware) (c : Call) : Prop where
  other : c.rxBuffer.getD 0 0 ≠ modbusAddress → c.sent = [] ∧ fw' = fw
  own : c.rxBuffer.getD 0 0 = modbusAddress → ∃ frame, c.sent = [frame] ∧ HasCRC frame ∧
    frame.head? = some modbusAddress ∧ Answer.ofFrame frame = some (m.respond (Request.decode c.rxBuffer)).2

variable {t : Target} {malloc : Malloc ℕ} {fw fw' : Firmware} {bytes : List UInt8} {sent : List (List UInt8)}

/-- What a pass of the main loop leaves of the server of the request. -/
theorem server_of_turn (h : turn t malloc bytes fw = .ok (fw', sent)) :
    ∃ server, modbusHandleRequest fw.peripherals.sampler.resistanceArray bytes bytes.length fw.server
        = .ok (server, sent) ∧ fw'.server.holdingRegisters = server.holdingRegisters := by
  obtain ⟨⟨server, frames⟩, hrequest, h⟩ := Run.bind_eq_ok.1 h
  dsimp only at h
  split at h
  · obtain ⟨⟨peripherals, status⟩, -, h⟩ := Run.bind_eq_ok.1 h
    obtain ⟨rfl, rfl⟩ := Prod.mk.inj (Except.ok.inj h)
    exact ⟨server, hrequest, rfl⟩
  · obtain ⟨rfl, rfl⟩ := Prod.mk.inj (Except.ok.inj h)
    exact ⟨server, hrequest, rfl⟩

/-- A request for another device. -/
theorem turn_of_other (hs : Sound fw) (hb : Deliverable bytes) (ha : bytes.getD 0 0 ≠ modbusAddress)
    (h : turn t malloc bytes fw = .ok (fw', sent)) : fw' = fw ∧ sent = [] := by
  have hnot : ¬ fw.server.modbusParamChanged = true := by rw [hs.unchanged]; decide
  rw [turn, modbusHandleRequest_eq _ _ hb.1.1, if_pos ha, Run.ok_bind] at h
  dsimp only at h
  rw [if_neg hnot] at h
  obtain ⟨rfl, rfl⟩ := Prod.mk.inj (Except.ok.inj h)
  exact ⟨rfl, rfl⟩

/-- **A pass of the main loop is an exchange** with the machine behind the device, and what it
does to the holding registers is what the master sees. -/
theorem exchange_of_turn (hs : Sound fw) (hb : Deliverable bytes) {calls : List Call}
    (hknown : ∀ j, (fw.server.holdingRegisters j).toNat = known calls j)
    (h : turn t malloc bytes fw = .ok (fw', sent)) :
    Exchange (expected calls fw.peripherals.sampler.resistanceArray) fw fw' ⟨bytes, bytes.length, sent⟩ ∧
      ∀ j, (fw'.server.holdingRegisters j).toNat = known (calls ++ [⟨bytes, bytes.length, sent⟩]) j := by
  obtain ⟨server, hrequest, hregisters⟩ := server_of_turn h
  have hmachine : machineOf (lowWords fw.peripherals.sampler.resistanceArray) fw.server
      = expected calls fw.peripherals.sampler.resistanceArray := by
    rw [machineOf, expected, hs.unchanged, Machine.mk.injEq]
    exact ⟨funext hknown, rfl, rfl⟩
  by_cases ha : bytes.getD 0 0 = modbusAddress
  · obtain ⟨s', body, hreply, hsim⟩ :=
      served (lowWords_mem fw.peripherals.sampler.resistanceArray) fw.server (f := ⟨bytes, hb⟩) ha
    dsimp only at hreply hsim
    rw [modbusHandleRequest_lowWords _ _ hb.1.1, hrequest, Except.ok.injEq, Prod.mk.injEq] at hreply
    obtain ⟨rfl, rfl⟩ := hreply
    have hanswer := hsim.answer
    have hleft := congrArg Machine.holding hsim.registers
    rw [hmachine] at hanswer hleft
    rw [← Answer.ofFrame_withCRC] at hanswer
    refine ⟨⟨fun hne => absurd ha hne, fun _ => ⟨_, rfl, hasCRC_withCRC body, ?_, hanswer⟩⟩, fun j => ?_⟩
    · rw [withCRC, List.head?_append, hsim.address]
      rfl
    · have hwrote : Call.wrote j ⟨bytes, bytes.length, [withCRC body]⟩
          = if ((expected calls fw.peripherals.sampler.resistanceArray).respond (Request.decode bytes)).2.acknowledges
              = true then (Request.decode bytes).value j else none := by
        change (if (Answer.ofFrame (withCRC body)).any Answer.acknowledges = true then _ else _) = _
        rw [hanswer]
        rfl
      have hholding : (server.holdingRegisters j).toNat
          = ((expected calls fw.peripherals.sampler.resistanceArray).respond (Request.decode bytes)).1.holding j :=
        congrFun hleft j
      rw [hregisters, known_concat, hholding, Machine.respond_holding, hwrote]
      split <;> rfl
  · obtain ⟨rfl, rfl⟩ := turn_of_other hs hb ha h
    refine ⟨⟨fun _ => ⟨rfl, rfl⟩, fun heq => absurd heq ha⟩, fun j => ?_⟩
    rw [known_concat, hknown]
    rfl

/-- One event of the run handled the frame of `c`, after the calls `before`: this was an exchange
with the machine that the master expected, for the resistances of that moment. -/
def Handled (t : Target) (es : List BusEvent) (before : List Call) (c : Call) : Prop :=
  ∃ es₁ e u u', es₁ ++ [e] <+: es ∧ es₁.foldlM (busStep t) .start = .ok u ∧ busStep t u e = .ok u' ∧
    u.calls = before ∧ u'.calls = before ++ [c] ∧
    Exchange (expected before u.fw.peripherals.sampler.resistanceArray) u.fw u'.fw c

theorem Handled.mono {es es' : List BusEvent} {before : List Call} {c : Call} (h : Handled t es before c)
    (hes : es <+: es') : Handled t es' before c := by
  obtain ⟨es₁, e, u, u', hprefix, hrest⟩ := h
  exact ⟨es₁, e, u, u', hprefix.trans hes, hrest⟩

/-- **What a master can rely on**: it knows what the registers hold, and every call has been an
exchange with the machine it expected. -/
structure Agrees (t : Target) (es : List BusEvent) (w : Bus) : Prop where
  run : es.foldlM (busStep t) .start = .ok w
  sound : Sound w.fw
  length : w.rxBuffer.length ≤ modbusBufferLength
  known : ∀ j, (w.fw.server.holdingRegisters j).toNat = known w.calls j
  handled : ∀ before c after, w.calls = before ++ c :: after → Handled t es before c

theorem agrees_start (t : Target) : Agrees t [] .start where
  run := rfl
  sound := sound_boot
  length := Nat.zero_le _
  known _ := rfl
  handled before c after h := by
    cases before <;> cases h

variable {es : List BusEvent} {w w' : Bus} {e : BusEvent}

/-- **Every event keeps it.** -/
theorem Agrees.step (h : Agrees t es w) (hstep : busStep t w e = .ok w') : Agrees t (es ++ [e]) w' := by
  have hrun : (es ++ [e]).foldlM (busStep t) .start = .ok w' := by
    rw [Run.foldlM_concat, h.run, Run.ok_bind, hstep]
  have hold : ∀ before c after, w.calls = before ++ c :: after → Handled t (es ++ [e]) before c :=
    fun before c after hcalls => (h.handled before c after hcalls).mono (List.prefix_append _ _)
  have hsound := h.sound.busStep hstep
  rcases busStep_cases (t := t) h.sound e with
    ⟨malloc, b, -, hc, hw⟩ | ⟨malloc, b, fw, sent, -, hc, hturn, -, hw⟩ | ⟨malloc, -, hw⟩ | ⟨i, -, hw⟩
  · obtain rfl := Except.ok.inj (hw.symm.trans hstep)
    exact ⟨hrun, hsound, Receiver.storeByte_length h.length b, h.known, hold⟩
  · obtain rfl := Except.ok.inj (hw.symm.trans hstep)
    have hb : Deliverable (storeByte w.rxBuffer b) := (deliverable_iff_complete h.length b).2 hc
    obtain ⟨hexchange, hknown⟩ := exchange_of_turn h.sound hb h.known hturn
    refine ⟨hrun, hsound, Nat.zero_le _, hknown, fun before c after hcalls => ?_⟩
    rcases List.eq_nil_or_concat after with rfl | ⟨after, last, rfl⟩
    · -- the call of this event
      obtain ⟨rfl, hlast⟩ := List.append_inj' hcalls rfl
      obtain rfl := (List.cons.inj hlast).1
      exact ⟨es, e, w, _, List.prefix_rfl, h.run, hw, rfl, rfl, hexchange⟩
    · rw [List.concat_eq_append, ← List.cons_append, ← List.append_assoc] at hcalls
      exact hold before c after (List.append_inj' hcalls rfl).1
  · obtain rfl := Except.ok.inj (hw.symm.trans hstep)
    exact ⟨hrun, hsound, Nat.zero_le _, h.known, hold⟩
  · obtain ⟨fw, hfw, hok⟩ := Run.bind_eq_ok.1 (hw.symm.trans hstep)
    obtain rfl := Except.ok.inj hok
    obtain ⟨s, -, hs⟩ := Run.bind_eq_ok.1 hfw
    obtain rfl := Except.ok.inj hs
    exact ⟨hrun, hsound, h.length, h.known, hold⟩

/-- **The bus agrees with what the master knows.**  In every run from boot, whatever bytes and errors
come in, and with interrupts while `main` waits for a byte: after any number of exchanges each
holding register holds what was last written to it and acknowledged, or what it held at boot; a
request for another device has no response and changes nothing, and one for this device has exactly
one, with a right CRC: the answer of the register machine with these registers and with the low
words of the resistances that the device has when the frame is complete. -/
theorem exchanges_served (t : Target) (es : List BusEvent) {w : Bus}
    (h : es.foldlM (busStep t) .start = .ok w) :
    (∀ j, (w.fw.server.holdingRegisters j).toNat = known w.calls j) ∧
      ∀ before c after, w.calls = before ++ c :: after → Handled t es before c := by
  have hagrees := Run.foldlM_history (I := Agrees t) (agrees_start t) (fun _ _ _ _ hw hstep => hw.step hstep) h
  exact ⟨hagrees.known, hagrees.handled⟩

end

attribute [local instance] Arithmetic.uncontracted

/-- A write of 36 to holding register 6: strips 3 and 6. -/
def selectStrips : List UInt8 := withCRC [0x01, 0x06, 0x00, 0x06, 0x00, 0x24]

/-- Two strips are selected and measured, and the resistances are read. -/
def measureAndRead : List BusEvent :=
  selectStrips.map (.byte zeroedMalloc) ++ Sampler.wholeRound.map .interrupt ++
    readInputRegisters.bytes.map (.byte zeroedMalloc)

/-- The hypothesis of `exchanges_served` is satisfiable, by a run with a write, a round of two
strips and a read of their resistances. -/
theorem exchanges_served_measureAndRead :
    ∃ w, measureAndRead.foldlM (busStep .saturating) .start = .ok w ∧
      w.calls.map Call.answer = [some (.written 6 6 36), some (.registers 4 [0, 0, 6464, 0, 0, 8947, 0, 0])] ∧
      (∀ j, (w.fw.server.holdingRegisters j).toNat = known w.calls j) ∧
      ∀ before c after, w.calls = before ++ c :: after → Handled .saturating measureAndRead before c := by
  have hanswers : (fun w => w.calls.map Call.answer) <$> measureAndRead.foldlM (busStep .saturating) .start
      = .ok [some (.written 6 6 36), some (.registers 4 [0, 0, 6464, 0, 0, 8947, 0, 0])] := by
    decide +kernel
  obtain ⟨w, hw, hcalls⟩ := Run.map_eq_ok.1 hanswers
  exact ⟨w, hw, hcalls, exchanges_served .saturating measureAndRead hw⟩

end Firmware
end GasSensor
