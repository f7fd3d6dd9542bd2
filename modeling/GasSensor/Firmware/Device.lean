/-
# The device on the bus and its peripherals

The device of `Bus` with the interrupt of CTIMER4 added, so that all there is of it runs.

Interrupts come while `main` waits for a byte: a frame is handled, and the peripherals are
configured, in one step.  `writes_setUp` says that, once a write has been accepted, the
peripherals are set up for the live parameters at each of these moments, exactly if the
parameters are applicable.  `device_total` is for a master that writes only values in the
documented ranges: then none of these events is a fault.  Both are about a `malloc` that has
memory.
-/

import GasSensor.Firmware.Bus
import GasSensor.Firmware.Serviceable
import GasSensor.Firmware.Validator

namespace GasSensor
namespace Firmware

open FloatingPoint HotPlate Modbus

variable {t : Target} {malloc : Malloc ℕ}

/-- What happens to the device: an event on the bus, or an interrupt of CTIMER4. -/
inductive DeviceEvent
  | bus (e : BusEvent)
  | ctimer4

section
variable [Arithmetic]

/-- One event. -/
def deviceStep (t : Target) (w : Bus) : DeviceEvent → Except Fault Bus
  | .bus e => busStep t w e
  | .ctimer4 => w.fw.peripherals.hotPlate.ctimer4IRQHandler >>= fun h =>
      .ok { w with fw := { w.fw with peripherals := { w.fw.peripherals with hotPlate := h } } }

/-- If `malloc` is asked on an event, it has memory. -/
def DeviceEvent.Provided : DeviceEvent → Prop
  | .bus (.byte malloc _) | .bus (.error malloc) => HasMemory malloc
  | .bus (.interrupt _) | .ctimer4 => True

/-- A write has been accepted. -/
def WriteAccepted (w : Bus) : Prop := ∃ c ∈ w.calls, acceptedWrite c.rxBuffer ≠ none

/-- **The peripherals follow the live parameters** once a write has been accepted. -/
structure Follows (t : Target) (w : Bus) : Prop where
  sound : Sound w.fw
  length : w.rxBuffer.length ≤ modbusBufferLength
  setUp : WriteAccepted w → ¬ Rejected w.fw.server.params →
    (SetUp t w.fw.server.params w.fw.peripherals ↔ Applicable t zeroedMalloc w.fw.server.params)

variable {w w' : Bus} {es : List DeviceEvent}

/-- A pass of the main loop without its frames. -/
theorem turnStep_of_turn {fw fw' : Firmware} {bytes : List UInt8} {sent : List (List UInt8)}
    (hb : Deliverable bytes) (h : turn t malloc bytes fw = .ok (fw', sent)) :
    turnStep t fw (malloc, ⟨bytes, hb⟩) = .ok fw' := by
  rw [turnStep, h]
  rfl

omit [Arithmetic] in
/-- Behind a call that has written nothing, the write that has been accepted is an older one. -/
theorem WriteAccepted.of_call {c : Call} {fw : Firmware} {rxBuffer : List UInt8}
    (h : WriteAccepted ⟨fw, rxBuffer, w.calls ++ [c]⟩) (hnone : acceptedWrite c.rxBuffer = none) :
    WriteAccepted w := by
  obtain ⟨c', hc, hwrite⟩ := h
  rcases List.mem_append.1 hc with hc | hc
  · exact ⟨c', hc, hwrite⟩
  · rw [List.mem_singleton.1 hc] at hwrite
    exact absurd hnone hwrite

/-- A frame is handled: the parameters change and are put into force, or neither happens. -/
theorem Follows.turn (h : Follows t w) (hm : HasMemory malloc) {bytes : List UInt8} {fw : Firmware}
    {sent : List (List UInt8)} (hb : Deliverable bytes) (hturn : turn t malloc bytes w.fw = .ok (fw, sent))
    (hsound : Sound fw) : Follows t ⟨fw, [], w.calls ++ [⟨bytes, bytes.length, sent⟩]⟩ := by
  refine ⟨hsound, Nat.zero_le _, fun haccepted hr => ?_⟩
  have hstep := turnStep_of_turn hb hturn
  rcases turnStep_cases h.sound hstep with ⟨hnone, hsettings, hperipherals⟩ | ⟨start, values, -, -, status, hinit⟩
  · have hparams : fw.server.params = w.fw.server.params := congrArg Settings.params hsettings
    dsimp only at hr ⊢
    rw [hparams] at hr
    rw [hparams, hperipherals]
    exact h.setUp (haccepted.of_call hnone) hr
  · exact (setUp_iff_of_initialized hsound.counted hr hinit).trans (applicable_iff_of_hasMemory hsound.counted hm)

/-- A change that leaves parameters and set-up. -/
theorem Follows.undisturbed (h : Follows t w) {d : Peripherals} (hd : Undisturbed w.fw.peripherals d) :
    Follows t { w with fw := { w.fw with peripherals := d } } where
  sound := by
    refine ⟨h.sound.counted, h.sound.muxFreq, ?_, h.sound.unchanged⟩
    change d.sampler.activeStripIndices ≠ .freed
    rw [hd.activeStripIndices]
    exact h.sound.block
  length := h.length
  setUp hw hr := hd.setUp_iff.trans (h.setUp hw hr)

/-- **Every event keeps it.** -/
theorem Follows.step (h : Follows t w) {e : DeviceEvent} (hm : e.Provided) (hstep : deviceStep t w e = .ok w') :
    Follows t w' := by
  match e with
  | .ctimer4 =>
      obtain ⟨hotPlate, hplay, hw'⟩ := Run.bind_eq_ok.1 hstep
      obtain rfl := Except.ok.inj hw'
      exact h.undisturbed (undisturbed_of_ctimer4 hplay)
  | .bus e =>
      rcases busStep_cases (t := t) h.sound e with
        ⟨malloc, b, rfl, hc, hw⟩ | ⟨malloc, b, fw, sent, rfl, hc, hturn, hsound, hw⟩ | ⟨malloc, rfl, hw⟩ |
          ⟨i, rfl, hw⟩
      · obtain rfl := Except.ok.inj (hw.symm.trans hstep)
        exact ⟨h.sound, Receiver.storeByte_length h.length b, h.setUp⟩
      · obtain rfl := Except.ok.inj (hw.symm.trans hstep)
        exact h.turn hm ((deliverable_iff_complete h.length b).2 hc) hturn hsound
      · obtain rfl := Except.ok.inj (hw.symm.trans hstep)
        exact ⟨h.sound, Nat.zero_le _, h.setUp⟩
      · obtain ⟨fw, hfw, hok⟩ := Run.bind_eq_ok.1 (hw.symm.trans hstep)
        obtain rfl := Except.ok.inj hok
        obtain ⟨s, hs, hs'⟩ := Run.bind_eq_ok.1 hfw
        obtain rfl := Except.ok.inj hs'
        exact h.undisturbed (undisturbed_of_interrupt hs)

theorem follows_start (t : Target) : Follows t .start := by
  refine ⟨sound_boot, Nat.zero_le _, fun haccepted => ?_⟩
  obtain ⟨c, hc, -⟩ := haccepted
  cases hc

/-- **The device stays set up for what has been written.**  In every run of the device on the bus from boot, with
any bytes, errors, and interrupts of sampler and hot plate between them, and with a `malloc`
that has memory: once a write has been accepted, and unless the hot plate rejects the live
parameters, table, DAC0, strip numbers and timers are set up for these if and only if they are
applicable. -/
theorem writes_setUp (t : Target) {es : List DeviceEvent} (hm : ∀ e ∈ es, e.Provided) {w : Bus}
    (h : es.foldlM (deviceStep t) .start = .ok w) (hw : WriteAccepted w) (hr : ¬ Rejected w.fw.server.params) :
    SetUp t w.fw.server.params w.fw.peripherals ↔ Applicable t zeroedMalloc w.fw.server.params :=
  (Run.foldlM_invariant_of_forall (fun _ _ _ hw hm hstep => Follows.step hw hm hstep) hm (follows_start t) h).setUp
    hw hr

end

section
attribute [local instance] Arithmetic.uncontracted

/-- A write of 3 to holding register 0. -/
def writeWaveType : List UInt8 := withCRC [0x01, 0x06, 0x00, 0x00, 0x00, 0x03]

/-- The bytes of the write come in. -/
def writeEvents : List DeviceEvent := (writeWaveType.map (.byte zeroedMalloc)).map .bus

theorem writeEvents_provided : ∀ e ∈ writeEvents, e.Provided := by
  intro e he
  obtain ⟨_, hmem, rfl⟩ := List.mem_map.1 he
  obtain ⟨b, -, rfl⟩ := List.mem_map.1 hmem
  exact hasMemory_zeroedMalloc

/-- The hypotheses of `writes_setUp` are satisfiable. -/
theorem writes_setUp_writeWaveType : ∃ w, writeEvents.foldlM (deviceStep .saturating) .start = .ok w ∧
    (SetUp .saturating w.fw.server.params w.fw.peripherals ↔ Applicable .saturating zeroedMalloc w.fw.server.params) := by
  have hcall : handleModbusFrame false [] writeWaveType = .frame writeWaveType [] := by decide
  have hwrite : acceptedWrite writeWaveType = some (0, [3]) := by decide
  have hb : Complete writeWaveType := by decide
  rcases bus_handleModbusFrame .saturating zeroedMalloc (w := .start) sound_boot writeWaveType with
    ⟨hwait, -⟩ | ⟨bytes, rest, hframe, hrun⟩
  · cases hcall.symm.trans hwait
  obtain ⟨rfl, rfl⟩ := Received.frame.inj (hcall.symm.trans hframe)
  obtain ⟨fw, sent, hturn, -⟩ := turn_ok .saturating zeroedMalloc hb sound_boot
  have hstart : Bus.start.fw = boot := rfl
  rw [hstart, hturn] at hrun
  have hw : writeEvents.foldlM (deviceStep .saturating) .start
      = .ok ⟨fw, [], [⟨writeWaveType, writeWaveType.length, sent⟩]⟩ := by
    rw [writeEvents, List.foldlM_map]
    exact hrun
  have hr : ¬ Rejected fw.server.params := by
    rw [turn_of_write _ _ _ hb hwrite, Run.bind_eq_ok] at hturn
    obtain ⟨_, -, hfw⟩ := hturn
    cases hfw
    rw [Rejected, not_or]
    exact ⟨show ¬ thousandth 50 < lowestFreqPossible by decide +kernel, show ¬ 2 < 3 - 1 by decide⟩
  refine ⟨_, hw, writes_setUp .saturating writeEvents_provided hw ⟨_, List.mem_cons_self, ?_⟩ hr⟩
  change acceptedWrite writeWaveType ≠ none
  rw [hwrite]
  exact Option.some_ne_none _

end

/-- Each value the frame writes is in the range of its register, and one for register 6 selects a
strip. -/
structure Proper (bytes : List UInt8) : Prop where
  inRange : WriteInRange bytes
  selects : ∀ start values, acceptedWrite bytes = some (start, values) →
    ∀ i value, values[i]? = some value → start + i = 6 → value.toNat % 2 ^ 8 ≠ 0

/-- The events on the bus. -/
def busEvents (es : List DeviceEvent) : List BusEvent :=
  es.filterMap fun
    | .bus e => some e
    | .ctimer4 => none

variable {bytes : List UInt8}

/-- A register that is stored selects a strip, and so does one that is kept. -/
theorem Proper.storeFrom (h : Proper bytes) {start : ℕ} {values : List UInt16}
    (hw : acceptedWrite bytes = some (start, values)) {table : Fin 7 → UInt16} (htable : (table 6).toNat % 2 ^ 8 ≠ 0) :
    (storeFrom table start values 6).toNat % 2 ^ 8 ≠ 0 := by
  rw [Modbus.storeFrom]
  split
  next hle =>
    rw [List.getD_eq_getElem?_getD]
    cases hv : values[(6 : Fin 7).val - start]? with
    | none => exact htable
    | some value => exact h.selects start values hw _ value hv (Nat.add_sub_cancel' hle)
  next => exact htable

/-- A frame that writes one register. -/
theorem proper_of_single (start : ℕ) (value : UInt16) (hw : acceptedWrite bytes = some (start, [value]))
    (hrange : RegisterInRange start value) (hselects : start = 6 → value.toNat % 2 ^ 8 ≠ 0) : Proper bytes := by
  have hvalues : ∀ start' values, acceptedWrite bytes = some (start', values) →
      start' = start ∧ values = [value] := by
    intro start' values hw'
    obtain ⟨rfl, rfl⟩ := Prod.mk.inj (Option.some.inj (hw.symm.trans hw'))
    exact ⟨rfl, rfl⟩
  have hfirst : ∀ i (value' : UInt16), [value][i]? = some value' → i = 0 ∧ value' = value := by
    intro i value' hi
    obtain ⟨hlt, rfl⟩ := List.getElem?_eq_some_iff.1 hi
    obtain rfl : i = 0 := Nat.lt_one_iff.1 hlt
    exact ⟨rfl, rfl⟩
  refine ⟨fun start' values hw' i value' hi => ?_, fun start' values hw' i value' hi hsix => ?_⟩
  · obtain ⟨rfl, rfl⟩ := hvalues start' values hw'
    obtain ⟨rfl, rfl⟩ := hfirst i value' hi
    exact hrange
  · obtain ⟨rfl, rfl⟩ := hvalues start' values hw'
    obtain ⟨rfl, rfl⟩ := hfirst i value' hi
    exact hselects hsix

theorem proper_writeWaveType : Proper writeWaveType :=
  proper_of_single 0 3 (by decide) (.inr (show (3 : UInt16).toNat ≤ 3 by decide)) (by decide)

section
variable [Arithmetic] {w w' : Bus} {es : List DeviceEvent}

/-- A code of the waveform of parameters that have been live in the run, or 0. -/
def LiveCode (t : Target) (es : List DeviceEvent) (c : ℕ) : Prop :=
  c = 0 ∨ ∃ fs u, fs <+: es ∧ fs.foldlM (deviceStep t) .start = .ok u ∧
    ∃ i < tableSize t u.fw.server.params, c = waveEntry t u.fw.server.params i

/-- **What the writes of such a master keep.** -/
structure Running (t : Target) (W : ℕ → Prop) (w : Bus) : Prop where
  inForce : InForce w.fw
  frequency : lowestFreqPossible ≤ w.fw.server.params.desiredFrequency
  length : w.rxBuffer.length ≤ modbusBufferLength
  strips : (w.fw.server.holdingRegisters 6).toNat % 2 ^ 8 ≠ 0
  serviceable : Serviceable true W w.fw.server.params w.fw.peripherals
  setUp : WriteAccepted w → SetUp t w.fw.server.params w.fw.peripherals

variable {W : ℕ → Prop} {p : Params}

theorem running_start (t : Target) (h0 : W 0) : Running t W .start := by
  refine ⟨inForce_boot, ?_, Nat.zero_le _, show (8 : UInt16).toNat % 2 ^ 8 ≠ 0 by decide, serviceable_boot h0,
    fun haccepted => ?_⟩
  · exact rounding_cases (P := fun r r' => r'.round (2 / 1000) ≤ r.convert (r'.round (5 / 100)))
      (by decide +kernel) (by decide +kernel)
  obtain ⟨c, hc, -⟩ := haccepted
  cases hc

theorem Documented.workable (h : Documented p) (hp : p.Counted) (hf : lowestFreqPossible ≤ p.desiredFrequency) :
    Workable p where
  counted := hp
  hotPlate := ⟨h.waveType, h.dutyCycle, ⟨hf, h.frequency.2⟩, h.amplitude⟩
  excitation := h.excitation
  muxFreq := Nat.one_le_iff_ne_zero.1 h.muxFreq.1

/-- A mask that selects a strip is put into force. -/
theorem gStripCount_ne_zero {buffer : Fin 7 → UInt16} (h : (buffer 6).toNat % 2 ^ 8 ≠ 0) (p : Params) :
    (modbusUpdateParameters buffer p).gStripCount ≠ 0 := by
  have hne : buffer 6 ≠ 0 := by
    intro hzero
    rw [hzero] at h
    exact h rfl
  obtain ⟨i, hi⟩ := (exists_testBit_iff _).2 h
  have hpos : 0 < countStrips fun i : Strip => (buffer 6).toNat.testBit i := by
    rw [countStrips_eq]
    exact List.length_pos_of_mem (mem_stripList.2 hi)
  change unlessZero (buffer 6) (countStrips fun i : Strip => (buffer 6).toNat.testBit i) p.gStripCount ≠ 0
  rw [unlessZero, if_pos hne]
  exact hpos.ne'

/-- **A frame of such a master** is handled without a fault, and a write sets the peripherals up. -/
theorem Running.turn (h : Running t W w) (hm : HasMemory malloc) (hb : Deliverable bytes) (hproper : Proper bytes)
    {fw : Firmware} {sent : List (List UInt8)} (hturn : turn t malloc bytes w.fw = .ok (fw, sent))
    (hW : ∀ i < tableSize t fw.server.params, W (waveEntry t fw.server.params i)) :
    Running t W ⟨fw, [], w.calls ++ [⟨bytes, bytes.length, sent⟩]⟩ := by
  have hstep := turnStep_of_turn hb hturn
  obtain ⟨fw', hfw', -, hkeep⟩ := h.inForce.turnStep t (malloc, ⟨bytes, hb⟩)
  obtain rfl := Except.ok.inj (hfw'.symm.trans hstep)
  have hinForce := hkeep hproper.inRange
  rcases turnStep_cases h.inForce.sound hstep with
    ⟨hnone, hsettings, hperipherals⟩ | ⟨start, values, hw, hsettings, status, hinit⟩
  · have hparams : fw'.server.params = w.fw.server.params := congrArg Settings.params hsettings
    have hregisters : fw'.server.holdingRegisters = w.fw.server.holdingRegisters :=
      congrArg Settings.registers hsettings
    refine ⟨hinForce, hparams ▸ h.frequency, Nat.zero_le _, ?_, ?_, fun haccepted => ?_⟩
    · rw [hregisters]
      exact h.strips
    · rw [hparams, hperipherals]
      exact h.serviceable
    · rw [hparams, hperipherals]
      exact h.setUp (haccepted.of_call hnone)
  · have hparams : fw'.server.params
        = modbusUpdateParameters (storeFrom w.fw.server.holdingRegisters start values) w.fw.server.params :=
      congrArg Settings.params hsettings
    have hregisters : fw'.server.holdingRegisters = storeFrom w.fw.server.holdingRegisters start values :=
      congrArg Settings.registers hsettings
    have hstrips := hproper.storeFrom hw h.strips
    have hcount : fw'.server.params.gStripCount ≠ 0 := by
      rw [hparams]
      exact gStripCount_ne_zero hstrips _
    have hfrequency : lowestFreqPossible ≤ fw'.server.params.desiredFrequency := by
      rw [hparams]
      have hrange := hinForce.registers 2
      rw [hregisters] at hrange
      exact (unlessZero_iff (P := (lowestFreqPossible ≤ ·)) h.frequency).2
        (hrange.imp_right fun hlow => (lowestFreqPossible_le_thousandth_iff _).2 hlow.1)
    obtain ⟨d', hd', hserviceable, hsetUp⟩ :=
      (hinForce.documented.workable hinForce.sound.counted hfrequency).initializeAllPeripherals_ok hm t h.serviceable
        (fun _ => hcount) hW
    obtain ⟨rfl, -⟩ := Prod.mk.inj (Except.ok.inj (hd'.symm.trans hinit))
    exact ⟨hinForce, hfrequency, Nat.zero_le _, by rwa [hregisters], hserviceable, fun _ => hsetUp⟩

/-- Interrupts leave what the writes keep. -/
theorem Running.undisturbed (h : Running t W w) {d : Peripherals} (hd : Undisturbed w.fw.peripherals d)
    (hserviceable : Serviceable true W w.fw.server.params d) :
    Running t W { w with fw := { w.fw with peripherals := d } } where
  inForce := ⟨⟨h.inForce.sound.counted, h.inForce.sound.muxFreq, hserviceable.block, h.inForce.sound.unchanged⟩,
    h.inForce.documented, h.inForce.registers⟩
  frequency := h.frequency
  length := h.length
  strips := h.strips
  serviceable := hserviceable
  setUp hw := hd.setUp_iff.2 (h.setUp hw)

/-- **No event is a fault**, and each leaves what the next one relies on.  Its frames are the first of
those still to come. -/
theorem Running.step (h : Running t W w) {e : DeviceEvent} (hm : e.Provided)
    (hproper : ∀ bytes ∈ frames (heard w.rxBuffer (busEvents (e :: es))), Proper bytes)
    (hW : ∀ w', deviceStep t w e = .ok w' → ∀ i < tableSize t w'.fw.server.params, W (waveEntry t w'.fw.server.params i)) :
    ∃ w', deviceStep t w e = .ok w' ∧ Running t W w' ∧
      ∀ bytes ∈ frames (heard w'.rxBuffer (busEvents es)), Proper bytes := by
  match e with
  | .ctimer4 =>
      obtain ⟨hotPlate, hplay, hserviceable⟩ := h.serviceable.ctimer4
      exact ⟨_, by rw [deviceStep, hplay, Run.ok_bind], h.undisturbed (undisturbed_of_ctimer4 hplay) hserviceable,
        hproper⟩
  | .bus (.interrupt i) =>
      obtain ⟨s, hs, hserviceable⟩ := h.serviceable.interrupt t i
      exact ⟨_, by rw [deviceStep, busStep, hs, Run.ok_bind], h.undisturbed (undisturbed_of_interrupt hs) hserviceable,
        hproper⟩
  | .bus (.error malloc) =>
      rcases busStep_cases (t := t) h.inForce.sound (.error malloc) with
        ⟨_, _, he, -⟩ | ⟨_, _, _, _, he, -⟩ | ⟨_, -, hw⟩ | ⟨_, he, -⟩
      · cases he
      · cases he
      · exact ⟨_, hw, ⟨h.inForce, h.frequency, Nat.zero_le _, h.strips, h.serviceable, h.setUp⟩, hproper⟩
      · cases he
  | .bus (.byte malloc b) =>
      change ∀ bytes ∈ frames (heard w.rxBuffer (.byte malloc b :: busEvents es)), Proper bytes at hproper
      rw [heard] at hproper
      rcases busStep_cases (t := t) h.inForce.sound (.byte malloc b) with
        ⟨_, _, he, hc, hw⟩ | ⟨_, _, fw, sent, he, hc, hturn, -, hw⟩ | ⟨_, he, -⟩ | ⟨_, he, -⟩
      · obtain ⟨rfl, rfl⟩ := BusEvent.byte.inj he
        rw [dif_neg (mt (deliverable_iff_complete h.length b).1 hc)] at hproper
        exact ⟨_, hw, ⟨h.inForce, h.frequency, Receiver.storeByte_length h.length b, h.strips, h.serviceable, h.setUp⟩, hproper⟩
      · obtain ⟨rfl, rfl⟩ := BusEvent.byte.inj he
        have hb := (deliverable_iff_complete h.length b).2 hc
        rw [dif_pos hb, frames_cons_frame, List.forall_mem_cons] at hproper
        exact ⟨_, hw, h.turn hm hb hproper.1 hturn (hW _ hw), hproper.2⟩
      · cases he
      · cases he

/-- From any state of a run on. -/
theorem device_total_from (before : List DeviceEvent) (hbefore : before.foldlM (deviceStep t) .start = .ok w)
    (h : Running t (LiveCode t (before ++ es)) w) (hm : ∀ e ∈ es, e.Provided)
    (hproper : ∀ bytes ∈ frames (heard w.rxBuffer (busEvents es)), Proper bytes) :
    ∃ w', es.foldlM (deviceStep t) w = .ok w' ∧ Running t (LiveCode t (before ++ es)) w' := by
  induction es generalizing before w with
  | nil => exact ⟨w, rfl, h⟩
  | cons e es ih =>
      obtain ⟨he, hes⟩ := List.forall_mem_cons.1 hm
      have hsplit : before ++ e :: es = (before ++ [e]) ++ es := by rw [List.append_assoc, List.singleton_append]
      have hrun : ∀ w', deviceStep t w e = .ok w' → (before ++ [e]).foldlM (deviceStep t) .start = .ok w' := by
        intro w' hw'
        rw [Run.foldlM_concat, hbefore, Run.ok_bind, hw']
      obtain ⟨u, hu, hrunning, hproper'⟩ := h.step he hproper fun w' hw' i hi =>
        .inr ⟨before ++ [e], w', ⟨es, hsplit.symm⟩, hrun w' hw', i, hi, rfl⟩
      rw [hsplit] at hrunning
      obtain ⟨w', hw', h'⟩ := ih (before ++ [e]) (hrun u hu) hrunning hes hproper'
      rw [hsplit]
      exact ⟨w', by rw [List.foldlM_cons, hu, Run.ok_bind, hw'], h'⟩

/-- **A master that writes documented values keeps the device running.**  Whatever bytes and errors come in from
boot, and interrupts of sampler and hot plate while `main` waits for one, if each accepted write among the frames
that `Receiver.cut` finds between the errors carries values in the documented ranges and
selects a strip, and there is memory, then no event is a fault; the live parameters are in the
documented ranges, the peripherals are set up for them once one has been written, and the
heater has got no code but of waveforms of parameters that have been live. -/
theorem device_total (t : Target) {es : List DeviceEvent} (hm : ∀ e ∈ es, e.Provided)
    (hproper : ∀ bytes ∈ (parts (reads (busEvents es))).flatMap fun s => (Receiver.cut s).frames, Proper bytes) :
    ∃ w, es.foldlM (deviceStep t) .start = .ok w ∧ Documented w.fw.server.params ∧
      (WriteAccepted w → SetUp t w.fw.server.params w.fw.peripherals) ∧
      ∀ c ∈ w.fw.peripherals.hotPlate.codes, LiveCode t es c := by
  rw [← frames_heard] at hproper
  obtain ⟨w, hw, h⟩ := device_total_from [] rfl (running_start t (.inl rfl)) hm hproper
  exact ⟨w, hw, h.inForce.documented, h.setUp, h.serviceable.codes.codes⟩

end

attribute [local instance] Arithmetic.uncontracted

/-- The write comes in, and the timer of the hot plate interrupts. -/
def writeAndPlay : List DeviceEvent := writeEvents ++ [.ctimer4]

/-- The hypotheses of `device_total` are satisfiable. -/
theorem device_total_writeAndPlay : ∃ w, writeAndPlay.foldlM (deviceStep .saturating) .start = .ok w ∧
    Documented w.fw.server.params ∧
      (WriteAccepted w → SetUp .saturating w.fw.server.params w.fw.peripherals) ∧
      ∀ c ∈ w.fw.peripherals.hotPlate.codes, LiveCode .saturating writeAndPlay c := by
  have hframes : ((parts (reads (busEvents writeAndPlay))).flatMap fun s => (Receiver.cut s).frames)
      = [writeWaveType] := by
    decide +kernel
  refine device_total .saturating (List.forall_mem_append.2 ⟨writeEvents_provided, fun e he => ?_⟩) ?_
  · rw [List.mem_singleton.1 he]
    exact trivial
  · rw [hframes]
    exact List.forall_mem_singleton.2 proper_writeWaveType

end Firmware
end GasSensor
