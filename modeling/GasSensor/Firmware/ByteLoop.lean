/-
# The Modbus main loop on a stream of bytes

`main` of `source/main.c` with `ModbusFlag` set, from the bytes on the line to
the calls of `Modbus_HandleRequest`.  `pass` is one pass of the loop; a pass
whose `HandleModbusFrame` waits for a byte leaves everything, and the same pass
takes place again when more bytes are there.

A stream of deliverable frames is handled frame by frame
(`frames_delimited`), and in general the calls are what `Receiver.cut` cuts the
stream into (`passes_calls`).  Nothing but the number of bytes says where a
frame begins: there is no silent interval and no checksum.  So a request that
the master repeats is answered from some copy on exactly if everything before
that copy happens to be a sequence of frames (`answersFrom_iff`).
-/

import GasSensor.Firmware.ModbusLoop
import GasSensor.Modbus.Receiver

namespace GasSensor
namespace Firmware

open Modbus

/-- A call `Modbus_HandleRequest(rxBuffer, length)`: the first `length` bytes of the
buffer, and the frames transmitted. -/
structure Call where
  rxBuffer : List UInt8
  length : ℕ
  sent : List (List UInt8)

/-- The firmware with the bytes still to arrive and the calls so far. -/
structure MainLoop where
  fw : Firmware
  input : List UInt8
  calls : List Call

section

variable [Arithmetic]

/-- Before the first pass. -/
def MainLoop.start (input : List UInt8) : MainLoop := ⟨boot, input, []⟩

/-- One pass of the main loop. -/
def pass (t : Target) (m : MainLoop) (malloc : Malloc ℕ) : Except Fault MainLoop :=
  match handleModbusFrame m.fw.server.modbusParamChanged [] m.input with
  | .waiting => .ok m
  | .dropped rest => do
      -- the flag was set before the call: the byte read is lost
      let (peripherals, _) ← initializeAllPeripherals t malloc m.fw.server.params m.fw.peripherals
      .ok { m with fw := ⟨{ m.fw.server with modbusParamChanged := false }, peripherals⟩, input := rest }
  | .frame bytes rest => do
      let (fw, sent) ← turn t malloc bytes m.fw
      .ok ⟨fw, rest, m.calls ++ [⟨bytes, bytes.length, sent⟩]⟩

variable {t : Target} {m : MainLoop} {bytes rest g R : List UInt8} {k : ℕ}

/-- A pass that finds a frame handles it and begins the next pass right behind it. -/
theorem pass_of_frame (t : Target) (malloc : Malloc ℕ) (h : Sound m.fw) (hb : Complete bytes)
    (hframe : handleModbusFrame false [] m.input = .frame bytes rest) :
    ∃ fw sent, turn t malloc bytes m.fw = .ok (fw, sent) ∧ Sound fw ∧
      pass t m malloc = .ok ⟨fw, rest, m.calls ++ [⟨bytes, bytes.length, sent⟩]⟩ := by
  obtain ⟨fw, sent, hturn, hsound⟩ := turn_ok t malloc hb h
  refine ⟨fw, sent, hturn, hsound, ?_⟩
  rw [pass, h.unchanged, hframe]
  simp only [hturn, Run.ok_bind]

/-- A pass that finds no frame waits. -/
theorem pass_of_waiting (t : Target) (malloc : Malloc ℕ) (h : Sound m.fw)
    (hwait : handleModbusFrame false [] m.input = .waiting) : pass t m malloc = .ok m := by
  rw [pass, h.unchanged, hwait]

/-- What the calls of a run have been handed: the bytes and their number. -/
def handed (calls : List Call) : List (List UInt8 × ℕ) := calls.map fun c => (c.rxBuffer, c.length)

/-- The bytes of a sequence of frames. -/
def stream (fs : List Frame) : List UInt8 := (fs.map Frame.bytes).flatten

theorem passes_frames (t : Target) (h : Sound m.fw) (fs : List Frame) (hinput : m.input = stream fs)
    (mallocs : List (Malloc ℕ)) :
    ∃ m', mallocs.foldlM (pass t) m = .ok m' ∧ Sound m'.fw ∧
      handed m'.calls = handed m.calls
        ++ (fs.take mallocs.length).map (fun f => (f.bytes, f.bytes.length)) ∧
      m'.input = stream (fs.drop mallocs.length) := by
  induction mallocs generalizing m fs with
  | nil => exact ⟨m, rfl, h, by simp, by simpa using hinput⟩
  | cons malloc mallocs ih =>
      match fs with
      | [] =>
          have hpass : pass t m malloc = .ok m := pass_of_waiting t malloc h (by rw [hinput]; rfl)
          obtain ⟨m', hrun, hsound, hcalls, hrest⟩ := ih h [] hinput
          refine ⟨m', by rw [List.foldlM_cons, hpass, Run.ok_bind, hrun], hsound, ?_, ?_⟩
          · simpa using hcalls
          · simpa using hrest
      | f :: fs =>
          have hne : f.bytes ≠ [] := by
            intro hnil
            exact Receiver.not_complete_nil (hnil ▸ f.deliverable.1)
          have hd : Deliverable ([] ++ f.bytes) := f.deliverable
          have hframe : handleModbusFrame false [] m.input = .frame f.bytes (stream fs) := by
            rw [hinput]
            exact frame_of_deliverable (stream fs) hne hd
          obtain ⟨fw, sent, -, hfw, hpass⟩ := pass_of_frame t malloc h f.deliverable.1 hframe
          obtain ⟨m', hrun, hsound, hcalls, hrest⟩ :=
            ih (m := ⟨fw, stream fs, m.calls ++ [⟨f.bytes, f.bytes.length, sent⟩]⟩) hfw fs rfl
          refine ⟨m', by rw [List.foldlM_cons, hpass, Run.ok_bind, hrun], hsound, ?_, hrest⟩
          rw [hcalls]
          simp [handed]

/-- **Frame delimiting is exact.**  From the start of the main loop, on the bytes of any
sequence of frames: after any number of passes `Modbus_HandleRequest` has been called
with exactly as many frames from the beginning of the sequence, in their order and with
their lengths, and the bytes left are exactly those of the other frames.  When all have
been handled further passes call nothing. -/
theorem frames_delimited (t : Target) (fs : List Frame) (mallocs : List (Malloc ℕ)) :
    ∃ m, mallocs.foldlM (pass t) (.start (stream fs)) = .ok m ∧
      handed m.calls = (fs.take mallocs.length).map (fun f => (f.bytes, f.bytes.length)) ∧
      m.input = stream (fs.drop mallocs.length) := by
  obtain ⟨m, hrun, -, hcalls, hinput⟩ :=
    passes_frames (m := .start (stream fs)) t sound_boot fs rfl mallocs
  exact ⟨m, hrun, by simpa [handed, MainLoop.start] using hcalls, hinput⟩

/-- The call is what some pass made of its frame. -/
def Call.Handled (t : Target) (c : Call) : Prop :=
  ∃ malloc fw fw', turn t malloc c.rxBuffer fw = .ok (fw', c.sent)

open Receiver in
/-- **The calls of a run are the frames the stream is cut into**, as far as the passes got. -/
theorem passes_calls (t : Target) (h : Sound m.fw) (mallocs : List (Malloc ℕ)) :
    ∃ m' calls, mallocs.foldlM (pass t) m = .ok m' ∧ m'.calls = m.calls ++ calls ∧
      calls.map Call.rxBuffer = (cut m.input).frames.take mallocs.length ∧
      ∀ c ∈ calls, c.Handled t := by
  induction mallocs generalizing m with
  | nil => exact ⟨m, [], rfl, (List.append_nil _).symm, rfl, by simp⟩
  | cons malloc mallocs ih =>
      rcases handleModbusFrame_eq [] m.input with ⟨hwait, hnone⟩ | ⟨bytes, rest, hframe, hcut, -⟩
      · obtain ⟨m', calls, hrun, hcalls, hframes, hhandled⟩ := ih h
        refine ⟨m', calls, ?_, hcalls, ?_, hhandled⟩
        · rw [List.foldlM_cons, pass_of_waiting t malloc h hwait, Run.ok_bind, hrun]
        · have hnone : (cut m.input).frames = [] := hnone
          rw [hframes, hnone, List.take_nil, List.take_nil]
      · have hb : Complete bytes := (deliverable_of_frame (Nat.zero_le _) hframe).1
        obtain ⟨fw, sent, hturn, hfw, hpass⟩ := pass_of_frame t malloc h hb hframe
        obtain ⟨m', calls, hrun, hcalls, hframes, hhandled⟩ :=
          ih (m := ⟨fw, rest, m.calls ++ [⟨bytes, bytes.length, sent⟩]⟩) hfw
        have hcut : cut m.input = ⟨bytes :: (cut rest).frames, (cut rest).rxBuffer⟩ := by
          rw [cut, hcut, feed_frames]
          rfl
        refine ⟨m', ⟨bytes, bytes.length, sent⟩ :: calls, ?_, ?_, ?_, ?_⟩
        · rw [List.foldlM_cons, hpass, Run.ok_bind, hrun]
        · rw [hcalls, List.append_assoc]
          rfl
        · rw [List.map_cons, hframes, hcut]
          rfl
        · intro c hc
          rcases List.mem_cons.1 hc with rfl | hc
          · exact ⟨malloc, m.fw, fw, hturn⟩
          · exact hhandled c hc

/-- A read request of 8 bytes with its checksum, for this unit. -/
structure ReadRequest (R : List UInt8) : Prop where
  length : R.length = 8
  address : R.getD 0 0 = modbusAddress
  function : R.getD 1 0 = funcReadHoldingRegisters ∨ R.getD 1 0 = funcReadInputRegisters
  crc : HasCRC R

/-- `n` copies of a request, one right after the other. -/
def copies (R : List UInt8) (n : ℕ) : List UInt8 := (List.replicate n R).flatten

/-- Copy `j` behind `g` is answered: after the bytes before it have been handled, it is
handed to `Modbus_HandleRequest` as a whole, which transmits a frame. -/
def Answered (m : MainLoop) (g R : List UInt8) (j : ℕ) : Prop :=
  ∃ before c after, m.calls = before ++ c :: after ∧
    (before.map Call.rxBuffer).flatten = g ++ copies R j ∧ c.rxBuffer = R ∧ ∃ frame, c.sent = [frame]

/-- However often the master repeats the request behind `g`, all copies but the first `k`
are answered once the main loop has taken the bytes. -/
def AnswersFrom (t : Target) (g R : List UInt8) (k : ℕ) : Prop :=
  ∀ n (mallocs : List (Malloc ℕ)), (g ++ copies R n).length ≤ mallocs.length →
    ∃ m, mallocs.foldlM (pass t) (.start (g ++ copies R n)) = .ok m ∧
      ∀ j, k ≤ j → j < n → Answered m g R j

/-- A byte sequence that consists of whole frames. -/
def IsFrames (bytes : List UInt8) : Prop := ∃ fs : List (List UInt8), (∀ f ∈ fs, Deliverable f) ∧ fs.flatten = bytes

omit [Arithmetic] in
theorem ReadRequest.deliverable (h : ReadRequest R) : Deliverable R := by
  refine deliverable_iff.2 (.inl ⟨?_, h.length⟩)
  rcases h.function with hf | hf <;> rw [hf] <;> decide

/-- A read request is answered by one frame, whatever it asks for. -/
theorem ReadRequest.sent (h : ReadRequest R) {malloc : Malloc ℕ} {fw fw' : Firmware}
    {sent : List (List UInt8)} (hturn : turn t malloc R fw = .ok (fw', sent)) :
    ∃ frame, sent = [frame] := by
  have h8 : 8 ≤ R.length := h.length.ge
  obtain ⟨s', frame, hreq⟩ : ∃ s' frame, modbusHandleRequest fw.peripherals.sampler.resistanceArray R
      R.length fw.server = .ok (s', [frame]) := by
    rw [modbusHandleRequest_eq _ _ h8, if_neg (not_not.2 h.address)]
    rcases h.function with hf | hf
    · rw [if_neg (by rw [hf]; decide), if_pos hf, modbusHandleReadHoldingRegister_eq h8]
      exact ⟨_, _, rfl⟩
    · rw [if_pos hf, modbusHandleReadInputRegister_eq _ h8]
      split
      · exact ⟨_, _, rfl⟩
      · exact ⟨_, _, rfl⟩
  rw [turn, hreq, Run.ok_bind] at hturn
  refine ⟨frame, ?_⟩
  dsimp only at hturn
  split at hturn
  · obtain ⟨q, -, hq⟩ := Run.bind_eq_ok.1 hturn
    exact (congrArg Prod.snd (Except.ok.inj hq)).symm
  · exact (congrArg Prod.snd (Except.ok.inj hturn)).symm

omit [Arithmetic] in
theorem copies_add (R : List UInt8) (a b : ℕ) : copies R (a + b) = copies R a ++ copies R b := by
  rw [copies, List.replicate_add, List.flatten_append]
  rfl

open Receiver in
/-- Once everything before a copy is a sequence of frames, that copy and all further ones
are answered. -/
theorem ReadRequest.answersFrom (h : ReadRequest R) (t : Target) (hg : IsFrames (g ++ copies R k)) :
    AnswersFrom t g R k := by
  intro n mallocs hlen
  obtain ⟨m, calls, hrun, hcalls, hframes, hhandled⟩ :=
    passes_calls (m := .start (g ++ copies R n)) t sound_boot mallocs
  refine ⟨m, hrun, fun j hkj hjn => ?_⟩
  obtain ⟨fs, hfs, hflat⟩ := hg
  -- what the stream is cut into: the frames, the copies up to the j-th, and the others
  obtain ⟨a, rfl⟩ : ∃ a, j = k + a := ⟨j - k, by omega⟩
  obtain ⟨b, rfl⟩ : ∃ b, n = k + a + (1 + b) := ⟨n - (k + a) - 1, by omega⟩
  have hbefore : (fs ++ List.replicate a R).flatten = g ++ copies R (k + a) := by
    rw [List.flatten_append, hflat, copies_add, List.append_assoc]
    rfl
  have hcut : cut (g ++ copies R (k + a + (1 + b)))
      = ⟨(fs ++ List.replicate a R) ++ (R :: List.replicate b R), []⟩ := by
    have hstream : ((fs ++ List.replicate a R) ++ (R :: List.replicate b R)).flatten
        = g ++ copies R (k + a + (1 + b)) := by
      rw [List.flatten_append, hbefore, copies_add R (k + a), Nat.add_comm 1 b, List.append_assoc]
      rfl
    rw [← hstream]
    refine cut_flatten _ fun f hf => ?_
    rcases List.mem_append.1 hf with hf | hf
    · rcases List.mem_append.1 hf with hf | hf
      · exact hfs f hf
      · rw [List.eq_of_mem_replicate hf]
        exact h.deliverable
    · rcases List.mem_cons.1 hf with rfl | hf
      · exact h.deliverable
      · rw [List.eq_of_mem_replicate hf]
        exact h.deliverable
  have hall : (cut (g ++ copies R (k + a + (1 + b)))).frames.length ≤ mallocs.length :=
    (frames_length_le ⟨[], []⟩ _).trans (by simpa using hlen)
  rw [MainLoop.start, List.take_of_length_le hall, hcut] at hframes
  obtain ⟨before, later, rfl, hmap, hlater⟩ := List.map_eq_append_iff.1 hframes
  obtain ⟨c, after, rfl, hc, -⟩ := List.map_eq_cons_iff.1 hlater
  refine ⟨before, c, after, hcalls, by rw [hmap, hbefore], hc, ?_⟩
  obtain ⟨malloc, fw, fw', hturn⟩ := hhandled c (by simp)
  rw [hc] at hturn
  exact h.sent hturn

open Receiver in
/-- A copy that is answered begins where a sequence of frames ends. -/
theorem isFrames_of_answersFrom (h : AnswersFrom t g R k) : IsFrames (g ++ copies R k) := by
  obtain ⟨m, hrun, hall⟩ := h (k + 1)
    (List.replicate (g ++ copies R (k + 1)).length zeroedMalloc) (by simp)
  obtain ⟨before, c, after, hm, hflat, -⟩ := hall k (Nat.le_refl _) (Nat.lt_succ_self _)
  obtain ⟨m', calls, hrun', hcalls, hframes, -⟩ :=
    passes_calls (m := .start (g ++ copies R (k + 1))) t sound_boot
      (List.replicate (g ++ copies R (k + 1)).length zeroedMalloc)
  rw [hrun, Except.ok.injEq] at hrun'
  subst hrun'
  refine ⟨before.map Call.rxBuffer, fun f hf => ?_, hflat⟩
  have hmem : f ∈ calls.map Call.rxBuffer := by
    rw [hcalls] at hm
    change calls = _ at hm
    rw [hm, List.map_append]
    exact List.mem_append_left _ hf
  rw [hframes] at hmem
  exact deliverable_of_mem_cut (List.mem_of_mem_take hmem)

/-- **When the receiver is aligned again.**  Whatever was received before, and for every
read request: all copies but the first `k` are answered if and only if the bytes before
them, `g` and `k` copies, are a sequence of whole frames. -/
theorem answersFrom_iff (t : Target) (g : List UInt8) (k : ℕ) (h : ReadRequest R) :
    AnswersFrom t g R k ↔ IsFrames (g ++ copies R k) :=
  ⟨isFrames_of_answersFrom, h.answersFrom t⟩

end

section

attribute [local instance] Arithmetic.uncontracted

/-- A read of holding register 0. -/
def readWaveType : List UInt8 := [0x01, 0x03, 0x00, 0x00, 0x00, 0x01, 0x84, 0x0A]

theorem readRequest_readWaveType : ReadRequest readWaveType where
  length := rfl
  address := rfl
  function := .inl rfl
  crc := by unfold HasCRC; decide

/-- A write of three registers of which only the header has arrived. -/
def cutWrite : List UInt8 := [0x01, 0x10, 0x00, 0x00, 0x00, 0x03, 0x06]

/-- The first copy behind a write that was cut off completes it, and all others are answered. -/
theorem answersFrom_iff_readWaveType : AnswersFrom .saturating cutWrite readWaveType 1 :=
  (answersFrom_iff .saturating cutWrite 1 readRequest_readWaveType).2
    ⟨[cutWrite ++ readWaveType], by simp only [List.forall_mem_singleton]; decide, by decide⟩

open Receiver in
/-- One byte before the first copy shifts all frames by one byte for ever. -/
theorem cut_shifted (n : ℕ) : (cut ([0x00] ++ copies readWaveType (n + 1))).rxBuffer = [0x0A] := by
  induction n with
  | zero => decide
  | succ n ih =>
      rw [copies_add readWaveType (n + 1), ← List.append_assoc, cut, feed_append]
      change (feed (cut ([0x00] ++ copies readWaveType (n + 1))) (copies readWaveType 1)).rxBuffer = _
      rw [show cut ([0x00] ++ copies readWaveType (n + 1))
          = ⟨(cut ([0x00] ++ copies readWaveType (n + 1))).frames, [0x0A]⟩ by rw [← ih], feed_frames]
      change (feed ⟨[], [0x0A]⟩ (copies readWaveType 1)).rxBuffer = [0x0A]
      decide

/-- **The receiver need not resynchronise**: behind a single byte no copy is ever answered. -/
theorem shifted_not_answered : ¬ ∀ g R, ReadRequest R → ∃ k, AnswersFrom .saturating g R k := by
  intro h
  obtain ⟨k, hk⟩ := h [0x00] readWaveType readRequest_readWaveType
  obtain ⟨fs, hfs, hflat⟩ := isFrames_of_answersFrom hk
  have hcut : (Receiver.cut ([0x00] ++ copies readWaveType k)).rxBuffer = [] := by
    rw [← hflat, Receiver.cut_flatten fs hfs]
  match k with
  | 0 => exact absurd hcut (by decide)
  | n + 1 =>
      rw [cut_shifted] at hcut
      cases hcut

end

end Firmware
end GasSensor
