/-
# The receive loop as a cutter of streams

What successive calls of `HandleModbusFrame` make of a stream of bytes while no
parameter change is pending.  `Receiver.byte` is one byte: it is stored if there
is room, and if the buffer is then a complete frame, the frame is cut off and
the buffer is empty again.  `handleModbusFrame_eq` says that a call of
`HandleModbusFrame` is the part of this up to the next frame.

A sequence of deliverable frames is cut into exactly these frames
(`cut_flatten`), and wherever the buffer is empty the frames cut off so far are
the whole stream (`flatten_cut`).
-/

import GasSensor.Modbus.Frame

namespace GasSensor
namespace Modbus

/-- The frames cut off a stream so far, and `rxBuffer` with its length. -/
structure Receiver where
  frames : List (List UInt8)
  rxBuffer : List UInt8

/-- `if (length < MODBUS_BUFFER_LENGTH) rxBuffer[length++] = byte;` -/
def storeByte (rxBuffer : List UInt8) (byte : UInt8) : List UInt8 :=
  if rxBuffer.length < modbusBufferLength then rxBuffer ++ [byte] else rxBuffer

namespace Receiver

/-- One byte. -/
def byte (r : Receiver) (b : UInt8) : Receiver :=
  if Complete (storeByte r.rxBuffer b) then ⟨r.frames ++ [storeByte r.rxBuffer b], []⟩
  else ⟨r.frames, storeByte r.rxBuffer b⟩

/-- A stream of bytes. -/
def feed (r : Receiver) (input : List UInt8) : Receiver := input.foldl byte r

/-- What a stream is cut into from the beginning of a frame on. -/
def cut (input : List UInt8) : Receiver := feed ⟨[], []⟩ input

variable {r : Receiver} {rxBuffer input bytes rest : List UInt8} {fs : List (List UInt8)}

theorem feed_append (r : Receiver) (a b : List UInt8) : r.feed (a ++ b) = (r.feed a).feed b :=
  List.foldl_append

/-- Frames that have been cut off do not matter. -/
theorem feed_frames (fs : List (List UInt8)) (rxBuffer input : List UInt8) :
    feed ⟨fs, rxBuffer⟩ input
      = ⟨fs ++ (feed ⟨[], rxBuffer⟩ input).frames, (feed ⟨[], rxBuffer⟩ input).rxBuffer⟩ := by
  induction input generalizing fs rxBuffer with
  | nil => simp [feed]
  | cons b input ih =>
      change feed (byte ⟨fs, rxBuffer⟩ b) input
        = ⟨fs ++ (feed (byte ⟨[], rxBuffer⟩ b) input).frames,
            (feed (byte ⟨[], rxBuffer⟩ b) input).rxBuffer⟩
      by_cases hc : Complete (storeByte rxBuffer b)
      · simp only [byte, if_pos hc]
        rw [ih, ih ([] ++ [_])]
        simp
      · simp only [byte, if_neg hc]
        rw [ih]

/-- **A call of `HandleModbusFrame`** waits exactly if the stream holds no further frame,
and otherwise delivers the next one.  It reads a byte at least. -/
theorem handleModbusFrame_eq (rxBuffer input : List UInt8) :
    (handleModbusFrame false rxBuffer input = .waiting ∧ (feed ⟨[], rxBuffer⟩ input).frames = []) ∨
      ∃ bytes rest, handleModbusFrame false rxBuffer input = .frame bytes rest ∧
        feed ⟨[], rxBuffer⟩ input = feed ⟨[bytes], []⟩ rest ∧ rest.length < input.length := by
  induction input generalizing rxBuffer with
  | nil => exact .inl ⟨rfl, rfl⟩
  | cons b input ih =>
      have hfeed : feed ⟨[], rxBuffer⟩ (b :: input) = feed (byte ⟨[], rxBuffer⟩ b) input := rfl
      rw [handleModbusFrame, if_neg Bool.false_ne_true, hfeed]
      change (if Complete (storeByte rxBuffer b) then _ else _) = _ ∧ _ ∨
        ∃ bytes rest, (if Complete (storeByte rxBuffer b) then _ else _) = _ ∧ _
      by_cases hc : Complete (storeByte rxBuffer b)
      · simp only [byte, if_pos hc]
        exact .inr ⟨_, _, rfl, rfl, Nat.lt_succ_self _⟩
      · simp only [byte, if_neg hc]
        rcases ih (storeByte rxBuffer b) with h | ⟨bytes, rest, h, hrest, hlt⟩
        · exact .inl h
        · exact .inr ⟨bytes, rest, h, hrest, Nat.lt_succ_of_lt hlt⟩

/-- The buffer holds at most 256 bytes and is not complete, and all frames are
deliverable. -/
structure Inv (r : Receiver) : Prop where
  length : r.rxBuffer.length ≤ modbusBufferLength
  incomplete : ¬ Complete r.rxBuffer
  deliverable : ∀ f ∈ r.frames, Deliverable f

theorem not_complete_nil : ¬ Complete [] := fun h => absurd h.1 (by decide)

theorem inv_nil : Inv ⟨[], []⟩ where
  length := Nat.zero_le _
  incomplete := not_complete_nil
  deliverable _ hf := absurd hf List.not_mem_nil

theorem storeByte_length (h : rxBuffer.length ≤ modbusBufferLength) (b : UInt8) :
    (storeByte rxBuffer b).length ≤ modbusBufferLength := by
  unfold storeByte
  split
  · rw [List.length_append, List.length_singleton]
    omega
  · exact h

theorem Inv.byte (h : Inv r) (b : UInt8) : Inv (r.byte b) := by
  have hlen := storeByte_length h.length b
  by_cases hc : Complete (storeByte r.rxBuffer b)
  · rw [Receiver.byte, if_pos hc]
    refine ⟨Nat.zero_le _, not_complete_nil, fun f hf => ?_⟩
    rcases List.mem_append.1 hf with hf | hf
    · exact h.deliverable f hf
    · rw [List.mem_singleton.1 hf]
      exact ⟨hc, hlen⟩
  · rw [Receiver.byte, if_neg hc]
    exact ⟨hlen, hc, h.deliverable⟩

theorem Inv.feed (h : Inv r) (input : List UInt8) : Inv (r.feed input) := by
  induction input generalizing r with
  | nil => exact h
  | cons b input ih => exact ih (h.byte b)

/-- Every frame of a stream is deliverable. -/
theorem deliverable_of_mem_cut {f : List UInt8} (h : f ∈ (cut input).frames) : Deliverable f :=
  (inv_nil.feed input).deliverable f h

/-- **Unless the buffer is full nothing is lost**: frames and buffer together are the
stream. -/
theorem flatten_feed (h : Inv r) (input : List UInt8)
    (hroom : (r.feed input).rxBuffer.length < modbusBufferLength) :
    (r.feed input).frames.flatten ++ (r.feed input).rxBuffer = r.frames.flatten ++ r.rxBuffer ++ input := by
  induction input using List.reverseRecOn with
  | nil => simp [feed]
  | append_singleton input b ih =>
      have hinv := h.feed input
      have hfeed : r.feed (input ++ [b]) = (r.feed input).byte b := feed_append r input [b]
      rw [hfeed] at hroom ⊢
      have hprev : (r.feed input).rxBuffer.length < modbusBufferLength := by
        -- a full buffer would have stayed as it was
        by_contra hfull
        have hstore : storeByte (r.feed input).rxBuffer b = (r.feed input).rxBuffer := if_neg hfull
        rw [byte, hstore, if_neg hinv.incomplete] at hroom
        exact hfull hroom
      have hstore : storeByte (r.feed input).rxBuffer b = (r.feed input).rxBuffer ++ [b] := if_pos hprev
      rw [← List.append_assoc, ← ih hprev, byte, hstore]
      split
      · simp
      · simp

/-- A stream holds at most as many frames as bytes. -/
theorem frames_length_le (r : Receiver) (input : List UInt8) :
    (r.feed input).frames.length ≤ r.frames.length + input.length := by
  induction input generalizing r with
  | nil => exact Nat.le_refl _
  | cons b input ih =>
      have hbyte : (r.byte b).frames.length ≤ r.frames.length + 1 := by
        unfold byte
        split
        · rw [List.length_append, List.length_singleton]
        · exact Nat.le_succ _
      calc ((r.byte b).feed input).frames.length ≤ (r.byte b).frames.length + input.length := ih _
        _ ≤ r.frames.length + (input.length + 1) := by omega

/-- Where the buffer is empty the frames are the stream. -/
theorem flatten_cut (h : (cut input).rxBuffer = []) : (cut input).frames.flatten = input := by
  have := flatten_feed inv_nil input (by rw [show feed ⟨[], []⟩ input = cut input from rfl, h]; decide)
  change (cut input).frames.flatten ++ (cut input).rxBuffer = input at this
  rwa [h, List.append_nil] at this

/-- One deliverable frame. -/
theorem feed_deliverable (fs : List (List UInt8)) {f : List UInt8} (h : Deliverable f) :
    feed ⟨fs, []⟩ f = ⟨fs ++ [f], []⟩ := by
  have hne : f ≠ [] := by
    rintro rfl
    exact not_complete_nil h.1
  have hcall : handleModbusFrame false [] f = .frame f [] := by
    have hf : Deliverable ([] ++ f) := h
    have := frame_of_deliverable [] hne hf
    rwa [List.nil_append, List.append_nil] at this
  rcases handleModbusFrame_eq [] f with ⟨hwait, -⟩ | ⟨bytes, rest, hframe, hrest, -⟩
  · rw [hcall] at hwait
    cases hwait
  · rw [hcall] at hframe
    cases hframe
    rw [feed_frames, hrest]
    rfl

/-- **A sequence of deliverable frames is cut into exactly these frames.** -/
theorem feed_flatten (fs gs : List (List UInt8)) (h : ∀ f ∈ gs, Deliverable f) :
    feed ⟨fs, []⟩ gs.flatten = ⟨fs ++ gs, []⟩ := by
  induction gs generalizing fs with
  | nil => simp [feed]
  | cons g gs ih =>
      rw [List.flatten_cons, feed_append, feed_deliverable fs (h g List.mem_cons_self),
        ih _ fun f hf => h f (List.mem_cons_of_mem g hf), List.append_assoc]
      rfl

theorem cut_flatten (gs : List (List UInt8)) (h : ∀ f ∈ gs, Deliverable f) :
    cut gs.flatten = ⟨gs, []⟩ :=
  feed_flatten [] gs h

end Receiver
end Modbus
end GasSensor
