/-
# Whether a call of the receive loop ever returns

`HandleModbusFrame` of `source/Modbus_files/modbus.c` on a stream of bytes without
end.  The number of bytes it stores stops at `MODBUS_BUFFER_LENGTH`, and the call
returns when that number equals the length it expects from the header.

A header asks for at most 256 bytes unless it is a write-multiple header with a byte
count above 247 (`expectedLength_le_iff`).  Then the loop keeps 256 bytes, drops all
others, and waits for ever (`not_returnsWithin`); on any other stream the call
returns with the last byte it expects.
-/

import GasSensor.Modbus.Receiver

namespace GasSensor
namespace Modbus

/-- The first `n` bytes of a stream. -/
def arrived (stream : ℕ → UInt8) (n : ℕ) : List UInt8 := (List.range n).map stream

/-- A call of `HandleModbusFrame` at the beginning of the stream has returned when `n`
bytes have arrived. -/
def ReturnsWithin (modbusParamChanged : Bool) (stream : ℕ → UInt8) (n : ℕ) : Prop :=
  handleModbusFrame modbusParamChanged [] (arrived stream n) ≠ .waiting

/-- The bytes 1 and 6 of a write-multiple header whose data does not fit the buffer. -/
def Oversized (functionCode byteCount : UInt8) : Prop :=
  functionCode = funcWriteMultipleRegisters ∧ 247 < byteCount.toNat

instance decidableOversized (functionCode byteCount : UInt8) : Decidable (Oversized functionCode byteCount) :=
  inferInstanceAs (Decidable (_ ∧ _))

variable {stream : ℕ → UInt8}

@[simp] theorem arrived_length (stream : ℕ → UInt8) (n : ℕ) : (arrived stream n).length = n := by
  simp [arrived]

theorem arrived_getD {n i : ℕ} (h : i < n) : (arrived stream n).getD i 0 = stream i := by
  simp [arrived, List.getD_eq_getElem?_getD, List.getElem?_range h]

theorem arrived_succ (stream : ℕ → UInt8) (n : ℕ) : arrived stream (n + 1) = arrived stream n ++ [stream n] := by
  simp [arrived, List.range_succ]

/-- **What a header asks for fits the buffer** unless it is oversized. -/
theorem expectedLength_le_iff (header : List UInt8) :
    expectedLength header ≤ modbusBufferLength ↔ ¬ Oversized (header.getD 1 0) (header.getD 6 0) := by
  unfold expectedLength Oversized modbusBufferLength
  by_cases hcode : header.getD 1 0 = funcWriteMultipleRegisters
  · rw [if_pos hcode]
    simp only [hcode, true_and]
    omega
  · rw [if_neg hcode]
    exact iff_of_true (by decide) fun h => hcode h.1

/-- As soon as the expected number of bytes has arrived they are delivered. -/
theorem deliverable_arrived {n : ℕ} (h8 : 8 ≤ n) (hn : expectedLength (arrived stream 8) = n)
    (hle : n ≤ modbusBufferLength) : Deliverable (arrived stream n) := by
  have hexp : expectedLength (arrived stream n) = expectedLength (arrived stream 8) := by
    unfold expectedLength
    rw [arrived_getD (show 1 < n by omega), arrived_getD (show 6 < n by omega),
      arrived_getD (show 1 < 8 by omega), arrived_getD (show 6 < 8 by omega)]
  refine ⟨⟨?_, ?_⟩, ?_⟩
  · rw [arrived_length]
    exact h8
  · rw [arrived_length, hexp, hn]
  · rw [arrived_length]
    exact hle

theorem eight_le_expectedLength (header : List UInt8) : 8 ≤ expectedLength header := by
  unfold expectedLength
  split
  · omega
  · exact le_rfl

/-- A call returns within the length of the buffer if the header fits. -/
theorem returnsWithin_of_not_oversized (h : ¬ Oversized (stream 1) (stream 6)) :
    ReturnsWithin false stream modbusBufferLength := by
  have hle : expectedLength (arrived stream 8) ≤ modbusBufferLength := by
    rw [expectedLength_le_iff, arrived_getD (show 1 < 8 by omega), arrived_getD (show 6 < 8 by omega)]
    exact h
  obtain ⟨more, hmore⟩ := Nat.exists_eq_add_of_le hle
  have hdel := deliverable_arrived (eight_le_expectedLength _) rfl hle
  have hsplit : ∃ rest, arrived stream modbusBufferLength
      = arrived stream (expectedLength (arrived stream 8)) ++ rest := by
    refine ⟨(List.range more).map fun i => stream (expectedLength (arrived stream 8) + i), ?_⟩
    rw [hmore, arrived, List.range_add, List.map_append, List.map_map]
    rfl
  obtain ⟨rest, hrest⟩ := hsplit
  have hne : arrived stream (expectedLength (arrived stream 8)) ≠ [] := by
    intro hnil
    have hlen := arrived_length stream (expectedLength (arrived stream 8))
    rw [hnil] at hlen
    have := eight_le_expectedLength (arrived stream 8)
    rw [← hlen] at this
    exact absurd this (by decide)
  rw [← List.nil_append (arrived stream _)] at hdel
  have hframe := frame_of_deliverable rest hne hdel
  rw [List.nil_append] at hframe
  rw [ReturnsWithin, hrest, hframe]
  exact Received.noConfusion

/-- The buffer never holds as many bytes as an oversized header asks for. -/
theorem not_complete_arrived (h : Oversized (stream 1) (stream 6)) {n : ℕ} (hn : n ≤ modbusBufferLength) :
    ¬ Complete (arrived stream n) := by
  rintro ⟨h8, heq⟩
  rw [arrived_length] at h8 heq
  have hgt : ¬ expectedLength (arrived stream n) ≤ modbusBufferLength := by
    rw [expectedLength_le_iff, arrived_getD (show 1 < n by omega), arrived_getD (show 6 < n by omega)]
    exact not_not.2 h
  omega

/-- From any point on, with the first 256 bytes at most in the buffer, the loop waits. -/
theorem waiting_of_oversized (h : Oversized (stream 1) (stream 6)) (k n : ℕ) :
    handleModbusFrame false (arrived stream (min k modbusBufferLength)) ((List.range' k n).map stream)
      = .waiting := by
  induction n generalizing k with
  | zero => rfl
  | succ n ih =>
      have hstore : (if (arrived stream (min k modbusBufferLength)).length < modbusBufferLength
          then arrived stream (min k modbusBufferLength) ++ [stream k]
          else arrived stream (min k modbusBufferLength)) = arrived stream (min (k + 1) modbusBufferLength) := by
        rw [arrived_length]
        by_cases hk : k < modbusBufferLength
        · rw [min_eq_left hk.le, if_pos hk, min_eq_left (Nat.succ_le_of_lt hk), arrived_succ]
        · rw [min_eq_right (not_lt.1 hk), if_neg (lt_irrefl _), min_eq_right (by omega)]
      rw [List.range'_succ, List.map_cons, handleModbusFrame, if_neg Bool.false_ne_true]
      dsimp only
      rw [hstore, if_neg (not_complete_arrived h (min_le_right _ _))]
      exact ih (k + 1)

/-- **An oversized header is waited for in vain.** -/
theorem not_returnsWithin (h : Oversized (stream 1) (stream 6)) (n : ℕ) : ¬ ReturnsWithin false stream n := by
  have hwait := waiting_of_oversized h 0 n
  rw [← List.range_eq_range'] at hwait
  exact not_not.2 hwait

/-- A pending parameter change ends a call at the first byte. -/
theorem returnsWithin_of_changed (stream : ℕ → UInt8) {n : ℕ} (hn : 0 < n) : ReturnsWithin true stream n := by
  obtain ⟨n, rfl⟩ := Nat.exists_eq_add_of_lt hn
  rw [ReturnsWithin, arrived, Nat.zero_add, List.range_succ_eq_map, List.map_cons, handleModbusFrame, if_pos rfl]
  exact Received.noConfusion

/-- **The receive loop makes progress exactly on headers that fit.**  On every stream a
call returns within 256 bytes, and the expected length fits the buffer, if and only
if the header is not oversized; a call that does not return within 256 bytes never
returns. -/
theorem handleModbusFrame_progress_iff (modbusParamChanged : Bool) (stream : ℕ → UInt8) :
    (ReturnsWithin modbusParamChanged stream modbusBufferLength ↔
      modbusParamChanged = true ∨ ¬ Oversized (stream 1) (stream 6)) ∧
    (expectedLength (arrived stream 8) ≤ modbusBufferLength ↔ ¬ Oversized (stream 1) (stream 6)) ∧
    ((∃ n, ReturnsWithin modbusParamChanged stream n) →
      ReturnsWithin modbusParamChanged stream modbusBufferLength) := by
  have hchanged : ReturnsWithin true stream modbusBufferLength := returnsWithin_of_changed stream (by decide)
  refine ⟨?_, ?_, ?_⟩
  · cases modbusParamChanged with
    | true => exact iff_of_true hchanged (.inl rfl)
    | false =>
        constructor
        · exact fun hret => .inr fun h => not_returnsWithin h _ hret
        · rintro (h | h)
          · cases h
          · exact returnsWithin_of_not_oversized h
  · rw [expectedLength_le_iff, arrived_getD (show 1 < 8 by omega), arrived_getD (show 6 < 8 by omega)]
  · rintro ⟨n, hn⟩
    cases modbusParamChanged with
    | true => exact hchanged
    | false => exact returnsWithin_of_not_oversized fun h => not_returnsWithin h n hn

/-- A write-multiple header that announces 248 bytes, and zeros after it. -/
def write248 : ℕ → UInt8 := fun i => [0x01, 0x10, 0x00, 0x00, 0x00, 0x7C, 0xF8].getD i 0

/-- **A header for 124 registers blocks the server for ever.** -/
theorem write248_never_returns : ¬ ∃ n, ReturnsWithin false write248 n := by
  rintro ⟨n, hn⟩
  have hoversized : Oversized (write248 1) (write248 6) := by decide
  exact not_returnsWithin hoversized n hn

end Modbus
end GasSensor
