/-
# The handlers stay inside the request and their buffers

`Modbus_HandleRequest` of `source/Modbus_files/modbus.c` gets a pointer into the receive
buffer and the length of the frame.  The last two bytes of the frame are its checksum, and
behind them stand bytes that were not received.

Every access of the model is checked, so a request that ends without a fault has stayed
inside all arrays.  `modbusHandleRequest_of_take_eq` is about the request itself: what the
handlers do on a frame they do on any buffer with the same bytes before the checksum, even
on one that ends there.
-/

import GasSensor.Modbus.Respond

namespace GasSensor
namespace Modbus

variable {buffer buffer' tx tx' : List UInt8} {n k : ℕ} {s : Server}

/-- The echo of a write request reads six bytes. -/
theorem sendEcho_of_take_eq (h : buffer.take n = buffer'.take n) (hn : 6 ≤ n) :
    sendEcho buffer = sendEcho buffer' := by
  rw [sendEcho, sendEcho, memcpy_congr h hn]

/-- A read of holding registers reads six bytes. -/
theorem modbusHandleReadHoldingRegister_of_take_eq (h : buffer.take n = buffer'.take n) (hn : 6 ≤ n) :
    modbusHandleReadHoldingRegister buffer s = modbusHandleReadHoldingRegister buffer' s := by
  have hr : ∀ i < 6, readAt buffer i = readAt buffer' i := fun i hi => readAt_congr h (by omega)
  simp (disch := decide) only [modbusHandleReadHoldingRegister, hr]

/-- A read of input registers reads six bytes. -/
theorem modbusHandleReadInputRegister_of_take_eq (resistanceArray : Strip → ℤ × ℤ)
    (h : buffer.take n = buffer'.take n) (hn : 6 ≤ n) :
    modbusHandleReadInputRegister resistanceArray buffer s
      = modbusHandleReadInputRegister resistanceArray buffer' s := by
  have hr : ∀ i < 6, readAt buffer i = readAt buffer' i := fun i hi => readAt_congr h (by omega)
  simp (disch := decide) only [modbusHandleReadInputRegister, hr]

variable [Arithmetic]

/-- A write of one register reads six bytes. -/
theorem modbusHandleWriteSingleRegister_of_take_eq (h : buffer.take n = buffer'.take n) (hn : 6 ≤ n)
    (length : ℕ) :
    modbusHandleWriteSingleRegister buffer length s = modbusHandleWriteSingleRegister buffer' length s := by
  have hr : ∀ i < 6, readAt buffer i = readAt buffer' i := fun i hi => readAt_congr h (by omega)
  simp (disch := decide) only [modbusHandleWriteSingleRegister, hr, sendEcho_of_take_eq h hn]

/-- **A write of several registers** reads seven bytes and the values its byte count
announces: the loop is entered only if that is two bytes for each register. -/
theorem modbusHandleWriteMultipleRegisters_of_take_eq (h : buffer.take n = buffer'.take n)
    (hn : n = 7 + (buffer.getD 6 0).toNat) (h7 : 7 ≤ buffer.length) (length : ℕ) :
    modbusHandleWriteMultipleRegisters buffer length s
      = modbusHandleWriteMultipleRegisters buffer' length s := by
  have hr : ∀ i < n, readAt buffer' i = readAt buffer i := fun i hi => (readAt_congr h hi).symm
  have hhead : ∀ i < 7, readAt buffer' i = readAt buffer i := fun i hi => hr i (by omega)
  have hget : ∀ i < 7, readAt buffer i = .ok (buffer.getD i 0) := fun i hi => readAt_getD (by omega) 0
  have hecho := sendEcho_of_take_eq h (by omega)
  unfold modbusHandleWriteMultipleRegisters
  by_cases h9 : length < 9
  · rw [if_pos h9, if_pos h9]
  rw [if_neg h9, if_neg h9]
  simp (disch := omega) only [hhead, hget, Run.ok_bind, ← hecho]
  by_cases hbad : field buffer 4 < 1 ∨ field buffer 4 > 123 ∨ (buffer.getD 6 0).toNat ≠ field buffer 4 * 2
  · exact (if_pos hbad).trans (if_pos hbad).symm
  by_cases hrange : field buffer 2 + field buffer 4 ≤ 7
  · refine ((if_neg hbad).trans (if_pos hrange)).trans (((if_neg hbad).trans (if_pos hrange)).trans ?_).symm
    congr 1
    refine (Run.foldlM_congr (fun i hi table => ?_) s.holdingRegisters).symm
    have hlt : i < field buffer 4 := List.mem_range.1 hi
    rw [hr (7 + i * 2) (by omega), hr (8 + i * 2) (by omega)]
  · exact ((if_neg hbad).trans (if_neg hrange)).trans ((if_neg hbad).trans (if_neg hrange)).symm

/-- **The handlers read nothing from the checksum on.**  They do the same on every buffer that
begins with the bytes before it. -/
theorem modbusHandleRequest_of_take_eq (resistanceArray : Strip → ℤ × ℤ) (hb : Complete buffer)
    (h : buffer.take (buffer.length - 2) = buffer'.take (buffer.length - 2)) :
    modbusHandleRequest resistanceArray buffer buffer.length s
      = modbusHandleRequest resistanceArray buffer' buffer.length s := by
  have h8 : 8 ≤ buffer.length := hb.1
  have h6 : 6 ≤ buffer.length - 2 := by omega
  have hr : ∀ i < 6, readAt buffer' i = .ok (buffer.getD i 0) := fun i hi =>
    (readAt_congr h (by omega)).symm.trans (readAt_getD (by omega) 0)
  rw [modbusHandleRequest_eq resistanceArray s h8, modbusHandleRequest,
    if_neg (show ¬ buffer.length < 8 by omega)]
  simp (disch := decide) only [hr, Run.ok_bind, modbusSendError_eq]
  split_ifs with ha hin hhold hsingle hmulti
  · rfl
  · exact modbusHandleReadInputRegister_of_take_eq resistanceArray h h6
  · exact modbusHandleReadHoldingRegister_of_take_eq h h6
  · exact modbusHandleWriteSingleRegister_of_take_eq h h6 _
  · have hlen := hb.length_eq hmulti
    exact modbusHandleWriteMultipleRegisters_of_take_eq h (by omega) (by omega) _
  · rfl

omit [Arithmetic] in
/-- Stores keep the length of the array. -/
theorem writeFrom_length {vs : List UInt8} (h : writeFrom tx k vs = .ok tx') : tx'.length = tx.length := by
  induction vs generalizing tx k with
  | nil =>
      cases h
      rfl
  | cons v vs ih =>
      obtain ⟨cells, hwrite, h⟩ := Run.bind_eq_ok.1 h
      rw [ih h, ← (set_of_writeAt hwrite).2, List.length_set]

omit [Arithmetic] in
/-- A read response is a whole `txBuffer`. -/
theorem sendRegisters_length {m : ℕ} {table : Fin m → UInt16} {address function : UInt8} {start count : ℕ}
    {frame : List UInt8} (h : sendRegisters table address function start count = .ok frame) :
    frame.length = responseLength count := by
  obtain ⟨tx, hheader, h⟩ := Run.bind_eq_ok.1 h
  obtain ⟨tx', hloop, h⟩ := Run.bind_eq_ok.1 h
  obtain ⟨crc, -, h⟩ := Run.bind_eq_ok.1 h
  have hkeep : tx'.length = tx.length := by
    refine Run.foldlM_invariant (I := fun cells => cells.length = tx.length) ?_ rfl hloop
    intro cells i cells' hcells hstep
    obtain ⟨w, -, hstep⟩ := Run.bind_eq_ok.1 hstep
    exact (writeFrom_length hstep).trans hcells
  rw [writeFrom_length h, hkeep, writeFrom_length hheader, List.length_replicate]

/-- The frame is a read of registers that all exist, for which a handler fills `txBuffer`. -/
def ReadsRegisters (bytes : List UInt8) : Prop :=
  bytes.getD 0 0 = modbusAddress ∧
    (bytes.getD 1 0 = funcReadHoldingRegisters ∧ field bytes 2 + field bytes 4 ≤ 7 ∨
      bytes.getD 1 0 = funcReadInputRegisters ∧ field bytes 2 + field bytes 4 ≤ 8)

instance readsRegistersDecidable (bytes : List UInt8) : Decidable (ReadsRegisters bytes) :=
  inferInstanceAs (Decidable (_ ∧ (_ ∧ _ ∨ _ ∧ _)))

/-- A handler that fills `txBuffer` transmits it. -/
theorem length_of_readsRegisters {resistanceArray : Strip → ℤ × ℤ} {s' : Server} {out : List (List UInt8)}
    (h8 : 8 ≤ buffer.length) (h : ReadsRegisters buffer)
    (hok : modbusHandleRequest resistanceArray buffer buffer.length s = .ok (s', out)) :
    ∃ frame, out = [frame] ∧ frame.length = responseLength (field buffer 4) := by
  have hr : ∀ i < 8, readAt buffer i = .ok (buffer.getD i 0) := fun i hi => readAt_getD (by omega) 0
  obtain ⟨haddress, hread⟩ := h
  rw [modbusHandleRequest_eq _ _ h8, if_neg (not_not.2 haddress)] at hok
  rcases hread with ⟨hf, hrange⟩ | ⟨hf, hrange⟩
  · rw [if_neg (by rw [hf]; decide), if_pos hf] at hok
    simp (disch := decide) only [modbusHandleReadHoldingRegister, hr, Run.ok_bind] at hok
    obtain ⟨frame, hframe, hok⟩ := Run.bind_eq_ok.1 ((if_pos hrange).symm.trans hok)
    cases hok
    exact ⟨frame, rfl, sendRegisters_length hframe⟩
  · rw [if_pos hf] at hok
    simp (disch := decide) only [modbusHandleReadInputRegister, hr, Run.ok_bind] at hok
    obtain ⟨frame, hframe, hok⟩ := Run.bind_eq_ok.1 ((if_pos hrange).symm.trans hok)
    cases hok
    exact ⟨frame, rfl, sendRegisters_length hframe⟩

omit [Arithmetic] in
/-- No 8-bit length of a read response wraps. -/
theorem responseLength_eq {buffer : List UInt8} (h : ReadsRegisters buffer) :
    responseLength (field buffer 4) = 5 + 2 * field buffer 4 := by
  have hle : field buffer 4 ≤ 8 := by
    rcases h.2 with ⟨-, hrange⟩ | ⟨-, hrange⟩ <;> omega
  rw [responseLength, Nat.mod_eq_of_lt (by omega)]
  omega

/-- **Every access is in bounds, whatever the frame holds.**  Cut off before its checksum, the
frame is still handled without a fault, and so it is with anything behind: no read of the
request reaches the checksum, and no other access leaves its array.  A response with
registers fills its buffer of `5 + 2 * registerCount` bytes, which the 8-bit length holds. -/
theorem modbusHandleRequest_inBounds (resistanceArray : Strip → ℤ × ℤ) (s : Server) (f : Frame) :
    ∃ s' out,
      (∀ tail, modbusHandleRequest resistanceArray (f.bytes.take (f.bytes.length - 2) ++ tail) f.bytes.length s
        = .ok (s', out)) ∧
      (ReadsRegisters f.bytes → responseLength (field f.bytes 4) = 5 + 2 * field f.bytes 4 ∧
        ∃ frame, out = [frame] ∧ frame.length = responseLength (field f.bytes 4)) := by
  have hb := f.deliverable.1
  obtain ⟨s', out, hok⟩ : ∃ s' out,
      modbusHandleRequest resistanceArray f.bytes f.bytes.length s = .ok (s', out) := by
    cases hw : acceptedWrite f.bytes with
    | none =>
        obtain ⟨inputRegisters, out, hreq⟩ := modbusHandleRequest_of_no_write resistanceArray s hb hw
        exact ⟨_, out, hreq⟩
    | some w => exact ⟨_, _, modbusHandleRequest_of_write hb hw⟩
  refine ⟨s', out, fun tail => ?_, fun hread =>
    ⟨responseLength_eq hread, length_of_readsRegisters hb.1 hread hok⟩⟩
  have hlen : (f.bytes.take (f.bytes.length - 2)).length = f.bytes.length - 2 :=
    List.length_take_of_le (Nat.sub_le _ _)
  rw [← modbusHandleRequest_of_take_eq resistanceArray hb (List.take_left' hlen).symm, hok]

end Modbus
end GasSensor
