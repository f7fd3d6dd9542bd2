/-
# What each handler answers

One equation for each handler of `source/Modbus_files/modbus.c` on a request
of sufficient length: the server it leaves and the single frame it transmits,
as a function of the address, the function code and the 16-bit fields of the
request.  No buffer, no bounds check and no checksum computation is left in
them.  Everything later in the development uses these equations instead of
unfolding a handler.
-/

import GasSensor.Modbus.Frame

namespace GasSensor
namespace Modbus

/-- The 16-bit field at byte `i`, most significant byte first. -/
def field (bytes : List UInt8) (i : ℕ) : ℕ := (word (bytes.getD i 0) (bytes.getD (i + 1) 0)).toNat

/-- The registers `start .. start + count - 1` of a table. -/
def registersFrom {α : Type*} {n : ℕ} (table : Fin n → α) (start count : ℕ) : List α :=
  ((List.ofFn table).drop start).take count

variable {n : ℕ}

theorem registersFrom_length {α : Type*} {table : Fin n → α} {start count : ℕ} (h : start + count ≤ n) :
    (registersFrom table start count).length = count := by
  rw [registersFrom, List.length_take, List.length_drop, List.length_ofFn]
  omega

theorem registersFrom_getElem? {α : Type*} {table : Fin n → α} {start count i : ℕ}
    (h : start + count ≤ n) (hi : i < count) :
    (registersFrom table start count)[i]? = some (table ⟨start + i, by omega⟩) := by
  rw [registersFrom, List.getElem?_take_of_lt hi, List.getElem?_drop, List.getElem?_ofFn,
    dif_pos (by omega)]

@[simp] theorem registersFrom_map {α β : Type*} (f : α → β) (table : Fin n → α) (start count : ℕ) :
    (registersFrom table start count).map f = registersFrom (f ∘ table) start count := by
  rw [registersFrom, registersFrom, List.map_take, List.map_drop, List.map_ofFn]

/-- An error response. -/
theorem modbusSendError_eq (address function errorCode : UInt8) :
    modbusSendError address function errorCode
      = .ok (withCRC [address, function ||| 0x80, errorCode]) :=
  finish_eq [address, function ||| 0x80, errorCode] 0 0

/-- **A read response.**  For a range inside a table of at most 120 registers the
8-bit response length does not wrap, no store leaves the array, and the frame
carries the byte count and the registers of the range in order. -/
theorem sendRegisters_eq (table : Fin n → UInt16) (address function : UInt8) {start count : ℕ}
    (hn : n ≤ 120) (h : start + count ≤ n) :
    sendRegisters table address function start count
      = .ok (withCRC ([address, function, UInt8.ofNat (count * 2)]
          ++ bytesOfWords (registersFrom table start count))) := by
  set header : List UInt8 := [address, function, UInt8.ofNat (count * 2)] with hheader
  set ws := registersFrom table start count with hws
  have hlen : ws.length = count := registersFrom_length h
  have hresp : responseLength count = 3 + count * 2 + 2 := Nat.mod_eq_of_lt (by omega)
  have hfill : writeFrom (List.replicate (3 + count * 2 + 2) 0) 0 header
      = .ok (header ++ List.replicate (count * 2 + 2) 0) := by
    rw [writeFrom_replicate _ _ (by simp [hheader]; omega)]
    congr 3
    rw [hheader, List.length_cons, List.length_cons, List.length_singleton]
    omega
  have hread : ∀ i w, ws[i]? = some w → readTable table (start + i) = .ok w := by
    intro i w hw
    have hi : i < count := hlen ▸ (List.getElem?_eq_some_iff.1 hw).1
    rw [hws, registersFrom_getElem? h hi, Option.some.injEq] at hw
    rw [readTable, dif_pos (by omega), hw]
  have hloop : (List.range count).foldlM (fun tx i => do
        let w ← readTable table (start + i)
        writeFrom tx (3 + i * 2) [hiByte w, loByte w]) (header ++ List.replicate (count * 2 + 2) 0)
      = .ok (header ++ bytesOfWords ws ++ [0, 0]) := by
    have hdrop : List.drop (3 + 2 * ws.length) (header ++ List.replicate (count * 2 + 2) 0) = [0, 0] := by
      rw [← show header.length = 3 from rfl, List.drop_append, List.drop_replicate, hlen]
      simp [show count * 2 + 2 - 2 * count = 2 by omega]
    have hfold := foldlM_writeWord (fun i => readTable table (start + i))
      (header ++ List.replicate (count * 2 + 2) 0) 3 hread
    rw [hlen] at hfold
    rw [hfold, writeFrom_eq _ (by simp [hheader]; omega), bytesOfWords_length, hdrop]
    rfl
  have hbody : 3 + count * 2 = (header ++ bytesOfWords ws).length := by
    rw [List.length_append, bytesOfWords_length, hlen]
    simp [hheader]
    omega
  rw [sendRegisters, hresp, ← hheader]
  simp only [hfill, Run.ok_bind]
  rw [hloop, Run.ok_bind, hbody]
  exact finish_eq (header ++ bytesOfWords ws) 0 0

/-- The echo of a write request. -/
theorem sendEcho_eq {buffer : List UInt8} (h : 6 ≤ buffer.length) :
    sendEcho buffer = .ok (withCRC (buffer.take 6)) := by
  have htake : (buffer.take 6).length = 6 := by
    rw [List.length_take]
    omega
  have hcopy : memcpy (List.replicate 8 0) buffer 6 = .ok (buffer.take 6 ++ [0, 0]) := by
    rw [memcpy, if_pos h, writeFrom_replicate _ _ (by omega), htake]
    rfl
  rw [sendEcho, hcopy]
  have := finish_eq (buffer.take 6) 0 0
  rwa [htake] at this

/-- A table with values stored from `start` on. -/
def storeFrom {α : Type*} (table : Fin 7 → α) (start : ℕ) (values : List α) (i : Fin 7) : α :=
  if start ≤ i.val then values.getD (i.val - start) (table i) else table i

/-- A loop that stores one register in each pass stores exactly the values, at
exactly the registers of the range. -/
theorem foldlM_writeTable {store : (Fin 7 → UInt16) → ℕ → Except Fault (Fin 7 → UInt16)}
    {values : List UInt16} {start : ℕ} (table : Fin 7 → UInt16) (h : start + values.length ≤ 7)
    (hstore : ∀ tbl i w, values[i]? = some w → store tbl i = writeTable tbl (start + i) w) :
    (List.range values.length).foldlM store table = .ok (storeFrom table start values) := by
  induction values using List.reverseRecOn with
  | nil =>
      change Except.ok table = _
      congr 1
      funext i
      simp [storeFrom]
  | append_singleton values w ih =>
      rw [List.length_append, List.length_singleton] at h
      have hinit : ∀ tbl i v, values[i]? = some v → store tbl i = writeTable tbl (start + i) v :=
        fun tbl i v hv => hstore tbl i v
          (by rw [List.getElem?_append_left (List.getElem?_eq_some_iff.1 hv).1, hv])
      rw [List.length_append, List.length_singleton, List.range_succ, Run.foldlM_concat,
        ih (by omega) hinit]
      change store _ values.length = _
      rw [hstore _ values.length w (by simp), writeTable, dif_pos (by omega)]
      congr 1
      funext i
      -- the new value sits at register `start + values.length`
      by_cases hi : i.val = start + values.length
      · have he : i = ⟨start + values.length, by omega⟩ := Fin.ext hi
        simp [he, storeFrom]
      · have hne : i ≠ ⟨start + values.length, by omega⟩ := fun he => hi (congrArg Fin.val he)
        rw [Function.update_of_ne hne, storeFrom, storeFrom]
        by_cases hs : start ≤ i.val
        · rw [if_pos hs, if_pos hs, List.getD_eq_getElem?_getD, List.getD_eq_getElem?_getD]
          rcases Nat.lt_or_ge (i.val - start) values.length with hlt | hge
          · rw [List.getElem?_append_left hlt]
          · rw [List.getElem?_eq_none hge, List.getElem?_eq_none (by simp; omega)]
        · rw [if_neg hs, if_neg hs]

/-- Storing one register. -/
theorem writeTable_eq (table : Fin 7 → UInt16) {address : ℕ} (h : address < 7) (value : UInt16) :
    writeTable table address value = .ok (storeFrom table address [value]) := by
  have hrun : (List.range [value].length).foldlM (fun tbl i => writeTable tbl (address + i) value) table
      = .ok (storeFrom table address [value]) := by
    refine foldlM_writeTable table (by simp; omega) ?_
    intro tbl i w hw
    obtain ⟨hi, rfl⟩ := List.getElem?_eq_some_iff.1 hw
    simp
  simpa [List.range_succ] using hrun

variable {buffer : List UInt8} {s : Server}

/-- The error response to a request. -/
def refusal (buffer : List UInt8) (errorCode : UInt8) : List UInt8 :=
  [buffer.getD 0 0, buffer.getD 1 0 ||| 0x80, errorCode]

/-- The response to a read request, from the table that was read. -/
def readResponse (buffer : List UInt8) (table : Fin n → UInt16) : List UInt8 :=
  [buffer.getD 0 0, buffer.getD 1 0, UInt8.ofNat (field buffer 4 * 2)]
    ++ bytesOfWords (registersFrom table (field buffer 2) (field buffer 4))

/-- A read of holding registers. -/
theorem modbusHandleReadHoldingRegister_eq (h : 8 ≤ buffer.length) :
    modbusHandleReadHoldingRegister buffer s
      = .ok (s, [withCRC (if field buffer 2 + field buffer 4 ≤ 7 then readResponse buffer s.holdingRegisters
          else refusal buffer errorIllegalDataAddress)]) := by
  have hr : ∀ i < 8, readAt buffer i = .ok (buffer.getD i 0) := fun i hi => readAt_getD (by omega) 0
  simp (disch := decide) only [modbusHandleReadHoldingRegister, hr, Run.ok_bind, modbusSendError_eq]
  change (if field buffer 2 + field buffer 4 ≤ 7 then _ else _) = _
  split
  next hle =>
    change (sendRegisters _ _ _ (field buffer 2) (field buffer 4) >>= _) = _
    rw [sendRegisters_eq _ _ _ (by decide) hle]
    rfl
  next => rfl

/-- The input registers an in-range read leaves: the low 16 bits of each
resistance. -/
def inputRegistersOf (resistanceArray : Strip → ℤ × ℤ) (i : Fin 8) : UInt16 :=
  UInt16.ofNat ((resistanceArray i).1 % 65536).toNat

/-- A read of input registers. -/
theorem modbusHandleReadInputRegister_eq (resistanceArray : Strip → ℤ × ℤ) (h : 8 ≤ buffer.length) :
    modbusHandleReadInputRegister resistanceArray buffer s
      = if field buffer 2 + field buffer 4 ≤ 8 then
          .ok ({ s with inputRegisters := inputRegistersOf resistanceArray },
            [withCRC (readResponse buffer (inputRegistersOf resistanceArray))])
        else .ok (s, [withCRC (refusal buffer errorIllegalDataAddress)]) := by
  have hr : ∀ i < 8, readAt buffer i = .ok (buffer.getD i 0) := fun i hi => readAt_getD (by omega) 0
  simp (disch := decide) only [modbusHandleReadInputRegister, hr, Run.ok_bind, modbusSendError_eq]
  change (if field buffer 2 + field buffer 4 ≤ 8 then _ else _) = _
  split
  next hle =>
    change (sendRegisters (inputRegistersOf resistanceArray) _ _ (field buffer 2) (field buffer 4) >>= _) = _
    rw [sendRegisters_eq _ _ _ (by decide) hle]
    rfl
  next => rfl

variable [Arithmetic]

/-- A write of one register. -/
theorem modbusHandleWriteSingleRegister_eq (h : 8 ≤ buffer.length) :
    modbusHandleWriteSingleRegister buffer buffer.length s
      = if field buffer 2 < 7 then
          .ok (s.applyRegisters (storeFrom s.holdingRegisters (field buffer 2)
            [word (buffer.getD 4 0) (buffer.getD 5 0)]), [withCRC (buffer.take 6)])
        else .ok (s, [withCRC (refusal buffer errorIllegalDataAddress)]) := by
  have hr : ∀ i < 8, readAt buffer i = .ok (buffer.getD i 0) := fun i hi => readAt_getD (by omega) 0
  rw [modbusHandleWriteSingleRegister, if_neg (by omega)]
  simp (disch := decide) only [hr, Run.ok_bind, modbusSendError_eq,
    sendEcho_eq (show 6 ≤ buffer.length by omega)]
  change (if field buffer 2 < 7 then _ else _) = _
  split
  next hlt =>
    change (writeTable _ (field buffer 2) _ >>= _) = _
    rw [writeTable_eq _ hlt]
    rfl
  next => rfl

/-- The values a write-multiple request carries. -/
def carriedValues (buffer : List UInt8) : List UInt16 :=
  wordsOfBytes ((buffer.drop 7).take (buffer.getD 6 0).toNat)

omit [Arithmetic] in
theorem carriedValues_length {k : ℕ} (hlen : buffer.length = 9 + (buffer.getD 6 0).toNat)
    (hk : (buffer.getD 6 0).toNat = k * 2) : (carriedValues buffer).length = k := by
  rw [carriedValues, wordsOfBytes_length, List.length_take, List.length_drop]
  omega

omit [Arithmetic] in
/-- Value `i` is carried in bytes `7 + i * 2` and `8 + i * 2`. -/
theorem carriedValues_getElem? {k i : ℕ} (hlen : buffer.length = 9 + (buffer.getD 6 0).toNat)
    (hk : (buffer.getD 6 0).toNat = k * 2) (hi : i < k) :
    (carriedValues buffer)[i]? = some (word (buffer.getD (7 + i * 2) 0) (buffer.getD (8 + i * 2) 0)) := by
  have hbyte : ∀ j < k * 2, ((buffer.drop 7).take (k * 2)).getD j 0 = buffer.getD (7 + j) 0 := by
    intro j hj
    rw [List.getD_eq_getElem?_getD, List.getElem?_take_of_lt hj, List.getElem?_drop,
      List.getD_eq_getElem?_getD]
  rw [carriedValues, hk, wordsOfBytes_getElem? (by rw [List.length_take, List.length_drop]; omega),
    hbyte _ (by omega), hbyte _ (by omega), show 7 + 2 * i = 7 + i * 2 by omega,
    show 7 + (2 * i + 1) = 8 + i * 2 by omega]

/-- The counts of a write-multiple request are as the code wants them. -/
def WellCounted (buffer : List UInt8) : Prop :=
  1 ≤ field buffer 4 ∧ field buffer 4 ≤ 123 ∧ (buffer.getD 6 0).toNat = field buffer 4 * 2 ∧
    field buffer 2 + field buffer 4 ≤ 7

instance (buffer : List UInt8) : Decidable (WellCounted buffer) :=
  inferInstanceAs (Decidable (_ ∧ _ ∧ _ ∧ _))

/-- A write of several registers. -/
theorem modbusHandleWriteMultipleRegisters_eq (hlen : buffer.length = 9 + (buffer.getD 6 0).toNat) :
    modbusHandleWriteMultipleRegisters buffer buffer.length s
      = if WellCounted buffer then
          .ok (s.applyRegisters (storeFrom s.holdingRegisters (field buffer 2) (carriedValues buffer)),
            [withCRC (buffer.take 6)])
        else .ok (s, [withCRC (refusal buffer errorIllegalDataAddress)]) := by
  have hr : ∀ i < 9, readAt buffer i = .ok (buffer.getD i 0) := fun i hi => readAt_getD (by omega) 0
  rw [modbusHandleWriteMultipleRegisters, if_neg (by omega)]
  simp (disch := decide) only [hr, Run.ok_bind, modbusSendError_eq,
    sendEcho_eq (show 6 ≤ buffer.length by omega)]
  change (if field buffer 4 < 1 ∨ field buffer 4 > 123 ∨ (buffer.getD 6 0).toNat ≠ field buffer 4 * 2
    then _ else if field buffer 2 + field buffer 4 ≤ 7 then _ else _) = _
  by_cases hbad : field buffer 4 < 1 ∨ field buffer 4 > 123 ∨ (buffer.getD 6 0).toNat ≠ field buffer 4 * 2
  · rw [if_pos hbad, if_neg (by unfold WellCounted; omega)]
    rfl
  · rw [if_neg hbad]
    by_cases hrange : field buffer 2 + field buffer 4 ≤ 7
    · have hk : (buffer.getD 6 0).toNat = field buffer 4 * 2 := by omega
      have hcount := carriedValues_length hlen hk
      rw [if_pos hrange, if_pos (by unfold WellCounted; omega)]
      change (List.foldlM _ _ (List.range (field buffer 4)) >>= _) = _
      rw [← hcount, foldlM_writeTable s.holdingRegisters
        (show field buffer 2 + (carriedValues buffer).length ≤ 7 by omega)]
      · rfl
      · intro tbl i w hw
        have hi : i < field buffer 4 := hcount ▸ (List.getElem?_eq_some_iff.1 hw).1
        rw [carriedValues_getElem? hlen hk hi, Option.some.injEq] at hw
        rw [readAt_getD (by omega) 0, readAt_getD (by omega) 0, ← hw]
        rfl
    · rw [if_neg hrange, if_neg (by unfold WellCounted; omega)]
      rfl

/-- How `Modbus_HandleRequest` chooses the handler, on a frame. -/
theorem modbusHandleRequest_eq (resistanceArray : Strip → ℤ × ℤ) (s : Server) (hlen : 8 ≤ buffer.length) :
    modbusHandleRequest resistanceArray buffer buffer.length s
      = if buffer.getD 0 0 ≠ modbusAddress then .ok (s, [])
        else if buffer.getD 1 0 = funcReadInputRegisters then
          modbusHandleReadInputRegister resistanceArray buffer s
        else if buffer.getD 1 0 = funcReadHoldingRegisters then modbusHandleReadHoldingRegister buffer s
        else if buffer.getD 1 0 = funcWriteSingleRegister then
          modbusHandleWriteSingleRegister buffer buffer.length s
        else if buffer.getD 1 0 = funcWriteMultipleRegisters then
          modbusHandleWriteMultipleRegisters buffer buffer.length s
        else .ok (s, [withCRC (refusal buffer errorIllegalFunction)]) := by
  rw [modbusHandleRequest, if_neg (by omega)]
  simp only [readAt_getD (show 0 < buffer.length by omega) 0,
    readAt_getD (show 1 < buffer.length by omega) 0, Run.ok_bind, modbusSendError_eq]
  rfl

/-- The write the server accepts from a frame: the first register and the values. -/
def acceptedWrite (buffer : List UInt8) : Option (ℕ × List UInt16) :=
  if buffer.getD 0 0 ≠ modbusAddress then none
  else if buffer.getD 1 0 = funcWriteSingleRegister ∧ field buffer 2 < 7 then
    some (field buffer 2, [word (buffer.getD 4 0) (buffer.getD 5 0)])
  else if buffer.getD 1 0 = funcWriteMultipleRegisters ∧ WellCounted buffer then
    some (field buffer 2, carriedValues buffer)
  else none

omit [Arithmetic] in
/-- An accepted write stays inside the table. -/
theorem acceptedWrite_le {start : ℕ} {values : List UInt16} (hb : Complete buffer)
    (h : acceptedWrite buffer = some (start, values)) : start + values.length ≤ 7 := by
  unfold acceptedWrite at h
  split_ifs at h with ha hsingle hmulti
  · cases h
    have := hsingle.2
    simp
    omega
  · cases h
    obtain ⟨hf, -, -, hcount, hle⟩ := hmulti
    rw [carriedValues_length (hb.length_eq hf) hcount]
    exact hle

/-- An accepted write stores its values, puts them into force and is echoed. -/
theorem modbusHandleRequest_of_write {resistanceArray : Strip → ℤ × ℤ} {start : ℕ}
    {values : List UInt16} (hb : Complete buffer) (h : acceptedWrite buffer = some (start, values)) :
    modbusHandleRequest resistanceArray buffer buffer.length s
      = .ok (s.applyRegisters (storeFrom s.holdingRegisters start values), [withCRC (buffer.take 6)]) := by
  unfold acceptedWrite at h
  rw [modbusHandleRequest_eq _ s hb.1]
  by_cases ha : buffer.getD 0 0 ≠ modbusAddress
  · rw [if_pos ha] at h
    cases h
  rw [if_neg ha] at h ⊢
  split_ifs at h with hsingle hmulti
  · obtain ⟨hf, hlt⟩ := hsingle
    cases h
    rw [hf, modbusHandleWriteSingleRegister_eq hb.1, if_pos hlt]
    rfl
  · obtain ⟨hf, hw⟩ := hmulti
    cases h
    rw [modbusHandleWriteMultipleRegisters_eq (hb.length_eq hf), if_pos hw, hf]
    rfl

/-- Every other frame changes at most the input registers. -/
theorem modbusHandleRequest_of_no_write (resistanceArray : Strip → ℤ × ℤ) (s : Server)
    (hb : Complete buffer) (h : acceptedWrite buffer = none) :
    ∃ inputRegisters out, modbusHandleRequest resistanceArray buffer buffer.length s
      = .ok ({ s with inputRegisters := inputRegisters }, out) := by
  unfold acceptedWrite at h
  rw [modbusHandleRequest_eq _ s hb.1]
  by_cases ha : buffer.getD 0 0 ≠ modbusAddress
  · rw [if_pos ha]
    exact ⟨s.inputRegisters, [], rfl⟩
  rw [if_neg ha] at h ⊢
  split_ifs with hin hhold hsingle hmulti
  · rw [modbusHandleReadInputRegister_eq _ hb.1]
    split_ifs
    · exact ⟨_, _, rfl⟩
    · exact ⟨s.inputRegisters, _, rfl⟩
  · rw [modbusHandleReadHoldingRegister_eq hb.1]
    exact ⟨s.inputRegisters, _, rfl⟩
  · have hlt : ¬ field buffer 2 < 7 := fun hlt => by
      rw [if_pos ⟨hsingle, hlt⟩] at h
      cases h
    rw [modbusHandleWriteSingleRegister_eq hb.1, if_neg hlt]
    exact ⟨s.inputRegisters, _, rfl⟩
  · have hw : ¬ WellCounted buffer := fun hw => by
      rw [if_neg (fun hs => hsingle hs.1), if_pos ⟨hmulti, hw⟩] at h
      cases h
    rw [modbusHandleWriteMultipleRegisters_eq (hb.length_eq hmulti), if_neg hw]
    exact ⟨s.inputRegisters, _, rfl⟩
  · exact ⟨s.inputRegisters, _, rfl⟩

end Modbus
end GasSensor
