/-
# The register machine behind the server

What the Modbus server is for: a machine with seven holding registers that can
be read and written and eight input registers that can be read.  `Machine`
knows nothing of bytes: registers are numbers, a request names a start and a
count, and `Machine.respond` says what is stored and answered.

`modbusHandleRequest_refines` connects it to the code.  `Request.decode` and
`Answer.decode` read a request and a response the way the other side of the
line does, and `machineOf` forgets everything of the server but the registers
and the flag.
-/

import GasSensor.Modbus.Respond

namespace GasSensor
namespace Modbus

/-- The registers, and whether a write is waiting to be put into force. -/
structure Machine where
  holding : Fin 7 → ℕ
  input : Fin 8 → ℕ
  changed : Bool

/-- What can be asked. -/
inductive Request
  | readHolding (start count : ℕ)
  | readInput (start count : ℕ)
  | writeSingle (address value : ℕ)
  | writeMultiple (start count byteCount : ℕ) (values : List ℕ)
  | unknown (function : UInt8)

/-- What can be answered. -/
inductive Answer
  | registers (function : UInt8) (values : List ℕ)
  | written (function : UInt8) (start valueOrCount : ℕ)
  | exception (function code : UInt8)
  deriving DecidableEq

/-- Store values at consecutive holding registers and note the change. -/
def Machine.store (m : Machine) (start : ℕ) (values : List ℕ) : Machine :=
  { m with holding := storeFrom m.holding start values, changed := true }

/-- A request that stores something. -/
def Request.Accepted : Request → Prop
  | .writeSingle address _ => address < 7
  | .writeMultiple start count byteCount _ =>
      1 ≤ count ∧ count ≤ 123 ∧ byteCount = 2 * count ∧ start + count ≤ 7
  | _ => False

/-- An exception: the function code with its top bit set. -/
def Answer.refuse (function code : UInt8) : Answer := .exception (function ||| 0x80) code

/-- One request.  A read answers the registers of its range, none if the count
is 0.  A range that leaves the table, or a write-multiple request whose counts
disagree, is answered by exception 2, an unknown function by exception 1; neither
changes anything. -/
def Machine.respond (m : Machine) (q : Request) : Machine × Answer :=
  match q with
  | .readHolding start count =>
      (m, if start + count ≤ 7 then .registers funcReadHoldingRegisters (registersFrom m.holding start count)
        else .refuse funcReadHoldingRegisters errorIllegalDataAddress)
  | .readInput start count =>
      (m, if start + count ≤ 8 then .registers funcReadInputRegisters (registersFrom m.input start count)
        else .refuse funcReadInputRegisters errorIllegalDataAddress)
  | .writeSingle address value =>
      if address < 7 then (m.store address [value], .written funcWriteSingleRegister address value)
      else (m, .refuse funcWriteSingleRegister errorIllegalDataAddress)
  | .writeMultiple start count byteCount values =>
      if 1 ≤ count ∧ count ≤ 123 ∧ byteCount = 2 * count ∧ start + count ≤ 7 then
        (m.store start values, .written funcWriteMultipleRegisters start count)
      else (m, .refuse funcWriteMultipleRegisters errorIllegalDataAddress)
  | .unknown function => (m, .refuse function errorIllegalFunction)

/-- The request a frame carries. -/
def Request.decode (bytes : List UInt8) : Request :=
  let function := bytes.getD 1 0
  if function = funcReadInputRegisters then .readInput (field bytes 2) (field bytes 4)
  else if function = funcReadHoldingRegisters then .readHolding (field bytes 2) (field bytes 4)
  else if function = funcWriteSingleRegister then .writeSingle (field bytes 2) (field bytes 4)
  else if function = funcWriteMultipleRegisters then
    .writeMultiple (field bytes 2) (field bytes 4) (bytes.getD 6 0).toNat
      ((carriedValues bytes).map UInt16.toNat)
  else .unknown function

/-- The answer that the bytes of a response between address and CRC carry. -/
def Answer.decode : List UInt8 → Option Answer
  | function :: payload =>
      if function &&& 0x80 ≠ 0 then
        match payload with
        | [code] => some (.exception function code)
        | _ => none
      else if function = funcReadHoldingRegisters ∨ function = funcReadInputRegisters then
        match payload with
        | byteCount :: data =>
            if data.length = byteCount.toNat ∧ data.length % 2 = 0 then
              some (.registers function ((wordsOfBytes data).map UInt16.toNat))
            else none
        | [] => none
      else if payload.length = 4 then some (.written function (field payload 0) (field payload 2))
      else none
  | [] => none

/-- A response with an exception. -/
theorem decode_refusal (buffer : List UInt8) (code : UInt8) :
    Answer.decode (refusal buffer code).tail = some (.refuse (buffer.getD 1 0) code) := by
  have htop : ∀ x : UInt8, (x ||| 0x80) &&& 0x80 ≠ 0 := by
    intro x h
    have hbits : ∀ b : BitVec 8, (b ||| 0x80#8) &&& 0x80#8 ≠ 0#8 := by decide
    exact hbits x.toBitVec (congrArg UInt8.toBitVec h)
  rw [refusal, List.tail_cons, Answer.decode, if_pos (htop _)]
  rfl

/-- A response with registers. -/
theorem decode_readResponse {n : ℕ} {buffer : List UInt8} {table : Fin n → UInt16} (hn : n ≤ 120)
    (hf : buffer.getD 1 0 = funcReadHoldingRegisters ∨ buffer.getD 1 0 = funcReadInputRegisters)
    (h : field buffer 2 + field buffer 4 ≤ n) :
    Answer.decode (readResponse buffer table).tail
      = some (.registers (buffer.getD 1 0)
          (registersFrom (UInt16.toNat ∘ table) (field buffer 2) (field buffer 4))) := by
  have htop : ¬ buffer.getD 1 0 &&& 0x80 ≠ 0 := by
    rcases hf with hf | hf <;> rw [hf] <;> decide
  have hcount : (UInt8.ofNat (field buffer 4 * 2)).toNat = field buffer 4 * 2 := by
    rw [UInt8.toNat_ofNat']
    omega
  simp only [readResponse, List.cons_append, List.nil_append, List.tail_cons]
  rw [Answer.decode.eq_def]
  dsimp only
  have hdata : (bytesOfWords (registersFrom table (field buffer 2) (field buffer 4))).length
      = field buffer 4 * 2 := by rw [bytesOfWords_length, registersFrom_length h, Nat.mul_comm]
  rw [if_neg htop, if_pos hf, if_pos (by rw [hdata, hcount]; exact ⟨rfl, Nat.mul_mod_left _ _⟩),
    wordsOfBytes_bytesOfWords, registersFrom_map]

/-- The echo of a write. -/
theorem decode_echo {buffer : List UInt8} (h : 6 ≤ buffer.length)
    (hf : buffer.getD 1 0 = funcWriteSingleRegister ∨ buffer.getD 1 0 = funcWriteMultipleRegisters) :
    Answer.decode (buffer.take 6).tail
      = some (.written (buffer.getD 1 0) (field buffer 2) (field buffer 4)) := by
  match buffer, h, hf with
  | b₀ :: b₁ :: b₂ :: b₃ :: b₄ :: b₅ :: rest, _, hf =>
      have hb : b₁ = funcWriteSingleRegister ∨ b₁ = funcWriteMultipleRegisters := hf
      rcases hb with rfl | rfl <;> rfl

/-- What the machine sees of the server: the registers as numbers, the present
resistances as its input registers, and the flag. -/
def machineOf (resistanceArray : Strip → ℤ × ℤ) (s : Server) : Machine where
  holding := fun i => (s.holdingRegisters i).toNat
  input := fun i => (resistanceArray i).1.toNat
  changed := s.modbusParamChanged

section
variable [Arithmetic]

/-- Storing words is storing their numbers. -/
theorem machineOf_applyRegisters (resistanceArray : Strip → ℤ × ℤ) (s : Server) (start : ℕ)
    (values : List UInt16) :
    machineOf resistanceArray (s.applyRegisters (storeFrom s.holdingRegisters start values))
      = (machineOf resistanceArray s).store start (values.map UInt16.toNat) := by
  simp only [machineOf, Server.applyRegisters, Machine.store, Machine.mk.injEq, and_true]
  funext i
  rw [storeFrom, storeFrom]
  split
  · rw [List.getD_eq_getElem?_getD, List.getD_eq_getElem?_getD, List.getElem?_map]
    cases values[i.val - start]? <;> rfl
  · rfl

omit [Arithmetic] in
/-- Resistances that fit are served unchanged. -/
theorem toNat_comp_inputRegistersOf {resistanceArray : Strip → ℤ × ℤ}
    (h : ∀ i, 0 ≤ (resistanceArray i).1 ∧ (resistanceArray i).1 ≤ 65535) :
    UInt16.toNat ∘ inputRegistersOf resistanceArray = fun i => (resistanceArray i).1.toNat := by
  funext i
  have := h i
  rw [Function.comp_apply, inputRegistersOf, UInt16.toNat_ofNat']
  omega

/-- **Response and server after a request agree with the machine.**  The response
starts with the address and decodes to the machine's answer, and the registers
left are the machine's.  A write that is accepted is echoed and its registers
are put into the parameters; nothing else touches the parameters. -/
structure Simulates (resistanceArray : Strip → ℤ × ℤ) (s : Server) (buffer : List UInt8) (s' : Server)
    (body : List UInt8) : Prop where
  address : body.head? = some modbusAddress
  answer : Answer.decode body.tail
    = some ((machineOf resistanceArray s).respond (Request.decode buffer)).2
  registers : machineOf resistanceArray s'
    = ((machineOf resistanceArray s).respond (Request.decode buffer)).1
  written : (Request.decode buffer).Accepted →
    body = buffer.take 6 ∧ s'.params = modbusUpdateParameters s'.holdingRegisters s.params
  kept : ¬ (Request.decode buffer).Accepted → s'.params = s.params

variable {resistanceArray : Strip → ℤ × ℤ} {s : Server} {buffer : List UInt8}

/-- A refused request. -/
theorem simulates_refusal {code : UInt8} (ha : buffer.getD 0 0 = modbusAddress)
    (hr : (machineOf resistanceArray s).respond (Request.decode buffer)
      = (machineOf resistanceArray s, .refuse (buffer.getD 1 0) code))
    (hacc : ¬ (Request.decode buffer).Accepted) :
    Simulates resistanceArray s buffer s (refusal buffer code) where
  address := by rw [refusal, ha]; rfl
  answer := by rw [decode_refusal, hr]
  registers := by rw [hr]
  written h := absurd h hacc
  kept _ := rfl

/-- A read inside its table. -/
theorem simulates_read {n : ℕ} {table : Fin n → UInt16} {s' : Server} (hn : n ≤ 120)
    (ha : buffer.getD 0 0 = modbusAddress)
    (hf : buffer.getD 1 0 = funcReadHoldingRegisters ∨ buffer.getD 1 0 = funcReadInputRegisters)
    (h : field buffer 2 + field buffer 4 ≤ n)
    (hr : (machineOf resistanceArray s).respond (Request.decode buffer)
      = (machineOf resistanceArray s, .registers (buffer.getD 1 0)
          (registersFrom (UInt16.toNat ∘ table) (field buffer 2) (field buffer 4))))
    (hacc : ¬ (Request.decode buffer).Accepted)
    (hs : machineOf resistanceArray s' = machineOf resistanceArray s) (hp : s'.params = s.params) :
    Simulates resistanceArray s buffer s' (readResponse buffer table) where
  address := by rw [readResponse, ha]; rfl
  answer := by rw [decode_readResponse hn hf h, hr]
  registers := by rw [hr, hs]
  written h := absurd h hacc
  kept _ := hp

/-- An accepted write. -/
theorem simulates_write {start : ℕ} {values : List UInt16} (hlen : 6 ≤ buffer.length)
    (ha : buffer.getD 0 0 = modbusAddress)
    (hf : buffer.getD 1 0 = funcWriteSingleRegister ∨ buffer.getD 1 0 = funcWriteMultipleRegisters)
    (hr : (machineOf resistanceArray s).respond (Request.decode buffer)
      = ((machineOf resistanceArray s).store start (values.map UInt16.toNat),
          .written (buffer.getD 1 0) (field buffer 2) (field buffer 4)))
    (hacc : (Request.decode buffer).Accepted) :
    Simulates resistanceArray s buffer (s.applyRegisters (storeFrom s.holdingRegisters start values))
      (buffer.take 6) where
  address := by
    rw [List.head?_take, if_neg (by decide), List.head?_eq_getElem?, ← ha,
      List.getD_eq_getElem?_getD, List.getElem?_eq_getElem (by omega), Option.getD_some]
  answer := by rw [decode_echo hlen hf, hr]
  registers := by rw [hr, machineOf_applyRegisters]
  written _ := ⟨rfl, rfl⟩
  kept h := absurd hacc h

/-- The reply to a request for this server: one frame with its CRC, and both
frame and server agree with the machine. -/
def Served (resistanceArray : Strip → ℤ × ℤ) (s : Server) (buffer : List UInt8) (reply : Reply) : Prop :=
  ∃ s' body, reply = .ok (s', [withCRC body]) ∧ Simulates resistanceArray s buffer s' body

theorem served_readInput (hR : ∀ i, 0 ≤ (resistanceArray i).1 ∧ (resistanceArray i).1 ≤ 65535)
    (hlen : 8 ≤ buffer.length) (ha : buffer.getD 0 0 = modbusAddress)
    (hf : buffer.getD 1 0 = funcReadInputRegisters) :
    Served resistanceArray s buffer (modbusHandleReadInputRegister resistanceArray buffer s) := by
  have hdecode : Request.decode buffer = .readInput (field buffer 2) (field buffer 4) := if_pos hf
  have hacc : ¬ (Request.decode buffer).Accepted := by rw [hdecode]; exact id
  rw [modbusHandleReadInputRegister_eq _ hlen]
  by_cases hrange : field buffer 2 + field buffer 4 ≤ 8
  · rw [if_pos hrange]
    refine ⟨_, _, rfl, simulates_read (by decide) ha (.inr hf) hrange ?_ hacc rfl rfl⟩
    rw [hdecode, toNat_comp_inputRegistersOf hR, hf]
    simp only [Machine.respond, if_pos hrange]
    rfl
  · rw [if_neg hrange]
    refine ⟨_, _, rfl, simulates_refusal ha ?_ hacc⟩
    rw [hdecode, hf]
    simp only [Machine.respond, if_neg hrange]

theorem served_readHolding (hlen : 8 ≤ buffer.length) (ha : buffer.getD 0 0 = modbusAddress)
    (hf : buffer.getD 1 0 = funcReadHoldingRegisters) :
    Served resistanceArray s buffer (modbusHandleReadHoldingRegister buffer s) := by
  have hdecode : Request.decode buffer = .readHolding (field buffer 2) (field buffer 4) := by
    rw [Request.decode, hf]
    rfl
  have hacc : ¬ (Request.decode buffer).Accepted := by rw [hdecode]; exact id
  rw [modbusHandleReadHoldingRegister_eq hlen]
  by_cases hrange : field buffer 2 + field buffer 4 ≤ 7
  · rw [if_pos hrange]
    refine ⟨_, _, rfl, simulates_read (by decide) ha (.inl hf) hrange ?_ hacc rfl rfl⟩
    rw [hdecode, hf]
    simp only [Machine.respond, if_pos hrange]
    rfl
  · rw [if_neg hrange]
    refine ⟨_, _, rfl, simulates_refusal ha ?_ hacc⟩
    rw [hdecode, hf]
    simp only [Machine.respond, if_neg hrange]

theorem served_writeSingle (hlen : 8 ≤ buffer.length) (ha : buffer.getD 0 0 = modbusAddress)
    (hf : buffer.getD 1 0 = funcWriteSingleRegister) :
    Served resistanceArray s buffer (modbusHandleWriteSingleRegister buffer buffer.length s) := by
  have hdecode : Request.decode buffer = .writeSingle (field buffer 2) (field buffer 4) := by
    rw [Request.decode, hf]
    rfl
  rw [modbusHandleWriteSingleRegister_eq hlen]
  by_cases hrange : field buffer 2 < 7
  · rw [if_pos hrange]
    refine ⟨_, _, rfl, simulates_write (by omega) ha (.inl hf) ?_ (by rw [hdecode]; exact hrange)⟩
    rw [hdecode, hf]
    simp only [Machine.respond, if_pos hrange]
    rfl
  · rw [if_neg hrange]
    refine ⟨_, _, rfl, simulates_refusal ha ?_ (by rw [hdecode]; exact hrange)⟩
    rw [hdecode, hf]
    simp only [Machine.respond, if_neg hrange]

theorem served_writeMultiple
    (hcount : buffer.length = 9 + (buffer.getD 6 0).toNat) (ha : buffer.getD 0 0 = modbusAddress)
    (hf : buffer.getD 1 0 = funcWriteMultipleRegisters) :
    Served resistanceArray s buffer (modbusHandleWriteMultipleRegisters buffer buffer.length s) := by
  have hdecode : Request.decode buffer = .writeMultiple (field buffer 2) (field buffer 4)
      (buffer.getD 6 0).toNat ((carriedValues buffer).map UInt16.toNat) := by
    rw [Request.decode, hf]
    rfl
  have hiff : WellCounted buffer ↔ (Request.decode buffer).Accepted := by
    rw [hdecode, WellCounted, Request.Accepted, Nat.mul_comm 2]
  rw [modbusHandleWriteMultipleRegisters_eq hcount]
  by_cases hw : WellCounted buffer
  · rw [if_pos hw]
    refine ⟨_, _, rfl, simulates_write (by omega) ha (.inr hf) ?_ (hiff.1 hw)⟩
    have hacc := hiff.1 hw
    rw [hdecode] at hacc
    rw [hdecode, hf]
    exact if_pos hacc
  · rw [if_neg hw]
    refine ⟨_, _, rfl, simulates_refusal ha ?_ (mt hiff.2 hw)⟩
    have hacc := mt hiff.2 hw
    rw [hdecode] at hacc
    rw [hdecode, hf]
    exact if_neg hacc

/-- A request for this server is served, whatever its function code. -/
theorem served (hR : ∀ i, 0 ≤ (resistanceArray i).1 ∧ (resistanceArray i).1 ≤ 65535) (s : Server)
    {f : Frame} (ha : f.address = modbusAddress) :
    Served resistanceArray s f.bytes (modbusHandleRequest resistanceArray f.bytes f.bytes.length s) := by
  have hlen : 8 ≤ f.bytes.length := f.deliverable.1.1
  have ha' : f.bytes.getD 0 0 = modbusAddress := ha
  rw [modbusHandleRequest_eq _ s hlen, if_neg (not_not.2 ha')]
  split_ifs with hin hhold hsingle hmulti
  · exact served_readInput hR hlen ha hin
  · exact served_readHolding hlen ha hhold
  · exact served_writeSingle hlen ha hsingle
  · exact served_writeMultiple (f.deliverable.1.length_eq hmulti) ha hmulti
  · have hdecode : Request.decode f.bytes = .unknown (f.bytes.getD 1 0) := by
      rw [Request.decode, if_neg hin, if_neg hhold, if_neg hsingle, if_neg hmulti]
    exact ⟨_, _, rfl, simulates_refusal ha (by rw [hdecode]; rfl) (by rw [hdecode]; exact id)⟩

/-- **The Modbus server refines the register machine.**  A frame for another
address is ignored.  A frame for this server gets exactly one response, which
ends with its CRC and agrees with the machine.  This holds in every state, and
whatever the last two bytes of the frame are, for resistances that fit a
register. -/
theorem modbusHandleRequest_refines
    (hR : ∀ i, 0 ≤ (resistanceArray i).1 ∧ (resistanceArray i).1 ≤ 65535) (s : Server) (f : Frame) :
    (f.address ≠ modbusAddress →
      modbusHandleRequest resistanceArray f.bytes f.bytes.length s = .ok (s, [])) ∧
    (f.address = modbusAddress → ∃ s' body,
      modbusHandleRequest resistanceArray f.bytes f.bytes.length s = .ok (s', [withCRC body]) ∧
        HasCRC (withCRC body) ∧ Simulates resistanceArray s f.bytes s' body) := by
  constructor
  · intro ha
    rw [modbusHandleRequest_eq _ s f.deliverable.1.1]
    exact if_pos ha
  · intro ha
    obtain ⟨s', body, hreply, hsim⟩ := served hR s ha
    exact ⟨s', body, hreply, hasCRC_withCRC body, hsim⟩

end

attribute [local instance] Arithmetic.uncontracted

/-- A read of input registers 0 and 1. -/
def readInput : Frame := ⟨withCRC [0x01, 0x04, 0x00, 0x00, 0x00, 0x02], by decide⟩

/-- The hypothesis of `modbusHandleRequest_refines` is satisfiable: 1000 and 2000 Ω are read. -/
theorem modbusHandleRequest_refines_readInput :
    ∃ s' body, modbusHandleRequest (fun i => (1000 * (i.val + 1), 0)) readInput.bytes readInput.bytes.length .boot
        = .ok (s', [withCRC body]) ∧
      HasCRC (withCRC body) ∧ Simulates (fun i => (1000 * (i.val + 1), 0)) .boot readInput.bytes s' body :=
  (modbusHandleRequest_refines (by decide) .boot readInput).2 rfl

end Modbus
end GasSensor
