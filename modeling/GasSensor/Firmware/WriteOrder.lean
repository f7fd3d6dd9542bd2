/-
# Does the order of writes matter

Two accepted writes to different registers store the same registers in either
order, but each of them also puts the registers it does not address into force.
`Settled` says of a register that this changes nothing.  After an accepted write
every register is settled, and then two writes leave the parameters that the
final registers give at once (`modbusUpdateParameters_twice`).  At boot one
register is not settled: the strip register holds 8, strip 4, and no strip is
active.
-/

import GasSensor.Firmware.RegisterMap

namespace GasSensor
namespace Firmware

open FloatingPoint Modbus

section Store

variable {table : Fin 7 → UInt16} {start : ℕ} {values : List UInt16} {j : Fin 7}

/-- A register outside the range is kept. -/
theorem storeFrom_of_outside (h : j.val < start ∨ start + values.length ≤ j.val) :
    storeFrom table start values j = table j := by
  unfold storeFrom
  split
  next hle =>
    rw [List.getD_eq_getElem?_getD, List.getElem?_eq_none (by omega), Option.getD_none]
  next => rfl

/-- A register inside the range gets its value, whatever the table. -/
theorem storeFrom_of_inside (hle : start ≤ j.val) (hlt : j.val < start + values.length) :
    storeFrom table start values j = values.getD (j.val - start) 0 := by
  have hin : j.val - start < values.length := by omega
  rw [storeFrom, if_pos hle, List.getD_eq_getElem?_getD, List.getD_eq_getElem?_getD,
    List.getElem?_eq_getElem hin]
  rfl

variable {start' : ℕ} {values' : List UInt16}

/-- Stores into different registers commute. -/
theorem storeFrom_comm (table : Fin 7 → UInt16)
    (h : start + values.length ≤ start' ∨ start' + values'.length ≤ start) :
    storeFrom (storeFrom table start values) start' values'
      = storeFrom (storeFrom table start' values') start values := by
  funext j
  by_cases hj : start ≤ j.val ∧ j.val < start + values.length
  · have hout : j.val < start' ∨ start' + values'.length ≤ j.val := by omega
    rw [storeFrom_of_outside hout, storeFrom_of_inside hj.1 hj.2, storeFrom_of_inside hj.1 hj.2]
  · have hout : j.val < start ∨ start + values.length ≤ j.val := by omega
    rw [storeFrom_of_outside hout]
    by_cases hj' : start' ≤ j.val ∧ j.val < start' + values'.length
    · rw [storeFrom_of_inside hj'.1 hj'.2, storeFrom_of_inside hj'.1 hj'.2]
    · have hout' : j.val < start' ∨ start' + values'.length ≤ j.val := by omega
      rw [storeFrom_of_outside hout', storeFrom_of_outside hout', storeFrom_of_outside hout]

/-- After the first of two stores into different registers each register holds what it
held before or what it will hold in the end. -/
theorem storeFrom_eq_or (table : Fin 7 → UInt16)
    (h : start + values.length ≤ start' ∨ start' + values'.length ≤ start) (j : Fin 7) :
    storeFrom table start values j = storeFrom (storeFrom table start values) start' values' j ∨
      storeFrom table start values j = table j := by
  by_cases hj : j.val < start' ∨ start' + values'.length ≤ j.val
  · exact .inl (storeFrom_of_outside hj).symm
  · exact .inr (storeFrom_of_outside (by omega))

end Store

section
variable [Arithmetic]

/-- Putting register `j` into force changes nothing. -/
def Settled (c : Settings) (j : Fin 7) : Prop :=
  SameParameter c.params (modbusUpdateParameters c.registers c.params) j

/-- Registers put into force are settled. -/
theorem settled_write (c : Settings) (start : ℕ) (values : List UInt16) (j : Fin 7) :
    Settled (c.write start values) j := by
  have hidem : ∀ {α : Type} (register : UInt16) (value kept : α),
      unlessZero register value (unlessZero register value kept) = unlessZero register value kept := by
    intro α register value kept
    unfold unlessZero
    split <;> rfl
  match j with
  | 0 | 1 | 2 | 3 | 4 | 5 => exact hidem _ _ _
  | 6 => exact ⟨hidem _ _ _, hidem _ _ _⟩

omit [Arithmetic] in
/-- One parameter that is updated twice, first from a register that holds what it held
before (`x`) or what it holds in the end (`m`). -/
theorem unlessZero_twice {α : Type*} {m x a : UInt16} (value : UInt16 → α) {kept : α}
    (ha : a = m ∨ a = x) (h : m = 0 → unlessZero x (value x) kept = kept) :
    unlessZero m (value m) (unlessZero a (value a) kept) = unlessZero m (value m) kept := by
  by_cases hm : m = 0
  · rw [unlessZero_zero hm, unlessZero_zero hm]
    rcases ha with rfl | rfl
    · exact unlessZero_zero hm _ _
    · exact h hm
  · rw [unlessZero_of_ne hm, unlessZero_of_ne hm]

/-- **Updating in two steps is updating at once**, if the registers that are zero in the end
were settled at the beginning. -/
theorem modbusUpdateParameters_twice {c : Settings} {a m : Fin 7 → UInt16}
    (ha : ∀ j, a j = m j ∨ a j = c.registers j) (h : ∀ j, m j = 0 → Settled c j) :
    modbusUpdateParameters m (modbusUpdateParameters a c.params) = modbusUpdateParameters m c.params := by
  simp only [modbusUpdateParameters, Params.mk.injEq]
  exact ⟨unlessZero_twice (fun w => w.toNat - 1) (ha 0) (h 0),
    unlessZero_twice UInt16.toNat (ha 1) (h 1),
    unlessZero_twice thousandth (ha 2) (h 2),
    unlessZero_twice (fun w => (thousandth w).truncate) (ha 3) (h 3),
    unlessZero_twice thousandth (ha 4) (h 4),
    unlessZero_twice UInt16.toNat (ha 5) (h 5),
    unlessZero_twice (fun w (i : Strip) => w.toNat.testBit i) (ha 6) fun h0 => (h 6 h0).1,
    unlessZero_twice (fun w => countStrips fun i => w.toNat.testBit i) (ha 6) fun h0 => (h 6 h0).2⟩

section Order

variable {c : Settings} {start start' : ℕ} {values values' : List UInt16}

/-- Two writes to different registers commute if the registers that are zero in the end
were settled. -/
theorem write_comm (hdisjoint : start + values.length ≤ start' ∨ start' + values'.length ≤ start)
    (h : ∀ j, storeFrom (storeFrom c.registers start values) start' values' j = 0 → Settled c j) :
    (c.write start values).write start' values' = (c.write start' values').write start values := by
  have hcomm := storeFrom_comm c.registers hdisjoint
  simp only [Settings.write, Settings.mk.injEq]
  refine ⟨hcomm, ?_⟩
  rw [modbusUpdateParameters_twice (storeFrom_eq_or c.registers hdisjoint) h, ← hcomm]
  refine (modbusUpdateParameters_twice (fun j => ?_) h).symm
  rw [hcomm]
  exact storeFrom_eq_or c.registers (Or.symm hdisjoint) j

/-- A write carries 0 for the strip register. -/
def ClearsStripRegister (start : ℕ) (values : List UInt16) : Prop :=
  start ≤ 6 ∧ values[6 - start]? = some 0

omit [Arithmetic] in
/-- A write that leaves 0 in the strip register carries it or found it there. -/
theorem clearsStripRegister_of_zero {table : Fin 7 → UInt16} (h : storeFrom table start values 6 = 0) :
    ClearsStripRegister start values ∨ table 6 = 0 := by
  by_cases hin : start ≤ 6 ∧ 6 < start + values.length
  · refine .inl ⟨hin.1, ?_⟩
    rw [storeFrom_of_inside (j := 6) hin.1 hin.2, List.getD_eq_getElem?_getD] at h
    rw [List.getElem?_eq_getElem (by omega)] at h ⊢
    exact congrArg some h
  · rw [storeFrom_of_outside (j := 6) (show 6 < start ∨ start + values.length ≤ 6 by omega)] at h
    exact .inr h

/-- After a write to other registers than the strip register, and a write to the strip
register that carries 0, at boot: strip 4 is active if the other write came first. -/
theorem write_comm_ne (hdisjoint : start + values.length ≤ start' ∨ start' + values'.length ≤ start)
    (h : ClearsStripRegister start values) :
    ((boot.settings.write start values).write start' values').params
      ≠ ((boot.settings.write start' values').write start values).params := by
  obtain ⟨hle, hget⟩ := h
  have hlt : 6 - start < values.length := (List.getElem?_eq_some_iff.1 hget).1
  have hzero : ∀ table : Fin 7 → UInt16, storeFrom table start values 6 = 0 := by
    intro table
    rw [storeFrom_of_inside (j := 6) hle (show 6 < start + values.length by omega),
      List.getD_eq_getElem?_getD]
    exact congrArg (Option.getD · 0) hget
  have hkept : ∀ table : Fin 7 → UInt16, storeFrom table start' values' 6 = table 6 := fun table =>
    storeFrom_of_outside (j := 6) (show 6 < start' ∨ start' + values'.length ≤ 6 by omega)
  intro heq
  have hstrip := congrFun (congrArg Params.activeStrips heq) 3
  simp only [Settings.write, modbusUpdateParameters] at hstrip
  rw [unlessZero_zero (by rw [hkept, hzero]), unlessZero_zero (hzero _), unlessZero_zero (hzero _),
    unlessZero_of_ne (by rw [hkept]; exact show (8 : UInt16) ≠ 0 by decide), hkept] at hstrip
  exact absurd hstrip (show ¬ false = Nat.testBit 8 3 by decide)

end Order

/-- At boot every register but the strip register is settled. -/
theorem settled_boot : ∀ j : Fin 7, j ≠ 6 → Settled boot.settings j
  | 0, _ => rfl
  | 1, _ => rfl
  | 2, _ => by
      change unlessZero 50 (thousandth 50) (float.convert (double.round (5 / 100))) = _
      rw [unlessZero_of_ne (by decide), thousandth_eq]
      exact rounding_cases (P := fun r r' => r.round ((50 : UInt16).toNat / 1000) = r.convert (r'.round (5 / 100)))
        (by decide +kernel) (by decide +kernel)
  | 3, _ => by
      change unlessZero 21000 (thousandth 21000).truncate 21 = 21
      rw [unlessZero_of_ne (by decide), truncate_thousandth]
      rfl
  | 4, _ => by
      change unlessZero 1000 (thousandth 1000) (.finite 1) = .finite 1
      rw [unlessZero_of_ne (by decide), thousandth_eq]
      exact rounding_cases (P := fun r _ => r.round ((1000 : UInt16).toNat / 1000) = .finite 1)
        (by decide +kernel) (by decide +kernel)
  | 5, _ => rfl
  | 6, h => absurd rfl h

/-- A frame leaves settled registers settled. -/
theorem settled_frame {c : Settings} (h : ∀ j, Settled c j) (bytes : List UInt8) (j : Fin 7) :
    Settled (c.frame bytes) j := by
  unfold Settings.frame
  split
  · exact h j
  · exact settled_write _ _ _ j

/-- After frames with an accepted write among them every register is settled. -/
theorem settled_of_write {qs : List (Malloc ℕ × Frame)}
    (h : ∃ q ∈ qs, (acceptedWrite q.2.bytes).isSome) (c : Settings) (j : Fin 7) :
    Settled (qs.foldl (fun c q => c.frame q.2.bytes) c) j := by
  induction qs using List.reverseRecOn generalizing j with
  | nil =>
      obtain ⟨q, hq, -⟩ := h
      exact absurd hq List.not_mem_nil
  | append_singleton qs q ih =>
      rw [List.foldl_append, List.foldl_cons, List.foldl_nil]
      cases hw : acceptedWrite q.2.bytes with
      | some w =>
          rw [Settings.frame_of_some hw]
          exact settled_write _ _ _ j
      | none =>
          obtain ⟨q', hq', hsome⟩ := h
          have hmem : q' ∈ qs := by
            refine (List.mem_append.1 hq').resolve_right fun hlast => ?_
            rw [List.mem_singleton.1 hlast, hw] at hsome
            cases hsome
          exact settled_frame (ih ⟨q', hmem, hsome⟩) _ j

/-- **When the order of two writes does not matter.**  In every state the main loop
reaches, two accepted writes to different registers lead to the same registers and the
same parameters in either order if and only if a write has been accepted before or none
of the two carries 0 for the strip register. -/
theorem write_order_iff {t : Target} {qs : List (Malloc ℕ × Frame)} {fw : Firmware}
    (hrun : qs.foldlM (turnStep t) boot = .ok fw) {q q' : Malloc ℕ × Frame} {start start' : ℕ}
    {values values' : List UInt16} (hq : acceptedWrite q.2.bytes = some (start, values))
    (hq' : acceptedWrite q'.2.bytes = some (start', values'))
    (hdisjoint : start + values.length ≤ start' ∨ start' + values'.length ≤ start) :
    ∃ fw₁ fw₂, [q, q'].foldlM (turnStep t) fw = .ok fw₁ ∧ [q', q].foldlM (turnStep t) fw = .ok fw₂ ∧
      ((fw₁.server.holdingRegisters = fw₂.server.holdingRegisters ∧ fw₁.server.params = fw₂.server.params) ↔
        (∃ r ∈ qs, (acceptedWrite r.2.bytes).isSome) ∨
          ¬ (ClearsStripRegister start values ∨ ClearsStripRegister start' values')) := by
  obtain ⟨fw', hfw', hsound, hsettings⟩ := run_settings t sound_boot qs
  rw [hrun, Except.ok.injEq] at hfw'
  subst hfw'
  obtain ⟨fw₁, hfw₁, -, hset₁⟩ := run_settings t hsound [q, q']
  obtain ⟨fw₂, hfw₂, -, hset₂⟩ := run_settings t hsound [q', q]
  simp only [List.foldl_cons, List.foldl_nil, Settings.frame_of_some hq, Settings.frame_of_some hq']
    at hset₁ hset₂
  have hsame : (fw₁.server.holdingRegisters = fw₂.server.holdingRegisters ∧
      fw₁.server.params = fw₂.server.params) ↔ fw₁.settings = fw₂.settings :=
    (Settings.mk.injEq ..).symm ▸ Iff.rfl
  refine ⟨fw₁, fw₂, hfw₁, hfw₂, ?_⟩
  rw [hsame, hset₁, hset₂]
  by_cases hwritten : ∃ r ∈ qs, (acceptedWrite r.2.bytes).isSome
  · refine ⟨fun _ => .inl hwritten, fun _ => write_comm hdisjoint fun j _ => ?_⟩
    rw [hsettings]
    exact settled_of_write hwritten _ j
  -- no write has been accepted: the settings are those of boot
  have hnone : ∀ r ∈ qs, acceptedWrite r.2.bytes = none := by
    intro r hr
    by_contra hsome
    exact hwritten ⟨r, hr, Option.isSome_iff_ne_none.2 hsome⟩
  rw [foldl_frame_of_none hnone] at hsettings
  rw [hsettings]
  constructor
  · refine fun heq => .inr ?_
    rintro (hclears | hclears)
    · exact write_comm_ne hdisjoint hclears (congrArg Settings.params heq)
    · exact write_comm_ne (Or.symm hdisjoint) hclears (congrArg Settings.params heq.symm)
  · intro h
    have hclears := h.resolve_left hwritten
    rw [not_or] at hclears
    refine write_comm hdisjoint fun j hzero => settled_boot j ?_
    rintro rfl
    -- a strip register that is zero in the end was written so, since it is 8 at boot
    rcases clearsStripRegister_of_zero hzero with hc | hzero
    · exact hclears.2 hc
    rcases clearsStripRegister_of_zero hzero with hc | hboot
    · exact hclears.1 hc
    · exact absurd hboot (show ¬ (8 : UInt16) = 0 by decide)

end

attribute [local instance] Arithmetic.uncontracted

/-- A write of the value 1, the one it has at boot, to holding register 0. -/
def writeWaveType1 : Frame := ⟨withCRC [0x01, 0x06, 0x00, 0x00, 0x00, 0x01], by decide⟩

/-- A write of the value 0 to the strip register. -/
def writeStrips0 : Frame := ⟨withCRC [0x01, 0x06, 0x00, 0x06, 0x00, 0x00], by decide⟩

/-- The hypotheses of `write_order_iff` are satisfiable: these two writes at boot. -/
theorem write_order_iff_writeStrips0 :
    ∃ fw₁ fw₂, [(zeroedMalloc, writeStrips0), (zeroedMalloc, writeWaveType1)].foldlM
        (turnStep .saturating) boot = .ok fw₁ ∧
      [(zeroedMalloc, writeWaveType1), (zeroedMalloc, writeStrips0)].foldlM
        (turnStep .saturating) boot = .ok fw₂ ∧
      ((fw₁.server.holdingRegisters = fw₂.server.holdingRegisters ∧ fw₁.server.params = fw₂.server.params) ↔
        (∃ r ∈ ([] : List (Malloc ℕ × Frame)), (acceptedWrite r.2.bytes).isSome) ∨
          ¬ (ClearsStripRegister 6 [0] ∨ ClearsStripRegister 0 [1])) :=
  write_order_iff (show ([] : List (Malloc ℕ × Frame)).foldlM (turnStep .saturating) boot = .ok boot from rfl)
    (by decide) (by decide) (by decide)

/-- **The order of two writes after boot decides whether strip 4 is active.** -/
theorem writeStrips0_order_matters :
    ∃ fw₁ fw₂, [(zeroedMalloc, writeStrips0), (zeroedMalloc, writeWaveType1)].foldlM
        (turnStep .saturating) boot = .ok fw₁ ∧
      [(zeroedMalloc, writeWaveType1), (zeroedMalloc, writeStrips0)].foldlM
        (turnStep .saturating) boot = .ok fw₂ ∧
      fw₁.server.params ≠ fw₂.server.params := by
  obtain ⟨fw₁, hfw₁, -, hset₁⟩ := run_settings .saturating sound_boot
    [(zeroedMalloc, writeStrips0), (zeroedMalloc, writeWaveType1)]
  obtain ⟨fw₂, hfw₂, -, hset₂⟩ := run_settings .saturating sound_boot
    [(zeroedMalloc, writeWaveType1), (zeroedMalloc, writeStrips0)]
  have hstrips : acceptedWrite writeStrips0.bytes = some (6, [0]) := by decide
  have hwave : acceptedWrite writeWaveType1.bytes = some (0, [1]) := by decide
  simp only [List.foldl_cons, List.foldl_nil, Settings.frame_of_some hstrips, Settings.frame_of_some hwave]
    at hset₁ hset₂
  have hclears : ClearsStripRegister 6 [0] := ⟨le_rfl, rfl⟩
  have hne := write_comm_ne (show 6 + [(0 : UInt16)].length ≤ 0 ∨ 0 + [(1 : UInt16)].length ≤ 6 by decide) hclears
  rw [← hset₁, ← hset₂] at hne
  exact ⟨fw₁, fw₂, hfw₁, hfw₂, hne⟩

end Firmware
end GasSensor
