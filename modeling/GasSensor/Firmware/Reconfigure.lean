/-
# Reconfiguring under interrupts

Every sequence of configurations in either mode, as the main thread executes it,
and a schedule of the interrupts of CTIMER2 and the converters between its
assignments.

A proof outline of the whole program keeps the invariant that the stage, noted
from what the main thread has executed, describes the device.  `safe_iff` says
that therefore only the 30th tick of a visit can go wrong, and at which stages and
positions it does.
-/

import GasSensor.Firmware.ModbusLoop
import GasSensor.Firmware.Stage
import GasSensor.Lib.Preempt

namespace GasSensor
namespace Firmware

open Sampler Modbus Preempt

/-- The stage when `todo` is still to come of a program. -/
def stageAt (program todo : List Assign) : Stage := note Stage.next .noBlock program todo

/-- **The invariant**: the stage describes the device. -/
def Described (s : Device × Stage) : Prop := s.2.Describes s.1

/-- Some assignments to the parameters, still to be executed, will leave `p`. -/
structure Leaving (p : Params) (as : List Assign) (s : Device × Stage) : Prop where
  described : Described s
  seated : Seated s.2.blockSize s.1
  params : paramsAfter as s.1.params = p

/-- The same while the strips are counted. -/
structure Counting (p : Params) (as : List Assign) (s : Device × Stage) : Prop where
  leaving : Leaving p as s
  stage : ∃ counted old, s.2 = .counting counted old

/-- The numbers of `strips` have been stored in the new block. -/
structure Filling (p : Params) (fresh : List ℕ) (strips : List Strip) (s : Device × Stage) : Prop where
  params : s.1.params = p
  count : p.gStripCount = fresh.length
  length : strips.length ≤ fresh.length
  stage : s.2 = .filling fresh strips.length
  block : s.1.sampler.activeStripIndices = .live (strips.map Fin.val ++ fresh.drop strips.length)

/-- The block is filled, or there is none. -/
structure Placed (p : Params) (s : Device × Stage) : Prop where
  described : Described s
  params : s.1.params = p
  stage : s.2 = .noBlock ∨ ∃ fresh, s.2 = .filling fresh fresh.length

variable {s s' : Device × Stage} {a : Assign} {as : List Assign} {p : Params} {fresh : List ℕ} {strips : List Strip}

/-- An assignment beside the stage. -/
theorem noting_exec (h : execNoting Stage.next exec s a = .ok s') :
    ∃ d', exec s.1 a = .ok d' ∧ s' = (d', s.2.next a) := by
  obtain ⟨d', hd', h⟩ := Run.bind_eq_ok.1 h
  cases h
  exact ⟨d', hd', rfl⟩

theorem Filling.described (h : Filling p fresh strips s) : Described s := by
  rw [Described, h.stage]
  exact ⟨(congrArg Params.gStripCount h.params).trans h.count, strips, rfl, h.length, h.block⟩

/-- Numbers and flags keep what the stage says. -/
theorem Leaving.setting (ha : a.IsSetting) (hs : Leaving p (a :: as) s)
    (h : execNoting Stage.next exec s a = .ok s') : Leaving p as s' := by
  obtain ⟨d', hexec, rfl⟩ := noting_exec h
  rw [Stage.next_of_isSetting ha]
  have hexec' := (exec_of_isParam (.setting ha) s.1).symm.trans hexec
  cases hexec'
  have hcount : (a.onParams s.1.params).gStripCount = s.1.params.gStripCount := by
    cases ha with
    | store hset => exact hset _
    | activeStrip => rfl
  exact ⟨hs.described.of_eq hcount rfl rfl, hs.seated.of_eq rfl rfl, hs.params⟩

/-- Assignments elsewhere keep what has been left. -/
theorem Leaving.elsewhere (ha : a.IsElsewhere) (hs : Leaving p [] s)
    (h : execNoting Stage.next exec s a = .ok s') : Leaving p [] s' := by
  obtain ⟨d', hexec, rfl⟩ := noting_exec h
  rw [Stage.next_of_isElsewhere ha]
  obtain ⟨hparams, hblock, hpos⟩ := exec_of_isElsewhere ha hexec
  exact ⟨hs.described.of_eq (congrArg _ hparams) hblock hpos, hs.seated.of_eq hblock hpos, hparams.trans hs.params⟩

/-- So they do while the block is in place. -/
theorem Placed.elsewhere (ha : a.IsElsewhere) (hs : Placed p s)
    (h : execNoting Stage.next exec s a = .ok s') : Placed p s' := by
  obtain ⟨d', hexec, rfl⟩ := noting_exec h
  rw [Stage.next_of_isElsewhere ha]
  obtain ⟨hparams, hblock, hpos⟩ := exec_of_isElsewhere ha hexec
  exact ⟨hs.described.of_eq (congrArg _ hparams) hblock hpos, hparams.trans hs.params, hs.stage⟩

/-- One strip more is counted. -/
theorem Counting.increment (hs : Counting p (.incrementStripCount :: as) s)
    (h : execNoting Stage.next exec s .incrementStripCount = .ok s') : Counting p as s' := by
  obtain ⟨d', hexec, rfl⟩ := noting_exec h
  obtain ⟨d, st⟩ := s
  obtain ⟨⟨hdescribed, hseated, hparams⟩, counted, old, rfl⟩ := hs
  obtain ⟨hcount, -⟩ : d.params.gStripCount = counted ∧ Seated old d := hdescribed
  cases hexec
  have hold : Seated old ⟨{ d.params with gStripCount := d.params.gStripCount + 1 }, d.sampler⟩ :=
    hseated.of_eq rfl rfl
  exact ⟨⟨⟨congrArg (· + 1) hcount, hold⟩, hold, hparams⟩, _, _, rfl⟩

/-- One more strip number is stored. -/
theorem Filling.storeIndex {i : Strip} (hs : Filling p fresh strips s) (hlt : strips.length < fresh.length)
    (h : execNoting Stage.next exec s (.storeIndex strips.length i) = .ok s') :
    Filling p fresh (strips ++ [i]) s' := by
  obtain ⟨d', hexec, rfl⟩ := noting_exec h
  have hnext : s.2.next (.storeIndex strips.length i) = .filling fresh (strips.length + 1) := by
    rw [hs.stage]
    rfl
  have hset : (strips.map Fin.val ++ fresh.drop strips.length).set strips.length i.val
      = (strips ++ [i]).map Fin.val ++ fresh.drop (strips.length + 1) := by
    rw [List.drop_eq_getElem_cons hlt, List.set_append_right _ _ (List.length_map _).le, List.length_map,
      Nat.sub_self, List.set_cons_zero, List.map_append, List.append_assoc]
    rfl
  have hroom : strips.length < (strips.map Fin.val ++ fresh.drop strips.length).length := by
    rw [List.length_append, List.length_map, List.length_drop]
    omega
  have hwrite : s.1.sampler.activeStripIndices.write strips.length i.val
      = .ok (.live ((strips ++ [i]).map Fin.val ++ fresh.drop (strips.length + 1))) := by
    rw [hs.block, Block.write, writeAt_of_lt hroom, hset, Run.ok_map]
  simp only [exec, hwrite, Run.ok_bind] at hexec
  cases hexec
  have hlen : (strips ++ [i]).length = strips.length + 1 := List.length_append
  exact ⟨hs.params, hs.count, hlen ▸ hlt, hlen ▸ hnext, hlen ▸ rfl⟩

/-- Resetting the position puts the strips into place. -/
theorem Placed.resetStripIndex (hs : Placed p s)
    (h : execNoting Stage.next exec s .resetStripIndex = .ok s') : Leaving p [] s' := by
  obtain ⟨d', hexec, rfl⟩ := noting_exec h
  cases hexec
  obtain ⟨⟨params, sampler⟩, st⟩ := s
  obtain ⟨hdescribed, hp, rfl | ⟨fresh, rfl⟩⟩ := hs
  · have hcells : sampler.activeStripIndices.cells = [] := hdescribed
    exact ⟨hcells, ⟨congrArg List.length hcells, by simp [hcells], fun h => absurd rfl h⟩, hp⟩
  · obtain ⟨hcount, strips, hlen, -, hblock⟩ := hdescribed
    have hcells : sampler.activeStripIndices.cells = strips.map Fin.val := by
      change sampler.activeStripIndices = _ at hblock
      rw [hblock, Block.cells, List.drop_length, List.append_nil]
    have hseated : Seated fresh.length ⟨params, { sampler with currentActiveStripIndex := 0 }⟩ := {
      length := by rw [hcells, List.length_map, hlen]
      strips := by
        intro channel hmem
        rw [hcells] at hmem
        obtain ⟨i, -, rfl⟩ := List.mem_map.1 hmem
        exact i.isLt
      position := Nat.pos_of_ne_zero }
    exact ⟨⟨hcount, hseated⟩, hseated, hp⟩

section
variable [Arithmetic]

/-- The main thread in Modbus mode: the registers of each write, and what `malloc` answers. -/
def modbusProgram : Params → List ((Fin 7 → UInt16) × Malloc ℕ) → List Assign
  | _, [] => []
  | p, (buffer, malloc) :: writes =>
      let p' := modbusUpdateParameters buffer p
      updateAssigns buffer ++ (initAssigns malloc p' ++ modbusProgram p' writes)

/-- The main thread in GUI mode.  A line with too few fields is not put into force; a
line that `InitializeAllPeripherals` rejects is the last one. -/
def guiProgram (t : Target) : Params → List Line → List Assign
  | _, [] => []
  | p, line :: lines =>
      let p' := line.params t p
      lineAssigns t line ++
        if line.flags = none then guiProgram t p' lines
        else if Rejected p' then []
        else initAssigns line.malloc p' ++ guiProgram t p' lines

/-- The configurations the firmware is given after it has started in one of its modes. -/
inductive Configurations
  | modbus (writes : List ((Fin 7 → UInt16) × Malloc ℕ))
  | gui (lines : List Line)

namespace Configurations

/-- `ModbusFlag`. -/
def modbusFlag : Configurations → Bool
  | modbus _ => true
  | gui _ => false

/-- What the main thread executes. -/
def program (t : Target) : Configurations → List Assign
  | modbus writes => modbusProgram .boot writes
  | gui lines => guiProgram t .boot lines

end Configurations

variable {t : Target} {modbusFlag : Bool} {e : Event}

/-- An interrupt beside the stage. -/
theorem noting_irq (h : handlerNoting (irq t modbusFlag) s e = .ok s') :
    ∃ d', irq t modbusFlag s.1 e = .ok d' ∧ s' = (d', s.2) := by
  obtain ⟨d', hd', h⟩ := Run.bind_eq_ok.1 h
  cases h
  exact ⟨d', hd', rfl⟩

theorem kept_leaving (t : Target) (modbusFlag : Bool) (p : Params) (as : List Assign) :
    Kept (handlerNoting (irq t modbusFlag)) Described (Leaving p as) where
  sound := fun _ h => h.described
  stable := by
    intro s e s' hs h
    obtain ⟨d', hirq, rfl⟩ := noting_irq h
    exact ⟨hs.described.irq hirq, hs.seated.irq hirq, (irq_cases hirq).1 ▸ hs.params⟩

theorem kept_counting (t : Target) (modbusFlag : Bool) (p : Params) (as : List Assign) :
    Kept (handlerNoting (irq t modbusFlag)) Described (Counting p as) where
  sound := fun _ h => h.leaving.described
  stable := by
    intro s e s' hs h
    refine ⟨(kept_leaving t modbusFlag p as).stable s e s' hs.leaving h, ?_⟩
    obtain ⟨d', -, rfl⟩ := noting_irq h
    exact hs.stage

theorem kept_filling (t : Target) (modbusFlag : Bool) (p : Params) (fresh : List ℕ) (strips : List Strip) :
    Kept (handlerNoting (irq t modbusFlag)) Described (Filling p fresh strips) where
  sound := fun _ h => h.described
  stable := by
    intro s e s' hs h
    obtain ⟨d', hirq, rfl⟩ := noting_irq h
    obtain ⟨hparams, hblock, -⟩ := irq_cases hirq
    exact ⟨hparams.trans hs.params, hs.count, hs.length, hs.stage, hblock.trans hs.block⟩

theorem kept_placed (t : Target) (modbusFlag : Bool) (p : Params) :
    Kept (handlerNoting (irq t modbusFlag)) Described (Placed p) where
  sound := fun _ h => h.described
  stable := by
    intro s e s' hs h
    obtain ⟨d', hirq, rfl⟩ := noting_irq h
    exact ⟨hs.described.irq hirq, (irq_cases hirq).1.trans hs.params, hs.stage⟩

/-- Assignments to numbers and flags. -/
theorem outline_settings (t : Target) (modbusFlag : Bool) (p : Params) (bs : List Assign)
    (h : ∀ a ∈ as, a.IsSetting) :
    Outline (execNoting Stage.next exec) (handlerNoting (irq t modbusFlag)) Described (Leaving p (as ++ bs)) as
      (Leaving p bs) := by
  induction as with
  | nil => exact .nil (kept_leaving t modbusFlag p bs) fun _ => id
  | cons a as ih =>
      exact .cons (kept_leaving t modbusFlag p (a :: as ++ bs)) (fun _ _ => .setting (h a List.mem_cons_self))
        (ih fun b hb => h b (List.mem_cons_of_mem a hb))

/-- Counting the strips. -/
theorem outline_counting (t : Target) (modbusFlag : Bool) (p : Params)
    (hcounting : ∀ a ∈ as, a.IsSetting ∨ a = .incrementStripCount) :
    Outline (execNoting Stage.next exec) (handlerNoting (irq t modbusFlag)) Described (Counting p as) as
      (Leaving p []) := by
  induction as with
  | nil => exact .nil (kept_counting t modbusFlag p []) fun _ h => h.leaving
  | cons a as ih =>
      refine .cons (kept_counting t modbusFlag p (a :: as)) (fun s s' hs h => ?_)
        (ih fun b hb => hcounting b (List.mem_cons_of_mem a hb))
      rcases hcounting a List.mem_cons_self with ha | rfl
      · refine ⟨hs.leaving.setting ha h, ?_⟩
        obtain ⟨d', -, rfl⟩ := noting_exec h
        rw [Stage.next_of_isSetting ha]
        exact hs.stage
      · exact hs.increment h

/-- `g_strip_count = 0;` and then counting. -/
theorem outline_recount (t : Target) (modbusFlag : Bool) (p : Params)
    (hcounting : ∀ a ∈ as, a.IsSetting ∨ a = .incrementStripCount) :
    Outline (execNoting Stage.next exec) (handlerNoting (irq t modbusFlag)) Described
      (Leaving p (.resetStripCount :: as)) (.resetStripCount :: as) (Leaving p []) := by
  refine .cons (kept_leaving t modbusFlag p _) (fun s s' hs h => ?_) (outline_counting t modbusFlag p hcounting)
  obtain ⟨d', hexec, rfl⟩ := noting_exec h
  rw [Stage.next_resetStripCount]
  cases hexec
  have hseated : Seated s.2.blockSize ⟨{ s.1.params with gStripCount := 0 }, s.1.sampler⟩ :=
    hs.seated.of_eq rfl rfl
  exact ⟨⟨⟨rfl, hseated⟩, hseated, hs.params⟩, _, _, rfl⟩

/-- `Modbus_UpdateParameters`. -/
theorem outline_update (t : Target) (modbusFlag : Bool) (p : Params) (buffer : Fin 7 → UInt16) :
    Outline (execNoting Stage.next exec) (handlerNoting (irq t modbusFlag)) Described (Leaving p [])
      (updateAssigns buffer) (Leaving (modbusUpdateParameters buffer p) []) := by
  have hstrong : ∀ s, Leaving p [] s → Leaving (modbusUpdateParameters buffer p) (updateAssigns buffer) s :=
    fun s hs => ⟨hs.described, hs.seated, by
      rw [paramsAfter_updateAssigns]
      exact congrArg _ hs.params⟩
  obtain ⟨settings, hsettings, heq⟩ := updateAssigns_eq buffer
  rw [heq] at hstrong ⊢
  refine .strengthen (.append (outline_settings t modbusFlag _ _ hsettings) ?_)
    (kept_leaving t modbusFlag p []) hstrong
  split
  · exact outline_recount t modbusFlag _ fun a ha => mem_countingFlags ha
  · exact .nil (kept_leaving t modbusFlag _ []) fun _ => id

/-- A line. -/
theorem outline_line (t : Target) (modbusFlag : Bool) (p : Params) (line : Line) :
    Outline (execNoting Stage.next exec) (handlerNoting (irq t modbusFlag)) Described (Leaving p [])
      (lineAssigns t line) (Leaving (line.params t p) []) := by
  have hstrong : ∀ s, Leaving p [] s → Leaving (line.params t p) (lineAssigns t line) s :=
    fun s hs => ⟨hs.described, hs.seated, by
      rw [paramsAfter_lineAssigns]
      exact congrArg _ hs.params⟩
  obtain ⟨settings, hsettings, heq⟩ := lineAssigns_eq t line
  rw [heq] at hstrong ⊢
  refine .strengthen (.append (outline_settings t modbusFlag _ _ hsettings) ?_)
    (kept_leaving t modbusFlag p []) hstrong
  split
  · exact .nil (kept_leaving t modbusFlag _ []) fun _ => id
  · refine outline_recount t modbusFlag _ fun a ha => .inr ?_
    obtain ⟨i, -, rfl⟩ := List.mem_map.1 ha
    rfl

/-- Storing strip numbers in the block. -/
theorem outline_stores (t : Target) (modbusFlag : Bool) (p : Params) (fresh : List ℕ) (rest strips : List Strip)
    (hlen : (strips ++ rest).length = fresh.length) :
    Outline (execNoting Stage.next exec) (handlerNoting (irq t modbusFlag)) Described (Filling p fresh strips)
      (storeIndices strips.length rest) (Filling p fresh (strips ++ rest)) := by
  induction rest generalizing strips with
  | nil =>
      rw [List.append_nil]
      exact .nil (kept_filling t modbusFlag p fresh strips) fun _ => id
  | cons i rest ih =>
      have hlt : strips.length < fresh.length := by
        rw [List.length_append, List.length_cons] at hlen
        omega
      have hih := ih (strips ++ [i]) (by rw [List.append_assoc]; exact hlen)
      rw [List.append_assoc, List.length_append] at hih
      exact .cons (kept_filling t modbusFlag p fresh strips) (fun _ _ hs => hs.storeIndex hlt) hih

/-- `ConvertActiveStrips`. -/
theorem outline_convert (t : Target) (modbusFlag : Bool) (malloc : Malloc ℕ) (hp : p.Counted) :
    Outline (execNoting Stage.next exec) (handlerNoting (irq t modbusFlag)) Described (Leaving p [])
      (convertAssigns malloc p) (Placed p) := by
  have hleaving := kept_leaving t modbusFlag p []
  have hfree : ∀ s s', Leaving p [] s → execNoting Stage.next exec s .freeIndices = .ok s' →
      Leaving p [] s' ∧ s'.2 = .noBlock := by
    intro s s' hs h
    obtain ⟨d', hexec, rfl⟩ := noting_exec h
    rw [Stage.next_freeIndices]
    obtain ⟨b, hb, hexec'⟩ := Run.bind_eq_ok.1 hexec
    cases hexec'
    have hcells : b.cells = [] := by
      match s.1.sampler.activeStripIndices, hb with
      | .null, hb => cases hb; rfl
      | .live _, hb => cases hb; rfl
    exact ⟨⟨hcells, ⟨congrArg List.length hcells, by rw [hcells]; simp, fun h => absurd rfl h⟩, hs.params⟩, rfl⟩
  cases hm : malloc p.gStripCount with
  | none =>
      have hassigns : convertAssigns malloc p = [.freeIndices, .allocateIndices .null] := by
        simp [convertAssigns, hm, Block.ofMalloc]
      rw [hassigns]
      refine .cons hleaving (fun s s' hs hexec => (hfree s s' hs hexec).1)
        (.single hleaving (kept_placed t modbusFlag p) fun s s' hs h => ?_)
      obtain ⟨d', hexec, rfl⟩ := noting_exec h
      rw [Stage.next_allocateIndices]
      cases hexec
      exact ⟨rfl, hs.params, .inl rfl⟩
  | some v =>
      have hassigns : convertAssigns malloc p = .freeIndices :: .allocateIndices (.live v.toList)
          :: storeIndices 0 p.strips := by
        simp [convertAssigns, hm, Block.ofMalloc]
      have hlen : p.strips.length = v.toList.length := by
        rw [List.Vector.toList_length, hp.eq_length]
      have hstores := outline_stores t modbusFlag p v.toList p.strips [] (by simpa using hlen)
      have hplaced : Outline (execNoting Stage.next exec) (handlerNoting (irq t modbusFlag)) Described
          (Filling p v.toList p.strips) [] (Placed p) :=
        .nil (kept_filling t modbusFlag p _ _) fun s hs =>
          ⟨hs.described, hs.params, .inr ⟨v.toList, hlen ▸ hs.stage⟩⟩
      rw [hassigns, ← List.append_nil (storeIndices 0 p.strips)]
      refine .cons hleaving (fun s s' hs hexec => (hfree s s' hs hexec).1)
        (.cons hleaving (fun s s' hs h => ?_) (hstores.append hplaced))
      obtain ⟨d', hexec, rfl⟩ := noting_exec h
      rw [Stage.next_allocateIndices]
      cases hexec
      exact ⟨hs.params, (List.Vector.toList_length v).symm, Nat.zero_le _, rfl, rfl⟩

/-- **An outline of `InitializeAllPeripherals`.** -/
theorem outline_init (t : Target) (modbusFlag : Bool) (malloc : Malloc ℕ) (hp : p.Counted) :
    Outline (execNoting Stage.next exec) (handlerNoting (irq t modbusFlag)) Described (Leaving p [])
      (initAssigns malloc p) (Leaving p []) := by
  have hleaving := kept_leaving t modbusFlag p []
  have hplaced := kept_placed t modbusFlag p
  unfold initAssigns
  split
  · exact .nil hleaving fun _ => id
  · have hmux : Outline (execNoting Stage.next exec) (handlerNoting (irq t modbusFlag)) Described (Leaving p [])
        (muxAssigns p) (Leaving p []) := by
      refine .of_forall hleaving fun a ha s s' hs => hs.elsewhere ?_
      simp only [muxAssigns, selectPins, List.mem_append, List.mem_cons, List.not_mem_nil, or_false] at ha
      rcases ha with (rfl | rfl | rfl | rfl | rfl) | rfl | rfl | rfl <;> exact .pin _
    have htimer : Outline (execNoting Stage.next exec) (handlerNoting (irq t modbusFlag)) Described (Placed p)
        [.stopTimer, .startTimer, .resetStripIndex, .resetCountIndex] (Leaving p []) :=
      .cons hplaced (fun _ _ hs => hs.elsewhere .stopTimer) (.cons hplaced (fun _ _ hs => hs.elsewhere .startTimer)
        (.cons hplaced (fun _ _ hs => hs.resetStripIndex)
          (.single hleaving hleaving fun _ _ hs => hs.elsewhere .resetCountIndex)))
    have hclear : Outline (execNoting Stage.next exec) (handlerNoting (irq t modbusFlag)) Described (Leaving p [])
        clearAssigns (Leaving p []) := by
      refine .of_forall hleaving fun a ha s s' hs => hs.elsewhere ?_
      rcases List.mem_cons.1 ha with rfl | ha
      · exact .resetTimestamp
      · obtain ⟨i, -, ha⟩ := List.mem_flatMap.1 ha
        rcases List.mem_cons.1 ha with rfl | ha
        · exact .clearResistance i
        · rw [List.mem_singleton.1 ha]
          exact .clearTime i
    exact ((hmux.append (outline_convert t modbusFlag malloc hp)).append htimer).append hclear

theorem outline_modbusProgram (t : Target) (modbusFlag : Bool)
    (writes : List ((Fin 7 → UInt16) × Malloc ℕ)) (hp : p.Counted) :
    Outline (execNoting Stage.next exec) (handlerNoting (irq t modbusFlag)) Described (Leaving p [])
      (modbusProgram p writes) Described := by
  induction writes generalizing p with
  | nil => exact .nil (kept_leaving t modbusFlag p []) fun _ h => h.described
  | cons w writes ih =>
      obtain ⟨buffer, malloc⟩ := w
      have hcounted := modbusUpdateParameters_counted buffer hp
      exact (outline_update t modbusFlag p buffer).append
        ((outline_init t modbusFlag malloc hcounted).append (ih hcounted))

theorem outline_guiProgram (t : Target) (modbusFlag : Bool) (lines : List Line) (p : Params) :
    Outline (execNoting Stage.next exec) (handlerNoting (irq t modbusFlag)) Described (Leaving p [])
      (guiProgram t p lines) Described := by
  induction lines generalizing p with
  | nil => exact .nil (kept_leaving t modbusFlag p []) fun _ h => h.described
  | cons line lines ih =>
      refine (outline_line t modbusFlag p line).append ?_
      cases hflags : line.flags with
      | none =>
          rw [if_pos rfl]
          exact ih _
      | some active =>
          rw [if_neg (by simp)]
          have hcounted : (line.params t p).Counted := by
            rw [Line.params, hflags]
            exact rfl
          split
          · exact .nil (kept_leaving t modbusFlag _ []) fun _ h => h.described
          · exact (outline_init t modbusFlag line.malloc hcounted).append (ih _)

/-- **Every sequence of configurations has a proof outline**, from the start of the
firmware. -/
theorem outlined_program (t : Target) (cs : Configurations) :
    Outlined (execNoting Stage.next exec) (handlerNoting (irq t cs.modbusFlag)) Described
      ⟨(.boot, .noBlock), cs.program t⟩ := by
  have hboot : Leaving .boot [] (Device.boot, Stage.noBlock) :=
    ⟨rfl, ⟨rfl, fun channel h => absurd h List.not_mem_nil, fun h => absurd rfl h⟩, rfl⟩
  cases cs with
  | modbus writes => exact ⟨_, _, hboot, outline_modbusProgram t true writes (show (0 : ℕ) = _ from rfl)⟩
  | gui lines => exact ⟨_, _, hboot, outline_guiProgram t false lines .boot⟩

/-- **When the sampling interrupt is safe under reconfiguration.**  For every sequence of
configurations and every schedule of the main thread and the interrupts: no
interrupt divides by a zero strip count, reads outside a live block of active
strip numbers or indexes `V_sens_strip_values` out of range, if and only if
the stage that the main thread has reached tolerates the position of each tick that
completes a visit. -/
theorem safe_iff (t : Target) (cs : Configurations) (ms : List (Move Event)) :
    AtInterrupts exec (irq t cs.modbusFlag) (fun c e => ∃ d', irq t cs.modbusFlag c.state e = .ok d')
        ⟨.boot, cs.program t⟩ ms ↔
      AtInterrupts exec (irq t cs.modbusFlag)
        (fun c e => CompletesVisit cs.modbusFlag c.state e →
          (stageAt (cs.program t) c.todo).Tolerates c.state.sampler.currentActiveStripIndex)
        ⟨.boot, cs.program t⟩ ms := by
  have hnoted := (outlined_program t cs).atInterrupts_iff
    (A := fun s e => ∃ d', irq t cs.modbusFlag s.1 e = .ok d')
    (B := fun s e => CompletesVisit cs.modbusFlag s.1 e → s.2.Tolerates s.1.sampler.currentActiveStripIndex)
    (fun s e hs => irq_ok_iff.trans (imp_congr_right fun _ => inRange_iff hs)) ms
  have hsafe := atInterrupts_noting exec (irq t cs.modbusFlag) Stage.next .noBlock
    (P := fun d _ e => ∃ d', irq t cs.modbusFlag d e = .ok d') [] ⟨.boot, cs.program t⟩ ms
  have htolerates := atInterrupts_noting exec (irq t cs.modbusFlag) Stage.next .noBlock
    (P := fun d st e => CompletesVisit cs.modbusFlag d e → st.Tolerates d.sampler.currentActiveStripIndex)
    [] ⟨.boot, cs.program t⟩ ms
  exact hsafe.symm.trans (hnoted.trans htolerates)

end

attribute [local instance] Arithmetic.uncontracted

/-- Two writes of the strip register: strips 1 and 2, and then strip 3. -/
def twoWrites : Configurations :=
  .modbus [(fun i => if i = 6 then 3 else 0, zeroedMalloc), (fun i => if i = 6 then 4 else 0, zeroedMalloc)]

/-- The first write is carried out, 29 ticks arrive, and the second write has just
executed `g_strip_count = 0;`. -/
def untilStripCountZero : List (Move Event) :=
  List.replicate 44 .main ++ List.replicate 29 (.interrupt .tick) ++ [.main]

/-- **A tick between two assignments divides by zero.** -/
theorem tick_divides_by_zero :
    (fun c : Thread Device Assign => c.state.params.gStripCount) <$>
        untilStripCountZero.foldlM (step exec (irq .saturating true)) ⟨.boot, twoWrites.program .saturating⟩
          = .ok 0 ∧
    (fun _ => ()) <$> (untilStripCountZero ++ [Move.interrupt Event.tick]).foldlM (step exec (irq .saturating true))
        ⟨.boot, twoWrites.program .saturating⟩ = .error .divisionByZero := by
  constructor <;> decide +kernel

end Firmware
end GasSensor
