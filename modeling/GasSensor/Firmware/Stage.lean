/-
# How far a reconfiguration has got

CTIMER2 keeps interrupting while the main thread zeroes and recounts
`g_strip_count` and frees and refills the block of active strip numbers, and
the sampler still stands at a position of the old configuration.

A `Stage` says how far the main thread has got with this, and follows from the
assignments it has executed.  `Stage.Tolerates` says at which position a visit can
be completed then; `inRange_iff` compares it with what the handler divides by and
reads.
-/

import GasSensor.Firmware.MainThread

namespace GasSensor
namespace Firmware

open Sampler

/-- An interrupt of the sampler. -/
def irq [Arithmetic] (t : Target) (modbusFlag : Bool) (d : Device) (e : Event) : Except Fault Device :=
  d.sampler.interrupt t modbusFlag d.params e >>= fun s => .ok { d with sampler := s }

/-- The interrupt is a tick that completes a visit: the timer is running, the handler
does not return early, and it is the 30th. -/
def CompletesVisit (modbusFlag : Bool) (d : Device) (e : Event) : Prop :=
  e = .tick ∧ d.sampler.ctimer2 ≠ none ∧ ¬ (d.params.gStripCount = 0 ∧ modbusFlag = false) ∧
    ¬ d.sampler.currentCountIndex < softwareAverageCount - 1

/-- How far the main thread has got with the strips. -/
inductive Stage
  /-- There is no block: it has been freed, or `malloc` has found no memory. -/
  | noBlock
  /-- `g_strip_count` is counted anew and has got to `counted`.  The block is still that of
  the configuration before, for `old` strips. -/
  | counting (counted old : ℕ)
  /-- The new block is in place, with the cells `malloc` found, and the first `stored` of
  them have been assigned.  The position is still that of the configuration before. -/
  | filling (fresh : List ℕ) (stored : ℕ)
  /-- `n` strips are in place, and the position has been reset. -/
  | settled (n : ℕ)

namespace Stage

/-- The strips the block in place is for. -/
def blockSize : Stage → ℕ
  | noBlock => 0
  | counting _ old => old
  | filling fresh _ => fresh.length
  | settled n => n

/-- What an assignment does to the stage. -/
def next : Stage → Assign → Stage
  | st, .resetStripCount => counting 0 st.blockSize
  | counting counted old, .incrementStripCount => counting (counted + 1) old
  | _, .freeIndices => noBlock
  | _, .allocateIndices block =>
      match block with
      | .live fresh => filling fresh 0
      | _ => noBlock
  | filling fresh stored, .storeIndex _ _ => filling fresh (stored + 1)
  | filling fresh _, .resetStripIndex => settled fresh.length
  | st, _ => st

/-- **Where a visit can be completed at position `i`.**  With strips in place, anywhere.  While
they are counted, if there is one by now and the next position modulo their count is in the
old block.  In the new block, at a cell that has been assigned, or in which `malloc` has left
a strip number.  Without a block, nowhere. -/
def Tolerates : Stage → ℕ → Prop
  | noBlock, _ => False
  | counting counted old, i => counted ≠ 0 ∧ (i + 1) % counted < old
  | filling fresh stored, i => i < fresh.length ∧ (i < stored ∨ fresh.getD i 8 < 8)
  | settled n, _ => n ≠ 0

end Stage

@[simp] theorem Stage.next_freeIndices (st : Stage) : st.next .freeIndices = .noBlock := by
  cases st <;> rfl

@[simp] theorem Stage.next_resetStripCount (st : Stage) : st.next .resetStripCount = .counting 0 st.blockSize := by
  cases st <;> rfl

@[simp] theorem Stage.next_allocateIndices (st : Stage) (block : Block ℕ) :
    st.next (.allocateIndices block) = match block with
      | .live fresh => .filling fresh 0
      | _ => .noBlock := by
  cases st <;> rfl

/-- Numbers and flags do not matter. -/
theorem Stage.next_of_isSetting {a : Assign} (h : a.IsSetting) (st : Stage) : st.next a = st := by
  cases h <;> cases st <;> rfl

/-- An assignment to the pins, to the timer, or to what the sampler counts and has measured. -/
inductive Assign.IsElsewhere : Assign → Prop
  | pin (set : Mux → Mux) : IsElsewhere (.pin set)
  | stopTimer : IsElsewhere .stopTimer
  | startTimer : IsElsewhere .startTimer
  | resetCountIndex : IsElsewhere .resetCountIndex
  | resetTimestamp : IsElsewhere .resetTimestamp
  | clearResistance (i : Strip) : IsElsewhere (.clearResistance i)
  | clearTime (i : Strip) : IsElsewhere (.clearTime i)

theorem Stage.next_of_isElsewhere {a : Assign} (h : a.IsElsewhere) (st : Stage) : st.next a = st := by
  cases h <;> cases st <;> rfl

/-- It does not touch the parameters, the block and the position. -/
theorem exec_of_isElsewhere {a : Assign} (h : a.IsElsewhere) {d d' : Device} (hexec : exec d a = .ok d') :
    d'.params = d.params ∧ d'.sampler.activeStripIndices = d.sampler.activeStripIndices ∧
      d'.sampler.currentActiveStripIndex = d.sampler.currentActiveStripIndex := by
  cases h with
  | startTimer =>
      rw [exec] at hexec
      split at hexec
      · cases hexec
      · cases hexec
        exact ⟨rfl, rfl, rfl⟩
  | _ =>
      cases hexec
      exact ⟨rfl, rfl, rfl⟩

/-- The sampler stands inside a block of `n` strip numbers. -/
structure Seated (n : ℕ) (d : Device) : Prop where
  length : d.sampler.activeStripIndices.cells.length = n
  strips : ∀ channel ∈ d.sampler.activeStripIndices.cells, channel < 8
  position : n ≠ 0 → d.sampler.currentActiveStripIndex < n

/-- **What a stage says about the device.** -/
def Stage.Describes : Stage → Device → Prop
  | noBlock, d => d.sampler.activeStripIndices.cells = []
  | counting counted old, d => d.params.gStripCount = counted ∧ Seated old d
  | filling fresh stored, d => d.params.gStripCount = fresh.length ∧ ∃ strips : List Strip,
      strips.length = stored ∧ stored ≤ fresh.length ∧
        d.sampler.activeStripIndices = .live (strips.map Fin.val ++ fresh.drop stored)
  | settled n, d => d.params.gStripCount = n ∧ Seated n d

/-- `g_strip_count` is not zero, the position and the next one are in the block, and the
channel at the position is one of the eight. -/
def InRange (d : Device) : Prop :=
  d.params.gStripCount ≠ 0 ∧
    d.sampler.activeStripIndices.cells.getD d.sampler.currentActiveStripIndex 8 < 8 ∧
    (d.sampler.currentActiveStripIndex + 1) % d.params.gStripCount < d.sampler.activeStripIndices.cells.length

variable {t : Target} {modbusFlag : Bool} {d d' : Device} {e : Event} {st : Stage} {n : ℕ}

theorem Seated.of_eq (h : Seated n d) (hblock : d'.sampler.activeStripIndices = d.sampler.activeStripIndices)
    (hpos : d'.sampler.currentActiveStripIndex = d.sampler.currentActiveStripIndex) : Seated n d' :=
  ⟨hblock ▸ h.length, hblock ▸ h.strips, hpos ▸ h.position⟩

/-- A stage speaks of the strip count, the block and the position only. -/
theorem Stage.Describes.of_eq (h : st.Describes d) (hcount : d'.params.gStripCount = d.params.gStripCount)
    (hblock : d'.sampler.activeStripIndices = d.sampler.activeStripIndices)
    (hpos : d'.sampler.currentActiveStripIndex = d.sampler.currentActiveStripIndex) : st.Describes d' := by
  match st, h with
  | .noBlock, h => exact (congrArg Block.cells hblock).trans h
  | .counting _ _, ⟨h, hseated⟩ => exact ⟨hcount.trans h, hseated.of_eq hblock hpos⟩
  | .filling _ _, ⟨h, strips, hlen, hle, hcells⟩ => exact ⟨hcount.trans h, strips, hlen, hle, hblock.trans hcells⟩
  | .settled _, ⟨h, hseated⟩ => exact ⟨hcount.trans h, hseated.of_eq hblock hpos⟩

/-- A visit can be completed exactly in range. -/
theorem completeVisit_ok_iff [Arithmetic] :
    (∃ s', completeVisit t d.params d.sampler = .ok s') ↔ InRange d := by
  simp only [completeVisit_eq_ok, Block.read_eq_ok_iff_cells]
  constructor
  · rintro ⟨s', hn, i, channel, hi, hnext, -⟩
    refine ⟨hn, ?_, (List.getElem?_eq_some_iff.1 hnext).1⟩
    rw [List.getD_eq_getElem?_getD, hi]
    exact i.isLt
  · rintro ⟨hn, hi, hnext⟩
    have hlt : d.sampler.currentActiveStripIndex < d.sampler.activeStripIndices.cells.length := by
      by_contra hge
      rw [List.getD_eq_getElem?_getD, List.getElem?_eq_none (by omega)] at hi
      exact absurd hi (lt_irrefl 8)
    rw [List.getD_eq_getElem?_getD, List.getElem?_eq_getElem hlt] at hi
    exact ⟨_, hn, ⟨_, hi⟩, _, List.getElem?_eq_getElem hlt, List.getElem?_eq_getElem hnext, rfl⟩

/-- **When an interrupt is safe.** -/
theorem irq_ok_iff [Arithmetic] : (∃ d', irq t modbusFlag d e = .ok d') ↔ (CompletesVisit modbusFlag d e → InRange d) := by
  have hirq : (∃ d', irq t modbusFlag d e = .ok d')
      ↔ ∃ s', d.sampler.interrupt t modbusFlag d.params e = .ok s' := by
    simp only [irq, Run.bind_eq_ok]
    constructor
    · rintro ⟨d', s', hs', -⟩
      exact ⟨s', hs'⟩
    · rintro ⟨s', hs'⟩
      exact ⟨_, s', hs', rfl⟩
  have htrivial : ∀ s', d.sampler.interrupt t modbusFlag d.params e = .ok s' → ¬ CompletesVisit modbusFlag d e →
      ((∃ s', d.sampler.interrupt t modbusFlag d.params e = .ok s') ↔
        (CompletesVisit modbusFlag d e → InRange d)) :=
    fun s' hs' hnot => ⟨fun _ h => absurd h hnot, fun _ => ⟨s', hs'⟩⟩
  rw [hirq]
  by_cases hstopped : e = .tick ∧ d.sampler.ctimer2 = none
  · exact htrivial _ (if_pos hstopped) fun h => h.2.1 hstopped.2
  cases e with
  | voltage x => exact htrivial _ (if_neg hstopped) fun h => (nomatch h.1)
  | current x => exact htrivial _ (if_neg hstopped) fun h => (nomatch h.1)
  | sysTick => exact htrivial _ (if_neg hstopped) fun h => (nomatch h.1)
  | tick =>
      have hstep : d.sampler.interrupt t modbusFlag d.params .tick
          = ctimer2IRQHandler t modbusFlag d.params d.sampler := if_neg hstopped
      by_cases hearly : d.params.gStripCount = 0 ∧ modbusFlag = false
      · exact htrivial _ (hstep.trans (if_pos hearly)) fun h => h.2.2.1 hearly
      by_cases hlt : d.sampler.currentCountIndex < softwareAverageCount - 1
      · exact htrivial _ (hstep.trans ((if_neg hearly).trans (if_pos hlt))) fun h => h.2.2.2 hlt
      · have hrunning : d.sampler.ctimer2 ≠ none := fun h => hstopped ⟨rfl, h⟩
        have hvisit : ctimer2IRQHandler t modbusFlag d.params d.sampler
            = completeVisit t d.params d.sampler := (if_neg hearly).trans (if_neg hlt)
        rw [hstep, hvisit, completeVisit_ok_iff]
        exact ⟨fun h _ => h, fun h => h ⟨rfl, hrunning, hearly, hlt⟩⟩

/-- What an interrupt leaves alone.  A position it moves to is in the block. -/
theorem irq_cases [Arithmetic] (h : irq t modbusFlag d e = .ok d') :
    d'.params = d.params ∧ d'.sampler.activeStripIndices = d.sampler.activeStripIndices ∧
      (d'.sampler.currentActiveStripIndex = d.sampler.currentActiveStripIndex ∨
        d.params.gStripCount ≠ 0 ∧ d'.sampler.currentActiveStripIndex < d.sampler.activeStripIndices.cells.length) := by
  obtain ⟨s, hs, h⟩ := Run.bind_eq_ok.1 h
  cases h
  unfold interrupt at hs
  split at hs
  · cases hs
    exact ⟨rfl, rfl, .inl rfl⟩
  cases e with
  | voltage x => cases hs; exact ⟨rfl, rfl, .inl rfl⟩
  | current x => cases hs; exact ⟨rfl, rfl, .inl rfl⟩
  | sysTick => cases hs; exact ⟨rfl, rfl, .inl rfl⟩
  | tick =>
      change ctimer2IRQHandler t modbusFlag d.params d.sampler = .ok s at hs
      unfold ctimer2IRQHandler at hs
      split at hs
      · cases hs
        exact ⟨rfl, rfl, .inl rfl⟩
      split at hs
      · cases hs
        exact ⟨rfl, rfl, .inl rfl⟩
      · obtain ⟨hn, i, channel, -, hnext, rfl⟩ := completeVisit_eq_ok.1 hs
        exact ⟨rfl, rfl, .inr ⟨hn, (List.getElem?_eq_some_iff.1 (Block.read_eq_ok_iff_cells.1 hnext)).1⟩⟩

/-- An interrupt keeps the sampler in its block. -/
theorem Seated.irq [Arithmetic] (hd : Seated n d) (h : irq t modbusFlag d e = .ok d') : Seated n d' := by
  obtain ⟨-, hblock, hpos⟩ := irq_cases h
  refine ⟨hblock ▸ hd.length, hblock ▸ hd.strips, fun hn => ?_⟩
  rcases hpos with hpos | ⟨-, hpos⟩
  · exact hpos ▸ hd.position hn
  · exact hd.length ▸ hpos

/-- Interrupts do not change what the stage says. -/
theorem Stage.Describes.irq [Arithmetic] (hd : st.Describes d) (h : irq t modbusFlag d e = .ok d') :
    st.Describes d' := by
  obtain ⟨hparams, hblock, -⟩ := irq_cases h
  match st, hd with
  | .noBlock, hd => exact (congrArg Block.cells hblock).trans hd
  | .counting _ _, hd => exact ⟨hparams ▸ hd.1, hd.2.irq h⟩
  | .filling _ _, hd =>
      obtain ⟨hcount, strips, hlen, hle, hcells⟩ := hd
      exact ⟨hparams ▸ hcount, strips, hlen, hle, hblock.trans hcells⟩
  | .settled _, hd => exact ⟨hparams ▸ hd.1, hd.2.irq h⟩

/-- A seated sampler reads a strip number. -/
theorem Seated.getD_lt (h : Seated n d) (hn : n ≠ 0) :
    d.sampler.activeStripIndices.cells.getD d.sampler.currentActiveStripIndex 8 < 8 := by
  have hlt := h.position hn
  rw [← h.length] at hlt
  rw [List.getD_eq_getElem?_getD, List.getElem?_eq_getElem hlt]
  exact h.strips _ (List.getElem_mem _)

/-- **What is in range follows from stage and position.** -/
theorem inRange_iff (h : st.Describes d) : InRange d ↔ st.Tolerates d.sampler.currentActiveStripIndex := by
  unfold InRange
  match st, h with
  | .noBlock, h =>
      have h : d.sampler.activeStripIndices.cells = [] := h
      rw [h]
      exact iff_of_false (fun hin => absurd hin.2.2 (Nat.not_lt_zero _)) id
  | .counting counted old, ⟨hcount, hseated⟩ =>
      rw [hcount, hseated.length]
      constructor
      · exact fun hin => ⟨hin.1, hin.2.2⟩
      · exact fun hin => ⟨hin.1, hseated.getD_lt (Nat.ne_zero_of_lt hin.2), hin.2⟩
  | .filling fresh stored, ⟨hcount, strips, hlen, hle, hblock⟩ =>
      have hlength : (strips.map Fin.val ++ fresh.drop stored).length = fresh.length := by
        rw [List.length_append, List.length_map, List.length_drop]
        omega
      rw [hcount, hblock, Block.cells, hlength, Stage.Tolerates]
      rcases Nat.lt_or_ge d.sampler.currentActiveStripIndex stored with hi | hi
      · have hcell : (strips.map Fin.val ++ fresh.drop stored).getD d.sampler.currentActiveStripIndex 8 < 8 := by
          rw [List.getD_eq_getElem?_getD, List.getElem?_append_left (by rw [List.length_map]; omega),
            List.getElem?_map, List.getElem?_eq_getElem (by omega)]
          exact Fin.isLt _
        exact iff_of_true ⟨by omega, hcell, Nat.mod_lt _ (by omega)⟩ ⟨by omega, .inl hi⟩
      · rw [List.getD_eq_getElem?_getD, List.getElem?_append_right (by rw [List.length_map]; omega),
          List.length_map, hlen, List.getElem?_drop, Nat.add_sub_cancel' hi, ← List.getD_eq_getElem?_getD]
        constructor
        · rintro ⟨hn, hcell, -⟩
          refine ⟨?_, .inr hcell⟩
          by_contra hge
          rw [List.getD_eq_getElem?_getD, List.getElem?_eq_none (by omega)] at hcell
          exact absurd hcell (lt_irrefl 8)
        · rintro ⟨hlt, hcell⟩
          exact ⟨by omega, hcell.resolve_left (by omega), Nat.mod_lt _ (by omega)⟩
  | .settled n, ⟨hcount, hseated⟩ =>
      rw [hcount, hseated.length]
      exact ⟨And.left, fun hn => ⟨hn, hseated.getD_lt hn, Nat.mod_lt _ (Nat.pos_of_ne_zero hn)⟩⟩

end Firmware
end GasSensor
