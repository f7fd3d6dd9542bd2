/-
# Lines the command loop rejects

The two ways in which a line is rejected end differently.  A line with too few
fields leaves what `ParseRejected` says and the loop goes on; a line with
parameters `InitializeAllPeripherals` refuses leaves what `InitRejected` says,
and `main` returns.  `rejected_line` is the statement for every line received in
every reachable state.
-/

import GasSensor.Firmware.FlagBytes
import GasSensor.Firmware.Gui

namespace GasSensor
namespace Gui

open CString Firmware

section
variable [Arithmetic]

/-- **A line that `updateParameters` rejects**: the fields that are there have been
assigned, the strip flags are cleared while their count is kept, and the loop goes on; with
no strip active the resistances are no longer updated. -/
structure ParseRejected (t : Target) (toks : List (List UInt8)) (g g₂ : Gui) : Prop where
  params : g₂.params = assignFields t numberFields toks (resetActiveStrips g.params)
  gStripCount : g₂.params.gStripCount = g.params.gStripCount
  loop : g₂.returned = none ∧ g₂.index = 0
  report : g₂.reports = g.reports ++ [.error]
  measurement : ∀ (es : List Event) (g₃ : Gui), (∀ ch ∈ chars es, ¬ Terminator ch) →
    es.foldlM (step t) g₂ = .ok g₃ →
    g₃.peripherals.sampler.resistanceArray = g₂.peripherals.sampler.resistanceArray

/-- **A line that `InitializeAllPeripherals` rejects**: its parameters are in force, and `main`
has returned. -/
structure InitRejected (t : Target) (toks : List (List UInt8)) (g g₂ : Gui) : Prop where
  numbers : g₂.params = { assignFields t numberFields toks (resetActiveStrips g.params) with
    activeStrips := g₂.params.activeStrips
    gStripCount := g₂.params.gStripCount }
  counted : g₂.params.Counted
  returned : g₂.returned = some (-1)
  report : g₂.reports = g.reports ++ [.failed]

variable {t : Target} {malloc : Malloc ℕ} {g g₁ g₂ : Gui} {es : List Event} {ch : UInt8}

/-- A line with too few fields that fits the buffer. -/
theorem few_fields (t : Target) (malloc : Malloc ℕ) (htyped : Typed g (chars es) g₁) (hidx : g.index = 0)
    (hlen : g₁.buffer.length = 256) (hinit : g₁.initializationsuccess = false) (hch : Terminator ch)
    (hfew : (lineTokens (chars es) ch).length < 7) (hfits : (chars es).length + 1 < 256) :
    ∃ g₂, step t g₁ (.char malloc ch) = .ok g₂ ∧ ParseRejected t (lineTokens (chars es) ch) g g₂ := by
  have hindex : g₁.index = (chars es).length := by rw [htyped.index, hidx, Nat.zero_add]
  have hbuffer := terminated_eq (htyped.text_eq hidx) (show g₁.index + 1 < g₁.buffer.length by omega) ch
  obtain ⟨mem, hparse⟩ := updateParameters_line_of_lt t (chars es ++ [ch]) hfew (g₁.buffer.drop (g₁.index + 2))
    (resetActiveStrips g₁.params)
  have hmem : 0 < mem.length := by
    rw [updateParameters_length hparse, ← hbuffer]
    simp [hlen]
  refine ⟨{ g₁ with
    params := assignFields t numberFields (lineTokens (chars es) ch) (resetActiveStrips g₁.params)
    buffer := mem.set 0 0
    index := 0
    reports := g₁.reports ++ [.error] }, ?_, ?_⟩
  · rw [receive_terminator htyped.returned hch, writeAt_of_lt (by omega), Run.ok_bind, processLine]
    dsimp only
    rw [writeAt_of_lt (by rw [List.length_set]; omega), Run.ok_bind, hbuffer, hparse, Run.ok_bind]
    dsimp only
    rw [if_neg (by decide), writeAt_of_lt hmem, Run.ok_bind, hinit]
    rfl
  · have hkeep := assignFields_numberFields t (lineTokens (chars es) ch) (resetActiveStrips g₁.params)
    refine ⟨by rw [htyped.params], ?_, ⟨htyped.returned, rfl⟩, by rw [htyped.reports], ?_⟩
    · rw [← htyped.params]
      exact hkeep.2
    · intro fs g₃ hfs hrun
      refine (typed_run (by exact htyped.returned) hfs hrun).resistances fun i => ?_
      exact congrFun hkeep.1 i

/-- A line with all fields that is processed. -/
theorem all_fields (htyped : Typed g (chars es) g₁) (hidx : g.index = 0)
    (hinit : g₁.initializationsuccess = false) (hch : Terminator ch)
    (hmany : 7 ≤ (lineTokens (chars es) ch).length) (hstep : step t g₁ (.char malloc ch) = .ok g₂) :
    (Rejected g₂.params → InitRejected t (lineTokens (chars es) ch) g g₂) ∧
      (¬ Rejected g₂.params → g₂.returned = none ∧ g₂.index = 0 ∧ g₂.reports = g.reports ++ [.set]) := by
  rw [receive_terminator htyped.returned hch] at hstep
  obtain ⟨buffer, hwrite, hline⟩ := Run.bind_eq_ok.1 hstep
  obtain ⟨-, rfl⟩ := set_of_writeAt hwrite
  obtain ⟨hlt, params, mem, status, hparse, hcases⟩ := processLine_cases hline (by exact hinit)
  rw [List.length_set] at hlt
  dsimp only at hparse
  rw [terminated_eq (htyped.text_eq hidx) hlt] at hparse
  obtain ⟨hstatus, hcounted, hparams⟩ := updateParameters_line_of_le t (chars es ++ [ch]) hmany hparse
  rcases hcases with ⟨hne, -⟩ | ⟨-, peripherals, status', hall, hcases⟩
  · exact absurd hstatus hne
  have hinitialize := initializeAllPeripherals_cases hall
  rcases hcases with ⟨hne, rfl⟩ | ⟨heq, rfl⟩
  · rcases hinitialize with ⟨hr, -⟩ | ⟨-, hzero, -⟩
    · refine ⟨fun _ => ⟨?_, hcounted, rfl, by rw [htyped.reports]⟩, fun hacc => absurd hr hacc⟩
      rw [← htyped.params]
      exact hparams
    · exact absurd hzero hne
  · rcases hinitialize with ⟨-, hminus, -⟩ | ⟨hr, -, -⟩
    · omega
    · exact ⟨fun hrej => absurd hrej hr, fun _ => ⟨htyped.returned, rfl, by rw [htyped.reports]⟩⟩

/-- **What a rejected line leaves behind.**  From a reachable state between two lines a
line is typed, with interrupts in between, and ends with `ch`.  If it has fewer
than seven fields and fits the buffer, it is processed and rejected by
`updateParameters`.  If it has seven or more and is processed, then it is
rejected exactly if `Rejected` holds of the parameters then in force, and it is
`InitializeAllPeripherals` that rejects it. -/
theorem rejected_line (t : Target) (malloc : Malloc ℕ) (hg : Reachable t g) (hret : g.returned = none)
    (hidx : g.index = 0) (hbody : ∀ c ∈ chars es, ¬ Terminator c) (hes : es.foldlM (step t) g = .ok g₁)
    (hch : Terminator ch) :
    ((lineTokens (chars es) ch).length < 7 → (chars es).length + 1 < 256 →
      ∃ g₂, step t g₁ (.char malloc ch) = .ok g₂ ∧
        ParseRejected t (lineTokens (chars es) ch) g g₂) ∧
    (7 ≤ (lineTokens (chars es) ch).length → ∀ g₂, step t g₁ (.char malloc ch) = .ok g₂ →
      (Rejected g₂.params → InitRejected t (lineTokens (chars es) ch) g g₂) ∧
      (¬ Rejected g₂.params → g₂.returned = none ∧ g₂.index = 0 ∧ g₂.reports = g.reports ++ [.set])) := by
  have hsound := hg.sound
  have htyped := typed_run hret hbody hes
  have hinit : g₁.initializationsuccess = false :=
    htyped.initializationsuccess.trans (hsound.initializationsuccess hret)
  constructor
  · intro hfew hfits
    exact few_fields t malloc htyped hidx (htyped.length.trans hsound.length) hinit hch hfew hfits
  · intro hmany g₂ hstep
    exact all_fields htyped hidx hinit hch hmany hstep

end

attribute [local instance] Arithmetic.uncontracted

/-- The events of a line typed without interrupts. -/
def typeLine (line : List UInt8) : List Event := line.map (.char zeroedMalloc)

/-- `1,50,0.5,7,1,8,11000000`: a square wave, and the first two strips. -/
def squareLine : List UInt8 :=
  [49, 44, 53, 48, 44, 48, 46, 53, 44, 55, 44, 49, 44, 56, 44, 49, 49, 48, 48, 48, 48, 48, 48, 10]

/-- The character `1` while a measurement is running. -/
def oneField : List Event :=
  .sampler .tick :: .sampler (.voltage 7) :: .sampler (.current 3) :: .char zeroedMalloc 49 :: .ctimer4
    :: List.replicate 30 (.sampler .tick)

/-- The hypotheses of `rejected_line` are satisfiable: the line `1` arrives while a
measurement is running, and a visit is completed before it ends. -/
theorem rejected_line_oneField :
    ∃ g g₁ g₂, (typeLine squareLine).foldlM (step .saturating) boot = .ok g ∧
      g.peripherals.sampler.ctimer2 = some 200000 ∧ oneField.foldlM (step .saturating) g = .ok g₁ ∧
      step .saturating g₁ (.char zeroedMalloc 10) = .ok g₂ ∧ ParseRejected .saturating [[49, 10]] g g₂ := by
  have hline : (fun g : Gui => (g.returned, g.index, g.peripherals.sampler.ctimer2)) <$>
      (typeLine squareLine).foldlM (step .saturating) boot = .ok (none, 0, some 200000) := by decide +kernel
  have hfield : (fun _ => ()) <$> (typeLine squareLine ++ oneField).foldlM (step .saturating) boot = .ok () := by
    decide +kernel
  obtain ⟨g, hg, hstate⟩ := Run.map_eq_ok.1 hline
  obtain ⟨g₁, hg₁, -⟩ := Run.map_eq_ok.1 hfield
  rw [List.foldlM_append, hg, Run.ok_bind] at hg₁
  obtain ⟨hret, hrest⟩ := Prod.mk.inj hstate
  obtain ⟨hidx, htimer⟩ := Prod.mk.inj hrest
  have hbody : ∀ c ∈ chars oneField, ¬ Terminator c := by decide +kernel
  obtain ⟨g₂, hstep, hrejected⟩ := (rejected_line .saturating zeroedMalloc ⟨_, hg⟩ hret hidx
    hbody hg₁ (.inl rfl)).1 (by decide +kernel) (by decide +kernel)
  exact ⟨g, g₁, g₂, hg, htimer, hg₁, hstep, hrejected⟩

/-- **A rejected line is not without effect.**  After the line `1` the user is told to
resend, but `waveType` is 1 where it was 0; after the line `9,1,1,1,1,1,1` `main`
has returned -1 and `waveType` is 9. -/
theorem rejected_line_assigns :
    boot.params.waveType = 0 ∧
    (fun g : Gui => (g.reports, g.params.waveType)) <$>
      (typeLine [49, 10]).foldlM (step .saturating) boot = .ok ([.error], 1) ∧
    (fun g : Gui => (g.returned, g.reports, g.params.waveType)) <$>
      (typeLine [57, 44, 49, 44, 49, 44, 49, 44, 49, 44, 49, 44, 49, 10]).foldlM (step .saturating) boot
        = .ok (some (-1), [.failed], 9) := by
  refine ⟨rfl, ?_, ?_⟩ <;> decide +kernel

end Gui
end GasSensor
