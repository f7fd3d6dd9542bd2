/-
# What keeps the command loop running

In GUI mode the interrupts go on while a line comes in.  `typed_total` says that the
characters of a line that fits the buffer come in without a fault, whatever interrupts
there are in between, and `line_total` that a line whose parameters the configuration
takes sets the peripherals up for them and leaves the loop waiting for the next one.
-/

import GasSensor.Firmware.Gui
import GasSensor.Firmware.Serviceable

namespace GasSensor
namespace Gui

open Firmware HotPlate

/-- If `malloc` is asked on an event, it has memory. -/
def Event.Provided : Event → Prop
  | .char malloc _ => HasMemory malloc
  | .sampler _ | .ctimer4 => True

/-- The command loop waits for a line. -/
structure AtPrompt (W : ℕ → Prop) (g : Gui) : Prop where
  sound : Sound g
  serviceable : Serviceable false W g.params g.peripherals
  returned : g.returned = none
  index : g.index = 0

variable {t : Target} {malloc : Malloc ℕ} {g : Gui} {es : List Event} {W : ℕ → Prop}

variable [Arithmetic]

theorem atPrompt_boot (h0 : W 0) : AtPrompt W .boot := ⟨sound_boot, serviceable_boot h0, rfl, rfl⟩

theorem Sound.run {g' : Gui} (hg : Sound g) (h : es.foldlM (Gui.step t) g = .ok g') : Sound g' :=
  Run.foldlM_invariant (I := Sound) (fun _ _ _ hu hstep => hu.step hstep) hg h

/-- **The characters of a line come in** without a fault if there is room for them, and leave the
set-up of the peripherals. -/
theorem typed_total (hret : g.returned = none) (hg : Serviceable false W g.params g.peripherals)
    (hes : ∀ ch ∈ chars es, ¬ Terminator ch) (hfits : g.index + (chars es).length ≤ g.buffer.length) :
    ∃ g', es.foldlM (step t) g = .ok g' ∧ Serviceable false W g'.params g'.peripherals ∧
      Undisturbed g.peripherals g'.peripherals := by
  induction es generalizing g with
  | nil => exact ⟨g, rfl, hg, .refl _⟩
  | cons e es ih =>
      have hsplit : chars (e :: es) = chars [e] ++ chars es := by
        rw [chars, chars, chars, ← List.filterMap_append, List.singleton_append]
      rw [hsplit, List.forall_mem_append] at hes
      rw [hsplit, List.length_append] at hfits
      obtain ⟨u, hu, hserviceable, hundisturbed⟩ : ∃ u, step t g e = .ok u ∧ Serviceable false W u.params u.peripherals ∧
          Undisturbed g.peripherals u.peripherals := by
        cases e with
        | char malloc ch =>
            have hch : ¬ Terminator ch := hes.1 ch (List.mem_singleton.2 rfl)
            have hone : (chars [.char malloc ch]).length = 1 := rfl
            rw [hone] at hfits
            exact ⟨_, receive_of_not_terminator hret hch (by omega), hg, .refl _⟩
        | sampler e =>
            obtain ⟨s, hs, hserviceable⟩ := hg.interrupt t e
            exact ⟨{ g with peripherals := { g.peripherals with sampler := s } }, by rw [step, hs, Run.ok_bind],
              hserviceable, undisturbed_of_interrupt hs⟩
        | ctimer4 =>
            obtain ⟨hotPlate, hplay, hserviceable⟩ := hg.ctimer4
            exact ⟨{ g with peripherals := { g.peripherals with hotPlate := hotPlate } },
              by rw [step, hplay, Run.ok_bind], hserviceable, undisturbed_of_ctimer4 hplay⟩
      have htyped := typed_step hret hes.1 hu
      obtain ⟨g', hg', hserviceable', hundisturbed'⟩ := ih htyped.returned hserviceable hes.2
        (by rw [htyped.index, htyped.length]; omega)
      exact ⟨g', by rw [List.foldlM_cons, hu, Run.ok_bind, hg'], hserviceable', hundisturbed.trans hundisturbed'⟩

/-- **The last character of a line** whose parameters are taken. -/
theorem lastChar_total {q : Params} {mem : List UInt8} {ch : UInt8} (hg : Sound g) (hret : g.returned = none)
    (hserviceable : Serviceable false W g.params g.peripherals) (hch : Terminator ch) (hlt : g.index + 1 < g.buffer.length)
    (hparse : updateParameters t ((g.buffer.set g.index ch).set (g.index + 1) 0) (resetActiveStrips g.params)
      = .ok (q, mem, 0))
    (hq : Workable q) (hW : ∀ i < tableSize t q, W (waveEntry t q i)) (hm : HasMemory malloc) :
    ∃ g', step t g (.char malloc ch) = .ok g' ∧ AtPrompt W g' ∧ g'.reports = g.reports ++ [.set] ∧ g'.params = q ∧
      SetUp t q g'.peripherals := by
  obtain ⟨d, hd, hserviceable', hsetUp⟩ := hq.initializeAllPeripherals_ok hm t hserviceable nofun hW
  have hinit := hg.initializationsuccess hret
  have hset : g.index + 1 < (g.buffer.set g.index ch).length := by rwa [List.length_set]
  have hmem : 0 < mem.length := by
    rw [updateParameters_length hparse, List.length_set, List.length_set]
    omega
  have hstep : step t g (.char malloc ch) = .ok { g with
      params := q
      peripherals := d
      buffer := mem.set 0 0
      index := 0
      reports := g.reports ++ [.set] } := by
    rw [receive_terminator hret hch, writeAt_of_lt (by omega), Run.ok_bind]
    simp only [processLine, writeAt_of_lt hset, Run.ok_bind, hinit, Bool.false_eq_true, if_false, hparse, if_true, hd,
      writeAt_of_lt hmem, ne_eq, not_true_eq_false]
  exact ⟨_, hstep, ⟨hg.step hstep, hserviceable', hret, rfl⟩, rfl, rfl, hsetUp⟩

/-- **Between the lines** there are only interrupts. -/
theorem AtPrompt.quiet (hg : AtPrompt W g) (hes : chars es = []) :
    ∃ g', es.foldlM (step t) g = .ok g' ∧ AtPrompt W g' ∧ g'.reports = g.reports ∧ g'.params = g.params ∧
      Undisturbed g.peripherals g'.peripherals := by
  have hnone : ∀ ch ∈ chars es, ¬ Terminator ch := by
    rw [hes]
    exact nofun
  obtain ⟨g', hg', hserviceable, hundisturbed⟩ :=
    typed_total (t := t) hg.returned hg.serviceable hnone (by rw [hes, hg.index]; exact Nat.zero_le _)
  have htyped := typed_run hg.returned hnone hg'
  refine ⟨g', hg', ⟨hg.sound.run hg', hserviceable, htyped.returned, ?_⟩, htyped.reports, htyped.params, hundisturbed⟩
  rw [htyped.index, hes, hg.index]
  rfl

omit [Arithmetic] in
/-- The events of a line: those before its last character, that character, and interrupts. -/
theorem exists_split {body : List UInt8} {ch : UInt8} (hes : chars es = body ++ [ch]) :
    ∃ es₁ malloc es₂, es = es₁ ++ .char malloc ch :: es₂ ∧ chars es₁ = body ∧ chars es₂ = [] := by
  obtain ⟨es₁, es₂, rfl, hes₁, hes₂⟩ := List.filterMap_eq_append_iff.1 hes
  obtain ⟨quiet, e, es₃, rfl, hquiet, he, hes₃⟩ := List.filterMap_eq_cons_iff.1 hes₂
  match e with
  | .char malloc c =>
      obtain rfl := Option.some.inj he
      refine ⟨es₁ ++ quiet, malloc, es₃, (List.append_assoc _ _ _).symm, ?_, hes₃⟩
      rw [chars, List.filterMap_append, hes₁, List.filterMap_eq_nil_iff.2 hquiet, List.append_nil]
  | .sampler _ | .ctimer4 => cases he

/-- **A line that is taken comes in**, with any interrupts before, in and behind it: the loop
reports success, the parameters of the line are in force, and it waits for the next one. -/
theorem line_total {q : Params} {body : List UInt8} {ch : UInt8} (hg : AtPrompt W g) (hch : Terminator ch)
    (hbody : ∀ b ∈ body, ¬ Terminator b) (hfits : (body ++ [ch]).length < 256) (hes : chars es = body ++ [ch])
    (hm : ∀ e ∈ es, e.Provided)
    (hparse : ∀ p rest, ∃ mem, updateParameters t ((body ++ [ch]) ++ 0 :: rest) p = .ok (q, mem, 0))
    (hq : Workable q) (hW : ∀ i < tableSize t q, W (waveEntry t q i)) :
    ∃ g', es.foldlM (step t) g = .ok g' ∧ AtPrompt W g' ∧ g'.reports = g.reports ++ [.set] ∧ g'.params = q ∧
      SetUp t q g'.peripherals := by
  obtain ⟨es₁, malloc, es₂, rfl, rfl, hes₂⟩ := exists_split hes
  rw [List.length_append, List.length_singleton] at hfits
  -- typing: the text stands at the beginning of the buffer
  obtain ⟨g₁, hg₁, hserviceable, -⟩ :=
    typed_total (t := t) hg.returned hg.serviceable hbody (by rw [hg.index, hg.sound.length]; omega)
  have htyped := typed_run hg.returned hbody hg₁
  have hindex : g₁.index = (chars es₁).length := by rw [htyped.index, hg.index, Nat.zero_add]
  have hlength : g₁.buffer.length = 256 := htyped.length.trans hg.sound.length
  have hsound := hg.sound.run hg₁
  -- the last character, and the interrupts behind it
  obtain ⟨mem, hok⟩ := hparse (resetActiveStrips g₁.params) (g₁.buffer.drop (g₁.index + 2))
  rw [← terminated_eq (htyped.text_eq hg.index) (by omega)] at hok
  obtain ⟨g₂, hg₂, hprompt, hreports, rfl, hsetUp⟩ := lastChar_total hsound htyped.returned hserviceable hch (by omega)
    hok hq hW (hm _ (List.mem_append_right _ List.mem_cons_self))
  obtain ⟨g', hg', hprompt', hreports', hparams, hundisturbed⟩ := hprompt.quiet (t := t) hes₂
  refine ⟨g', ?_, hprompt', ?_, hparams, hundisturbed.setUp_iff.2 hsetUp⟩
  · rw [List.foldlM_append, hg₁, Run.ok_bind, List.foldlM_cons, hg₂, Run.ok_bind, hg']
  · rw [hreports', hreports, htyped.reports]

end Gui
end GasSensor
