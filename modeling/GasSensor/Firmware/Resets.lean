/-
# Whether the peripherals are reset before they are initialised again

`main` of `source/main.c` in GUI mode calls `ResetAllPeripherals` before it takes a line
if `Initializationsuccess` is set, and `InitializeAllPeripherals` for every line that
`updateParameters` accepts.  `traceStep` is the command loop with these calls recorded,
and `trace_run` says that recording them changes nothing.

The flag is set where initialising has failed, right before `main` returns.  So no line
is ever received with the flag set, and nothing is reset (`traceStep_cases`).  The calls
are in order exactly as long as one line is accepted: `resetBetween_iff`.
-/

import GasSensor.Firmware.RejectedLine

namespace GasSensor
namespace Gui

open CString Firmware

/-- The calls of `main` that matter here. -/
inductive Call
  | resetAllPeripherals
  | initializeAllPeripherals
  deriving DecidableEq

/-- **The peripherals are reset in between**: after each call of
`InitializeAllPeripherals` there is a call of `ResetAllPeripherals` before the next. -/
def ResetBetween (calls : List Call) : Prop :=
  ∀ before between after,
    calls = before ++ .initializeAllPeripherals :: (between ++ .initializeAllPeripherals :: after) →
      Call.resetAllPeripherals ∈ between

section
variable [Arithmetic]

/-- `processLine` with the calls it makes. -/
def processLineCalls (t : Target) (malloc : Malloc ℕ) (g : Gui) : Except Fault (Gui × List Call) := do
  let buffer ← writeAt g.buffer g.index 0
  let (peripherals, calls) : Peripherals × List Call :=
    if g.initializationsuccess then (resetAllPeripherals g.peripherals, [.resetAllPeripherals])
    else (g.peripherals, [])
  let (params, buffer, status) ← updateParameters t buffer (resetActiveStrips g.params)
  if status = 0 then
    let calls := calls ++ [.initializeAllPeripherals]
    let (peripherals, status) ← initializeAllPeripherals t malloc params peripherals
    if status ≠ 0 then
      .ok ({ g with
        params, peripherals, buffer
        initializationsuccess := true
        reports := g.reports ++ [.failed]
        returned := some (-1) }, calls)
    else
      let buffer ← writeAt buffer 0 0
      .ok ({ g with
        params, peripherals, buffer
        index := 0
        reports := g.reports ++ [.set] }, calls)
  else
    let buffer ← writeAt buffer 0 0
    .ok ({ g with
      params, peripherals, buffer
      index := 0
      reports := g.reports ++ [.error] }, calls)

/-- The firmware in GUI mode with the calls made so far, oldest first. -/
structure Traced where
  gui : Gui
  calls : List Call

/-- One event, with its calls recorded. -/
def traceStep (t : Target) (r : Traced) : Event → Except Fault Traced
  | .char malloc ch =>
      if r.gui.returned.isSome then .ok r
      else do
        let buffer ← writeAt r.gui.buffer r.gui.index ch
        let g := { r.gui with buffer, index := r.gui.index + 1 }
        if Terminator ch then
          let (g, calls) ← processLineCalls t malloc g
          .ok ⟨g, r.calls ++ calls⟩
        else .ok ⟨g, r.calls⟩
  | e => step t r.gui e >>= fun g => .ok ⟨g, r.calls⟩

/-- The event ends a line with all seven fields, and `main` runs. -/
def EndsCommand (g : Gui) (e : Event) : Prop :=
  g.returned = none ∧ ∃ malloc ch, e = .char malloc ch ∧ Terminator ch ∧
    7 ≤ (lineTokens (g.buffer.take g.index) ch).length

/-- **No further command.**  If the event ends a line with all seven fields, then none has
been set before. -/
def FirstCommand (g : Gui) (e : Event) : Prop := EndsCommand g e → Report.set ∉ g.reports

variable {t : Target} {malloc : Malloc ℕ} {g g' : Gui} {r r' : Traced} {calls : List Call} {e : Event}
  {ch : UInt8}

theorem processLineCalls_fst (t : Target) (malloc : Malloc ℕ) (g : Gui) :
    Prod.fst <$> processLineCalls t malloc g = processLine t malloc g := by
  have hcalls : (if g.initializationsuccess then
        (resetAllPeripherals g.peripherals, [Call.resetAllPeripherals]) else (g.peripherals, [])).1
      = if g.initializationsuccess then resetAllPeripherals g.peripherals else g.peripherals := by
    split <;> rfl
  rw [processLineCalls, processLine, ← hcalls]
  cases writeAt g.buffer g.index 0 with
  | error f => rfl
  | ok buffer =>
      rw [Run.ok_bind, Run.ok_bind]
      dsimp only
      cases updateParameters t buffer (resetActiveStrips g.params) with
      | error f => rfl
      | ok u =>
          obtain ⟨params, mem, status⟩ := u
          rw [Run.ok_bind, Run.ok_bind]
          dsimp only
          by_cases hstatus : status = 0
          · rw [if_pos hstatus, if_pos hstatus]
            cases initializeAllPeripherals t malloc params _ with
            | error f => rfl
            | ok u =>
                rw [Run.ok_bind, Run.ok_bind]
                split
                · rfl
                · cases writeAt mem 0 0 <;> rfl
          · rw [if_neg hstatus, if_neg hstatus]
            cases writeAt mem 0 0 <;> rfl

theorem traceStep_gui (t : Target) (r : Traced) (e : Event) :
    Traced.gui <$> traceStep t r e = step t r.gui e := by
  have hquiet : ∀ x : Except Fault Gui, Traced.gui <$> (x >>= fun g => .ok (⟨g, r.calls⟩ : Traced)) = x := by
    intro x
    cases x <;> rfl
  cases e with
  | char malloc ch =>
      rw [traceStep, step, receive]
      split
      · rfl
      · cases writeAt r.gui.buffer r.gui.index ch with
        | error f => rfl
        | ok buffer =>
            rw [Run.ok_bind, Run.ok_bind]
            dsimp only
            split
            · rw [← processLineCalls_fst]
              cases processLineCalls t malloc { r.gui with buffer, index := r.gui.index + 1 } <;> rfl
            · rfl
  | sampler e => exact hquiet _
  | ctimer4 => exact hquiet _

/-- **Recording does not change the run.** -/
theorem trace_run (t : Target) (es : List Event) (r : Traced) :
    Traced.gui <$> es.foldlM (traceStep t) r = es.foldlM (step t) r.gui := by
  induction es generalizing r with
  | nil => rfl
  | cons e es ih =>
      rw [List.foldlM_cons, List.foldlM_cons, ← traceStep_gui]
      cases traceStep t r e with
      | error f => rfl
      | ok r' => exact ih r'

/-- With the flag clear, a line is initialised for if `updateParameters` accepts it, and
nothing is reset. -/
theorem processLineCalls_cases (h : processLineCalls t malloc g = .ok (g', calls))
    (hinit : g.initializationsuccess = false) :
    g.index < g.buffer.length ∧ ∃ params mem status,
      updateParameters t (g.buffer.set g.index 0) (resetActiveStrips g.params) = .ok (params, mem, status) ∧
      ((status ≠ 0 ∧ calls = [] ∧ g'.reports = g.reports ++ [.error]) ∨
        (status = 0 ∧ calls = [.initializeAllPeripherals] ∧
          (g'.returned = none → g'.reports = g.reports ++ [.set]))) := by
  have hline : processLine t malloc g = .ok g' := by
    rw [← processLineCalls_fst, h]
    rfl
  obtain ⟨hlt, params, mem, status, hparse, hcases⟩ := processLine_cases hline hinit
  refine ⟨hlt, params, mem, status, hparse, ?_⟩
  rw [processLineCalls, writeAt_of_lt hlt, Run.ok_bind, hinit] at h
  simp only [Bool.false_eq_true, if_false, hparse, Run.ok_bind, List.nil_append] at h
  rcases hcases with ⟨hne, rfl⟩ | ⟨hzero, peripherals, status', hall, ⟨hne', rfl⟩ | ⟨hzero', rfl⟩⟩
  · rw [if_neg hne, Run.bind_eq_ok] at h
    obtain ⟨buffer, -, h⟩ := h
    cases h
    exact .inl ⟨hne, rfl, rfl⟩
  · rw [if_pos hzero, hall, Run.ok_bind] at h
    dsimp only at h
    rw [if_pos hne'] at h
    cases h
    exact .inr ⟨hzero, rfl, nofun⟩
  · rw [if_pos hzero, hall, Run.ok_bind] at h
    dsimp only at h
    rw [if_neg (not_not.2 hzero'), Run.bind_eq_ok] at h
    obtain ⟨buffer, -, h⟩ := h
    cases h
    exact .inr ⟨hzero, rfl, fun _ => rfl⟩

/-- A line is a command exactly if `updateParameters` accepts it. -/
theorem endsCommand_iff {p params : Params} {mem : List UInt8} {status : ℤ} (hret : g.returned = none)
    (malloc : Malloc ℕ) (hch : Terminator ch) (hlt : g.index + 1 < g.buffer.length)
    (hparse : updateParameters t ((g.buffer.set g.index ch).set (g.index + 1) 0) p = .ok (params, mem, status)) :
    EndsCommand g (.char malloc ch) ↔ status = 0 := by
  rw [terminated_eq rfl hlt] at hparse
  constructor
  · rintro ⟨-, malloc', ch', heq, -, hmany⟩
    cases heq
    exact (updateParameters_line_of_le t _ hmany hparse).1
  · intro hstatus
    refine ⟨hret, malloc, ch, rfl, hch, ?_⟩
    rw [hstatus] at hparse
    exact le_of_accepted hparse

/-- **What an event calls.**  Only a command makes a call, and it never resets. -/
theorem traceStep_cases (hg : Sound r.gui) (h : traceStep t r e = .ok r') :
    (¬ EndsCommand r.gui e ∧ r'.calls = r.calls ∧ (r'.gui.returned = none → r.gui.returned = none ∧
        r'.gui.reports.count .set = r.gui.reports.count .set)) ∨
      (EndsCommand r.gui e ∧ r'.calls = r.calls ++ [.initializeAllPeripherals] ∧
        (r'.gui.returned = none → r'.gui.reports = r.gui.reports ++ [.set])) := by
  have hquiet : ∀ x : Except Fault Gui, (x >>= fun g => .ok (⟨g, r.calls⟩ : Traced)) = .ok r' →
      (∀ g, x = .ok g → g.returned = r.gui.returned ∧ g.reports = r.gui.reports) →
      r'.calls = r.calls ∧ (r'.gui.returned = none → r.gui.returned = none ∧
        r'.gui.reports.count .set = r.gui.reports.count .set) := by
    intro x hx hkeep
    obtain ⟨g, hg, hx⟩ := Run.bind_eq_ok.1 hx
    cases hx
    obtain ⟨hret, hrep⟩ := hkeep g hg
    exact ⟨rfl, fun hnone => ⟨hret ▸ hnone, by rw [hrep]⟩⟩
  cases e with
  | sampler e =>
      refine .inl ⟨nofun, hquiet _ h fun g hg => ?_⟩
      obtain ⟨s, -, hg⟩ := Run.bind_eq_ok.1 hg
      cases hg
      exact ⟨rfl, rfl⟩
  | ctimer4 =>
      refine .inl ⟨nofun, hquiet _ h fun g hg => ?_⟩
      obtain ⟨s, -, hg⟩ := Run.bind_eq_ok.1 hg
      cases hg
      exact ⟨rfl, rfl⟩
  | char malloc ch =>
      rw [traceStep] at h
      split at h
      next hret =>
        cases h
        refine .inl ⟨fun hcmd => ?_, rfl, fun hnone => ⟨hnone, rfl⟩⟩
        rw [hcmd.1] at hret
        cases hret
      next hret =>
        have hnone : r.gui.returned = none := Option.not_isSome_iff_eq_none.1 hret
        obtain ⟨buffer, hwrite, h⟩ := Run.bind_eq_ok.1 h
        obtain ⟨-, rfl⟩ := set_of_writeAt hwrite
        split at h
        next hch =>
          obtain ⟨⟨g, calls⟩, hline, h⟩ := Run.bind_eq_ok.1 h
          cases h
          obtain ⟨hlt, params, mem, status, hparse, hcases⟩ :=
            processLineCalls_cases hline (by exact hg.initializationsuccess hnone)
          rw [List.length_set] at hlt
          have hcmd := endsCommand_iff hnone malloc hch hlt hparse
          rcases hcases with ⟨hne, rfl, hrep⟩ | ⟨hzero, rfl, hrep⟩
          · refine .inl ⟨fun h => hne (hcmd.1 h), List.append_nil _, fun _ => ⟨hnone, ?_⟩⟩
            rw [hrep, List.count_append]
            rfl
          · exact .inr ⟨hcmd.2 hzero, rfl, hrep⟩
        next hch =>
          cases h
          refine .inl ⟨?_, rfl, fun _ => ⟨hnone, rfl⟩⟩
          rintro ⟨-, malloc', ch', heq, hch', -⟩
          cases heq
          exact hch hch'

omit [Arithmetic] in
/-- Without a reset the calls are in order exactly up to the first. -/
theorem resetBetween_replicate_iff (n : ℕ) :
    ResetBetween (List.replicate n .initializeAllPeripherals) ↔ n ≤ 1 := by
  constructor
  · intro h
    by_contra hn
    obtain ⟨k, rfl⟩ := Nat.exists_eq_add_of_le (not_le.1 hn)
    have hreset := h [] [] (List.replicate k .initializeAllPeripherals) (by rw [List.replicate_add]; rfl)
    cases hreset
  · intro hn before between after heq
    have hlen := congrArg List.length heq
    simp only [List.length_replicate, List.length_append, List.length_cons] at hlen
    omega

/-- **The invariant of the command loop with its calls**: nothing has been reset, and while
`main` runs every initialisation has been reported. -/
structure Unreset (r : Traced) : Prop where
  sound : Sound r.gui
  calls : ∃ n, r.calls = List.replicate n .initializeAllPeripherals ∧
    (r.gui.returned = none → n = r.gui.reports.count .set)

/-- Nothing has been called at boot. -/
def Traced.boot : Traced := ⟨.boot, []⟩

theorem unreset_boot : Unreset .boot := ⟨sound_boot, 0, rfl, fun _ => rfl⟩

/-- **One event** keeps the invariant, and the calls in order exactly if it is no further
command. -/
theorem Unreset.step (hr : Unreset r) (h : traceStep t r e = .ok r') :
    Unreset r' ∧ (ResetBetween r.calls → (ResetBetween r'.calls ↔ FirstCommand r.gui e)) := by
  have hsound : Sound r'.gui := by
    refine hr.sound.step (e := e) (t := t) ?_
    rw [← traceStep_gui, h]
    rfl
  obtain ⟨n, hcalls, hn⟩ := hr.calls
  rcases traceStep_cases hr.sound h with ⟨hcmd, hsame, hrep⟩ | ⟨hcmd, hnext, hrep⟩
  · refine ⟨⟨hsound, n, hsame.trans hcalls, fun hnone => ?_⟩, fun hbetween => ?_⟩
    · rw [(hrep hnone).2]
      exact hn (hrep hnone).1
    · rw [hsame]
      exact iff_of_true hbetween fun h => absurd h hcmd
  · have hcalls' : r'.calls = List.replicate (n + 1) .initializeAllPeripherals := by
      rw [hnext, hcalls, List.replicate_succ']
    refine ⟨⟨hsound, n + 1, hcalls', fun hnone => ?_⟩, fun _ => ?_⟩
    · rw [hrep hnone, List.count_append, ← hn hcmd.1]
      rfl
    · rw [hcalls', resetBetween_replicate_iff, FirstCommand, forall_prop_of_true hcmd, ← List.count_eq_zero,
        ← hn hcmd.1]
      omega

/-- **The peripherals are reset before they are initialised again exactly if that never
happens.**  In every run of the command loop from boot, with any lines and any
interrupts between the characters, the calls are in order in all states reached if and
only if no line with all seven fields ends after one has been set. -/
theorem resetBetween_iff (t : Target) (es : List Event) :
    (∀ fs, fs <+: es → ∀ r, fs.foldlM (traceStep t) .boot = .ok r → ResetBetween r.calls) ↔
      Run.AtEveryStep (traceStep t) (fun r e => FirstCommand r.gui e) .boot es :=
  Run.foldlM_reached_iff unreset_boot ((resetBetween_replicate_iff 0).2 (Nat.zero_le 1))
    (fun _ _ _ hr h => (hr.step h).1) (fun _ _ _ hr hbetween h => (hr.step h).2 hbetween) es

end

attribute [local instance] Arithmetic.uncontracted

/-- The line `0,50,0.5,7,1,8,10000000`: a sine of 0.5 Hz, and the first strip. -/
def sineLine : List UInt8 :=
  [48, 44, 53, 48, 44, 48, 46, 53, 44, 55, 44, 49, 44, 56, 44, 49, 48, 48, 48, 48, 48, 48, 48, 10]

/-- **The same line twice is initialised for twice, and nothing is reset.** -/
theorem sineLine_without_reset :
    Traced.calls <$> (typeLine (sineLine ++ sineLine)).foldlM (traceStep .saturating) .boot
      = .ok [.initializeAllPeripherals, .initializeAllPeripherals] ∧
    ¬ ResetBetween [.initializeAllPeripherals, .initializeAllPeripherals] := by
  refine ⟨by decide +kernel, fun h => ?_⟩
  exact absurd ((resetBetween_replicate_iff 2).1 h) (by decide)

end Gui
end GasSensor
