/-
# The command loop in GUI mode

`main` of `source/main.c` with `ModbusFlag` cleared: characters are collected in
`buffer` until a line ends, the strip flags are cleared, and the line is given to
`updateParameters` and `InitializeAllPeripherals`.  Interrupts run between the
characters; the processing of a line is one step.

`typed_run` says what is left when a line has been typed, whatever interrupts
came in between, and `processLine_cases` what its processing can do: refuse the
line, fail to initialise and return from `main`, or report success.
-/

import GasSensor.Firmware.Command
import GasSensor.Firmware.Applied
import GasSensor.Sampler.Visit

namespace GasSensor

open CString

/-- What the command loop tells the user about a line. -/
inductive Report
  /-- "Parameters received and set." -/
  | set
  /-- "Error receiving parameters. Please resend." -/
  | error
  /-- "Failed to initialize all peripherals" -/
  | failed
  deriving DecidableEq

/-- The firmware in GUI mode: the local variables of `main` with the parameters and
the peripherals. -/
structure Gui where
  params : Params
  peripherals : Peripherals
  /-- `char buffer[256]`. -/
  buffer : List UInt8
  /-- `int index`. -/
  index : ℕ
  /-- `bool Initializationsuccess`. -/
  initializationsuccess : Bool
  /-- What has been reported, oldest first. -/
  reports : List Report
  /-- What `main` returned, once it has. -/
  returned : Option ℤ

namespace Gui

open Firmware

variable [Arithmetic]

/-- The firmware when it starts. -/
def boot : Gui where
  params := .boot
  peripherals := .boot
  buffer := List.replicate 256 0
  index := 0
  initializationsuccess := false
  reports := []
  returned := none

/-- `ResetAllPeripherals`: both timers stop, the pins of the multiplexer are driven low
and DAC0 is turned off. -/
def resetAllPeripherals (d : Peripherals) : Peripherals where
  hotPlate := { d.hotPlate with ctimer4 := false }
  sampler := { d.sampler with
    mux := ⟨false, false, false, false⟩
    ctimer2 := none }
  dac0 := 0

/-- The loop in `main` that resets `active_strips`. -/
def resetActiveStrips (p : Params) : Params := { p with activeStrips := fun _ => false }

/-- The body of the command loop once a line has ended. -/
def processLine (t : Target) (malloc : Malloc ℕ) (g : Gui) : Except Fault Gui := do
  let buffer ← writeAt g.buffer g.index 0
  let peripherals := if g.initializationsuccess then resetAllPeripherals g.peripherals else g.peripherals
  let (params, buffer, status) ← updateParameters t buffer (resetActiveStrips g.params)
  if status = 0 then
    let (peripherals, status) ← initializeAllPeripherals t malloc params peripherals
    if status ≠ 0 then
      .ok { g with
        params, peripherals, buffer
        initializationsuccess := true
        reports := g.reports ++ [.failed]
        returned := some (-1) }
    else
      let buffer ← writeAt buffer 0 0
      .ok { g with
        params, peripherals, buffer
        index := 0
        reports := g.reports ++ [.set] }
  else
    let buffer ← writeAt buffer 0 0
    .ok { g with
      params, peripherals, buffer
      index := 0
      reports := g.reports ++ [.error] }

/-- `ch == '\n' || ch == '\r'`. -/
def Terminator (ch : UInt8) : Prop := ch = 10 ∨ ch = 13

instance (ch : UInt8) : Decidable (Terminator ch) := inferInstanceAs (Decidable (_ ∨ _))

/-- One pass of the command loop on a character, while `main` runs. -/
def receive (t : Target) (malloc : Malloc ℕ) (ch : UInt8) (g : Gui) : Except Fault Gui :=
  if g.returned.isSome then .ok g
  else do
    let buffer ← writeAt g.buffer g.index ch
    let g := { g with buffer, index := g.index + 1 }
    if Terminator ch then processLine t malloc g else .ok g

/-- What happens in GUI mode. -/
inductive Event
  /-- A character arrives; `malloc` answers if it is asked while the line is processed. -/
  | char (malloc : Malloc ℕ) (ch : UInt8)
  /-- An interrupt of the sampler. -/
  | sampler (e : Sampler.Event)
  /-- The interrupt of CTIMER4. -/
  | ctimer4

/-- One event. -/
def step (t : Target) (g : Gui) : Event → Except Fault Gui
  | .char malloc ch => receive t malloc ch g
  | .sampler e => g.peripherals.sampler.interrupt t false g.params e >>= fun s =>
      .ok { g with peripherals := { g.peripherals with sampler := s } }
  | .ctimer4 => g.peripherals.hotPlate.ctimer4IRQHandler >>= fun h =>
      .ok { g with peripherals := { g.peripherals with hotPlate := h } }

/-- The characters that arrive. -/
def chars (es : List Event) : List UInt8 :=
  es.filterMap fun
    | .char _ ch => some ch
    | _ => none

/-- A state the firmware can get into. -/
def Reachable (t : Target) (g : Gui) : Prop := ∃ es : List Event, es.foldlM (step t) boot = .ok g

variable {t : Target} {malloc : Malloc ℕ} {g g' g₁ g₂ : Gui} {es : List Event} {ch : UInt8}

/-- Without active strips an interrupt leaves the resistances alone. -/
theorem resistanceArray_of_inactive {p : Params} {s s' : Sampler} {modbusFlag : Bool}
    (hp : ∀ i, p.activeStrips i = false) {e : Sampler.Event}
    (h : s.interrupt t modbusFlag p e = .ok s') : s'.resistanceArray = s.resistanceArray := by
  unfold Sampler.interrupt at h
  split at h
  · cases h
    rfl
  cases e with
  | voltage x => cases h; rfl
  | current x => cases h; rfl
  | sysTick => cases h; rfl
  | tick =>
      rcases Sampler.tick_cases h with rfl | ⟨-, rfl⟩ | ⟨-, i, channel, rfl⟩
      · rfl
      · rfl
      · funext j
        exact if_neg (by simp [hp j])

/-- A character that ends no line is stored if it fits. -/
theorem receive_of_not_terminator (hret : g.returned = none) (hch : ¬ Terminator ch)
    (hlt : g.index < g.buffer.length) :
    receive t malloc ch g
      = .ok { g with
          buffer := g.buffer.set g.index ch
          index := g.index + 1 } := by
  have hnot : ¬ g.returned.isSome = true := by simp [hret]
  rw [receive, if_neg hnot, writeAt_of_lt hlt, Run.ok_bind, if_neg hch]

/-- Once a line is complete it is processed in a buffer that begins with its text. -/
theorem receive_terminator (hret : g.returned = none) (hch : Terminator ch) :
    step t g (.char malloc ch) = writeAt g.buffer g.index ch >>= fun buffer =>
      processLine t malloc { g with
        buffer
        index := g.index + 1 } := by
  have hnot : ¬ g.returned.isSome = true := by simp [hret]
  rw [step, receive, if_neg hnot]
  simp only [if_pos hch]

/-- What typing leaves: the characters are in the buffer, interrupts have run, and
nothing else has changed. -/
structure Typed (g : Gui) (typed : List UInt8) (g' : Gui) : Prop where
  text : g'.buffer.take g'.index = g.buffer.take g.index ++ typed
  index : g'.index = g.index + typed.length
  length : g'.buffer.length = g.buffer.length
  params : g'.params = g.params
  initializationsuccess : g'.initializationsuccess = g.initializationsuccess
  reports : g'.reports = g.reports
  returned : g'.returned = none
  resistances : (∀ i, g.params.activeStrips i = false) →
    g'.peripherals.sampler.resistanceArray = g.peripherals.sampler.resistanceArray

omit [Arithmetic] in
/-- What has been typed from the beginning of the buffer on. -/
theorem Typed.text_eq {typed : List UInt8} (h : Typed g typed g') (hidx : g.index = 0) :
    g'.buffer.take g'.index = typed := by
  rw [h.text, hidx, List.take_zero, List.nil_append]

/-- An event that ends no line is one step of typing. -/
theorem typed_step (hret : g.returned = none) {e : Event} (he : ∀ ch ∈ chars [e], ¬ Terminator ch)
    (h : step t g e = .ok g') : Typed g (chars [e]) g' := by
  cases e with
  | char malloc ch =>
      have hch : ¬ Terminator ch := he ch (by simp [chars])
      have hnot : ¬ g.returned.isSome = true := by simp [hret]
      rw [step, receive, if_neg hnot] at h
      obtain ⟨buffer, hbuffer, h⟩ := Run.bind_eq_ok.1 h
      rw [if_neg hch] at h
      obtain ⟨hlt, rfl⟩ := set_of_writeAt hbuffer
      cases h
      refine ⟨?_, rfl, List.length_set, rfl, rfl, rfl, hret, fun _ => rfl⟩
      change (g.buffer.set g.index ch).take (g.index + 1) = g.buffer.take g.index ++ [ch]
      rw [List.take_add_one, List.take_set_of_le le_rfl, List.getElem?_set_self hlt]
      rfl
  | sampler e =>
      obtain ⟨s, hs, h⟩ := Run.bind_eq_ok.1 h
      cases h
      exact ⟨(List.append_nil _).symm, rfl, rfl, rfl, rfl, rfl, hret,
        fun hp => resistanceArray_of_inactive hp hs⟩
  | ctimer4 =>
      obtain ⟨s, -, h⟩ := Run.bind_eq_ok.1 h
      cases h
      exact ⟨(List.append_nil _).symm, rfl, rfl, rfl, rfl, rfl, hret, fun _ => rfl⟩

/-- **What an event can do.**  Once `main` has returned there are only interrupts.  While it
runs, an event is a step of typing, or a character that ends a line, which is processed. -/
theorem step_cases {e : Event} (h : step t g e = .ok g') :
    (g.returned ≠ none ∧ ∃ peripherals, g' = { g with peripherals }) ∨
    (g.returned = none ∧ (∀ ch ∈ chars [e], ¬ Terminator ch) ∧ Typed g (chars [e]) g') ∨
    (g.returned = none ∧ ∃ malloc ch, e = .char malloc ch ∧ Terminator ch ∧ g.index < g.buffer.length ∧
      processLine t malloc { g with
        buffer := g.buffer.set g.index ch
        index := g.index + 1 } = .ok g') := by
  by_cases hret : g.returned = none
  · right
    by_cases he : ∀ ch ∈ chars [e], ¬ Terminator ch
    · exact .inl ⟨hret, he, typed_step hret he h⟩
    · -- the event is a character that ends a line
      cases e with
      | sampler e => simp [chars] at he
      | ctimer4 => simp [chars] at he
      | char malloc ch =>
          have hch : Terminator ch := by simpa [chars] using he
          rw [receive_terminator hret hch] at h
          obtain ⟨buffer, hbuffer, h⟩ := Run.bind_eq_ok.1 h
          obtain ⟨hlt, rfl⟩ := set_of_writeAt hbuffer
          exact .inr ⟨hret, malloc, ch, rfl, hch, hlt, h⟩
  · refine .inl ⟨hret, ?_⟩
    cases e with
    | char malloc ch =>
        rw [step, receive, if_pos (Option.isSome_iff_ne_none.2 hret)] at h
        cases h
        exact ⟨g.peripherals, rfl⟩
    | sampler e =>
        obtain ⟨s, -, h⟩ := Run.bind_eq_ok.1 h
        cases h
        exact ⟨_, rfl⟩
    | ctimer4 =>
        obtain ⟨s, -, h⟩ := Run.bind_eq_ok.1 h
        cases h
        exact ⟨_, rfl⟩

/-- **Typing a line**, whatever interrupts run in between. -/
theorem typed_run (hret : g.returned = none) (hes : ∀ ch ∈ chars es, ¬ Terminator ch)
    (h : es.foldlM (step t) g = .ok g') : Typed g (chars es) g' := by
  induction es generalizing g with
  | nil =>
      cases h
      exact ⟨(List.append_nil _).symm, rfl, rfl, rfl, rfl, rfl, hret, fun _ => rfl⟩
  | cons e es ih =>
      rw [List.foldlM_cons, Run.bind_eq_ok] at h
      obtain ⟨u, hu, h⟩ := h
      have hsplit : chars (e :: es) = chars [e] ++ chars es := by
        rw [chars, chars, chars, ← List.filterMap_append, List.singleton_append]
      rw [hsplit] at hes ⊢
      have h₁ := typed_step hret (fun ch hch => hes ch (List.mem_append_left _ hch)) hu
      have h₂ := ih h₁.returned (fun ch hch => hes ch (List.mem_append_right _ hch)) h
      exact {
        text := by rw [h₂.text, h₁.text, List.append_assoc]
        index := by rw [h₂.index, h₁.index, List.length_append, Nat.add_assoc]
        length := h₂.length.trans h₁.length
        params := h₂.params.trans h₁.params
        initializationsuccess := h₂.initializationsuccess.trans h₁.initializationsuccess
        reports := h₂.reports.trans h₁.reports
        returned := h₂.returned
        resistances := fun hp => (h₂.resistances (by rw [h₁.params]; exact hp)).trans (h₁.resistances hp) }

/-- What the body of the command loop can do. -/
theorem processLine_cases (h : processLine t malloc g = .ok g') (hinit : g.initializationsuccess = false) :
    g.index < g.buffer.length ∧ ∃ params mem status,
      updateParameters t (g.buffer.set g.index 0) (resetActiveStrips g.params)
        = .ok (params, mem, status) ∧
      ((status ≠ 0 ∧ g' = { g with
          params
          buffer := mem.set 0 0
          index := 0
          initializationsuccess := false
          reports := g.reports ++ [.error] }) ∨
        (status = 0 ∧ ∃ peripherals status',
          initializeAllPeripherals t malloc params g.peripherals = .ok (peripherals, status') ∧
          ((status' ≠ 0 ∧ g' = { g with
              params, peripherals
              buffer := mem
              initializationsuccess := true
              reports := g.reports ++ [.failed]
              returned := some (-1) }) ∨
            (status' = 0 ∧ g' = { g with
              params, peripherals
              buffer := mem.set 0 0
              index := 0
              initializationsuccess := false
              reports := g.reports ++ [.set] })))) := by
  obtain ⟨buffer, hbuffer, h⟩ := Run.bind_eq_ok.1 h
  obtain ⟨hlt, rfl⟩ := set_of_writeAt hbuffer
  obtain ⟨⟨params, mem, status⟩, hparse, h⟩ := Run.bind_eq_ok.1 h
  have hlen : 0 < mem.length := by
    rw [updateParameters_length hparse, List.length_set]
    omega
  refine ⟨hlt, params, mem, status, hparse, ?_⟩
  simp only [hinit, Bool.false_eq_true, if_false, writeAt_of_lt hlen, Run.ok_bind] at h
  split at h
  next hstatus =>
    obtain ⟨⟨peripherals, status'⟩, hall, h⟩ := Run.bind_eq_ok.1 h
    refine .inr ⟨hstatus, peripherals, status', hall, ?_⟩
    dsimp only at h
    split at h
    next hne => exact .inl ⟨hne, (Except.ok.inj h).symm⟩
    next heq => exact .inr ⟨not_not.1 heq, (Except.ok.inj h).symm⟩
  next hstatus => exact .inl ⟨hstatus, (Except.ok.inj h).symm⟩

/-- **The invariant of the command loop.**  `Initializationsuccess` is set only when
`main` returns, so that no line ever resets the peripherals. -/
structure Sound (g : Gui) : Prop where
  length : g.buffer.length = 256
  initializationsuccess : g.returned = none → g.initializationsuccess = false

theorem sound_boot : Sound boot := ⟨List.length_replicate, fun _ => rfl⟩

/-- Every event keeps the invariant. -/
theorem Sound.step (hg : Sound g) {e : Event} (h : step t g e = .ok g') : Sound g' := by
  rcases step_cases h with ⟨-, peripherals, rfl⟩ | ⟨hret, -, htyped⟩ | ⟨hret, malloc, ch, -, -, -, hline⟩
  · exact ⟨hg.length, hg.initializationsuccess⟩
  · exact ⟨htyped.length.trans hg.length, fun _ =>
      htyped.initializationsuccess.trans (hg.initializationsuccess hret)⟩
  · obtain ⟨-, params, mem, status, hparse, hcases⟩ :=
      processLine_cases hline (by exact hg.initializationsuccess hret)
    have hmem : mem.length = 256 := by
      rw [updateParameters_length hparse, List.length_set, List.length_set, hg.length]
    rcases hcases with ⟨-, rfl⟩ | ⟨-, peripherals, status', -, ⟨-, rfl⟩ | ⟨-, rfl⟩⟩
    · exact ⟨by simp [hmem], fun _ => rfl⟩
    · exact ⟨hmem, nofun⟩
    · exact ⟨by simp [hmem], fun _ => rfl⟩

theorem Reachable.sound (hg : Reachable t g) : Sound g := by
  obtain ⟨es, hes⟩ := hg
  exact Run.foldlM_invariant (I := Sound) (fun _ _ _ h hstep => h.step hstep) sound_boot hes

/-- The tokens of a line: `strtok` sees the text before the first NUL. -/
def lineTokens (body : List UInt8) (ch : UInt8) : List (List UInt8) :=
  tokens 44 ((body ++ [ch]).takeWhile (· ≠ 0))

omit [Arithmetic] in
/-- What is in the buffer when the terminator of a line and the NUL have been stored. -/
theorem set_terminator {body cells : List UInt8} (h : body.length + 2 ≤ cells.length) (ch : UInt8) :
    ((body ++ cells.drop body.length).set body.length ch).set (body.length + 1) 0
      = (body ++ [ch]) ++ 0 :: cells.drop (body.length + 2) := by
  have hdrop : cells.drop body.length
      = cells[body.length] :: cells[body.length + 1] :: cells.drop (body.length + 2) := by
    rw [List.drop_eq_getElem_cons (by omega), List.drop_eq_getElem_cons (by omega)]
  rw [hdrop, List.set_append_right _ _ le_rfl, List.set_append_right _ _ (by omega), Nat.sub_self,
    Nat.add_sub_cancel_left]
  simp only [List.set_cons_zero, List.set_cons_succ, List.append_assoc, List.cons_append, List.nil_append]

omit [Arithmetic] in
/-- The line and its NUL stand before what was in the buffer behind them. -/
theorem terminated_eq {body : List UInt8} (htext : g.buffer.take g.index = body)
    (hlt : g.index + 1 < g.buffer.length) (ch : UInt8) :
    (g.buffer.set g.index ch).set (g.index + 1) 0 = (body ++ [ch]) ++ 0 :: g.buffer.drop (g.index + 2) := by
  have hindex : body.length = g.index := by
    rw [← htext, List.length_take]
    omega
  have hset := set_terminator (show body.length + 2 ≤ g.buffer.length by omega) ch
  rwa [hindex, ← htext, List.take_append_drop, htext] at hset

end Gui
end GasSensor
