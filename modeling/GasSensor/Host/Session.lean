/-
# What the window sends

The only bytes the window ever sends are the lines of the measurements it starts
(`written_run`), and the command loop of the firmware takes each of them as it was
entered, up to the rounding of the types it keeps (`commands_total`), whatever interrupts
run while the characters come in.

`session_agrees` puts the two together: the firmware keeps running, and at any time it has
reported success once for each line it has got and nothing else, what the user entered for
the last of these lines is in force, and the heater has got no code but of the waveforms
the user has entered (`Served`).  Interrupts come while `main` waits for a character here;
a line is processed in one step.
-/

import GasSensor.Firmware.Uptime
import GasSensor.Host.Application

namespace GasSensor
namespace Host

open FloatingPoint Numeral Firmware

/-- The line for an input. -/
def commandLine (f : Fields) : List UInt8 := (startMeasurement f).getD []

/-- What is printed before the line feed has neither of the bytes that end a line. -/
theorem exists_sendParameters_eq (waveType dutyCycle : ℤ) (frequency amplitude excitation mux : Decimal)
    (stripSelection : Strip → Bool) : ∃ body,
      sendParameters waveType dutyCycle frequency amplitude excitation mux (stripText stripSelection) = body ++ [10] ∧
        ∀ b ∈ body, b ≠ 10 ∧ b ≠ 13 := by
  refine ⟨[44].intercalate [formatInt waveType, formatInt dutyCycle, frequency.repr, amplitude.repr,
    excitation.repr, mux.repr, stripText stripSelection], ?_, fun b hb => ?_⟩
  · simp only [sendParameters, commandFields, List.intercalate_cons_cons, List.intercalate_singleton,
      List.append_assoc]
  have hnumeral : ∀ b, Decimal.IsNumeral b → b ≠ 10 ∧ b ≠ 13 := by
    intro b hb
    constructor <;>
      · rintro rfl
        exact absurd hb (by decide)
  have hstrips : ∀ b ∈ stripText stripSelection, b ≠ 10 ∧ b ≠ 13 := by
    intro b hb
    obtain ⟨i, -, rfl⟩ := List.mem_map.1 hb
    split <;> decide
  rcases CString.mem_intercalate hb with rfl | ⟨tok, htok, hb⟩
  · decide
  · revert tok
    simp only [List.forall_mem_cons]
    exact ⟨fun hb => hnumeral b (Decimal.isNumeral_formatInt _ b hb),
      fun hb => hnumeral b (Decimal.isNumeral_formatInt _ b hb),
      fun hb => hnumeral b (Decimal.isNumeral_repr _ b hb), fun hb => hnumeral b (Decimal.isNumeral_repr _ b hb),
      fun hb => hnumeral b (Decimal.isNumeral_repr _ b hb), fun hb => hnumeral b (Decimal.isNumeral_repr _ b hb),
      fun hb => hstrips b hb, List.forall_mem_nil _⟩

section

variable [Arithmetic]

/-- **The line of an accepted input**: `updateParameters` takes it as it was entered, from any
previous parameters and whatever stands behind it. -/
theorem commandLine_decoded (t : Target) {f : Fields} (h : f.Accepted) :
    (∃ body, commandLine f = body ++ [10] ∧ ∀ b ∈ body, b ≠ 10 ∧ b ≠ 13) ∧ ∃ q, Decoded f q ∧
      ∀ p rest, ∃ mem, updateParameters t (commandLine f ++ 0 :: rest) p = .ok (q, mem, 0) := by
  obtain ⟨line, q, hline, hq, hparse⟩ := h.decoded
  obtain ⟨dutyCycle, mux, frequency, amplitude, excitation, -, -, -, -, -, -, -, -, hvalues⟩ := h.values
  obtain rfl := Option.some.inj (hline.symm.trans hvalues)
  rw [commandLine, hline, Option.getD_some]
  exact ⟨exists_sendParameters_eq _ _ _ _ _ _ _, q, hq, hparse t⟩

/-- A `float` between two numbers that keep their order. -/
theorem convert_round_mem {x low high : ℚ} {a b : Value} (hx : low ≤ x ∧ x ≤ high)
    (hlow : a ≤ float.convert (double.round low)) (hhigh : float.convert (double.round high) ≤ b) :
    a ≤ float.convert (double.round x) ∧ float.convert (double.round x) ≤ b :=
  ⟨Value.le_trans hlow (float.convert_mono (double.monotone hx.1)),
    Value.le_trans (float.convert_mono (double.monotone hx.2)) hhigh⟩

/-- The configuration takes what has been entered. -/
theorem Fields.Accepted.workable {f : Fields} (h : f.Accepted) {q : Params} (hq : Decoded f q) : Workable q := by
  obtain ⟨dutyCycle, mux, frequency, amplitude, excitation, hd, hduty, hm, hmux, hf, ha, hamp, he, -⟩ := h.values
  have hdutyCycle := hq.dutyCycle
  have hfrequency := hq.desiredFrequency
  have hamplitude := hq.desiredAmplitude
  have hexcitation := hq.gExcitationVoltagePerResistor
  have hmuxFreq := hq.muxFreq
  rw [hd, Option.some.injEq] at hdutyCycle
  rw [hf, Option.map_some, Option.some.injEq] at hfrequency
  rw [ha, Option.map_some, Option.some.injEq] at hamplitude
  rw [he, Option.map_some, Option.some.injEq] at hexcitation
  rw [hm, Option.some.injEq] at hmuxFreq
  obtain ⟨x, hx, hxrange⟩ := inRange_map.1 h.1
  obtain rfl : excitation = x := Option.some.inj (he.symm.trans hx)
  obtain ⟨y, hy, hyrange⟩ := inRange_map.1 h.2.2.1
  obtain rfl : frequency = y := Option.some.inj (hf.symm.trans hy)
  obtain ⟨volts, hvolts, -, hle⟩ := double.exists_round (n := 23) (m := 0) (by decide)
    (by exact_mod_cast hamp.1) (by exact_mod_cast hamp.2)
  refine ⟨?_, ⟨?_, by omega, ?_, ?_⟩, ?_, by omega⟩
  · rw [Params.Counted, countStrips_eq, hq.activeStrips]
    exact hq.gStripCount
  · rw [hq.waveType]
    exact Nat.lt_succ_iff.1 f.waveTypeDropdown.isLt
  · rw [← hfrequency]
    exact convert_round_mem hyrange
      (rounding_cases (P := fun r r' => r'.round (2 / 1000) ≤ r.convert (r'.round (2 / 1000)))
        (by decide +kernel) (by decide +kernel))
      (rounding_cases (P := fun r r' => r.convert (r'.round (1 / 2)) ≤ .finite (1 / 2))
        (by decide +kernel) (by decide +kernel))
  · rw [← hamplitude, hvolts, Value.truncate, Int.toNat_le, Int.floor_le_iff]
    push_cast at hle ⊢
    linarith
  · rw [← hexcitation]
    exact convert_round_mem hxrange
      (rounding_cases (P := fun r r' => .finite (1 / 2) ≤ r.convert (r'.round (1 / 2)))
        (by decide +kernel) (by decide +kernel))
      (rounding_cases (P := fun r r' => r.convert (r'.round 1) ≤ .finite 1) (by decide +kernel) (by decide +kernel))

open Gui HotPlate

/-- A code of a waveform that has been entered, or 0. -/
def EnteredCode (t : Target) (fs : List Fields) (c : ℕ) : Prop :=
  c = 0 ∨ ∃ f ∈ fs, ∃ q, Decoded f q ∧ ∃ i < tableSize t q, c = waveEntry t q i

/-- **The firmware has been served with what has been entered** so far. -/
structure Served (t : Target) (entered : List Fields) (g : Gui) : Prop where
  returned : g.returned = none
  reports : g.reports = List.replicate entered.length .set
  setUp : ∀ f, entered.getLast? = some f → Decoded f g.params ∧ SetUp t g.params g.peripherals
  codes : ∀ c ∈ g.peripherals.hotPlate.codes, EnteredCode t entered c

variable {t : Target} {g : Gui} {es : List Gui.Event} {W : ℕ → Prop}

/-- **A line comes in**: the loop reports success, what has been entered is in force, and it
waits for the next line. -/
theorem command_total {f : Fields} (hf : f.Accepted) (hfits : (commandLine f).length < 256)
    (hW : ∀ q, Decoded f q → ∀ i < tableSize t q, W (waveEntry t q i)) (hg : AtPrompt W g)
    (hes : chars es = commandLine f) (hm : ∀ e ∈ es, e.Provided) :
    ∃ g', es.foldlM (Gui.step t) g = .ok g' ∧ AtPrompt W g' ∧ g'.reports = g.reports ++ [.set] ∧
      Decoded f g'.params ∧ SetUp t g'.params g'.peripherals := by
  obtain ⟨⟨body, hline, hbody⟩, q, hq, hparse⟩ := commandLine_decoded t hf
  rw [hline] at hfits hes hparse
  obtain ⟨g', hg', hprompt, hreports, rfl, hsetUp⟩ := line_total hg (.inl rfl)
    (fun b hb hend => hend.elim (hbody b hb).1 (hbody b hb).2) hfits hes hm hparse (hf.workable hq) (hW q hq)
  exact ⟨g', hg', hprompt, hreports, hq, hsetUp⟩

/-- **Lines come in one after another**, and a part of the next one. -/
theorem commands_total {fs : List Fields} (hfs : ∀ f ∈ fs, f.Accepted ∧ (commandLine f).length < 256)
    (hW : ∀ f ∈ fs, ∀ q, Decoded f q → ∀ i < tableSize t q, W (waveEntry t q i)) (hg : AtPrompt W g)
    {part : List UInt8} (hpart : ∀ b ∈ part, ¬ Terminator b) (hlength : part.length ≤ 256)
    (hes : chars es = (fs.map commandLine).flatten ++ part) (hm : ∀ e ∈ es, e.Provided) :
    ∃ g', es.foldlM (Gui.step t) g = .ok g' ∧ g'.returned = none ∧ Codes W g'.peripherals.hotPlate ∧
      g'.reports = g.reports ++ List.replicate fs.length .set ∧
      (fs = [] → g'.params = g.params ∧ Undisturbed g.peripherals g'.peripherals) ∧
      ∀ f, fs.getLast? = some f → Decoded f g'.params ∧ SetUp t g'.params g'.peripherals := by
  induction fs generalizing g es with
  | nil =>
      obtain rfl : chars es = part := hes
      obtain ⟨g', hg', hserviceable, hundisturbed⟩ := typed_total (t := t) hg.returned hg.serviceable hpart
        (by rw [hg.index, hg.sound.length, Nat.zero_add]; exact hlength)
      have htyped := typed_run hg.returned hpart hg'
      exact ⟨g', hg', htyped.returned, hserviceable.codes, by rw [htyped.reports]; exact (List.append_nil _).symm,
        fun _ => ⟨htyped.params, hundisturbed⟩, fun _ hlast => by cases hlast⟩
  | cons f fs ih =>
      obtain ⟨⟨hf, hfits⟩, hrest⟩ := List.forall_mem_cons.1 hfs
      obtain ⟨hWf, hWrest⟩ := List.forall_mem_cons.1 hW
      rw [List.map_cons, List.flatten_cons, List.append_assoc] at hes
      obtain ⟨es₁, es₂, rfl, hes₁, hes₂⟩ := List.filterMap_eq_append_iff.1 hes
      obtain ⟨hm₁, hm₂⟩ := List.forall_mem_append.1 hm
      obtain ⟨g₁, hg₁, hprompt, hreports, hdecoded, hsetUp⟩ := command_total hf hfits hWf hg hes₁ hm₁
      obtain ⟨g', hg', hret, hcodes, hreports', hsame, hlast⟩ := ih hrest hWrest hprompt hes₂ hm₂
      refine ⟨g', by rw [List.foldlM_append, hg₁, Run.ok_bind, hg'], hret, hcodes, ?_, (fun hnil => by cases hnil),
        fun last hmem => ?_⟩
      · rw [hreports', hreports, List.length_cons, List.replicate_succ, List.append_assoc]
        rfl
      · cases fs with
        | nil =>
            obtain rfl := Option.some.inj hmem
            obtain ⟨hparams, hundisturbed⟩ := hsame rfl
            rw [hparams]
            exact ⟨hdecoded, hundisturbed.setUp_iff.2 hsetUp⟩
        | cons next fs => exact hlast last (by rwa [List.getLast?_cons_cons] at hmem)

/-- **A session from boot.** -/
theorem served_total {fs : List Fields} (hfs : ∀ f ∈ fs, f.Accepted ∧ (commandLine f).length < 256)
    {part : List UInt8} (hpart : ∀ b ∈ part, ¬ Terminator b) (hlength : part.length ≤ 256)
    (hes : chars es = (fs.map commandLine).flatten ++ part) (hm : ∀ e ∈ es, e.Provided) :
    ∃ g, es.foldlM (Gui.step t) .boot = .ok g ∧ Served t fs g := by
  have hboot : AtPrompt (EnteredCode t fs) .boot := atPrompt_boot (.inl rfl)
  obtain ⟨g, hg, hret, hcodes, hreports, -, hlast⟩ := commands_total (t := t) hfs
    (fun f hf q hq i hi => .inr ⟨f, hf, q, hq, i, hi, rfl⟩) hboot hpart hlength hes hm
  exact ⟨g, hg, hret, hreports, hlast, hcodes.codes⟩

end

namespace MainWindow

open Trace

/-- What belongs to thread `k`. -/
def ofThread {α : Type*} (k : ℕ) (xs : List (ℕ × α)) : List α :=
  xs.filterMap fun x => if x.1 = k then some x.2 else none

theorem ofThread_append {α : Type*} (k : ℕ) (xs ys : List (ℕ × α)) :
    ofThread k (xs ++ ys) = ofThread k xs ++ ofThread k ys := List.filterMap_append

theorem ofThread_singleton {α : Type*} (k j : ℕ) (x : α) : ofThread j [(k, x)] = if j = k then [x] else [] := by
  by_cases hjk : j = k
  · simp [ofThread, hjk]
  · simp [ofThread, hjk, Ne.symm hjk]

/-- What is sent, as it was entered, with the number of the thread that sends it. -/
def sentFields (w : MainWindow) : Event → List (ℕ × Fields)
  | .startMeasurement true f _ true => if w.CanSend f then [(w.threads.length - 1, w.entered f)] else []
  | _ => []

/-- Each thread has written the lines of what was sent by it, and nothing else. -/
structure Written (sent : List (ℕ × Fields)) (threads : List SerialThread) : Prop where
  written : ∀ k c, threads[k]? = some c → c.written = ((ofThread k sent).map commandLine).flatten
  fresh : ∀ k, threads.length ≤ k → ofThread k sent = []
  accepted : ∀ k, ∀ f ∈ ofThread k sent, f.Accepted

variable {sent : List (ℕ × Fields)} {threads : List SerialThread}

/-- A thread takes a step in which it sends nothing. -/
theorem Written.modify (h : Written sent threads) (k : ℕ) {f : SerialThread → SerialThread}
    (hf : ∀ c, (f c).written = c.written) : Written sent (threads.modify k f) where
  written j c hc := by
    rw [List.getElem?_modify] at hc
    obtain ⟨c, hj, rfl⟩ := Option.map_eq_some_iff.1 hc
    split
    · rw [hf]
      exact h.written j c hj
    · exact h.written j c hj
  fresh j hj := h.fresh j (by rwa [List.length_modify] at hj)
  accepted := h.accepted

/-- A thread sends a line. -/
theorem Written.write (h : Written sent threads) {k : ℕ} (hk : k < threads.length) {f : Fields} (hf : f.Accepted) :
    Written (sent ++ [(k, f)]) (threads.modify k (·.write (commandLine f))) := by
  have hof : ∀ j, ofThread j (sent ++ [(k, f)]) = ofThread j sent ++ if j = k then [f] else [] := fun j =>
    (ofThread_append j sent _).trans (congrArg _ (ofThread_singleton k j f))
  refine ⟨fun j c hc => ?_, fun j hj => ?_, fun j => ?_⟩
  · rw [List.getElem?_modify] at hc
    obtain ⟨c, hj, rfl⟩ := Option.map_eq_some_iff.1 hc
    have hwritten := h.written j c hj
    rw [hof]
    by_cases hjk : j = k
    · rw [if_pos hjk, if_pos hjk.symm, List.map_append, List.flatten_append, ← hwritten]
      exact congrArg _ (List.append_nil _).symm
    · rw [if_neg hjk, if_neg (Ne.symm hjk), List.append_nil]
      exact hwritten
  · rw [List.length_modify] at hj
    rw [hof, h.fresh j hj, if_neg (by omega)]
    rfl
  · rw [hof]
    refine List.forall_mem_append.2 ⟨h.accepted j, fun f' hf' => ?_⟩
    split at hf'
    · rwa [List.mem_singleton.1 hf']
    · cases hf'

/-- A thread is started, or the port could not be opened and none is. -/
theorem Written.connect {w : MainWindow} (h : Written sent w.threads) (port : String) (opened : Bool) :
    Written sent (w.connectSerialPort port opened).threads := by
  obtain ⟨message, hw⟩ := w.connectSerialPort_cases port opened
  rw [hw]
  dsimp only
  split
  · exact h
  · refine ⟨fun k c hc => ?_, fun k hk => h.fresh k (le_trans (by simp) hk), h.accepted⟩
    rcases lt_or_ge k w.threads.length with hk | hk
    · rw [List.getElem?_append_left hk] at hc
      exact h.written k c hc
    · rw [List.getElem?_append_right hk, List.getElem?_singleton] at hc
      split at hc
      next =>
        obtain rfl := Option.some.inj hc
        rw [h.fresh k hk]
        rfl
      next => cases hc

/-- A confirmed start sends the line of what was entered, or nothing. -/
theorem Written.start {w : MainWindow} (h : Written sent w.threads) (f : Fields) (now : Datetime) (ok : Bool) :
    Written (sent ++ w.sentFields (.startMeasurement true f now ok)) (w.startMeasurement f now ok).threads := by
  rcases w.startMeasurement_cases f now ok with ⟨⟨hsend, rfl⟩, hw⟩ | ⟨hnot, messages, hw⟩
  · have hlt : w.threads.length - 1 < w.threads.length := by
      have hconnected := hsend.2
      unfold connected at hconnected
      split at hconnected
      next c hc => exact (List.getElem?_eq_some_iff.1 hc).1
      next => cases hconnected
    have hfields : w.sentFields (.startMeasurement true f now true)
        = [(w.threads.length - 1, w.entered f)] := if_pos hsend
    rw [hw, hfields]
    exact h.write hlt hsend.1
  · have hfields : w.sentFields (.startMeasurement true f now ok) = [] := by
      cases ok with
      | false => rfl
      | true => exact if_neg fun hsend => hnot ⟨hsend, rfl⟩
    rw [hw, hfields, List.append_nil]
    exact h

section

variable [Arithmetic]

/-- **Every event sends what it says.** -/
theorem Written.step {w : MainWindow} (h : Written sent w.threads) (e : Event) :
    Written (sent ++ w.sentFields e) (w.step e).threads := by
  have hquiet : ∀ {threads}, Written sent threads → Written (sent ++ []) threads := by
    intro threads ht
    rwa [List.append_nil]
  cases e with
  | connectSerialPort port opened => exact hquiet (h.connect port opened)
  | readline k line => exact hquiet h
  | serialError k =>
      refine hquiet (h.modify k fun c => ?_)
      unfold SerialThread.serialError
      split <;> rfl
  | call slot data =>
      change Written (sent ++ []) (w.call slot data).threads
      rcases w.call_cases slot data with ⟨-, hw⟩ | ⟨-, hw⟩ <;>
        · rw [hw]
          exact hquiet h
  | toggleStrip index checked => exact hquiet h
  | toggleHeater => exact hquiet h
  | startMeasurement confirmed f now ok =>
      cases confirmed with
      | false => exact hquiet h
      | true => exact h.start f now ok

theorem written_run (file : Option (List UInt8)) (now : Datetime) (es : List Event) :
    Written (trace step sentFields (init file now) es) ((init file now).run es).threads := by
  have hinit : Written [] (init file now).threads :=
    ⟨fun k c hc => (by cases hc), fun _ _ => rfl, fun _ => List.forall_mem_nil _⟩
  exact foldl_history (I := fun _ sent (w : MainWindow) => Written sent w.threads) hinit (fun _ _ _ e h => h.step e) es

/-- **Window and firmware agree.**  In any run of the window, a firmware that gets any
beginning of what one of its threads has written, with any interrupts between the characters, keeps
running, provided that each line fits its buffer and that there is memory.  It has then been
served with what the user entered for the lines that are complete, and with nothing else. -/
theorem session_agrees (t : Target) (file : Option (List UInt8)) (now : Datetime) (es : List Event) {k : ℕ}
    {c : SerialThread} (hc : ((init file now).run es).threads[k]? = some c) {fs : List Gui.Event}
    (hfs : Gui.chars fs <+: c.written) (hfits : ∀ l ∈ Lines.lines 10 c.written, l.length < 256)
    (hm : ∀ e ∈ fs, e.Provided) :
    ∃ g entered, fs.foldlM (Gui.step t) .boot = .ok g ∧
      entered <+: ofThread k (trace step sentFields (init file now) es) ∧
      entered.length = (Lines.lines 10 (Gui.chars fs)).length ∧ Served t entered g := by
  have hrun := written_run file now es
  rw [hrun.written k c hc] at hfs hfits
  have hbody : ∀ l ∈ (ofThread k (trace step sentFields (init file now) es)).map commandLine,
      Lines.IsLine 10 l ∧ ∀ b ∈ l, b ≠ 13 := by
    intro l hl
    obtain ⟨f, hf, rfl⟩ := List.mem_map.1 hl
    obtain ⟨⟨body, hline, hbytes⟩, -⟩ := commandLine_decoded t (hrun.accepted k f hf)
    rw [hline]
    refine ⟨⟨body, fun hmem => (hbytes 10 hmem).1 rfl, rfl⟩, List.forall_mem_append.2 ⟨fun b hb => (hbytes b hb).2, ?_⟩⟩
    decide +kernel
  rw [Lines.lines_flatten fun l hl => (hbody l hl).1] at hfits
  obtain ⟨first, more, part, hsplit, hchars, hpart, hnext⟩ := Lines.prefix_flatten (fun l hl => (hbody l hl).1) hfs
  have hlines : Lines.lines 10 (Gui.chars fs) = first := by
    rw [hchars, Lines.lines, Lines.linesFrom_flatten, Lines.linesFrom_of_notMem hpart, List.append_nil]
    exact fun l hl => (hbody l (by rw [hsplit]; exact List.mem_append_left _ hl)).1
  obtain ⟨hlength, hterminator⟩ : part.length ≤ 256 ∧ ∀ b ∈ part, ¬ Gui.Terminator b := by
    rcases hnext with rfl | ⟨l, hl, hle⟩
    · exact ⟨Nat.zero_le _, List.forall_mem_nil _⟩
    · have hmem : l ∈ (ofThread k (trace step sentFields (init file now) es)).map commandLine := by
        rw [hsplit]
        exact List.mem_append_right _ hl
      exact ⟨hle.length_le.trans (hfits l hmem).le,
        fun b hb hend => hend.elim (fun h => hpart (h ▸ hb)) ((hbody l hmem).2 b (hle.subset hb))⟩
  obtain ⟨entered, rest, hentered, rfl, -⟩ := List.map_eq_append_iff.1 hsplit
  have haccepted : ∀ f ∈ entered, f.Accepted ∧ (commandLine f).length < 256 := fun f hf =>
    have hmem := show f ∈ ofThread k (trace step sentFields (init file now) es) by
      rw [hentered]
      exact List.mem_append_left _ hf
    ⟨hrun.accepted k f hmem, hfits _ (List.mem_map_of_mem hmem)⟩
  obtain ⟨g, hg, hserved⟩ := served_total (t := t) haccepted hterminator hlength hchars hm
  refine ⟨g, entered, hg, ⟨rest, hentered.symm⟩, ?_, hserved⟩
  rw [hlines, List.length_map]

end

section

attribute [local instance] Arithmetic.uncontracted

/-- The user connects, selects strip 1 and starts. -/
def sineSession : List Event := sineSelection ++ [.startMeasurement true sineFields noon true]

/-- The line comes in, a tick in front of it, and then the heater gets a code. -/
def sentLine : List Gui.Event :=
  .sampler .tick :: (ascii "0,50,0.05,21.0,1.0,8.0,10000000\n").map (.char zeroedMalloc) ++ [.ctimer4, .sampler .tick]

theorem sentLine_written : (((init none noon).run sineSession).threads[0]?).map SerialThread.written
    = some (Gui.chars sentLine) := by
  decide +kernel

theorem sentLine_provided : ∀ e ∈ sentLine, e.Provided := by
  intro e he
  simp only [sentLine, List.cons_append, List.mem_cons, List.mem_append, List.mem_map, List.not_mem_nil, or_false] at he
  rcases he with rfl | ⟨ch, -, rfl⟩ | rfl | rfl
  · trivial
  · exact fun n _ => rfl
  · trivial
  · trivial

/-- The hypotheses of `session_agrees` are satisfiable. -/
theorem session_agrees_sine : ∃ g entered, sentLine.foldlM (Gui.step .saturating) .boot = .ok g ∧
    entered <+: ofThread 0 (trace step sentFields (init none noon) sineSession) ∧
    entered.length = (Lines.lines 10 (Gui.chars sentLine)).length ∧ Served .saturating entered g := by
  obtain ⟨c, hc, hwritten⟩ := Option.map_eq_some_iff.1 sentLine_written
  exact session_agrees .saturating none noon sineSession hc (by rw [hwritten])
    (by rw [hwritten]; decide +kernel) sentLine_provided

end

end MainWindow

end Host
end GasSensor
