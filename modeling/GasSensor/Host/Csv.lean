/-
# From the console to the CSV file

At the end of a round `CTIMER2_IRQHandler` prints a line for each strip.
`SerialThread.run` of `source/GUI/test_gui.py` reads lines from the serial port,
and `MainWindow.write_to_csv` takes those apart that its regular expression
matches and drops all others.

A line prints two `int`s with `%d`, and the regular expression wants digits, so
`writeToCsv_line` gets through exactly what is not negative.  `lines_arrive_iff`
says when that loses a line, over whole runs in both modes.
-/

import GasSensor.Firmware.Gui
import GasSensor.Firmware.LiveLoop
import GasSensor.Lib.Numerals
import GasSensor.Sampler.RoundEnd

namespace GasSensor
namespace Host

open CString FloatingPoint Numeral

/-- The line `CTIMER2_IRQHandler` prints for a strip:
`"Resistance of strip %d: %d, Time: %d\n"`. -/
def resistanceLine (i : Strip) (entry : ℤ × ℤ) : List UInt8 :=
  ascii "Resistance of strip " ++ (formatInt (i.val + 1) ++ (ascii ": " ++ (formatInt entry.1
    ++ (ascii ", Time: " ++ (formatInt entry.2 ++ ascii "\n")))))

/-- White space for `str.strip` in an ASCII text. -/
def pythonSpace (b : UInt8) : Bool := isSpace b || (28 ≤ b && b ≤ 31)

/-- `str.strip` of an ASCII text. -/
def strip (s : List UInt8) : List UInt8 := (s.dropWhile pythonSpace).rdropWhile pythonSpace

/-- A fixed text of a regular expression. -/
def literal (text s : List UInt8) : Option (List UInt8) :=
  if text <+: s then some (s.drop text.length) else none

/-- `(\d+)` on an ASCII text: the digits, with the text after them. -/
def number (s : List UInt8) : Option (List UInt8 × List UInt8) :=
  if s.takeWhile isDigit = [] then none else some (s.takeWhile isDigit, s.dropWhile isDigit)

/-- `int` of digits; it raises `ValueError` if there are more than 4300 of them. -/
def pythonInt (group : List UInt8) : Option ℕ := if group.length ≤ 4300 then some (digitsValue group) else none

/-- A row of the CSV file, with its time as it was read. -/
structure CsvRow where
  strip : ℕ
  /-- In milliseconds. -/
  time : ℕ
  resistance : ℕ
  deriving DecidableEq

section

variable [Arithmetic]

/-- `time_val`, in seconds. -/
def CsvRow.timeVal (row : CsvRow) : Value := double.round (row.time / 1000)

/-- The row `write_to_csv` makes of the groups of a match.  A number that is too long and a
time that is too great for a `float` raise an exception, and then no row is written. -/
def csvRow (group1 group2 group3 : List UInt8) : Option CsvRow := do
  let strip ← pythonInt group1
  let resistance ← pythonInt group2
  let time ← pythonInt group3
  match (CsvRow.mk strip time resistance).timeVal with
  | .finite _ => some ⟨strip, time, resistance⟩
  | _ => none

/-- `write_to_csv`: the row it writes, if the regular expression
`Resistance of strip (\d+): (\d+), Time: (\d+)` matches at the beginning of the line. -/
def writeToCsv (data : List UInt8) : Option CsvRow := do
  let s ← literal (ascii "Resistance of strip ") data
  let (group1, s) ← number s
  let s ← literal (ascii ": ") s
  let (group2, s) ← number s
  let s ← literal (ascii ", Time: ") s
  let (group3, _) ← number s
  csvRow group1 group2 group3

variable {group1 group2 group3 : List UInt8} {row : CsvRow}

theorem csvRow_eq_some (h : csvRow group1 group2 group3 = some row) :
    row = ⟨digitsValue group1, digitsValue group3, digitsValue group2⟩ ∧ ∃ x, row.timeVal = .finite x := by
  simp only [csvRow, pythonInt, Option.bind_eq_bind, Option.bind_eq_some_iff, Option.ite_none_right_eq_some] at h
  obtain ⟨_, ⟨-, h1⟩, _, ⟨-, h2⟩, _, ⟨-, h3⟩, h⟩ := h
  obtain rfl := Option.some.inj h1
  obtain rfl := Option.some.inj h2
  obtain rfl := Option.some.inj h3
  split at h
  next x hx =>
    obtain rfl := Option.some.inj h
    exact ⟨rfl, x, hx⟩
  next => cases h

end

variable {r : List UInt8} {x : ℤ}

theorem literal_append (text r : List UInt8) : literal text (text ++ r) = some r := by
  rw [literal, if_pos (List.prefix_append text r), List.drop_left]

/-- What a printed `int` begins with. -/
theorem number_formatInt (hr : NoDigit r) :
    number (formatInt x ++ r) = if x < 0 then none else some (formatInt x, r) := by
  unfold formatInt number
  split
  · rw [List.cons_append, List.takeWhile_cons_of_neg (by decide), if_pos rfl]
  · rw [takeWhile_digits (allDigits_digits _) hr, dropWhile_digits (allDigits_digits _) hr,
      if_neg (digits_ne_nil _)]

/-- A printed `int` is read back. -/
theorem digitsValue_formatInt (hx : 0 ≤ x) : digitsValue (formatInt x) = x.toNat := by
  rw [formatInt, if_neg (not_lt.2 hx), digitsValue_digits]
  omega

theorem pythonInt_formatInt (hx : 0 ≤ x) (hlt : x < 2 ^ 31) : pythonInt (formatInt x) = some x.toNat := by
  have hlength : (formatInt x).length ≤ 10 := by
    rw [formatInt, if_neg (not_lt.2 hx)]
    exact length_digits_le (by omega) (by omega)
  rw [pythonInt, if_pos (by omega), digitsValue_formatInt hx]

/-- The last byte of a printed `int` is a digit. -/
theorem formatInt_getLast (x : ℤ) (h : formatInt x ≠ []) : isDigit ((formatInt x).getLast h) = true := by
  have hdigits : ∀ n, isDigit ((digits n).getLast (digits_ne_nil n)) = true := fun n =>
    allDigits_digits n _ (List.getLast_mem _)
  revert h
  unfold formatInt
  split
  · intro h
    rw [List.getLast_cons (digits_ne_nil _)]
    exact hdigits _
  · intro h
    exact hdigits _

/-- A digit is not white space. -/
theorem pythonSpace_of_isDigit {b : UInt8} (h : isDigit b = true) : pythonSpace b = false := by
  rw [isDigit, decide_eq_true_eq, UInt8.le_iff_toNat_le, UInt8.le_iff_toNat_le] at h
  have h48 : (48 : UInt8).toNat = 48 := rfl
  have h32 : (32 : UInt8).toNat = 32 := rfl
  have h13 : (13 : UInt8).toNat = 13 := rfl
  have h31 : (31 : UInt8).toNat = 31 := rfl
  rw [pythonSpace, Bool.or_eq_false_iff, isSpace, decide_eq_false_iff_not, Bool.and_eq_false_iff,
    decide_eq_false_iff_not, decide_eq_false_iff_not, ← UInt8.toNat_inj, UInt8.le_iff_toNat_le,
    UInt8.le_iff_toNat_le, UInt8.le_iff_toNat_le, UInt8.le_iff_toNat_le]
  omega

/-- `strip` takes the line feed off a line, and nothing else. -/
theorem strip_resistanceLine (i : Strip) (entry : ℤ × ℤ) :
    strip (resistanceLine i entry) = ascii "Resistance of strip " ++ (formatInt (i.val + 1) ++ (ascii ": "
      ++ (formatInt entry.1 ++ (ascii ", Time: " ++ formatInt entry.2)))) := by
  have hassoc : resistanceLine i entry = (ascii "Resistance of strip " ++ (formatInt (i.val + 1) ++ (ascii ": "
      ++ (formatInt entry.1 ++ (ascii ", Time: " ++ formatInt entry.2))))) ++ [10] := by
    simp only [resistanceLine, List.append_assoc]
    rfl
  rw [hassoc, strip]
  -- the line begins with a letter
  have hfront : ∀ t, (ascii "Resistance of strip " ++ t).dropWhile pythonSpace
      = ascii "Resistance of strip " ++ t :=
    fun t => List.dropWhile_cons_of_neg (by decide)
  rw [List.append_assoc, hfront, ← List.append_assoc, List.rdropWhile_concat_pos _ _ _ (by decide),
    List.rdropWhile_eq_self_iff]
  intro hl
  rw [List.getLast_append_of_ne_nil _ (by simp [formatInt_ne_nil]),
    List.getLast_append_of_ne_nil _ (by simp [formatInt_ne_nil]),
    List.getLast_append_of_ne_nil _ (by simp [formatInt_ne_nil]),
    List.getLast_append_of_ne_nil _ (by simp [formatInt_ne_nil]),
    List.getLast_append_of_ne_nil _ (formatInt_ne_nil _),
    pythonSpace_of_isDigit (formatInt_getLast _ _)]
  decide

section

variable [Arithmetic]

/-- **What becomes of a line**: a row with its three numbers, unless one of the two `int`s
is negative; then it is dropped. -/
theorem writeToCsv_line (i : Strip) (entry : ℤ × ℤ) :
    writeToCsv (strip (resistanceLine i entry))
      = if entry.1 < 0 ∨ entry.2 < 0 then none
        else csvRow (formatInt (i.val + 1)) (formatInt entry.1) (formatInt entry.2) := by
  have hcolon : ∀ t, NoDigit (ascii ": " ++ t) := fun t => noDigit_cons (by decide)
  have hcomma : ∀ t, NoDigit (ascii ", Time: " ++ t) := fun t => noDigit_cons (by decide)
  have hstrip : ¬ ((i.val : ℤ) + 1 < 0) := by omega
  have htime := number_formatInt (x := entry.2) noDigit_nil
  rw [List.append_nil] at htime
  rw [strip_resistanceLine, writeToCsv, literal_append]
  simp only [Option.bind_eq_bind, Option.bind_some, number_formatInt (hcolon _), if_neg hstrip, literal_append,
    number_formatInt (hcomma _)]
  by_cases h1 : entry.1 < 0
  · rw [if_pos h1, if_pos (.inl h1)]
    rfl
  · rw [if_neg h1]
    simp only [Option.bind_some, literal_append, htime]
    by_cases h2 : entry.2 < 0
    · rw [if_pos h2, if_pos (.inr h2)]
      rfl
    · rw [if_neg h2, if_neg (by tauto)]
      rfl

/-- No printed `int` raises an exception. -/
theorem csvRow_formatInt (i : Strip) {resistance time : ℤ} (hr : 0 ≤ resistance ∧ resistance < 2 ^ 31)
    (ht : 0 ≤ time ∧ time < 2 ^ 31) : csvRow (formatInt (i.val + 1)) (formatInt resistance) (formatInt time)
      = some ⟨i.val + 1, time.toNat, resistance.toNat⟩ := by
  have hi : pythonInt (formatInt (i.val + 1)) = some (i.val + 1) := pythonInt_formatInt (by omega) (by omega)
  obtain ⟨x, hx, -⟩ := double.exists_round (n := 2147484) (m := 0) (x := (time.toNat : ℚ) / 1000) (by norm_num)
    (by positivity) (by
      have hlt : (time.toNat : ℚ) ≤ 2 ^ 31 := by exact_mod_cast show time.toNat ≤ 2 ^ 31 by omega
      push_cast
      linarith)
  rw [csvRow, hi, pythonInt_formatInt hr.1 hr.2, pythonInt_formatInt ht.1 ht.2]
  simp only [Option.bind_eq_bind, Option.bind_some, CsvRow.timeVal, hx]

end

open Sampler

section

variable [Arithmetic]

/-- **The line of a strip arrives**: the row has the strip's number, the time of its visit and
its resistance. -/
def Arrives (s : Sampler) (i : Strip) : Prop :=
  ∃ row, writeToCsv (strip (resistanceLine i (s.resistanceArray i))) = some row ∧
    row.strip = i.val + 1 ∧ row.time = (s.vSensStripValues i).2 ∧
    (row.resistance : ℤ) = (s.resistanceArray i).1

/-- A time that is an `int` again, and a resistance that is not negative: a quotient that can
be converted, or one for which the machine stores such an `int`. -/
def Readable (t : Target) (v c time : ℕ) : Prop :=
  time < 2 ^ 31 ∧ (ResistanceDefined v c ∨ 0 ≤ t.undefinedInt v c)

/-- Whatever lines an interrupt from `s` to `s'` prints for active strips arrive. -/
def LinesArrive (modbusFlag : Bool) (p : Params) (s : Sampler) (e : Event) (s' : Sampler) : Prop :=
  CompletesRound modbusFlag p s e → ∀ i, p.activeStrips i = true → Arrives s' i

/-- Whatever it computes for active strips can be read. -/
def RoundReadable (t : Target) (modbusFlag : Bool) (p : Params) (s : Sampler) (e : Event) : Prop :=
  CompletesRound modbusFlag p s e → ∀ i, p.activeStrips i = true →
    Readable t (s.roundValues i).1 (totalAveragedCurrent p s) (s.roundValues i).2

variable {t : Target} {modbusFlag : Bool} {p : Params} {s s' : Sampler} {e : Event}

theorem resistance_nonneg_iff {v c : ℕ} :
    0 ≤ resistance t v c ↔ ResistanceDefined v c ∨ 0 ≤ t.undefinedInt v c := by
  by_cases hd : ResistanceDefined v c
  · obtain ⟨r, -, hr, -, hres⟩ := resistance_of_defined (t := t) hd
    rw [hres]
    exact iff_of_true (Int.floor_nonneg.2 hr) (.inl hd)
  · rw [resistance_of_not_defined hd]
    simp only [hd, false_or]

/-- A resistance is an `int`. -/
theorem resistance_lt (t : Target) (v c : ℕ) : resistance t v c < 2 ^ 31 := by
  by_cases hd : ResistanceDefined v c
  · obtain ⟨r, -, -, hr, hres⟩ := resistance_of_defined (t := t) hd
    rw [hres]
    exact Int.floor_lt.2 (by exact_mod_cast hr)
  · rw [resistance_of_not_defined hd]
    exact (t.undefinedInt_mem v c).2

/-- **The lines of a round arrive exactly if its values can be read.** -/
theorem linesArrive_iff (h : s.interrupt t modbusFlag p e = .ok s') :
    LinesArrive modbusFlag p s e s' ↔ RoundReadable t modbusFlag p s e := by
  refine forall_congr' fun hround => forall_congr' fun i => forall_congr' fun hi => ?_
  rcases interrupt_resistanceArray h with ⟨hnot, -⟩ | ⟨-, hvalues, hnew⟩
  · exact absurd hround hnot
  have hlt := resistance_lt t (s.roundValues i).1 (totalAveragedCurrent p s)
  rw [Arrives, writeToCsv_line, hvalues, hnew i, if_pos hi, Readable, ← resistance_nonneg_iff]
  generalize resistance t (s.roundValues i).1 (totalAveragedCurrent p s) = x at hlt
  generalize (s.roundValues i).2 = time
  have hint : 0 ≤ intOfU32 time ∧ (intOfU32 time).toNat = time ↔ time < 2 ^ 31 := by
    unfold intOfU32
    split <;> omega
  constructor
  · rintro ⟨row, hrow, -, htime, -⟩
    split at hrow
    next => cases hrow
    next hpos =>
      obtain ⟨rfl, -⟩ := csvRow_eq_some hrow
      dsimp only at hpos htime
      rw [digitsValue_formatInt (by omega)] at htime
      exact ⟨hint.1 ⟨by omega, htime⟩, by omega⟩
  · rintro ⟨htime, hx⟩
    obtain ⟨hpos, hnat⟩ := hint.2 htime
    refine ⟨_, (if_neg (by dsimp only; omega)).trans (csvRow_formatInt i ⟨hx, hlt⟩ ⟨hpos, by omega⟩), rfl, ?_, ?_⟩
    · exact hnat
    · exact Int.toNat_of_nonneg hx

/-- Every line that is printed for an active strip in a run in GUI mode arrives. -/
def GuiLinesArrive (t : Target) (es : List Gui.Event) : Prop :=
  ∀ fs e g g', fs ++ [.sampler e] <+: es → fs.foldlM (Gui.step t) .boot = .ok g →
    Gui.step t g (.sampler e) = .ok g' →
    LinesArrive false g.params g.peripherals.sampler e g'.peripherals.sampler

/-- Every line that is printed for an active strip in a run in Modbus mode arrives. -/
def ModbusLinesArrive (t : Target) (es : List Firmware.LiveEvent) : Prop :=
  ∀ fs e fw fw', fs ++ [.interrupt e] <+: es → fs.foldlM (Firmware.liveStep t) .boot = .ok fw →
    Firmware.liveStep t fw (.interrupt e) = .ok fw' →
    LinesArrive true fw.server.params fw.peripherals.sampler e fw'.peripherals.sampler

/-- An event of a run in GUI mode computes only values that can be read. -/
def GuiReadable (t : Target) (g : Gui) : Gui.Event → Prop
  | .sampler e => RoundReadable t false g.params g.peripherals.sampler e
  | _ => True

/-- An event of a run in Modbus mode computes only values that can be read. -/
def ModbusReadable (t : Target) (fw : Firmware) : Firmware.LiveEvent → Prop
  | .interrupt e => RoundReadable t true fw.server.params fw.peripherals.sampler e
  | _ => True

/-- **When every measurement line survives the trip to the CSV file.**  In every run from
boot, in GUI mode and in Modbus mode, all lines printed for active strips arrive with
their three numbers if and only if at the end of each round the time stored for each
active strip is below `2 ^ 31` ms and its resistance is not negative. -/
theorem lines_arrive_iff (t : Target) :
    (∀ es, GuiLinesArrive t es ↔ Run.AtEveryStep (Gui.step t) (GuiReadable t) .boot es) ∧
      ∀ es, ModbusLinesArrive t es ↔ Run.AtEveryStep (Firmware.liveStep t) (ModbusReadable t) .boot es := by
  have hgui : ∀ {g g' e}, Gui.step t g (.sampler e) = .ok g' →
      (LinesArrive false g.params g.peripherals.sampler e g'.peripherals.sampler ↔
        RoundReadable t false g.params g.peripherals.sampler e) := by
    intro g g' e h
    obtain ⟨s', hs', hg'⟩ := Run.bind_eq_ok.1 h
    obtain rfl := Except.ok.inj hg'
    exact linesArrive_iff hs'
  have hmodbus : ∀ {fw fw' e}, Firmware.liveStep t fw (.interrupt e) = .ok fw' →
      (LinesArrive true fw.server.params fw.peripherals.sampler e fw'.peripherals.sampler ↔
        RoundReadable t true fw.server.params fw.peripherals.sampler e) := by
    intro fw fw' e h
    obtain ⟨s', hs', hfw'⟩ := Run.bind_eq_ok.1 h
    obtain rfl := Except.ok.inj hfw'
    exact linesArrive_iff hs'
  refine ⟨fun es => ⟨fun h fs ev g g' hfs hg hstep => ?_, fun h fs e g g' hfs hg hstep => ?_⟩,
    fun es => ⟨fun h fs ev fw fw' hfs hfw hstep => ?_, fun h fs e fw fw' hfs hfw hstep => ?_⟩⟩
  · match ev with
    | .sampler e => exact (hgui hstep).1 (h fs e g g' hfs hg hstep)
    | .char _ _ | .ctimer4 => trivial
  · exact (hgui hstep).2 (h fs (.sampler e) g g' hfs hg hstep)
  · match ev with
    | .interrupt e => exact (hmodbus hstep).1 (h fs e fw fw' hfs hfw hstep)
    | .frame _ _ => trivial
  · exact (hmodbus hstep).2 (h fs (.interrupt e) fw fw' hfs hfw hstep)

/-- A round that ends after `2 ^ 31` ms loses the line of its last strip. -/
theorem not_guiLinesArrive {es : List Gui.Event} {g g' : Gui} {i : Strip}
    (hrun : es.foldlM (Gui.step t) .boot = .ok g) (hstep : Gui.step t g (.sampler e) = .ok g')
    (hround : CompletesRound false g.params g.peripherals.sampler e) (hi : g.params.activeStrips i = true)
    (htime : 2 ^ 31 ≤ (g.peripherals.sampler.roundValues i).2) : ¬ GuiLinesArrive t (es ++ [.sampler e]) := by
  intro h
  have harrive := h es e g g' List.prefix_rfl hrun hstep
  obtain ⟨s', hs', hg'⟩ := Run.bind_eq_ok.1 hstep
  obtain rfl := Except.ok.inj hg'
  have hreadable := (linesArrive_iff hs').1 harrive hround i hi
  exact absurd hreadable.1 (not_lt.2 htime)

/-- The firmware with its clock set. -/
def setClock (g : Gui) (now : ℕ) : Gui :=
  { g with peripherals := { g.peripherals with sampler := { g.peripherals.sampler with gTimestampMs := now } } }

/-- Milliseconds pass. -/
theorem sysTicks_run (t : Target) (g : Gui) (n : ℕ) (h : g.peripherals.sampler.gTimestampMs + n < 2 ^ 32) :
    (List.replicate n (Gui.Event.sampler .sysTick)).foldlM (Gui.step t) g
      = .ok (setClock g (g.peripherals.sampler.gTimestampMs + n)) := by
  induction n generalizing g with
  | zero => rfl
  | succ n ih =>
      have hstep : Gui.step t g (.sampler .sysTick)
          = .ok (setClock g ((g.peripherals.sampler.gTimestampMs + 1) % 2 ^ 32)) := rfl
      rw [Nat.mod_eq_of_lt (by omega)] at hstep
      rw [List.replicate_succ, List.foldlM_cons, hstep, Run.ok_bind, ih]
      · change Except.ok (setClock (setClock g _) (g.peripherals.sampler.gTimestampMs + 1 + n)) = _
        rw [Nat.add_assoc, Nat.add_comm 1 n]
        rfl
      · change g.peripherals.sampler.gTimestampMs + 1 + n < 2 ^ 32
        omega

/-- A line with strip 1, and after it one conversion of each kind. -/
def oneStrip : List Gui.Event :=
  (ascii "0,50,0.05,21,1.0,8,10000000\n").map (.char zeroedMalloc) ++
    [.sampler (.voltage 60), .sampler (.current 30)]

/-- The first visit of that measurement when it takes `ms` milliseconds, without its last
tick. -/
def longVisit (ms : ℕ) : List Gui.Event :=
  oneStrip ++ (List.replicate ms (.sampler .sysTick) ++ List.replicate 29 (.sampler .tick))

theorem longVisit_run {ms : ℕ} (hms : ms < 2 ^ 32) {g₁ g : Gui}
    (hg₁ : oneStrip.foldlM (Gui.step .saturating) .boot = .ok g₁)
    (hclock : g₁.peripherals.sampler.gTimestampMs = 0)
    (hg : (List.replicate 29 (Gui.Event.sampler .tick)).foldlM (Gui.step .saturating) (setClock g₁ ms) = .ok g) :
    (longVisit ms).foldlM (Gui.step .saturating) .boot = .ok g := by
  rw [longVisit, List.foldlM_append, hg₁, Run.ok_bind, List.foldlM_append,
    sysTicks_run _ _ _ (by omega), Run.ok_bind, hclock, Nat.zero_add, hg]

end

section

attribute [local instance] Arithmetic.uncontracted

/-- What the last tick finds, and that it ends. -/
def lastTick (g : Gui) : Except Fault (ℕ × Bool × ℕ × ℕ × Bool × ℕ) := do
  let _ ← Gui.step .saturating g (.sampler .tick)
  .ok (g.peripherals.sampler.currentCountIndex, g.peripherals.sampler.ctimer2.isSome,
    (g.peripherals.sampler.currentActiveStripIndex + 1) % g.params.gStripCount, g.params.gStripCount,
    g.params.activeStrips 0, (g.peripherals.sampler.roundValues 0).2)

theorem lastTick_eq : (do
    let g ← oneStrip.foldlM (Gui.step .saturating) .boot
    let g ← (List.replicate 29 (Gui.Event.sampler .tick)).foldlM (Gui.step .saturating) (setClock g (2 ^ 31))
    lastTick g) = .ok (29, true, 0, 1, true, 2 ^ 31) := by
  decide +kernel

theorem oneStrip_clock : (fun g => g.peripherals.sampler.gTimestampMs) <$>
    oneStrip.foldlM (Gui.step .saturating) .boot = .ok 0 := by
  decide +kernel

/-- **The line of a visit that ends after 25 days does not arrive**: its time is printed
with a minus sign. -/
theorem longVisit_line_lost : ¬ GuiLinesArrive .saturating (longVisit (2 ^ 31) ++ [.sampler .tick]) := by
  obtain ⟨g₁, hg₁, heval⟩ := Run.bind_eq_ok.1 lastTick_eq
  obtain ⟨g, hg, heval⟩ := Run.bind_eq_ok.1 heval
  obtain ⟨g', hg', hfound⟩ := Run.bind_eq_ok.1 heval
  have hclock := oneStrip_clock
  rw [hg₁, Run.ok_map, Except.ok.injEq] at hclock
  simp only [Except.ok.injEq, Prod.mk.injEq] at hfound
  obtain ⟨hcount, htimer, hnext, hstrips, hactive, htime⟩ := hfound
  refine not_guiLinesArrive (longVisit_run (by norm_num) hg₁ hclock hg) hg' ?_ hactive htime.ge
  refine ⟨⟨rfl, fun hzero => ?_, ?_⟩, fun hstop => ?_, hnext⟩
  · rw [hstrips] at hzero
    exact absurd hzero.1 (by decide)
  · rw [hcount]
    decide
  · rw [hstop] at htimer
    cases htimer

end

end Host
end GasSensor
