/-
# From the interrupts to the file

The device measures and prints, the window reads, and at the end the rows are in the
file and in the download.

`measurement_recorded` composes the console of a measurement (`console_run`), what a reader
makes of it (`rows_text`) and the file of a measurement (`measurement_kept`), for every
order of the interrupts, of the characters of `main` and of the events of the window.  What
lies in between belongs to pyserial and Qt: `Transports` is what their documentation
promises.
-/

import GasSensor.Host.Console
import GasSensor.Host.Measurement

namespace GasSensor
namespace Host
namespace MainWindow

open Trace Sampler Numeral

section

variable [Arithmetic]

/-- **What pyserial and Qt promise** of a run of the window in which `text` has come in: all lines
that are read have been cut from it by `readline`, and Qt calls `write_to_csv` with what has been
emitted, in the order in which it was. -/
structure Transports (w : MainWindow) (text : List UInt8) (es : List Event) : Prop where
  reads : Reads text ((trace step taken w es).map Subtype.val)
  queued : calls .writeToCsv es <+: trace step emitted w es

/-- All lines of the text have been read and delivered. -/
structure CaughtUp (w : MainWindow) (text : List UInt8) (es : List Event) : Prop where
  read : (trace step taken w es).map Subtype.val = Lines.lines 10 text
  delivered : calls .writeToCsv es = trace step emitted w es

variable {w : MainWindow} {es : List Event} {text : List UInt8}

theorem emitted_eq (w : MainWindow) (es : List Event) :
    trace step emitted w es = (trace step taken w es).map response :=
  trace_image List.map_nil (fun _ _ => List.map_append) w es

/-- The rows of what has been emitted are those of the lines read. -/
theorem rowsOf_emitted (w : MainWindow) (es : List Event) :
    rowsOf (trace step emitted w es) = lineRows ((trace step taken w es).map Subtype.val) := by
  rw [emitted_eq, rowsOf, lineRows, List.filterMap_map, List.filterMap_map]
  rfl

/-- The rows delivered are the first of those in the text. -/
theorem Transports.rows (h : Transports w text es) :
    rowsOf (calls .writeToCsv es) <+: lineRows (Lines.lines 10 text) :=
  calc rowsOf (calls .writeToCsv es) <+: rowsOf (trace step emitted w es) := h.queued.filterMap _
    _ = lineRows ((trace step taken w es).map Subtype.val) := rowsOf_emitted w es
    _ <+: lineRows (Lines.lines 10 text) := h.reads.isPrefix_lines.filterMap _

theorem CaughtUp.rows (h : CaughtUp w text es) :
    rowsOf (calls .writeToCsv es) = lineRows (Lines.lines 10 text) := by
  rw [h.delivered, rowsOf_emitted, h.read]

end

section

attribute [local instance] Arithmetic.uncontracted

/-- A round of two strips that is printed in the middle of a message. -/
def roundEvents : List ConsoleEvent :=
  (ascii "OK\nPa").map .putchar ++ wholeRound.map .interrupt ++ (ascii "rameters\n").map .putchar

/-- What the console shows of it. -/
def roundText : List UInt8 :=
  consoleText ((ascii "OK\nPa").map .text ++
    .round (fun i => if i = 2 then (72000, 29) else if i = 5 then (74483, 59) else (0, 0)) ::
      (ascii "rameters\n").map .text)

theorem roundEvents_run : (do
    let s₀ ← configure zeroedMalloc twoStrips boot
    let c ← roundEvents.foldlM (consoleStep .saturating false twoStrips) (⟨s₀, []⟩, [])
    Except.ok (consoleText c.2, pieceRows [] c.2)) = .ok (roundText,
      [⟨2, 0, 0⟩, ⟨3, 29, 72000⟩, ⟨4, 0, 0⟩, ⟨5, 0, 0⟩, ⟨6, 59, 74483⟩, ⟨7, 0, 0⟩, ⟨8, 0, 0⟩]) := by
  decide +kernel

/-- What the console shows, and the rows in it, when it has been computed. -/
theorem console_of_roundEvents {s₀ : Sampler} {c : Recorded × List Piece} (hs₀ : configure zeroedMalloc twoStrips boot = .ok s₀)
    (hc : roundEvents.foldlM (consoleStep .saturating false twoStrips) (⟨s₀, []⟩, []) = .ok c) :
    consoleText c.2 = roundText ∧ pieceRows [] c.2
      = [⟨2, 0, 0⟩, ⟨3, 29, 72000⟩, ⟨4, 0, 0⟩, ⟨5, 0, 0⟩, ⟨6, 59, 74483⟩, ⟨7, 0, 0⟩, ⟨8, 0, 0⟩] := by
  have hrun := roundEvents_run
  rw [hs₀, Run.ok_bind, hc, Run.ok_bind, Except.ok.injEq, Prod.mk.injEq] at hrun
  exact hrun

/-- The lines of a text are read and delivered. -/
def readingAll (s : List UInt8) : List Event :=
  (Lines.lines 10 s).flatMap fun line => if h : Ascii line then reading ⟨line, h⟩ else []

end

section

variable [Arithmetic] {w : MainWindow} {es : List Event} {text : List UInt8}

/-- A row that an event records has been made of what `write_to_csv` is called with. -/
theorem called_of_record {row : CsvRow} {e : Event} (h : .record row ∈ w.ops e) :
    ∃ data ∈ called .writeToCsv e, Host.writeToCsv data.val = some row := by
  have hrecords : .record row ∈ records (called .writeToCsv e) := by
    cases e with
    | startMeasurement confirmed f now sent =>
        rw [ops] at h
        split at h
        · cases List.mem_singleton.1 h
        · cases h
    | connectSerialPort port opened | readline k line | serialError k | call slot data
    | toggleStrip index checked | toggleHeater => exact h
  obtain ⟨data, hdata, h⟩ := List.mem_flatMap.1 hrecords
  obtain ⟨row', hrow', h⟩ := List.mem_map.1 h
  obtain rfl := DataSet.Op.record.inj h
  exact ⟨data, hdata, Option.mem_toList.1 hrow'⟩

/-- Every row recorded in a run is one of the lines in the text. -/
theorem Transports.mem_rows (h : Transports w text es) {row : CsvRow} (hrow : .record row ∈ trace step ops w es) :
    row ∈ lineRows (Lines.lines 10 text) := by
  obtain ⟨data, hdata, hread⟩ := exists_of_mem_trace (fun w e h => called_of_record h) hrow
  rw [trace_const] at hdata
  exact h.rows.subset (List.mem_filterMap.2 ⟨data, hdata, hread⟩)

/-- **A part of a console makes no wrong row**, whatever the user does meanwhile: the file has what
it began with, or the headings of a later start, and below that entries of complete rounds. -/
theorem attached_rows {ps : List Piece} (hps : Legible [] ps) (file : Option (List UInt8)) (now : Datetime)
    (h : Transports (init file now) text es) (htext : text <:+: consoleText ps) :
    ∃ d, Holds ((init file now).run es) d ∧ (d.kept = (init file now).csvFile ∨ d.Headed) ∧
      ∀ row ∈ d.rows, ∃ entries ∈ Piece.rounds ps, ∃ i, entryRow i (entries i) = some row := by
  refine ⟨_, (holds_opened file now).run es, DataSet.kept_foldl_step _ _, fun row hrow => ?_⟩
  rcases DataSet.mem_foldl_step hrow with hnone | hrecord
  · cases hnone
  obtain ⟨before, after, hconsole⟩ := htext
  refine rows_of_suffix (s := text ++ after) hps ⟨before, by rw [← hconsole, List.append_assoc]⟩ ?_
  rw [Lines.lines, Lines.linesFrom_append, lineRows, List.filterMap_append]
  exact List.mem_append_left _ (h.mem_rows hrecord)

/-- **A window opened in the middle of a measurement.**  It has missed the beginning of the console,
perhaps half a line, and has read some part of what followed, while the user clicked on
whatever there is.  Every row it has added to the file it found, or to a new one, is the entry
of one strip in one complete round. -/
theorem attached_recorded {t : Target} {malloc : Malloc ℕ} {p : Params} (hp : p.Counted)
    (hpos : 0 < p.strips.length) (hm : (malloc p.gStripCount).isSome) (hf : p.muxFreq ≠ 0) (modbusFlag : Bool)
    (cs : List ConsoleEvent) (hmessages : NoRow (ConsoleEvent.chars cs)) (file : Option (List UInt8))
    (now : Datetime) (text : List UInt8) (es : List Event) :
    ∃ s₀ r ps, configure malloc p boot = .ok s₀ ∧
      cs.foldlM (consoleStep t modbusFlag p) (⟨s₀, []⟩, []) = .ok (r, ps) ∧
      (Transports (init file now) text es → text <:+: consoleText ps →
        ∃ d, Holds ((init file now).run es) d ∧ (d.kept = (init file now).csvFile ∨ d.Headed) ∧
          ∀ row ∈ d.rows, ∃ j < r.visits.length / p.strips.length, ∃ i,
            entryRow i (roundResult t p r.visits j i) = some row) := by
  obtain ⟨s₀, ⟨r, ps⟩, hs₀, hrun, hshown⟩ := console_run (t := t) hp hpos hm hf modbusFlag cs
  refine ⟨s₀, r, ps, hs₀, hrun, fun h htext => ?_⟩
  obtain ⟨d, hholds, hkept, hrows⟩ := attached_rows (hshown.legible hmessages) file now h htext
  refine ⟨d, hholds, hkept, fun row hrow => ?_⟩
  obtain ⟨entries, hentries, i, hentry⟩ := hrows row hrow
  rw [hshown.shown] at hentries
  obtain ⟨j, hj, rfl⟩ := List.mem_map.1 hentries
  exact ⟨j, List.mem_range.1 hj, i, hentry⟩

end

section

attribute [local instance] Arithmetic.uncontracted

/-- A window comes in in the middle of the line of strip 2. -/
def lateReading : List Event := .connectSerialPort "COM12" true :: readingAll (roundText.drop 60)

theorem transports_lateReading : Transports (init none noon) (roundText.drop 60) lateReading where
  reads := ⟨by decide +kernel, by decide +kernel⟩
  queued := by decide +kernel

/-- The hypotheses of `attached_recorded` are satisfiable, with the rows of the strips behind
that line. -/
theorem attached_recorded_round :
    ∃ s₀ r ps, configure zeroedMalloc twoStrips boot = .ok s₀ ∧
      roundEvents.foldlM (consoleStep .saturating false twoStrips) (⟨s₀, []⟩, []) = .ok (r, ps) ∧
      rowsOf (calls .writeToCsv lateReading)
        = [⟨3, 29, 72000⟩, ⟨4, 0, 0⟩, ⟨5, 0, 0⟩, ⟨6, 59, 74483⟩, ⟨7, 0, 0⟩, ⟨8, 0, 0⟩] ∧
      ∃ d, Holds ((init none noon).run lateReading) d ∧ (d.kept = (init none noon).csvFile ∨ d.Headed) ∧
        ∀ row ∈ d.rows, ∃ j < r.visits.length / twoStrips.strips.length, ∃ i,
          entryRow i (roundResult .saturating twoStrips r.visits j i) = some row := by
  have hmalloc : (zeroedMalloc twoStrips.gStripCount).isSome := rfl
  obtain ⟨s₀, r, ps, hs₀, hrun, hattached⟩ :=
    attached_recorded (t := .saturating) (p := twoStrips) (by decide) (by decide) hmalloc (by decide) false roundEvents
      (by decide +kernel) none noon (roundText.drop 60) lateReading
  rw [(console_of_roundEvents hs₀ hrun).1] at hattached
  exact ⟨s₀, r, ps, hs₀, hrun, by decide +kernel,
    hattached transports_lateReading (List.drop_suffix _ _).isInfix⟩

end

end MainWindow
end Host
end GasSensor
