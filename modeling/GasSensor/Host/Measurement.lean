/-
# The file is the data of the measurement

`DataSet` is what `resistance_data.csv` is for.  `dataSet_run` says that over every run
of the window the file is that of a data set which `start_measurement` clears and
`write_to_csv` extends, whatever it is called with.

`measurement_kept` is what this gives for one measurement: from its start to the next
confirmed one, the rows in the file are those of the lines `write_to_csv` has been called
with, and the file is read back as these rows.
-/

import GasSensor.Host.Application

namespace GasSensor
namespace Host
namespace MainWindow

open CString Trace

section

variable [Arithmetic]

/-- The file is cleared: the user has confirmed, and a measurement has been started before or
starts now. -/
def Clears (w : MainWindow) (f : Fields) (sent : Bool) : Prop :=
  w.measurementStarted = true ∨ w.CanSend f ∧ sent = true

instance clearsDecidable (w : MainWindow) (f : Fields) (sent : Bool) : Decidable (w.Clears f sent) :=
  inferInstanceAs (Decidable (_ ∨ _))

/-- The rows `write_to_csv` writes for some texts are recorded. -/
def records (texts : List Text) : List DataSet.Op :=
  texts.flatMap fun data => (Host.writeToCsv data.val).toList.map .record

/-- What an event does to the data. -/
def ops (w : MainWindow) (e : Event) : List DataSet.Op :=
  match e with
  | .startMeasurement confirmed f now sent => if confirmed = true ∧ w.Clears f sent then [.clear now] else []
  | e => records (called .writeToCsv e)

/-- The file and its data set. -/
structure Holds (w : MainWindow) (d : DataSet) : Prop where
  csvFile : w.csvFile = d.bytes
  recorded : ∀ row ∈ d.rows, row.Recorded

variable {w : MainWindow} {d : DataSet}

/-- A slot call is recorded. -/
theorem Holds.record (h : Holds w d) {w' : MainWindow} {data : Text}
    (hw : w'.csvFile = w.csvFile ++ csvText data.val) : Holds w' ((records [data]).foldl DataSet.step d) := by
  unfold csvText at hw
  rw [records, List.flatMap_singleton]
  cases hrow : Host.writeToCsv data.val with
  | none =>
      rw [hrow, List.append_nil] at hw
      exact ⟨hw.trans h.csvFile, h.recorded⟩
  | some row =>
      rw [hrow] at hw
      refine ⟨?_, ?_⟩
      · rw [hw, h.csvFile]
        exact (d.bytes_record row).symm
      · refine List.forall_mem_append.2 ⟨h.recorded, ?_⟩
        exact List.forall_mem_singleton.2 (CsvRow.recorded_of_writeToCsv hrow)

/-- **Every event does to the file what it does to the data set.** -/
theorem Holds.step (h : Holds w d) (e : Event) : Holds (w.step e) ((w.ops e).foldl DataSet.step d) := by
  have hsame : ∀ w' : MainWindow, w'.csvFile = w.csvFile → Holds w' d := fun w' hw =>
    ⟨hw.trans h.csvFile, h.recorded⟩
  cases e with
  | connectSerialPort port opened =>
      obtain ⟨message, hw⟩ := w.connectSerialPort_cases port opened
      exact hsame _ (by rw [MainWindow.step, hw])
  | readline k line => exact hsame _ rfl
  | serialError k => exact hsame _ rfl
  | call slot data =>
      change Holds (w.call slot data) ((records (called .writeToCsv (.call slot data))).foldl DataSet.step d)
      rcases w.call_cases slot data with ⟨rfl, hw⟩ | ⟨rfl, hw⟩
      · rw [hw]
        exact hsame _ rfl
      · rw [hw]
        exact h.record rfl
  | toggleStrip index checked => exact hsame _ rfl
  | toggleHeater => exact hsame _ rfl
  | startMeasurement confirmed f now sent =>
      rw [ops, MainWindow.step]
      by_cases hconfirmed : confirmed = true
      · rw [if_pos hconfirmed]
        have hcleared : ∀ w' : MainWindow, w'.csvFile = excel.writeRow [13, 10] (headings now) →
            Holds w' (d.step (.clear now)) := fun w' hw => ⟨by rw [hw, DataSet.bytes_clear], List.forall_mem_nil _⟩
        rcases w.startMeasurement_cases f now sent with ⟨hsend, hw⟩ | ⟨hsend, messages, hw⟩
        · rw [if_pos ⟨hconfirmed, .inr hsend⟩, hw]
          exact hcleared _ rfl
        · by_cases hstarted : w.measurementStarted = true
          · rw [if_pos ⟨hconfirmed, .inl hstarted⟩, hw]
            exact hcleared _ (if_pos hstarted)
          · rw [if_neg fun hclears => hclears.2.elim hstarted hsend, hw]
            exact hsame _ (if_neg hstarted)
      · rw [if_neg hconfirmed, if_neg fun hclears => hconfirmed hclears.1]
        exact h

/-- The data set when the window opens. -/
def opened (file : Option (List UInt8)) (now : Datetime) : DataSet := ⟨(init file now).csvFile, []⟩

theorem holds_opened (file : Option (List UInt8)) (now : Datetime) : Holds (init file now) (opened file now) :=
  ⟨(List.append_nil _).symm, List.forall_mem_nil _⟩

theorem Holds.run (h : Holds w d) (es : List Event) :
    Holds (w.run es) ((trace MainWindow.step ops w es).foldl DataSet.step d) :=
  simulation (fun _ _ e h => h.step e) h es

/-- **The window refines the data set**: in every run the file is that of the data set with the
operations of the run. -/
theorem dataSet_run (file : Option (List UInt8)) (now : Datetime) (es : List Event) :
    Holds ((init file now).run es)
      ((trace step ops (init file now) es).foldl DataSet.step (opened file now)) :=
  (holds_opened file now).run es

/-- The event is a start that the user has confirmed. -/
def Confirmed : Event → Prop
  | .startMeasurement confirmed _ _ _ => confirmed = true
  | _ => False

instance confirmedDecidable : (e : Event) → Decidable (Confirmed e)
  | .startMeasurement confirmed _ _ _ => inferInstanceAs (Decidable (confirmed = true))
  | .connectSerialPort _ _ | .readline _ _ | .serialError _ | .call _ _ | .toggleStrip _ _ | .toggleHeater =>
      inferInstanceAs (Decidable False)

/-- The rows of some texts. -/
def rowsOf (texts : List Text) : List CsvRow := texts.filterMap fun data => Host.writeToCsv data.val

/-- Without a confirmed start nothing is cleared. -/
theorem ops_of_not_confirmed {e : Event} (he : ¬ Confirmed e) (w : MainWindow) :
    w.ops e = records (called .writeToCsv e) := by
  cases e with
  | startMeasurement confirmed f now sent => exact if_neg fun h => he h.1
  | connectSerialPort port opened | readline k line | serialError k | call slot data
  | toggleStrip index checked | toggleHeater => rfl

theorem recorded_records (texts : List Text) : DataSet.recorded (records texts) = rowsOf texts := by
  induction texts with
  | nil => rfl
  | cons data texts ih =>
      rw [records, List.flatMap_cons, rowsOf, List.filterMap_cons]
      cases Host.writeToCsv data.val with
      | none => exact ih
      | some row => exact congrArg _ ih

theorem clear_notMem_records (texts : List Text) (now : Datetime) : .clear now ∉ records texts := by
  intro h
  obtain ⟨data, -, h⟩ := List.mem_flatMap.1 h
  obtain ⟨row, -, h⟩ := List.mem_map.1 h
  cases h

theorem recorded_rowsOf {texts : List Text} : ∀ row ∈ rowsOf texts, row.Recorded := by
  intro row hrow
  obtain ⟨data, -, hdata⟩ := List.mem_filterMap.1 hrow
  exact CsvRow.recorded_of_writeToCsv hdata

/-- What the events of a run call a slot with. -/
def calls (slot : Slot) (es : List Event) : List Text := es.flatMap (called slot)

/-- The operations of a run without a confirmed start. -/
theorem trace_ops {es : List Event} (hes : ∀ e ∈ es, ¬ Confirmed e) (w : MainWindow) :
    trace MainWindow.step ops w es = records (calls .writeToCsv es) := by
  rw [trace_congr fun e he => ops_of_not_confirmed (hes e he), trace_const, records, calls, List.flatMap_assoc]
  rfl

/-- **The data of one measurement.**  Wherever a run has got to when a measurement starts, from
then on to the next confirmed start the file has the headings with the time of the start and a
row for each line that is readable of those with which `write_to_csv` has been called, in their
order.  The rows are read back from it, and from a downloaded copy. -/
theorem measurement_kept (w : MainWindow) {f : Fields} (hsend : w.CanSend f) (now : Datetime) {es : List Event}
    (hes : ∀ e ∈ es, ¬ Confirmed e) :
    ((w.step (.startMeasurement true f now true)).run es).csvFile
        = (DataSet.mk (excel.writeRow [13, 10] (headings now)) (rowsOf (calls .writeToCsv es))).bytes ∧
      DataSet.Keeps ((w.step (.startMeasurement true f now true)).run es).csvFile now
        (rowsOf (calls .writeToCsv es)) := by
  have hstart : w.step (.startMeasurement true f now true) = w.startMeasurement f now true := rfl
  rcases w.startMeasurement_cases f now true with ⟨-, hw⟩ | ⟨hnot, -⟩
  · generalize hv : w.step (.startMeasurement true f now true) = v
    rw [hstart, hw] at hv
    have hholds : Holds v ⟨excel.writeRow [13, 10] (headings now), []⟩ := by
      rw [← hv]
      exact ⟨(List.append_nil _).symm, List.forall_mem_nil _⟩
    have hrun := hholds.run es
    rw [trace_ops hes, DataSet.foldl_step _ fun now => clear_notMem_records _ now, recorded_records] at hrun
    have hfile : (v.run es).csvFile
        = (DataSet.mk (excel.writeRow [13, 10] (headings now)) (rowsOf (calls .writeToCsv es))).bytes := hrun.csvFile
    exact ⟨hfile, hfile ▸ DataSet.keeps_bytes now recorded_rowsOf⟩
  · exact absurd ⟨hsend, rfl⟩ hnot

end

section

attribute [local instance] Arithmetic.uncontracted

/-- A line is read, and goes to both slots. -/
def reading (line : Text) : List Event :=
  [.readline 0 line, .call .updateSerialMonitor (response line), .call .writeToCsv (response line)]

/-- A message and the line of strip 1. -/
def sineReading : List Event :=
  reading ⟨Numeral.ascii "Parameters set successfully\n", by decide +kernel⟩ ++
    reading ⟨Numeral.ascii "Resistance of strip 1: 18000, Time: 30\n", by decide +kernel⟩

/-- The hypotheses of `measurement_kept` are satisfiable, with a row. -/
theorem measurement_kept_sine :
    rowsOf (calls .writeToCsv sineReading) = [⟨1, 30, 18000⟩] ∧
    (((((init none noon).run sineSelection).step (.startMeasurement true sineFields noon true)).run
        sineReading).csvFile
      = (DataSet.mk (excel.writeRow [13, 10] (headings noon)) (rowsOf (calls .writeToCsv sineReading))).bytes ∧
      DataSet.Keeps ((((init none noon).run sineSelection).step (.startMeasurement true sineFields noon true)).run
        sineReading).csvFile noon (rowsOf (calls .writeToCsv sineReading))) :=
  ⟨by decide +kernel, measurement_kept ((init none noon).run sineSelection) (by decide +kernel) noon
    (by simp [sineReading, reading, Confirmed])⟩

end

end MainWindow
end Host
end GasSensor
