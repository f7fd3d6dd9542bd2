/-
# The window

`MainWindow` of `source/GUI/test_gui.py`, with every `SerialThread` it has started.

The threads run beside the event loop, and Qt hands what they emit to the two slots
`update_serial_monitor` and `write_to_csv`.  When it calls a slot, and with what, is not
decided here: an `Event` is a line that a thread reads, a call of a slot or a click of the
user, in any order, and `step` is what the window makes of it.  Message boxes and the
confirmation dialog run event loops of their own, so a click is one step only from the
moment the user confirms it.

An exception in a slot ends the slot and nothing else.
-/

import GasSensor.Host.DataSet
import GasSensor.Host.Parameters
import GasSensor.Host.Serial
import GasSensor.Lib.Trace

namespace GasSensor
namespace Host

open Numeral

/-- The message of the first validator that rejects, in the order of `start_measurement`. -/
def validationError (f : Fields) : Option String :=
  if validateExcitationVoltage f = false then
    some "Invalid excitation voltage. Please enter a value between 0.5 and 1.0."
  else if validateMuxFrequency f = false then
    some "Invalid MUX frequency. Please enter an integer value between 1 and 8."
  else if validateWaveFrequency f = false then
    some "Invalid wave frequency. Please enter a value between 0.002 and 0.5 Hz."
  else if validateDacHotPlateVoltage f = false then
    some "Invalid DAC hot plate voltage. Please enter a value between 0 and 23V."
  else if validateDutyCycle f = false then
    some "Invalid duty cycle. Please enter an integer value between 0 and 100."
  else none

theorem validationError_eq_none_iff {f : Fields} : validationError f = none ↔ f.Accepted := by
  unfold validationError Fields.Accepted
  split_ifs <;> simp_all

/-- The slots connected to `new_data`. -/
inductive Slot
  | updateSerialMonitor
  | writeToCsv
  deriving DecidableEq

/-- A `MainWindow`. -/
structure MainWindow where
  /-- Every `SerialThread` that has been started; `self.serial_thread` is the last. -/
  threads : List SerialThread
  stripSelection : Strip → Bool
  /-- The button says that the heater is on. -/
  heaterButton : Bool
  measurementStarted : Bool
  plotUpdateTimer : Bool
  csvFile : List UInt8
  serialMonitor : List Text
  /-- The message boxes. -/
  shown : List String

namespace MainWindow

/-- `__init__`, with the file it finds: `init_csv_file` keeps one that exists. -/
def init (file : Option (List UInt8)) (now : Datetime) : MainWindow where
  threads := []
  stripSelection := fun _ => false
  heaterButton := false
  measurementStarted := false
  plotUpdateTimer := false
  csvFile := file.getD (excel.writeRow [13, 10] (headings now))
  serialMonitor := []
  shown := []

/-- `clear_csv_file`. -/
def clearCsvFile (now : Datetime) (w : MainWindow) : MainWindow :=
  { w with csvFile := excel.writeRow [13, 10] (headings now) }

/-- `show_error_message` and `show_success_message`. -/
def showMessage (message : String) (w : MainWindow) : MainWindow := { w with shown := w.shown ++ [message] }

/-- `connect_serial_port`, with whether the port can be opened. -/
def connectSerialPort (port : String) (opened : Bool) (w : MainWindow) : MainWindow :=
  if port = "" then w.showMessage "Please enter a serial port."
  else
    let w := { w with threads := w.threads ++ [SerialThread.init opened] }
    if opened = true then w.showMessage ("Connected to serial port: " ++ port)
    else w.showMessage ("Failed to connect to serial port: " ++ port)

/-- A step of thread `k`. -/
def setThread (k : ℕ) (f : SerialThread → SerialThread) (w : MainWindow) : MainWindow :=
  { w with threads := w.threads.modify k f }

/-- `run` of thread `k` is in its loop. -/
def running (k : ℕ) (w : MainWindow) : Bool := (w.threads[k]?).any SerialThread.running

/-- `update_serial_monitor`. -/
def updateSerialMonitor (data : Text) (w : MainWindow) : MainWindow :=
  { w with serialMonitor := w.serialMonitor ++ [data] }

/-- `write_to_csv`: the row goes to the end of the file. -/
def writeToCsv [Arithmetic] (data : Text) (w : MainWindow) : MainWindow :=
  match Host.writeToCsv data.val with
  | some row => { w with csvFile := w.csvFile ++ excel.writeRow [13, 10] row.fields }
  | none => w

/-- The event loop calls a slot. -/
def call [Arithmetic] (slot : Slot) (data : Text) (w : MainWindow) : MainWindow :=
  match slot with
  | .updateSerialMonitor => w.updateSerialMonitor data
  | .writeToCsv => w.writeToCsv data

/-- `self.serial_thread and self.serial_thread.ser`. -/
def connected (w : MainWindow) : Bool :=
  match w.threads[w.threads.length - 1]? with
  | some c => c.ser
  | none => false

/-- The input with the strips that are selected. -/
def entered (f : Fields) (w : MainWindow) : Fields := { f with stripSelection := w.stripSelection }

/-- The line for what has been entered. -/
def parameters (f : Fields) (w : MainWindow) : List UInt8 := (Host.startMeasurement (w.entered f)).getD []

/-- `start_measurement` behind the validators; `sent` says that `ser.write` raises nothing. -/
def sendAndStart (f : Fields) (now : Datetime) (sent : Bool) (w : MainWindow) : MainWindow :=
  if w.connected = true then
    if sent = true then
      { (w.setThread (w.threads.length - 1) (·.write (w.parameters f))).clearCsvFile now with
        measurementStarted := true
        plotUpdateTimer := true }
    else w
  else w.showMessage "Serial port not connected."

/-- `start_measurement` from the validators on. -/
def validateAndStart (f : Fields) (now : Datetime) (sent : Bool) (w : MainWindow) : MainWindow :=
  match validationError (w.entered f) with
  | some message => w.showMessage message
  | none => w.sendAndStart f now sent

/-- `start_measurement` from the confirmation on. -/
def startMeasurement (f : Fields) (now : Datetime) (sent : Bool) (w : MainWindow) : MainWindow :=
  (if w.measurementStarted = true then w.clearCsvFile now else w).validateAndStart f now sent

/-- What can happen. -/
inductive Event
  | connectSerialPort (port : String) (opened : Bool)
  /-- `readline` of thread `k` returns a line. -/
  | readline (k : ℕ) (line : Text)
  | serialError (k : ℕ)
  | call (slot : Slot) (data : Text)
  | toggleStrip (index : Strip) (checked : Bool)
  | toggleHeater
  /-- The user has clicked the button and answered the dialog. -/
  | startMeasurement (confirmed : Bool) (f : Fields) (now : Datetime) (sent : Bool)

def step [Arithmetic] (w : MainWindow) : Event → MainWindow
  | .connectSerialPort port opened => w.connectSerialPort port opened
  | .readline _ _ => w
  | .serialError k => w.setThread k SerialThread.serialError
  | .call slot data => w.call slot data
  | .toggleStrip index checked => { w with stripSelection := Function.update w.stripSelection index checked }
  | .toggleHeater => { w with heaterButton := !w.heaterButton }
  | .startMeasurement confirmed f now sent => if confirmed = true then w.startMeasurement f now sent else w

/-- The line that `run` gets from `readline`. -/
def taken (w : MainWindow) : Event → List Text
  | .readline k line => if w.running k = true then [line] else []
  | _ => []

/-- What `new_data.emit` is called with. -/
def emitted (w : MainWindow) (e : Event) : List Text := (w.taken e).map response

/-- What a slot is called with. -/
def called (slot : Slot) : Event → List Text
  | .call slot' data => if slot' = slot then [data] else []
  | _ => []

/-- The window after some events. -/
def run [Arithmetic] (w : MainWindow) (es : List Event) : MainWindow := es.foldl step w

variable {w : MainWindow} {f : Fields} {now : Datetime} {sent : Bool}

/-- The parameters can be sent: the validators accept them and the last port was opened. -/
def CanSend (w : MainWindow) (f : Fields) : Prop := (w.entered f).Accepted ∧ w.connected = true

instance canSendDecidable (w : MainWindow) (f : Fields) : Decidable (w.CanSend f) :=
  inferInstanceAs (Decidable (_ ∧ _))

/-- From the validators on, the parameters are sent, the file cleared and the measurement
started, or nothing happens but a message. -/
theorem validateAndStart_cases (w : MainWindow) (f : Fields) (now : Datetime) (sent : Bool) :
    ((w.CanSend f ∧ sent = true) ∧ w.validateAndStart f now sent = { w with
      threads := w.threads.modify (w.threads.length - 1) (·.write (w.parameters f))
      csvFile := excel.writeRow [13, 10] (headings now)
      measurementStarted := true
      plotUpdateTimer := true }) ∨
    (¬ (w.CanSend f ∧ sent = true) ∧ ∃ messages, w.validateAndStart f now sent = { w with
      shown := w.shown ++ messages }) := by
  unfold validateAndStart
  split
  next message herror =>
    refine .inr ⟨fun h => ?_, [message], rfl⟩
    rw [validationError_eq_none_iff.2 h.1.1] at herror
    cases herror
  next herror =>
    have haccepted := validationError_eq_none_iff.1 herror
    unfold sendAndStart
    by_cases hconnected : w.connected = true
    · rw [if_pos hconnected]
      cases sent with
      | true => exact .inl ⟨⟨⟨haccepted, hconnected⟩, rfl⟩, rfl⟩
      | false => exact .inr ⟨fun h => absurd h.2 (by decide), [], by rw [List.append_nil]; rfl⟩
    · rw [if_neg hconnected]
      exact .inr ⟨fun h => hconnected h.1.2, ["Serial port not connected."], rfl⟩

/-- **What `start_measurement` does**: it sends the parameters, clears the file and starts; or
it stops at a message or an exception, when it has only cleared the file of a measurement that
was running. -/
theorem startMeasurement_cases (w : MainWindow) (f : Fields) (now : Datetime) (sent : Bool) :
    ((w.CanSend f ∧ sent = true) ∧ w.startMeasurement f now sent = { w with
      threads := w.threads.modify (w.threads.length - 1) (·.write (w.parameters f))
      csvFile := excel.writeRow [13, 10] (headings now)
      measurementStarted := true
      plotUpdateTimer := true }) ∨
    (¬ (w.CanSend f ∧ sent = true) ∧ ∃ messages, w.startMeasurement f now sent = { w with
      csvFile := if w.measurementStarted = true then excel.writeRow [13, 10] (headings now) else w.csvFile
      shown := w.shown ++ messages }) := by
  unfold startMeasurement
  split
  · exact validateAndStart_cases (w.clearCsvFile now) f now sent
  · exact validateAndStart_cases w f now sent

/-- What `write_to_csv` adds to the file. -/
def csvText [Arithmetic] (data : List UInt8) : List UInt8 :=
  match Host.writeToCsv data with
  | some row => excel.writeRow [13, 10] row.fields
  | none => []

/-- **What a slot does.** -/
theorem call_cases [Arithmetic] (w : MainWindow) (slot : Slot) (data : Text) :
    (slot = .updateSerialMonitor ∧ w.call slot data = { w with serialMonitor := w.serialMonitor ++ [data] }) ∨
    (slot = .writeToCsv ∧ w.call slot data = { w with csvFile := w.csvFile ++ csvText data.val }) := by
  cases slot with
  | updateSerialMonitor => exact .inl ⟨rfl, rfl⟩
  | writeToCsv =>
      refine .inr ⟨rfl, ?_⟩
      change w.writeToCsv data = _
      unfold writeToCsv csvText
      split
      · rfl
      · rw [List.append_nil]

/-- What `connect_serial_port` does: with a name it starts a thread. -/
theorem connectSerialPort_cases (w : MainWindow) (port : String) (opened : Bool) :
    ∃ message, w.connectSerialPort port opened = { w with
      threads := if port = "" then w.threads else w.threads ++ [SerialThread.init opened]
      shown := w.shown ++ [message] } := by
  unfold connectSerialPort
  split
  · exact ⟨_, rfl⟩
  · cases opened <;> exact ⟨_, rfl⟩

/-- Strip 1 with a sine wave of 21 V. -/
def sineFields : Fields where
  excitationVoltageInput := some ⟨false, 1, 0⟩
  muxFreqInput := some 8
  waveFreqInput := some ⟨false, 5, 2⟩
  waveAmpInput := some ⟨false, 21, 0⟩
  dutyCycleInput := some 50
  waveTypeDropdown := ⟨0, by decide⟩
  stripSelection := fun _ => false

def noon : Datetime := ⟨2024, 6, 1, 12, 0, 0⟩

/-- The user connects and selects strip 1. -/
def sineSelection : List Event := [.connectSerialPort "COM12" true, .toggleStrip 0 true]

end MainWindow

end Host
end GasSensor
