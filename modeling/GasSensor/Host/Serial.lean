/-
# The serial connection of the window

`SerialThread` of `source/GUI/test_gui.py`.  Its `run` waits until bytes have come
in, reads one line with `readline`, and emits what `decode(errors='ignore')` and
`strip` leave of it.

Texts are ASCII here, as everything the firmware prints is.  The port itself belongs to
pyserial: which lines `readline` returns is not decided here, `Reads` is what its
documentation promises of them.
-/

import GasSensor.Host.Csv
import GasSensor.Lib.Lines

namespace GasSensor
namespace Host

/-- Only ASCII. -/
def Ascii (s : List UInt8) : Prop := ∀ b ∈ s, b < 0x80

instance asciiDecidable (s : List UInt8) : Decidable (Ascii s) := inferInstanceAs (Decidable (∀ b ∈ s, _))

/-- An ASCII text. -/
abbrev Text := { s : List UInt8 // Ascii s }

theorem ascii_strip {s : List UInt8} (h : Ascii s) : Ascii (strip s) := fun b hb =>
  h b ((List.dropWhile_suffix _).subset ((List.rdropWhile_prefix _ _).subset hb))

/-- What is emitted for a line: `self.ser.readline().decode(errors='ignore').strip()`.  ASCII is
decoded to itself. -/
def response (line : Text) : Text := ⟨strip line.val, ascii_strip line.property⟩

/-- A `SerialThread` with its port. -/
structure SerialThread where
  /-- The port could be opened. -/
  ser : Bool
  flag : Bool
  /-- The bytes sent. -/
  written : List UInt8

namespace SerialThread

/-- `__init__`; `serial.Serial` raises `SerialException` if it cannot open the port. -/
def init (opened : Bool) : SerialThread := ⟨opened, true, []⟩

/-- `run` is in its loop. -/
def running (c : SerialThread) : Bool := c.ser && c.flag

/-- The port fails while `run` is in the loop. -/
def serialError (c : SerialThread) : SerialThread := if c.running = true then { c with flag := false } else c

/-- `ser.write` in `send_parameters`. -/
def write (parameters : List UInt8) (c : SerialThread) : SerialThread :=
  { c with written := c.written ++ parameters }

end SerialThread

/-- **What `readline` promises** of the lines it has returned at a port without a timeout, when
`bytes` have come in there: they end with a line feed, and they are cut from the bytes one after
another. -/
structure Reads (bytes : List UInt8) (lines : List (List UInt8)) : Prop where
  isLine : ∀ l ∈ lines, Lines.IsLine 10 l
  isPrefix : lines.flatten <+: bytes

/-- The lines are the first ones of the bytes. -/
theorem Reads.isPrefix_lines {bytes : List UInt8} {lines : List (List UInt8)} (h : Reads bytes lines) :
    lines <+: Lines.lines 10 bytes := by
  obtain ⟨rest, hrest⟩ := h.isPrefix
  rw [← hrest, Lines.lines, Lines.linesFrom_flatten h.isLine]
  exact List.prefix_append _ _

end Host
end GasSensor
