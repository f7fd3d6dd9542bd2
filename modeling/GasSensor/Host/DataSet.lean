/-
# The data of a measurement

The file `resistance_data.csv` of `source/GUI/test_gui.py`: `clear_csv_file` begins
it with a row of headings, and `write_to_csv` adds a row for each strip and round.

A `DataSet` is what the file is for: the headings it begins with, or what stood
in it before, and the rows recorded since then.  The file of a data set with headings
is a table from which every number is read back as it was, also in the copy
that `download_csv_file` makes (`keeps_bytes`).
-/

import GasSensor.Host.Csv
import GasSensor.Lib.Dialect
import GasSensor.Lib.Shortest

namespace GasSensor
namespace Host

open CString FloatingPoint Numeral

/-- The dialect of `csv.writer`. -/
def excel : Dialect UInt8 := ⟨44, 34, 13, 10, by decide⟩

/-- `datetime.datetime.now()`. -/
structure Datetime where
  year : ℕ
  month : ℕ
  day : ℕ
  hour : ℕ
  minute : ℕ
  second : ℕ

/-- A number of two digits. -/
def twoDigits (n : ℕ) : List UInt8 := if n < 10 then 48 :: digits n else digits n

/-- `strftime("%Y-%m-%d %H:%M:%S")`. -/
def strftime (now : Datetime) : List UInt8 :=
  digits now.year ++ 45 :: (twoDigits now.month ++ 45 :: (twoDigits now.day ++ 32 :: (twoDigits now.hour
    ++ 58 :: (twoDigits now.minute ++ 58 :: twoDigits now.second))))

/-- The row `clear_csv_file` and `init_csv_file` write. -/
def headings (now : Datetime) : List (List UInt8) :=
  [ascii "Strip", ascii "Time (s)", ascii "Resistance (Ohms)",
    ascii "Date and time measurement started: " ++ strftime now]

section

variable [Arithmetic]

namespace CsvRow

/-- `repr` of `time_val`. -/
def timeText (row : CsvRow) : List UInt8 :=
  match row.timeVal with
  | .finite x => ((shortest double x).map Decimal.repr).getD []
  | _ => []

/-- `[strip, time_val, resistance]` as `csv_writer` prints it. -/
def fields (row : CsvRow) : List (List UInt8) := [digits row.strip, row.timeText, digits row.resistance]

/-- The three numbers. -/
def values (row : CsvRow) : ℕ × Value × ℕ := (row.strip, row.timeVal, row.resistance)

/-- The row has been made from a line: its time is a `float`. -/
def Recorded (row : CsvRow) : Prop := ∃ x, row.timeVal = .finite x

end CsvRow

/-- The numbers in a row of the file. -/
def readFields : List (List UInt8) → Option (ℕ × Value × ℕ)
  | [strip, time, resistance] =>
      (decimalRat time).map fun x => (digitsValue strip, double.round x, digitsValue resistance)
  | _ => none

namespace CsvRow

variable {row : CsvRow}

theorem recorded_of_writeToCsv {data : List UInt8} (h : writeToCsv data = some row) : row.Recorded := by
  simp only [writeToCsv, Option.bind_eq_bind, Option.bind_eq_some_iff] at h
  obtain ⟨_, _, _, _, _, _, _, _, _, _, _, _, h⟩ := h
  exact (csvRow_eq_some h).2

/-- A time has a decimal expansion: one of three digits, or that of a binary fraction. -/
theorem exists_expansion (h : row.timeVal = .finite x) : ∃ s m : ℕ, s ≤ 1074 ∧ x * 10 ^ s = m := by
  refine rounding_cases (P := fun _ r => ∀ n : ℕ, ∀ x, r.round (n / 1000) = .finite x →
    ∃ s m : ℕ, s ≤ 1074 ∧ x * 10 ^ s = m) (fun n x h => ?_) (fun n x h => ?_) row.time x h
  · obtain rfl := Value.finite.inj h
    exact ⟨3, n, by decide, by norm_num⟩
  · obtain ⟨m, hm⟩ := Format.exists_nearest_eq h
    have hnonneg : 0 ≤ x := by
      have hle := Rounding.le_round (r := binary64.nearest) (n := 0) (x := (n / 1000 : ℚ)) (by decide) (by positivity)
      rw [h] at hle
      exact_mod_cast hle
    have hfive : x * 10 ^ 1074 = m * 5 ^ 1074 := by
      rw [hm, show (10 : ℚ) = 2 * 5 by norm_num, mul_pow, mul_assoc, ← mul_assoc (_ ^ _)]
      rw [show binary64.minExponent = -((1074 : ℕ) : ℤ) from rfl, zpow_neg, zpow_natCast,
        inv_mul_cancel₀ (pow_ne_zero _ (by norm_num)), one_mul]
    have hm0 : 0 ≤ m := by
      have hpos : (0 : ℚ) < 2 ^ binary64.minExponent := zpow_pos (by norm_num) _
      have hmul : (0 : ℚ) ≤ m * 2 ^ binary64.minExponent := hm ▸ hnonneg
      exact_mod_cast nonneg_of_mul_nonneg_left hmul hpos
    lift m to ℕ using hm0
    exact ⟨1074, m * 5 ^ 1074, le_rfl, by rw [hfive, Nat.cast_mul, Nat.cast_pow]; rfl⟩

/-- The time is printed as a decimal that is read as it. -/
theorem exists_timeText (h : row.Recorded) : ∃ d : Decimal, row.timeText = d.repr ∧ double.round d.value = row.timeVal := by
  obtain ⟨x, hx⟩ := h
  obtain ⟨s, m, hs, hm⟩ := exists_expansion hx
  obtain ⟨d, hd⟩ := exists_shortest (double.fixed hx) hs hm
  refine ⟨d, ?_, (round_shortest hd).trans hx.symm⟩
  simp only [timeText, hx, hd, Option.map_some, Option.getD_some]

/-- **A row is read back.** -/
theorem readFields_fields (h : row.Recorded) : readFields row.fields = some row.values := by
  obtain ⟨d, htext, hround⟩ := exists_timeText h
  rw [fields, readFields, htext, Decimal.decimalRat_repr, digitsValue_digits, digitsValue_digits, Option.map_some,
    hround]
  rfl

/-- A row needs no quotes. -/
theorem isNumeral_fields (row : CsvRow) : ∀ field ∈ row.fields, ∀ b ∈ field, Decimal.IsNumeral b := by
  have hdigits : ∀ n, ∀ b ∈ digits n, Decimal.IsNumeral b := fun n b hb => .inl (allDigits_digits n b hb)
  have htime : ∀ b ∈ row.timeText, Decimal.IsNumeral b := by
    unfold timeText
    split
    next x _ =>
      cases shortest double x with
      | none => exact List.forall_mem_nil _
      | some d => exact d.isNumeral_repr
    next => exact List.forall_mem_nil _
  exact List.forall_mem_cons.2 ⟨hdigits _, List.forall_mem_cons.2 ⟨htime, List.forall_mem_singleton.2 (hdigits _)⟩⟩

end CsvRow

/-- What the file begins with, and the rows recorded since then. -/
structure DataSet where
  kept : List UInt8
  rows : List CsvRow

namespace DataSet

/-- What can happen to a data set. -/
inductive Op
  | clear (now : Datetime)
  | record (row : CsvRow)

/-- Clearing begins a new one, recording adds a row. -/
def step (d : DataSet) : Op → DataSet
  | .clear now => ⟨excel.writeRow [13, 10] (headings now), []⟩
  | .record row => { d with rows := d.rows ++ [row] }

/-- The file of a data set. -/
def bytes (d : DataSet) : List UInt8 := d.kept ++ excel.writeRows [13, 10] (d.rows.map CsvRow.fields)

/-- The data set begins with headings. -/
def Headed (d : DataSet) : Prop := ∃ now, d.kept = excel.writeRow [13, 10] (headings now)

@[simp] theorem bytes_clear (d : DataSet) (now : Datetime) :
    (d.step (.clear now)).bytes = excel.writeRow [13, 10] (headings now) := List.append_nil _

/-- Recording appends a row to the file. -/
@[simp] theorem bytes_record (d : DataSet) (row : CsvRow) :
    (d.step (.record row)).bytes = d.bytes ++ excel.writeRow [13, 10] row.fields := by
  simp only [bytes, step, Dialect.writeRows, List.map_append, List.map_singleton, List.flatten_append,
    List.flatten_singleton, List.append_assoc]

/-- The rows recorded by some operations, the last of them behind the last `clear`. -/
def recorded : List Op → List CsvRow
  | [] => []
  | .clear _ :: ops => recorded ops
  | .record row :: ops => row :: recorded ops

omit [Arithmetic] in
/-- A row of a data set was in it or has been recorded. -/
theorem mem_foldl_step {ops : List Op} {d : DataSet} {row : CsvRow} (h : row ∈ (ops.foldl step d).rows) :
    row ∈ d.rows ∨ .record row ∈ ops := by
  induction ops generalizing d with
  | nil => exact .inl h
  | cons op ops ih =>
      rcases ih h with h | h
      · match op with
        | .clear now => cases h
        | .record new =>
            rcases List.mem_append.1 h with h | h
            · exact .inl h
            · rw [List.mem_singleton.1 h]
              exact .inr List.mem_cons_self
      · exact .inr (List.mem_cons_of_mem _ h)

omit [Arithmetic] in
/-- A data set keeps what it begins with until it is cleared. -/
theorem kept_foldl_step (ops : List Op) (d : DataSet) :
    (ops.foldl step d).kept = d.kept ∨ (ops.foldl step d).Headed := by
  induction ops generalizing d with
  | nil => exact .inl rfl
  | cons op ops ih =>
      match op with
      | .record row => exact ih _
      | .clear now =>
          rcases ih (d.step (.clear now)) with hkept | hheaded
          · exact .inr ⟨now, hkept⟩
          · exact .inr hheaded

omit [Arithmetic] in
/-- Operations that clear nothing add their rows. -/
theorem foldl_step (d : DataSet) {ops : List Op} (h : ∀ now, Op.clear now ∉ ops) :
    ops.foldl step d = { d with rows := d.rows ++ recorded ops } := by
  induction ops generalizing d with
  | nil => rw [recorded, List.append_nil]; rfl
  | cons op ops ih =>
      have hops : ∀ now, Op.clear now ∉ ops := fun now hmem => h now (List.mem_cons_of_mem _ hmem)
      match op with
      | .clear now => exact absurd List.mem_cons_self (h now)
      | .record row =>
          rw [List.foldl_cons, ih _ hops, recorded, step]
          simp only [List.append_assoc, List.singleton_append]

end DataSet

/-- `download_csv_file` copies the file in text mode; `linesep` is what the system writes for
a line feed. -/
def downloadCsvFile (linesep file : List UInt8) : List UInt8 := excel.textMode linesep file

namespace DataSet

/-- **What a reader of the dialect finds in a file**: the headings, and under them the rows,
which it reads as their numbers. -/
structure Tabulates (file : List UInt8) (now : Datetime) (rows : List CsvRow) : Prop where
  table : excel.readRows file = headings now :: rows.map CsvRow.fields
  values : (rows.map CsvRow.fields).mapM readFields = some (rows.map CsvRow.values)

theorem mapM_readFields {rows : List CsvRow} (h : ∀ row ∈ rows, row.Recorded) :
    (rows.map CsvRow.fields).mapM readFields = some (rows.map CsvRow.values) := by
  induction rows with
  | nil => rfl
  | cons row rows ih =>
      obtain ⟨hrow, hrows⟩ := List.forall_mem_cons.1 h
      rw [List.map_cons, List.mapM_cons, CsvRow.readFields_fields hrow, ih hrows]
      rfl

/-- **The table is read back**, whichever newlines it is written with. -/
theorem tabulates_writeRows {rows : List CsvRow} (now : Datetime) {nl : List UInt8}
    (hnl : excel.Newline nl) (h : ∀ row ∈ rows, row.Recorded) :
    Tabulates (excel.writeRows nl (headings now :: rows.map CsvRow.fields)) now rows where
  table := by
    refine Dialect.readRows_writeRows hnl (List.forall_mem_cons.2 ⟨nofun, fun fields hfields => ?_⟩)
    obtain ⟨row, -, rfl⟩ := List.mem_map.1 hfields
    nofun
  values := mapM_readFields h

/-- The file of a data set with the headings of `now`. -/
theorem bytes_headed (now : Datetime) (rows : List CsvRow) :
    (mk (excel.writeRow [13, 10] (headings now)) rows).bytes
      = excel.writeRows [13, 10] (headings now :: rows.map CsvRow.fields) := rfl

omit [Arithmetic] in
/-- The headings have one line each. -/
theorem unbroken_headings (now : Datetime) : ∀ field ∈ headings now, excel.Unbroken field := by
  have hbytes : ∀ s : List UInt8, (∀ b ∈ s, 32 ≤ b) → excel.Unbroken s := fun s hs =>
    ⟨fun h => absurd (hs _ h) (by decide), fun h => absurd (hs _ h) (by decide)⟩
  have hdigits : ∀ n, ∀ b ∈ digits n, 32 ≤ b := by
    intro n b hb
    have hdigit := allDigits_digits n b hb
    rw [isDigit, decide_eq_true_eq] at hdigit
    exact UInt8.le_trans (show (32 : UInt8) ≤ 48 by decide) hdigit.1
  have htwo : ∀ n, ∀ b ∈ twoDigits n, 32 ≤ b := by
    intro n b hb
    unfold twoDigits at hb
    split at hb
    · rcases List.mem_cons.1 hb with rfl | hb
      · decide
      · exact hdigits n b hb
    · exact hdigits n b hb
  have hnow : ∀ b ∈ strftime now, 32 ≤ b := by
    simp only [strftime, List.forall_mem_append, List.forall_mem_cons]
    exact ⟨hdigits _, by decide +kernel, htwo _, by decide +kernel, htwo _, by decide +kernel, htwo _, by decide +kernel, htwo _, by decide +kernel, htwo _⟩
  refine List.forall_mem_cons.2 ⟨hbytes _ (by decide +kernel), List.forall_mem_cons.2 ⟨hbytes _ (by decide +kernel),
    List.forall_mem_cons.2 ⟨hbytes _ (by decide +kernel), List.forall_mem_singleton.2 (hbytes _ ?_)⟩⟩⟩
  exact List.forall_mem_append.2 ⟨by decide +kernel, hnow⟩

/-- The file is read as the rows, and so is the copy that `download_csv_file` makes, on any system. -/
structure Keeps (file : List UInt8) (now : Datetime) (rows : List CsvRow) : Prop where
  csvFile : Tabulates file now rows
  download : ∀ linesep, excel.Newline linesep → Tabulates (downloadCsvFile linesep file) now rows

/-- **The file of a headed data set keeps its rows.** -/
theorem keeps_bytes (now : Datetime) {rows : List CsvRow} (h : ∀ row ∈ rows, row.Recorded) :
    Keeps (mk (excel.writeRow [13, 10] (headings now)) rows).bytes now rows where
  csvFile := tabulates_writeRows now (.inl rfl) h
  download linesep hsep := by
    have hunbroken : ∀ fields ∈ headings now :: rows.map CsvRow.fields, ∀ field ∈ fields, excel.Unbroken field := by
      refine List.forall_mem_cons.2 ⟨unbroken_headings now, fun fields hfields => ?_⟩
      obtain ⟨row, -, rfl⟩ := List.mem_map.1 hfields
      intro field hfield
      have hnumeral := row.isNumeral_fields field hfield
      exact ⟨fun hcr => absurd (hnumeral _ hcr) (by decide), fun hlf => absurd (hnumeral _ hlf) (by decide)⟩
    have hcopy : downloadCsvFile linesep (mk (excel.writeRow [13, 10] (headings now)) rows).bytes
        = excel.writeRows linesep (headings now :: rows.map CsvRow.fields) := by
      rw [bytes_headed, downloadCsvFile]
      exact Dialect.textMode_writeRows hunbroken
    rw [hcopy]
    exact tabulates_writeRows now hsep h

end DataSet

end

end Host
end GasSensor
