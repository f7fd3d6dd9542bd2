/-
# Tables as text

Comma-separated values: rows of fields, which a `Dialect` writes with a delimiter between
the fields of a row and a newline after it.  A field in which one of the four symbols
occurs is written between quotes, with its own quotes doubled.

`readRows` is the automaton that reads such a text: either of `cr` and `lf` ends a row,
and empty rows are skipped.  `readRows_writeRows` is the round trip for all tables,
whatever is in their fields, with any of the newlines; `textMode_writeRows` is what a
copy in text mode makes of a table.
-/

import Mathlib.Data.List.Basic
import Mathlib.Tactic.Common

namespace GasSensor

/-- The symbols with a meaning. -/
structure Dialect (α : Type*) where
  delimiter : α
  quotechar : α
  cr : α
  lf : α
  distinct : [delimiter, quotechar, cr, lf].Nodup

namespace Dialect

variable {α : Type*}

/-- The symbols are different. -/
theorem ne (d : Dialect α) : d.delimiter ≠ d.quotechar ∧ d.delimiter ≠ d.cr ∧ d.delimiter ≠ d.lf ∧
    d.quotechar ≠ d.cr ∧ d.quotechar ≠ d.lf := by
  have h := d.distinct
  simp only [List.nodup_cons, List.mem_cons, List.not_mem_nil, or_false, not_or] at h
  exact ⟨h.1.1, h.1.2.1, h.1.2.2, h.2.1.1, h.2.1.2⟩

/-- No symbol of a newline. -/
def Unbroken (d : Dialect α) (s : List α) : Prop := d.cr ∉ s ∧ d.lf ∉ s

theorem Unbroken.append {d : Dialect α} {s s' : List α} (h : d.Unbroken s) (h' : d.Unbroken s') :
    d.Unbroken (s ++ s') :=
  ⟨fun hmem => (List.mem_append.1 hmem).elim h.1 h'.1, fun hmem => (List.mem_append.1 hmem).elim h.2 h'.2⟩

theorem unbroken_quotechar (d : Dialect α) : d.Unbroken [d.quotechar] := by
  obtain ⟨-, -, -, hcr, hlf⟩ := d.ne
  exact ⟨fun hmem => hcr (List.mem_singleton.1 hmem).symm, fun hmem => hlf (List.mem_singleton.1 hmem).symm⟩

variable [DecidableEq α]

/-- The field has to be quoted. -/
def Special (d : Dialect α) (field : List α) : Prop :=
  d.delimiter ∈ field ∨ d.quotechar ∈ field ∨ d.cr ∈ field ∨ d.lf ∈ field

instance specialDecidable (d : Dialect α) (field : List α) : Decidable (d.Special field) :=
  inferInstanceAs (Decidable (_ ∨ _))

/-- The quotes of a field are doubled. -/
def double (d : Dialect α) (field : List α) : List α :=
  field.flatMap fun b => if b = d.quotechar then [b, b] else [b]

def writeField (d : Dialect α) (field : List α) : List α :=
  if d.Special field then [d.quotechar] ++ d.double field ++ [d.quotechar] else field

/-- The fields of a row, with delimiters between them.  A row with one empty field is
written as a pair of quotes. -/
def writeFields (d : Dialect α) : List (List α) → List α
  | [] => []
  | [[]] => [d.quotechar, d.quotechar]
  | fields => [d.delimiter].intercalate (fields.map d.writeField)

/-- What can stand after a row. -/
def Newline (d : Dialect α) (nl : List α) : Prop := nl = [d.cr, d.lf] ∨ nl = [d.lf] ∨ nl = [d.cr]

def writeRow (d : Dialect α) (nl : List α) (fields : List (List α)) : List α := d.writeFields fields ++ nl

def writeRows (d : Dialect α) (nl : List α) (rows : List (List (List α))) : List α :=
  (rows.map (d.writeRow nl)).flatten

/-- Where the reader is. -/
inductive Mode
  | startRecord
  | startField
  | inField
  | inQuotedField
  | quoteInQuotedField
  deriving DecidableEq

/-- The rows so far, and the fields of the row and the symbols of the field in progress. -/
structure Reader (α : Type*) where
  rows : List (List (List α))
  fields : List (List α)
  field : List α
  mode : Mode

namespace Reader

def saveField (r : Reader α) : Reader α := ⟨r.rows, r.fields ++ [r.field], [], .startField⟩

def endRecord (r : Reader α) : Reader α := ⟨r.rows ++ [r.fields ++ [r.field]], [], [], .startRecord⟩

def add (r : Reader α) (b : α) (mode : Mode) : Reader α := ⟨r.rows, r.fields, r.field ++ [b], mode⟩

/-- One symbol outside quotes that opens none. -/
def plain (d : Dialect α) (r : Reader α) (b : α) : Reader α :=
  if b = d.cr ∨ b = d.lf then r.endRecord
  else if b = d.delimiter then r.saveField
  else r.add b .inField

/-- One symbol. -/
def step (d : Dialect α) (r : Reader α) (b : α) : Reader α :=
  match r.mode with
  | .startRecord =>
      if b = d.cr ∨ b = d.lf then r
      else if b = d.quotechar then { r with mode := .inQuotedField }
      else plain d r b
  | .startField => if b = d.quotechar then { r with mode := .inQuotedField } else plain d r b
  | .inField => plain d r b
  | .inQuotedField => if b = d.quotechar then { r with mode := .quoteInQuotedField } else r.add b .inQuotedField
  | .quoteInQuotedField => if b = d.quotechar then r.add b .inQuotedField else plain d r b

/-- The end of the text ends a row that has begun. -/
def finish (r : Reader α) : List (List (List α)) :=
  if r.mode = .startRecord then r.rows else r.endRecord.rows

end Reader

def read (d : Dialect α) (r : Reader α) (s : List α) : Reader α := s.foldl (Reader.step d) r

def readRows (d : Dialect α) (s : List α) : List (List (List α)) := (d.read ⟨[], [], [], .startRecord⟩ s).finish

variable {d : Dialect α} {r : Reader α} {rows : List (List (List α))} {fields : List (List α)}
  {field acc nl s s' : List α}

theorem read_append (d : Dialect α) (r : Reader α) (s s' : List α) :
    d.read r (s ++ s') = d.read (d.read r s) s' := List.foldl_append

/-- Symbols without a meaning are added. -/
theorem read_plain (h : ¬ d.Special s) (rows : List (List (List α))) (fields : List (List α)) (acc : List α) :
    d.read ⟨rows, fields, acc, .inField⟩ s = ⟨rows, fields, acc ++ s, .inField⟩ := by
  induction s generalizing acc with
  | nil => rw [List.append_nil]; rfl
  | cons b s ih =>
      simp only [Special, List.mem_cons, not_or] at h
      obtain ⟨⟨hdelim, hs₁⟩, ⟨-, hs₂⟩, ⟨hcr, hs₃⟩, hlf, hs₄⟩ := h
      have hstep : Reader.step d ⟨rows, fields, acc, .inField⟩ b = ⟨rows, fields, acc ++ [b], .inField⟩ := by
        change Reader.plain d _ b = _
        rw [Reader.plain, if_neg (by tauto), if_neg (Ne.symm hdelim)]
        rfl
      rw [read, List.foldl_cons, hstep]
      change d.read _ s = _
      rw [ih (by simp [Special, hs₁, hs₂, hs₃, hs₄]), List.append_assoc]
      rfl

/-- Between quotes every symbol is added, and a pair of quotes is one. -/
theorem read_double (d : Dialect α) (rows : List (List (List α))) (fields : List (List α)) (acc : List α) :
    d.read ⟨rows, fields, acc, .inQuotedField⟩ (d.double s) = ⟨rows, fields, acc ++ s, .inQuotedField⟩ := by
  induction s generalizing acc with
  | nil => rw [List.append_nil]; rfl
  | cons b s ih =>
      rw [double, List.flatMap_cons, read_append]
      have hb : d.read ⟨rows, fields, acc, .inQuotedField⟩ (if b = d.quotechar then [b, b] else [b])
          = ⟨rows, fields, acc ++ [b], .inQuotedField⟩ := by
        by_cases hq : b = d.quotechar
        · rw [if_pos hq]
          simp only [read, List.foldl_cons, List.foldl_nil, Reader.step, if_pos hq]
          rfl
        · rw [if_neg hq]
          simp only [read, List.foldl_cons, List.foldl_nil, Reader.step, if_neg hq]
          rfl
      rw [hb]
      change d.read _ (d.double s) = _
      rw [ih, List.append_assoc]
      rfl

/-- The reader is at the beginning of a field. -/
def AtField (mode : Mode) : Prop := mode = .startRecord ∨ mode = .startField

/-- The first symbol of a field outside quotes. -/
theorem step_first {mode : Mode} (hmode : AtField mode) {b : α} (h : ¬ d.Special [b]) :
    Reader.step d ⟨rows, fields, [], mode⟩ b = ⟨rows, fields, [b], .inField⟩ := by
  simp only [Special, List.mem_singleton, not_or] at h
  obtain ⟨hdelim, hquote, hcr, hlf⟩ := h
  have hplain : Reader.plain d ⟨rows, fields, [], mode⟩ b = ⟨rows, fields, [b], .inField⟩ := by
    rw [Reader.plain, if_neg (by tauto), if_neg (Ne.symm hdelim)]
    rfl
  rcases hmode with rfl | rfl
  · change (if _ then _ else if _ then _ else _) = _
    rw [if_neg (by tauto), if_neg (Ne.symm hquote)]
    exact hplain
  · change (if _ then _ else _) = _
    rw [if_neg (Ne.symm hquote)]
    exact hplain

/-- A quote opens a quoted field. -/
theorem step_quote {mode : Mode} (hmode : AtField mode) :
    Reader.step d ⟨rows, fields, [], mode⟩ d.quotechar = ⟨rows, fields, [], .inQuotedField⟩ := by
  obtain ⟨-, -, -, hcr, hlf⟩ := d.ne
  rcases hmode with rfl | rfl
  · change (if _ then _ else if _ then _ else _) = _
    rw [if_neg (by tauto), if_pos rfl]
  · exact if_pos rfl

/-- **A field is read back**, and then the reader takes the next symbol as one outside
quotes. -/
theorem read_writeField {mode : Mode} (hmode : AtField mode) (rows : List (List (List α)))
    (fields : List (List α)) (hne : mode = .startRecord → field ≠ []) :
    ∃ mode', d.read ⟨rows, fields, [], mode⟩ (d.writeField field) = ⟨rows, fields, field, mode'⟩ ∧
      mode' ≠ .inQuotedField ∧ mode' ≠ .startRecord := by
  by_cases hs : d.Special field
  · refine ⟨.quoteInQuotedField, ?_, by decide, by decide⟩
    rw [writeField, if_pos hs, read_append, read_append]
    have hopen : d.read ⟨rows, fields, [], mode⟩ [d.quotechar] = ⟨rows, fields, [], .inQuotedField⟩ :=
      step_quote hmode
    rw [hopen, read_double, List.nil_append]
    exact if_pos rfl
  · rw [writeField, if_neg hs]
    cases field with
    | nil =>
        rcases hmode with rfl | rfl
        · exact absurd rfl (hne rfl)
        · exact ⟨.startField, rfl, by decide, by decide⟩
    | cons b s =>
        have hb : ¬ d.Special [b] := by
          simp only [Special, List.mem_cons, not_or, List.not_mem_nil] at hs ⊢
          tauto
        have hrest : ¬ d.Special s := by
          simp only [Special, List.mem_cons, not_or] at hs ⊢
          tauto
        refine ⟨.inField, ?_, by decide, by decide⟩
        rw [read, List.foldl_cons, step_first hmode hb]
        exact read_plain hrest rows fields [b]

/-- Where a field has been read, a delimiter ends it. -/
theorem step_delimiter {mode : Mode} (h : mode ≠ .inQuotedField) :
    Reader.step d ⟨rows, fields, field, mode⟩ d.delimiter = ⟨rows, fields ++ [field], [], .startField⟩ := by
  obtain ⟨hq, hcr, hlf, -⟩ := d.ne
  have hplain : Reader.plain d ⟨rows, fields, field, mode⟩ d.delimiter
      = ⟨rows, fields ++ [field], [], .startField⟩ := by
    rw [Reader.plain, if_neg (by tauto), if_pos rfl]
    rfl
  cases mode with
  | startRecord =>
      change (if _ then _ else if _ then _ else _) = _
      rw [if_neg (by tauto), if_neg hq]
      exact hplain
  | startField => exact (if_neg hq).trans hplain
  | inField => exact hplain
  | inQuotedField => exact absurd rfl h
  | quoteInQuotedField => exact (if_neg hq).trans hplain

/-- Where a field has been read, either symbol of a newline ends it and its row. -/
theorem step_newline {mode : Mode} (h : mode ≠ .inQuotedField) (h' : mode ≠ .startRecord) {b : α}
    (hb : b = d.cr ∨ b = d.lf) :
    Reader.step d ⟨rows, fields, field, mode⟩ b = ⟨rows ++ [fields ++ [field]], [], [], .startRecord⟩ := by
  obtain ⟨-, -, -, hcr, hlf⟩ := d.ne
  have hquote : b ≠ d.quotechar := by
    rcases hb with rfl | rfl
    · exact hcr.symm
    · exact hlf.symm
  have hplain : Reader.plain d ⟨rows, fields, field, mode⟩ b
      = ⟨rows ++ [fields ++ [field]], [], [], .startRecord⟩ := if_pos hb
  cases mode with
  | startRecord => exact absurd rfl h'
  | startField => exact (if_neg hquote).trans hplain
  | inField => exact hplain
  | inQuotedField => exact absurd rfl h
  | quoteInQuotedField => exact (if_neg hquote).trans hplain

/-- Where a field has been read, a newline ends it and its row. -/
theorem read_end (hnl : d.Newline nl) {mode : Mode} (h : mode ≠ .inQuotedField) (h' : mode ≠ .startRecord) :
    d.read ⟨rows, fields, field, mode⟩ nl = ⟨rows ++ [fields ++ [field]], [], [], .startRecord⟩ := by
  rcases hnl with rfl | rfl | rfl
  · rw [read, List.foldl_cons, step_newline h h' (.inl rfl)]
    exact if_pos (.inr rfl)
  · exact step_newline h h' (.inr rfl)
  · exact step_newline h h' (.inl rfl)

/-- The fields of a row behind the first ones. -/
theorem read_fields (hnl : d.Newline nl) (rows : List (List (List α))) (saved : List (List α)) (field : List α)
    (more : List (List α)) {mode : Mode} (hmode : AtField mode) (hne : mode = .startRecord → field ≠ []) :
    d.read ⟨rows, saved, [], mode⟩ ([d.delimiter].intercalate ((field :: more).map d.writeField) ++ nl)
      = ⟨rows ++ [saved ++ field :: more], [], [], .startRecord⟩ := by
  induction more generalizing saved field mode with
  | nil =>
      obtain ⟨mode', hread, hq, hstart⟩ := read_writeField (d := d) hmode rows saved hne
      rw [List.map_cons, List.map_nil, List.intercalate_singleton, read_append, hread, read_end hnl hq hstart]
  | cons next more ih =>
      obtain ⟨mode', hread, hq, -⟩ := read_writeField (d := d) hmode rows saved hne
      rw [List.map_cons, List.map_cons, List.intercalate_cons_cons, List.append_assoc, List.append_assoc,
        read_append, hread, read_append]
      have hdelim : d.read ⟨rows, saved, field, mode'⟩ [d.delimiter]
          = ⟨rows, saved ++ [field], [], .startField⟩ := step_delimiter hq
      rw [hdelim, ← List.map_cons, ih (saved ++ [field]) next (.inr rfl) nofun, List.append_assoc]
      rfl

/-- **A row is read back.** -/
theorem read_writeRow (hnl : d.Newline nl) (rows : List (List (List α))) (hne : fields ≠ []) :
    d.read ⟨rows, [], [], .startRecord⟩ (d.writeRow nl fields) = ⟨rows ++ [fields], [], [], .startRecord⟩ := by
  match fields, hne with
  | [[]], _ =>
      have hopen : d.read ⟨rows, [], [], .startRecord⟩ [d.quotechar] = ⟨rows, [], [], .inQuotedField⟩ :=
        step_quote (.inl rfl)
      have hclose : d.read ⟨rows, [], [], .inQuotedField⟩ [d.quotechar] = ⟨rows, [], [], .quoteInQuotedField⟩ :=
        if_pos rfl
      change d.read _ ([d.quotechar] ++ ([d.quotechar] ++ nl)) = _
      rw [read_append, hopen, read_append, hclose, read_end hnl (by decide) (by decide)]
      rfl
  | [b :: s], _ => exact read_fields hnl rows [] (b :: s) [] (.inl rfl) fun _ => List.cons_ne_nil b s
  | (b :: s) :: next :: more, _ =>
      exact read_fields hnl rows [] (b :: s) (next :: more) (.inl rfl) fun _ => List.cons_ne_nil b s
  | [] :: next :: more, _ =>
      -- the row begins with the delimiter behind its empty first field
      have hempty : d.writeField [] = [] := if_neg (by simp [Special])
      have hdelim : d.read ⟨rows, [], [], .startRecord⟩ [d.delimiter] = ⟨rows, [[]], [], .startField⟩ :=
        step_delimiter (show Mode.startRecord ≠ .inQuotedField by decide)
      change d.read _ ([d.delimiter].intercalate (([] :: next :: more).map d.writeField) ++ nl) = _
      rw [List.map_cons, List.map_cons, List.intercalate_cons_cons, hempty, List.nil_append, List.append_assoc,
        read_append, hdelim, ← List.map_cons, read_fields hnl rows [[]] next more (.inr rfl) nofun]
      rfl

/-- A table is read behind one that has been read. -/
theorem read_writeRows (hnl : d.Newline nl) (h : ∀ fields ∈ rows, fields ≠ []) (before : List (List (List α))) :
    d.read ⟨before, [], [], .startRecord⟩ (d.writeRows nl rows) = ⟨before ++ rows, [], [], .startRecord⟩ := by
  induction rows generalizing before with
  | nil => rw [List.append_nil]; rfl
  | cons fields rows ih =>
      obtain ⟨hfields, hrows⟩ := List.forall_mem_cons.1 h
      have hcons : d.writeRows nl (fields :: rows) = d.writeRow nl fields ++ d.writeRows nl rows := rfl
      rw [hcons, read_append, read_writeRow hnl before hfields, ih hrows, List.append_assoc]
      rfl

/-- **Every table without empty rows is read back.** -/
theorem readRows_writeRows (hnl : d.Newline nl) (h : ∀ fields ∈ rows, fields ≠ []) :
    d.readRows (d.writeRows nl rows) = rows := by
  rw [readRows, read_writeRows hnl h]
  rfl

/-- A copy in text mode: each newline is read as one, and written as `nl`.  The argument says
that the symbol before was `cr`. -/
def textModeFrom (d : Dialect α) (nl : List α) : Bool → List α → List α
  | _, [] => []
  | afterCr, b :: s =>
      if b = d.cr then nl ++ textModeFrom d nl true s
      else if b = d.lf then (if afterCr then [] else nl) ++ textModeFrom d nl false s
      else b :: textModeFrom d nl false s

def textMode (d : Dialect α) (nl s : List α) : List α := d.textModeFrom nl false s

/-- A line is copied with its newline changed. -/
theorem textMode_line (hs : d.Unbroken s) (nl s' : List α) :
    d.textMode nl (s ++ [d.cr, d.lf] ++ s') = s ++ nl ++ d.textMode nl s' := by
  have hcrlf : d.cr ≠ d.lf := by
    have h := d.distinct
    simp only [List.nodup_cons, List.mem_singleton] at h
    exact h.2.2.1
  obtain ⟨hcr, hlf⟩ := hs
  induction s with
  | nil =>
      change (if d.cr = d.cr then nl ++ (if d.lf = d.cr then _ else if d.lf = d.lf then [] ++ _ else _) else _) = _
      rw [if_pos rfl, if_neg hcrlf.symm, if_pos rfl]
      rfl
  | cons b s ih =>
      rw [List.mem_cons, not_or] at hcr hlf
      have hstep : d.textMode nl (b :: s ++ [d.cr, d.lf] ++ s') = b :: d.textMode nl (s ++ [d.cr, d.lf] ++ s') := by
        change (if b = d.cr then _ else if b = d.lf then _ else _) = _
        rw [if_neg (Ne.symm hcr.1), if_neg (Ne.symm hlf.1)]
        rfl
      rw [hstep, ih hcr.2 hlf.2]
      rfl

/-- A field is written in one line if it has one. -/
theorem Unbroken.writeField (h : d.Unbroken s) : d.Unbroken (d.writeField s) := by
  have hdouble : d.Unbroken (d.double s) := by
    have hmem : ∀ b ∈ d.double s, b ∈ s := by
      intro b hb
      obtain ⟨a, ha, hab⟩ := List.mem_flatMap.1 hb
      split at hab
      · obtain rfl : b = a := by simpa using hab
        exact ha
      · obtain rfl := List.mem_singleton.1 hab
        exact ha
    exact ⟨fun hcr => h.1 (hmem _ hcr), fun hlf => h.2 (hmem _ hlf)⟩
  unfold Dialect.writeField
  split
  · exact (d.unbroken_quotechar.append hdouble).append d.unbroken_quotechar
  · exact h

/-- A row of such fields is written in one line. -/
theorem unbroken_writeFields (h : ∀ field ∈ fields, d.Unbroken field) : d.Unbroken (d.writeFields fields) := by
  have hdelimiter : d.Unbroken [d.delimiter] := by
    obtain ⟨-, hcr, hlf, -⟩ := d.ne
    exact ⟨fun hmem => hcr (List.mem_singleton.1 hmem).symm, fun hmem => hlf (List.mem_singleton.1 hmem).symm⟩
  have hjoin : d.Unbroken ([d.delimiter].intercalate (fields.map d.writeField)) := by
    induction fields with
    | nil => exact ⟨nofun, nofun⟩
    | cons field fields ih =>
        obtain ⟨hfield, hfields⟩ := List.forall_mem_cons.1 h
        cases fields with
        | nil =>
            rw [List.map_singleton, List.intercalate_singleton]
            exact hfield.writeField
        | cons next more =>
            rw [List.map_cons, List.map_cons, List.intercalate_cons_cons]
            exact (hfield.writeField.append hdelimiter).append (ih hfields)
  unfold writeFields
  split
  · exact ⟨nofun, nofun⟩
  · exact d.unbroken_quotechar.append d.unbroken_quotechar
  · exact hjoin

/-- **A copy in text mode is the same table**, if no field has more than one line. -/
theorem textMode_writeRows (h : ∀ fields ∈ rows, ∀ field ∈ fields, d.Unbroken field) :
    d.textMode nl (d.writeRows [d.cr, d.lf] rows) = d.writeRows nl rows := by
  induction rows with
  | nil => rfl
  | cons fields rows ih =>
      obtain ⟨hfields, hrows⟩ := List.forall_mem_cons.1 h
      have hcons : ∀ nl, d.writeRows nl (fields :: rows) = d.writeFields fields ++ nl ++ d.writeRows nl rows :=
        fun _ => rfl
      rw [hcons, hcons, textMode_line (unbroken_writeFields hfields), ih hrows]

end Dialect
end GasSensor
