/-
# What the console shows of a measurement

`CTIMER2_IRQHandler` prints the resistances of a round from the interrupt, eight lines at
once.  `main` prints its messages character by character, and the interrupt comes in
between any two of them; then the first line of the round is printed behind a part of a
message, and its remaining text begins a line of its own.

A `Piece` is a character of a message or the lines of a round.  `rows_text` says which rows
the reader makes of a console: all rows of every round, except that a round printed in
the middle of a message loses the row of its first strip.  `console_run` says which
rounds the console of a measurement shows: each complete one once, in order, with the
resistances from its own visits.
-/

import GasSensor.Host.Csv
import GasSensor.Lib.Lines
import GasSensor.Sampler.RoundRobin

namespace GasSensor
namespace Host

open CString Numeral Sampler History

/-- What is printed. -/
inductive Piece
  /-- A character of a message of `main`. -/
  | text (b : UInt8)
  /-- The lines of a round. -/
  | round (entries : Strip → ℤ × ℤ)

namespace Piece

/-- The lines `CTIMER2_IRQHandler` prints. -/
def lines (entries : Strip → ℤ × ℤ) : List (List UInt8) :=
  (List.finRange 8).map fun i => resistanceLine i (entries i)

/-- The bytes printed. -/
def bytes : Piece → List UInt8
  | text b => [b]
  | round entries => (lines entries).flatten

/-- The messages. -/
def messages (ps : List Piece) : List UInt8 :=
  ps.filterMap fun
    | text b => some b
    | round _ => none

/-- The rounds. -/
def rounds (ps : List Piece) : List (Strip → ℤ × ℤ) :=
  ps.filterMap fun
    | text _ => none
    | round entries => some entries

end Piece

/-- What the console shows. -/
def consoleText (ps : List Piece) : List UInt8 := ps.flatMap Piece.bytes

/-- The entries of a round are `int`s. -/
def Ints (entries : Strip → ℤ × ℤ) : Prop := ∀ i, (entries i).1 < 2 ^ 31 ∧ (entries i).2 < 2 ^ 31

/-- The row of a printed entry, unless one of its two `int`s is negative. -/
def entryRow (i : Strip) (entry : ℤ × ℤ) : Option CsvRow :=
  if entry.1 < 0 ∨ entry.2 < 0 then none else some ⟨i.val + 1, entry.2.toNat, entry.1.toNat⟩

/-- The rows of a round, without the first line if that has been cut. -/
def roundRows (cut : Bool) (entries : Strip → ℤ × ℤ) : List CsvRow :=
  ((List.finRange 8).drop cut.toNat).filterMap fun i => entryRow i (entries i)

/-- The rows of a console; `part` is what has been printed of a message.  A round is cut if that
is not just white space. -/
def pieceRows : List UInt8 → List Piece → List CsvRow
  | _, [] => []
  | part, .text b :: ps => pieceRows (if b = 10 then [] else part ++ [b]) ps
  | part, .round entries :: ps => roundRows (!part.all pythonSpace) entries ++ pieceRows [] ps

/-- What `write_to_csv` looks for. -/
def rowText : List UInt8 := ascii "Resistance of strip "

/-- A line of the console is one. -/
theorem isLine_resistanceLine (i : Strip) (entry : ℤ × ℤ) : Lines.IsLine 10 (resistanceLine i entry) := by
  have hint : ∀ x, (10 : UInt8) ∉ formatInt x := fun x hmem =>
    absurd (Decimal.isNumeral_formatInt x 10 hmem) (by decide)
  refine ⟨ascii "Resistance of strip " ++ (formatInt (i.val + 1) ++ (ascii ": " ++ (formatInt entry.1
    ++ (ascii ", Time: " ++ formatInt entry.2)))), ?_, ?_⟩
  · simp only [List.mem_append, not_or]
    exact ⟨by decide, hint _, by decide, hint _, by decide, hint _⟩
  · simp only [resistanceLine, List.append_assoc]
    rfl

/-- Nothing in a text looks like a row. -/
def NoRow (s : List UInt8) : Prop := ¬ rowText <:+: s

instance noRowDecidable (s : List UInt8) : Decidable (NoRow s) := inferInstanceAs (Decidable (¬ _))

theorem NoRow.part {s s' : List UInt8} (h : NoRow s) (hs : s' <:+: s) : NoRow s' := fun hin => h (hin.trans hs)

/-- What can be said of a console in which the messages do not look like rows. -/
structure Legible (part : List UInt8) (ps : List Piece) : Prop where
  messages : NoRow (part ++ Piece.messages ps)
  ints : ∀ entries ∈ Piece.rounds ps, Ints entries

theorem Legible.text {part : List UInt8} {b : UInt8} {ps : List Piece} (h : Legible part (.text b :: ps)) :
    Legible (part ++ [b]) ps where
  messages := by
    have hmessages := h.messages
    rwa [show part ++ Piece.messages (.text b :: ps) = part ++ [b] ++ Piece.messages ps by
      rw [List.append_assoc]; rfl] at hmessages
  ints := h.ints

theorem Legible.drop {part : List UInt8} {ps : List Piece} (h : Legible part ps) : NoRow part ∧ Legible [] ps :=
  ⟨h.messages.part (List.prefix_append _ _).isInfix, h.messages.part (List.suffix_append _ _).isInfix, h.ints⟩

theorem Legible.round {part : List UInt8} {entries : Strip → ℤ × ℤ} {ps : List Piece}
    (h : Legible part (.round entries :: ps)) : NoRow part ∧ Ints entries ∧ Legible [] ps :=
  ⟨h.drop.1, h.ints entries List.mem_cons_self, h.drop.2.messages,
    fun entries hmem => h.ints entries (List.mem_cons_of_mem _ hmem)⟩

/-- The last seven lines of a round. -/
def laterLines (entries : Strip → ℤ × ℤ) : List (List UInt8) :=
  ((List.finRange 8).drop 1).map fun i => resistanceLine i (entries i)

/-- The lines of a round, the first of them behind a part of a message. -/
theorem linesFrom_round (part : List UInt8) (entries : Strip → ℤ × ℤ) (s : List UInt8) :
    Lines.linesFrom 10 part ((Piece.lines entries).flatten ++ s)
      = (part ++ resistanceLine 0 (entries 0)) :: (laterLines entries ++ Lines.linesFrom 10 [] s) := by
  have hlines : Piece.lines entries = resistanceLine 0 (entries 0) :: laterLines entries := rfl
  have hlater : ∀ l ∈ laterLines entries, Lines.IsLine 10 l := by
    intro l hl
    obtain ⟨i, -, rfl⟩ := List.mem_map.1 hl
    exact isLine_resistanceLine i (entries i)
  rw [hlines, List.flatten_cons, List.append_assoc, Lines.linesFrom_line (isLine_resistanceLine _ _),
    Lines.linesFrom_flatten hlater]

section

variable [Arithmetic]

/-- The rows a reader makes of some lines. -/
def lineRows (lines : List (List UInt8)) : List CsvRow := lines.filterMap fun line => writeToCsv (strip line)

/-- What the reader makes of a line. -/
theorem writeToCsv_entry {entries : Strip → ℤ × ℤ} (h : Ints entries) (i : Strip) :
    writeToCsv (strip (resistanceLine i (entries i))) = entryRow i (entries i) := by
  rw [writeToCsv_line, entryRow]
  split
  · rfl
  next hneg =>
    obtain ⟨hr, ht⟩ := h i
    exact csvRow_formatInt i ⟨by omega, hr⟩ ⟨by omega, ht⟩

/-- A row is only made of a text that begins with what the reader looks for. -/
theorem prefix_of_writeToCsv {data : List UInt8} (h : writeToCsv data ≠ none) : rowText <+: data := by
  by_contra hnot
  have hliteral : literal (ascii "Resistance of strip ") data = none := if_neg hnot
  rw [writeToCsv, hliteral] at h
  exact h rfl

/-- White space at the ends does not matter. -/
theorem prefix_of_strip {s : List UInt8} (h : writeToCsv (strip s) ≠ none) : rowText <+: s.dropWhile pythonSpace :=
  (prefix_of_writeToCsv h).trans (List.rdropWhile_prefix _ _)

/-- A message makes no row. -/
theorem NoRow.writeToCsv_eq {s : List UInt8} (h : NoRow s) : writeToCsv (strip s) = none := by
  by_contra hne
  exact h ((prefix_of_strip hne).isInfix.trans (List.dropWhile_suffix _).isInfix)

/-- **A cut line makes no row**: one printed behind a part of a message that is not just white
space. -/
theorem writeToCsv_cut {part : List UInt8} (h : NoRow part) (hcut : part.all pythonSpace = false) (i : Strip)
    (entry : ℤ × ℤ) : writeToCsv (strip (part ++ resistanceLine i entry)) = none := by
  by_contra hne
  have hbegin := prefix_of_strip hne
  have hkept : part.dropWhile pythonSpace ≠ [] := by
    intro hnil
    rw [List.all_eq_true.2 (List.dropWhile_eq_nil_iff.1 hnil)] at hcut
    cases hcut
  have hrest : NoRow (part.dropWhile pythonSpace) := h.part (List.dropWhile_suffix _).isInfix
  rw [List.dropWhile_append, if_neg (by simpa using hkept)] at hbegin
  obtain ⟨tail, htail⟩ := hbegin
  rcases List.append_eq_append_iff.1 htail with ⟨more, hmore, -⟩ | ⟨more, hmore, hline⟩
  · exact hrest ⟨[], more, by rw [hmore]; rfl⟩
  · cases more with
    | nil =>
        rw [List.append_nil] at hmore
        exact hrest (by rw [hmore])
    | cons b more =>
        -- the line begins with the only capital of the text
        obtain rfl : b = 82 := (List.cons.inj hline).1.symm
        obtain ⟨a, front, hfront⟩ := List.exists_cons_of_ne_nil hkept
        rw [hfront] at hmore
        have htail : rowText.tail = front ++ 82 :: more := by rw [hmore]; rfl
        have hmem : (82 : UInt8) ∈ rowText.tail := by rw [htail]; simp
        exact absurd hmem (by decide)

/-- Behind white space a line is whole. -/
theorem writeToCsv_uncut {part : List UInt8} (huncut : part.all pythonSpace = true) {entries : Strip → ℤ × ℤ}
    (h : Ints entries) (i : Strip) :
    writeToCsv (strip (part ++ resistanceLine i (entries i))) = entryRow i (entries i) := by
  have hstrip : strip (part ++ resistanceLine i (entries i)) = strip (resistanceLine i (entries i)) := by
    rw [strip, strip, List.dropWhile_append_of_pos (List.all_eq_true.1 huncut)]
  rw [hstrip, writeToCsv_entry h]

end

/-- A line of the console: one of a message, or one of a round behind a part of a message. -/
def ConsoleLine (ps : List Piece) (l : List UInt8) : Prop :=
  NoRow l ∨ ∃ part, ∃ entries ∈ Piece.rounds ps, ∃ i, l = part ++ resistanceLine i (entries i) ∧ NoRow part

theorem ConsoleLine.cons {ps : List Piece} {l : List UInt8} (h : ConsoleLine ps l) (piece : Piece) :
    ConsoleLine (piece :: ps) l := by
  rcases h with h | ⟨part, entries, hentries, h⟩
  · exact .inl h
  · refine .inr ⟨part, entries, ?_, h⟩
    obtain ⟨round, hround, hsome⟩ := List.mem_filterMap.1 hentries
    exact List.mem_filterMap.2 ⟨round, List.mem_cons_of_mem _ hround, hsome⟩

/-- The lines of a console. -/
theorem consoleLine_of_mem {part l : List UInt8} {ps : List Piece} (h : Legible part ps)
    (hl : l ∈ Lines.linesFrom 10 part (consoleText ps)) : ConsoleLine ps l := by
  induction ps generalizing part with
  | nil => cases hl
  | cons piece ps ih =>
      cases piece with
      | text b =>
          obtain ⟨hpart, hrest⟩ := h.text.drop
          change l ∈ Lines.linesFrom 10 part (b :: consoleText ps) at hl
          rw [Lines.linesFrom] at hl
          by_cases hb : b = 10
          · rw [if_pos hb] at hl
            rcases List.mem_cons.1 hl with rfl | hl
            · exact .inl hpart
            · exact (ih hrest hl).cons _
          · rw [if_neg hb] at hl
            exact (ih h.text hl).cons _
      | round entries =>
          obtain ⟨hpart, -, hrest⟩ := h.round
          change l ∈ Lines.linesFrom 10 part ((Piece.lines entries).flatten ++ consoleText ps) at hl
          rw [linesFrom_round, List.mem_cons, List.mem_append] at hl
          have hmem : entries ∈ Piece.rounds (.round entries :: ps) :=
            List.mem_filterMap.2 ⟨_, List.mem_cons_self, rfl⟩
          rcases hl with rfl | hl | hl
          · exact .inr ⟨part, entries, hmem, 0, rfl, hpart⟩
          · obtain ⟨i, -, rfl⟩ := List.mem_map.1 hl
            exact .inr ⟨[], entries, hmem, i, rfl, by decide⟩
          · exact (ih hrest hl).cons _

section

variable [Arithmetic]

/-- The end of a line of a round makes no row. -/
theorem writeToCsv_end {s : List UInt8} {i : Strip} {entry : ℤ × ℤ} (hs : s <:+ resistanceLine i entry)
    (hne : s ≠ resistanceLine i entry) : writeToCsv (strip s) = none := by
  by_contra hrow
  have hbegin := prefix_of_strip hrow
  have hcapital : (82 : UInt8) ∈ s := (List.dropWhile_suffix _).subset (hbegin.subset (by decide))
  obtain ⟨front, hfront⟩ := hs
  -- the only capital `R` of a line is its first letter
  have hint : ∀ x, (82 : UInt8) ∉ formatInt x := fun x hmem =>
    absurd (Decimal.isNumeral_formatInt x 82 hmem) (by decide)
  have htail : (82 : UInt8) ∉ (resistanceLine i entry).tail := by
    rw [resistanceLine, List.tail_append_of_ne_nil (by decide)]
    simp only [List.mem_append, not_or]
    exact ⟨by decide, hint _, by decide, hint _, by decide, hint _, by decide⟩
  cases front with
  | nil => exact hne hfront
  | cons a front =>
      rw [← hfront] at htail
      exact htail (List.mem_append_right front hcapital)

/-- **A line of which the beginning is missed** makes the row of its entry or none. -/
theorem ConsoleLine.row_of_suffix {ps : List Piece} {l s : List UInt8} (h : ConsoleLine ps l)
    (hints : ∀ entries ∈ Piece.rounds ps, Ints entries) (hs : s <:+ l) {row : CsvRow}
    (hrow : writeToCsv (strip s) = some row) :
    ∃ entries ∈ Piece.rounds ps, ∃ i, entryRow i (entries i) = some row := by
  rcases h with h | ⟨part, entries, hentries, i, rfl, h⟩
  · rw [(h.part hs.isInfix).writeToCsv_eq] at hrow
    cases hrow
  · refine ⟨entries, hentries, i, ?_⟩
    obtain ⟨front, hfront⟩ := hs
    rcases List.append_eq_append_iff.1 hfront with ⟨rest, rfl, rfl⟩ | ⟨front, -, hline⟩
    · cases hall : rest.all pythonSpace with
      | false =>
          rw [writeToCsv_cut (h.part (List.suffix_append _ _).isInfix) hall] at hrow
          cases hrow
      | true => rwa [writeToCsv_uncut hall (hints entries hentries)] at hrow
    · by_cases hs : s = resistanceLine i (entries i)
      · rwa [hs, writeToCsv_entry (hints entries hentries)] at hrow
      · rw [writeToCsv_end ⟨front, hline.symm⟩ hs] at hrow
        cases hrow

/-- **A reader that comes in late makes no wrong row**: whatever it makes of the end of a console
is a row of one of its rounds. -/
theorem rows_of_suffix {ps : List Piece} (h : Legible [] ps) {s : List UInt8} (hs : s <:+ consoleText ps)
    {row : CsvRow} (hrow : row ∈ lineRows (Lines.lines 10 s)) :
    ∃ entries ∈ Piece.rounds ps, ∃ i, entryRow i (entries i) = some row := by
  obtain ⟨line, hline, hrow⟩ := List.mem_filterMap.1 hrow
  obtain ⟨l, hl, hend⟩ := Lines.suffix_of_mem_lines hs hline
  exact (consoleLine_of_mem h hl).row_of_suffix h.ints hend hrow

end

/-- What happens at the device: an interrupt, or `main` prints a character. -/
inductive ConsoleEvent
  | interrupt (e : Event)
  | putchar (b : UInt8)

namespace ConsoleEvent

/-- The interrupts. -/
def interrupts (cs : List ConsoleEvent) : List Event :=
  cs.filterMap fun
    | interrupt e => some e
    | putchar _ => none

/-- The characters `main` prints. -/
def chars (cs : List ConsoleEvent) : List UInt8 :=
  cs.filterMap fun
    | interrupt _ => none
    | putchar b => some b

end ConsoleEvent

/-- What an interrupt from `s` to `s'` prints. -/
def printed (modbusFlag : Bool) (p : Params) (s : Sampler) (e : Event) (s' : Sampler) : List Piece :=
  if e = .tick ∧ p.gStripCount = 0 ∧ modbusFlag = false then (ascii "No active strips\n").map .text
  else if Completes modbusFlag p s e ∧ s'.currentActiveStripIndex = 0 then [.round s'.resistanceArray]
  else []

variable [Arithmetic]

/-- A step of a measurement with its console. -/
def consoleStep (t : Target) (modbusFlag : Bool) (p : Params) (c : Recorded × List Piece) :
    ConsoleEvent → Except Fault (Recorded × List Piece)
  | .interrupt e => recordStep t modbusFlag p c.1 e >>= fun r =>
      .ok (r, c.2 ++ printed modbusFlag p c.1.sampler e r.sampler)
  | .putchar b => .ok (c.1, c.2 ++ [.text b])

/-- The entry of a strip in round `k`: from the visit to it in that round, and the average of
the round's current averages; `(0, 0)` for a strip that is not visited. -/
def roundResult (t : Target) (p : Params) (vs : List Visit) (k : ℕ) (i : Strip) : ℤ × ℤ :=
  match ((vs.drop (k * p.strips.length)).take p.strips.length).find? fun v => v.strip = i with
  | some v => (resistance t v.voltage (roundCurrent p (k * p.strips.length) vs / p.strips.length), intOfU32 v.time)
  | none => (0, 0)

/-- **The console of a measurement**: the complete rounds, each from its own visits, and the
messages of `main`. -/
structure Shown (t : Target) (p : Params) (cs : List ConsoleEvent) (c : Recorded × List Piece) : Prop where
  rounds : Rounds t p (ConsoleEvent.interrupts cs) c.1
  shown : Piece.rounds c.2 = (List.range (c.1.visits.length / p.strips.length)).map (roundResult t p c.1.visits)
  messages : Piece.messages c.2 = ConsoleEvent.chars cs

variable {t : Target} {modbusFlag : Bool} {p : Params} {cs : List ConsoleEvent} {vs : List Visit} {es : List Event}
  {r : Recorded} {k : ℕ}

/-- A complete round does not change when more visits come. -/
theorem roundResult_concat (hk : k * p.strips.length + p.strips.length ≤ vs.length) (v : Visit) :
    roundResult t p (vs ++ [v]) k = roundResult t p vs k := by
  funext i
  rw [roundResult, roundResult, roundCurrent, roundSum_concat_of_le hk, List.drop_append_of_le_length (by omega),
    List.take_append_of_le_length (by rw [List.length_drop]; omega)]

omit [Arithmetic] in
/-- The visits of a round. -/
theorem mem_round {n start : ℕ} {v : Visit} :
    v ∈ (vs.drop start).take n ↔ ∃ j, j < n ∧ vs[start + j]? = some v := by
  simp only [List.mem_iff_getElem?, List.getElem?_take, List.getElem?_drop, Option.ite_none_right_eq_some]

/-- **At the end of a round the array holds its entries.** -/
theorem resistanceArray_eq (h : Rounds t p es r) (hlen : r.visits.length = k * p.strips.length + p.strips.length) :
    r.sampler.resistanceArray = roundResult t p r.visits k := by
  have hpos : 0 < p.strips.length := by have := h.aligned.position; omega
  have hstart : roundStart p.strips.length r.visits.length = r.visits.length := by
    rw [roundStart, hlen, ← Nat.succ_mul, Nat.mul_mod_left, Nat.sub_zero]
  have hmod : ∀ j, p.stripAt (k * p.strips.length + j) = p.stripAt j := by
    intro j
    rw [← Params.stripAt_mod, Nat.mul_add_mod_self_right, Params.stripAt_mod]
  funext i
  rw [roundResult]
  cases hfind : ((r.visits.drop (k * p.strips.length)).take p.strips.length).find? fun v => v.strip = i with
  | some v =>
      have hstrip : v.strip = i := by simpa using List.find?_some hfind
      obtain ⟨j, hj, hv⟩ := mem_round.1 (List.mem_of_find?_eq_some hfind)
      have hplace : p.stripAt (k * p.strips.length + j) = i := (h.strip _ v hv).symm.trans hstrip
      have hres := h.resistances _ v hv (by rw [hstart, hlen]; omega) (by rw [hstart, hlen]; omega)
      rw [hplace, hstart, show r.visits.length - p.strips.length = k * p.strips.length by omega] at hres
      exact hres
  | none =>
      refine h.inactive i ?_
      by_contra hactive
      obtain ⟨j, hj, hplace⟩ := Params.exists_stripAt (Bool.eq_true_of_not_eq_false hactive)
      obtain ⟨v, hv⟩ : ∃ v, r.visits[k * p.strips.length + j]? = some v :=
        ⟨_, List.getElem?_eq_getElem (by omega)⟩
      refine List.find?_eq_none.1 hfind v (mem_round.2 ⟨j, hj, hv⟩) ?_
      rw [decide_eq_true_eq, h.strip _ v hv, hmod, hplace]

/-- The results of a round are `int`s. -/
theorem Rounds.ints (h : Rounds t p es r) (k : ℕ) : Ints (roundResult t p r.visits k) := by
  intro i
  rw [roundResult]
  split
  next v hv =>
    have htime := h.time_lt v (List.mem_of_mem_drop (List.mem_of_mem_take (List.mem_of_find?_eq_some hv)))
    refine ⟨resistance_lt t _ _, ?_⟩
    unfold intOfU32
    split <;> omega
  next => exact ⟨by norm_num, by norm_num⟩

/-- What an interrupt of a measurement records. -/
theorem visits_of_recordStep {r' : Recorded} {e : Event} (h : recordStep t modbusFlag p r e = .ok r') :
    r'.visits = if Completes modbusFlag p r.sampler e then r.visits ++ [visitOf r.sampler r'.sampler] else r.visits := by
  obtain ⟨s', -, hr'⟩ := Run.bind_eq_ok.1 h
  obtain rfl := Except.ok.inj hr'
  rfl

/-- The rounds shown when visits have come, and a round if one has been completed. -/
theorem rounds_concat (t : Target) (hpos : 0 < p.strips.length) (vs : List Visit) (v : Visit) :
    (List.range ((vs ++ [v]).length / p.strips.length)).map (roundResult t p (vs ++ [v]))
      = (List.range (vs.length / p.strips.length)).map (roundResult t p vs)
        ++ if (vs.length + 1) % p.strips.length = 0 then [roundResult t p (vs ++ [v]) (vs.length / p.strips.length)]
          else [] := by
  have hold : ∀ k ∈ List.range (vs.length / p.strips.length), roundResult t p (vs ++ [v]) k = roundResult t p vs k := by
    intro k hk
    refine roundResult_concat ?_ v
    rw [← Nat.succ_mul]
    exact (Nat.le_div_iff_mul_le hpos).1 (List.mem_range.1 hk)
  rw [List.length_append, List.length_singleton]
  by_cases h0 : (vs.length + 1) % p.strips.length = 0
  · rw [if_pos h0, Nat.succ_div_of_dvd (Nat.dvd_of_mod_eq_zero h0), List.range_succ, List.map_append,
      List.map_congr_left hold]
    rfl
  · rw [if_neg h0, Nat.succ_div_of_not_dvd fun hdvd => h0 (Nat.mod_eq_zero_of_dvd hdvd),
      List.map_congr_left hold, List.append_nil]

/-- What an interrupt of a measurement prints. -/
theorem rounds_printed (hp : p.Counted) (h : Rounds t p es r) {r' : Recorded} {e : Event}
    (hr' : recordStep t modbusFlag p r e = .ok r') (h' : Rounds t p (es ++ [e]) r') :
    (List.range (r'.visits.length / p.strips.length)).map (roundResult t p r'.visits)
        = (List.range (r.visits.length / p.strips.length)).map (roundResult t p r.visits)
          ++ Piece.rounds (printed modbusFlag p r.sampler e r'.sampler) ∧
      Piece.messages (printed modbusFlag p r.sampler e r'.sampler) = [] := by
  have hpos : 0 < p.strips.length := by have := h.aligned.position; omega
  have hvisits := visits_of_recordStep hr'
  have hposition := h'.position
  rw [printed, if_neg (by rw [hp.eq_length]; omega)]
  by_cases hc : Completes modbusFlag p r.sampler e
  · rw [if_pos hc] at hvisits
    have hlength : r'.visits.length = r.visits.length + 1 := by rw [hvisits, List.length_append]; rfl
    rw [hposition, hlength]
    have hrounds := rounds_concat t hpos r.visits (visitOf r.sampler r'.sampler)
    rw [← hvisits, hlength] at hrounds
    rw [hrounds]
    by_cases h0 : (r.visits.length + 1) % p.strips.length = 0
    · have hdvd := Nat.dvd_of_mod_eq_zero h0
      have hround : r'.visits.length = r.visits.length / p.strips.length * p.strips.length + p.strips.length := by
        rw [← Nat.succ_mul, Nat.succ_eq_add_one, ← Nat.succ_div_of_dvd hdvd, Nat.div_mul_cancel hdvd, hlength]
      rw [if_pos h0, if_pos (show _ ∧ _ from ⟨hc, h0⟩), ← resistanceArray_eq h' hround]
      exact ⟨rfl, rfl⟩
    · rw [if_neg h0, if_neg (show ¬ (_ ∧ _) from fun hround => h0 hround.2)]
      exact ⟨rfl, rfl⟩
  · rw [if_neg hc] at hvisits
    rw [if_neg fun hround => hc hround.1, hvisits]
    exact ⟨(List.append_nil _).symm, rfl⟩

/-- **Every step of a measurement keeps its console**, and none of them is a fault. -/
theorem Shown.step (hp : p.Counted) {c : Recorded × List Piece} (h : Shown t p cs c) (e : ConsoleEvent) :
    ∃ c', consoleStep t modbusFlag p c e = .ok c' ∧ Shown t p (cs ++ [e]) c' := by
  obtain ⟨r, ps⟩ := c
  match e with
  | .putchar b =>
      refine ⟨_, rfl, ?_, ?_, ?_⟩
      · rw [ConsoleEvent.interrupts, List.filterMap_append]
        exact (List.append_nil _).symm ▸ h.rounds
      · rw [Piece.rounds, List.filterMap_append]
        exact (List.append_nil _).trans h.shown
      · rw [Piece.messages, ConsoleEvent.chars, List.filterMap_append, List.filterMap_append]
        exact congrArg (· ++ [b]) h.messages
  | .interrupt e =>
      obtain ⟨r', hr', h'⟩ : ∃ r', recordStep t modbusFlag p r e = .ok r' ∧
          Rounds t p (ConsoleEvent.interrupts cs ++ [e]) r' := h.rounds.step hp e
      obtain ⟨hrounds, hmessages⟩ := rounds_printed hp h.rounds hr' h'
      refine ⟨(r', ps ++ printed modbusFlag p r.sampler e r'.sampler), ?_, ?_, ?_, ?_⟩
      · rw [consoleStep, hr']
        rfl
      · rw [ConsoleEvent.interrupts, List.filterMap_append]
        exact h'
      · rw [Piece.rounds, List.filterMap_append, hrounds]
        exact congrArg (· ++ _) h.shown
      · rw [Piece.messages, ConsoleEvent.chars, List.filterMap_append, List.filterMap_append]
        exact (congrArg (_ ++ ·) hmessages).trans (congrArg (· ++ []) h.messages)

/-- What a reader needs of it, if the messages of `main` do not look like rows. -/
theorem Shown.legible {c : Recorded × List Piece} (h : Shown t p cs c) (hmessages : NoRow (ConsoleEvent.chars cs)) :
    Legible [] c.2 where
  messages := by rwa [h.messages]
  ints entries hmem := by
    rw [h.shown] at hmem
    obtain ⟨k, -, rfl⟩ := List.mem_map.1 hmem
    exact Rounds.ints h.rounds k

/-- **The console of a measurement.**  From every configuration with at least one strip, after
every sequence of interrupts and characters of `main`, no step has been a fault, and the console
shows each complete round once, in order, from its own visits. -/
theorem console_run {malloc : Malloc ℕ} (hp : p.Counted) (hpos : 0 < p.strips.length)
    (hm : (malloc p.gStripCount).isSome) (hf : p.muxFreq ≠ 0) (modbusFlag : Bool) (cs : List ConsoleEvent) :
    ∃ s₀ c, configure malloc p boot = .ok s₀ ∧
      cs.foldlM (consoleStep t modbusFlag p) (⟨s₀, []⟩, []) = .ok c ∧ Shown t p cs c := by
  obtain ⟨s₀, hs₀, h₀⟩ := rounds_of_configure (t := t) hp hpos hm hf
  have hshown : Shown t p [] (⟨s₀, []⟩, []) := by
    refine ⟨h₀, ?_, rfl⟩
    rw [List.length_nil, Nat.zero_div]
    rfl
  obtain ⟨c, hc, h⟩ := Run.foldlM_total hshown (fun _ e _ h => h.step (t := t) hp e) cs
  exact ⟨s₀, c, hs₀, hc, h⟩

end Host
end GasSensor
