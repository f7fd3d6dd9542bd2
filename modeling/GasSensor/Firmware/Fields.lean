/-
# Whether fields are parsed by position

A line of the command loop consists of fields between commas, and a field may be empty.
`updateParameters` of `source/main.c` takes it apart with `strtok`, for which several
commas in a row are one: what it assigns one after the other are the fields that are not
empty.  An empty field therefore gives its parameter the text of the field behind it, and
so for all that follow, and the line is accepted as long as seven texts are found.

`WellFormed` are the lines with seven fields as the user interface writes them, and
`byPosition_iff` says that no other accepted line is taken by position.
-/

import GasSensor.Firmware.FlagBytes
import GasSensor.Firmware.Gui

namespace GasSensor
namespace Firmware

open CString Gui

/-- The fields of a line: what stands between its commas, empty or not.  The last one ends
with the terminator of the line. -/
def lineFields (line : List UInt8) : List (List UInt8) := (line.takeWhile (· ≠ 0)).splitOn 44

/-- The field of the strip flags, the seventh one. -/
def stripField (line : List UInt8) : List UInt8 := (lineFields line).getD 6 []

/-- **A line with all its fields**: the first seven are not empty, and the seventh has a
character for each strip before the line ends. -/
structure WellFormed (line : List UInt8) : Prop where
  seven : 7 ≤ (lineFields line).length
  nonempty : ∀ f ∈ (lineFields line).take 7, f ≠ []
  strips : 8 ≤ ((stripField line).takeWhile fun b => ¬ Terminator b).length

section

variable [Arithmetic]

/-- **The fields are parsed by position.**  The line has all its fields, and in the parameters
`p'` left from `p` each is assigned from the field in its place. -/
structure ByPosition (t : Target) (line : List UInt8) (p p' : Params) : Prop extends WellFormed line where
  numbers : p' = { assignFields t numberFields (lineFields line) p with
    activeStrips := p'.activeStrips
    gStripCount := p'.gStripCount }
  flags : ∀ i : Strip, p'.activeStrips i = decide ((stripField line)[i.val]? = some 49)

variable {t : Target} {line : List UInt8} {p : Params}

omit [Arithmetic] in
/-- The tokens of a line are its fields without the empty ones. -/
theorem tokens_line (line : List UInt8) :
    tokens 44 (line.takeWhile (· ≠ 0)) = (lineFields line).filter (· ≠ []) :=
  tokens_eq_filter 44 _

omit [Arithmetic] in
/-- Numbers are assigned from as many texts as there are numbers. -/
theorem assignFields_take (t : Target) (fields : List Setter) (toks : List (List UInt8)) (p : Params) :
    assignFields t fields (toks.take fields.length) p = assignFields t fields toks p := by
  induction fields generalizing toks p with
  | nil => rfl
  | cons set fields ih =>
      cases toks with
      | nil => rfl
      | cons tok toks => exact ih toks (set t tok p)

omit [Arithmetic] in
/-- The first seven tokens of a well-formed line are its first seven fields. -/
theorem WellFormed.take_tokens (h : WellFormed line) :
    (tokens 44 (line.takeWhile (· ≠ 0))).take 7 = (lineFields line).take 7 := by
  have hkeep : ((lineFields line).take 7).filter (· ≠ []) = (lineFields line).take 7 :=
    List.filter_eq_self.2 fun f hf => decide_eq_true (h.nonempty f hf)
  rw [tokens_line]
  conv_lhs => rw [← List.take_append_drop 7 (lineFields line)]
  rw [List.filter_append, hkeep, List.take_left' (List.length_take_of_le h.seven)]

omit [Arithmetic] in
/-- The strip field is the seventh token of a well-formed line. -/
theorem WellFormed.tokens_six (h : WellFormed line) :
    (tokens 44 (line.takeWhile (· ≠ 0)))[6]? = some (stripField line) := by
  rw [← List.getElem?_take_of_lt (show 6 < 7 by decide), h.take_tokens,
    List.getElem?_take_of_lt (by decide), stripField, List.getD_eq_getElem?_getD,
    List.getElem?_eq_getElem h.seven, Option.getD_some]

omit [Arithmetic] in
/-- A well-formed line has a flag for each strip. -/
theorem WellFormed.getElem?_stripField (h : WellFormed line) (i : Strip) :
    (stripField line)[i.val]? = some ((stripField line).getD i 0) := by
  have hle := (List.takeWhile_prefix (l := stripField line) fun b => ¬ Terminator b).length_le
  have hlt : i.val < (stripField line).length := by
    have := h.strips
    omega
  rw [List.getD_eq_getElem?_getD, List.getElem?_eq_getElem hlt, Option.getD_some]

/-- With seven tokens and eight more bytes in the buffer a line is accepted. -/
theorem exists_accepted (t : Target) (line : List UInt8)
    (h : 7 ≤ (tokens 44 (line.takeWhile (· ≠ 0))).length) (p : Params) :
    ∃ p' mem, updateParameters t (line ++ 0 :: List.replicate 8 0) p = .ok (p', mem, 0) := by
  obtain ⟨cut, hcut, hat, hline⟩ := updateParameters_line t line h
  have hle : flagsAt line + 8 ≤ (cut ++ List.replicate 8 (0 : UInt8)).length := by
    rw [List.length_append, List.length_replicate]
    omega
  rw [hline, parseActiveStrips_of_le hle, Run.ok_bind]
  exact ⟨_, _, rfl⟩

/-- **A well-formed line is parsed by position**, whatever was in force and whatever is behind
it in the buffer. -/
theorem WellFormed.byPosition (h : WellFormed line) {stale mem : List UInt8} {p' : Params}
    (hok : updateParameters t (line ++ 0 :: stale) p = .ok (p', mem, 0)) : ByPosition t line p p' := by
  obtain ⟨more, -, hmore⟩ := exists_line_eq line
  obtain ⟨mem', hparse⟩ := updateParameters_eq t (more ++ stale) (zero_notMem_text line) h.tokens_six
    h.getElem?_stripField p
  rw [hmore, hparse] at hok
  cases hok
  have hnumbers : assignFields t numberFields (tokens 44 (line.takeWhile (· ≠ 0))) p
      = assignFields t numberFields (lineFields line) p := by
    have hsix : ∀ toks : List (List UInt8), toks.take 6 = (toks.take 7).take 6 := fun toks => by
      rw [List.take_take]
      rfl
    rw [← assignFields_take, ← assignFields_take t numberFields (lineFields line)]
    change assignFields t numberFields (List.take 6 _) p = assignFields t numberFields (List.take 6 _) p
    rw [hsix, h.take_tokens, ← hsix]
  exact {
    toWellFormed := h
    numbers := by rw [hnumbers]
    flags := fun i => decide_eq_decide.2 (by rw [h.getElem?_stripField, Option.some.injEq]) }

/-- **Which lines are parsed by position.**  Whatever was in force and whatever is behind it in
the buffer, a line is refused or taken by position if and only if it has fewer than seven
fields that are not empty, or its first seven fields are all there and the last of them
spells eight strips. -/
theorem byPosition_iff (t : Target) (line : List UInt8) :
    (∀ stale p p' mem, updateParameters t (line ++ 0 :: stale) p = .ok (p', mem, 0) → ByPosition t line p p') ↔
      ((lineFields line).filter (· ≠ [])).length < 7 ∨ WellFormed line := by
  rw [← tokens_line]
  constructor
  · intro h
    by_contra hcon
    rw [not_or, not_lt] at hcon
    obtain ⟨p', mem, hok⟩ := exists_accepted t line hcon.1 .boot
    exact hcon.2 (h _ _ _ _ hok).toWellFormed
  · rintro (hlt | hwell) stale p p' mem hok
    · exact absurd (le_of_accepted hok) (not_le.2 hlt)
    · exact hwell.byPosition hok

end

section

attribute [local instance] Arithmetic.uncontracted

/-- `0,,50,1,7,1,8,11111111`: the duty cycle is missing, and there is a field too many. -/
def emptyFieldLine : List UInt8 :=
  [48, 44, 44, 53, 48, 44, 49, 44, 55, 44, 49, 44, 56, 44, 49, 49, 49, 49, 49, 49, 49, 49, 10]

/-- **An empty field shifts the others.**  This line is accepted, and its second field is
empty. -/
theorem emptyFieldLine_not_byPosition :
    ¬ ∀ line stale p p' mem, updateParameters .saturating (line ++ 0 :: stale) p = .ok (p', mem, 0) →
      ByPosition .saturating line p p' := by
  intro h
  obtain ⟨p', mem, hok⟩ := exists_accepted .saturating emptyFieldLine (by decide) .boot
  exact (h _ _ _ _ _ hok).nonempty [] (by decide) rfl

end

end Firmware
end GasSensor
