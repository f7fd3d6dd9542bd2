/-
# Lines of a stream

A reader takes a stream apart into lines that end with a terminator `nl`.
`linesFrom part s` are the lines it completes on `s` when it has already read `part` of
the first one, and `restFrom part s` is what it has read of the line it is in
afterwards.

The two split over concatenation, so it does not matter in which portions a
stream is read; nothing is lost (`flatten_linesFrom`); a stream that consists of
lines is taken apart into these (`linesFrom_flatten`), one that has not come to
its end into the first of them (`prefix_flatten`), and a reader that comes in
late gets the ends of lines (`suffix_of_mem_lines`).
-/

import Mathlib.Data.List.Basic
import Mathlib.Tactic.Common

namespace GasSensor
namespace Lines

variable {α : Type*}

/-- A line: no terminator but at its end. -/
def IsLine (nl : α) (l : List α) : Prop := ∃ body, nl ∉ body ∧ l = body ++ [nl]

theorem isLine_iff {nl : α} {l : List α} : IsLine nl l ↔ nl ∉ l.dropLast ∧ l.getLast? = some nl := by
  constructor
  · rintro ⟨body, hbody, rfl⟩
    exact ⟨by rwa [List.dropLast_concat], List.getLast?_concat⟩
  · rintro ⟨hbody, hlast⟩
    exact ⟨l.dropLast, hbody, (List.dropLast_append_getLast? nl hlast).symm⟩

instance isLineDecidable [DecidableEq α] (nl : α) (l : List α) : Decidable (IsLine nl l) :=
  decidable_of_iff' _ isLine_iff

/-- A beginning of some lines is the first of them and a part of the next one. -/
theorem prefix_flatten {nl : α} {s : List α} {ls : List (List α)} (h : ∀ l ∈ ls, IsLine nl l) (hs : s <+: ls.flatten) :
    ∃ first more part, ls = first ++ more ∧ s = first.flatten ++ part ∧ nl ∉ part ∧
      (part = [] ∨ ∃ l ∈ more, part <+: l) := by
  induction ls generalizing s with
  | nil => exact ⟨[], [], [], rfl, List.prefix_nil.1 hs, List.not_mem_nil, .inl rfl⟩
  | cons l ls ih =>
      obtain ⟨⟨body, hbody, rfl⟩, hls⟩ := List.forall_mem_cons.1 h
      obtain ⟨rest, hrest⟩ := hs
      rw [List.flatten_cons, List.append_assoc] at hrest
      rcases List.append_eq_append_iff.1 hrest with ⟨tail, hbodyeq, -⟩ | ⟨tail, rfl, htail⟩
      · refine ⟨[], (body ++ [nl]) :: ls, s, rfl, rfl, fun hmem => hbody ?_,
          .inr ⟨_, List.mem_cons_self, tail ++ [nl], ?_⟩⟩
        · rw [hbodyeq]
          exact List.mem_append_left _ hmem
        · rw [hbodyeq, List.append_assoc]
      · cases tail with
        | nil =>
            exact ⟨[], (body ++ [nl]) :: ls, body, rfl, List.append_nil _, hbody,
              .inr ⟨_, List.mem_cons_self, List.prefix_append _ _⟩⟩
        | cons b tail =>
            rw [List.singleton_append, List.cons_append, List.cons.injEq] at htail
            obtain ⟨rfl, htail⟩ := htail
            obtain ⟨first, more, part, rfl, rfl, hpart, hnext⟩ := ih hls ⟨rest, htail.symm⟩
            refine ⟨(body ++ [nl]) :: first, more, part, rfl, ?_, hpart, hnext⟩
            rw [List.flatten_cons, List.append_assoc, List.append_assoc]
            rfl

variable [DecidableEq α]

/-- The lines completed on a stream, with `part` of the first one read before. -/
def linesFrom (nl : α) : List α → List α → List (List α)
  | _, [] => []
  | part, b :: s => if b = nl then (part ++ [b]) :: linesFrom nl [] s else linesFrom nl (part ++ [b]) s

/-- What has been read of the line after them. -/
def restFrom (nl : α) : List α → List α → List α
  | part, [] => part
  | part, b :: s => if b = nl then restFrom nl [] s else restFrom nl (part ++ [b]) s

/-- The complete lines of a stream. -/
def lines (nl : α) (s : List α) : List (List α) := linesFrom nl [] s

variable {nl : α} {part s s' l : List α} {ls : List (List α)}

@[simp] theorem linesFrom_nil (nl : α) (part : List α) : linesFrom nl part [] = [] := rfl

@[simp] theorem restFrom_nil (nl : α) (part : List α) : restFrom nl part [] = part := rfl

/-- **Lines do not depend on the portions** in which a stream is read. -/
theorem linesFrom_append (nl : α) (part s s' : List α) :
    linesFrom nl part (s ++ s') = linesFrom nl part s ++ linesFrom nl (restFrom nl part s) s' := by
  induction s generalizing part with
  | nil => rfl
  | cons b s ih =>
      rw [List.cons_append, linesFrom, linesFrom, restFrom]
      split
      · rw [ih, List.cons_append]
      · rw [ih]

/-- **Nothing is lost**: lines and rest together are what has been read. -/
theorem flatten_linesFrom (nl : α) (part s : List α) :
    (linesFrom nl part s).flatten ++ restFrom nl part s = part ++ s := by
  induction s generalizing part with
  | nil => simp
  | cons b s ih =>
      rw [linesFrom, restFrom]
      split
      · rw [List.flatten_cons, List.append_assoc, ih, List.nil_append, List.append_assoc]
        rfl
      · rw [ih, List.append_assoc]
        rfl

theorem linesFrom_of_notMem (h : nl ∉ s) : linesFrom nl part s = [] := by
  induction s generalizing part with
  | nil => rfl
  | cons b s ih =>
      rw [List.mem_cons, not_or] at h
      rw [linesFrom, if_neg (Ne.symm h.1), ih h.2]

theorem restFrom_of_notMem (h : nl ∉ s) : restFrom nl part s = part ++ s := by
  have hflat := flatten_linesFrom nl part s
  rwa [linesFrom_of_notMem h] at hflat

/-- A line completes the one in progress. -/
theorem linesFrom_line (h : IsLine nl l) (part s : List α) :
    linesFrom nl part (l ++ s) = (part ++ l) :: linesFrom nl [] s := by
  obtain ⟨body, hbody, rfl⟩ := h
  rw [List.append_assoc, linesFrom_append, linesFrom_of_notMem hbody, restFrom_of_notMem hbody,
    List.nil_append, List.singleton_append, linesFrom, if_pos rfl, List.append_assoc]

/-- **A stream of lines is taken apart into these lines.** -/
theorem linesFrom_flatten (h : ∀ l ∈ ls, IsLine nl l) (s : List α) :
    linesFrom nl [] (ls.flatten ++ s) = ls ++ linesFrom nl [] s := by
  induction ls with
  | nil => rfl
  | cons l ls ih =>
      obtain ⟨hl, hls⟩ := List.forall_mem_cons.1 h
      rw [List.flatten_cons, List.append_assoc, linesFrom_line hl, ih hls, List.nil_append, List.cons_append]

theorem lines_flatten (h : ∀ l ∈ ls, IsLine nl l) : lines nl ls.flatten = ls := by
  have hlines := linesFrom_flatten h []
  rwa [List.append_nil, linesFrom_nil, List.append_nil] at hlines

theorem suffix_of_mem_linesFrom {q : List α} (part : List α) (h : l ∈ linesFrom nl q s) :
    ∃ m ∈ linesFrom nl (part ++ q) s, l <:+ m := by
  induction s generalizing q with
  | nil => cases h
  | cons b s ih =>
      rw [linesFrom] at h ⊢
      split at h
      next hb =>
        rw [if_pos hb]
        rcases List.mem_cons.1 h with rfl | h
        · exact ⟨_, List.mem_cons_self, ⟨part, (List.append_assoc _ _ _).symm⟩⟩
        · exact ⟨l, List.mem_cons_of_mem _ h, List.suffix_rfl⟩
      next hb =>
        rw [if_neg hb, List.append_assoc]
        exact ih h

/-- **A reader that comes in late** gets the ends of lines. -/
theorem suffix_of_mem_lines (hs : s <:+ s') (h : l ∈ lines nl s) : ∃ m ∈ lines nl s', l <:+ m := by
  obtain ⟨before, rfl⟩ := hs
  obtain ⟨m, hm, hend⟩ := suffix_of_mem_linesFrom (restFrom nl [] before) h
  refine ⟨m, ?_, hend⟩
  rw [List.append_nil] at hm
  rw [lines, linesFrom_append]
  exact List.mem_append_right _ hm

end Lines
end GasSensor
