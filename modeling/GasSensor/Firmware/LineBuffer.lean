/-
# Whether the line buffer is overrun

The command loop of `source/main.c` stores every character at `buffer[index++]` and, at the
end of a line, a NUL behind it.  The buffer has 256 bytes, and nothing looks at `index`.
From the seventh field of a line on `updateParameters` reads eight bytes, wherever that
field begins.

`Received` says where the loop stands after any stream of characters, with interrupts
between them: the buffer begins with what was received since the last line ended.  So
`accessesInBounds_iff` can say which streams overrun the buffer.
-/

import GasSensor.Firmware.StaleBytes
import Mathlib.Data.List.DropRight

namespace GasSensor
namespace Gui

open CString Firmware

/-- What has been received since the last line ended. -/
def lineSoFar (received : List UInt8) : List UInt8 := received.rtakeWhile fun c => ¬ Terminator c

section
variable [Arithmetic]

/-- **The accesses to `buffer` on an event.**  While `main` runs a character is stored below
256; if it ends a line so is the NUL behind it, and `updateParameters`, which gets
these 256 bytes, reads none outside them. -/
def AccessesInBounds (t : Target) (g : Gui) : Event → Prop
  | .char _ ch => g.returned = none → g.index < 256 ∧ (Terminator ch → g.index + 1 < 256 ∧
      ∃ result, updateParameters t ((g.buffer.set g.index ch).set (g.index + 1) 0) (resetActiveStrips g.params)
        = .ok result)
  | _ => True

/-- **A character fits behind the line so far**: there is a cell for it and, if it ends the
line, one for the NUL; a seventh field begins at least eight bytes before the end of the
buffer. -/
def Fits (body : List UInt8) (ch : UInt8) : Prop :=
  body.length < 256 ∧ (Terminator ch → body.length + 1 < 256 ∧
    (7 ≤ (lineTokens body ch).length → flagsAt (body ++ [ch]) + 8 ≤ 256))

instance fitsDecidable (body : List UInt8) (ch : UInt8) : Decidable (Fits body ch) :=
  inferInstanceAs (Decidable (_ ∧ (_ → _ ∧ (_ → _))))

/-- While `main` runs, a character fits. -/
def CharFits (es : List Event) (g : Gui) : Event → Prop
  | .char _ ch => g.returned = none → Fits (lineSoFar (chars es)) ch
  | _ => True

variable {t : Target} {malloc : Malloc ℕ} {g g' : Gui} {es : List Event} {e : Event} {ch : UInt8}
  {line body received : List UInt8} {p : Params}

omit [Arithmetic] in
/-- Characters that end no line belong to it. -/
theorem lineSoFar_append (h : ∀ c ∈ body, ¬ Terminator c) :
    lineSoFar (received ++ body) = lineSoFar received ++ body := by
  induction body using List.reverseRecOn with
  | nil => rw [List.append_nil, List.append_nil]
  | append_singleton body c ih =>
      have hc : ¬ Terminator c := h c (by simp)
      have hconcat : lineSoFar (received ++ body ++ [c]) = lineSoFar (received ++ body) ++ [c] :=
        List.rtakeWhile_concat_pos _ _ c (decide_eq_true hc)
      rw [← List.append_assoc, hconcat, ih fun b hb => h b (List.mem_append_left _ hb), List.append_assoc]

omit [Arithmetic] in
/-- A terminator ends it. -/
theorem lineSoFar_terminator (h : Terminator ch) : lineSoFar (received ++ [ch]) = [] :=
  List.rtakeWhile_concat_neg _ _ _ (by simpa using h)

omit [Arithmetic] in
theorem chars_concat (es : List Event) (e : Event) : chars (es ++ [e]) = chars es ++ chars [e] :=
  List.filterMap_append

/-- **Where the loop stands** after the events `es`: the buffer begins with the line so
far, and the index is behind it. -/
structure Received (es : List Event) (g : Gui) : Prop where
  sound : Sound g
  text : g.returned = none → g.buffer.take g.index = lineSoFar (chars es)
  index : g.returned = none → g.index = (lineSoFar (chars es)).length

theorem received_boot : Received [] boot := ⟨sound_boot, fun _ => rfl, fun _ => rfl⟩

/-- A processed line leaves the index at 0, unless `main` returns. -/
theorem index_of_processLine (hinit : g.initializationsuccess = false)
    (h : processLine t malloc g = .ok g') (hret : g'.returned = none) : g'.index = 0 := by
  obtain ⟨-, params, mem, status, -, hcases⟩ := processLine_cases h hinit
  rcases hcases with ⟨-, rfl⟩ | ⟨-, peripherals, status', -, ⟨-, rfl⟩ | ⟨-, rfl⟩⟩
  · rfl
  · cases hret
  · rfl

/-- Every event extends what has been received. -/
theorem Received.step (hg : Received es g) (h : step t g e = .ok g') : Received (es ++ [e]) g' := by
  have hsound := hg.sound.step h
  rcases step_cases h with ⟨hret, peripherals, rfl⟩ | ⟨hret, he, htyped⟩ | ⟨hret, malloc, ch, rfl, hch, -, hdone⟩
  · exact ⟨hsound, fun hnone => absurd hnone hret, fun hnone => absurd hnone hret⟩
  · have hline : lineSoFar (chars (es ++ [e])) = lineSoFar (chars es) ++ chars [e] := by
      rw [chars_concat, lineSoFar_append he]
    refine ⟨hsound, fun _ => ?_, fun _ => ?_⟩
    · rw [htyped.text, hg.text hret, hline]
    · rw [htyped.index, hg.index hret, hline, List.length_append]
  · have hline : lineSoFar (chars (es ++ [.char malloc ch])) = [] := by
      rw [chars_concat]
      exact lineSoFar_terminator hch
    have hindex := index_of_processLine (by exact hg.sound.initializationsuccess hret) hdone
    rw [← List.length_eq_zero_iff] at hline
    refine ⟨hsound, fun hret' => ?_, fun hret' => (hindex hret').trans hline.symm⟩
    rw [hindex hret', List.take_zero, List.length_eq_zero_iff.1 hline]

/-- **`updateParameters` stays inside the buffer** exactly if a seventh field is followed by
seven bytes. -/
theorem exists_updateParameters_iff (t : Target) (line stale : List UInt8) (p : Params) :
    (∃ result, updateParameters t (line ++ 0 :: stale) p = .ok result) ↔
      (7 ≤ (tokens 44 (line.takeWhile (· ≠ 0))).length → flagsAt line + 8 ≤ (line ++ 0 :: stale).length) := by
  by_cases h : 7 ≤ (tokens 44 (line.takeWhile (· ≠ 0))).length
  · obtain ⟨cut, hcut, -, hline⟩ := updateParameters_line t line h
    have hlen : (line ++ 0 :: stale).length = (cut ++ stale).length := by
      rw [List.length_append, List.length_append, List.length_cons, hcut]
      omega
    rw [hline, hlen]
    constructor
    · rintro ⟨result, hok⟩ -
      obtain ⟨active, hflags, -⟩ := Run.bind_eq_ok.1 hok
      exact le_of_parseActiveStrips hflags
    · intro hle
      rw [parseActiveStrips_of_le (hle h), Run.ok_bind]
      exact ⟨_, rfl⟩
  · obtain ⟨mem, hrefused⟩ := updateParameters_line_of_lt t line (not_le.1 h) stale p
    exact iff_of_true ⟨_, hrefused⟩ fun hle => absurd hle h

/-- **The accesses on a character** are in bounds exactly if it fits. -/
theorem Received.inBounds_iff (hg : Received es g) (t : Target) (e : Event) :
    AccessesInBounds t g e ↔ CharFits es g e := by
  cases e with
  | sampler e => exact Iff.rfl
  | ctimer4 => exact Iff.rfl
  | char malloc ch =>
      refine forall_congr' fun hret => ?_
      have hindex := hg.index hret
      rw [Fits, ← hindex]
      refine and_congr_right fun _ => forall_congr' fun _ => and_congr_right fun hlt => ?_
      have hbuf := hg.sound.length
      have hline : (g.buffer.set g.index ch).set (g.index + 1) 0
          = (lineSoFar (chars es) ++ [ch]) ++ 0 :: g.buffer.drop (g.index + 2) :=
        terminated_eq (hg.text hret) (by omega) ch
      have hlen : ((lineSoFar (chars es) ++ [ch]) ++ 0 :: g.buffer.drop (g.index + 2)).length = 256 := by
        rw [← hline, List.length_set, List.length_set, hbuf]
      rw [hline, exists_updateParameters_iff, hlen]
      rfl

/-- **Every line of a stream fits**, whatever becomes of the lines. -/
def LinesFit (received : List UInt8) : Prop :=
  ∀ before ch, before ++ [ch] <+: received → Fits (lineSoFar before) ch

/-- Such a stream never overruns the buffer. -/
theorem LinesFit.accessesInBounds (h : LinesFit (chars es)) (t : Target) :
    Run.AtEveryAttempt (step t) (fun _ g e => AccessesInBounds t g e) boot es := by
  intro fs e g hfs hrun
  have hg : Received fs g := Run.foldlM_history received_boot (fun _ _ _ _ hg hstep => hg.step hstep) hrun
  refine (hg.inBounds_iff t e).2 ?_
  cases e with
  | sampler e => trivial
  | ctimer4 => trivial
  | char malloc ch =>
      intro _
      refine h _ ch ?_
      have hpre : chars (fs ++ [.char malloc ch]) <+: chars es := hfs.filterMap _
      rwa [chars_concat] at hpre

/-- **Which streams overrun the buffer.**  In every run, whatever is received and whenever
interrupts come, all accesses to the buffer are in bounds if and only if every character
that is received while `main` runs fits behind the line so far. -/
theorem accessesInBounds_iff (t : Target) (es : List Event) :
    Run.AtEveryAttempt (step t) (fun _ g e => AccessesInBounds t g e) boot es ↔
      Run.AtEveryAttempt (step t) CharFits boot es :=
  Run.atEveryAttempt_congr received_boot (fun _ _ _ _ hg h => hg.step h)
    (fun _ _ e hg => hg.inBounds_iff t e) es

end

attribute [local instance] Arithmetic.uncontracted

/-- 257 characters without a terminator. -/
def longLine : List Event := typeLine (List.replicate 256 97) ++ [.char zeroedMalloc 97]

/-- **The buffer is overrun** by the 257th character of a line. -/
theorem longLine_overruns :
    ¬ ∀ es, Run.AtEveryAttempt (step .saturating) (fun _ g e => AccessesInBounds .saturating g e) boot es := by
  intro h
  have hbody : ∀ c ∈ List.replicate 256 (97 : UInt8), ¬ Terminator c := fun c hc => by
    rw [List.eq_of_mem_replicate hc]
    decide
  have hrun := typeLine_run (g := boot) .saturating rfl hbody
  have hfull : boot.buffer.length = (List.replicate 256 (97 : UInt8)).length :=
    List.length_replicate.trans List.length_replicate.symm
  rw [show boot.index = 0 from rfl, writeFrom_all hfull, Run.ok_bind, List.length_replicate] at hrun
  exact absurd (h longLine _ _ _ List.prefix_rfl hrun rfl).1 (by decide)

end Gui
end GasSensor
