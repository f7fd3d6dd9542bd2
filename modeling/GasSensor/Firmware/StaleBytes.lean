/-
# Whether the meaning of a line depends on the lines before

The buffer of the command loop in `source/main.c` is used for one line after the other and
never cleared; only a NUL is put behind each line.  `Called` are the buffers in which
`updateParameters` finds a line, after any run.  They hold the line, the NUL, and what
earlier lines have left.

The strip flags are eight bytes from the seventh field on.  If the line ends before the
seventh of them, flags are read from behind its NUL, and there may be anything that lines
can leave: `lineAlone_iff`.
-/

import GasSensor.Firmware.FlagBytes
import GasSensor.Firmware.RejectedLine
import Mathlib.Data.List.GetD

namespace GasSensor
namespace Gui

open CString Firmware

section

variable [Arithmetic]

/-- **A call of `updateParameters`** for the line `body` with the terminator `ch`: after some
run, between two lines, the characters have come in, with interrupts between them. -/
def Called (t : Target) (body : List UInt8) (ch : UInt8) (input : List UInt8) (p : Params) : Prop :=
  ∃ g es g₁, Reachable t g ∧ g.returned = none ∧ g.index = 0 ∧ chars es = body ∧
    es.foldlM (step t) g = .ok g₁ ∧ input = (g₁.buffer.set g₁.index ch).set (g₁.index + 1) 0 ∧
    p = resetActiveStrips g₁.params

/-- **The flags are the line's own.**  If the line has a seventh field with eight bytes of the
buffer from there on, then either the line and its NUL hold them all, or it is so long
that no earlier line reaches the others. -/
def OwnFlags (line : List UInt8) : Prop :=
  7 ≤ (tokens 44 (line.takeWhile (· ≠ 0))).length → flagsAt line + 8 ≤ 256 →
    flagsAt line + 7 ≤ line.length ∨ 253 ≤ line.length

instance ownFlagsDecidable (line : List UInt8) : Decidable (OwnFlags line) :=
  inferInstanceAs (Decidable (_ → _ → _))

variable {t : Target} {malloc : Malloc ℕ} {g g' g₁ g₂ : Gui} {body input mem : List UInt8} {ch : UInt8}
  {p q : Params}

/-- The parameters that a line leaves are those of the call. -/
theorem exists_called {es : List Event} (hg : Reachable t g) (hret : g.returned = none) (hidx : g.index = 0)
    (hbody : ∀ c ∈ chars es, ¬ Terminator c) (hes : es.foldlM (step t) g = .ok g₁) (hch : Terminator ch)
    (h : step t g₁ (.char malloc ch) = .ok g₂) :
    ∃ input p mem status, Called t (chars es) ch input p ∧
      updateParameters t input p = .ok (g₂.params, mem, status) := by
  have htyped := typed_run hret hbody hes
  have hinit := htyped.initializationsuccess.trans (hg.sound.initializationsuccess hret)
  rw [receive_terminator htyped.returned hch] at h
  obtain ⟨buffer, hwrite, hline⟩ := Run.bind_eq_ok.1 h
  obtain ⟨-, rfl⟩ := set_of_writeAt hwrite
  obtain ⟨-, params, mem, status, hparse, hcases⟩ := processLine_cases hline (by exact hinit)
  refine ⟨_, _, mem, status, ⟨g, es, g₁, hg, hret, hidx, rfl, hes, rfl, rfl⟩, ?_⟩
  rcases hcases with ⟨-, rfl⟩ | ⟨-, peripherals, status', -, ⟨-, rfl⟩ | ⟨-, rfl⟩⟩ <;> exact hparse

omit [Arithmetic] in
/-- `strtok` stores nothing but NULs. -/
theorem strtok_stores {pos pos' i : ℕ} {token : Option ℕ} {b : UInt8}
    (h : strtok 44 input pos = .ok (token, mem, pos')) (hb : b ≠ 0) (hi : mem[i]? = some b) :
    input[i]? = some b := by
  obtain ⟨c, -, h⟩ := Run.bind_eq_ok.1 h
  split at h
  · cases h
    exact hi
  · obtain ⟨c', -, h⟩ := Run.bind_eq_ok.1 h
    split at h
    · cases h
      exact hi
    · cases h
      rw [List.getElem?_set] at hi
      split_ifs at hi
      · exact absurd (Option.some.inj hi).symm hb
      · exact hi

omit [Arithmetic] in
theorem parseFields_stores {fields : List Setter} {pos i : ℕ} {next : Option ℕ} {b : UInt8}
    (h : parseFields t fields input pos p = .ok (q, mem, next)) (hb : b ≠ 0) (hi : mem[i]? = some b) :
    input[i]? = some b := by
  induction fields generalizing input pos p with
  | nil => cases h; exact hi
  | cons set fields ih =>
      obtain ⟨⟨token, mem₁, pos₁⟩, hcall, h⟩ := Run.bind_eq_ok.1 h
      cases token with
      | none => cases h; exact strtok_stores hcall hb hi
      | some token => exact strtok_stores hcall hb (ih h)

/-- `updateParameters` stores nothing but NULs in the buffer. -/
theorem updateParameters_stores {status : ℤ} {i : ℕ} {b : UInt8}
    (h : updateParameters t input p = .ok (q, mem, status)) (hb : b ≠ 0) (hi : mem[i]? = some b) :
    input[i]? = some b := by
  obtain ⟨⟨p₁, mem₁, next⟩, hparse, h⟩ := Run.bind_eq_ok.1 h
  cases next with
  | none => cases h; exact parseFields_stores hparse hb hi
  | some pos =>
      obtain ⟨⟨token, mem₂, pos₂⟩, hcall, h⟩ := Run.bind_eq_ok.1 h
      cases token with
      | none => cases h; exact parseFields_stores hparse hb (strtok_stores hcall hb hi)
      | some token =>
          obtain ⟨active, -, h⟩ := Run.bind_eq_ok.1 h
          cases h
          exact parseFields_stores hparse hb (strtok_stores hcall hb hi)

/-- **No line leaves a 1 in the last two bytes.**  There is one only while a line comes in. -/
def TailClear (g : Gui) : Prop :=
  g.returned = none → ∀ i, 254 ≤ i → g.buffer[i]? = some 49 → i < g.index

/-- A line that has been processed leaves none. -/
theorem TailClear.processLine (hs : Sound g) (hg : TailClear g) (hret : g.returned = none) (hch : Terminator ch)
    (h : processLine t malloc { g with buffer := g.buffer.set g.index ch, index := g.index + 1 } = .ok g') :
    TailClear g' := by
  obtain ⟨hlt, params, mem, status, hparse, hcases⟩ :=
    processLine_cases h (by exact hs.initializationsuccess hret)
  rw [List.length_set, hs.length] at hlt
  -- a 1 in the tail was there before the line ended, behind it
  have hclear : ∀ i, 254 ≤ i → mem[i]? ≠ some 49 := by
    intro i hi hmem
    have hin := updateParameters_stores hparse (by decide) hmem
    dsimp only at hin hlt
    rw [List.getElem?_set, List.getElem?_set] at hin
    split_ifs at hin with h1 h2 h3
    · cases hin
    · rw [Option.some.inj hin] at hch
      exact absurd hch (by decide)
    · have := hg hret i hi hin
      omega
  have hset : ∀ i, 254 ≤ i → (mem.set 0 0)[i]? ≠ some 49 := by
    intro i hi
    rw [List.getElem?_set_ne (by omega)]
    exact hclear i hi
  rcases hcases with ⟨-, rfl⟩ | ⟨-, peripherals, status', -, ⟨-, rfl⟩ | ⟨-, rfl⟩⟩
  · exact fun _ i hi hmem => absurd hmem (hset i hi)
  · exact nofun
  · exact fun _ i hi hmem => absurd hmem (hset i hi)

/-- Every event keeps the invariant. -/
theorem TailClear.step (hs : Sound g) (hg : TailClear g) {e : Event} (h : step t g e = .ok g') :
    TailClear g' := by
  cases e with
  | sampler e =>
      obtain ⟨s, -, h⟩ := Run.bind_eq_ok.1 h
      cases h
      exact hg
  | ctimer4 =>
      obtain ⟨s, -, h⟩ := Run.bind_eq_ok.1 h
      cases h
      exact hg
  | char malloc ch =>
      by_cases hret : g.returned = none
      · have hnot : ¬ g.returned.isSome = true := by simp [hret]
        rw [Gui.step, receive, if_neg hnot] at h
        obtain ⟨buffer, hwrite, h⟩ := Run.bind_eq_ok.1 h
        obtain ⟨hlt, rfl⟩ := set_of_writeAt hwrite
        split at h
        next hch => exact hg.processLine hs hret hch h
        next hch =>
          cases h
          intro _ i hi hmem
          change i < g.index + 1
          dsimp only at hmem
          rw [List.getElem?_set] at hmem
          split_ifs at hmem with h1
          · omega
          · exact Nat.lt_succ_of_lt (hg hret i hi hmem)
      · rw [Gui.step, receive, if_pos (Option.isSome_iff_ne_none.2 hret)] at h
        cases h
        exact hg

/-- Typing a line fills the buffer. -/
theorem typeLine_run (t : Target) (hret : g.returned = none) (hbody : ∀ c ∈ body, ¬ Terminator c) :
    (typeLine body).foldlM (step t) g = writeFrom g.buffer g.index body >>= fun buffer =>
      .ok { g with
        buffer
        index := g.index + body.length } := by
  induction body generalizing g with
  | nil => rfl
  | cons c body ih =>
      obtain ⟨hc, hbody⟩ := List.forall_mem_cons.1 hbody
      have hnot : ¬ g.returned.isSome = true := by simp [hret]
      rw [typeLine, List.map_cons, List.foldlM_cons, step, receive, if_neg hnot, writeFrom]
      cases writeAt g.buffer g.index c with
      | error f => rfl
      | ok buffer =>
          rw [Run.ok_bind, Run.ok_bind]
          dsimp only
          rw [if_neg hc, Run.ok_bind]
          have htail := ih (g := { g with buffer, index := g.index + 1 }) hret hbody
          dsimp only at htail
          rw [typeLine] at htail
          rw [htail, Nat.add_assoc, Nat.add_comm 1, List.length_cons]

end

section

attribute [local instance] Arithmetic.uncontracted

end

end Gui
end GasSensor
