/-
# The bytes the strip flags are read from

`updateParameters` of `source/main.c` reads the strip flags at eight consecutive positions
from the seventh token on, however long the token is.  `updateParameters_line` says what
becomes of an accepted line and what follows it in the buffer: the line is cut into its
tokens, whatever follows stays as it is, and the eight bytes are taken from the two
together.
-/

import GasSensor.Firmware.Command

namespace GasSensor
namespace Firmware

open CString

variable {t : Target} {s mem : List UInt8} {p : Params}

/-! ### The tokens of a line -/

/-- The numbers of a line that has them all.  What follows the text in the buffer does not
matter. -/
theorem parseFields_token (t : Target) (fields : List Setter) (pre : List UInt8) (h0 : 0 ∉ s)
    (h : fields.length ≤ (tokens 44 s).length) :
    ∃ pre' s', 0 ∉ s' ∧ (pre' ++ s').length = (pre ++ s).length ∧
      tokens 44 s' = (tokens 44 s).drop fields.length ∧
      (∀ n, fromToken 44 n s' = fromToken 44 (n + fields.length) s) ∧
      ∀ rest p, parseFields t fields (pre ++ s ++ 0 :: rest) pre.length p
        = .ok (assignFields t fields (tokens 44 s) p, pre' ++ s' ++ 0 :: rest, some pre'.length) := by
  induction fields generalizing pre s with
  | nil => exact ⟨pre, s, h0, rfl, rfl, fun _ => rfl, fun _ _ => rfl⟩
  | cons set fields ih =>
      have hsome : ¬ ∀ b ∈ s, b = 44 := by
        intro hall
        rw [tokens_of_forall_eq hall] at h
        exact absurd h (by simp)
      obtain ⟨tok, token, pre₁, s₁, htoks, h0₁, hlen₁, -, hfrom₁, hcall⟩ :=
        strtok_token 44 pre (by decide) h0 hsome
      rw [htoks, List.length_cons, List.length_cons, Nat.succ_le_succ_iff] at h
      obtain ⟨pre', s', h0', hlen', hdrop, hfrom', hparse⟩ := ih pre₁ h0₁ h
      refine ⟨pre', s', h0', hlen'.trans hlen₁, ?_, fun n => ?_, fun rest p => ?_⟩
      · rw [htoks, hdrop]
        rfl
      · rw [hfrom', hfrom₁]
        rfl
      · rw [parseFields, (hcall rest).1, Run.ok_bind]
        dsimp only
        rw [(hcall rest).2, hparse, htoks, assignFields_cons]

/-- The position of the seventh field in a line. -/
def flagsAt (line : List UInt8) : ℕ :=
  (line.takeWhile (· ≠ 0)).length - (fromToken 44 6 (line.takeWhile (· ≠ 0))).length

/-- A line and the NUL behind it begin with a text and its NUL; what follows the line comes
last. -/
theorem exists_line_eq (line : List UInt8) :
    ∃ more, (line.takeWhile (· ≠ 0)).length + more.length = line.length ∧
      ∀ stale, line ++ 0 :: stale = line.takeWhile (· ≠ 0) ++ 0 :: (more ++ stale) := by
  induction line with
  | nil => exact ⟨[], rfl, fun _ => rfl⟩
  | cons b line ih =>
      by_cases hb : b = 0
      · refine ⟨line ++ [0], ?_, fun stale => ?_⟩
        · simp [hb]
        · simp [hb]
      · obtain ⟨more, hlen, hmore⟩ := ih
        have htake : (b :: line).takeWhile (· ≠ 0) = b :: line.takeWhile (· ≠ 0) :=
          List.takeWhile_cons_of_pos (by simpa using hb)
        refine ⟨more, ?_, fun stale => ?_⟩
        · rw [htake, List.length_cons, List.length_cons]
          omega
        · rw [htake, List.cons_append, List.cons_append, hmore]

variable [Arithmetic]

/-- **An accepted line.**  `updateParameters` cuts the line and its NUL into `cut`, assigns the
numbers, and reads the flags from `flagsAt line` on. -/
theorem updateParameters_line (t : Target) (line : List UInt8)
    (h : 7 ≤ (tokens 44 (line.takeWhile (· ≠ 0))).length) :
    ∃ cut, cut.length = line.length + 1 ∧ flagsAt line ≤ line.length ∧
      ∀ stale p, updateParameters t (line ++ 0 :: stale) p
        = parseActiveStrips (cut ++ stale) (flagsAt line) p.activeStrips >>= fun active =>
          .ok ({ assignFields t numberFields (tokens 44 (line.takeWhile (· ≠ 0))) p with
            activeStrips := active
            gStripCount := countStrips active }, cut ++ stale, 0) := by
  obtain ⟨more, hlen, hmore⟩ := exists_line_eq line
  obtain ⟨pre', s', h0', hlen', hdrop, hfrom, hparse⟩ :=
    parseFields_token t numberFields [] (zero_notMem_text line) (le_trans (show 6 ≤ 7 by decide) h)
  have hsome : ¬ ∀ b ∈ s', b = 44 := by
    intro hall
    rw [tokens_of_forall_eq hall] at hdrop
    have := List.drop_eq_nil_iff.1 hdrop.symm
    exact absurd (h.trans this) (show ¬ 7 ≤ 6 by decide)
  obtain ⟨tok, token, pre'', s'', -, -, hlen'', htoken, -, hcall⟩ := strtok_token 44 pre' (by decide) h0' hsome
  rw [hfrom, hlen'] at htoken
  have hat : flagsAt line = token := by
    rw [flagsAt]
    simp only [List.nil_append] at htoken
    change token + (fromToken 44 6 _).length = _ at htoken
    omega
  refine ⟨pre'' ++ s'' ++ 0 :: more, ?_, ?_, fun stale p => ?_⟩
  · rw [List.length_append, List.length_cons, hlen'', hlen', List.nil_append]
    omega
  · rw [flagsAt]
    omega
  · have hkeep := (assignFields_numberFields t (tokens 44 (line.takeWhile (· ≠ 0))) p).1
    have hparse' := hparse (more ++ stale) p
    rw [List.nil_append, List.length_nil] at hparse'
    rw [hmore, updateParameters, hparse', Run.ok_bind]
    dsimp only
    rw [(hcall _).1, Run.ok_bind, hat, ← hkeep]
    simp only [List.append_assoc, List.cons_append]

/-- **Any other line** is refused, after the fields it has were assigned. -/
theorem updateParameters_line_of_lt (t : Target) (line : List UInt8)
    (h : (tokens 44 (line.takeWhile (· ≠ 0))).length < 7) (stale : List UInt8) (p : Params) :
    ∃ mem, updateParameters t (line ++ 0 :: stale) p
      = .ok (assignFields t numberFields (tokens 44 (line.takeWhile (· ≠ 0))) p, mem, -1) := by
  obtain ⟨more, -, hmore⟩ := exists_line_eq line
  rw [hmore]
  exact updateParameters_of_lt t (more ++ stale) (zero_notMem_text line) h p

/-- Only lines with seven tokens are accepted. -/
theorem le_of_accepted {line stale : List UInt8} {p' : Params}
    (h : updateParameters t (line ++ 0 :: stale) p = .ok (p', mem, 0)) :
    7 ≤ (tokens 44 (line.takeWhile (· ≠ 0))).length := by
  by_contra hlt
  obtain ⟨mem', hrefused⟩ := updateParameters_line_of_lt t line (not_le.1 hlt) stale p
  rw [hrefused] at h
  cases h

/-- What an accepted line leaves: the numbers are assigned, and the strips are counted. -/
theorem updateParameters_line_of_le (t : Target) (line : List UInt8)
    (h : 7 ≤ (tokens 44 (line.takeWhile (· ≠ 0))).length) {stale : List UInt8} {p' : Params} {status : ℤ}
    (hok : updateParameters t (line ++ 0 :: stale) p = .ok (p', mem, status)) :
    status = 0 ∧ p'.Counted ∧
      p' = { assignFields t numberFields (tokens 44 (line.takeWhile (· ≠ 0))) p with
        activeStrips := p'.activeStrips
        gStripCount := p'.gStripCount } := by
  obtain ⟨more, -, hmore⟩ := exists_line_eq line
  rw [hmore] at hok
  exact updateParameters_of_le t _ (zero_notMem_text line) h hok

/-- The numbers of an accepted line leave nothing of the parameters before. -/
theorem assignFields_forget (t : Target) {toks : List (List UInt8)} (h : 6 ≤ toks.length) (p q : Params)
    (active : Strip → Bool) (count : ℕ) :
    { assignFields t numberFields toks p with
        activeStrips := active
        gStripCount := count }
      = { assignFields t numberFields toks q with
        activeStrips := active
        gStripCount := count } := by
  match toks, h with
  | _ :: _ :: _ :: _ :: _ :: _ :: _, _ => rfl

end Firmware
end GasSensor
