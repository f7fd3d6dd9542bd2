/-
# C strings in a byte buffer

The parts of the C library that take a line of text apart: `strtok`, which
replaces delimiters in the buffer by NUL and remembers where it stopped, and the
conversions `atoi` and `atof` of the text it points at.  Reads are checked
against the buffer.

`tokens` is what `strtok` is for, on plain lists: the non-empty pieces of a text
between delimiters.  `strtok_spec` says that successive calls deliver the tokens
one after the other, whatever follows the text in the buffer.
-/

import GasSensor.Lib.Memory
import Mathlib.Algebra.Field.Rat

namespace GasSensor
namespace CString

variable {delim : UInt8} {s tok pre rest mem : List UInt8}

/-- The piece before the first delimiter, and the tokens after it. -/
def splitToken (delim : UInt8) : List UInt8 → List UInt8 × List (List UInt8)
  | [] => ([], [])
  | b :: s =>
      if b = delim then
        ([], if (splitToken delim s).1 = [] then (splitToken delim s).2
          else (splitToken delim s).1 :: (splitToken delim s).2)
      else (b :: (splitToken delim s).1, (splitToken delim s).2)

/-- The non-empty pieces between delimiters. -/
def tokens (delim : UInt8) (s : List UInt8) : List (List UInt8) :=
  if (splitToken delim s).1 = [] then (splitToken delim s).2
  else (splitToken delim s).1 :: (splitToken delim s).2

@[simp] theorem tokens_nil : tokens delim [] = [] := rfl

@[simp] theorem tokens_delim_cons : tokens delim (delim :: s) = tokens delim s := by
  simp [tokens, splitToken]

theorem tokens_of_forall_eq (h : ∀ b ∈ s, b = delim) : tokens delim s = [] := by
  induction s with
  | nil => rfl
  | cons b s ih =>
      obtain rfl : b = delim := h b List.mem_cons_self
      rw [tokens_delim_cons]
      exact ih fun b' hb' => h b' (List.mem_cons_of_mem _ hb')

theorem tokens_append_of_forall_eq (h : ∀ b ∈ pre, b = delim) :
    tokens delim (pre ++ s) = tokens delim s := by
  induction pre with
  | nil => rfl
  | cons b pre ih =>
      obtain rfl : b = delim := h b List.mem_cons_self
      rw [List.cons_append, tokens_delim_cons]
      exact ih fun b' hb' => h b' (List.mem_cons_of_mem _ hb')

theorem splitToken_append (h : delim ∉ tok) :
    splitToken delim (tok ++ s) = (tok ++ (splitToken delim s).1, (splitToken delim s).2) := by
  induction tok with
  | nil => rfl
  | cons b tok ih =>
      rw [List.mem_cons, not_or] at h
      rw [List.cons_append, splitToken, if_neg (Ne.symm h.1), ih h.2]
      rfl

/-- A text that is one token. -/
theorem tokens_of_not_mem (hne : tok ≠ []) (h : delim ∉ tok) : tokens delim tok = [tok] := by
  have hsplit := splitToken_append (s := []) h
  rw [List.append_nil] at hsplit
  rw [tokens, hsplit]
  simp [splitToken, hne]

/-- A token ends at the first delimiter. -/
theorem tokens_append_delim (hne : tok ≠ []) (h : delim ∉ tok) :
    tokens delim (tok ++ delim :: s) = tok :: tokens delim s := by
  rw [tokens, splitToken_append h]
  simp [splitToken, hne, tokens]

/-- **Joined texts are taken apart again**, if none of them is empty or holds a delimiter. -/
theorem tokens_intercalate {toks : List (List UInt8)} (h : ∀ tok ∈ toks, tok ≠ [] ∧ delim ∉ tok) :
    tokens delim ([delim].intercalate toks) = toks := by
  induction toks with
  | nil => rfl
  | cons tok toks ih =>
      obtain ⟨⟨hne, htok⟩, hrest⟩ := List.forall_mem_cons.1 h
      match toks with
      | [] =>
          rw [List.intercalate_singleton]
          exact tokens_of_not_mem hne htok
      | tok' :: toks =>
          rw [List.intercalate_cons_cons, List.append_assoc, List.singleton_append, tokens_append_delim hne htok,
            ih hrest]

/-- A byte of joined texts is a delimiter or a byte of one of them. -/
theorem mem_intercalate {toks : List (List UInt8)} {b : UInt8} (h : b ∈ [delim].intercalate toks) :
    b = delim ∨ ∃ tok ∈ toks, b ∈ tok := by
  induction toks with
  | nil => exact absurd h List.not_mem_nil
  | cons tok toks ih =>
      match toks with
      | [] =>
          rw [List.intercalate_singleton] at h
          exact .inr ⟨tok, List.mem_singleton_self tok, h⟩
      | tok' :: toks =>
          rw [List.intercalate_cons_cons, List.mem_append, List.mem_append, List.mem_singleton] at h
          rcases h with (h | h) | h
          · exact .inr ⟨tok, List.mem_cons_self, h⟩
          · exact .inl h
          · rcases ih h with hd | ⟨tok₁, hmem, hb⟩
            · exact .inl hd
            · exact .inr ⟨tok₁, List.mem_cons_of_mem tok hmem, hb⟩

/-- The piece before the first delimiter comes first, the tokens after it are the pieces that
are not empty. -/
theorem splitOn_eq (delim : UInt8) (s : List UInt8) :
    ∃ pieces, s.splitOn delim = (splitToken delim s).1 :: pieces ∧
      (splitToken delim s).2 = pieces.filter (· ≠ []) := by
  induction s with
  | nil => exact ⟨[], rfl, rfl⟩
  | cons b s ih =>
      obtain ⟨pieces, hsplit, htoks⟩ := ih
      rw [List.splitOn_cons_eq_if_modifyHead, hsplit, splitToken, htoks]
      by_cases hb : b = delim
      · refine ⟨(splitToken delim s).1 :: pieces, ?_, ?_⟩
        · rw [if_pos (beq_iff_eq.2 hb), if_pos hb]
        · rw [if_pos hb, List.filter_cons]
          by_cases hnil : (splitToken delim s).1 = [] <;> simp [hnil]
      · refine ⟨pieces, ?_, ?_⟩
        · rw [if_neg (mt beq_iff_eq.1 hb), if_neg hb, List.modifyHead_cons]
        · rw [if_neg hb]

/-- **The tokens of a text are its non-empty pieces.** -/
theorem tokens_eq_filter (delim : UInt8) (s : List UInt8) :
    tokens delim s = (s.splitOn delim).filter (· ≠ []) := by
  obtain ⟨pieces, hsplit, htoks⟩ := splitOn_eq delim s
  rw [hsplit, tokens, htoks, List.filter_cons]
  by_cases hnil : (splitToken delim s).1 = [] <;> simp [hnil]

/-- A text without a token is made of delimiters; any other is delimiters, a token,
and then the end or a delimiter. -/
theorem tokens_cases (delim : UInt8) (s : List UInt8) :
    (∀ b ∈ s, b = delim) ∨ ∃ lead tok after, s = lead ++ tok ++ after ∧ (∀ b ∈ lead, b = delim) ∧
      tok ≠ [] ∧ delim ∉ tok ∧ (after = [] ∨ ∃ s', after = delim :: s') := by
  induction s with
  | nil => exact .inl fun b hb => absurd hb List.not_mem_nil
  | cons b s ih =>
      by_cases hb : b = delim
      · rcases ih with h | ⟨lead, tok, after, rfl, hlead, hne, htok, hafter⟩
        · exact .inl (List.forall_mem_cons.2 ⟨hb, h⟩)
        · exact .inr ⟨b :: lead, tok, after, rfl, List.forall_mem_cons.2 ⟨hb, hlead⟩, hne, htok, hafter⟩
      · right
        by_cases hmem : delim ∈ s
        · obtain ⟨tok, s', rfl, htok⟩ := List.eq_append_cons_of_mem hmem
          exact ⟨[], b :: tok, delim :: s', rfl, fun b' hb' => absurd hb' List.not_mem_nil,
            List.cons_ne_nil _ _, by simp [htok, Ne.symm hb], .inr ⟨s', rfl⟩⟩
        · exact ⟨[], b :: s, [], (List.append_nil _).symm, fun b' hb' => absurd hb' List.not_mem_nil,
            List.cons_ne_nil _ _, by simp [hmem, Ne.symm hb], .inl rfl⟩

/-- The text from its token number `n` on. -/
def fromToken (delim : UInt8) : ℕ → List UInt8 → List UInt8
  | 0, s => s.dropWhile (· = delim)
  | n + 1, s => fromToken delim n ((s.dropWhile (· = delim)).dropWhile (· ≠ delim))

/-- Delimiters in front of a text do not matter. -/
theorem fromToken_append_of_forall_eq (h : ∀ b ∈ pre, b = delim) (n : ℕ) :
    fromToken delim n (pre ++ s) = fromToken delim n s := by
  have hdrop : (pre ++ s).dropWhile (· = delim) = s.dropWhile (· = delim) :=
    List.dropWhile_append_of_pos fun b hb => decide_eq_true (h b hb)
  cases n with
  | zero => exact hdrop
  | succ n => rw [fromToken, fromToken, hdrop]

/-- Behind a token the next ones begin. -/
theorem fromToken_succ_append (hne : tok ≠ []) (h : delim ∉ tok) {after : List UInt8}
    (hafter : after = [] ∨ ∃ s', after = delim :: s') (n : ℕ) :
    fromToken delim (n + 1) (tok ++ after) = fromToken delim n after := by
  obtain ⟨c, tok, rfl⟩ := List.exists_cons_of_ne_nil hne
  rw [List.mem_cons, not_or] at h
  have hlead : ((c :: tok) ++ after).dropWhile (· = delim) = (c :: tok) ++ after :=
    List.dropWhile_cons_of_neg (by simpa using Ne.symm h.1)
  have hmem : ∀ b ∈ c :: tok, decide (b ≠ delim) = true := by
    intro b hb
    rcases List.mem_cons.1 hb with rfl | hb
    · exact decide_eq_true (Ne.symm h.1)
    · exact decide_eq_true fun heq => h.2 (heq ▸ hb)
  have hstop : after.dropWhile (· ≠ delim) = after := by
    rcases hafter with rfl | ⟨s', rfl⟩
    · rfl
    · exact List.dropWhile_cons_of_neg (by simp)
  rw [fromToken, hlead, List.dropWhile_append_of_pos hmem, hstop]

/-- The text at a position: the bytes before the next NUL. -/
def textAt (mem : List UInt8) (pos : ℕ) : List UInt8 := (mem.drop pos).takeWhile (· ≠ 0)

/-- `strtok` from the position it remembers, or from the one it is given: the token
it finds, the buffer afterwards, and the position it remembers next. -/
def strtok (delim : UInt8) (mem : List UInt8) (pos : ℕ) : Except Fault (Option ℕ × List UInt8 × ℕ) := do
  let token := pos + ((mem.drop pos).takeWhile (· = delim)).length
  if (← readAt mem token) = 0 then .ok (none, mem, token)
  else
    let stop := token + ((mem.drop token).takeWhile fun b => b ≠ delim ∧ b ≠ 0).length
    if (← readAt mem stop) = 0 then .ok (some token, mem, stop)
    else .ok (some token, mem.set stop 0, stop + 1)

/-- `strtok` writes inside the buffer only. -/
theorem strtok_length {pos pos' : ℕ} {token : Option ℕ} {mem' : List UInt8}
    (h : strtok delim mem pos = .ok (token, mem', pos')) : mem'.length = mem.length := by
  obtain ⟨b, -, h⟩ := Run.bind_eq_ok.1 h
  split at h
  · cases h
    rfl
  · obtain ⟨b', -, h⟩ := Run.bind_eq_ok.1 h
    split at h
    · cases h
      rfl
    · cases h
      exact List.length_set

theorem readAt_append (b : UInt8) : readAt (pre ++ b :: rest) pre.length = .ok b :=
  readAt_eq_ok.2 (by simp)

theorem textAt_append (pre rest : List UInt8) (h : 0 ∉ s) : textAt (pre ++ s ++ 0 :: rest) pre.length = s := by
  have hpos : ∀ b ∈ s, decide (b ≠ 0) = true := fun b hb => by
    simpa using fun h0 : b = 0 => h (h0 ▸ hb)
  rw [textAt, List.append_assoc, List.drop_left, List.takeWhile_append_of_pos hpos]
  simp

/-- A text is in the buffer from its position on. -/
theorem readAt_textAt {pos i : ℕ} {b : UInt8} (h : (textAt mem pos)[i]? = some b) :
    readAt mem (pos + i) = .ok b := by
  obtain ⟨rest, hrest⟩ : textAt mem pos <+: mem.drop pos := List.takeWhile_prefix _
  have hlt : i < (textAt mem pos).length := (List.getElem?_eq_some_iff.1 h).1
  rw [readAt_eq_ok, ← List.getElem?_drop, ← hrest, List.getElem?_append_left hlt]
  exact h

/-- The bytes before the first NUL are a text. -/
theorem zero_notMem_text (bytes : List UInt8) : 0 ∉ bytes.takeWhile (· ≠ 0) := by
  intro h
  simpa using List.all_eq_true.1 List.all_takeWhile 0 h

/-- A piece of a list ends where the predicate first fails. -/
theorem takeWhile_append_of_head {p : UInt8 → Bool} {w r : List UInt8} (hw : ∀ b ∈ w, p b = true)
    (hr : ∀ b r', r = b :: r' → p b = false) : (w ++ r).takeWhile p = w := by
  rw [List.takeWhile_append_of_pos hw]
  cases r with
  | nil => simp
  | cons b r => rw [List.takeWhile_cons_of_neg (by simp [hr b r rfl]), List.append_nil]

/-- Where a call of `strtok` finds the next token and where that token ends. -/
theorem strtok_eq (pre : List UInt8) {lead : List UInt8} (hlead : ∀ b ∈ lead, b = delim)
    (hne : tok ≠ []) (htok : delim ∉ tok) (h0 : 0 ∉ tok) (b : UInt8) (after : List UInt8)
    (hb : b = delim ∨ b = 0) :
    strtok delim (pre ++ lead ++ tok ++ b :: after) pre.length
      = if b = 0 then
          .ok (some (pre ++ lead).length, pre ++ lead ++ tok ++ b :: after, (pre ++ lead ++ tok).length)
        else .ok (some (pre ++ lead).length, pre ++ lead ++ tok ++ 0 :: after,
          (pre ++ lead ++ tok).length + 1) := by
  obtain ⟨c, tok, rfl⟩ := List.exists_cons_of_ne_nil hne
  rw [List.mem_cons, not_or] at htok h0
  have hspan₁ : ((pre ++ lead ++ (c :: tok) ++ b :: after).drop pre.length).takeWhile (· = delim) = lead := by
    rw [List.append_assoc, List.append_assoc, List.drop_left]
    refine takeWhile_append_of_head (fun b hb => decide_eq_true (hlead b hb)) ?_
    rintro x r h
    cases h
    exact decide_eq_false (Ne.symm htok.1)
  have hread₁ : readAt (pre ++ lead ++ (c :: tok) ++ b :: after) (pre ++ lead).length = .ok c := by
    rw [List.append_assoc _ (c :: tok), List.cons_append]
    exact readAt_append c
  have hspan₂ : ((pre ++ lead ++ (c :: tok) ++ b :: after).drop (pre ++ lead).length).takeWhile
      (fun b => b ≠ delim ∧ b ≠ 0) = c :: tok := by
    rw [List.append_assoc _ (c :: tok), List.drop_left]
    refine takeWhile_append_of_head (fun x hx => decide_eq_true ?_) ?_
    · rcases List.mem_cons.1 hx with rfl | hx
      · exact ⟨Ne.symm htok.1, Ne.symm h0.1⟩
      · exact ⟨fun h => htok.2 (h ▸ hx), fun h => h0.2 (h ▸ hx)⟩
    · rintro x r h
      cases h
      exact decide_eq_false (by tauto)
  have hread₂ : readAt (pre ++ lead ++ (c :: tok) ++ b :: after) (pre ++ lead ++ (c :: tok)).length = .ok b :=
    readAt_append b
  have hset : (pre ++ lead ++ (c :: tok) ++ b :: after).set (pre ++ lead ++ (c :: tok)).length 0
      = pre ++ lead ++ (c :: tok) ++ 0 :: after := by
    rw [List.set_append_right _ _ le_rfl, Nat.sub_self, List.set_cons_zero]
  have hc : ¬ c = 0 := Ne.symm h0.1
  rw [strtok]
  simp only [hspan₁, ← List.length_append, hread₁, Run.ok_bind, if_neg hc, hspan₂, hread₂, hset]

/-- In a text without tokens `strtok` finds none. -/
theorem strtok_none (delim : UInt8) (pre rest : List UInt8) (hd : delim ≠ 0) (hall : ∀ b ∈ s, b = delim) :
    strtok delim (pre ++ s ++ 0 :: rest) pre.length
      = .ok (none, pre ++ s ++ 0 :: rest, (pre ++ s).length) := by
  have hspan : ((pre ++ s ++ 0 :: rest).drop pre.length).takeWhile (· = delim) = s := by
    rw [List.append_assoc, List.drop_left]
    refine takeWhile_append_of_head (fun b hb => decide_eq_true (hall b hb)) ?_
    rintro b r h
    cases h
    exact decide_eq_false hd.symm
  rw [strtok, hspan, ← List.length_append, readAt_append]
  rfl

/-- **The first token of a text.**  `strtok` returns its position, terminates it in the
buffer and remembers a position at which the text with the other tokens begins.  None of
this depends on what follows the text. -/
theorem strtok_token (delim : UInt8) (pre : List UInt8) (hd : delim ≠ 0) (h0 : 0 ∉ s)
    (hsome : ¬ ∀ b ∈ s, b = delim) :
    ∃ tok token pre' s', tokens delim s = tok :: tokens delim s' ∧ 0 ∉ s' ∧
      (pre' ++ s').length = (pre ++ s).length ∧
      token + (fromToken delim 0 s).length = (pre ++ s).length ∧
      (∀ n, fromToken delim n s' = fromToken delim (n + 1) s) ∧
      ∀ rest, strtok delim (pre ++ s ++ 0 :: rest) pre.length
          = .ok (some token, pre' ++ s' ++ 0 :: rest, pre'.length) ∧
        textAt (pre' ++ s' ++ 0 :: rest) token = tok := by
  rcases tokens_cases delim s with hall | ⟨lead, tok, after, rfl, hlead, hne, htok, hafter⟩
  · exact absurd hall hsome
  simp only [List.mem_append, not_or] at h0
  obtain ⟨⟨-, h0tok⟩, h0after⟩ := h0
  have htokens : ∀ t, tokens delim (lead ++ t) = tokens delim t := fun t =>
    tokens_append_of_forall_eq hlead
  have hstart : fromToken delim 0 (lead ++ tok ++ after) = tok ++ after := by
    rw [List.append_assoc, fromToken_append_of_forall_eq hlead]
    obtain ⟨c, tok, rfl⟩ := List.exists_cons_of_ne_nil hne
    exact List.dropWhile_cons_of_neg (by simpa using fun h => htok (List.mem_cons.2 (.inl h.symm)))
  have hlength : (pre ++ lead).length + (fromToken delim 0 (lead ++ tok ++ after)).length
      = (pre ++ (lead ++ tok ++ after)).length := by
    rw [hstart]
    simp only [List.length_append]
    omega
  have hnext : ∀ n, fromToken delim (n + 1) (lead ++ tok ++ after) = fromToken delim n after := by
    intro n
    rw [List.append_assoc, fromToken_append_of_forall_eq hlead, fromToken_succ_append hne htok hafter]
  rcases hafter with rfl | ⟨s', rfl⟩
  · -- the token ends with the text
    refine ⟨tok, (pre ++ lead).length, pre ++ lead ++ tok, [], ?_, List.not_mem_nil, ?_, hlength,
      fun n => (hnext n).symm, fun rest => ⟨?_, ?_⟩⟩
    · rw [List.append_nil, htokens, tokens_of_not_mem hne htok, tokens_nil]
    · simp only [List.append_nil, List.append_assoc]
    · have hcall := strtok_eq pre hlead hne htok h0tok 0 rest (.inr rfl)
      rw [if_pos rfl] at hcall
      simpa [List.append_assoc] using hcall
    · simpa [List.append_assoc] using textAt_append (pre ++ lead) rest h0tok
  · -- a delimiter ends the token
    refine ⟨tok, (pre ++ lead).length, pre ++ lead ++ tok ++ [0], s', ?_, ?_, ?_, hlength, fun n => ?_,
      fun rest => ⟨?_, ?_⟩⟩
    · rw [List.append_assoc, htokens, tokens_append_delim hne htok]
    · exact fun h => h0after (List.mem_cons_of_mem _ h)
    · simp only [List.length_append, List.length_cons, List.length_nil]
      omega
    · rw [hnext]
      exact (fromToken_append_of_forall_eq (show ∀ b ∈ [delim], b = delim by simp) n).symm
    · have hcall := strtok_eq pre hlead hne htok h0tok delim (s' ++ 0 :: rest) (.inl rfl)
      rw [if_neg hd] at hcall
      simpa [List.append_assoc, Nat.add_assoc] using hcall
    · simpa [List.append_assoc] using textAt_append (pre ++ lead) (s' ++ 0 :: rest) h0tok

/-- **`strtok` delivers the tokens of the text.**  At the beginning of a text that
NUL ends, a call finds no token exactly if there is none.  Otherwise it returns
the first one, terminated in the buffer, and remembers a position at which the
text with the other tokens begins. -/
theorem strtok_spec (delim : UInt8) (pre rest : List UInt8) (hd : delim ≠ 0) (h0 : 0 ∉ s) :
    (tokens delim s = [] ∧ ∃ pos, strtok delim (pre ++ s ++ 0 :: rest) pre.length
      = .ok (none, pre ++ s ++ 0 :: rest, pos)) ∨
    ∃ tok token pre' s', tokens delim s = tok :: tokens delim s' ∧ 0 ∉ s' ∧
      strtok delim (pre ++ s ++ 0 :: rest) pre.length
        = .ok (some token, pre' ++ s' ++ 0 :: rest, pre'.length) ∧
      textAt (pre' ++ s' ++ 0 :: rest) token = tok := by
  by_cases hall : ∀ b ∈ s, b = delim
  · exact .inl ⟨tokens_of_forall_eq hall, _, strtok_none delim pre rest hd hall⟩
  · obtain ⟨tok, token, pre', s', htoks, h0', -, -, -, hcall⟩ := strtok_token delim pre hd h0 hall
    exact .inr ⟨tok, token, pre', s', htoks, h0', (hcall rest).1, (hcall rest).2⟩

/-- `isspace`. -/
def isSpace (b : UInt8) : Bool := b = 32 ∨ (9 ≤ b ∧ b ≤ 13)

/-- `isdigit`. -/
def isDigit (b : UInt8) : Bool := 48 ≤ b ∧ b ≤ 57

/-- The number a row of decimal digits denotes. -/
def digitsValue (ds : List UInt8) : ℕ := ds.foldl (fun n b => 10 * n + (b.toNat - 48)) 0

/-- An optional sign: whether it is a minus, and the text after it. -/
def sign : List UInt8 → Bool × List UInt8
  | [] => (false, [])
  | b :: s => if b = 45 then (true, s) else if b = 43 then (false, s) else (false, b :: s)

/-- The integer `strtol` reads in base 10 before it is fitted into a `long`: white
space, a sign and digits; 0 if there are none. -/
def decimalInt (s : List UInt8) : ℤ :=
  let (negative, s) := sign (s.dropWhile isSpace)
  let n : ℤ := digitsValue (s.takeWhile isDigit)
  if negative then -n else n

/-- The exponent after the digits of a decimal number: `e`, a sign and digits; 0 if it
is not complete. -/
def decimalExponent : List UInt8 → ℤ
  | [] => 0
  | b :: s =>
      if b = 69 ∨ b = 101 then
        let (negative, s) := sign s
        let n : ℤ := digitsValue (s.takeWhile isDigit)
        if negative then -n else n
      else 0

/-- A text, after white space and a sign, that `strtod` does not read as a decimal
number: it begins with `inf`, `nan` or `0x` in any case. -/
def notDecimal (s : List UInt8) : Bool :=
  let lower := (s.take 3).map fun b => if 65 ≤ b ∧ b ≤ 90 then b + 32 else b
  lower = [105, 110, 102] ∨ lower = [110, 97, 110] ∨ lower.take 2 = [48, 120]

/-- The number `strtod` reads before it is rounded: white space, a sign, digits with
an optional point, and an exponent; 0 if there are no digits.  `none` is a text it
reads differently. -/
def decimalRat (s : List UInt8) : Option ℚ :=
  let (negative, s) := sign (s.dropWhile isSpace)
  if notDecimal s then none
  else
    let whole := s.takeWhile isDigit
    let rest := s.dropWhile isDigit
    let (fraction, rest) :=
      if rest.head? = some 46 then (rest.tail.takeWhile isDigit, rest.tail.dropWhile isDigit) else ([], rest)
    if whole = [] ∧ fraction = [] then some 0
    else
      let value : ℚ := digitsValue (whole ++ fraction) / 10 ^ fraction.length * 10 ^ decimalExponent rest
      some (if negative then -value else value)

end CString
end GasSensor
