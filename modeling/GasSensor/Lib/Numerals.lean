/-
# Numbers as text

How C and Python print numbers, as far as what is printed is read again:
`formatInt` is the conversion `%d` of `printf`, `Decimal.repr` is `repr` of a
Python `float`, which an f-string uses.  A `float` is the decimal number its
`repr` shows; the rounding of a number to the nearest `float` is left out.

`digitsValue_digits` and `decimalRat_repr` are the round trips with the
conversions of the C library.
-/

import GasSensor.Lib.CString
import Mathlib.Data.List.DropRight
import Mathlib.Algebra.Order.Field.Basic
import Mathlib.Tactic.FieldSimp
import Mathlib.Tactic.NormNum
import Mathlib.Tactic.Ring

namespace GasSensor
namespace Numeral

open CString

/-- The bytes of an ASCII text. -/
def ascii (s : String) : List UInt8 := s.toList.map fun c => UInt8.ofNat c.toNat

/-- The decimal digits of a number, `0` for zero. -/
def digits (n : ℕ) : List UInt8 := ascii (Nat.repr n)

/-- A row of digits. -/
def AllDigits (ds : List UInt8) : Prop := ∀ b ∈ ds, isDigit b = true

variable {a b w f r ds : List UInt8} {n : ℕ}

theorem AllDigits.append (ha : AllDigits a) (hb : AllDigits b) : AllDigits (a ++ b) :=
  List.forall_mem_append.2 ⟨ha, hb⟩

theorem allDigits_zeros (k : ℕ) : AllDigits (List.replicate k 48) := by
  intro b hb
  rw [List.eq_of_mem_replicate hb]
  decide

theorem digits_eq (n : ℕ) : digits n = (Nat.toDigits 10 n).map fun c => UInt8.ofNat c.toNat := by
  rw [digits, ascii, Nat.toList_repr]

/-- The number of digits. -/
theorem length_digits_le {n k : ℕ} (hk : 0 < k) (h : n < 10 ^ k) : (digits n).length ≤ k := by
  rw [digits_eq, List.length_map, Nat.length_toDigits_le_iff (by decide) hk]
  exact h

theorem digits_ne_nil (n : ℕ) : digits n ≠ [] := by
  rw [digits_eq, Ne, List.map_eq_nil_iff]
  exact Nat.toDigits_ne_nil

/-- The code of a digit. -/
theorem toNat_of_isDigit {c : Char} (h : c.isDigit = true) :
    48 ≤ c.toNat ∧ c.toNat ≤ 57 ∧ (UInt8.ofNat c.toNat).toNat = c.toNat := by
  rw [Char.isDigit, Bool.and_eq_true, decide_eq_true_eq, decide_eq_true_eq] at h
  have h48 : 48 ≤ c.toNat := h.1
  have h57 : c.toNat ≤ 57 := h.2
  refine ⟨h48, h57, ?_⟩
  rw [UInt8.toNat_ofNat']
  omega

theorem allDigits_digits (n : ℕ) : AllDigits (digits n) := by
  rw [digits_eq]
  intro b hb
  obtain ⟨c, hc, rfl⟩ := List.mem_map.1 hb
  obtain ⟨h48, h57, htoNat⟩ := toNat_of_isDigit (Nat.isDigit_of_mem_toDigits (by decide) (by decide) hc)
  rw [isDigit, decide_eq_true_eq, UInt8.le_iff_toNat_le, UInt8.le_iff_toNat_le, htoNat]
  exact ⟨h48, h57⟩

/-- **Digits denote the number they are the digits of.** -/
@[simp] theorem digitsValue_digits (n : ℕ) : digitsValue (digits n) = n := by
  have hfold : ∀ (l : List Char) (k : ℕ), (∀ c ∈ l, c.isDigit = true) →
      (l.map fun c => UInt8.ofNat c.toNat).foldl (fun n b => 10 * n + (b.toNat - 48)) k
        = Nat.ofDigitChars 10 l k := by
    intro l
    induction l with
    | nil => exact fun k _ => Nat.ofDigitChars_nil.symm
    | cons c l ih =>
        intro k hl
        rw [List.map_cons, List.foldl_cons, Nat.ofDigitChars_cons,
          (toNat_of_isDigit (hl c List.mem_cons_self)).2.2]
        exact ih _ fun c' hc' => hl c' (List.mem_cons_of_mem c hc')
  rw [digitsValue, digits_eq, hfold _ _ fun c => Nat.isDigit_of_mem_toDigits (by decide) (by decide)]
  exact Nat.ofDigitChars_ten_toDigits

theorem digitsValue_append (a b : List UInt8) :
    digitsValue (a ++ b) = digitsValue a * 10 ^ b.length + digitsValue b := by
  induction b using List.reverseRecOn with
  | nil => simp [digitsValue]
  | append_singleton b c ih =>
      have hstep : ∀ l : List UInt8, digitsValue (l ++ [c]) = 10 * digitsValue l + (c.toNat - 48) := by
        intro l
        rw [digitsValue, List.foldl_append]
        rfl
      rw [← List.append_assoc, hstep, hstep, ih, List.length_append, List.length_singleton, pow_succ]
      ring

theorem digitsValue_zeros (k : ℕ) : digitsValue (List.replicate k 48) = 0 := by
  induction k with
  | zero => rfl
  | succ k ih =>
      rw [List.replicate_succ, ← List.singleton_append, digitsValue_append, ih]
      simp [digitsValue]

/-- `%d`. -/
def formatInt (x : ℤ) : List UInt8 := if x < 0 then 45 :: digits x.natAbs else digits x.natAbs

theorem formatInt_ne_nil (x : ℤ) : formatInt x ≠ [] := by
  unfold formatInt
  split
  · exact List.cons_ne_nil _ _
  · exact digits_ne_nil _

/-- The text does not go on with a digit. -/
def NoDigit (r : List UInt8) : Prop := ∀ b r', r = b :: r' → isDigit b = false

theorem noDigit_nil : NoDigit [] := fun _ _ h => nomatch h

theorem noDigit_cons {b : UInt8} (h : isDigit b = false) : NoDigit (b :: r) := by
  intro b' r' heq
  rw [← (List.cons.inj heq).1]
  exact h

theorem takeWhile_digits (hw : AllDigits w) (hr : NoDigit r) : (w ++ r).takeWhile isDigit = w :=
  takeWhile_append_of_head hw hr

theorem dropWhile_digits (hw : AllDigits w) (hr : NoDigit r) : (w ++ r).dropWhile isDigit = r := by
  have := List.takeWhile_append_dropWhile (p := isDigit) (l := w ++ r)
  rw [takeWhile_digits hw hr] at this
  exact List.append_cancel_left this

/-- A digit is neither white space nor a sign. -/
theorem sign_digits (hw : AllDigits w) (hne : w ≠ []) : sign ((w ++ r).dropWhile isSpace) = (false, w ++ r) := by
  obtain ⟨c, w, rfl⟩ := List.exists_cons_of_ne_nil hne
  have hc : isDigit c = true := hw c List.mem_cons_self
  rw [isDigit, decide_eq_true_eq, UInt8.le_iff_toNat_le, UInt8.le_iff_toNat_le] at hc
  have h48 : (48 : UInt8).toNat = 48 := rfl
  have h57 : (57 : UInt8).toNat = 57 := rfl
  have hspace : isSpace c = false := by
    have h32 : (32 : UInt8).toNat = 32 := rfl
    have h13 : (13 : UInt8).toNat = 13 := rfl
    rw [isSpace, decide_eq_false_iff_not, ← UInt8.toNat_inj, UInt8.le_iff_toNat_le, UInt8.le_iff_toNat_le]
    omega
  have hminus : ¬ c = 45 := by
    rintro rfl
    exact absurd hc (by decide)
  have hplus : ¬ c = 43 := by
    rintro rfl
    exact absurd hc (by decide)
  rw [List.cons_append, List.dropWhile_cons_of_neg (by simp [hspace]), sign, if_neg hminus, if_neg hplus]

/-- An integer is read up to the first byte that is not a digit. -/
theorem decimalInt_digits (hw : AllDigits w) (hne : w ≠ []) (hr : NoDigit r) :
    decimalInt (w ++ r) = digitsValue w := by
  rw [decimalInt, sign_digits hw hne]
  simp only [takeWhile_digits hw hr]
  rfl

/-- **A printed integer is read back.** -/
theorem decimalInt_formatInt (x : ℤ) (hr : NoDigit r) : decimalInt (formatInt x ++ r) = x := by
  have hne := digits_ne_nil x.natAbs
  have hall := allDigits_digits x.natAbs
  unfold formatInt
  split
  next hx =>
    have hsign : sign ((45 :: digits x.natAbs ++ r).dropWhile isSpace) = (true, digits x.natAbs ++ r) := rfl
    rw [decimalInt, hsign]
    simp only [takeWhile_digits hall hr, digitsValue_digits, if_true]
    omega
  next hx =>
    rw [decimalInt_digits hall hne hr, digitsValue_digits]
    omega

/-- A text with a digit and then no `x` is a decimal number. -/
theorem notDecimal_digits (hw : AllDigits w) (hne : w ≠ []) (hr : ∀ b r', r = b :: r' → b = 46 ∨ b = 101) :
    notDecimal (w ++ r) = false := by
  obtain ⟨c, w, rfl⟩ := List.exists_cons_of_ne_nil hne
  have hdigit : ∀ b, isDigit b = true → 48 ≤ b.toNat ∧ b.toNat ≤ 57 := by
    intro b hb
    rw [isDigit, decide_eq_true_eq, UInt8.le_iff_toNat_le, UInt8.le_iff_toNat_le] at hb
    exact hb
  have hlower : ∀ b : UInt8, b.toNat ≤ 57 → (if 65 ≤ b ∧ b ≤ 90 then b + 32 else b) = b := by
    intro b hb
    refine if_neg fun h => ?_
    have := UInt8.le_iff_toNat_le.1 h.1
    have h65 : (65 : UInt8).toNat = 65 := rfl
    omega
  have hc := hdigit c (hw c List.mem_cons_self)
  have hfirst : ∀ x : UInt8, 57 < x.toNat → c ≠ x := by
    rintro x hx rfl
    omega
  -- the byte after the first digit, if there is one
  have hsecond : ∀ b s, w ++ r = b :: s → (if 65 ≤ b ∧ b ≤ 90 then b + 32 else b) ≠ 120 := by
    intro b s hs
    cases w with
    | nil =>
        rcases hr b s hs with rfl | rfl <;> decide
    | cons c' w =>
        obtain ⟨rfl, -⟩ := List.cons.inj hs
        have hb := hdigit c' (hw c' (by simp))
        rw [hlower c' hb.2]
        rintro rfl
        exact absurd hb.2 (by decide)
  rw [notDecimal, decide_eq_false_iff_not]
  rintro (h | h | h)
  · rw [List.cons_append, List.take_succ_cons, List.map_cons, hlower c hc.2, List.cons.injEq] at h
    exact hfirst 105 (by decide) h.1
  · rw [List.cons_append, List.take_succ_cons, List.map_cons, hlower c hc.2, List.cons.injEq] at h
    exact hfirst 110 (by decide) h.1
  · cases hs : w ++ r with
    | nil =>
        rw [List.cons_append, hs] at h
        simp at h
    | cons b s =>
        rw [List.cons_append, hs, List.take_succ_cons, List.take_succ_cons, List.map_cons, List.map_cons,
          List.take_succ_cons, List.take_succ_cons, List.cons.injEq, List.cons.injEq] at h
        exact hsecond b s hs h.2.1

/-- The sign of a number that is printed. -/
def signText (negative : Bool) : List UInt8 := if negative then [45] else []

/-- The value with that sign. -/
def signed (negative : Bool) (x : ℚ) : ℚ := if negative then -x else x

theorem sign_signText (negative : Bool) (hw : AllDigits w) (hne : w ≠ []) :
    sign ((signText negative ++ (w ++ r)).dropWhile isSpace) = (negative, w ++ r) := by
  match negative with
  | true => rfl
  | false =>
      change sign ((w ++ r).dropWhile isSpace) = (false, w ++ r)
      exact sign_digits hw hne

/-- A decimal number with a point, and perhaps an exponent. -/
theorem decimalRat_point (negative : Bool) (hw : AllDigits w) (hne : w ≠ []) (hf : AllDigits f)
    (hr : NoDigit r) :
    decimalRat (signText negative ++ (w ++ 46 :: (f ++ r))) = some (signed negative
      (digitsValue (w ++ f) / 10 ^ f.length * 10 ^ decimalExponent r)) := by
  have hpoint : NoDigit (46 :: (f ++ r)) := noDigit_cons (by decide)
  have hdecimal : notDecimal (w ++ 46 :: (f ++ r)) = false :=
    notDecimal_digits hw hne fun b r' h => .inl (List.cons.inj h).1.symm
  rw [decimalRat, sign_signText negative hw hne]
  simp only [hdecimal, Bool.false_eq_true, if_false, takeWhile_digits hw hpoint, dropWhile_digits hw hpoint,
    List.head?_cons, if_true, List.tail_cons, takeWhile_digits hf hr, dropWhile_digits hf hr, hne, false_and]
  rfl

/-- A decimal number with an exponent and no point. -/
theorem decimalRat_exponent (negative : Bool) (hw : AllDigits w) (hne : w ≠ []) :
    decimalRat (signText negative ++ (w ++ 101 :: r)) = some (signed negative
      (digitsValue w * 10 ^ decimalExponent (101 :: r))) := by
  have hexp : NoDigit (101 :: r) := noDigit_cons (by decide)
  have hdecimal : notDecimal (w ++ 101 :: r) = false :=
    notDecimal_digits hw hne fun b r' h => .inr (List.cons.inj h).1.symm
  have hhead : ¬ (101 :: r).head? = some 46 := by simp
  rw [decimalRat, sign_signText negative hw hne]
  simp only [hdecimal, Bool.false_eq_true, if_false, takeWhile_digits hw hexp, dropWhile_digits hw hexp,
    hhead, hne, false_and, List.append_nil, List.length_nil, pow_zero, div_one]
  rfl

/-- The number `± mantissa / 10 ^ scale`. -/
structure Decimal where
  negative : Bool
  mantissa : ℕ
  scale : ℕ
  deriving DecidableEq

/-- The exponent of a `repr`: a sign and two digits at least. -/
def reprExponent (e : ℤ) : List UInt8 :=
  (if e < 0 then 45 else 43) :: if e.natAbs < 10 then 48 :: digits e.natAbs else digits e.natAbs

/-- The digits `ds` with the point after the first `decpt` of them, where zeros stand for
digits that are missing on either side; with an exponent if the point is far away. -/
def reprDigits (ds : List UInt8) (decpt : ℤ) : List UInt8 :=
  if decpt ≤ -4 ∨ 16 < decpt then
    if ds.length = 1 then ds ++ 101 :: reprExponent (decpt - 1)
    else ds.take 1 ++ 46 :: (ds.drop 1 ++ 101 :: reprExponent (decpt - 1))
  else if decpt ≤ 0 then 48 :: 46 :: (List.replicate (-decpt).toNat 48 ++ ds)
  else if ds.length ≤ decpt.toNat then ds ++ List.replicate (decpt.toNat - ds.length) 48 ++ [46, 48]
  else ds.take decpt.toNat ++ 46 :: ds.drop decpt.toNat

namespace Decimal

/-- The number. -/
def value (x : Decimal) : ℚ := signed x.negative (x.mantissa / 10 ^ x.scale)

/-- The digits that are printed: those of the mantissa without the zeros at the end. -/
def significant (x : Decimal) : List UInt8 := (digits x.mantissa).rdropWhile (· = 48)

/-- `repr` of a `float`. -/
def repr (x : Decimal) : List UInt8 :=
  signText x.negative ++ if x.mantissa = 0 then [48, 46, 48]
    else reprDigits x.significant ((digits x.mantissa).length - x.scale)

end Decimal

/-- The exponent of a `repr` is read back. -/
theorem decimalExponent_reprExponent (e : ℤ) : decimalExponent (101 :: reprExponent e) = e := by
  have hdigits : ∀ n : ℕ, digitsValue ((if n < 10 then 48 :: digits n else digits n).takeWhile isDigit) = n := by
    intro n
    have hzero : AllDigits [48] := allDigits_zeros 1
    split
    · have hall := (hzero.append (allDigits_digits n))
      have htake := takeWhile_digits hall noDigit_nil
      rw [List.append_nil, List.singleton_append] at htake
      rw [htake, ← List.singleton_append, digitsValue_append, digitsValue_digits]
      simp [digitsValue]
    · have htake := takeWhile_digits (allDigits_digits n) noDigit_nil
      rw [List.append_nil] at htake
      rw [htake, digitsValue_digits]
  rw [decimalExponent, if_pos (.inr rfl), reprExponent]
  by_cases he : e < 0
  · simp only [if_pos he, sign, if_true, hdigits]
    omega
  · have hplus : ¬ (43 : UInt8) = 45 := by decide
    simp only [if_neg he, sign, if_neg hplus, if_true, hdigits, Bool.false_eq_true, if_false]
    omega

/-- A decimal number with a point and no exponent. -/
theorem decimalRat_fixed (negative : Bool) (hw : AllDigits w) (hne : w ≠ []) (hf : AllDigits f) :
    decimalRat (signText negative ++ (w ++ 46 :: f))
      = some (signed negative (digitsValue (w ++ f) / 10 ^ f.length)) := by
  have hread := decimalRat_point negative hw hne hf noDigit_nil
  rw [List.append_nil, show decimalExponent [] = 0 from rfl, zpow_zero, mul_one] at hread
  exact hread

/-- Digits behind the point make the exponent smaller. -/
theorem div_pow_mul_zpow (v : ℚ) {k : ℕ} {e e' : ℤ} (h : e' + k = e) : v / 10 ^ k * 10 ^ e = v * 10 ^ e' := by
  have h10 : (10 : ℚ) ≠ 0 := by norm_num
  rw [div_mul_eq_mul_div, div_eq_iff (pow_ne_zero _ h10), mul_assoc, ← zpow_natCast, ← zpow_add₀ h10, h]

theorem div_pow_eq (v : ℚ) {k : ℕ} {e : ℤ} (h : e + k = 0) : v / 10 ^ k = v * 10 ^ e := by
  rw [← div_pow_mul_zpow v h, zpow_zero, mul_one]

/-- **Printed digits are read back** with the point where it was put. -/
theorem decimalRat_reprDigits (negative : Bool) (hd : AllDigits ds) (hne : ds ≠ []) (decpt : ℤ) :
    decimalRat (signText negative ++ reprDigits ds decpt)
      = some (signed negative (digitsValue ds * 10 ^ (decpt - ds.length))) := by
  have hlen : 0 < ds.length := List.length_pos_iff.2 hne
  have hsplit : ∀ k, AllDigits (ds.take k) ∧ AllDigits (ds.drop k) := fun k =>
    ⟨fun b hb => hd b (List.mem_of_mem_take hb), fun b hb => hd b (List.mem_of_mem_drop hb)⟩
  have htake : ∀ k, 0 < k → ds.take k ≠ [] := fun k hk h => by
    rcases List.take_eq_nil_iff.1 h with h | h
    · omega
    · exact hne h
  unfold reprDigits
  split
  · -- with an exponent
    split
    next hone =>
      rw [decimalRat_exponent negative hd hne, decimalExponent_reprExponent, hone]
      rfl
    next =>
      have hexp : NoDigit (101 :: reprExponent (decpt - 1)) := noDigit_cons (by decide)
      rw [decimalRat_point negative (hsplit 1).1 (htake 1 one_pos) (hsplit 1).2 hexp,
        decimalExponent_reprExponent, List.take_append_drop, List.length_drop]
      congr 2
      exact div_pow_mul_zpow _ (by omega)
  · split
    · -- zeros between the point and the digits
      rename_i hexp hle
      have hzero : AllDigits [48] := allDigits_zeros 1
      have hfrac := (allDigits_zeros (-decpt).toNat).append hd
      have hvalue : digitsValue ([48] ++ (List.replicate (-decpt).toNat 48 ++ ds)) = digitsValue ds := by
        rw [digitsValue_append, digitsValue_append, digitsValue_zeros]
        simp [digitsValue]
      rw [show 48 :: 46 :: (List.replicate (-decpt).toNat 48 ++ ds)
          = [48] ++ 46 :: (List.replicate (-decpt).toNat 48 ++ ds) from rfl,
        decimalRat_fixed negative hzero (by simp) hfrac, hvalue, List.length_append, List.length_replicate]
      congr 2
      exact div_pow_eq _ (by omega)
    · rename_i hexp hpos
      split
      next hshort =>
        -- zeros between the digits and the point
        have hwhole := hd.append (allDigits_zeros (decpt.toNat - ds.length))
        have hsub : decpt - ds.length = (decpt.toNat - ds.length : ℕ) := by omega
        change decimalRat (signText negative ++ (ds ++ List.replicate (decpt.toNat - ds.length) 48
          ++ 46 :: List.replicate 1 48)) = _
        rw [decimalRat_fixed negative hwhole (by simp [hne]) (allDigits_zeros 1), digitsValue_append,
          digitsValue_append, digitsValue_zeros, digitsValue_zeros, List.length_replicate,
          List.length_replicate, hsub, zpow_natCast]
        congr 2
        push_cast
        field_simp
        ring
      next hlong =>
        rw [decimalRat_fixed negative (hsplit decpt.toNat).1 (htake _ (by omega)) (hsplit decpt.toNat).2,
          List.take_append_drop, List.length_drop]
        congr 2
        exact div_pow_eq _ (by omega)

namespace Decimal

variable {x : Decimal}

theorem allDigits_significant (x : Decimal) : AllDigits x.significant := fun b hb =>
  allDigits_digits x.mantissa b ((List.rdropWhile_prefix _ _).subset hb)

/-- The digits of the mantissa are the significant ones and zeros. -/
theorem digits_eq_significant_append (x : Decimal) :
    ∃ k, digits x.mantissa = x.significant ++ List.replicate k 48 := by
  refine ⟨((digits x.mantissa).rtakeWhile (· = 48)).length, ?_⟩
  have hzeros : (digits x.mantissa).rtakeWhile (· = 48)
      = List.replicate ((digits x.mantissa).rtakeWhile (· = 48)).length 48 :=
    List.eq_replicate_of_mem fun b hb => by simpa using List.mem_rtakeWhile_imp hb
  rw [← hzeros]
  exact List.rdropWhile_append_rtakeWhile.symm

theorem significant_ne_nil (h : x.mantissa ≠ 0) : x.significant ≠ [] := by
  intro hnil
  obtain ⟨k, hk⟩ := digits_eq_significant_append x
  rw [hnil, List.nil_append] at hk
  have := digitsValue_digits x.mantissa
  rw [hk, digitsValue_zeros] at this
  exact h this.symm

/-- **A printed `float` is read back.** -/
theorem decimalRat_repr (x : Decimal) : decimalRat x.repr = some x.value := by
  unfold repr value
  split
  next h0 =>
    have hread := decimalRat_point x.negative (allDigits_zeros 1) (by simp) (allDigits_zeros 1) noDigit_nil
    change decimalRat (signText x.negative ++ ([48] ++ 46 :: ([48] ++ []))) = _ at hread
    rw [h0]
    exact hread.trans (by simp [signed, digitsValue])
  next h0 =>
    obtain ⟨k, hk⟩ := digits_eq_significant_append x
    have hvalue : x.mantissa = digitsValue x.significant * 10 ^ k := by
      have := digitsValue_digits x.mantissa
      rw [hk, digitsValue_append, digitsValue_zeros, List.length_replicate, Nat.add_zero] at this
      exact this.symm
    rw [decimalRat_reprDigits x.negative (allDigits_significant x) (significant_ne_nil h0), hk,
      List.length_append, List.length_replicate]
    refine congrArg (fun value => some (signed x.negative value)) ?_
    have h10 : (10 : ℚ) ≠ 0 := by norm_num
    have hexp : ((x.significant.length + k : ℕ) : ℤ) - x.scale - x.significant.length = k - x.scale := by
      push_cast
      ring
    rw [hexp, zpow_sub₀ h10, zpow_natCast, zpow_natCast, hvalue]
    push_cast
    ring

/-- `float` of an integer. -/
def ofInt (x : ℤ) : Decimal := ⟨decide (x < 0), x.natAbs, 0⟩

/-- The `repr` of a number without decimals shows its digits and `.0`. -/
theorem repr_natural {n : ℕ} (h0 : n ≠ 0) (h : n < 10 ^ 16) :
    (⟨false, n, 0⟩ : Decimal).repr = digits n ++ [46, 48] := by
  have hlen : (digits n).length ≤ 16 := length_digits_le (by decide) h
  obtain ⟨k, hk⟩ := digits_eq_significant_append ⟨false, n, 0⟩
  have hne := significant_ne_nil (x := ⟨false, n, 0⟩) h0
  have hpos := List.length_pos_iff.2 hne
  change digits n = (⟨false, n, 0⟩ : Decimal).significant ++ _ at hk
  have hdecpt : (digits n).length = (⟨false, n, 0⟩ : Decimal).significant.length + k := by
    rw [hk, List.length_append, List.length_replicate]
  have hdigits : reprDigits (⟨false, n, 0⟩ : Decimal).significant ((digits n).length - (0 : ℕ))
      = digits n ++ [46, 48] := by
    have hzeros : ((digits n).length - (0 : ℕ) : ℤ).toNat - (⟨false, n, 0⟩ : Decimal).significant.length = k := by
      omega
    rw [reprDigits, if_neg (by omega), if_neg (by omega), if_pos (by omega), hzeros, ← hk]
  rw [repr, if_neg h0, show signText false = [] from rfl, List.nil_append]
  exact hdigits

/-- The `repr` of a positive integer shows it and `.0`. -/
theorem repr_ofInt {z : ℤ} (h0 : 0 < z) (h : z < 10 ^ 16) : (ofInt z).repr = formatInt z ++ [46, 48] := by
  have hneg : ¬ z < 0 := by omega
  rw [formatInt, if_neg hneg, ofInt, decide_eq_false hneg]
  exact repr_natural (by omega) (by omega)

/-- A byte that can occur in a printed number. -/
def IsNumeral (b : UInt8) : Prop := isDigit b = true ∨ b = 46 ∨ b = 101 ∨ b = 43 ∨ b = 45

instance isNumeralDecidable (b : UInt8) : Decidable (IsNumeral b) := inferInstanceAs (Decidable (_ ∨ _))

theorem isNumeral_reprExponent (e : ℤ) : ∀ b ∈ reprExponent e, IsNumeral b := by
  intro b hb
  rcases List.mem_cons.1 hb with rfl | hb
  · split
    · exact .inr (.inr (.inr (.inr rfl)))
    · exact .inr (.inr (.inr (.inl rfl)))
  · left
    split at hb
    · rcases List.mem_cons.1 hb with rfl | hb
      · rfl
      · exact allDigits_digits _ b hb
    · exact allDigits_digits _ b hb

theorem isNumeral_reprDigits (hd : AllDigits ds) (decpt : ℤ) : ∀ b ∈ reprDigits ds decpt, IsNumeral b := by
  have htake : ∀ k, ∀ b ∈ ds.take k, IsNumeral b := fun k b hb => .inl (hd b (List.mem_of_mem_take hb))
  have hdrop : ∀ k, ∀ b ∈ ds.drop k, IsNumeral b := fun k b hb => .inl (hd b (List.mem_of_mem_drop hb))
  have hexp : ∀ b ∈ 101 :: reprExponent (decpt - 1), IsNumeral b :=
    List.forall_mem_cons.2 ⟨.inr (.inr (.inl rfl)), isNumeral_reprExponent _⟩
  have hzeros : ∀ k, ∀ b ∈ List.replicate k (48 : UInt8), IsNumeral b := fun k b hb =>
    .inl (allDigits_zeros k b hb)
  have hpoint : IsNumeral 46 := .inr (.inl rfl)
  unfold reprDigits
  split_ifs
  · exact List.forall_mem_append.2 ⟨fun b hb => .inl (hd b hb), hexp⟩
  · exact List.forall_mem_append.2 ⟨htake 1, List.forall_mem_cons.2 ⟨hpoint,
      List.forall_mem_append.2 ⟨hdrop 1, hexp⟩⟩⟩
  · exact List.forall_mem_cons.2 ⟨.inl rfl, List.forall_mem_cons.2 ⟨hpoint,
      List.forall_mem_append.2 ⟨hzeros _, fun b hb => .inl (hd b hb)⟩⟩⟩
  · exact List.forall_mem_append.2 ⟨List.forall_mem_append.2 ⟨fun b hb => .inl (hd b hb), hzeros _⟩,
      List.forall_mem_cons.2 ⟨hpoint, List.forall_mem_singleton.2 (.inl rfl)⟩⟩
  · exact List.forall_mem_append.2 ⟨htake _, List.forall_mem_cons.2 ⟨hpoint, hdrop _⟩⟩

theorem isNumeral_repr (x : Decimal) : ∀ b ∈ x.repr, IsNumeral b := by
  refine List.forall_mem_append.2 ⟨?_, ?_⟩
  · unfold signText
    split
    · exact List.forall_mem_singleton.2 (.inr (.inr (.inr (.inr rfl))))
    · exact List.forall_mem_nil _
  · split
    · exact List.forall_mem_cons.2 ⟨.inl rfl, List.forall_mem_cons.2 ⟨.inr (.inl rfl),
        List.forall_mem_singleton.2 (.inl rfl)⟩⟩
    · exact isNumeral_reprDigits (allDigits_significant x) _

theorem isNumeral_formatInt (x : ℤ) : ∀ b ∈ formatInt x, IsNumeral b := by
  have hdigits : ∀ b ∈ digits x.natAbs, IsNumeral b := fun b hb => .inl (allDigits_digits _ b hb)
  unfold formatInt
  split
  · exact List.forall_mem_cons.2 ⟨.inr (.inr (.inr (.inr rfl))), hdigits⟩
  · exact hdigits

/-- A printed number holds no comma and no NUL. -/
theorem IsNumeral.ne {b : UInt8} (h : IsNumeral b) : b ≠ 44 ∧ b ≠ 0 := by
  constructor <;>
    · rintro rfl
      exact absurd h (by decide)

/-- A text that is read as a number is not empty. -/
theorem repr_ne_nil (x : Decimal) : x.repr ≠ [] := by
  unfold repr reprDigits
  refine List.append_ne_nil_of_right_ne_nil _ ?_
  split_ifs <;> simp

end Decimal

end Numeral
end GasSensor
