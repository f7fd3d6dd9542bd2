/-
# Floating-point numbers

A `Value` is a number of a binary format: a rational, an infinity or not a
number.  An operation computes the exact result and rounds it once; a
`Rounding` says how.  `Rounding.exact` keeps the result, and `Format.nearest`
takes the nearest number of a binary format, of two the even one, as IEEE 754
has it.  What holds of every rounding follows from three facts: it is monotone, and
it keeps small natural numbers and its own results.

The two zeros are one value.  Only the sign of a quotient by zero tells them apart,
and it is the sign of the dividend here.
-/

import Mathlib.Data.Int.Log
import Mathlib.Data.Rat.Floor
import Mathlib.Tactic.FieldSimp
import Mathlib.Tactic.Linarith
import Mathlib.Tactic.NormNum

namespace GasSensor
namespace FloatingPoint

/-- A number of a floating-point format. -/
inductive Value
  | finite (x : ℚ)
  | infinite (negative : Bool)
  | nan
  deriving DecidableEq

namespace Value

/-- The order; a `nan` is not even comparable to itself. -/
protected def Le : Value → Value → Prop
  | finite x, finite y => x ≤ y
  | finite _, infinite negative => negative = false
  | infinite negative, finite _ => negative = true
  | infinite m, infinite n => n = true → m = true
  | _, _ => False

/-- The strict order. -/
protected def Lt : Value → Value → Prop
  | finite x, finite y => x < y
  | finite _, infinite negative => negative = false
  | infinite negative, finite _ => negative = true
  | infinite m, infinite n => m = true ∧ n = false
  | _, _ => False

instance : LE Value := ⟨Value.Le⟩

instance : LT Value := ⟨Value.Lt⟩

instance leDecidable : (a b : Value) → Decidable (a ≤ b)
  | finite x, finite y => inferInstanceAs (Decidable (x ≤ y))
  | finite _, infinite negative => inferInstanceAs (Decidable (negative = false))
  | infinite negative, finite _ => inferInstanceAs (Decidable (negative = true))
  | infinite m, infinite n => inferInstanceAs (Decidable (n = true → m = true))
  | finite _, nan | infinite _, nan | nan, finite _ | nan, infinite _ | nan, nan =>
      inferInstanceAs (Decidable False)

instance ltDecidable : (a b : Value) → Decidable (a < b)
  | finite x, finite y => inferInstanceAs (Decidable (x < y))
  | finite _, infinite negative => inferInstanceAs (Decidable (negative = false))
  | infinite negative, finite _ => inferInstanceAs (Decidable (negative = true))
  | infinite m, infinite n => inferInstanceAs (Decidable (m = true ∧ n = false))
  | finite _, nan | infinite _, nan | nan, finite _ | nan, infinite _ | nan, nan =>
      inferInstanceAs (Decidable False)

variable {a b c : Value} {x y : ℚ}

@[simp] theorem finite_le_finite : finite x ≤ finite y ↔ x ≤ y := Iff.rfl

@[simp] theorem finite_lt_finite : finite x < finite y ↔ x < y := Iff.rfl

theorem ne_nan_of_le (h : a ≤ b) : a ≠ nan ∧ b ≠ nan := by
  match a, b, h with
  | finite _, finite _, _ | finite _, infinite _, _ | infinite _, finite _, _ | infinite _, infinite _, _ =>
      exact ⟨by simp, by simp⟩

protected theorem le_trans (hab : a ≤ b) (hbc : b ≤ c) : a ≤ c := by
  match a, b, c, hab, hbc with
  | finite _, finite _, finite _, hab, hbc => exact (show (_ : ℚ) ≤ _ from hab).trans hbc
  | finite _, finite _, infinite false, _, _ => rfl
  | finite _, infinite false, infinite false, _, _ => rfl
  | infinite true, finite _, finite _, _, _ => rfl
  | infinite true, finite _, infinite false, _, _ => exact fun h => nomatch h
  | infinite true, infinite true, _, _, hbc => exact hbc
  | infinite true, infinite false, infinite false, _, _ => exact fun h => nomatch h
  | infinite false, infinite false, _, _, hbc => exact hbc

protected theorem lt_of_lt_of_le (hab : a < b) (hbc : b ≤ c) : a < c := by
  match a, b, c, hab, hbc with
  | finite _, finite _, finite _, hab, hbc => exact (show (_ : ℚ) < _ from hab).trans_le hbc
  | finite _, finite _, infinite false, _, _ => rfl
  | finite _, infinite false, infinite false, _, _ => rfl
  | infinite true, finite _, finite _, _, _ => rfl
  | infinite true, finite _, infinite false, _, _ => exact ⟨rfl, rfl⟩
  | infinite true, infinite false, infinite false, _, _ => exact ⟨rfl, rfl⟩

/-- A value between two finite ones is finite. -/
theorem exists_finite (hx : finite x ≤ a) (hy : a ≤ finite y) : ∃ z, a = finite z ∧ x ≤ z ∧ z ≤ y := by
  match a, hx, hy with
  | finite z, hx, hy => exact ⟨z, rfl, hx, hy⟩
  | infinite false, _, hy => cases hy
  | infinite true, hx, _ => cases hx

theorem not_lt_of_le (h : a ≤ b) : ¬ b < a := by
  match a, b, h with
  | finite _, finite _, h => exact not_lt.2 (show (_ : ℚ) ≤ _ from h)
  | finite _, infinite false, _ => exact fun hlt => nomatch (show false = true from hlt)
  | infinite true, finite _, _ => exact fun hlt => nomatch (show true = false from hlt)
  | infinite _, infinite _, h => exact fun hlt => nomatch hlt.2.symm.trans (h hlt.1)

theorem le_of_not_lt (ha : a ≠ nan) (hb : b ≠ nan) (h : ¬ b < a) : a ≤ b := by
  match a, b, h with
  | finite _, finite _, h => exact not_lt.1 (show ¬ (_ : ℚ) < _ from h)
  | finite _, infinite false, _ => rfl
  | finite _, infinite true, h => exact absurd rfl h
  | infinite true, finite _, _ => rfl
  | infinite false, finite _, h => exact absurd rfl h
  | infinite true, infinite _, _ => exact fun _ => rfl
  | infinite false, infinite false, _ => exact id
  | infinite false, infinite true, h => exact absurd ⟨rfl, rfl⟩ h
  | nan, _, _ => exact absurd rfl ha
  | finite _, nan, _ | infinite _, nan, _ => exact absurd rfl hb

theorem not_le (ha : a ≠ nan) (hb : b ≠ nan) : ¬ b ≤ a ↔ a < b := by
  constructor
  · intro h
    by_contra hlt
    exact h (le_of_not_lt hb ha hlt)
  · exact fun hlt hle => not_lt_of_le hle hlt

/-- A number that is not negative, truncated to an integer. -/
def truncate : Value → ℕ
  | finite x => ⌊x⌋.toNat
  | _ => 0

theorem lt_truncate_iff (n : ℕ) : n < (finite x).truncate ↔ finite (n + 1) ≤ finite x := by
  rw [truncate, finite_le_finite, Int.lt_toNat, ← Int.add_one_le_iff, Int.le_floor]
  norm_cast

/-- Not below zero, which includes `nan`. -/
def Nonneg (a : Value) : Prop := ¬ a < finite 0

theorem nonneg_infinite : (infinite false).Nonneg := fun h => nomatch h

theorem nonneg_nan : nan.Nonneg := fun h => nomatch h

theorem Nonneg.cases (h : a.Nonneg) : (∃ x, 0 ≤ x ∧ a = finite x) ∨ a = infinite false ∨ a = nan := by
  match a, h with
  | finite x, h => exact .inl ⟨x, not_lt.1 h, rfl⟩
  | infinite false, _ => exact .inr (.inl rfl)
  | infinite true, h => exact absurd rfl h
  | nan, _ => exact .inr (.inr rfl)

/-- The opposite. -/
def neg : Value → Value
  | finite x => finite (-x)
  | infinite negative => infinite (!negative)
  | nan => nan

theorem neg_antitone (h : a ≤ b) : b.neg ≤ a.neg := by
  match a, b, h with
  | finite _, finite _, h => exact neg_le_neg (show (_ : ℚ) ≤ _ from h)
  | finite _, infinite false, _ => rfl
  | infinite true, finite _, _ => rfl
  | infinite true, infinite _, _ => exact fun h => nomatch h
  | infinite false, infinite false, _ => exact id

end Value

/-- A rule that gives an exact result a value. -/
structure Rounding where
  round : ℚ → Value
  monotone : ∀ {x y : ℚ}, x ≤ y → round x ≤ round y
  natCast : ∀ n : ℕ, n < 2 ^ 24 → round n = .finite n
  fixed : ∀ {x y : ℚ}, round x = .finite y → round y = .finite y

namespace Rounding

open Value

/-- No rounding. -/
def exact : Rounding where
  round := finite
  monotone := id
  natCast _ _ := rfl
  fixed _ := rfl

variable (r : Rounding)

/-- A value of another format, or a number. -/
def convert : Value → Value
  | finite x => r.round x
  | infinite negative => infinite negative
  | nan => nan

def add : Value → Value → Value
  | finite x, finite y => r.round (x + y)
  | finite _, infinite negative => infinite negative
  | infinite negative, finite _ => infinite negative
  | infinite m, infinite n => if m = n then infinite m else nan
  | _, _ => nan

def sub (a b : Value) : Value := r.add a b.neg

def mul : Value → Value → Value
  | finite x, finite y => r.round (x * y)
  | finite x, infinite negative => if x = 0 then nan else infinite (negative != decide (x < 0))
  | infinite negative, finite y => if y = 0 then nan else infinite (negative != decide (y < 0))
  | infinite m, infinite n => infinite (m != n)
  | _, _ => nan

def div : Value → Value → Value
  | finite x, finite y =>
      if y = 0 then if x = 0 then nan else infinite (decide (x < 0))
      else r.round (x / y)
  | finite _, infinite _ => finite 0
  | infinite negative, finite y => infinite (negative != decide (y < 0))
  | _, _ => nan

variable {r} {x y : ℚ} {n : ℕ}

@[simp] theorem exact_round (x : ℚ) : exact.round x = finite x := rfl

@[simp] theorem convert_finite (r : Rounding) (x : ℚ) : r.convert (finite x) = r.round x := rfl

@[simp] theorem add_finite (r : Rounding) (x y : ℚ) : r.add (finite x) (finite y) = r.round (x + y) := rfl

@[simp] theorem mul_finite (r : Rounding) (x y : ℚ) : r.mul (finite x) (finite y) = r.round (x * y) := rfl

theorem sub_finite (r : Rounding) (x y : ℚ) : r.sub (finite x) (finite y) = r.round (x - y) := by
  rw [sub_eq_add_neg]
  rfl

theorem div_finite (r : Rounding) (x : ℚ) (hy : y ≠ 0) : r.div (finite x) (finite y) = r.round (x / y) :=
  if_neg hy

theorem round_le (hn : n < 2 ^ 24) (h : x ≤ n) : r.round x ≤ finite n := r.natCast n hn ▸ r.monotone h

theorem le_round (hn : n < 2 ^ 24) (h : n ≤ x) : finite n ≤ r.round x := r.natCast n hn ▸ r.monotone h

/-- A result between small natural numbers stays between them. -/
theorem exists_round (r : Rounding) {m : ℕ} (hn : n < 2 ^ 24) (hm : m ≤ x) (hx : x ≤ n) :
    ∃ y, r.round x = finite y ∧ m ≤ y ∧ y ≤ n := by
  have hmn : m ≤ n := by exact_mod_cast hm.trans hx
  exact exists_finite (le_round (hmn.trans_lt hn) hm) (round_le hn hx)

theorem convert_mono (r : Rounding) {a b : Value} (h : a ≤ b) : r.convert a ≤ r.convert b := by
  match a, b, h with
  | finite _, finite _, h => exact r.monotone h
  | finite x, infinite false, _ =>
      have hle : r.round x ≤ r.round x := r.monotone le_rfl
      match hx : r.round x with
      | finite _ => rw [convert, hx]; rfl
      | infinite _ => rw [convert, hx]; exact fun h => nomatch h
      | nan => exact absurd hx (ne_nan_of_le hle).1
  | infinite true, finite y, _ =>
      have hle : r.round y ≤ r.round y := r.monotone le_rfl
      match hy : r.round y with
      | finite _ => rw [convert, convert, hy]; rfl
      | infinite _ => rw [convert, convert, hy]; exact fun _ => rfl
      | nan => exact absurd hy (ne_nan_of_le hle).1
  | infinite _, infinite _, h => exact h

theorem nonneg_round (r : Rounding) (h : 0 ≤ x) : (r.round x).Nonneg := by
  have hle := le_round (r := r) (n := 0) (x := x) (by decide) (by exact_mod_cast h)
  exact not_lt_of_le (by exact_mod_cast hle)

variable {a b : Value}

theorem nonneg_add (ha : a.Nonneg) (hb : b.Nonneg) : (r.add a b).Nonneg := by
  obtain ⟨x, hx, rfl⟩ | rfl | rfl := ha.cases <;> obtain ⟨y, hy, rfl⟩ | rfl | rfl := hb.cases
  · exact r.nonneg_round (add_nonneg hx hy)
  all_goals exact fun h => nomatch h

theorem nonneg_mul (ha : a.Nonneg) (hb : b.Nonneg) : (r.mul a b).Nonneg := by
  obtain ⟨x, hx, rfl⟩ | rfl | rfl := ha.cases <;> obtain ⟨y, hy, rfl⟩ | rfl | rfl := hb.cases
  · exact r.nonneg_round (mul_nonneg hx hy)
  · by_cases h : x = 0 <;> simp [mul, h, not_lt.2 hx, Value.nonneg_infinite, Value.nonneg_nan]
  · exact fun h => nomatch h
  · by_cases h : y = 0 <;> simp [mul, h, not_lt.2 hy, Value.nonneg_infinite, Value.nonneg_nan]
  all_goals exact fun h => nomatch h

theorem nonneg_div (ha : a.Nonneg) (hb : b.Nonneg) : (r.div a b).Nonneg := by
  obtain ⟨x, hx, rfl⟩ | rfl | rfl := ha.cases <;> obtain ⟨y, hy, rfl⟩ | rfl | rfl := hb.cases
  · by_cases h : y = 0
    · by_cases h' : x = 0 <;> simp [div, h, h', not_lt.2 hx, Value.nonneg_infinite, Value.nonneg_nan]
    · rw [div_finite r x h]
      exact r.nonneg_round (div_nonneg hx hy)
  · exact fun h => lt_irrefl (0 : ℚ) h
  · exact fun h => nomatch h
  · simp [div, not_lt.2 hy, Value.nonneg_infinite]
  all_goals exact fun h => nomatch h

end Rounding

/-- A binary format: the bits of a significand, the exponent of the smallest positive number, and
the power of two at which the numbers end. -/
structure Format where
  precision : ℕ
  minExponent : ℤ
  maxExponent : ℤ
  wide : 24 ≤ precision
  subnormal : minExponent ≤ 0
  range : 24 ≤ maxExponent

/-- `float` of IEEE 754. -/
def binary32 : Format := ⟨24, -149, 128, by decide, by decide, by decide⟩

/-- `double` of IEEE 754. -/
def binary64 : Format := ⟨53, -1074, 1024, by decide, by decide, by decide⟩

/-- The nearest integer, of two the even one. -/
def roundEven (x : ℚ) : ℤ :=
  if x - ⌊x⌋ < 1 / 2 then ⌊x⌋
  else if 1 / 2 < x - ⌊x⌋ then ⌊x⌋ + 1
  else if ⌊x⌋ % 2 = 0 then ⌊x⌋
  else ⌊x⌋ + 1

theorem roundEven_mem (x : ℚ) : ⌊x⌋ ≤ roundEven x ∧ roundEven x ≤ ⌊x⌋ + 1 := by
  unfold roundEven
  split_ifs <;> omega

theorem roundEven_intCast (m : ℤ) : roundEven m = m := by
  rw [roundEven, Int.floor_intCast, sub_self, if_pos (by norm_num)]

theorem roundEven_mono {x y : ℚ} (h : x ≤ y) : roundEven x ≤ roundEven y := by
  rcases (Int.floor_mono h).lt_or_eq with hlt | heq
  · have := (roundEven_mem x).2
    have := (roundEven_mem y).1
    omega
  · unfold roundEven
    rw [heq]
    split_ifs <;> first | omega | linarith

namespace Format

variable (F : Format)

/-- The exponent of the numbers around `x`. -/
def exponent (x : ℚ) : ℤ := max (Int.log 2 x + 1 - F.precision) F.minExponent

/-- The distance of the numbers around `x`. -/
def ulp (x : ℚ) : ℚ := 2 ^ F.exponent x

/-- The nearest multiple of the distance. -/
def grid (x : ℚ) : ℚ := roundEven (x / F.ulp x) * F.ulp x

/-- The nearest value of a number that is not negative. -/
def nearestAbs (x : ℚ) : Value :=
  if F.grid x < 2 ^ F.maxExponent then .finite (F.grid x) else .infinite false

variable {F} {x y : ℚ} {m : ℤ}

theorem ulp_pos (x : ℚ) : 0 < F.ulp x := zpow_pos (by norm_num) _

theorem grid_le (h : x ≤ m * F.ulp x) : F.grid x ≤ m * F.ulp x := by
  have hpos := F.ulp_pos x
  have hround := roundEven_mono ((div_le_iff₀ hpos).2 h)
  rw [roundEven_intCast] at hround
  exact mul_le_mul_of_nonneg_right (by exact_mod_cast hround) hpos.le

theorem le_grid (h : m * F.ulp x ≤ x) : m * F.ulp x ≤ F.grid x := by
  have hpos := F.ulp_pos x
  have hround := roundEven_mono ((le_div_iff₀ hpos).2 h)
  rw [roundEven_intCast] at hround
  exact mul_le_mul_of_nonneg_right (by exact_mod_cast hround) hpos.le

/-- A multiple of the distance is kept. -/
theorem grid_eq_self (h : x = m * F.ulp x) : F.grid x = x :=
  le_antisymm ((grid_le h.le).trans h.ge) (h.le.trans (le_grid h.ge))

theorem grid_nonneg (h : 0 ≤ x) : 0 ≤ F.grid x := by
  have hgrid := le_grid (F := F) (x := x) (m := 0) (by rwa [Int.cast_zero, zero_mul])
  rwa [Int.cast_zero, zero_mul] at hgrid

/-- A power of two from the exponent on is a number. -/
theorem zpow_eq_mul_ulp {k : ℤ} (h : F.exponent x ≤ k) : ∃ m : ℤ, (2 : ℚ) ^ k = m * F.ulp x := by
  refine ⟨2 ^ (k - F.exponent x).toNat, ?_⟩
  push_cast
  rw [ulp, ← zpow_natCast, ← zpow_add₀ (by norm_num)]
  congr 1
  omega

/-- The nearest multiple is one of the smallest number. -/
theorem exists_grid_eq (x : ℚ) : ∃ m : ℤ, F.grid x = m * 2 ^ F.minExponent := by
  have hle : F.minExponent ≤ F.exponent x := le_max_right _ _
  refine ⟨roundEven (x / F.ulp x) * 2 ^ (F.exponent x - F.minExponent).toNat, ?_⟩
  push_cast
  rw [grid, ulp, mul_assoc, ← zpow_natCast, ← zpow_add₀ (by norm_num)]
  congr 2
  omega

/-- **The nearest multiple is kept.**  It is a multiple of its own distance, which is that of
the number itself, unless it has been rounded up to a power of two. -/
theorem grid_grid (hx : 0 ≤ x) : F.grid (F.grid x) = F.grid x := by
  have hnonneg := grid_nonneg (F := F) hx
  have hprecision := F.wide
  have hexponent : Int.log 2 x + 1 - F.precision ≤ F.exponent x := le_max_left _ _
  have hmin : F.minExponent ≤ F.exponent x := le_max_right _ _
  -- the next power of two, if the distance is not above it
  obtain ⟨m, hm⟩ := zpow_eq_mul_ulp (F := F) (x := x) (k := max (Int.log 2 x + 1) (F.exponent x)) (le_max_right _ _)
  have hx' : x ≤ (2 : ℚ) ^ max (Int.log 2 x + 1) (F.exponent x) := by
    have hlt := Int.lt_zpow_succ_log_self (b := 2) (by decide) x
    rw [Nat.cast_ofNat] at hlt
    exact hlt.le.trans (zpow_le_zpow_right₀ (by norm_num) (le_max_left _ _))
  have hle : F.grid x ≤ (2 : ℚ) ^ max (Int.log 2 x + 1) (F.exponent x) := hm ▸ grid_le (hm ▸ hx')
  rcases hnonneg.eq_or_lt with hzero | hpos
  · rw [← hzero]
    exact grid_eq_self (m := 0) (by rw [Int.cast_zero, zero_mul])
  rcases hle.lt_or_eq with hlt | heq
  · have hlog : Int.log 2 (F.grid x) < max (Int.log 2 x + 1) (F.exponent x) :=
      (Int.lt_zpow_iff_log_lt (by decide) hpos).1 (by exact_mod_cast hlt)
    have hsame : F.exponent (F.grid x) ≤ F.exponent x := by
      refine max_le ?_ hmin
      omega
    obtain ⟨n, hn⟩ := zpow_eq_mul_ulp hsame
    refine grid_eq_self (m := roundEven (x / F.ulp x) * n) ?_
    rw [Int.cast_mul, mul_assoc, ← hn]
    rfl
  · have hlog : Int.log 2 ((2 : ℚ) ^ max (Int.log 2 x + 1) (F.exponent x))
        = max (Int.log 2 x + 1) (F.exponent x) := by
      exact_mod_cast Int.log_zpow (R := ℚ) (b := 2) (by decide) _
    rw [heq]
    obtain ⟨n, hn⟩ := zpow_eq_mul_ulp (F := F) (x := (2 : ℚ) ^ max (Int.log 2 x + 1) (F.exponent x))
      (k := max (Int.log 2 x + 1) (F.exponent x)) (max_le (by omega) (by omega))
    exact grid_eq_self hn

/-- **The nearest multiple is monotone.**  Between numbers of different distance lies a power of
two. -/
theorem grid_mono (hx : 0 < x) (h : x ≤ y) : F.grid x ≤ F.grid y := by
  have hlog := Int.log_mono_right (b := 2) hx h
  rcases (show F.exponent x ≤ F.exponent y from max_le_max (by omega) le_rfl).lt_or_eq with hlt | heq
  · have hy : F.exponent y = Int.log 2 y + 1 - F.precision := by
      have : F.minExponent ≤ F.exponent x := le_max_right _ _
      unfold exponent at *
      omega
    have hxlog : Int.log 2 x + 1 - F.precision ≤ F.exponent x := le_max_left _ _
    have hprecision := F.wide
    obtain ⟨m, hm⟩ := zpow_eq_mul_ulp (F := F) (x := x) (k := Int.log 2 y) (by omega)
    obtain ⟨n, hn⟩ := zpow_eq_mul_ulp (F := F) (x := y) (k := Int.log 2 y) (by omega)
    have hbelow : x < ((2 : ℕ) : ℚ) ^ Int.log 2 y := (Int.lt_zpow_iff_log_lt (by decide) hx).2 (by omega)
    have habove : ((2 : ℕ) : ℚ) ^ Int.log 2 y ≤ y := Int.zpow_log_le_self (by decide) (hx.trans_le h)
    rw [Nat.cast_ofNat] at hbelow habove
    calc F.grid x ≤ m * F.ulp x := grid_le (hm ▸ hbelow.le)
      _ = n * F.ulp y := hm.symm.trans hn
      _ ≤ F.grid y := le_grid (hn ▸ habove)
  · have hulp : F.ulp x = F.ulp y := congrArg ((2 : ℚ) ^ ·) heq
    rw [grid, grid, hulp]
    have hround := roundEven_mono ((div_le_div_iff_of_pos_right (F.ulp_pos y)).2 h)
    exact mul_le_mul_of_nonneg_right (by exact_mod_cast hround) (F.ulp_pos y).le

theorem nearestAbs_nonneg (h : 0 ≤ x) : .finite 0 ≤ F.nearestAbs x := by
  unfold nearestAbs
  split
  · exact grid_nonneg h
  · rfl

theorem nearestAbs_mono (hx : 0 ≤ x) (h : x ≤ y) : F.nearestAbs x ≤ F.nearestAbs y := by
  rcases hx.eq_or_lt with rfl | hpos
  · have hzero : F.nearestAbs 0 = .finite 0 := by
      have hgrid : F.grid 0 = 0 := grid_eq_self (m := 0) (by rw [Int.cast_zero, zero_mul])
      rw [nearestAbs, hgrid, if_pos (zpow_pos (by norm_num) _)]
    rw [hzero]
    exact nearestAbs_nonneg h
  have hgrid := grid_mono (F := F) hpos h
  unfold nearestAbs
  split_ifs with h₁ h₂
  · exact hgrid
  · rfl
  · exact absurd (hgrid.trans_lt ‹_›) h₁
  · exact id

/-- Small natural numbers are numbers. -/
theorem nearestAbs_natCast {n : ℕ} (hn : n < 2 ^ 24) : F.nearestAbs n = .finite n := by
  have hprecision := F.wide
  have hsubnormal := F.subnormal
  have hlog : Int.log 2 (n : ℚ) < 24 := by
    rcases Nat.eq_zero_or_pos n with rfl | hpos
    · rw [Nat.cast_zero, Int.log_zero_right]
      norm_num
    · exact (Int.lt_zpow_iff_log_lt (by decide) (by exact_mod_cast hpos)).1 (by exact_mod_cast hn)
  have hexponent : F.exponent n ≤ 0 := max_le (by omega) hsubnormal
  obtain ⟨m, hm⟩ := zpow_eq_mul_ulp (F := F) hexponent
  have hmul : (n : ℚ) = ((n * m : ℤ) : ℚ) * F.ulp n := by
    push_cast
    rw [mul_assoc, ← hm, zpow_zero, mul_one]
  have hgrid : F.grid n = n := grid_eq_self hmul
  have hrange : (n : ℚ) < 2 ^ F.maxExponent :=
    calc (n : ℚ) < 2 ^ (24 : ℤ) := by exact_mod_cast hn
      _ ≤ 2 ^ F.maxExponent := zpow_le_zpow_right₀ (by norm_num) F.range
  rw [nearestAbs, hgrid, if_pos hrange]

theorem nearestAbs_eq_finite_iff : F.nearestAbs x = .finite y ↔ F.grid x < 2 ^ F.maxExponent ∧ F.grid x = y := by
  unfold nearestAbs
  split_ifs with h <;> simp [h]

/-- A nearest value is its own. -/
theorem nearestAbs_fixed (hx : 0 ≤ x) (h : F.nearestAbs x = .finite y) : 0 ≤ y ∧ F.nearestAbs y = .finite y := by
  obtain ⟨hrange, rfl⟩ := nearestAbs_eq_finite_iff.1 h
  exact ⟨grid_nonneg hx, nearestAbs_eq_finite_iff.2 ⟨(grid_grid hx).trans_lt hrange, grid_grid hx⟩⟩

/-- **Rounding to nearest.** -/
def nearest (F : Format) : Rounding where
  round x := if x < 0 then (F.nearestAbs (-x)).neg else F.nearestAbs x
  monotone {x y} h := by
    split_ifs with hx hy hy
    · exact Value.neg_antitone (nearestAbs_mono (by linarith) (by linarith))
    · have hneg := Value.neg_antitone (nearestAbs_nonneg (F := F) (x := -x) (by linarith))
      rw [Value.neg, neg_zero] at hneg
      exact Value.le_trans hneg (nearestAbs_nonneg (not_lt.1 hy))
    · linarith
    · exact nearestAbs_mono (not_lt.1 hx) h
  natCast n hn := by
    rw [if_neg (not_lt.2 (Nat.cast_nonneg n)), nearestAbs_natCast hn]
  fixed {x y} h := by
    split_ifs at h with hx
    · have hneg : F.nearestAbs (-x) = .finite (-y) := by
        match hvalue : F.nearestAbs (-x), h with
        | .finite z, h => rw [← Value.finite.inj h, neg_neg]
      obtain ⟨hnonneg, hfixed⟩ := nearestAbs_fixed (by linarith) hneg
      split_ifs with hy
      · rw [hfixed, Value.neg, neg_neg]
      · obtain rfl : y = 0 := by linarith
        rwa [neg_zero] at hfixed
    · obtain ⟨hnonneg, hfixed⟩ := nearestAbs_fixed (not_lt.1 hx) h
      rw [if_neg (not_lt.2 hnonneg), hfixed]

/-- The nearest value is a multiple of the smallest number. -/
theorem exists_nearest_eq (h : F.nearest.round x = .finite y) : ∃ m : ℤ, y = m * 2 ^ F.minExponent := by
  change (if x < 0 then (F.nearestAbs (-x)).neg else F.nearestAbs x) = .finite y at h
  split_ifs at h with hx
  · match hvalue : F.nearestAbs (-x), h with
    | .finite z, h =>
        obtain ⟨-, rfl⟩ := nearestAbs_eq_finite_iff.1 hvalue
        obtain ⟨m, hm⟩ := exists_grid_eq (F := F) (-x)
        refine ⟨-m, ?_⟩
        rw [← Value.finite.inj h, hm, Int.cast_neg, neg_mul]
  · obtain ⟨-, rfl⟩ := nearestAbs_eq_finite_iff.1 h
    exact exists_grid_eq x

end Format
end FloatingPoint
end GasSensor
