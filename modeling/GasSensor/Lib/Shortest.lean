/-
# The shortest decimal

`repr` of a `float` prints the decimal with the fewest digits of those that are read as
that number, and of them the nearest.  `shortest` looks for it with more and more digits,
from the power of ten above the number on.

A decimal it finds is read as the number (`round_shortest`), and it finds one for every number
that has a decimal expansion of its own (`exists_shortest`).
-/

import GasSensor.Lib.FloatingPoint
import GasSensor.Lib.Numerals

namespace GasSensor
namespace Numeral

open FloatingPoint

/-- The decimal `c / 10 ^ s`. -/
def scaled (c s : ℤ) : Decimal := ⟨false, c.toNat * 10 ^ (-s).toNat, s.toNat⟩

/-- The nearest decimal with `s` digits behind the point, and the one on the other side of `x`. -/
def neighbours (x : ℚ) (s : ℤ) : List Decimal :=
  let c := roundEven (x * 10 ^ s)
  [scaled c s, scaled (if c ≤ x * 10 ^ s then c + 1 else c - 1) s]

/-- The decimal that `repr` prints for a number `x` that is not negative; no number of a format
has more than 1074 digits behind the point. -/
def shortest (r : Rounding) (x : ℚ) : Option Decimal :=
  (List.range ((digits ⌊x⌋.toNat).length + 1075)).findSome? fun (j : ℕ) =>
    (neighbours x (j - (digits ⌊x⌋.toNat).length)).find? fun d => r.round d.value = .finite x

variable {r : Rounding} {x : ℚ}

/-- **What is printed is read as the number.** -/
theorem round_shortest {d : Decimal} (h : shortest r x = some d) : r.round d.value = .finite x := by
  obtain ⟨j, -, hj⟩ := List.exists_of_findSome?_eq_some h
  have hread := List.find?_some hj
  exact of_decide_eq_true hread

theorem value_scaled (m s : ℕ) : (scaled m s).value = m / 10 ^ s := by
  rw [scaled, Decimal.value, Int.toNat_natCast, Int.toNat_natCast, Int.toNat_of_nonpos (by omega), pow_zero, mul_one]
  rfl

/-- **A number with a decimal expansion has a shortest decimal.** -/
theorem exists_shortest (h : r.round x = .finite x) {s m : ℕ} (hs : s ≤ 1074) (hm : x * 10 ^ s = m) :
    ∃ d, shortest r x = some d := by
  refine Option.isSome_iff_exists.1 (List.findSome?_isSome_iff.2
    ⟨s + (digits ⌊x⌋.toNat).length, List.mem_range.2 (by omega), List.find?_isSome.2 ⟨scaled m s, ?_, ?_⟩⟩)
  · rw [Nat.cast_add, add_sub_cancel_right, neighbours, zpow_natCast, hm]
    have hround : roundEven (m : ℚ) = m := roundEven_intCast m
    rw [hround]
    exact List.mem_cons_self
  · rw [decide_eq_true_eq, value_scaled, ← hm, mul_div_cancel_right₀ _ (by positivity), h]

end Numeral
end GasSensor
