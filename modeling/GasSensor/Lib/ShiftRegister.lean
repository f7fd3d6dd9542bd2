/-
# Shift registers with linear feedback

A register of `w` bits that a sequence of bits is fed into: the bit is added to the
lowest one, the register is shifted down by one, and if a 1 falls out, the feedback
polynomial is added.  Additions are exclusive or.  With the bits of a message in
transmission order this divides the message by a polynomial, and the register
holds the remainder.

Everything is linear (`remainder_xor`), so whether two messages leave the same
remainder depends only on where they differ (`remainder_eq_iff`).  The three
detection rules say which differences never go unnoticed: bursts that fit the
register, if the highest bit of the polynomial is set; an odd number of bits, if
the polynomial has an odd number of ones; and two bits closer than the order of the
register.  `step_iterate_split` is the rule for feeding several bits at once from a
table.
-/

import Mathlib.Algebra.BigOperators.Intervals
import Mathlib.Algebra.Field.ZMod
import Mathlib.Algebra.Ring.Parity
import Mathlib.Data.ZMod.Basic
import Mathlib.Logic.Function.Iterate

namespace GasSensor
namespace ShiftRegister

variable {w : ℕ} {poly : BitVec w}

/-- One bit. -/
def feed (poly c : BitVec w) (b : Bool) : BitVec w :=
  if c.getLsbD 0 ^^ b then (c >>> 1) ^^^ poly else c >>> 1

/-- One step without a bit. -/
def step (poly c : BitVec w) : BitVec w := feed poly c false

/-- What a sequence of bits leaves in the register. -/
def remainder (poly c : BitVec w) (bits : List Bool) : BitVec w := bits.foldl (feed poly) c

/-- A bit of the register after a step. -/
theorem feed_getLsbD (poly c : BitVec w) (b : Bool) (i : ℕ) :
    (feed poly c b).getLsbD i = (c.getLsbD (i + 1) ^^ ((c.getLsbD 0 ^^ b) && poly.getLsbD i)) := by
  unfold feed
  cases hb : c.getLsbD 0 ^^ b with
  | false => simp [BitVec.getLsbD_ushiftRight, Nat.add_comm 1 i]
  | true => simp [BitVec.getLsbD_ushiftRight, Nat.add_comm 1 i]

theorem feed_xor (poly c d : BitVec w) (a b : Bool) :
    feed poly (c ^^^ d) (a ^^ b) = feed poly c a ^^^ feed poly d b := by
  refine BitVec.eq_of_getLsbD_eq fun i _ => ?_
  rw [BitVec.getLsbD_xor, feed_getLsbD, feed_getLsbD, feed_getLsbD, BitVec.getLsbD_xor, BitVec.getLsbD_xor]
  cases c.getLsbD 0 <;> cases d.getLsbD 0 <;> cases a <;> cases b <;> cases poly.getLsbD i <;>
    simp [Bool.xor_comm]

@[simp] theorem feed_zero (poly : BitVec w) : feed poly (0#w) false = 0#w := by
  refine BitVec.eq_of_getLsbD_eq fun i _ => ?_
  simp [feed_getLsbD]

theorem step_iterate_zero (poly : BitVec w) (n : ℕ) : (step poly)^[n] (0#w) = 0#w :=
  Function.iterate_fixed (feed_zero poly) n

theorem step_iterate_xor (poly c d : BitVec w) (n : ℕ) :
    (step poly)^[n] (c ^^^ d) = (step poly)^[n] c ^^^ (step poly)^[n] d := by
  induction n generalizing c d with
  | zero => rfl
  | succ n ih =>
      have hstep : step poly (c ^^^ d) = step poly c ^^^ step poly d := feed_xor poly c d false false
      rw [Function.iterate_succ_apply, hstep, ih]
      rfl

/-- **The remainder is linear.** -/
theorem remainder_xor (poly : BitVec w) {a b : List Bool} (h : a.length = b.length) (c d : BitVec w) :
    remainder poly (c ^^^ d) (List.zipWith xor a b) = remainder poly c a ^^^ remainder poly d b := by
  induction a generalizing b c d with
  | nil =>
      rw [List.length_eq_zero_iff.1 h.symm]
      rfl
  | cons x a ih =>
      match b, h with
      | y :: b, h =>
          change remainder poly (feed poly (c ^^^ d) (x ^^ y)) (List.zipWith xor a b) = _
          rw [feed_xor, ih (Nat.succ.inj h)]
          rfl

/-- **Two messages leave the same remainder exactly if their difference leaves none.** -/
theorem remainder_eq_iff (poly c : BitVec w) {a b : List Bool} (h : a.length = b.length) :
    remainder poly c a = remainder poly c b ↔ remainder poly (0#w) (List.zipWith xor a b) = 0#w := by
  have hlin := remainder_xor poly h c c
  rw [BitVec.xor_self] at hlin
  rw [hlin, BitVec.xor_eq_zero_iff]

theorem remainder_append (poly c : BitVec w) (a b : List Bool) :
    remainder poly c (a ++ b) = remainder poly (remainder poly c a) b := List.foldl_append

/-- Bits without a one are zeros. -/
theorem eq_replicate_false {bits : List Bool} (h : true ∉ bits) : bits = List.replicate bits.length false := by
  refine List.eq_replicate_of_mem fun x hx => ?_
  cases x with
  | false => rfl
  | true => exact absurd hx h

/-- Zeros shift the register. -/
theorem remainder_replicate_false (poly c : BitVec w) (n : ℕ) :
    remainder poly c (List.replicate n false) = (step poly)^[n] c := by
  induction n generalizing c with
  | zero => rfl
  | succ n ih => exact ih (step poly c)

/-- A register whose low bits are clear is shifted down. -/
theorem step_iterate_of_low {n : ℕ} {c : BitVec w} (h : ∀ i < n, c.getLsbD i = false) :
    (step poly)^[n] c = c >>> n := by
  induction n generalizing c with
  | zero => exact (BitVec.ushiftRight_zero c).symm
  | succ n ih =>
      have h0 : c.getLsbD 0 = false := h 0 (Nat.succ_pos n)
      have hstep : step poly c = c >>> 1 := by rw [step, feed, h0]; rfl
      have hlow : ∀ i < n, (c >>> 1).getLsbD i = false := by
        intro i hi
        rw [BitVec.getLsbD_ushiftRight]
        exact h _ (by omega)
      rw [Function.iterate_succ_apply, hstep, ih hlow, ← BitVec.shiftRight_add, Nat.add_comm]

/-- **The rule for tables.**  After `n` steps of a register there are the bits above the
lowest `n`, shifted down, and what the lowest `n` bits alone lead to. -/
theorem step_iterate_split {n : ℕ} {c low : BitVec w} (hlow : ∀ i < n, low.getLsbD i = c.getLsbD i)
    (hhigh : low >>> n = 0#w) : (step poly)^[n] c = (c >>> n) ^^^ (step poly)^[n] low := by
  have hclear : ∀ i < n, (c ^^^ low).getLsbD i = false := by
    intro i hi
    rw [BitVec.getLsbD_xor, hlow i hi, Bool.xor_self]
  have hc : c = (c ^^^ low) ^^^ low := by rw [BitVec.xor_assoc, BitVec.xor_self, BitVec.xor_zero]
  calc (step poly)^[n] c = (step poly)^[n] ((c ^^^ low) ^^^ low) := by rw [← hc]
    _ = ((c ^^^ low) >>> n) ^^^ (step poly)^[n] low := by
        rw [step_iterate_xor, step_iterate_of_low hclear]
    _ = (c >>> n) ^^^ (step poly)^[n] low := by
        rw [BitVec.ushiftRight_xor_distrib, hhigh, BitVec.xor_zero]

/-- A word that is added as a whole is fed in bit by bit, lowest bit first. -/
theorem step_iterate_word {n : ℕ} {v : BitVec w} (h : v >>> n = 0#w) (c : BitVec w) :
    (step poly)^[n] (c ^^^ v) = remainder poly c ((List.range n).map v.getLsbD) := by
  induction n generalizing c v with
  | zero =>
      rw [BitVec.ushiftRight_zero] at h
      rw [h, BitVec.xor_zero]
      rfl
  | succ n ih =>
      have hstep : step poly (c ^^^ v) = feed poly c (v.getLsbD 0) ^^^ (v >>> 1) := by
        refine BitVec.eq_of_getLsbD_eq fun i _ => ?_
        rw [step, feed_getLsbD, BitVec.getLsbD_xor, BitVec.getLsbD_xor, BitVec.getLsbD_xor, feed_getLsbD,
          BitVec.getLsbD_ushiftRight, Nat.add_comm 1 i, Bool.xor_false, Bool.xor_assoc, Bool.xor_assoc,
          Bool.xor_comm (v.getLsbD (i + 1))]
      have hhigh : (v >>> 1) >>> n = 0#w := by rw [← BitVec.shiftRight_add, Nat.add_comm, h]
      have hbits : (List.range n).map (v >>> 1).getLsbD = (List.range n).map fun i => v.getLsbD (i + 1) := by
        simp [BitVec.getLsbD_ushiftRight, Nat.add_comm]
      rw [Function.iterate_succ_apply, hstep, ih hhigh, hbits, List.range_succ_eq_map, List.map_cons, List.map_map]
      rfl

/-- A step that leaves the highest bit clear has added nothing. -/
theorem low_of_feed (hpoly : poly.getLsbD (w - 1) = true) {c : BitVec w} {b : Bool}
    (h : (feed poly c b).getLsbD (w - 1) = false) : (c.getLsbD 0 ^^ b) = false := by
  rw [feed_getLsbD, hpoly, Bool.and_true, BitVec.getLsbD_of_ge c _ (by omega), Bool.false_xor] at h
  exact h

/-- Bits that fit the register together with what they leave in it were all zero. -/
theorem true_notMem_of_remainder (hpoly : poly.getLsbD (w - 1) = true) {k : ℕ} {bits : List Bool}
    (hk : bits.length + k ≤ w) (h : ∀ i, k ≤ i → (remainder poly (0#w) bits).getLsbD i = false) : true ∉ bits := by
  induction bits using List.reverseRecOn generalizing k with
  | nil => exact List.not_mem_nil
  | append_singleton bits b ih =>
      rw [List.length_append, List.length_singleton] at hk
      rw [remainder_append] at h
      change ∀ i, k ≤ i → (feed poly (remainder poly (0#w) bits) b).getLsbD i = false at h
      have hout := low_of_feed hpoly (h (w - 1) (by omega))
      have hbits : true ∉ bits := by
        refine ih (k := k + 1) (by omega) fun i hi => ?_
        have := h (i - 1) (by omega)
        rwa [feed_getLsbD, hout, Bool.false_and, Bool.xor_false, Nat.sub_add_cancel (by omega)] at this
      have hzero : remainder poly (0#w) bits = 0#w := by
        rw [eq_replicate_false hbits, remainder_replicate_false, step_iterate_zero]
      have hb : b = false := by
        rw [hzero] at hout
        simpa using hout
      rw [List.mem_append, List.mem_singleton, hb]
      rintro (h | h)
      · exact hbits h
      · cases h

theorem step_eq_zero (hpoly : poly.getLsbD (w - 1) = true) {c : BitVec w} (h : step poly c = 0#w) : c = 0#w := by
  have hout : (c.getLsbD 0 ^^ false) = false := low_of_feed (b := false) hpoly (by rw [← step, h]; simp)
  refine BitVec.eq_of_getLsbD_eq fun i _ => ?_
  cases i with
  | zero => simpa using hout
  | succ i =>
      have := feed_getLsbD poly c false i
      rw [hout, Bool.false_and, Bool.xor_false, ← step, h] at this
      simpa using this.symm

theorem step_iterate_eq_zero (hpoly : poly.getLsbD (w - 1) = true) {c : BitVec w} {n : ℕ}
    (h : (step poly)^[n] c = 0#w) : c = 0#w := by
  induction n generalizing c with
  | zero => exact h
  | succ n ih => exact step_eq_zero hpoly (ih h)

/-- **Bursts are detected.**  A difference whose ones lie within as many consecutive bits
as the register has leaves a remainder. -/
theorem remainder_ne_zero_of_burst (hpoly : poly.getLsbD (w - 1) = true) {bits : List Bool} (hone : true ∈ bits)
    {k : ℕ} (hburst : ∀ i, bits[i]? = some true → k ≤ i ∧ i < k + w) : remainder poly (0#w) bits ≠ 0#w := by
  intro h
  have hbefore : true ∉ bits.take k := by
    intro hmem
    obtain ⟨i, hi⟩ := List.mem_iff_getElem?.1 hmem
    rw [List.getElem?_take] at hi
    split at hi
    next hlt => exact absurd (hburst i hi).1 (by omega)
    next => cases hi
  have hafter : true ∉ (bits.drop k).drop w := by
    intro hmem
    obtain ⟨i, hi⟩ := List.mem_iff_getElem?.1 hmem
    rw [List.getElem?_drop, List.getElem?_drop] at hi
    exact absurd (hburst _ hi).2 (by omega)
  have hsplit : bits = bits.take k ++ ((bits.drop k).take w ++ (bits.drop k).drop w) := by
    rw [List.take_append_drop, List.take_append_drop]
  have hmiddle : true ∉ (bits.drop k).take w := by
    refine true_notMem_of_remainder (k := 0) hpoly (by rw [List.length_take]; omega) fun i _ => ?_
    rw [hsplit, remainder_append, remainder_append, eq_replicate_false hbefore, remainder_replicate_false,
      step_iterate_zero, eq_replicate_false hafter, remainder_replicate_false] at h
    rw [step_iterate_eq_zero hpoly h]
    simp
  rw [hsplit, List.mem_append, List.mem_append] at hone
  rcases hone with h | h | h
  · exact hbefore h
  · exact hmiddle h
  · exact hafter h

/-- A bit as a number modulo 2. -/
def bit (b : Bool) : ZMod 2 := if b then 1 else 0

theorem bit_xor (a b : Bool) : bit (a ^^ b) = bit a + bit b := by
  cases a <;> cases b <;> decide

/-- The sum of the bits of a register modulo 2. -/
def parity (c : BitVec w) : ZMod 2 := ∑ i ∈ Finset.range w, bit (c.getLsbD i)

/-- If the polynomial has an odd number of ones, a step adds the bit to the parity. -/
theorem parity_feed (hpoly : parity poly = 1) (c : BitVec w) (b : Bool) :
    parity (feed poly c b) = parity c + bit b := by
  have hshift : ∑ i ∈ Finset.range w, bit (c.getLsbD (i + 1)) + bit (c.getLsbD 0) = parity c := by
    rw [← Finset.sum_range_succ' (fun i => bit (c.getLsbD i)), Finset.sum_range_succ,
      BitVec.getLsbD_of_ge c w le_rfl]
    exact add_zero _
  have hout : ∀ x : Bool, ∑ i ∈ Finset.range w, bit (x && poly.getLsbD i) = bit x := by
    intro x
    cases x with
    | false => exact Finset.sum_const_zero
    | true => exact hpoly
  have hcancel : ∀ x y z : ZMod 2, x + (y + z) = (x + y) + z := fun x y z => (add_assoc x y z).symm
  calc parity (feed poly c b)
      = ∑ i ∈ Finset.range w, (bit (c.getLsbD (i + 1)) + bit ((c.getLsbD 0 ^^ b) && poly.getLsbD i)) := by
        refine Finset.sum_congr rfl fun i _ => ?_
        rw [feed_getLsbD, bit_xor]
    _ = ∑ i ∈ Finset.range w, bit (c.getLsbD (i + 1)) + (bit (c.getLsbD 0) + bit b) := by
        rw [Finset.sum_add_distrib, hout, bit_xor]
    _ = parity c + bit b := by rw [hcancel, hshift]

theorem parity_remainder (hpoly : parity poly = 1) (c : BitVec w) (bits : List Bool) :
    parity (remainder poly c bits) = parity c + bits.count true := by
  induction bits generalizing c with
  | nil => simp [remainder]
  | cons b bits ih =>
      change parity (remainder poly (feed poly c b) bits) = _
      rw [ih, parity_feed hpoly]
      cases b with
      | false => simp [bit]
      | true =>
          rw [List.count_cons_self, Nat.cast_succ]
          change parity c + 1 + _ = _
          rw [add_assoc, add_comm (1 : ZMod 2)]

/-- **An odd number of errors is detected** if the polynomial has an odd number of ones. -/
theorem remainder_ne_zero_of_odd (hpoly : parity poly = 1) {bits : List Bool} (h : Odd (bits.count true)) :
    remainder poly (0#w) bits ≠ 0#w := by
  intro hzero
  have hparity := parity_remainder hpoly (0#w) bits
  rw [hzero, left_eq_add, ZMod.natCast_eq_zero_iff_even] at hparity
  exact Nat.not_even_iff_odd.2 h hparity

/-- A single one in an empty register is on its way round. -/
theorem feed_zero_true (poly : BitVec w) : feed poly (0#w) true = step poly (1#w) := by
  refine BitVec.eq_of_getLsbD_eq fun i hi => ?_
  rw [step, feed_getLsbD, feed_getLsbD]
  have hw : 0 < w := by omega
  simp [hw]

/-- **Two errors are detected** if the register does not come back to a single one within
their distance. -/
theorem remainder_ne_zero_of_two (hpoly : poly.getLsbD (w - 1) = true) {bits : List Bool}
    (horder : ∀ n, 0 < n → n < bits.length → (step poly)^[n] (1#w) ≠ 1#w) (h : bits.count true = 2) :
    remainder poly (0#w) bits ≠ 0#w := by
  intro hzero
  have hmem : true ∈ bits := List.count_pos_iff.1 (by rw [h]; exact Nat.two_pos)
  obtain ⟨before, rest, rfl, hbefore⟩ := List.eq_append_cons_of_mem hmem
  rw [List.count_append, List.count_eq_zero.2 hbefore, Nat.zero_add, List.count_cons_self] at h
  obtain ⟨between, after, rfl, hbetween⟩ := List.eq_append_cons_of_mem
    (List.count_pos_iff.1 (by omega : 0 < rest.count true))
  rw [List.count_append, List.count_eq_zero.2 hbetween, Nat.zero_add, List.count_cons_self] at h
  have hafter : true ∉ after := List.count_eq_zero.1 (by omega)
  have hend : remainder poly (0#w) (before ++ true :: (between ++ true :: after))
      = (step poly)^[after.length] (feed poly ((step poly)^[between.length] (step poly (1#w))) true) := by
    rw [remainder_append, eq_replicate_false hbefore, remainder_replicate_false, step_iterate_zero]
    change remainder poly (feed poly (0#w) true) (between ++ true :: after) = _
    rw [remainder_append, eq_replicate_false hbetween, remainder_replicate_false, feed_zero_true]
    change remainder poly (feed poly _ true) after = _
    rw [eq_replicate_false hafter, remainder_replicate_false, List.length_replicate, List.length_replicate]
  rw [hend] at hzero
  have hback : (step poly)^[between.length + 1] (1#w) ^^^ 1#w = 0#w := by
    refine step_eq_zero hpoly ?_
    have hadd := feed_xor poly ((step poly)^[between.length + 1] (1#w)) (0#w) false true
    rw [feed_zero_true, BitVec.xor_zero, Bool.false_xor] at hadd
    have hlin : step poly ((step poly)^[between.length + 1] (1#w) ^^^ 1#w)
        = step poly ((step poly)^[between.length + 1] (1#w)) ^^^ step poly (1#w) := feed_xor poly _ _ false false
    rw [hlin]
    exact hadd.symm.trans (step_iterate_eq_zero hpoly hzero)
  refine horder (between.length + 1) (Nat.succ_pos _) ?_ (BitVec.xor_eq_zero_iff.1 hback)
  simp only [List.length_append, List.length_cons]
  omega

end ShiftRegister
end GasSensor
