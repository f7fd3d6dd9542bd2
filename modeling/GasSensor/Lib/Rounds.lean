/-
# A history cut into rounds

A process that serves `n` clients in turn leaves a history, one entry a visit.
The history falls into rounds of `n` entries: `roundStart n m` is the index at
which the round of the `m`-th visit begins, and `roundSum n start f l` adds
up a quantity over the round that begins at `start`.  The lemmas say what one
more entry does to both: it extends the round in progress, leaves completed
rounds alone, and the entry that makes the length a multiple of `n` closes a
round.
-/

import Mathlib.Algebra.BigOperators.Group.Finset.Basic
import Mathlib.Algebra.Order.BigOperators.Group.List
import Mathlib.Algebra.Order.Ring.Nat
import Mathlib.Data.Nat.ModEq
import Mathlib.Tactic.Common

namespace GasSensor
namespace History

variable {α : Type*} {n m start : ℕ} {f : α → ℕ} {l : List α}

/-- Counting modulo `n`: one more either stays inside the round or closes it. -/
theorem succ_mod_cases (hn : 0 < n) (m : ℕ) :
    (m % n + 1 < n ∧ (m + 1) % n = m % n + 1) ∨ (m % n + 1 = n ∧ (m + 1) % n = 0) := by
  have hlt : m % n < n := Nat.mod_lt m hn
  have hsucc : (m + 1) % n = (m % n + 1) % n := by rw [Nat.mod_add_mod]
  rcases Nat.lt_or_ge (m % n + 1) n with h | h
  · exact .inl ⟨h, by rw [hsucc, Nat.mod_eq_of_lt h]⟩
  · have he : m % n + 1 = n := by omega
    exact .inr ⟨he, by rw [hsucc, he, Nat.mod_self]⟩

/-- The index at which the round of visit `m` begins. -/
def roundStart (n m : ℕ) : ℕ := m - m % n

theorem roundStart_le (n m : ℕ) : roundStart n m ≤ m := Nat.sub_le _ _

theorem lt_roundStart_add (hn : 0 < n) (m : ℕ) : m < roundStart n m + n := by
  have := Nat.mod_lt m hn
  unfold roundStart
  omega

theorem roundStart_mod (n m : ℕ) : roundStart n m % n = 0 := by
  unfold roundStart
  exact Nat.mod_eq_zero_of_dvd (Nat.dvd_sub_mod m)

/-- Inside a round one more visit does not move its beginning. -/
theorem roundStart_succ_of_ne (hn : 0 < n) (h : (m + 1) % n ≠ 0) :
    roundStart n (m + 1) = roundStart n m := by
  unfold roundStart
  rcases succ_mod_cases hn m with ⟨_, he⟩ | ⟨_, he⟩ <;> omega

/-- The visit that closes a round is its `n`-th. -/
theorem roundStart_add_of_succ_mod (hn : 0 < n) (h : (m + 1) % n = 0) :
    roundStart n m + n = m + 1 := by
  have := Nat.mod_le m n
  unfold roundStart
  rcases succ_mod_cases hn m with ⟨_, he⟩ | ⟨_, he⟩ <;> omega

/-- Two indices less than one round apart agree modulo `n` only if equal. -/
theorem eq_of_mod_eq {k : ℕ} (h : k % n = m % n) (hle : k ≤ m) (hlt : m < k + n) : k = m := by
  have hd : n ∣ m - k := (Nat.modEq_iff_dvd' hle).1 h
  rcases Nat.eq_zero_or_pos (m - k) with h0 | hpos
  · omega
  · have := Nat.le_of_dvd hpos hd
    omega

/-- The total of `f` over the round that begins at `start`. -/
def roundSum (n start : ℕ) (f : α → ℕ) (l : List α) : ℕ := (((l.drop start).take n).map f).sum

theorem roundSum_nil : roundSum n start f [] = 0 := by simp [roundSum]

/-- A round that has not begun has no total. -/
theorem roundSum_of_length_le (h : l.length ≤ start) : roundSum n start f l = 0 := by
  simp [roundSum, List.drop_eq_nil_of_le h]

/-- An entry that falls into the round is added to its total. -/
theorem roundSum_concat_of_lt (h₁ : start ≤ l.length) (h₂ : l.length < start + n) (a : α) :
    roundSum n start f (l ++ [a]) = roundSum n start f l + f a := by
  have hlen : (l.drop start).length < n := by rw [List.length_drop]; omega
  unfold roundSum
  rw [List.drop_append_of_le_length h₁, List.take_of_length_le (by simp; omega),
    List.take_of_length_le hlen.le, List.map_append, List.sum_append]
  simp

/-- An entry after the end of a round leaves its total alone. -/
theorem roundSum_concat_of_le (h : start + n ≤ l.length) (a : α) :
    roundSum n start f (l ++ [a]) = roundSum n start f l := by
  unfold roundSum
  rw [List.drop_append_of_le_length (by omega),
    List.take_append_of_le_length (by rw [List.length_drop]; omega)]

/-- `n` entries of at most `b` add up to at most `n * b`. -/
theorem roundSum_le {b : ℕ} (h : ∀ a ∈ l, f a ≤ b) : roundSum n start f l ≤ n * b := by
  have hb : ∀ x ∈ ((l.drop start).take n).map f, x ≤ b := by
    intro x hx
    obtain ⟨a, ha, rfl⟩ := List.mem_map.1 hx
    exact h a (List.mem_of_mem_drop (List.mem_of_mem_take ha))
  have hlen : (((l.drop start).take n).map f).length ≤ n := by
    rw [List.length_map]
    exact List.length_take_le n _
  calc roundSum n start f l
      ≤ (((l.drop start).take n).map f).length • b := List.sum_le_card_nsmul _ b hb
    _ ≤ n * b := Nat.mul_le_mul_right b hlen

/-- The total of a round whose entries are known. -/
theorem roundSum_eq_sum {g : ℕ → ℕ} (hlen : start + n ≤ l.length)
    (hg : ∀ m a, l[m]? = some a → f a = g m) :
    roundSum n start f l = ∑ j ∈ Finset.range n, g (start + j) := by
  induction n with
  | zero => simp [roundSum]
  | succ n ih =>
      have hlast : l[start + n]? = some (l.get ⟨start + n, by omega⟩) := List.getElem?_eq_getElem _
      have hsplit : roundSum (n + 1) start f l
          = roundSum n start f l + f (l.get ⟨start + n, by omega⟩) := by
        unfold roundSum
        rw [List.take_add_one, List.getElem?_drop, hlast, List.map_append, List.sum_append]
        simp
      rw [hsplit, ih (by omega), Finset.sum_range_succ, hg _ _ hlast]

/-- Reading a list one entry longer. -/
theorem getElem?_concat_eq_some {a b : α} :
    (l ++ [a])[m]? = some b ↔ l[m]? = some b ∨ (m = l.length ∧ a = b) := by
  rcases Nat.lt_trichotomy m l.length with h | h | h
  · rw [List.getElem?_append_left h]
    constructor
    · exact .inl
    · rintro (h' | ⟨h', _⟩)
      · exact h'
      · omega
  · subst h
    simp
  · simp [List.getElem?_eq_none (show (l ++ [a]).length ≤ m by simp; omega),
      List.getElem?_eq_none h.le, h.ne']

end History
end GasSensor
