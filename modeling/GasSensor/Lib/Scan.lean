/-
# Copying a table that interrupts change

The main thread copies the cells of a table one after the other, and between two of
them interrupt handlers may change the table, so the copy is not of one moment.

`Scanned` is what there is instead: each cell is of a moment of its own, and these
moments come in the order of the copying.  If only some interrupts change what the
table shows, the moments are numbers of `versions` of it (`Scanned.versions`).
-/

import GasSensor.Lib.Preempt
import Mathlib.Data.List.Nodup
import Mathlib.Order.Monotone.Defs

namespace GasSensor
namespace Preempt

universe u

variable {σ ι β V : Type u} {κ φ : Type*}

/-- The interrupts of a schedule. -/
def interrupts (ms : List (Move κ)) : List κ :=
  ms.filterMap fun
    | .main => none
    | .interrupt k => some k

/-- How often the main thread has its turn. -/
def mains (ms : List (Move κ)) : ℕ :=
  ms.countP fun
    | .main => true
    | .interrupt _ => false

@[simp] theorem interrupts_concat_main (ms : List (Move κ)) : interrupts (ms ++ [.main]) = interrupts ms := by
  simp [interrupts]

@[simp] theorem interrupts_concat_interrupt (ms : List (Move κ)) (k : κ) :
    interrupts (ms ++ [.interrupt k]) = interrupts ms ++ [k] := by
  simp [interrupts]

@[simp] theorem mains_concat_main (ms : List (Move κ)) : mains (ms ++ [.main]) = mains ms + 1 := by
  simp [mains]

@[simp] theorem mains_concat_interrupt (ms : List (Move κ)) (k : κ) : mains (ms ++ [.interrupt k]) = mains ms := by
  simp [mains]

/-- The table with all that the interrupts share, and what has been copied of it. -/
structure Scan (σ ι β : Type u) where
  shared : σ
  copied : ι → β

namespace Scan

/-- Cell `i` is copied. -/
def exec [DecidableEq ι] (cell : σ → ι → β) (c : Scan σ ι β) (i : ι) : Except φ (Scan σ ι β) :=
  .ok { c with copied := Function.update c.copied i (cell c.shared i) }

/-- A handler runs. -/
def interrupt (handler : σ → κ → Except φ σ) (c : Scan σ ι β) (k : κ) : Except φ (Scan σ ι β) :=
  handler c.shared k >>= fun s => .ok { c with shared := s }

/-- A move while the table is copied. -/
abbrev step [DecidableEq ι] (cell : σ → ι → β) (handler : σ → κ → Except φ σ) :
    Thread (Scan σ ι β) ι → Move κ → Except φ (Thread (Scan σ ι β) ι) :=
  Preempt.step (exec cell) (interrupt handler)

/-- Without interrupts the copy is the table. -/
theorem foldlM_exec [DecidableEq ι] (cell : σ → ι → β) (c : Scan σ ι β) (is : List ι) :
    (is.foldlM (exec cell) c : Except φ (Scan σ ι β))
      = .ok ⟨c.shared, fun i => if i ∈ is then cell c.shared i else c.copied i⟩ := by
  induction is generalizing c with
  | nil => rfl
  | cons i is ih =>
      rw [List.foldlM_cons, exec, Run.ok_bind, ih, Except.ok.injEq, Scan.mk.injEq]
      refine ⟨rfl, funext fun j => ?_⟩
      by_cases hj : j = i
      · simp [hj]
      · simp [hj]

end Scan

/-- **What has been copied** after the moves `ms` of the cells `is`: the interrupts have run as if
nothing was copied between them, and each cell is as the first `moment` of them have left it. -/
structure Scanned (cell : σ → ι → β) (handler : σ → κ → Except φ σ) (s : σ) (is : List ι) (ms : List (Move κ))
    (c : Thread (Scan σ ι β) ι) : Prop where
  todo : c.todo = is.drop (mains ms)
  shared : (interrupts ms).foldlM handler s = .ok c.state.shared
  moments : ∃ moment : ι → ℕ, (is.take (mains ms)).Pairwise (fun i j => moment i ≤ moment j) ∧
    ∀ i ∈ is.take (mains ms), moment i ≤ (interrupts ms).length ∧
      ∃ u, ((interrupts ms).take (moment i)).foldlM handler s = .ok u ∧ c.state.copied i = cell u i

variable {cell : σ → ι → β} {handler : σ → κ → Except φ σ} {s s' : σ} {is : List ι} {ms : List (Move κ)}
  {c c' : Thread (Scan σ ι β) ι} {k : κ}

theorem scanned_start (cell : σ → ι → β) (handler : σ → κ → Except φ σ) (s : σ) (is : List ι) (table : ι → β) :
    Scanned cell handler s is [] ⟨⟨s, table⟩, is⟩ where
  todo := rfl
  shared := rfl
  moments := ⟨fun _ => 0, .nil, fun _ hi => absurd hi List.not_mem_nil⟩

/-- An interrupt comes after every moment so far. -/
theorem Scanned.interrupt (h : Scanned cell handler s is ms c) (hk : handler c.state.shared k = .ok s') :
    Scanned cell handler s is (ms ++ [.interrupt k]) ⟨⟨s', c.state.copied⟩, c.todo⟩ := by
  obtain ⟨moment, hordered, hcopied⟩ := h.moments
  refine ⟨?_, ?_, moment, ?_, fun i hi => ?_⟩
  · rw [mains_concat_interrupt]
    exact h.todo
  · rw [interrupts_concat_interrupt, Run.foldlM_concat, h.shared]
    exact hk
  · rw [mains_concat_interrupt]
    exact hordered
  · rw [mains_concat_interrupt] at hi
    obtain ⟨hle, u, hu, hi⟩ := hcopied i hi
    rw [interrupts_concat_interrupt, List.length_append, List.take_append_of_le_length hle]
    exact ⟨Nat.le_add_right_of_le hle, u, hu, hi⟩

/-- Once everything is copied the main thread has nothing to do. -/
theorem Scanned.idle (h : Scanned cell handler s is ms c) (hnil : c.todo = []) :
    Scanned cell handler s is (ms ++ [.main]) c := by
  have hle : is.length ≤ mains ms := List.drop_eq_nil_iff.1 (h.todo.symm.trans hnil)
  refine ⟨?_, by rw [interrupts_concat_main]; exact h.shared, ?_⟩
  · rw [mains_concat_main, List.drop_eq_nil_of_le (Nat.le_add_right_of_le hle)]
    exact hnil
  · rw [mains_concat_main, interrupts_concat_main, List.take_of_length_le (Nat.le_add_right_of_le hle),
      ← List.take_of_length_le hle]
    exact h.moments

section Main

variable [DecidableEq ι]

/-- The cell that is copied is of this moment. -/
theorem Scanned.main (h : Scanned cell handler s is ms c) (hnodup : is.Nodup) {i : ι} {rest : List ι}
    (hi : c.todo = i :: rest) : Scanned cell handler s is (ms ++ [.main])
      ⟨⟨c.state.shared, Function.update c.state.copied i (cell c.state.shared i)⟩, rest⟩ := by
  obtain ⟨moment, hordered, hcopied⟩ := h.moments
  have hdrop : is.drop (mains ms) = i :: rest := h.todo.symm.trans hi
  have htake : is.take (mains ms + 1) = is.take (mains ms) ++ [i] := by
    rw [List.take_add_one, ← List.head?_drop, hdrop]
    rfl
  have hne : ∀ j ∈ is.take (mains ms), j ≠ i := by
    rintro j hj rfl
    exact List.disjoint_take_drop hnodup (Nat.le_refl _) hj (hdrop ▸ List.mem_cons_self)
  refine ⟨?_, ?_, Function.update moment i (interrupts ms).length, ?_, ?_⟩
  · rw [mains_concat_main, ← List.tail_drop, hdrop]
    rfl
  · rw [interrupts_concat_main]
    exact h.shared
  · rw [mains_concat_main, htake]
    refine List.pairwise_append.2 ⟨hordered.imp_of_mem fun {j l} hj hl hjl => ?_, List.pairwise_singleton _ _,
      fun j hj l hl => ?_⟩
    · rwa [Function.update_of_ne (hne j hj), Function.update_of_ne (hne l hl)]
    · rw [List.mem_singleton.1 hl, Function.update_self, Function.update_of_ne (hne j hj)]
      exact (hcopied j hj).1
  · rw [mains_concat_main, htake, interrupts_concat_main]
    refine List.forall_mem_append.2 ⟨fun j hj => ?_, List.forall_mem_singleton.2 ⟨?_, c.state.shared, ?_, ?_⟩⟩
    · rw [Function.update_of_ne (hne j hj)]
      dsimp only
      rw [Function.update_of_ne (hne j hj)]
      exact hcopied j hj
    · exact Nat.le_of_eq (Function.update_self ..)
    · rw [Function.update_self, List.take_length]
      exact h.shared
    · exact Function.update_self ..

/-- **Copying rule.**  If the handler never fails under an invariant, neither does any schedule, and
what it has copied is of moments in their order. -/
theorem scan_total {I : σ → Prop} (hI : ∀ s k, I s → ∃ s', handler s k = .ok s' ∧ I s') (hs : I s)
    (hnodup : is.Nodup) (table : ι → β) (ms : List (Move κ)) :
    ∃ c, ms.foldlM (Scan.step cell handler) ⟨⟨s, table⟩, is⟩ = .ok c ∧ Scanned cell handler s is ms c := by
  have hstep : ∀ ms m c, I c.state.shared ∧ Scanned cell handler s is ms c →
      ∃ c', Scan.step cell handler c m = .ok c' ∧ I c'.state.shared ∧ Scanned cell handler s is (ms ++ [m]) c' := by
    rintro ms m c ⟨hshared, h⟩
    cases m with
    | main =>
        cases htodo : c.todo with
        | nil => exact ⟨c, step_main_of_nil htodo, hshared, h.idle htodo⟩
        | cons i rest => exact ⟨_, step_main_of_cons htodo, hshared, h.main hnodup htodo⟩
    | interrupt k =>
        obtain ⟨s', hs', hI'⟩ := hI c.state.shared k hshared
        refine ⟨_, ?_, hI', h.interrupt hs'⟩
        rw [Scan.step, Preempt.step, Scan.interrupt, hs', Run.ok_bind, Run.ok_bind]
  obtain ⟨c, hc, -, h⟩ := Run.foldlM_total (P := fun ms c => I c.state.shared ∧ Scanned cell handler s is ms c)
    ⟨hs, scanned_start cell handler s is table⟩ hstep ms
  exact ⟨c, hc, h⟩

end Main

/-- What the table shows at the start and after each interrupt that makes a `change`. -/
def versions (handler : σ → κ → Except φ σ) (view : σ → V) (change : σ → κ → Prop)
    [∀ s k, Decidable (change s k)] : σ → List κ → List V
  | s, [] => [view s]
  | s, k :: ks =>
      match handler s k with
      | .error _ => [view s]
      | .ok s' =>
          if change s k then view s :: versions handler view change s' ks else versions handler view change s' ks

section Versions

variable {view : σ → V} {change : σ → κ → Prop} [∀ s k, Decidable (change s k)]

/-- The last version is what the table shows. -/
theorem versions_getLast {ks : List κ} {u : σ} (h : ks.foldlM handler s = .ok u) :
    (versions handler view change s ks).getLast? = some (view u) := by
  induction ks generalizing s with
  | nil =>
      cases h
      rfl
  | cons k ks ih =>
      rw [List.foldlM_cons, Run.bind_eq_ok] at h
      obtain ⟨s', hs', h⟩ := h
      rw [versions, hs']
      dsimp only
      split
      next => rw [List.getLast?_cons, ih h]; rfl
      next => exact ih h

variable (hkeep : ∀ s k s', handler s k = .ok s' → ¬ change s k → view s' = view s)

include hkeep

theorem versions_head (s : σ) (ks : List κ) : (versions handler view change s ks).head? = some (view s) := by
  induction ks generalizing s with
  | nil => rfl
  | cons k ks ih =>
      rw [versions]
      split
      · rfl
      next s' hs' =>
        split
        · rfl
        next hchange => rw [ih, hkeep s k s' hs' hchange]

/-- Interrupts only add versions. -/
theorem versions_prefix (s : σ) (ks ks' : List κ) :
    versions handler view change s ks <+: versions handler view change s (ks ++ ks') := by
  induction ks generalizing s with
  | nil =>
      obtain ⟨vs, hvs⟩ := List.head?_eq_some_iff.1 (versions_head hkeep s ([] ++ ks'))
      exact ⟨vs, hvs.symm⟩
  | cons k ks ih =>
      rw [List.cons_append, versions, versions]
      split
      · exact List.prefix_rfl
      · split
        · exact List.prefix_cons_inj _ |>.2 (ih _)
        · exact ih _

/-- **A copy is made of versions**, and none of an older one than the cell before. -/
theorem Scanned.versions {entry : V → ι → β} (h : Scanned (fun s => entry (view s)) handler s is ms c)
    (hdone : is.length ≤ mains ms) :
    ∃ version : ι → ℕ, is.Pairwise (fun i j => version i ≤ version j) ∧
      ∀ i ∈ is, ∃ v, (versions handler view change s (interrupts ms))[version i]? = some v ∧
        c.state.copied i = entry v i := by
  obtain ⟨moment, hordered, hcopied⟩ := h.moments
  rw [List.take_of_length_le hdone] at hordered hcopied
  have hsplit : ∀ n, (Preempt.versions handler view change s ((interrupts ms).take n)) <+:
      Preempt.versions handler view change s (interrupts ms) := by
    intro n
    conv_rhs => rw [← List.take_append_drop n (interrupts ms)]
    exact versions_prefix hkeep s _ _
  refine ⟨fun i => (Preempt.versions handler view change s ((interrupts ms).take (moment i))).length - 1,
    hordered.imp fun {i j} hij => Nat.sub_le_sub_right (List.IsPrefix.length_le ?_) 1, fun i hi => ?_⟩
  · rw [← Nat.min_eq_left hij, ← List.take_take]
    conv_rhs => rw [← List.take_append_drop (moment i) ((interrupts ms).take (moment j))]
    exact versions_prefix hkeep s _ _
  · obtain ⟨-, u, hu, hcell⟩ := hcopied i hi
    refine ⟨view u, ?_, hcell⟩
    obtain ⟨vs, hvs⟩ := hsplit (moment i)
    have hlast : (Preempt.versions handler view change s ((interrupts ms).take (moment i))).getLast? = _ :=
      versions_getLast hu
    rw [List.getLast?_eq_getElem?] at hlast
    rw [← hvs, List.getElem?_append_left (List.getElem?_eq_some_iff.1 hlast).1]
    exact hlast

end Versions

end Preempt
end GasSensor
