/-
# What a machine puts out

A machine with a total step function `step` puts out `out s e` when it takes the
event `e` in state `s`.  `trace` is what it puts out over a run.

What every step extends by its event and its output holds of the run and its trace
(`foldl_history`), and a second machine that follows each step on its output follows the
run on the trace (`simulation`).
-/

import Mathlib.Data.List.Basic
import Mathlib.Data.List.Induction
import Mathlib.Tactic.Common

namespace GasSensor
namespace Trace

variable {σ δ ε β γ : Type*} {step : σ → ε → σ} {out : σ → ε → List β}

/-- The output over a run. -/
def trace (step : σ → ε → σ) (out : σ → ε → List β) : σ → List ε → List β
  | _, [] => []
  | s, e :: es => out s e ++ trace step out (step s e) es

@[simp] theorem trace_nil (step : σ → ε → σ) (out : σ → ε → List β) (s : σ) : trace step out s [] = [] := rfl

theorem trace_append (step : σ → ε → σ) (out : σ → ε → List β) (s : σ) (es fs : List ε) :
    trace step out s (es ++ fs) = trace step out s es ++ trace step out (es.foldl step s) fs := by
  induction es generalizing s with
  | nil => rfl
  | cons e es ih => rw [List.cons_append, trace, trace, ih, List.append_assoc, List.foldl_cons]

theorem trace_concat (step : σ → ε → σ) (out : σ → ε → List β) (s : σ) (es : List ε) (e : ε) :
    trace step out s (es ++ [e]) = trace step out s es ++ out (es.foldl step s) e := by
  rw [trace_append, trace, trace_nil, List.append_nil]

/-- The trace of an image of each output, under a map that respects concatenation. -/
theorem trace_image {f : List β → List γ} (hnil : f [] = []) (happend : ∀ a b, f (a ++ b) = f a ++ f b)
    (s : σ) (es : List ε) : trace step (fun s e => f (out s e)) s es = f (trace step out s es) := by
  induction es generalizing s with
  | nil => exact hnil.symm
  | cons e es ih => rw [trace, trace, ih, happend]

/-- Outputs that agree on the events of a run have the same trace. -/
theorem trace_congr {out' : σ → ε → List β} {es : List ε} (h : ∀ e ∈ es, ∀ s, out s e = out' s e) (s : σ) :
    trace step out s es = trace step out' s es := by
  induction es generalizing s with
  | nil => rfl
  | cons e es ih =>
      obtain ⟨he, hes⟩ := List.forall_mem_cons.1 h
      rw [trace, trace, he, ih hes]

/-- An output that does not depend on the state. -/
theorem trace_const (step : σ → ε → σ) (out : ε → List β) (s : σ) (es : List ε) :
    trace step (fun _ => out) s es = es.flatMap out := by
  induction es generalizing s with
  | nil => rfl
  | cons e es ih => rw [trace, ih, List.flatMap_cons]

/-- What is put out comes from what another output has. -/
theorem exists_of_mem_trace {out' : σ → ε → List γ} {P : γ → Prop} {b : β}
    (h : ∀ s e, b ∈ out s e → ∃ c ∈ out' s e, P c) {s : σ} {es : List ε} (hb : b ∈ trace step out s es) :
    ∃ c ∈ trace step out' s es, P c := by
  induction es generalizing s with
  | nil => cases hb
  | cons e es ih =>
      rw [trace, List.mem_append] at hb
      rcases hb with hb | hb
      · obtain ⟨c, hc, hP⟩ := h s e hb
        exact ⟨c, List.mem_append_left _ hc, hP⟩
      · obtain ⟨c, hc, hP⟩ := ih hb
        exact ⟨c, List.mem_append_right _ hc, hP⟩

/-- **Invariant rule with history**: what every step extends by its event and its output
holds of every run. -/
theorem foldl_history {I : List ε → List β → σ → Prop} {s : σ} (h₀ : I [] [] s)
    (hstep : ∀ es bs t e, I es bs t → I (es ++ [e]) (bs ++ out t e) (step t e)) (es : List ε) :
    I es (trace step out s es) (es.foldl step s) := by
  induction es using List.reverseRecOn with
  | nil => exact h₀
  | append_singleton es e ih =>
      rw [trace_concat, List.foldl_append]
      exact hstep es _ _ e ih

/-- **Simulation rule**: a machine that follows every step on its output follows every run on
its trace. -/
theorem simulation {R : σ → δ → Prop} {follow : δ → β → δ}
    (hstep : ∀ t d e, R t d → R (step t e) ((out t e).foldl follow d)) {s : σ} {d : δ} (h₀ : R s d)
    (es : List ε) : R (es.foldl step s) ((trace step out s es).foldl follow d) := by
  induction es generalizing s d with
  | nil => exact h₀
  | cons e es ih =>
      rw [trace, List.foldl_append]
      exact ih (hstep s d e h₀)

end Trace
end GasSensor
