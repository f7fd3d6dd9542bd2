/-
# Runs of a step function that can fail

A system here is a step function `σ → ε → Except φ σ`: it takes a state and an
event and either moves on or stops with a failure `φ`.  A run is the left fold
of the step over a list of events (`List.foldlM`).

`foldlM_invariant` is partial correctness: what every successful step keeps
holds after every successful run, with `foldlM_history` where it depends on the
events so far.  `foldlM_total` is total correctness with history: a property of
the events so far and the state, which every step can extend, holds after every
run, and no run fails.  The exactness rules say when a property that not every
step keeps holds throughout a run: exactly if every step is admissible.
-/

import Mathlib.Data.List.Induction
import Mathlib.Tactic.Common

namespace GasSensor
namespace Run

universe u

variable {σ τ : Type u} {ε φ : Type*} {step : σ → ε → Except φ σ}

@[simp] theorem ok_bind (a : σ) (f : σ → Except φ τ) : (Except.ok a >>= f) = f a := rfl

@[simp] theorem error_bind (e : φ) (f : σ → Except φ τ) : (Except.error e >>= f) = .error e := rfl

@[simp] theorem ok_map (f : σ → τ) (a : σ) : f <$> (.ok a : Except φ σ) = .ok (f a) := rfl

@[simp] theorem error_map (f : σ → τ) (e : φ) : f <$> (.error e : Except φ σ) = .error e := rfl

/-- A sequence of two computations succeeds exactly when the first succeeds and
the second succeeds on its result. -/
theorem bind_eq_ok {x : Except φ σ} {f : σ → Except φ τ} {b : τ} :
    (x >>= f) = .ok b ↔ ∃ a, x = .ok a ∧ f a = .ok b := by
  cases x with
  | error e =>
      constructor
      · intro h; cases h
      · rintro ⟨a, ha, -⟩; cases ha
  | ok a =>
      constructor
      · intro h; exact ⟨a, rfl, h⟩
      · rintro ⟨a', ha, h⟩; cases ha; exact h

/-- What is seen of a result that is there. -/
theorem map_eq_ok {x : Except φ σ} {f : σ → τ} {b : τ} : f <$> x = .ok b ↔ ∃ a, x = .ok a ∧ f a = b := by
  cases x with
  | error e =>
      constructor
      · intro h; cases h
      · rintro ⟨a, ha, -⟩; cases ha
  | ok a =>
      constructor
      · intro h; exact ⟨a, rfl, Except.ok.inj h⟩
      · rintro ⟨a', ha, h⟩; cases ha; exact congrArg Except.ok h

/-- A run over `es ++ [e]` is a run over `es` followed by one step. -/
theorem foldlM_concat (step : σ → ε → Except φ σ) (s : σ) (es : List ε) (e : ε) :
    (es ++ [e]).foldlM step s = es.foldlM step s >>= (step · e) := by
  simp only [List.foldlM_append, List.foldlM_cons, List.foldlM_nil, bind_pure]

/-- Two step functions that agree on the events of a run take the same run. -/
theorem foldlM_congr {step' : σ → ε → Except φ σ} {es : List ε} (h : ∀ e ∈ es, ∀ s, step s e = step' s e)
    (s : σ) : es.foldlM step s = es.foldlM step' s := by
  induction es generalizing s with
  | nil => rfl
  | cons e es ih =>
      obtain ⟨he, hes⟩ := List.forall_mem_cons.1 h
      rw [List.foldlM_cons, List.foldlM_cons, he]
      congr 1
      funext u
      exact ih hes u

/-- **Invariant rule.**  A property that every successful step keeps holds at
the end of every successful run. -/
theorem foldlM_invariant {I : σ → Prop} (hstep : ∀ s e t, I s → step s e = .ok t → I t)
    {es : List ε} {s t : σ} (h₀ : I s) (h : es.foldlM step s = .ok t) : I t := by
  induction es generalizing s with
  | nil => cases h; exact h₀
  | cons e es ih =>
      rw [List.foldlM_cons, bind_eq_ok] at h
      obtain ⟨u, hu, h⟩ := h
      exact ih (hstep s e u h₀ hu) h

/-- The invariant rule for runs whose events all satisfy `C`. -/
theorem foldlM_invariant_of_forall {I : σ → Prop} {C : ε → Prop}
    (hstep : ∀ s e t, I s → C e → step s e = .ok t → I t) {es : List ε} (hes : ∀ e ∈ es, C e) {s t : σ} (h₀ : I s)
    (h : es.foldlM step s = .ok t) : I t := by
  induction es generalizing s with
  | nil => cases h; exact h₀
  | cons e es ih =>
      obtain ⟨he, hes⟩ := List.forall_mem_cons.1 hes
      rw [List.foldlM_cons, bind_eq_ok] at h
      obtain ⟨u, hu, h⟩ := h
      exact ih hes (hstep s e u h₀ he hu) h

/-- **Total rule.**  If from every state that satisfies `P` after the events
`es` each step is defined and establishes `P` after one event more, then every
run is defined and ends with `P`. -/
theorem foldlM_total {P : List ε → σ → Prop} {s : σ} (h₀ : P [] s)
    (hstep : ∀ es e t, P es t → ∃ u, step t e = .ok u ∧ P (es ++ [e]) u) (es : List ε) :
    ∃ t, es.foldlM step s = .ok t ∧ P es t := by
  induction es using List.reverseRecOn with
  | nil => exact ⟨s, rfl, h₀⟩
  | append_singleton es e ih =>
      obtain ⟨t, ht, hP⟩ := ih
      obtain ⟨u, hu, hPu⟩ := hstep es e t hP
      refine ⟨u, ?_, hPu⟩
      rw [foldlM_concat, bind_eq_ok]
      exact ⟨t, ht, hu⟩

/-- **Invariant rule with history.**  What every successful step extends by its event holds of
the events and the state at the end of every successful run. -/
theorem foldlM_history {I : List ε → σ → Prop} {s : σ} (h₀ : I [] s)
    (hstep : ∀ es e t u, I es t → step t e = .ok u → I (es ++ [e]) u) {es : List ε} {t : σ}
    (h : es.foldlM step s = .ok t) : I es t := by
  induction es using List.reverseRecOn generalizing t with
  | nil =>
      cases h
      exact h₀
  | append_singleton es e ih =>
      rw [foldlM_concat, bind_eq_ok] at h
      obtain ⟨u, hu, ht⟩ := h
      exact hstep es e u t (ih hu) ht

/-! ### Runs all of whose steps are admissible -/

/-- Every step that a run over `es` takes from `s` is admissible: `C` holds of its event in
the state it finds. -/
def AtEveryStep (step : σ → ε → Except φ σ) (C : σ → ε → Prop) (s : σ) (es : List ε) : Prop :=
  ∀ fs e u v, fs ++ [e] <+: es → fs.foldlM step s = .ok u → step u e = .ok v → C u e

theorem atEveryStep_concat {C : σ → ε → Prop} {s : σ} {es : List ε} {e : ε} :
    AtEveryStep step C s (es ++ [e]) ↔ AtEveryStep step C s es ∧
      ∀ u v, es.foldlM step s = .ok u → step u e = .ok v → C u e := by
  constructor
  · intro h
    exact ⟨fun fs e' u v hfs => h fs e' u v (hfs.trans (List.prefix_append es [e])),
      fun u v => h es e u v List.prefix_rfl⟩
  · rintro ⟨hes, hlast⟩ fs e' u v hfs hu hv
    rcases List.prefix_concat_iff.1 hfs with heq | hfs
    · obtain ⟨rfl, he⟩ := List.append_inj' heq rfl
      obtain rfl : e' = e := List.singleton_inj.1 he
      exact hlast u v hu hv
    · exact hes fs e' u v hfs hu hv

/-- Every step that a run over `es` attempts from `s`, whether or not it succeeds, meets `C`
with the events before it, the state it finds, and its event. -/
def AtEveryAttempt (step : σ → ε → Except φ σ) (C : List ε → σ → ε → Prop) (s : σ) (es : List ε) : Prop :=
  ∀ fs e u, fs ++ [e] <+: es → fs.foldlM step s = .ok u → C fs u e

/-- Two conditions that agree under an invariant agree at every attempt of a run. -/
theorem atEveryAttempt_congr {I : List ε → σ → Prop} {C D : List ε → σ → ε → Prop} {s : σ} (h₀ : I [] s)
    (hstep : ∀ es e t u, I es t → step t e = .ok u → I (es ++ [e]) u)
    (hCD : ∀ es t e, I es t → (C es t e ↔ D es t e)) (es : List ε) :
    AtEveryAttempt step C s es ↔ AtEveryAttempt step D s es := by
  constructor
  · intro h fs e u hfs hu
    exact (hCD fs u e (foldlM_history h₀ hstep hu)).1 (h fs e u hfs hu)
  · intro h fs e u hfs hu
    exact (hCD fs u e (foldlM_history h₀ hstep hu)).2 (h fs e u hfs hu)

/-- The states of a run over `es ++ [e]` are those of the run over `es` and the last one. -/
theorem forall_prefix_concat {P : List ε → Prop} {es : List ε} {e : ε} :
    (∀ fs, fs <+: es ++ [e] → P fs) ↔ (∀ fs, fs <+: es → P fs) ∧ P (es ++ [e]) := by
  constructor
  · intro h
    exact ⟨fun fs hfs => h fs (hfs.trans (List.prefix_append es [e])), h _ List.prefix_rfl⟩
  · rintro ⟨hes, hlast⟩ fs hfs
    rcases List.prefix_concat_iff.1 hfs with rfl | hfs
    · exact hlast
    · exact hes fs hfs

/-- **Exactness rule.**  If under an invariant each step is defined and reaches a good
state exactly if it is admissible, after which the invariant holds again, then every state
of a run is good exactly if all its steps are admissible. -/
theorem foldlM_good_iff {I G : σ → Prop} {C : σ → ε → Prop} {s : σ} (h₀ : I s) (hgood : ∀ s, I s → G s)
    (hstep : ∀ s e, I s → ∃ t, step s e = .ok t ∧ (G t ↔ C s e) ∧ (C s e → I t)) (es : List ε) :
    (∀ fs, fs <+: es → ∃ t, fs.foldlM step s = .ok t ∧ G t) ↔ AtEveryStep step C s es := by
  have hrun : ∀ es, ((∀ fs, fs <+: es → ∃ t, fs.foldlM step s = .ok t ∧ G t) ↔ AtEveryStep step C s es) ∧
      (AtEveryStep step C s es → ∃ t, es.foldlM step s = .ok t ∧ I t) := by
    intro es
    induction es using List.reverseRecOn with
    | nil =>
        have hadm : AtEveryStep step C s [] := by
          intro fs e u v hfs
          exact absurd (List.prefix_nil.1 hfs) (List.append_ne_nil_of_right_ne_nil fs (by simp))
        refine ⟨⟨fun _ => hadm, fun _ fs hfs => ?_⟩, fun _ => ⟨s, rfl, h₀⟩⟩
        rw [List.prefix_nil.1 hfs]
        exact ⟨s, rfl, hgood s h₀⟩
    | append_singleton es e ih =>
        obtain ⟨hiff, hinv⟩ := ih
        rw [forall_prefix_concat, hiff, atEveryStep_concat]
        constructor
        · refine and_congr_right fun hes => ?_
          obtain ⟨u, hu, hIu⟩ := hinv hes
          obtain ⟨t, ht, hGt, -⟩ := hstep u e hIu
          rw [foldlM_concat, hu, ok_bind, ht]
          constructor
          · rintro ⟨t', ht', hG⟩ u' v hu' -
            cases hu'
            cases ht'
            exact hGt.1 hG
          · intro hC
            exact ⟨t, rfl, hGt.2 (hC u t rfl ht)⟩
        · rintro ⟨hes, hC⟩
          obtain ⟨u, hu, hIu⟩ := hinv hes
          obtain ⟨t, ht, -, hIt⟩ := hstep u e hIu
          exact ⟨t, by rw [foldlM_concat, hu, ok_bind, ht], hIt (hC u t hu ht)⟩
  exact (hrun es).1

/-- The exactness rule where admissibility depends on the event alone. -/
theorem foldlM_prefix_iff {I G : σ → Prop} {C : ε → Prop} {s : σ} (h₀ : I s) (hgood : ∀ s, I s → G s)
    (hstep : ∀ s e, I s → ∃ t, step s e = .ok t ∧ (G t ↔ C e) ∧ (C e → I t)) (es : List ε) :
    (∀ fs, fs <+: es → ∃ t, fs.foldlM step s = .ok t ∧ G t) ↔ ∀ e ∈ es, C e := by
  have hiff := foldlM_good_iff (C := fun _ => C) h₀ hgood hstep es
  constructor
  · intro h e he
    obtain ⟨fs, gs, rfl⟩ := List.append_of_mem he
    have hfs : fs ++ [e] <+: fs ++ e :: gs := ⟨gs, by simp⟩
    obtain ⟨u, hu, -⟩ := h fs (List.prefix_append fs _)
    obtain ⟨v, hv, -⟩ := h _ hfs
    rw [foldlM_concat, hu, ok_bind] at hv
    exact hiff.1 h fs e u v hfs hu hv
  · intro h
    exact hiff.2 fun fs e u v hfs _ _ => h e (hfs.subset (by simp))

/-- **Exactness rule for steps that can fail.**  If, besides an invariant `J`, a successful
step from a good state reaches a good state exactly if it is admissible, then every state
that a run reaches is good exactly if all its steps are admissible. -/
theorem foldlM_reached_iff {J G : σ → Prop} {C : σ → ε → Prop} {s : σ} (hJ₀ : J s) (hG₀ : G s)
    (hJ : ∀ s e t, J s → step s e = .ok t → J t)
    (hstep : ∀ s e t, J s → G s → step s e = .ok t → (G t ↔ C s e)) (es : List ε) :
    (∀ fs, fs <+: es → ∀ t, fs.foldlM step s = .ok t → G t) ↔ AtEveryStep step C s es := by
  constructor
  · intro h fs e u v hfs hu hv
    have hGu := h fs ((List.prefix_append fs [e]).trans hfs) u hu
    refine (hstep u e v (foldlM_invariant hJ hJ₀ hu) hGu hv).1 (h _ hfs v ?_)
    rw [foldlM_concat, hu, ok_bind, hv]
  · intro hadm fs
    induction fs using List.reverseRecOn with
    | nil =>
        intro _ t ht
        cases ht
        exact hG₀
    | append_singleton fs e ih =>
        intro hfs t ht
        rw [foldlM_concat, bind_eq_ok] at ht
        obtain ⟨u, hu, ht⟩ := ht
        have hGu := ih ((List.prefix_append fs [e]).trans hfs) u hu
        exact (hstep u e t (foldlM_invariant hJ hJ₀ hu) hGu ht).2 (hadm fs e u t hfs hu ht)

end Run
end GasSensor
