/-
# A main thread preempted by interrupts

One thread executes a list of instructions; between any two of them an
interrupt handler may run to its end.  A `Thread` is the shared state with the
instructions still to come, a schedule is a list of `Move`s, and a run is the
fold of `step` over it.

Without interrupts a run is the program (`run_mains`).  `AtInterrupts P` says
that every interrupt of a schedule finds the thread in a configuration that
satisfies `P`.  An `Outline` annotates the instructions with assertions that
the handler keeps; `Outlined.atInterrupts_iff` is the rule it gives for what
holds at the interrupts.  An assertion about what has been executed needs a note
of it beside the state, and `atInterrupts_noting` forgets the note again.
-/

import GasSensor.Lib.Run

namespace GasSensor
namespace Preempt

universe u

/-- What happens next. -/
inductive Move (κ : Type*)
  /-- The main thread executes its next instruction, if there is one left. -/
  | main
  /-- The handler of an interrupt runs. -/
  | interrupt (k : κ)
  deriving DecidableEq

/-- The shared state and the instructions the main thread has still to execute. -/
structure Thread (σ ι : Type u) where
  state : σ
  todo : List ι

variable {σ ι : Type u} {κ φ : Type*} {exec : σ → ι → Except φ σ} {handler : σ → κ → Except φ σ}

/-- One instruction or one interrupt. -/
def step (exec : σ → ι → Except φ σ) (handler : σ → κ → Except φ σ) (c : Thread σ ι) :
    Move κ → Except φ (Thread σ ι)
  | .main =>
      match c.todo with
      | [] => .ok c
      | i :: rest => exec c.state i >>= fun s => .ok ⟨s, rest⟩
  | .interrupt k => handler c.state k >>= fun s => .ok ⟨s, c.todo⟩

theorem step_main_of_nil {c : Thread σ ι} (h : c.todo = []) : step exec handler c .main = .ok c := by
  rw [step, h]

theorem step_main_of_cons {c : Thread σ ι} {i : ι} {rest : List ι} (h : c.todo = i :: rest) :
    step exec handler c .main = exec c.state i >>= fun s => .ok ⟨s, rest⟩ := by
  rw [step, h]

/-- Every interrupt of the schedule finds a configuration that satisfies `P`. -/
def AtInterrupts (exec : σ → ι → Except φ σ) (handler : σ → κ → Except φ σ) (P : Thread σ ι → κ → Prop)
    (c : Thread σ ι) : List (Move κ) → Prop
  | [] => True
  | m :: ms =>
      (∀ k, m = .interrupt k → P c k) ∧
        ∀ c', step exec handler c m = .ok c' → AtInterrupts exec handler P c' ms

variable {P : Thread σ ι → κ → Prop} {c c' : Thread σ ι} {k : κ} {ms : List (Move κ)}

theorem atInterrupts_main (h : step exec handler c .main = .ok c') :
    AtInterrupts exec handler P c (.main :: ms) ↔ AtInterrupts exec handler P c' ms := by
  constructor
  · exact fun hP => hP.2 c' h
  · refine fun hP => ⟨fun k hk => (nomatch hk), fun c₁ h₁ => ?_⟩
    rwa [← Except.ok.inj (h.symm.trans h₁)]

theorem atInterrupts_interrupt (h : step exec handler c (.interrupt k) = .ok c') :
    AtInterrupts exec handler P c (.interrupt k :: ms) ↔ P c k ∧ AtInterrupts exec handler P c' ms := by
  constructor
  · exact fun hP => ⟨hP.1 k rfl, hP.2 c' h⟩
  · refine fun hP => ⟨fun k' hk => Move.interrupt.inj hk ▸ hP.1, fun c₁ h₁ => ?_⟩
    rw [← Except.ok.inj (h.symm.trans h₁)]
    exact hP.2

/-- **Without interrupts the run is the program.** -/
theorem run_mains (s : σ) (todo : List ι) :
    (List.replicate todo.length (Move.main : Move κ)).foldlM (step exec handler) ⟨s, todo⟩
      = (fun s' => ⟨s', []⟩) <$> todo.foldlM exec s := by
  induction todo generalizing s with
  | nil => rfl
  | cons i rest ih =>
      simp only [List.length_cons, List.replicate_succ, List.foldlM_cons, step]
      cases exec s i with
      | error e => rfl
      | ok s' => exact ih s'

/-- An assertion that implies `J` and that the handler keeps. -/
structure Kept (handler : σ → κ → Except φ σ) (J P : σ → Prop) : Prop where
  sound : ∀ s, P s → J s
  stable : ∀ s k s', P s → handler s k = .ok s' → P s'

/-- **A proof outline** of a list of instructions: an assertion stands before each of
them and after the last, each instruction leads from one to the next, and each
assertion is kept. -/
inductive Outline (exec : σ → ι → Except φ σ) (handler : σ → κ → Except φ σ) (J : σ → Prop) :
    (σ → Prop) → List ι → (σ → Prop) → Prop
  | nil {P Q : σ → Prop} (hP : Kept handler J P) (h : ∀ s, P s → Q s) : Outline exec handler J P [] Q
  | cons {P R Q : σ → Prop} {i : ι} {rest : List ι} (hP : Kept handler J P)
      (hexec : ∀ s s', P s → exec s i = .ok s' → R s') (h : Outline exec handler J R rest Q) :
      Outline exec handler J P (i :: rest) Q

namespace Outline

variable {J P P' R Q : σ → Prop} {i : ι} {a b : List ι}

theorem kept (h : Outline exec handler J P a Q) : Kept handler J P := by
  cases h with
  | nil hP => exact hP
  | cons hP => exact hP

/-- A stronger assertion before the first instruction. -/
theorem strengthen (h : Outline exec handler J P a Q) (hP' : Kept handler J P') (himp : ∀ s, P' s → P s) :
    Outline exec handler J P' a Q := by
  cases h with
  | nil _ hQ => exact .nil hP' fun s hs => hQ s (himp s hs)
  | cons _ hexec hrest => exact .cons hP' (fun s s' hs => hexec s s' (himp s hs)) hrest

/-- Outlines compose. -/
theorem append (h₁ : Outline exec handler J P a R) (h₂ : Outline exec handler J R b Q) :
    Outline exec handler J P (a ++ b) Q := by
  induction h₁ with
  | nil hP himp => exact h₂.strengthen hP himp
  | cons hP hexec _ ih => exact .cons hP hexec (ih h₂)

/-- An instruction between two assertions. -/
theorem single (hP : Kept handler J P) (hQ : Kept handler J Q)
    (hexec : ∀ s s', P s → exec s i = .ok s' → Q s') : Outline exec handler J P [i] Q :=
  .cons hP hexec (.nil hQ fun _ => id)

/-- Instructions that keep an assertion. -/
theorem of_forall (hP : Kept handler J P) (hexec : ∀ i ∈ a, ∀ s s', P s → exec s i = .ok s' → P s') :
    Outline exec handler J P a P := by
  induction a with
  | nil => exact .nil hP fun _ => id
  | cons i a ih =>
      exact .cons hP (hexec i List.mem_cons_self) (ih fun j hj => hexec j (List.mem_cons_of_mem i hj))

end Outline

/-- The thread is at an assertion of an outline of the instructions still to come. -/
def Outlined (exec : σ → ι → Except φ σ) (handler : σ → κ → Except φ σ) (J : σ → Prop) (c : Thread σ ι) :
    Prop :=
  ∃ P Q, P c.state ∧ Outline exec handler J P c.todo Q

variable {J : σ → Prop}

theorem Outlined.sound (h : Outlined exec handler J c) : J c.state := by
  obtain ⟨P, Q, hs, ho⟩ := h
  exact ho.kept.sound _ hs

/-- Instructions and interrupts stay inside the outline. -/
theorem Outlined.step {m : Move κ} (h : Outlined exec handler J c)
    (hstep : Preempt.step exec handler c m = .ok c') : Outlined exec handler J c' := by
  obtain ⟨s, todo⟩ := c
  obtain ⟨P, Q, hs, ho⟩ := h
  cases m with
  | main =>
      cases ho with
      | nil hP hQ =>
          cases hstep
          exact ⟨P, Q, hs, .nil hP hQ⟩
      | cons hP hexec hrest =>
          obtain ⟨s', hs', hstep⟩ := Run.bind_eq_ok.1 hstep
          cases hstep
          exact ⟨_, Q, hexec s s' hs hs', hrest⟩
  | interrupt k =>
      obtain ⟨s', hs', hstep⟩ := Run.bind_eq_ok.1 hstep
      cases hstep
      exact ⟨P, Q, ho.kept.stable s k s' hs hs', ho⟩

/-- **Safety rule.**  In a thread with a proof outline, two properties of interrupts
that are equivalent under `J` hold at the interrupts of the same runs. -/
theorem Outlined.atInterrupts_iff {A B : σ → κ → Prop} (h : Outlined exec handler J c)
    (hiff : ∀ s k, J s → (A s k ↔ B s k)) (ms : List (Move κ)) :
    AtInterrupts exec handler (fun c k => A c.state k) c ms ↔
      AtInterrupts exec handler (fun c k => B c.state k) c ms := by
  induction ms generalizing c with
  | nil => exact Iff.rfl
  | cons m ms ih =>
      refine and_congr (forall₂_congr fun k _ => hiff _ k h.sound) (forall₂_congr fun c' hc' => ?_)
      exact ih (h.step hc')

variable {α : Type u}

/-- An instruction, with a note of what has been executed that no code reads. -/
def execNoting (next : α → ι → α) (exec : σ → ι → Except φ σ) (s : σ × α) (i : ι) :
    Except φ (σ × α) :=
  exec s.1 i >>= fun s' => .ok (s', next s.2 i)

/-- The handler leaves the note alone. -/
def handlerNoting (handler : σ → κ → Except φ σ) (s : σ × α) (k : κ) : Except φ (σ × α) :=
  handler s.1 k >>= fun s' => .ok (s', s.2)

/-- The note on a program of which `todo` is still to come. -/
def note (next : α → ι → α) (a : α) (program todo : List ι) : α :=
  (program.take (program.length - todo.length)).foldl next a

theorem note_append (next : α → ι → α) (a : α) (done todo : List ι) :
    note next a (done ++ todo) todo = done.foldl next a := by
  rw [note, List.length_append, Nat.add_sub_cancel, List.take_left]

/-- **The note follows from the program.**  What is noted at an interrupt is the note on
what the main thread has executed by then. -/
theorem atInterrupts_noting (exec : σ → ι → Except φ σ) (handler : σ → κ → Except φ σ) (next : α → ι → α) (a : α)
    {P : σ → α → κ → Prop} (done : List ι)
    (c : Thread σ ι) (ms : List (Move κ)) :
    AtInterrupts (execNoting next exec) (handlerNoting handler) (fun c k => P c.state.1 c.state.2 k)
        ⟨(c.state, done.foldl next a), c.todo⟩ ms ↔
      AtInterrupts exec handler (fun c' k => P c'.state (note next a (done ++ c.todo) c'.todo) k) c ms := by
  induction ms generalizing c done with
  | nil => exact Iff.rfl
  | cons m ms ih =>
      obtain ⟨s, todo⟩ := c
      cases m with
      | main =>
          cases todo with
          | nil =>
              rw [atInterrupts_main (step_main_of_nil rfl), atInterrupts_main (step_main_of_nil rfl)]
              exact ih done ⟨s, []⟩
          | cons i rest =>
              have hih := ih (done ++ [i])
              simp only [List.foldl_append, List.foldl_cons, List.foldl_nil, List.append_assoc,
                List.singleton_append] at hih
              cases hexec : exec s i with
              | error f => simp [AtInterrupts, step, execNoting, hexec, Run.error_bind]
              | ok s' =>
                  have hstep : step exec handler ⟨s, i :: rest⟩ .main = .ok ⟨s', rest⟩ := by
                    simp [step, hexec, Run.ok_bind]
                  have hnoting : step (execNoting next exec) (handlerNoting handler)
                      ⟨(s, done.foldl next a), i :: rest⟩ .main = .ok ⟨(s', next (done.foldl next a) i), rest⟩ := by
                    simp [step, execNoting, hexec, Run.ok_bind]
                  rw [atInterrupts_main hstep, atInterrupts_main hnoting]
                  exact hih ⟨s', rest⟩
      | interrupt k =>
          have hnote := note_append next a done todo
          cases hk : handler s k with
          | error f => simp [AtInterrupts, step, handlerNoting, hk, Run.error_bind, hnote]
          | ok s' =>
              have hstep : step exec handler ⟨s, todo⟩ (.interrupt k) = .ok ⟨s', todo⟩ := by
                simp [step, hk, Run.ok_bind]
              have hnoting : step (execNoting next exec) (handlerNoting handler) ⟨(s, done.foldl next a), todo⟩
                  (.interrupt k) = .ok ⟨(s', done.foldl next a), todo⟩ := by
                simp [step, handlerNoting, hk, Run.ok_bind]
              rw [atInterrupts_interrupt hstep, atInterrupts_interrupt hnoting]
              dsimp only
              rw [hnote]
              exact and_congr Iff.rfl (ih done ⟨s', todo⟩)

end Preempt
end GasSensor
