/-
# A tick inside the handler of a converter

CTIMER2 interrupts with priority 2 and the two converters with priority 3
(`ADC_Voltage_timer_setup`, `ADC_Voltage_Initialize`), so a tick can come
between the load, the addition and the store of `VoltageSum += convValue` and of
`CurrentSum += convValue`.  The handlers of the two converters do not interrupt
each other and are one thread here, whose instructions a tick preempts
anywhere.

`Nested` counts, besides the sampler, what has been delivered to each handler
and what completed visits have taken out of each sum.  A visit completed between
a load and its store takes the sum that has just been loaded, and the store
brings it back: `conserved_iff` says that this, and a sum beyond 32 bits, is all
that can go wrong.
-/

import GasSensor.Lib.Preempt
import GasSensor.Sampler.RoundRobin

namespace GasSensor
namespace Sampler

open Preempt

/-- The converters: `ADC0` for the voltage and `ADC1` for the current. -/
inductive Adc
  | adc0
  | adc1
  deriving DecidableEq

/-- The sum that the handler of a converter adds to. -/
def sum (s : Sampler) : Adc → ℕ
  | .adc0 => s.voltageSum
  | .adc1 => s.currentSum

def setSum (s : Sampler) (value : ℕ) : Adc → Sampler
  | .adc0 => { s with voltageSum := value }
  | .adc1 => { s with currentSum := value }

/-- `ADC0_IRQHandler` and `ADC1_IRQHandler`. -/
def adcIRQHandler (convValue : UInt16) (s : Sampler) : Adc → Sampler
  | .adc0 => adc0IRQHandler convValue s
  | .adc1 => adc1IRQHandler convValue s

section

variable {s : Sampler} {p : Params} {a b : Adc} {value : ℕ}

@[simp] theorem sum_setSum_self : (s.setSum value a).sum a = value := by
  cases a <;> rfl

theorem sum_setSum_of_ne (h : b ≠ a) : (s.setSum value a).sum b = s.sum b := by
  cases a <;> cases b <;> first | rfl | exact absurd rfl h

theorem Aligned.setSum (h : Aligned p s) : Aligned p (s.setSum value a) := by
  cases a <;> exact ⟨h.indices, h.position, h.mux⟩

theorem adcIRQHandler_eq (convValue : UInt16) :
    adcIRQHandler convValue s a = s.setSum ((s.sum a + convValue.toNat) % 2 ^ 32) a := by
  cases a <;> rfl

end

/-- What a handler does to its sum, as the processor executes it. -/
inductive Instr
  | load (a : Adc) (convValue : UInt16)
  | add (a : Adc) (convValue : UInt16)
  | store (a : Adc) (convValue : UInt16)
  deriving DecidableEq

/-- The handlers of a sequence of conversion results. -/
def handlers (rs : List (Adc × UInt16)) : List Instr :=
  rs.flatMap fun r => [.load r.1 r.2, .add r.1 r.2, .store r.1 r.2]

/-- The sampler with the register of the handler, and what is needed to count the
conversion results. -/
structure Nested where
  sampler : Sampler
  /-- The register that holds the sum between the load and the store. -/
  register : ℕ
  /-- The sum that was loaded last. -/
  loaded : ℕ
  /-- A visit has been completed since then. -/
  completed : Bool
  /-- The sum of the results delivered so far. -/
  delivered : Adc → ℕ
  /-- The total of the sums that completed visits have averaged. -/
  consumed : Adc → ℕ

/-- One instruction of a handler. -/
def exec (n : Nested) : Instr → Except Fault Nested
  | .load a x => .ok { n with
      register := n.sampler.sum a
      loaded := n.sampler.sum a
      completed := false
      delivered := Function.update n.delivered a (n.delivered a + x.toNat) }
  | .add _ x => .ok { n with register := (n.register + x.toNat) % 2 ^ 32 }
  | .store a _ => .ok { n with sampler := n.sampler.setSum n.register a }

/-- The interrupts of a priority above that of the converters. -/
inductive Irq
  | ctimer2
  | sysTick
  deriving DecidableEq

def Irq.event : Irq → Event
  | .ctimer2 => .tick
  | .sysTick => .sysTick

section
variable [Arithmetic]

/-- A whole run of the handler of such an interrupt. -/
def preempt (t : Target) (modbusFlag : Bool) (p : Params) (n : Nested) (k : Irq) : Except Fault Nested :=
  step t modbusFlag p n.sampler k.event >>= fun s' =>
    .ok (if Completes modbusFlag p n.sampler k.event then { n with
      sampler := s'
      completed := true
      consumed := fun a => n.consumed a + n.sampler.sum a }
    else { n with sampler := s' })

/-- One instruction of a handler or one interrupt of it. -/
abbrev nestedStep (t : Target) (modbusFlag : Bool) (p : Params) :
    Thread Nested Instr → Move Irq → Except Fault (Thread Nested Instr) :=
  Preempt.step exec (preempt t modbusFlag p)

/-- The results `rs` are to be delivered to a sampler that has received none. -/
def awaiting (s : Sampler) (rs : List (Adc × UInt16)) : Thread Nested Instr :=
  ⟨⟨s, 0, 0, false, fun _ => 0, fun _ => 0⟩, handlers rs⟩

omit [Arithmetic] in
/-- **The instructions make up the handler**: one that is not interrupted does what
`ADC0_IRQHandler` or `ADC1_IRQHandler` does. -/
theorem exec_handlers (rs : List (Adc × UInt16)) (n : Nested) :
    Nested.sampler <$> (handlers rs).foldlM exec n
      = .ok (rs.foldl (fun s r => adcIRQHandler r.2 s r.1) n.sampler) := by
  induction rs generalizing n with
  | nil => rfl
  | cons r rs ih =>
      obtain ⟨a, x⟩ := r
      rw [List.foldl_cons, adcIRQHandler_eq]
      exact ih _

/-- Handlers that no interrupt preempts leave what they leave one after the other. -/
theorem nestedStep_mains (t : Target) (modbusFlag : Bool) (p : Params) (rs : List (Adc × UInt16)) (n : Nested) :
    (fun c => c.state.sampler) <$> (List.replicate (handlers rs).length Move.main).foldlM
        (nestedStep t modbusFlag p) ⟨n, handlers rs⟩
      = .ok (rs.foldl (fun s r => adcIRQHandler r.2 s r.1) n.sampler) := by
  rw [← exec_handlers, Preempt.run_mains]
  cases (handlers rs).foldlM exec n with
  | ok n' => rfl
  | error f => rfl

/-- No handler of a converter is active. -/
def Quiescent (c : Thread Nested Instr) : Prop := ∃ rs, c.todo = handlers rs

/-- **Every result is in exactly one place**: what has been delivered is in the sum or has
been averaged by a completed visit. -/
def Conserved (n : Nested) : Prop := ∀ a, n.delivered a = n.sampler.sum a + n.consumed a

/-- A handler that stores now stores what it should: no visit has taken the sum it
loaded, unless that was 0, and the addition stays within 32 bits. -/
def StoreHarmless (c : Thread Nested Instr) (m : Move Irq) : Prop :=
  ∀ a x rest, m = .main → c.todo = .store a x :: rest →
    (c.state.completed = true → c.state.loaded = 0) ∧ c.state.loaded + x.toNat < 2 ^ 32

/-- A handler of `a` has loaded the sum and is about to add `x`: the result is neither in
the sum nor in a visit. -/
structure Pending (a : Adc) (x : UInt16) (n : Nested) : Prop where
  delivered : n.delivered a = x.toNat + n.sampler.sum a + n.consumed a
  others : ∀ b, b ≠ a → n.delivered b = n.sampler.sum b + n.consumed b
  loaded : n.loaded < 2 ^ 32
  sum : n.sampler.sum a = if n.completed then 0 else n.loaded

/-- Where the results are, at each instruction of the handlers. -/
inductive Accounted : Nested → List Instr → Prop
  | between {n rs} (h : Conserved n) : Accounted n (handlers rs)
  | loaded {n a x rs} (h : Pending a x n) (hr : n.register = n.loaded) :
      Accounted n (.add a x :: .store a x :: handlers rs)
  | added {n a x rs} (h : Pending a x n) (hr : n.register = (n.loaded + x.toNat) % 2 ^ 32) :
      Accounted n (.store a x :: handlers rs)

/-- The invariant of a run of harmless stores. -/
structure Balanced (p : Params) (c : Thread Nested Instr) : Prop where
  aligned : Aligned p c.state.sampler
  bounded : ∀ a, c.state.sampler.sum a < 2 ^ 32
  accounted : Accounted c.state c.todo

variable {t : Target} {modbusFlag : Bool} {p : Params} {n : Nested} {c : Thread Nested Instr} {a : Adc}
  {x : UInt16} {rs : List (Adc × UInt16)}

/-- What an interrupt does to the counts: nothing, or it completes a visit and moves both
sums to what has been averaged. -/
inductive Moves (n n' : Nested) : Prop
  | kept (hc : n'.completed = n.completed) (hs : n'.sampler.sum = n.sampler.sum)
      (hv : n'.consumed = n.consumed)
  | visit (hc : n'.completed = true) (hs : ∀ a, n'.sampler.sum a = 0)
      (hv : ∀ a, n'.consumed a = n.consumed a + n.sampler.sum a)

/-- **An interrupt of an aligned sampler.** -/
theorem preempt_ok (t : Target) (modbusFlag : Bool) (hp : p.Counted) (h : Aligned p n.sampler) (k : Irq) :
    ∃ n', preempt t modbusFlag p n k = .ok n' ∧ Aligned p n'.sampler ∧ n'.register = n.register ∧
      n'.loaded = n.loaded ∧ n'.delivered = n.delivered ∧ Moves n n' := by
  have hn : p.gStripCount ≠ 0 := by
    rw [hp.eq_length]
    exact (Nat.zero_lt_of_lt h.position).ne'
  cases k with
  | ctimer2 =>
      by_cases hlt : n.sampler.currentCountIndex < softwareAverageCount - 1
      · have hc : ¬ Completes modbusFlag p n.sampler .tick := fun hc => hc.2.2 hlt
        refine ⟨_, by rw [preempt, Irq.event, step, tick_of_lt hn hlt, Run.ok_bind, if_neg hc], ?_⟩
        refine ⟨⟨h.indices, h.position, h.mux⟩, rfl, rfl, rfl, .kept rfl ?_ rfl⟩
        funext a
        cases a <;> rfl
      · have hc : Completes modbusFlag p n.sampler .tick := ⟨rfl, fun hz => hn hz.1, hlt⟩
        refine ⟨_, by rw [preempt, Irq.event, step, tick_of_ge hp h hlt, Run.ok_bind, if_pos hc], ?_⟩
        refine ⟨h.afterVisit, rfl, rfl, rfl, .visit rfl (fun a => ?_) fun a => rfl⟩
        cases a <;> rfl
  | sysTick =>
      have hc : ¬ Completes modbusFlag p n.sampler .sysTick := by
        rintro ⟨h, -⟩
        cases h
      refine ⟨_, by rw [preempt, Irq.event, step, Run.ok_bind, if_neg hc], ?_⟩
      refine ⟨⟨h.indices, h.position, h.mux⟩, rfl, rfl, rfl, .kept rfl ?_ rfl⟩
      funext a
      cases a <;> rfl

omit [Arithmetic] in
/-- An interrupt between two handlers loses nothing. -/
theorem Conserved.moves {n' : Nested} (h : Conserved n) (hd : n'.delivered = n.delivered) (hm : Moves n n') :
    Conserved n' := by
  intro b
  have hb := h b
  rcases hm with ⟨-, hs, hv⟩ | ⟨-, hs, hv⟩
  · rw [hd, hs, hv]
    exact hb
  · rw [hd, hs, hv]
    omega

omit [Arithmetic] in
/-- The load makes its result pending. -/
theorem Conserved.load {n' : Nested} (h : Conserved n) (hlt : n.sampler.sum a < 2 ^ 32)
    (hload : exec n (.load a x) = .ok n') : Pending a x n' := by
  obtain rfl := Except.ok.inj hload
  refine ⟨?_, fun b hb => ?_, hlt, rfl⟩
  · have ha := h a
    simp only [Function.update_self]
    omega
  · simp only [Function.update_of_ne hb]
    exact h b

omit [Arithmetic] in
/-- An interrupt inside a handler leaves its result pending. -/
theorem Pending.moves {n' : Nested} (h : Pending a x n) (hd : n'.delivered = n.delivered)
    (hl : n'.loaded = n.loaded) (hm : Moves n n') : Pending a x n' := by
  have hdelivered := h.delivered
  rcases hm with ⟨hc, hs, hv⟩ | ⟨hc, hs, hv⟩
  · refine ⟨?_, fun b hb => ?_, hl ▸ h.loaded, ?_⟩
    · rw [hd, hs, hv, hdelivered]
    · rw [hd, hs, hv, h.others b hb]
    · rw [hs, hc, hl, h.sum]
  · refine ⟨?_, fun b hb => ?_, hl ▸ h.loaded, ?_⟩
    · rw [hd, hs, hv]
      omega
    · have hother := h.others b hb
      rw [hd, hs, hv]
      omega
    · rw [hs, hc, if_pos rfl]

theorem Balanced.preempt (t : Target) (modbusFlag : Bool) (hp : p.Counted) (h : Balanced p c) (k : Irq) :
    ∃ c', nestedStep t modbusFlag p c (.interrupt k) = .ok c' ∧ Balanced p c' := by
  obtain ⟨n, todo⟩ := c
  obtain ⟨ha, hb, hacc⟩ := h
  obtain ⟨n', hn', ha', hr, hl, hd, hm⟩ := preempt_ok t modbusFlag hp ha k
  refine ⟨⟨n', todo⟩, by rw [nestedStep, Preempt.step, hn', Run.ok_bind], ha', fun b => ?_, ?_⟩
  · rcases hm with ⟨-, hs, -⟩ | ⟨-, hs, -⟩
    · change n'.sampler.sum b < _
      rw [hs]
      exact hb b
    · change n'.sampler.sum b < _
      rw [hs]
      norm_num
  · change Accounted n todo at hacc
    cases hacc with
    | between h => exact .between (h.moves hd hm)
    | loaded h hreg => exact .loaded (h.moves hd hl hm) (by rw [hr, hl, hreg])
    | added h hreg => exact .added (h.moves hd hl hm) (by rw [hr, hl, hreg])

omit [Arithmetic] in
/-- **The store decides.**  It completes the handler with everything in one place exactly if it is
harmless. -/
theorem Pending.conserved_store_iff (h : Pending a x n) (hr : n.register = (n.loaded + x.toNat) % 2 ^ 32) :
    Conserved { n with sampler := n.sampler.setSum n.register a } ↔
      (n.completed = true → n.loaded = 0) ∧ n.loaded + x.toNat < 2 ^ 32 := by
  have hdelivered := h.delivered
  have hsum := h.sum
  have hlt := h.loaded
  have hx := x.toNat_lt
  have hself : Conserved { n with sampler := n.sampler.setSum n.register a } ↔
      n.delivered a = n.register + n.consumed a := by
    constructor
    · intro hc
      simpa using hc a
    · intro ha b
      by_cases hb : b = a
      · subst hb
        simpa using ha
      · change n.delivered b = (n.sampler.setSum n.register a).sum b + n.consumed b
        rw [sum_setSum_of_ne hb, h.others b hb]
  rw [hself, hdelivered, hsum, hr]
  cases hc : n.completed with
  | true =>
      simp only [if_true, true_implies]
      omega
  | false =>
      simp only [Bool.false_eq_true, if_false, false_implies, true_and]
      omega

omit [Arithmetic] in
/-- Between two handlers everything is in one place. -/
theorem Accounted.conserved {todo : List Instr} (h : Accounted n todo) (hq : ∃ rs, todo = handlers rs) :
    Conserved n := by
  obtain ⟨rs, hrs⟩ := hq
  match h with
  | .between h => exact h
  | .loaded _ _ => match rs with | [] => cases hrs | _ :: _ => cases hrs
  | .added _ _ => match rs with | [] => cases hrs | _ :: _ => cases hrs

/-- **The step lemma**: an instruction or an interrupt leaves the next point between two
handlers conserved exactly if it is not a store that does harm. -/
theorem Balanced.step (t : Target) (modbusFlag : Bool) (hp : p.Counted) (h : Balanced p c) (m : Move Irq) :
    ∃ c', nestedStep t modbusFlag p c m = .ok c' ∧
      ((Quiescent c' → Conserved c'.state) ↔ StoreHarmless c m) ∧ (StoreHarmless c m → Balanced p c') := by
  -- a step that keeps the invariant and does not store
  have hkeeps : ∀ c', nestedStep t modbusFlag p c m = .ok c' → Balanced p c' → StoreHarmless c m →
      ∃ c', nestedStep t modbusFlag p c m = .ok c' ∧
        ((Quiescent c' → Conserved c'.state) ↔ StoreHarmless c m) ∧ (StoreHarmless c m → Balanced p c') :=
    fun c' hc' hb hs => ⟨c', hc', iff_of_true hb.accounted.conserved hs, fun _ => hb⟩
  match m with
  | .interrupt k =>
      obtain ⟨c', hc', hb⟩ := h.preempt t modbusFlag hp k
      exact hkeeps c' hc' hb fun _ _ _ hm => nomatch hm
  | .main =>
      obtain ⟨n, todo⟩ := c
      obtain ⟨ha, hb, hacc⟩ := h
      change Accounted n todo at hacc
      cases hacc with
      | @between rs hc =>
          match rs with
          | [] => exact hkeeps _ rfl ⟨ha, hb, .between hc⟩ fun _ _ _ _ hi => nomatch hi
          | (a, x) :: rs =>
              exact hkeeps _ rfl ⟨ha, hb, .loaded (hc.load (hb a) rfl) rfl⟩ fun _ _ _ _ hi => nomatch hi
      | loaded h hreg =>
          refine hkeeps _ rfl ⟨ha, hb, .added ⟨h.delivered, h.others, h.loaded, h.sum⟩ ?_⟩
            fun _ _ _ _ hi => nomatch hi
          change (n.register + _) % 2 ^ 32 = _
          rw [hreg]
      | @added a x rs h hreg =>
          have hstore := h.conserved_store_iff hreg
          have hharmless : StoreHarmless ⟨n, .store a x :: handlers rs⟩ .main ↔
              (n.completed = true → n.loaded = 0) ∧ n.loaded + x.toNat < 2 ^ 32 := by
            constructor
            · exact fun hs => hs a x _ rfl rfl
            · intro hs _ _ _ _ htodo
              cases htodo
              exact hs
          rw [hharmless, ← hstore]
          refine ⟨_, rfl, ⟨fun hq => hq ⟨rs, rfl⟩, fun hc _ => hc⟩, fun hc => ?_⟩
          refine ⟨ha.setSum, fun b => ?_, .between hc⟩
          by_cases hne : b = a
          · subst hne
            change (n.sampler.setSum n.register b).sum b < _
            rw [sum_setSum_self, hreg]
            exact Nat.mod_lt _ (by norm_num)
          · change (n.sampler.setSum n.register a).sum b < _
            rw [sum_setSum_of_ne hne]
            exact hb b

/-- **When no conversion result is lost or counted twice.**  From a configuration with
at least one strip, over every sequence of results and every schedule of the interrupts:
at every point between two handlers the results delivered to a converter are those in its
sum and those in the visits completed, if and only if no handler stores a sum that a
visit completed since its load has taken, unless that sum was 0, or one beyond 32 bits. -/
theorem conserved_iff {t : Target} {modbusFlag : Bool} {p : Params} {malloc : Malloc ℕ}
    {rs : List (Adc × UInt16)} {ms : List (Move Irq)} (hp : p.Counted) (hpos : 0 < p.strips.length)
    (hm : (malloc p.gStripCount).isSome) (hf : p.muxFreq ≠ 0) :
    ∃ s₀, configure malloc p boot = .ok s₀ ∧
      ((∀ fs, fs <+: ms → ∃ c, fs.foldlM (nestedStep t modbusFlag p) (awaiting s₀ rs) = .ok c ∧
          (Quiescent c → Conserved c.state)) ↔
        Run.AtEveryStep (nestedStep t modbusFlag p) StoreHarmless (awaiting s₀ rs) ms) := by
  refine ⟨_, configure_eq hp hpos (by simp [boot]) hm hf, ?_⟩
  refine Run.foldlM_good_iff (I := Balanced p) ⟨⟨rfl, hpos, Mux.channel_selectMuxChannel _ _⟩, ?_, .between ?_⟩
    (fun c h => h.accounted.conserved) (fun c m h => h.step t modbusFlag hp m) ms
  · intro a
    cases a <;> exact Nat.two_pow_pos 32
  · intro a
    cases a <;> rfl

end

attribute [local instance] Arithmetic.uncontracted

/-- The hypotheses of `conserved_iff` are satisfiable: a tick between the load and the
addition, with two strips selected. -/
theorem conserved_iff_twoStrips :
    ∃ s₀, configure zeroedMalloc twoStrips boot = .ok s₀ ∧
      ((∀ fs, fs <+: [Move.main, .interrupt .ctimer2, .main, .main] → ∃ c,
          fs.foldlM (nestedStep .saturating false twoStrips) (awaiting s₀ [(.adc0, 7)]) = .ok c ∧
            (Quiescent c → Conserved c.state)) ↔
        Run.AtEveryStep (nestedStep .saturating false twoStrips) StoreHarmless (awaiting s₀ [(.adc0, 7)])
          [.main, .interrupt .ctimer2, .main, .main]) :=
  conserved_iff (by decide) (by decide) rfl (by decide)

/-- A tick and its result, and the last tick of the visit after the load of a second
result. -/
def lateTick : List (Move Irq) :=
  .interrupt .ctimer2 :: List.replicate 3 .main ++ (List.replicate 28 (.interrupt .ctimer2)
    ++ [.main, .interrupt .ctimer2, .main, .main])

/-- **A result is counted twice.**  The voltage result 7 of the first tick has been added; the
handler of the next one, 5, has loaded the sum 7 when the 30th tick completes the visit with
it.  The handler stores 12. -/
theorem voltage_counted_twice :
    ∃ s₀ c, configure zeroedMalloc twoStrips boot = .ok s₀ ∧
      lateTick.foldlM (nestedStep .saturating false twoStrips) (awaiting s₀ [(.adc0, 7), (.adc0, 5)]) = .ok c ∧
      Quiescent c ∧ c.state.delivered .adc0 = 12 ∧ c.state.sampler.sum .adc0 = 12 ∧
      c.state.consumed .adc0 = 7 ∧ ¬ Conserved c.state := by
  have hlost : ∀ n : Nested, n.delivered .adc0 = 12 → n.sampler.sum .adc0 = 12 → n.consumed .adc0 = 7 →
      ¬ Conserved n := by
    intro n hd hs hv h
    have := h .adc0
    omega
  simp only [lateTick, List.foldlM_append]
  exact ⟨_, _, configure_eq (by decide) (by decide) (by simp [boot]) rfl (by decide), rfl, ⟨[], rfl⟩, rfl,
    rfl, rfl, hlost _ rfl rfl rfl⟩

end Sampler
end GasSensor
