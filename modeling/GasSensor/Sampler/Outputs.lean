/-
# What a measurement writes

The values that arrive in `V_sens_strip_values` and `resistance_array` during a
measurement, one after the other.  `outputs` reads them off the run of the
sampler, `visitOutputs` computes them visit by visit from the averages alone,
and `outputs_eq` says that these are the same.

`visitOutputs_eq_iff` then compares two measurements that start with different
totals: what they write is the same exactly if the resistances of the first
round are.
-/

import GasSensor.Sampler.Visit

namespace GasSensor
namespace Sampler

/-- A value written to one of the two arrays. -/
inductive Written
  /-- `V_sens_strip_values[channel][0] = voltage; ...[1] = time;`. -/
  | voltage (channel voltage time : ℕ)
  /-- `resistance_array[i][1] = time; ...[0] = resistance;`. -/
  | resistance (i : Strip) (resistance time : ℤ)
  deriving DecidableEq

/-- The entries of `resistance_array` that `calculate_resistance_array` writes, in order. -/
def resistances (p : Params) (entry : Strip → ℤ × ℤ) : List Written :=
  p.strips.map fun i => .resistance i (entry i).1 (entry i).2

/-- The values a step from `s` to `s'` writes. -/
def written (modbusFlag : Bool) (p : Params) (s s' : Sampler) (e : Event) : List Written :=
  if Completes modbusFlag p s e then
    match s.activeStripIndices.read s.currentActiveStripIndex with
    | .error _ => []
    | .ok channel => .voltage channel s'.resultVoltage s.gTimestampMs ::
        if s'.currentActiveStripIndex = 0 then resistances p s'.resistanceArray else []
  else []

variable [Arithmetic]

/-- The values written over a sequence of interrupts, up to the first fault. -/
def outputs (t : Target) (modbusFlag : Bool) (p : Params) : Sampler → List Event → List Written
  | _, [] => []
  | s, e :: es =>
      match step t modbusFlag p s e with
      | .error _ => []
      | .ok s' => written modbusFlag p s s' e ++ outputs t modbusFlag p s' es

variable {t : Target} {modbusFlag : Bool} {p : Params} {s s' : Sampler} {e : Event} {es : List Event}

/-- A sampler that cannot read its block writes nothing. -/
theorem outputs_of_unreadable (hs : ∀ i channel, s.activeStripIndices.read i ≠ .ok channel) :
    outputs t modbusFlag p s es = [] := by
  induction es generalizing s with
  | nil => rfl
  | cons e es ih =>
      rw [outputs]
      cases hstep : step t modbusFlag p s e with
      | error f => rfl
      | ok s' =>
          have hblock := step_activeStripIndices hstep
          have hwritten : written modbusFlag p s s' e = [] := by
            unfold written
            cases hread : s.activeStripIndices.read s.currentActiveStripIndex with
            | error f => simp
            | ok channel => exact absurd hread (hs _ _)
          simp only [hwritten, List.nil_append]
          exact ih (by rw [hblock]; exact hs)

/-- What arrives during one visit: the sums of the voltage and current results, and
the time of its 30th tick. -/
structure Gathered where
  voltage : ℕ
  current : ℕ
  time : ℕ
  deriving DecidableEq

/-- Cut a sequence of interrupts into visits, with `count` ticks, the sums `x` and `y`
and the clock at the beginning.  What comes after the last 30th tick is dropped. -/
def gather (count x y clock : ℕ) : List Event → List Gathered
  | [] => []
  | .tick :: es =>
      if count < softwareAverageCount - 1 then gather (count + 1) x y clock es
      else ⟨x, y, clock⟩ :: gather 0 0 0 clock es
  | .voltage v :: es => gather count (x + v.toNat) y clock es
  | .current c :: es => gather count x (y + c.toNat) clock es
  | .sysTick :: es => gather count x y ((clock + 1) % 2 ^ 32) es

/-- The average of a sum in a `uint32_t` that has `left` in it at the beginning. -/
def averageOf (left sum : ℕ) : ℕ := (left + sum) % 2 ^ 32 / softwareAverageCount

/-- The averages of a visit, and its time. -/
structure Averages where
  voltage : ℕ
  current : ℕ
  time : ℕ
  deriving DecidableEq

/-- The averages of a visit when the two sums begin with `v` and `c`. -/
def Gathered.averages (v c : ℕ) (g : Gathered) : Averages :=
  ⟨averageOf v g.voltage, averageOf c g.current, g.time⟩

/-- The averages of a measurement whose first visit begins with the sums `v` and `c`. -/
def allAverages (v c : ℕ) : List Gathered → List Averages
  | [] => []
  | g :: gs => g.averages v c :: gs.map (·.averages 0 0)

omit [Arithmetic] in
theorem allAverages_zero (gs : List Gathered) : allAverages 0 0 gs = gs.map (·.averages 0 0) := by
  cases gs <;> rfl

/-- The entries of the resistances of a round with the given total. -/
def roundEntry (t : Target) (p : Params) (stored : Strip → ℕ × ℕ) (total : ℕ) (i : Strip) : ℤ × ℤ :=
  (resistance t (stored i).1 (total / p.strips.length), intOfU32 (stored i).2)

/-- The values written from the `j`-th visit of a round on, with the total of the
round and the voltages stored so far. -/
def visitOutputs (t : Target) (p : Params) (j total : ℕ) (stored : Strip → ℕ × ℕ) :
    List Averages → List Written
  | [] => []
  | a :: as =>
      let total := (total + a.current) % 2 ^ 32
      let stored := Function.update stored (p.stripAt j) (a.voltage, a.time)
      .voltage (p.stripAt j) a.voltage a.time ::
        if (j + 1) % p.strips.length = 0 then
          resistances p (roundEntry t p stored total) ++ visitOutputs t p 0 0 stored as
        else visitOutputs t p ((j + 1) % p.strips.length) total stored as

/-- What the 30th tick of an aligned sampler writes. -/
theorem written_of_ge (hp : p.Counted) (ha : Aligned p s)
    (h : ¬ s.currentCountIndex < softwareAverageCount - 1) :
    written modbusFlag p s (afterVisit t p s) .tick
      = .voltage (p.stripAt s.currentActiveStripIndex) s.voltageAverage s.gTimestampMs ::
        if (s.currentActiveStripIndex + 1) % p.strips.length = 0 then
          resistances p (roundEntry t p
            (Function.update s.vSensStripValues (p.stripAt s.currentActiveStripIndex)
              (s.voltageAverage, s.gTimestampMs))
            ((s.totalAdcSummation + s.currentAverage) % 2 ^ 32))
        else [] := by
  have hn : p.gStripCount ≠ 0 := by
    rw [hp.eq_length]
    have := ha.position
    omega
  have hyes : Completes modbusFlag p s .tick := ⟨rfl, by simp [hn], h⟩
  rw [written, if_pos hyes, read_index ha.indices ha.position]
  change Written.voltage _ _ _ :: (if (s.currentActiveStripIndex + 1) % p.strips.length = 0 then _ else _) = _
  by_cases h0 : (s.currentActiveStripIndex + 1) % p.strips.length = 0
  · rw [if_pos h0, if_pos h0]
    congr 1
    refine List.map_congr_left fun i hi => ?_
    have hi' : p.activeStrips i = true := mem_stripList.1 hi
    simp [afterVisit, visited, roundEntry, h0, hi']
  · rw [if_neg h0, if_neg h0]
    rfl

/-- **The interrupts write what the visits compute.** -/
theorem outputs_eq (hp : p.Counted) (ha : Aligned p s) {v c x y : ℕ}
    (hv : s.voltageSum = (v + x) % 2 ^ 32) (hc : s.currentSum = (c + y) % 2 ^ 32) :
    outputs t modbusFlag p s es = visitOutputs t p s.currentActiveStripIndex s.totalAdcSummation
      s.vSensStripValues (allAverages v c (gather s.currentCountIndex x y s.gTimestampMs es)) := by
  induction es generalizing s v c x y with
  | nil => rfl
  | cons e es ih =>
      have hpos : 0 < p.strips.length := by have := ha.position; omega
      have hn : p.gStripCount ≠ 0 := by rw [hp.eq_length]; omega
      cases e with
      | voltage r =>
          have hnot : ¬ Completes modbusFlag p s (.voltage r) := fun h => by cases h.1
          simp only [outputs, step, written, if_neg hnot, List.nil_append, gather]
          refine ih (s := adc0IRQHandler r s) ⟨ha.indices, ha.position, ha.mux⟩ ?_ hc
          change (s.voltageSum + r.toNat) % 2 ^ 32 = _
          rw [hv, Nat.mod_add_mod, Nat.add_assoc]
      | current r =>
          have hnot : ¬ Completes modbusFlag p s (.current r) := fun h => by cases h.1
          simp only [outputs, step, written, if_neg hnot, List.nil_append, gather]
          refine ih (s := adc1IRQHandler r s) ⟨ha.indices, ha.position, ha.mux⟩ hv ?_
          change (s.currentSum + r.toNat) % 2 ^ 32 = _
          rw [hc, Nat.mod_add_mod, Nat.add_assoc]
      | sysTick =>
          have hnot : ¬ Completes modbusFlag p s .sysTick := fun h => by cases h.1
          simp only [outputs, step, written, if_neg hnot, List.nil_append, gather]
          exact ih (s := sysTickHandler s) ⟨ha.indices, ha.position, ha.mux⟩ hv hc
      | tick =>
          by_cases hlt : s.currentCountIndex < softwareAverageCount - 1
          · have hnot : ¬ Completes modbusFlag p s .tick := fun h => h.2.2 hlt
            simp only [outputs, step, tick_of_lt hn hlt, written, if_neg hnot, List.nil_append, gather,
              if_pos hlt]
            exact ih (s := { s with
              triggers := s.triggers + 1
              currentCountIndex := s.currentCountIndex + 1 }) ⟨ha.indices, ha.position, ha.mux⟩ hv hc
          · -- a visit is completed, and the next one begins with nothing in the sums
            have hnext := ih (s := afterVisit t p s) ha.afterVisit (v := 0) (c := 0) (x := 0) (y := 0) rfl rfl
            have hvolt : averageOf v x = s.voltageAverage := by rw [voltageAverage, hv, averageOf]
            have hcur : averageOf c y = s.currentAverage := by rw [currentAverage, hc, averageOf]
            rw [allAverages_zero] at hnext
            simp only [outputs, step, tick_of_ge hp ha hlt, written_of_ge hp ha hlt, hnext, gather,
              if_neg hlt, allAverages, visitOutputs, Gathered.averages, hvolt, hcur, List.cons_append]
            by_cases h0 : (s.currentActiveStripIndex + 1) % p.strips.length = 0
            · simp only [afterVisit, visited, h0, if_true]
            · simp only [afterVisit, visited, h0, if_false, List.nil_append]

omit [Arithmetic] in
/-- A visit makes the stored voltages of two measurements agree on one strip more. -/
theorem update_agree {j : ℕ} {stored₁ stored₂ : Strip → ℕ × ℕ} (x : ℕ × ℕ)
    (h : ∀ k < j, stored₁ (p.stripAt k) = stored₂ (p.stripAt k)) :
    ∀ k < j + 1, Function.update stored₁ (p.stripAt j) x (p.stripAt k)
      = Function.update stored₂ (p.stripAt j) x (p.stripAt k) := by
  intro k hk
  rw [Function.update_apply, Function.update_apply]
  rcases Nat.lt_succ_iff_lt_or_eq.1 hk with hlt | rfl
  · rw [h k hlt]
  · rw [if_pos rfl, if_pos rfl]

omit [Arithmetic] in
theorem forall_mem_strips_iff {P : Strip → Prop} :
    (∀ i ∈ p.strips, P i) ↔ ∀ k < p.strips.length, P (p.stripAt k) := by
  constructor
  · exact fun h k hk => h _ (mem_stripList.2 (Params.active_stripAt (by omega) k))
  · intro h i hi
    obtain ⟨k, hk, rfl⟩ := Params.exists_stripAt (mem_stripList.1 hi)
    exact h k hk

omit [Arithmetic] in
/-- What is stored for the strips of a round after one visit more. -/
theorem forall_stored_iff {P : ℕ → Prop} {j : ℕ} (hj : j < p.strips.length) (stored : Strip → ℕ × ℕ)
    (voltage time : ℕ) :
    (∀ k < j + 1, P (Function.update stored (p.stripAt j) (voltage, time) (p.stripAt k)).1) ↔
      (∀ k < j, P (stored (p.stripAt k)).1) ∧ P voltage := by
  have hother : ∀ k < j, Function.update stored (p.stripAt j) (voltage, time) (p.stripAt k)
      = stored (p.stripAt k) := fun k hk =>
    Function.update_of_ne (Params.stripAt_lt_stripAt hk hj).ne _ _
  constructor
  · intro h
    refine ⟨fun k hk => ?_, ?_⟩
    · rw [← hother k hk]
      exact h k (by omega)
    · have hlast := h j (by omega)
      rwa [Function.update_self] at hlast
  · rintro ⟨h, hlast⟩ k hk
    rcases Nat.lt_succ_iff_lt_or_eq.1 hk with hlt | rfl
    · rw [hother k hlt]
      exact h k hlt
    · rwa [Function.update_self]

/-- **Voltages of earlier measurements do not matter**: only what this round has stored
is read. -/
theorem visitOutputs_congr {j total : ℕ} {stored₁ stored₂ : Strip → ℕ × ℕ} (hj : j < p.strips.length)
    (h : ∀ k < j, stored₁ (p.stripAt k) = stored₂ (p.stripAt k)) (as : List Averages) :
    visitOutputs t p j total stored₁ as = visitOutputs t p j total stored₂ as := by
  induction as generalizing j total stored₁ stored₂ with
  | nil => rfl
  | cons a as ih =>
      have hstored := update_agree (a.voltage, a.time) h
      rw [visitOutputs, visitOutputs]
      by_cases h0 : (j + 1) % p.strips.length = 0
      · -- the round is closed: every strip of it has been stored
        have hj1 : j + 1 = p.strips.length := by
          by_contra hne
          rw [Nat.mod_eq_of_lt (by omega)] at h0
          omega
        rw [if_pos h0, if_pos h0, ih (by omega) fun k hk => absurd hk (Nat.not_lt_zero k)]
        congr 2
        refine List.map_congr_left fun i hi => ?_
        obtain ⟨k, hk, rfl⟩ := Params.exists_stripAt (mem_stripList.1 hi)
        simp only [roundEntry, hstored k (by omega)]
      · have hlt : j + 1 < p.strips.length := by
          by_contra hge
          exact h0 (by rw [show j + 1 = p.strips.length by omega, Nat.mod_self])
        rw [if_neg h0, if_neg h0, Nat.mod_eq_of_lt hlt, ih hlt hstored]

/-- The total of the current averages of some visits, in a `uint32_t` that begins with
`total`. -/
def roundTotal (total : ℕ) (as : List Averages) : ℕ := (total + (as.map (·.current)).sum) % 2 ^ 32

omit [Arithmetic] in
theorem roundTotal_cons (total : ℕ) (a : Averages) (as : List Averages) :
    roundTotal total (a :: as) = roundTotal ((total + a.current) % 2 ^ 32) as := by
  rw [roundTotal, roundTotal, List.map_cons, List.sum_cons, Nat.mod_add_mod, Nat.add_assoc]

/-- Two totals give the same resistance for a voltage. -/
def SameResistance (t : Target) (p : Params) (total₁ total₂ voltage : ℕ) : Prop :=
  resistance t voltage (total₁ / p.strips.length) = resistance t voltage (total₂ / p.strips.length)

/-- The entries of a round agree for two totals exactly if its resistances do. -/
theorem resistances_eq_iff {stored : Strip → ℕ × ℕ} {total₁ total₂ : ℕ} :
    resistances p (roundEntry t p stored total₁) = resistances p (roundEntry t p stored total₂) ↔
      ∀ k < p.strips.length, SameResistance t p total₁ total₂ (stored (p.stripAt k)).1 := by
  rw [← forall_mem_strips_iff (P := fun i => SameResistance t p total₁ total₂ (stored i).1)]
  unfold resistances
  rw [List.map_inj_left]
  simp [roundEntry, SameResistance]

/-- **Two totals.**  From the `j`-th visit of a round on, measurements that differ in
the total of the round write the same exactly if the round is not completed or
both totals give the same resistances for all its strips. -/
theorem visitOutputs_eq_iff {j total₁ total₂ : ℕ} {stored : Strip → ℕ × ℕ} (hj : j < p.strips.length)
    (as : List Averages) :
    visitOutputs t p j total₁ stored as = visitOutputs t p j total₂ stored as ↔
      (p.strips.length ≤ j + as.length →
        (∀ k < j, SameResistance t p (roundTotal total₁ (as.take (p.strips.length - j)))
          (roundTotal total₂ (as.take (p.strips.length - j))) (stored (p.stripAt k)).1) ∧
        ∀ a ∈ as.take (p.strips.length - j), SameResistance t p
          (roundTotal total₁ (as.take (p.strips.length - j)))
          (roundTotal total₂ (as.take (p.strips.length - j))) a.voltage) := by
  induction as generalizing j total₁ total₂ stored with
  | nil =>
      refine ⟨fun _ h => ?_, fun _ => rfl⟩
      rw [List.length_nil] at h
      omega
  | cons a as ih =>
      have htake : (a :: as).take (p.strips.length - j) = a :: as.take (p.strips.length - (j + 1)) := by
        rw [show p.strips.length - j = (p.strips.length - (j + 1)) + 1 by omega, List.take_succ_cons]
      rw [visitOutputs, visitOutputs, htake]
      simp only [List.cons.injEq, true_and, roundTotal_cons, List.forall_mem_cons, ← and_assoc]
      rw [← forall_stored_iff (P := fun voltage => SameResistance t p _ _ voltage) hj stored a.voltage a.time]
      by_cases h0 : (j + 1) % p.strips.length = 0
      · have hj1 : j + 1 = p.strips.length := by
          by_contra hne
          rw [Nat.mod_eq_of_lt (by omega)] at h0
          omega
        have hrest : as.take (p.strips.length - (j + 1)) = [] := by
          rw [hj1, Nat.sub_self, List.take_zero]
        have htotal : ∀ n : ℕ, roundTotal (n % 2 ^ 32) [] = n % 2 ^ 32 := fun n => by simp [roundTotal]
        rw [if_pos h0, if_pos h0, List.append_left_inj, resistances_eq_iff, hrest, htotal, htotal, hj1]
        constructor
        · exact fun h _ => ⟨h, fun b hb => absurd hb List.not_mem_nil⟩
        · exact fun h => (h (by rw [List.length_cons]; omega)).1
      · have hlt : j + 1 < p.strips.length := by
          by_contra hge
          exact h0 (by rw [show j + 1 = p.strips.length by omega, Nat.mod_self])
        rw [if_neg h0, if_neg h0, Nat.mod_eq_of_lt hlt, ih hlt, List.length_cons,
          show j + 1 + as.length = j + (as.length + 1) by omega]

/-- What is left in the three sums of `adc_16_strip.c`. -/
structure Leftover where
  voltageSum : ℕ
  currentSum : ℕ
  totalAdcSummation : ℕ
  deriving DecidableEq

def leftover (s : Sampler) : Leftover := ⟨s.voltageSum, s.currentSum, s.totalAdcSummation⟩

/-- The averages of a measurement that begins with `l` in its sums. -/
def Leftover.averages (l : Leftover) (gs : List Gathered) : List Averages :=
  allAverages l.voltageSum l.currentSum gs

/-- The total of the current averages of its first round. -/
def Leftover.firstTotal (p : Params) (l : Leftover) (gs : List Gathered) : ℕ :=
  roundTotal l.totalAdcSummation ((l.averages gs).take p.strips.length)

/-- **What is left over does not show**: the first visit has the same voltage average,
and if the first round is completed, the two totals of its current averages give
the same resistances for its voltage averages. -/
def Unaffected (t : Target) (p : Params) (l₁ l₂ : Leftover) (gs : List Gathered) : Prop :=
  (l₁.averages gs).head?.map (·.voltage) = (l₂.averages gs).head?.map (·.voltage) ∧
    (p.strips.length ≤ gs.length → ∀ a ∈ (l₁.averages gs).take p.strips.length,
      SameResistance t p (l₁.firstTotal p gs) (l₂.firstTotal p gs) a.voltage)

theorem unaffected_nil (hpos : 0 < p.strips.length) {l₁ l₂ : Leftover} : Unaffected t p l₁ l₂ [] := by
  refine ⟨rfl, fun h => ?_⟩
  rw [List.length_nil] at h
  omega

/-- The current average of a visit may as well be in the total before it. -/
theorem visitOutputs_cons_current {j total : ℕ} {stored : Strip → ℕ × ℕ} (a : Averages) (as : List Averages) :
    visitOutputs t p j total stored (a :: as)
      = visitOutputs t p j (total + a.current) stored (⟨a.voltage, 0, a.time⟩ :: as) := rfl

/-- **Two measurements of the same conversions** write the same exactly if what was
left over does not show. -/
theorem visitOutputs_leftover_iff (hpos : 0 < p.strips.length) {l₁ l₂ : Leftover}
    {stored₁ stored₂ : Strip → ℕ × ℕ} (gs : List Gathered) :
    visitOutputs t p 0 l₁.totalAdcSummation stored₁ (l₁.averages gs)
        = visitOutputs t p 0 l₂.totalAdcSummation stored₂ (l₂.averages gs) ↔ Unaffected t p l₁ l₂ gs := by
  have hstored : visitOutputs t p 0 l₁.totalAdcSummation stored₁ (l₁.averages gs)
      = visitOutputs t p 0 l₁.totalAdcSummation stored₂ (l₁.averages gs) :=
    visitOutputs_congr hpos (fun k hk => absurd hk (Nat.not_lt_zero k)) _
  rw [hstored]
  cases gs with
  | nil => exact ⟨fun _ => unaffected_nil hpos, fun _ => rfl⟩
  | cons g gs =>
      set a₁ := g.averages l₁.voltageSum l₁.currentSum with ha₁
      set a₂ := g.averages l₂.voltageSum l₂.currentSum with ha₂
      set as := gs.map (·.averages 0 0) with has
      have h₁ : l₁.averages (g :: gs) = a₁ :: as := rfl
      have h₂ : l₂.averages (g :: gs) = a₂ :: as := rfl
      have htake : ∀ a : Averages, (a :: as).take p.strips.length = a :: as.take (p.strips.length - 1) := by
        intro a
        rw [show p.strips.length = (p.strips.length - 1) + 1 by omega, List.take_succ_cons]
        rfl
      have hlen : (g :: gs).length = as.length + 1 := by rw [List.length_cons, has, List.length_map]
      rw [Unaffected, Leftover.firstTotal, Leftover.firstTotal, h₁, h₂, hlen, htake, htake]
      by_cases hv : a₁.voltage = a₂.voltage
      · -- with the currents in the totals both measurements see the same averages
        have htotal : ∀ (total : ℕ) (a : Averages) (l : List Averages), roundTotal total (a :: l)
            = roundTotal (total + a.current) (⟨a.voltage, 0, a.time⟩ :: l) := by
          intro total a l
          rw [roundTotal_cons, roundTotal_cons, Nat.add_zero]
        have hsame : (⟨a₂.voltage, 0, a₂.time⟩ : Averages) = ⟨a₁.voltage, 0, a₁.time⟩ := by
          rw [hv]
          rfl
        rw [visitOutputs_cons_current, visitOutputs_cons_current a₂, htotal, htotal _ a₂, hsame,
          visitOutputs_eq_iff hpos, Nat.sub_zero, htake, List.length_cons, Nat.zero_add]
        simp [hv]
      · constructor
        · intro h
          rw [visitOutputs, visitOutputs] at h
          exact absurd (Written.voltage.inj (List.head_eq_of_cons_eq h)).2.1 hv
        · intro h
          exact absurd (Option.some.inj h.1) hv

end Sampler
end GasSensor
