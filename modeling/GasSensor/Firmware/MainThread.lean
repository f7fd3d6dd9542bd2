/-
# The main thread, assignment by assignment

A configuration as the main thread executes it while the sampler may interrupt:
`Modbus_UpdateParameters`, or the loop that clears `active_strips` and
`updateParameters`, and then `InitializeAllPeripherals`, as a list of
assignments to what the two share.  Assignments to anything else (the hot plate,
DAC0, `ModbusParamChanged`) are left out: an interrupt next to one of them is an
interrupt next to its neighbour.

Only the main thread assigns parameters, so that the list can be written down
before it is executed.  `updateAssigns_run`, `lineAssigns_run` and
`initAssigns_run` say that without interrupts the lists do what the functions
they stand for do.
-/

import GasSensor.Firmware.Command
import GasSensor.Firmware.Applied
import GasSensor.Modbus.Server
import GasSensor.Sampler.Visit

namespace GasSensor

open Sampler Modbus

/-- What the main thread and the sampling interrupt share. -/
structure Device where
  params : Params
  sampler : Sampler

/-- The device when the firmware starts. -/
def Device.boot [Arithmetic] : Device := ⟨.boot, .boot⟩

namespace Firmware

/-- The assignments of the main thread. -/
inductive Assign
  /-- One of the six numbers among the parameters. -/
  | store (set : Params → Params)
  /-- `active_strips[i] = active;` -/
  | activeStrip (i : Strip) (active : Bool)
  /-- `g_strip_count = 0;` -/
  | resetStripCount
  /-- `g_strip_count++;` -/
  | incrementStripCount
  /-- `GPIO_PinWrite` on a pin of the multiplexer. -/
  | pin (set : Mux → Mux)
  /-- `if (active_strip_indices != NULL) free(active_strip_indices);` -/
  | freeIndices
  /-- `active_strip_indices = malloc(g_strip_count);` -/
  | allocateIndices (block : Block ℕ)
  /-- `active_strip_indices[index] = i;` -/
  | storeIndex (index : ℕ) (i : Strip)
  /-- `CTIMER_StopTimer(CTIMER2);` -/
  | stopTimer
  /-- `CTIMER_StartTimer(CTIMER2);` with the match value computed before. -/
  | startTimer
  /-- `current_active_strip_index = 0;` -/
  | resetStripIndex
  /-- `currentCountIndex = 0;` -/
  | resetCountIndex
  /-- `g_timestamp_ms = 0;` -/
  | resetTimestamp
  /-- `resistance_array[i][0] = 0;` -/
  | clearResistance (i : Strip)
  /-- `resistance_array[i][1] = 0;` -/
  | clearTime (i : Strip)

/-- One assignment. -/
def exec (d : Device) : Assign → Except Fault Device
  | .store set => .ok { d with params := set d.params }
  | .activeStrip i active => .ok { d with
      params := { d.params with activeStrips := Function.update d.params.activeStrips i active } }
  | .resetStripCount => .ok { d with params := { d.params with gStripCount := 0 } }
  | .incrementStripCount => .ok { d with
      params := { d.params with gStripCount := d.params.gStripCount + 1 } }
  | .pin set => .ok { d with sampler := { d.sampler with mux := set d.sampler.mux } }
  | .freeIndices => d.sampler.activeStripIndices.freeIfNonNull >>= fun block => .ok { d with
      sampler := { d.sampler with activeStripIndices := block } }
  | .allocateIndices block => .ok { d with sampler := { d.sampler with activeStripIndices := block } }
  | .storeIndex index i => d.sampler.activeStripIndices.write index i >>= fun block => .ok { d with
      sampler := { d.sampler with activeStripIndices := block } }
  | .stopTimer => .ok { d with sampler := { d.sampler with ctimer2 := none } }
  | .startTimer =>
      if d.params.muxFreq * softwareAverageCount = 0 then .error .divisionByZero
      else .ok { d with sampler := { d.sampler with
        ctimer2 := some (48000000 / (d.params.muxFreq * softwareAverageCount)) } }
  | .resetStripIndex => .ok { d with sampler := { d.sampler with currentActiveStripIndex := 0 } }
  | .resetCountIndex => .ok { d with sampler := { d.sampler with currentCountIndex := 0 } }
  | .resetTimestamp => .ok { d with sampler := { d.sampler with gTimestampMs := 0 } }
  | .clearResistance i => .ok { d with sampler := { d.sampler with
      resistanceArray := Function.update d.sampler.resistanceArray i (0, (d.sampler.resistanceArray i).2) } }
  | .clearTime i => .ok { d with sampler := { d.sampler with
      resistanceArray := Function.update d.sampler.resistanceArray i ((d.sampler.resistanceArray i).1, 0) } }

/-- `if (buffer[i] != 0) parameter = value;` -/
def storeUnlessZero (register : UInt16) (set : Params → Params) : List Assign :=
  if register ≠ 0 then [.store set] else []

/-- The loop of `Modbus_UpdateParameters` over the strips still to look at. -/
def countingFlags (active : Strip → Bool) (l : List Strip) : List Assign :=
  l.flatMap fun i =>
    if active i then [.activeStrip i true, .incrementStripCount] else [.activeStrip i false]

/-- `Modbus_UpdateParameters`. -/
def updateAssigns [Arithmetic] (buffer : Fin 7 → UInt16) : List Assign :=
  storeUnlessZero (buffer 0) (fun p => { p with waveType := (buffer 0).toNat - 1 })
    ++ storeUnlessZero (buffer 1) (fun p => { p with dutyCycle := (buffer 1).toNat })
    ++ storeUnlessZero (buffer 2) (fun p => { p with desiredFrequency := thousandth (buffer 2) })
    ++ storeUnlessZero (buffer 3) (fun p => { p with desiredAmplitude := (thousandth (buffer 3)).truncate })
    ++ storeUnlessZero (buffer 4) (fun p => { p with gExcitationVoltagePerResistor := thousandth (buffer 4) })
    ++ storeUnlessZero (buffer 5) (fun p => { p with muxFreq := (buffer 5).toNat })
    ++ if buffer 6 ≠ 0 then
        .resetStripCount :: countingFlags (fun i => (buffer 6).toNat.testBit i) (List.finRange 8)
      else []

/-- A line as `updateParameters` takes it apart: the tokens, the strip flags if there
are enough of them, and what `malloc` will answer. -/
structure Line where
  toks : List (List UInt8)
  flags : Option (Strip → Bool)
  malloc : Malloc ℕ

/-- The loop in `main` that resets `active_strips`, and `updateParameters`. -/
def lineAssigns [Arithmetic] (t : Target) (line : Line) : List Assign :=
  (List.finRange 8).map (.activeStrip · false)
    ++ List.zipWith (fun set tok => .store (set t tok)) numberFields line.toks
    ++ match line.flags with
      | none => []
      | some active => (List.finRange 8).map (fun i => .activeStrip i (active i))
          ++ .resetStripCount :: (stripList active).map fun _ => .incrementStripCount

/-- The parameters a line leaves. -/
def Line.params [Arithmetic] (t : Target) (line : Line) (p : Params) : Params :=
  let p := assignFields t numberFields line.toks { p with activeStrips := fun _ => false }
  match line.flags with
  | none => p
  | some active => { p with
      activeStrips := active
      gStripCount := countStrips active }

/-- `SelectMuxChannel`. -/
def selectPins (muxChannel : ℕ) : List Assign :=
  [.pin fun m => { m with s0 := muxChannel.testBit 0 }, .pin fun m => { m with s1 := muxChannel.testBit 1 },
    .pin fun m => { m with s2 := muxChannel.testBit 2 }]

/-- `InitMuxGpio`, `EnableMux` and `SelectMuxChannel(FirstActiveStrip())`. -/
def muxAssigns (p : Params) : List Assign :=
  [.pin fun m => { m with s0 := false }, .pin fun m => { m with s1 := false },
    .pin fun m => { m with s2 := false }, .pin fun m => { m with enable := false },
    .pin fun m => { m with enable := true }] ++ selectPins (firstActiveStrip p % 256).toNat

/-- The stores of `ConvertActiveStrips`, from `index` on. -/
def storeIndices (index : ℕ) (l : List Strip) : List Assign :=
  (l.zipIdx index).map fun (i, k) => .storeIndex k i

/-- `ConvertActiveStrips`. -/
def convertAssigns (malloc : Malloc ℕ) (p : Params) : List Assign :=
  .freeIndices :: .allocateIndices (.ofMalloc malloc p.gStripCount) ::
    if (malloc p.gStripCount).isSome then storeIndices 0 p.strips else []

/-- `TimestampInit` and the loop that clears `resistance_array`. -/
def clearAssigns : List Assign :=
  .resetTimestamp :: (List.finRange 8).flatMap fun i => [.clearResistance i, .clearTime i]

instance [Arithmetic] (p : Params) : Decidable (Rejected p) := inferInstanceAs (Decidable (_ ∨ _))

/-- `InitializeAllPeripherals` for the parameters `p`. -/
def initAssigns [Arithmetic] (malloc : Malloc ℕ) (p : Params) : List Assign :=
  if Rejected p then []
  else muxAssigns p ++ convertAssigns malloc p
    ++ [.stopTimer, .startTimer, .resetStripIndex, .resetCountIndex] ++ clearAssigns

variable {t : Target} {malloc : Malloc ℕ} {p : Params} {d d' : Device}

/-- What an assignment does to the parameters. -/
def Assign.onParams (a : Assign) (p : Params) : Params :=
  match a with
  | .store set => set p
  | .activeStrip i active => { p with activeStrips := Function.update p.activeStrips i active }
  | .resetStripCount => { p with gStripCount := 0 }
  | .incrementStripCount => { p with gStripCount := p.gStripCount + 1 }
  | _ => p

/-- An assignment to a number among the parameters or to a strip flag. -/
inductive Assign.IsSetting : Assign → Prop
  | store {set : Params → Params} (h : ∀ p, (set p).gStripCount = p.gStripCount) : IsSetting (.store set)
  | activeStrip (i : Strip) (active : Bool) : IsSetting (.activeStrip i active)

/-- An assignment to the parameters. -/
inductive Assign.IsParam : Assign → Prop
  | setting {a : Assign} (h : a.IsSetting) : IsParam a
  | resetStripCount : IsParam .resetStripCount
  | incrementStripCount : IsParam .incrementStripCount

/-- The parameters after some assignments. -/
def paramsAfter (as : List Assign) (p : Params) : Params := as.foldl (fun p a => a.onParams p) p

@[simp] theorem paramsAfter_nil : paramsAfter [] p = p := rfl

@[simp] theorem paramsAfter_cons (a : Assign) (as : List Assign) :
    paramsAfter (a :: as) p = paramsAfter as (a.onParams p) := rfl

theorem paramsAfter_append (as bs : List Assign) :
    paramsAfter (as ++ bs) p = paramsAfter bs (paramsAfter as p) :=
  List.foldl_append

/-- An assignment to the parameters touches nothing else. -/
theorem exec_of_isParam {a : Assign} (h : a.IsParam) (d : Device) :
    exec d a = .ok ⟨a.onParams d.params, d.sampler⟩ := by
  cases h with
  | setting h => cases h <;> rfl
  | resetStripCount => rfl
  | incrementStripCount => rfl

/-- Without interrupts assignments to the parameters end, and do what they say. -/
theorem paramAssigns_run {as : List Assign} (h : ∀ a ∈ as, a.IsParam) (d : Device) :
    as.foldlM exec d = .ok ⟨paramsAfter as d.params, d.sampler⟩ := by
  induction as generalizing d with
  | nil => rfl
  | cons a as ih =>
      rw [List.foldlM_cons, exec_of_isParam (h a List.mem_cons_self), Run.ok_bind]
      exact ih (fun b hb => h b (List.mem_cons_of_mem a hb)) _

@[simp] theorem paramsAfter_storeUnlessZero (register : UInt16) (set : Params → Params) :
    paramsAfter (storeUnlessZero register set) p = unlessZero register (set p) p := by
  unfold storeUnlessZero unlessZero
  split <;> rfl

/-- Setting the flags one after the other. -/
theorem foldl_update_apply (active : Strip → Bool) (l : List Strip) (flags : Strip → Bool) (i : Strip) :
    l.foldl (fun f i => Function.update f i (active i)) flags i = if i ∈ l then active i else flags i := by
  induction l generalizing flags with
  | nil => rfl
  | cons j l ih =>
      rw [List.foldl_cons, ih]
      by_cases hl : i ∈ l
      · rw [if_pos hl, if_pos (List.mem_cons_of_mem j hl)]
      · by_cases hj : i = j
        · subst hj
          rw [if_neg hl, if_pos List.mem_cons_self, Function.update_self]
        · rw [if_neg hl, if_neg (by simp [hj, hl]), Function.update_of_ne hj]

theorem foldl_update_finRange (active flags : Strip → Bool) :
    (List.finRange 8).foldl (fun f i => Function.update f i (active i)) flags = active := by
  funext i
  rw [foldl_update_apply, if_pos (List.mem_finRange i)]

/-- The loop over the strips sets the flags and counts those that are set. -/
theorem paramsAfter_countingFlags (active : Strip → Bool) (l : List Strip) (p : Params) :
    paramsAfter (countingFlags active l) p = { p with
      activeStrips := l.foldl (fun f i => Function.update f i (active i)) p.activeStrips
      gStripCount := l.foldl (fun n i => if active i then n + 1 else n) p.gStripCount } := by
  induction l generalizing p with
  | nil => rfl
  | cons i l ih =>
      change paramsAfter (_ ++ countingFlags active l) p = _
      rw [paramsAfter_append, ih]
      by_cases hi : active i = true
      · simp [hi, Assign.onParams]
      · simp [hi, Assign.onParams]

theorem isSetting_of_mem_storeUnlessZero {register : UInt16} {set : Params → Params} {a : Assign}
    (ha : a ∈ storeUnlessZero register set) (h : ∀ p, (set p).gStripCount = p.gStripCount) : a.IsSetting := by
  unfold storeUnlessZero at ha
  split at ha
  · rw [List.mem_singleton.1 ha]
    exact .store h
  · exact absurd ha List.not_mem_nil

theorem mem_countingFlags {active : Strip → Bool} {l : List Strip} {a : Assign} (ha : a ∈ countingFlags active l) :
    a.IsSetting ∨ a = .incrementStripCount := by
  obtain ⟨i, -, hi⟩ := List.mem_flatMap.1 ha
  split at hi
  · rcases List.mem_cons.1 hi with rfl | hi
    · exact .inl (.activeStrip i true)
    · exact .inr (List.mem_singleton.1 hi)
  · rw [List.mem_singleton.1 hi]
    exact .inl (.activeStrip i false)

/-- `Modbus_UpdateParameters` counts the strips last. -/
theorem updateAssigns_eq [Arithmetic] (buffer : Fin 7 → UInt16) :
    ∃ settings, (∀ a ∈ settings, a.IsSetting) ∧ updateAssigns buffer = settings ++ if buffer 6 ≠ 0 then
      .resetStripCount :: countingFlags (fun i => (buffer 6).toNat.testBit i) (List.finRange 8) else [] := by
  refine ⟨_, fun a ha => ?_, rfl⟩
  simp only [List.mem_append] at ha
  rcases ha with ((((ha | ha) | ha) | ha) | ha) | ha <;>
    exact isSetting_of_mem_storeUnlessZero ha fun _ => rfl

/-- A zero register keeps a field: it does not matter whether the record or the field is
chosen. -/
theorem apply_unlessZero {α β : Type*} (f : α → β) (register : UInt16) (value kept : α) :
    f (unlessZero register value kept) = unlessZero register (f value) (f kept) := by
  unfold unlessZero
  split <;> rfl

/-- **The assignments of `Modbus_UpdateParameters`** put the registers into the
parameters. -/
theorem paramsAfter_updateAssigns [Arithmetic] (buffer : Fin 7 → UInt16) (p : Params) :
    paramsAfter (updateAssigns buffer) p = modbusUpdateParameters buffer p := by
  have hflags : ∀ p, paramsAfter (if buffer 6 ≠ 0 then
        Assign.resetStripCount :: countingFlags (fun i => (buffer 6).toNat.testBit i) (List.finRange 8)
      else []) p = { p with
        activeStrips := unlessZero (buffer 6) (fun i => (buffer 6).toNat.testBit i) p.activeStrips
        gStripCount := unlessZero (buffer 6) (countStrips fun i => (buffer 6).toNat.testBit i)
          p.gStripCount } := by
    intro p
    unfold unlessZero
    split
    · rw [paramsAfter_cons, paramsAfter_countingFlags, foldl_update_finRange]
      rfl
    · rfl
  simp only [updateAssigns, paramsAfter_append, paramsAfter_storeUnlessZero, hflags]
  simp only [apply_unlessZero Params.waveType, apply_unlessZero Params.dutyCycle,
    apply_unlessZero Params.desiredFrequency, apply_unlessZero Params.desiredAmplitude,
    apply_unlessZero Params.gExcitationVoltagePerResistor, apply_unlessZero Params.muxFreq,
    apply_unlessZero Params.activeStrips, apply_unlessZero Params.gStripCount]
  have hsame : ∀ {α : Type} (register : UInt16) (x : α), unlessZero register x x = x := by
    intro α register x
    exact ite_self x
  simp only [hsame, modbusUpdateParameters]

/-- Without interrupts it does what the function does. -/
theorem updateAssigns_run [Arithmetic] (buffer : Fin 7 → UInt16) (d : Device) :
    (updateAssigns buffer).foldlM exec d = .ok ⟨modbusUpdateParameters buffer d.params, d.sampler⟩ := by
  rw [← paramsAfter_updateAssigns]
  refine paramAssigns_run (fun a ha => ?_) d
  obtain ⟨settings, hsettings, heq⟩ := updateAssigns_eq buffer
  rw [heq] at ha
  rcases List.mem_append.1 ha with ha | ha
  · exact .setting (hsettings a ha)
  · split at ha
    · rcases List.mem_cons.1 ha with rfl | ha
      · exact .resetStripCount
      · exact (mem_countingFlags ha).elim .setting fun h => h ▸ .incrementStripCount
    · exact absurd ha List.not_mem_nil

theorem paramsAfter_flags (active : Strip → Bool) (l : List Strip) (p : Params) :
    paramsAfter (l.map fun i => .activeStrip i (active i)) p = { p with
      activeStrips := l.foldl (fun f i => Function.update f i (active i)) p.activeStrips } := by
  induction l generalizing p with
  | nil => rfl
  | cons i l ih =>
      rw [List.map_cons, paramsAfter_cons, ih]
      rfl

theorem paramsAfter_increments (l : List Strip) (p : Params) :
    paramsAfter (l.map fun _ => .incrementStripCount) p = { p with
      gStripCount := p.gStripCount + l.length } := by
  induction l generalizing p with
  | nil => rfl
  | cons i l ih =>
      rw [List.map_cons, paramsAfter_cons, ih]
      simp [Assign.onParams, Nat.add_assoc, Nat.add_comm 1]

theorem paramsAfter_zipWith (t : Target) (fields : List Setter) (toks : List (List UInt8)) (p : Params) :
    paramsAfter (List.zipWith (fun set tok => .store (set t tok)) fields toks) p
      = assignFields t fields toks p := by
  induction fields generalizing toks p with
  | nil => rfl
  | cons set fields ih =>
      cases toks with
      | nil => rw [assignFields_nil]; rfl
      | cons tok toks => exact ih toks (set t tok p)

/-- A line that is accepted counts the strips last. -/
theorem lineAssigns_eq [Arithmetic] (t : Target) (line : Line) :
    ∃ settings, (∀ a ∈ settings, a.IsSetting) ∧ lineAssigns t line = settings ++ match line.flags with
      | none => []
      | some active => .resetStripCount :: (stripList active).map fun _ => .incrementStripCount := by
  have hcleared : ∀ (active : Strip → Bool) (a : Assign),
      a ∈ (List.finRange 8).map (fun i => .activeStrip i (active i)) → a.IsSetting := by
    intro active a ha
    obtain ⟨i, -, rfl⟩ := List.mem_map.1 ha
    exact .activeStrip i (active i)
  have hnumbers : ∀ a ∈ List.zipWith (fun set tok => Assign.store (set t tok)) numberFields line.toks,
      a.IsSetting := by
    intro a ha
    rw [← List.map_uncurry_zip_eq_zipWith] at ha
    obtain ⟨⟨set, tok⟩, hmem, rfl⟩ := List.mem_map.1 ha
    exact .store fun p => (numberFields_keep (List.of_mem_zip hmem).1 t tok p).2
  unfold lineAssigns
  cases line.flags with
  | none =>
      refine ⟨_, fun a ha => ?_, rfl⟩
      exact (List.mem_append.1 ha).elim (hcleared (fun _ => false) a) (hnumbers a)
  | some active =>
      refine ⟨_ ++ (List.finRange 8).map (fun i => .activeStrip i (active i)), fun a ha => ?_,
        (List.append_assoc _ _ _).symm⟩
      rcases List.mem_append.1 ha with ha | ha
      · exact (List.mem_append.1 ha).elim (hcleared (fun _ => false) a) (hnumbers a)
      · exact hcleared active a ha

/-- **The assignments of a line** leave the parameters of the line. -/
theorem paramsAfter_lineAssigns [Arithmetic] (t : Target) (line : Line) (p : Params) :
    paramsAfter (lineAssigns t line) p = line.params t p := by
  have hclear : paramsAfter ((List.finRange 8).map (.activeStrip · false)) p
      = { p with activeStrips := fun _ => false } := by
    rw [paramsAfter_flags (fun _ => false), foldl_update_finRange]
  rw [lineAssigns, paramsAfter_append, paramsAfter_append, hclear, paramsAfter_zipWith, Line.params]
  cases line.flags with
  | none => rfl
  | some active =>
      rw [paramsAfter_append, paramsAfter_flags, foldl_update_finRange, paramsAfter_cons,
        paramsAfter_increments]
      simp [Assign.onParams, countStrips_eq]

/-- Without interrupts a line does nothing else. -/
theorem lineAssigns_run [Arithmetic] (t : Target) (line : Line) (d : Device) :
    (lineAssigns t line).foldlM exec d = .ok ⟨line.params t d.params, d.sampler⟩ := by
  rw [← paramsAfter_lineAssigns]
  refine paramAssigns_run (fun a ha => ?_) d
  obtain ⟨settings, hsettings, heq⟩ := lineAssigns_eq t line
  rw [heq] at ha
  rcases List.mem_append.1 ha with ha | ha
  · exact .setting (hsettings a ha)
  · split at ha
    · exact absurd ha List.not_mem_nil
    · rcases List.mem_cons.1 ha with rfl | ha
      · exact .resetStripCount
      · obtain ⟨i, -, rfl⟩ := List.mem_map.1 ha
        exact .incrementStripCount

/-- **`updateParameters` on a line that a NUL ends** is such a list of assignments. -/
theorem lineAssigns_of_updateParameters [Arithmetic] {s rest mem : List UInt8} {p' : Params} {status : ℤ} (h0 : 0 ∉ s)
    (h : updateParameters t (s ++ 0 :: rest) { p with activeStrips := fun _ => false }
      = .ok (p', mem, status)) (malloc : Malloc ℕ) :
    ∃ flags, paramsAfter (lineAssigns t ⟨CString.tokens 44 s, flags, malloc⟩) p = p' ∧
      (flags.isSome ↔ status = 0) := by
  rcases Nat.lt_or_ge (CString.tokens 44 s).length 7 with hlt | hge
  · obtain ⟨mem', hparse⟩ := updateParameters_of_lt t rest h0 hlt { p with activeStrips := fun _ => false }
    rw [hparse] at h
    cases h
    exact ⟨none, by rw [paramsAfter_lineAssigns, Line.params], by simp⟩
  · obtain ⟨rfl, hcounted, hparams⟩ := updateParameters_of_le t rest h0 hge h
    refine ⟨some p'.activeStrips, ?_, by simp⟩
    rw [paramsAfter_lineAssigns, Line.params]
    dsimp only
    rw [← hcounted]
    exact hparams.symm

theorem muxAssigns_run (p : Params) (d : Device) :
    (muxAssigns p).foldlM exec d = .ok { d with sampler := { d.sampler with
      mux := Mux.selectMuxChannel ⟨true, false, false, false⟩ (firstActiveStrip p % 256).toNat } } := rfl

theorem storeIndices_run (l : List Strip) (index : ℕ) (cells : List ℕ)
    (hd : d.sampler.activeStripIndices = .live cells) :
    (storeIndices index l).foldlM exec d
      = (fun cells' => { d with sampler := { d.sampler with activeStripIndices := .live cells' } })
          <$> writeFrom cells index (l.map Fin.val) := by
  induction l generalizing index cells d with
  | nil =>
      change Except.ok d = .ok { d with sampler := { d.sampler with activeStripIndices := .live cells } }
      rw [← hd]
  | cons i l ih =>
      have hcons : storeIndices index (i :: l) = .storeIndex index i :: storeIndices (index + 1) l := rfl
      rw [hcons, List.foldlM_cons, List.map_cons, writeFrom, exec, hd, Block.write]
      cases writeAt cells index i.val with
      | error f => rfl
      | ok cells' => exact ih (index + 1) cells' rfl

/-- `ConvertActiveStrips`. -/
theorem convertAssigns_run (malloc : Malloc ℕ) (d : Device) :
    (convertAssigns malloc d.params).foldlM exec d
      = (fun s => ⟨d.params, s⟩) <$> convertActiveStrips malloc d.params d.sampler := by
  rw [convertAssigns, List.foldlM_cons, exec, convertActiveStrips]
  cases d.sampler.activeStripIndices.freeIfNonNull with
  | error f => rfl
  | ok b =>
      cases hm : malloc d.params.gStripCount with
      | none => simp [Block.ofMalloc, hm, exec]
      | some v =>
          simp only [Block.ofMalloc, hm, Run.ok_bind, List.foldlM_cons, exec, Option.isSome_some, if_true,
            fillIndices_live]
          rw [storeIndices_run _ _ _ rfl]
          change _ = _ <$> (Block.live <$> writeFrom v.toList 0 (d.params.strips.map Fin.val) >>= _)
          cases writeFrom v.toList 0 (d.params.strips.map Fin.val) <;> rfl

/-- `ADC_Voltage_timer_setup`. -/
theorem timerAssigns_run (d : Device) :
    [Assign.stopTimer, .startTimer, .resetStripIndex, .resetCountIndex].foldlM exec d
      = (fun s => ⟨d.params, s⟩) <$> adcVoltageTimerSetup d.params d.sampler := by
  rw [List.foldlM_cons, exec, Run.ok_bind, List.foldlM_cons, exec, adcVoltageTimerSetup]
  split <;> rfl

/-- Clearing the resistances one after the other. -/
theorem clearResistances_run (l : List Strip) (d : Device) :
    (l.flatMap fun i => [Assign.clearResistance i, .clearTime i]).foldlM exec d
      = .ok { d with sampler := { d.sampler with
          resistanceArray := fun i => if i ∈ l then (0, 0) else d.sampler.resistanceArray i } } := by
  induction l generalizing d with
  | nil => rfl
  | cons j l ih =>
      rw [List.flatMap_cons, List.foldlM_append]
      simp only [List.foldlM_cons, exec, Run.ok_bind, List.foldlM_nil, pure_bind, ih]
      congr 4
      funext i
      by_cases hj : i = j
      · subst hj
        simp
      · simp [hj]

theorem clearAssigns_run (d : Device) :
    clearAssigns.foldlM exec d = .ok { d with sampler := clearMeasurement d.sampler } := by
  rw [clearAssigns, List.foldlM_cons, exec, Run.ok_bind, clearResistances_run]
  simp [clearMeasurement]

/-- **The assignments of `InitializeAllPeripherals`** do to the sampler what
`initializeAllPeripherals` does. -/
theorem initAssigns_run [Arithmetic] (malloc : Malloc ℕ) (hr : ¬ Rejected d.params) :
    (initAssigns malloc d.params).foldlM exec d
      = (fun s => ⟨d.params, clearMeasurement s⟩) <$> configure malloc d.params d.sampler := by
  rw [initAssigns, if_neg hr, List.append_assoc, List.append_assoc, List.foldlM_append, muxAssigns_run,
    Run.ok_bind, List.foldlM_append]
  have hconvert := convertAssigns_run malloc { d with sampler := { d.sampler with
    mux := Mux.selectMuxChannel ⟨true, false, false, false⟩ (firstActiveStrip d.params % 256).toNat } }
  rw [hconvert, configure, initializeMux]
  dsimp only
  cases convertActiveStrips malloc d.params { d.sampler with
      mux := Mux.selectMuxChannel ⟨true, false, false, false⟩ (firstActiveStrip d.params % 256).toNat } with
  | error f => rfl
  | ok s =>
      rw [Run.ok_map, Run.ok_bind, Run.ok_bind, List.foldlM_append, timerAssigns_run]
      dsimp only
      cases adcVoltageTimerSetup d.params s with
      | error f => rfl
      | ok s' => rw [Run.ok_map, Run.ok_map, Run.ok_bind, clearAssigns_run]

end Firmware
end GasSensor
