/-
# The configuration line

`updateParameters` of `source/main.c` takes a line apart with `strtok`: six
numbers and the strip flags, separated by commas.  Each field is stored as soon
as it has been read, and the function returns -1 at the first one that is
missing.

`parseFields_spec` says what that leaves behind on every line, however many
fields it has: the tokens that are there have been assigned, in order, and
nothing else.
-/

import GasSensor.Lib.CString
import GasSensor.Sampler.Configure

namespace GasSensor

open CString FloatingPoint

/-- `atoi`. -/
def Target.atoi (t : Target) (token : List UInt8) : ℤ :=
  if -2 ^ 31 ≤ decimalInt token ∧ decimalInt token < 2 ^ 31 then decimalInt token
  else t.undefinedAtoi token

variable [Arithmetic]

/-- `atof`, a `double`. -/
def Target.atof (t : Target) (token : List UInt8) : Value :=
  ((decimalRat token).map double.round).getD (t.atofSpecial token)

namespace Firmware

/-- The assignment of a field from the text of its token. -/
abbrev Setter := Target → List UInt8 → Params → Params

/-- `waveType = atoi(token);` -/
def setWaveType : Setter := fun t token p => { p with waveType := (t.atoi token % 2 ^ 32).toNat }

/-- `dutyCycle = atoi(token);` -/
def setDutyCycle : Setter := fun t token p => { p with dutyCycle := (t.atoi token % 2 ^ 32).toNat }

/-- `desiredFrequency = atof(token);` -/
def setDesiredFrequency : Setter := fun t token p =>
  { p with desiredFrequency := float.convert (t.atof token) }

/-- `desiredAmplitude = atof(token);` -/
def setDesiredAmplitude : Setter := fun t token p =>
  { p with desiredAmplitude := t.toU32 0 (t.atof token) }

/-- `g_excitation_voltage_per_resistor = atof(token);` -/
def setExcitationVoltagePerStrip : Setter := fun t token p =>
  { p with gExcitationVoltagePerResistor := float.convert (t.atof token) }

/-- `MUX_freq = atoi(token);` -/
def setMuxFreq : Setter := fun t token p => { p with muxFreq := (t.atoi token % 2 ^ 16).toNat }

/-- The numbers of a line, in the order in which `updateParameters` reads them. -/
def numberFields : List Setter :=
  [setWaveType, setDutyCycle, setDesiredFrequency, setDesiredAmplitude, setExcitationVoltagePerStrip,
    setMuxFreq]

/-- `token = strtok(_, ","); if (token != NULL) x = ...; else return -1;` for one field
after the other.  The last component is where `strtok` goes on, `none` if a token
was missing. -/
def parseFields (t : Target) : List Setter → List UInt8 → ℕ → Params →
    Except Fault (Params × List UInt8 × Option ℕ)
  | [], mem, pos, p => .ok (p, mem, some pos)
  | set :: fields, mem, pos, p => do
      let (token, mem, pos) ← strtok 44 mem pos
      match token with
      | none => .ok (p, mem, none)
      | some token => parseFields t fields mem pos (set t (textAt mem token) p)

/-- `active_strips[i] = (token[i] == '1') ? true : false;` for the eight strips, whatever
the length of the token. -/
def parseActiveStrips (mem : List UInt8) (token : ℕ) (active : Strip → Bool) :
    Except Fault (Strip → Bool) :=
  (List.finRange 8).foldlM (fun active i =>
    readAt mem (token + i.val) >>= fun b => .ok (Function.update active i (b = 49))) active

/-- `updateParameters`, with what it leaves in the line and what it returns. -/
def updateParameters (t : Target) (input : List UInt8) (p : Params) :
    Except Fault (Params × List UInt8 × ℤ) := do
  let (p, mem, next) ← parseFields t numberFields input 0 p
  match next with
  | none => .ok (p, mem, -1)
  | some pos =>
      let (token, mem, _) ← strtok 44 mem pos
      match token with
      | none => .ok (p, mem, -1)
      | some token =>
          let active ← parseActiveStrips mem token p.activeStrips
          .ok ({ p with
            activeStrips := active
            gStripCount := countStrips active }, mem, 0)

/-- The fields for which there is a token, assigned in order. -/
def assignFields (t : Target) (fields : List Setter) (toks : List (List UInt8)) (p : Params) : Params :=
  (List.zipWith (fun set tok => set t tok) fields toks).foldl (fun p assign => assign p) p

variable {t : Target} {s : List UInt8} {p : Params}

omit [Arithmetic] in
@[simp] theorem assignFields_nil (fields : List Setter) : assignFields t fields [] p = p := by
  simp [assignFields]

omit [Arithmetic] in
@[simp] theorem assignFields_nil_fields (toks : List (List UInt8)) : assignFields t [] toks p = p := rfl

omit [Arithmetic] in
@[simp] theorem assignFields_cons (set : Setter) (fields : List Setter) (tok : List UInt8)
    (toks : List (List UInt8)) :
    assignFields t (set :: fields) (tok :: toks) p = assignFields t fields toks (set t tok p) := rfl

/-- A number does not touch the strip flags and their count. -/
theorem numberFields_keep {set : Setter} (h : set ∈ numberFields) (t : Target) (tok : List UInt8) (p : Params) :
    (set t tok p).activeStrips = p.activeStrips ∧ (set t tok p).gStripCount = p.gStripCount := by
  revert set
  simp [numberFields, setWaveType, setDutyCycle, setDesiredFrequency, setDesiredAmplitude,
    setExcitationVoltagePerStrip, setMuxFreq]

/-- Numbers do not touch the strip flags and their count. -/
theorem assignFields_numberFields (t : Target) (toks : List (List UInt8)) (p : Params) :
    (assignFields t numberFields toks p).activeStrips = p.activeStrips ∧
      (assignFields t numberFields toks p).gStripCount = p.gStripCount := by
  have hkeep : ∀ set ∈ numberFields, ∀ tok q, (set t tok q).activeStrips = q.activeStrips ∧
      (set t tok q).gStripCount = q.gStripCount := fun _ h => numberFields_keep h t
  generalize numberFields = fields at hkeep ⊢
  induction fields generalizing toks p with
  | nil => exact ⟨rfl, rfl⟩
  | cons set fields ih =>
      cases toks with
      | nil => rw [assignFields_nil]; exact ⟨rfl, rfl⟩
      | cons tok toks =>
          rw [assignFields_cons]
          obtain ⟨hactive, hcount⟩ := hkeep set List.mem_cons_self tok p
          obtain ⟨ha, hc⟩ := ih toks (set t tok p) fun set' h => hkeep set' (List.mem_cons_of_mem _ h)
          exact ⟨ha.trans hactive, hc.trans hcount⟩

omit [Arithmetic] in
/-- Parsing writes inside the line only. -/
theorem parseFields_length {fields : List Setter} {mem mem' : List UInt8} {pos : ℕ} {p' : Params}
    {next : Option ℕ} (h : parseFields t fields mem pos p = .ok (p', mem', next)) :
    mem'.length = mem.length := by
  induction fields generalizing mem pos p with
  | nil => cases h; rfl
  | cons set fields ih =>
      obtain ⟨⟨token, mem₁, pos₁⟩, hcall, h⟩ := Run.bind_eq_ok.1 h
      have hlen := strtok_length hcall
      cases token with
      | none => cases h; exact hlen
      | some token => exact (ih h).trans hlen

theorem updateParameters_length {input mem : List UInt8} {p' : Params} {status : ℤ}
    (h : updateParameters t input p = .ok (p', mem, status)) : mem.length = input.length := by
  obtain ⟨⟨p₁, mem₁, next⟩, hparse, h⟩ := Run.bind_eq_ok.1 h
  have hlen := parseFields_length hparse
  cases next with
  | none => cases h; exact hlen
  | some pos =>
      obtain ⟨⟨token, mem₂, pos₂⟩, hcall, h⟩ := Run.bind_eq_ok.1 h
      have hlen₂ := (strtok_length hcall).trans hlen
      cases token with
      | none => cases h; exact hlen₂
      | some token =>
          obtain ⟨active, -, h⟩ := Run.bind_eq_ok.1 h
          cases h
          exact hlen₂

omit [Arithmetic] in
/-- **The fields of a line are assigned one after the other, as far as they go.** -/
theorem parseFields_spec (t : Target) (rest : List UInt8) (fields : List Setter) (pre : List UInt8)
    (h0 : 0 ∉ s) (p : Params) :
    ∃ mem next, parseFields t fields (pre ++ s ++ 0 :: rest) pre.length p
        = .ok (assignFields t fields (tokens 44 s) p, mem, next) ∧
      ((next = none ∧ (tokens 44 s).length < fields.length) ∨
        ∃ pre' s', next = some pre'.length ∧ mem = pre' ++ s' ++ 0 :: rest ∧ 0 ∉ s' ∧
          fields.length ≤ (tokens 44 s).length ∧ tokens 44 s' = (tokens 44 s).drop fields.length) := by
  induction fields generalizing pre s p with
  | nil =>
      exact ⟨_, _, rfl, .inr ⟨pre, s, rfl, rfl, h0, Nat.zero_le _, rfl⟩⟩
  | cons set fields ih =>
      rcases strtok_spec 44 pre rest (by decide) h0 with
        ⟨hnone, pos, hcall⟩ | ⟨tok, token, pre', s', htoks, h0', hcall, htext⟩
      · refine ⟨pre ++ s ++ 0 :: rest, none, ?_, .inl ⟨rfl, ?_⟩⟩
        · rw [parseFields, hcall, hnone, assignFields_nil]
          rfl
        · rw [hnone]
          exact Nat.succ_pos _
      · obtain ⟨mem, next, hparse, hnext⟩ := ih pre' h0' (set t tok p)
        refine ⟨mem, next, ?_, ?_⟩
        · rw [parseFields, hcall, Run.ok_bind]
          dsimp only
          rw [htext, hparse, htoks, assignFields_cons]
        · rw [htoks]
          rcases hnext with ⟨hnone, hlt⟩ | ⟨pre'', s'', hsome, hmem', h0'', hle, hdrop⟩
          · exact .inl ⟨hnone, Nat.succ_lt_succ hlt⟩
          · exact .inr ⟨pre'', s'', hsome, hmem', h0'', Nat.succ_le_succ hle, hdrop⟩

/-- **A line with fewer than seven fields is refused**, after the fields it has were
assigned. -/
theorem updateParameters_of_lt (t : Target) (rest : List UInt8) (h0 : 0 ∉ s)
    (h : (tokens 44 s).length < 7) (p : Params) :
    ∃ mem, updateParameters t (s ++ 0 :: rest) p
      = .ok (assignFields t numberFields (tokens 44 s) p, mem, -1) := by
  obtain ⟨mem, next, hparse, hnext⟩ := parseFields_spec t rest numberFields [] h0 p
  rw [List.nil_append] at hparse
  have hparse' : parseFields t numberFields (s ++ 0 :: rest) 0 p = _ := hparse
  rcases hnext with ⟨rfl, -⟩ | ⟨pre', s', rfl, rfl, h0', hle, hdrop⟩
  · exact ⟨mem, by rw [updateParameters, hparse']; rfl⟩
  · -- six fields: the strip flags are missing
    have hnil : tokens 44 s' = [] := by
      rw [hdrop]
      exact List.drop_of_length_le (Nat.le_of_lt_succ h)
    rcases strtok_spec 44 pre' rest (by decide) h0' with
      ⟨-, pos, hcall⟩ | ⟨tok, token, pre'', s'', htoks, -⟩
    · refine ⟨pre' ++ s' ++ 0 :: rest, ?_⟩
      rw [updateParameters, hparse', Run.ok_bind]
      dsimp only
      rw [hcall]
      rfl
    · rw [hnil] at htoks
      cases htoks

/-- In a line with seven fields or more the numbers are assigned and `strtok` finds the
seventh token. -/
theorem parseFields_seventh (t : Target) (rest : List UInt8) (h0 : 0 ∉ s) (h : 7 ≤ (tokens 44 s).length)
    (p : Params) :
    ∃ mem pos token mem' pos',
      parseFields t numberFields (s ++ 0 :: rest) 0 p
        = .ok (assignFields t numberFields (tokens 44 s) p, mem, some pos) ∧
      strtok 44 mem pos = .ok (some token, mem', pos') ∧ (tokens 44 s)[6]? = some (textAt mem' token) := by
  have hsix : numberFields.length = 6 := rfl
  obtain ⟨mem, next, hparse, hnext⟩ := parseFields_spec t rest numberFields [] h0 p
  rw [List.nil_append] at hparse
  rcases hnext with ⟨-, hlt⟩ | ⟨pre', s', rfl, rfl, h0', -, hdrop⟩
  · omega
  rcases strtok_spec 44 pre' rest (by decide) h0' with
    ⟨hnil, -⟩ | ⟨tok, token, pre'', s'', htoks, -, hcall, htext⟩
  · rw [hdrop, List.drop_eq_nil_iff] at hnil
    omega
  · refine ⟨_, _, token, _, _, hparse, hcall, ?_⟩
    have hget : ((tokens 44 s).drop numberFields.length)[0]? = some tok := by
      rw [← hdrop, htoks]
      rfl
    rwa [List.getElem?_drop, ← htext] at hget

/-- **A line with seven fields or more is accepted**: the numbers are assigned, the
flags are eight bytes from the seventh token on, and the strips are counted. -/
theorem updateParameters_of_le (t : Target) (rest : List UInt8) (h0 : 0 ∉ s)
    (h : 7 ≤ (tokens 44 s).length) {p p' : Params} {mem : List UInt8} {status : ℤ}
    (hok : updateParameters t (s ++ 0 :: rest) p = .ok (p', mem, status)) :
    status = 0 ∧ p'.Counted ∧
      p' = { assignFields t numberFields (tokens 44 s) p with
        activeStrips := p'.activeStrips
        gStripCount := p'.gStripCount } := by
  obtain ⟨mem₁, pos, token, mem', pos', hparse, hcall, -⟩ := parseFields_seventh t rest h0 h p
  rw [updateParameters, hparse, Run.ok_bind] at hok
  dsimp only at hok
  rw [hcall, Run.ok_bind] at hok
  obtain ⟨active, -, hok⟩ := Run.bind_eq_ok.1 hok
  cases hok
  exact ⟨rfl, rfl, rfl⟩

omit [Arithmetic] in
/-- If there are eight bytes they are the flags. -/
theorem parseActiveStrips_of_le {mem : List UInt8} {token : ℕ} (h : token + 8 ≤ mem.length)
    (active : Strip → Bool) :
    parseActiveStrips mem token active = .ok fun i => decide (mem.getD (token + i) 0 = 49) := by
  have hfold : ∀ (l : List Strip) (active : Strip → Bool),
      l.foldlM (fun active i => readAt mem (token + i.val) >>= fun b =>
        (.ok (Function.update active i (b = 49)) : Except Fault (Strip → Bool))) active
      = .ok fun i => if i ∈ l then decide (mem.getD (token + i) 0 = 49) else active i := by
    intro l
    induction l with
    | nil =>
        intro active
        change Except.ok active = _
        simp
    | cons j l ih =>
        intro active
        have hj : token + j.val < mem.length := by omega
        rw [List.foldlM_cons, readAt_getD hj 0, Run.ok_bind, Run.ok_bind, ih]
        congr 1
        funext i
        by_cases hi : i ∈ l
        · simp [hi]
        · by_cases hij : i = j
          · subst hij
            simp [hi]
          · simp [hi, hij, Function.update_of_ne]
  rw [parseActiveStrips, hfold]
  simp

omit [Arithmetic] in
/-- Flags are read only if there are eight bytes. -/
theorem le_of_parseActiveStrips {mem : List UInt8} {token : ℕ} {active active' : Strip → Bool}
    (h : parseActiveStrips mem token active = .ok active') : token + 8 ≤ mem.length := by
  have hread : ∀ (l : List Strip) (active : Strip → Bool),
      l.foldlM (fun active i => readAt mem (token + i.val) >>= fun b =>
        (.ok (Function.update active i (b = 49)) : Except Fault (Strip → Bool))) active = .ok active' →
      ∀ i ∈ l, token + i.val < mem.length := by
    intro l
    induction l with
    | nil => exact fun _ _ i hi => absurd hi List.not_mem_nil
    | cons j l ih =>
        intro active hfold i hi
        rw [List.foldlM_cons, Run.bind_eq_ok] at hfold
        obtain ⟨u, hu, hfold⟩ := hfold
        rcases List.mem_cons.1 hi with rfl | hi
        · obtain ⟨b, hb, -⟩ := Run.bind_eq_ok.1 hu
          exact (List.getElem?_eq_some_iff.1 (readAt_eq_ok.1 hb)).1
        · exact ih u hfold i hi
  have hlast := hread _ _ h 7 (List.mem_finRange _)
  change token + 7 < mem.length at hlast
  omega

omit [Arithmetic] in
/-- The strip flags that a text spells. -/
theorem parseActiveStrips_eq {mem : List UInt8} {token : ℕ} {flag : Strip → UInt8}
    (h : ∀ i : Strip, (textAt mem token)[i.val]? = some (flag i)) (active : Strip → Bool) :
    parseActiveStrips mem token active = .ok fun i => decide (flag i = 49) := by
  have hget : ∀ i : Strip, mem[token + i.val]? = some (flag i) := fun i => readAt_eq_ok.1 (readAt_textAt (h i))
  have hlast := (List.getElem?_eq_some_iff.1 (hget 7)).1
  change token + 7 < mem.length at hlast
  rw [parseActiveStrips_of_le (by omega)]
  congr 1
  funext i
  rw [List.getD_eq_getElem?_getD, hget, Option.getD_some]

/-- **A line with seven fields whose last spells strip flags** sets all parameters. -/
theorem updateParameters_eq (t : Target) (rest : List UInt8) (h0 : 0 ∉ s) {text : List UInt8}
    {flag : Strip → UInt8} (htext : (tokens 44 s)[6]? = some text)
    (hflag : ∀ i : Strip, text[i.val]? = some (flag i)) (p : Params) :
    ∃ mem, updateParameters t (s ++ 0 :: rest) p
      = .ok ({ assignFields t numberFields (tokens 44 s) p with
          activeStrips := fun i => decide (flag i = 49)
          gStripCount := countStrips fun i => decide (flag i = 49) }, mem, 0) := by
  have hlt : 6 < (tokens 44 s).length := (List.getElem?_eq_some_iff.1 htext).1
  obtain ⟨mem, pos, token, mem', pos', hparse, hcall, hseventh⟩ := parseFields_seventh t rest h0 hlt p
  have htok : textAt mem' token = text := Option.some.inj (hseventh.symm.trans htext)
  rw [updateParameters, hparse, Run.ok_bind]
  dsimp only
  rw [hcall, Run.ok_bind]
  dsimp only
  rw [parseActiveStrips_eq (by rw [htok]; exact hflag), Run.ok_bind]
  exact ⟨_, rfl⟩

end Firmware
end GasSensor
