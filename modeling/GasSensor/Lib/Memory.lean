/-
# C memory with checked accesses

The parts of C memory an embedded program touches directly: arrays of a fixed
length and blocks obtained from `malloc`.  Every access is checked.  An access
C leaves undefined is a `Fault`, so "this code never reads outside the block"
is the statement that no fault is raised.

`writeFrom` stores a list into consecutive cells.  Loops that fill a buffer
cell by cell are reduced to it, and `writeFrom_eq` says what is left in the
buffer afterwards.
-/

import GasSensor.Lib.Run
import Mathlib.Data.Vector.Basic

namespace GasSensor

/-- The undefined behaviours a run can end in. -/
inductive Fault
  | divisionByZero
  | nullPointer
  | useAfterFree
  | outOfBounds
  deriving DecidableEq, Repr

variable {α : Type*}

/-- `cells[i]` on an array of `cells.length` elements. -/
def readAt (cells : List α) (i : ℕ) : Except Fault α :=
  match cells[i]? with
  | some x => .ok x
  | none => .error .outOfBounds

/-- `cells[i] = v` on an array of `cells.length` elements. -/
def writeAt (cells : List α) (i : ℕ) (v : α) : Except Fault (List α) :=
  if i < cells.length then .ok (cells.set i v) else .error .outOfBounds

theorem readAt_eq_ok {cells : List α} {i : ℕ} {x : α} : readAt cells i = .ok x ↔ cells[i]? = some x := by
  unfold readAt
  cases h : cells[i]? <;> simp

@[simp] theorem readAt_of_lt {cells : List α} {i : ℕ} (h : i < cells.length) :
    readAt cells i = .ok cells[i] :=
  readAt_eq_ok.2 (List.getElem?_eq_getElem h)

@[simp] theorem writeAt_of_lt {cells : List α} {i : ℕ} (h : i < cells.length) (v : α) :
    writeAt cells i v = .ok (cells.set i v) :=
  if_pos h

/-- A store that succeeded. -/
theorem set_of_writeAt {cells cells' : List α} {i : ℕ} {v : α} (h : writeAt cells i v = .ok cells') :
    i < cells.length ∧ cells.set i v = cells' := by
  unfold writeAt at h
  split at h
  next hlt => exact ⟨hlt, Except.ok.inj h⟩
  next => cases h

/-- A read inside the array, whatever the default of `getD`. -/
theorem readAt_getD {cells : List α} {i : ℕ} (h : i < cells.length) (d : α) :
    readAt cells i = .ok (cells.getD i d) := by
  rw [readAt_of_lt h, List.getD_eq_getElem?_getD, List.getElem?_eq_getElem h, Option.getD_some]

/-- A read below `n` sees the first `n` cells only. -/
theorem readAt_congr {cells cells' : List α} {n i : ℕ} (h : cells.take n = cells'.take n) (hi : i < n) :
    readAt cells i = readAt cells' i := by
  have hget : cells[i]? = cells'[i]? := by
    rw [← List.getElem?_take_of_lt hi, h, List.getElem?_take_of_lt hi]
  rw [readAt, readAt, hget]

/-- Store `vs` into consecutive cells from index `k` on. -/
def writeFrom (cells : List α) (k : ℕ) : List α → Except Fault (List α)
  | [] => .ok cells
  | v :: vs => writeAt cells k v >>= fun cells' => writeFrom cells' (k + 1) vs

/-- **Filling a buffer.**  When the cells from `k` on have room, `writeFrom`
succeeds, replaces exactly those cells and keeps the others. -/
theorem writeFrom_eq (vs : List α) {cells : List α} {k : ℕ} (h : k + vs.length ≤ cells.length) :
    writeFrom cells k vs = .ok (cells.take k ++ vs ++ cells.drop (k + vs.length)) := by
  induction vs generalizing cells k with
  | nil => simp [writeFrom]
  | cons v vs ih =>
      rw [List.length_cons] at h
      have hk : k < cells.length := by omega
      have hset : (cells.set k v).take (k + 1) = cells.take k ++ [v] := by
        rw [List.take_add_one, List.getElem?_set_self hk, List.take_set_of_le le_rfl]
        rfl
      have hdrop : (cells.set k v).drop (k + 1 + vs.length) = cells.drop (k + 1 + vs.length) :=
        List.drop_set_of_lt (by omega)
      rw [writeFrom, writeAt_of_lt hk]
      change writeFrom (cells.set k v) (k + 1) vs = _
      rw [ih (by rw [List.length_set]; omega), hset, hdrop, List.length_cons]
      simp [Nat.add_comm, Nat.add_left_comm]

/-- A buffer of the right length is replaced as a whole. -/
theorem writeFrom_all {cells vs : List α} (h : cells.length = vs.length) : writeFrom cells 0 vs = .ok vs := by
  rw [writeFrom_eq vs (by omega), List.take_zero, List.nil_append, List.drop_of_length_le (by omega),
    List.append_nil]

/-- A pointer to a block of cells obtained from `malloc`, or what is left of
it: the null pointer, or a pointer whose block has been freed. -/
inductive Block (α : Type*)
  | null
  | freed
  | live (cells : List α)
  deriving DecidableEq, Repr

/-- What `malloc(size)` answers: `none` is the null pointer, and a block comes
with exactly `size` cells of unspecified content. -/
abbrev Malloc (α : Type*) := (size : ℕ) → Option (List.Vector α size)

/-- A `malloc` that always succeeds, with zeroed cells. -/
def zeroedMalloc : Malloc ℕ := fun size => some (List.Vector.replicate size 0)

namespace Block

/-- `block[i]`. -/
def read : Block α → ℕ → Except Fault α
  | null, _ => .error .nullPointer
  | freed, _ => .error .useAfterFree
  | live cells, i => readAt cells i

/-- `block[i] = v`. -/
def write : Block α → ℕ → α → Except Fault (Block α)
  | null, _, _ => .error .nullPointer
  | freed, _, _ => .error .useAfterFree
  | live cells, i, v => live <$> writeAt cells i v

/-- The cells that can be accessed. -/
def cells : Block α → List α
  | live cells => cells
  | _ => []

/-- `if (block != NULL) free(block);` -/
def freeIfNonNull : Block α → Except Fault (Block α)
  | null => .ok null
  | freed => .error .useAfterFree
  | live _ => .ok freed

/-- The pointer `malloc(size)` returns. -/
def ofMalloc (malloc : Malloc α) (size : ℕ) : Block α :=
  match malloc size with
  | none => null
  | some cells => live cells.toList

theorem read_eq_ok {b : Block α} {i : ℕ} {x : α} :
    b.read i = .ok x ↔ ∃ cells, b = live cells ∧ cells[i]? = some x := by
  cases b with
  | null => simp [read]
  | freed => simp [read]
  | live cells => simp [read, readAt_eq_ok]

theorem read_eq_ok_iff_cells {b : Block α} {i : ℕ} {x : α} : b.read i = .ok x ↔ b.cells[i]? = some x := by
  cases b with
  | null => simp [read, cells]
  | freed => simp [read, cells]
  | live cells => exact readAt_eq_ok

@[simp] theorem read_live {cells : List α} {i : ℕ} (h : i < cells.length) :
    (live cells).read i = .ok cells[i] :=
  readAt_of_lt h

end Block
end GasSensor
