/-
# Big-endian 16-bit words in a byte buffer

Sixteen-bit words as pairs of bytes, most significant first, and the two
buffer operations a serial protocol needs besides single reads and writes: a
copy of a prefix (`memcpy`) and a list of words laid out in consecutive cells.
-/

import GasSensor.Lib.Memory
import Mathlib.Data.List.OfFn

namespace GasSensor

/-- `(hi << 8) | lo` in a `uint16_t`. -/
def word (hi lo : UInt8) : UInt16 := UInt16.ofNat (hi.toNat * 256 + lo.toNat)

/-- `(w >> 8) & 0xFF`. -/
def hiByte (w : UInt16) : UInt8 := UInt8.ofNat (w.toNat / 256)

/-- `w & 0xFF`. -/
def loByte (w : UInt16) : UInt8 := UInt8.ofNat (w.toNat % 256)

theorem word_toNat (hi lo : UInt8) : (word hi lo).toNat = hi.toNat * 256 + lo.toNat := by
  have := hi.toNat_lt
  have := lo.toNat_lt
  rw [word, UInt16.toNat_ofNat']
  omega

/-- The two bytes of a word put together give the word. -/
@[simp] theorem word_hiByte_loByte (w : UInt16) : word (hiByte w) (loByte w) = w := by
  apply UInt16.toNat_inj.1
  have := w.toNat_lt
  rw [word_toNat, hiByte, loByte, UInt8.toNat_ofNat', UInt8.toNat_ofNat']
  omega

@[simp] theorem hiByte_word (hi lo : UInt8) : hiByte (word hi lo) = hi := by
  apply UInt8.toNat_inj.1
  have := hi.toNat_lt
  have := lo.toNat_lt
  rw [hiByte, UInt8.toNat_ofNat', word_toNat]
  omega

@[simp] theorem loByte_word (hi lo : UInt8) : loByte (word hi lo) = lo := by
  apply UInt8.toNat_inj.1
  have := lo.toNat_lt
  rw [loByte, UInt8.toNat_ofNat', word_toNat]
  omega

/-- A list of words, most significant byte first. -/
def bytesOfWords (ws : List UInt16) : List UInt8 := ws.flatMap fun w => [hiByte w, loByte w]

/-- Reading words back, two bytes each; an odd byte at the end is dropped. -/
def wordsOfBytes : List UInt8 → List UInt16
  | hi :: lo :: rest => word hi lo :: wordsOfBytes rest
  | _ => []

@[simp] theorem bytesOfWords_length (ws : List UInt16) : (bytesOfWords ws).length = 2 * ws.length := by
  simp [bytesOfWords, List.length_flatMap, Nat.mul_comm]

/-- **Round trip.**  Words written out and read back are the words. -/
@[simp] theorem wordsOfBytes_bytesOfWords (ws : List UInt16) : wordsOfBytes (bytesOfWords ws) = ws := by
  induction ws with
  | nil => rfl
  | cons w ws ih =>
      change word (hiByte w) (loByte w) :: wordsOfBytes (bytesOfWords ws) = w :: ws
      rw [word_hiByte_loByte, ih]

theorem wordsOfBytes_length (bs : List UInt8) : (wordsOfBytes bs).length = bs.length / 2 := by
  induction bs using wordsOfBytes.induct with
  | case1 hi lo rest ih =>
      rw [wordsOfBytes, List.length_cons, ih, List.length_cons, List.length_cons]
      omega
  | case2 bs h =>
      match bs, h with
      | [], _ => simp [wordsOfBytes]
      | [_], _ => simp [wordsOfBytes]
      | a :: b :: rest, h => exact (h a b rest rfl).elim

/-- Word `i` is made of bytes `2 * i` and `2 * i + 1`. -/
theorem wordsOfBytes_getElem? {bs : List UInt8} {i : ℕ} (h : 2 * i + 1 < bs.length) :
    (wordsOfBytes bs)[i]? = some (word (bs.getD (2 * i) 0) (bs.getD (2 * i + 1) 0)) := by
  induction i generalizing bs with
  | zero =>
      match bs, h with
      | hi :: lo :: rest, _ => rfl
  | succ i ih =>
      match bs, h with
      | hi :: lo :: rest, h =>
          have hrest : 2 * i + 1 < rest.length := by
            simp only [List.length_cons] at h
            omega
          rw [wordsOfBytes, List.getElem?_cons_succ, ih hrest]
          rfl

variable {α : Type*}

/-- `memcpy(dst, src, n)` on cells. -/
def memcpy (dst src : List α) (n : ℕ) : Except Fault (List α) :=
  if n ≤ src.length then writeFrom dst 0 (src.take n) else .error .outOfBounds

/-- A copy of a prefix sees that prefix only. -/
theorem memcpy_congr {src src' : List α} {n k : ℕ} (h : src.take n = src'.take n) (hk : k ≤ n) (dst : List α) :
    memcpy dst src k = memcpy dst src' k := by
  have htake : src.take k = src'.take k := by
    have := congrArg (List.take k) h
    rwa [List.take_take, List.take_take, min_eq_left hk] at this
  have hlen : k ≤ src.length ↔ k ≤ src'.length := by
    have := congrArg List.length htake
    rw [List.length_take, List.length_take] at this
    omega
  rw [memcpy, memcpy, htake, if_congr hlen rfl rfl]

/-- Storing one list and then another behind it is storing both. -/
theorem writeFrom_append (vs ws cells : List α) (k : ℕ) :
    writeFrom cells k (vs ++ ws) = writeFrom cells k vs >>= (writeFrom · (k + vs.length) ws) := by
  induction vs generalizing cells k with
  | nil => rfl
  | cons v vs ih =>
      simp only [List.cons_append, writeFrom, List.length_cons]
      cases writeAt cells k v with
      | error f => rfl
      | ok cells' =>
          change writeFrom cells' (k + 1) (vs ++ ws) = writeFrom cells' (k + 1) vs >>= _
          rw [ih, show k + (vs.length + 1) = k + 1 + vs.length by omega]

/-- Filling a fresh buffer from its beginning. -/
theorem writeFrom_replicate (vs : List α) {n : ℕ} (a : α) (h : vs.length ≤ n) :
    writeFrom (List.replicate n a) 0 vs = .ok (vs ++ List.replicate (n - vs.length) a) := by
  rw [writeFrom_eq _ (by simpa using h)]
  simp

/-- A loop that stores two bytes of a word in each pass lays the words out in
consecutive cells. -/
theorem foldlM_writeWord (f : ℕ → Except Fault UInt16) (cells : List UInt8) (k : ℕ) {ws : List UInt16}
    (hf : ∀ i w, ws[i]? = some w → f i = .ok w) :
    (List.range ws.length).foldlM (fun tx i => do
        let w ← f i
        writeFrom tx (k + i * 2) [hiByte w, loByte w]) cells
      = writeFrom cells k (bytesOfWords ws) := by
  induction ws using List.reverseRecOn with
  | nil => rfl
  | append_singleton ws w ih =>
      have hw : f ws.length = .ok w := hf ws.length w (by simp)
      have hinit : ∀ i u, ws[i]? = some u → f i = .ok u := fun i u hu =>
        hf i u (by rw [List.getElem?_append_left (List.getElem?_eq_some_iff.1 hu).1, hu])
      have hbytes : bytesOfWords (ws ++ [w]) = bytesOfWords ws ++ [hiByte w, loByte w] := by
        simp [bytesOfWords]
      rw [List.length_append, List.length_singleton, List.range_succ, Run.foldlM_concat, ih hinit,
        hbytes, writeFrom_append, hw, bytesOfWords_length, Nat.mul_comm]
      rfl

end GasSensor
