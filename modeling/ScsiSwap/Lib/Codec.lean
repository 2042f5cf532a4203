import Mathlib

/-!
# Fixed-layout records as byte strings

A packed record without padding is the same thing as its bytes. Every layout here
is therefore an equivalence, and both round trips (what is written is read back,
what is read is written back) hold by construction:

* `leEquiv k`: a `k`-byte number and its little-endian bytes;
* `chunkEquiv k n`: a buffer of `k * n` bytes and its `k` slots of `n` bytes.

Records are glued from their fields with `Fin.appendEquiv`.
-/

namespace ByteCodec

abbrev Byte := BitVec 8

/-- A buffer of `n` bytes. -/
abbrev Bytes (n : ℕ) := Fin n → Byte

/-- A machine word and its bits, least significant first. -/
def bitsEquiv (w : ℕ) : BitVec w ≃ (Fin w → Bool) where
  toFun v i := v.getLsbD i
  invFun f := BitVec.ofNat w (Nat.ofBits f)
  left_inv v := by
    apply BitVec.eq_of_getLsbD_eq
    intro i hi
    rw [BitVec.getLsbD_ofNat, Nat.testBit_ofBits_lt _ _ hi]
    simp only [hi, decide_true, Bool.true_and]
  right_inv f := by
    funext i
    dsimp only
    rw [BitVec.getLsbD_ofNat, Nat.testBit_ofBits_lt _ _ i.isLt]
    simp only [i.isLt, decide_true, Bool.true_and]

/-- The little-endian bytes of a `k`-byte number. -/
def leEquiv (k : ℕ) : BitVec (k * 8) ≃ Bytes k :=
  (bitsEquiv (k * 8)).trans <|
    (Equiv.arrowCongr finProdFinEquiv.symm (Equiv.refl Bool)).trans <|
      (Equiv.curry (Fin k) (Fin 8) Bool).trans <|
        Equiv.arrowCongr (Equiv.refl (Fin k)) (bitsEquiv 8).symm

/-- A buffer cut into `k` slots of `n` bytes. -/
def chunkEquiv (k n : ℕ) : Bytes (k * n) ≃ (Fin k → Bytes n) :=
  (Equiv.arrowCongr finProdFinEquiv.symm (Equiv.refl Byte)).trans (Equiv.curry (Fin k) (Fin n) Byte)

/-- Bit `b` of byte `i` is bit `8 i + b` of the number. -/
theorem leEquiv_getLsbD {k : ℕ} (v : BitVec (k * 8)) (i : Fin k) {b : ℕ} (hb : b < 8) :
    (leEquiv k v i).getLsbD b = v.getLsbD (b + 8 * i) := by
  change (BitVec.ofNat 8 (Nat.ofBits fun c : Fin 8 => v.getLsbD (finProdFinEquiv (i, c)))).getLsbD b = _
  rw [BitVec.getLsbD_ofNat, Nat.testBit_ofBits_lt _ _ hb]
  simp only [hb, decide_true, Bool.true_and, finProdFinEquiv_apply_val]

@[simp] theorem leEquiv_zero (k : ℕ) : leEquiv k 0 = fun _ => 0 := by
  funext i
  apply BitVec.eq_of_getLsbD_eq
  intro b hb
  rw [leEquiv_getLsbD _ _ hb]
  simp

@[simp] theorem leEquiv_symm_zero (k : ℕ) : (leEquiv k).symm (fun _ => 0) = 0 := by
  rw [Equiv.symm_apply_eq, leEquiv_zero]

@[simp] theorem chunkEquiv_zero (k n : ℕ) : chunkEquiv k n (fun _ => 0) = fun _ _ => 0 := rfl

/-- Overwriting one slot of a buffer. -/
def putChunk {k n : ℕ} (b : Bytes (k * n)) (i : Fin k) (x : Bytes n) : Bytes (k * n) :=
  (chunkEquiv k n).symm (Function.update (chunkEquiv k n b) i x)

@[simp] theorem chunk_put {k n : ℕ} (b : Bytes (k * n)) (i : Fin k) (x : Bytes n) :
    chunkEquiv k n (putChunk b i x) = Function.update (chunkEquiv k n b) i x := by
  simp [putChunk]

end ByteCodec
