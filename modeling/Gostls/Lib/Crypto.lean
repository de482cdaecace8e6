import Gostls.Lib.Bytes
import Mathlib.Data.Set.Finite.List

/-!
# `Lib.Crypto` — symmetric primitives and the modes built on them

The primitives a record protocol is built from, each a structure that carries the laws every
implementation documents, so that a value of the type is a lawful primitive:

* `BlockCipher` — a keyed block permutation, with `cbcEncrypt` / `cbcDecrypt` on top;
* `Hash` — a hash function of fixed output size, with `hmac` on top;
* `AEAD` — authenticated encryption with associated data.

`cbcDecrypt_cbcEncrypt` and `hmac_length` are what protocol proofs use of the modes.
-/

namespace Lib

/-! ## Block ciphers and cipher block chaining -/

/-- A block cipher under a fixed key. -/
structure BlockCipher where
  blockSize : Nat
  encrypt : Bytes → Bytes
  decrypt : Bytes → Bytes
  blockSize_pos : 0 < blockSize
  encrypt_length : ∀ b, b.length = blockSize → (encrypt b).length = blockSize
  decrypt_encrypt : ∀ b, b.length = blockSize → decrypt (encrypt b) = b

/-- A block cipher to compute with, of the block size of AES: it changes nothing. -/
def BlockCipher.identity : BlockCipher where
  blockSize := 16
  encrypt := fun b => b
  decrypt := fun b => b
  blockSize_pos := by decide
  encrypt_length := fun _ h => h
  decrypt_encrypt := fun _ _ => rfl

/-- The bytewise XOR of two blocks. -/
def xorBlock (a b : Bytes) : Bytes := List.zipWith (· ^^^ ·) a b

@[simp] theorem xorBlock_length (a b : Bytes) :
    (xorBlock a b).length = min a.length b.length := by simp [xorBlock]

theorem xorBlock_cancel {a b : Bytes} (h : a.length = b.length) :
    xorBlock (xorBlock a b) b = a := by
  induction a generalizing b with
  | nil => cases b <;> simp [xorBlock]
  | cons x xs ih =>
      cases b with
      | nil => simp at h
      | cons y ys =>
          have hrec : xorBlock (xorBlock xs ys) ys = xs := ih (by simpa using h)
          simp only [xorBlock, List.zipWith_cons_cons] at hrec ⊢
          rw [hrec, UInt8.xor_assoc, UInt8.xor_self, UInt8.xor_zero]

namespace BlockCipher

variable (c : BlockCipher)

/-- Chain `n` blocks of `src` through the cipher, starting from the block `prev`. -/
def cbcEncryptBlocks : Nat → Bytes → Bytes → Bytes
  | 0,     _,    _   => []
  | n + 1, prev, src =>
    let out := c.encrypt (xorBlock (src.take c.blockSize) prev)
    out ++ cbcEncryptBlocks n out (src.drop c.blockSize)

/-- Undo `n` blocks of chaining. -/
def cbcDecryptBlocks : Nat → Bytes → Bytes → Bytes
  | 0,     _,    _   => []
  | n + 1, prev, src =>
    let blk := src.take c.blockSize
    xorBlock (c.decrypt blk) prev ++ cbcDecryptBlocks n blk (src.drop c.blockSize)

/-- CBC encryption of the whole blocks of `src`. -/
def cbcEncrypt (iv src : Bytes) : Bytes := c.cbcEncryptBlocks (src.length / c.blockSize) iv src

/-- CBC decryption of the whole blocks of `src`. -/
def cbcDecrypt (iv src : Bytes) : Bytes := c.cbcDecryptBlocks (src.length / c.blockSize) iv src

/-- The first of `n + 1` blocks, and the rest. -/
theorem blocks_succ {n : Nat} {src : Bytes} (hs : src.length = (n + 1) * c.blockSize) :
    (src.take c.blockSize).length = c.blockSize ∧ (src.drop c.blockSize).length = n * c.blockSize := by
  rw [Nat.succ_mul] at hs
  rw [List.length_take, List.length_drop]
  omega

theorem cbcEncryptBlocks_length (n : Nat) {prev src : Bytes} (hp : prev.length = c.blockSize)
    (hs : src.length = n * c.blockSize) :
    (c.cbcEncryptBlocks n prev src).length = n * c.blockSize := by
  induction n generalizing prev src with
  | zero => simp [cbcEncryptBlocks]
  | succ n ih =>
      obtain ⟨hblk, hrest⟩ := c.blocks_succ hs
      have hx : (xorBlock (src.take c.blockSize) prev).length = c.blockSize := by
        rw [xorBlock_length, hblk, hp, Nat.min_self]
      have hout := c.encrypt_length _ hx
      simp only [cbcEncryptBlocks, List.length_append, hout, ih hout hrest, Nat.succ_mul]
      omega

/-- A block is decrypted to a block: encryption permutes the blocks, of which there are finitely many. -/
theorem decrypt_length {b : Bytes} (hb : b.length = c.blockSize) :
    (c.decrypt b).length = c.blockSize := by
  have hbytes : Finite UInt8 := Finite.of_injective UInt8.toFin (fun _ _ => UInt8.toFin_inj.mp)
  have hmaps : Set.MapsTo c.encrypt {b | b.length = c.blockSize} {b | b.length = c.blockSize} :=
    c.encrypt_length
  have hinj : Set.InjOn c.encrypt {b | b.length = c.blockSize} := by
    intro x hx y hy h
    rw [← c.decrypt_encrypt x hx, h, c.decrypt_encrypt y hy]
  have hbij := ((List.finite_length_eq UInt8 c.blockSize).injOn_iff_bijOn_of_mapsTo hmaps).mp hinj
  obtain ⟨x, hx, rfl⟩ := hbij.surjOn hb
  rw [c.decrypt_encrypt x hx]
  exact hx

theorem cbcDecryptBlocks_length (n : Nat) {prev src : Bytes} (hp : prev.length = c.blockSize)
    (hs : src.length = n * c.blockSize) :
    (c.cbcDecryptBlocks n prev src).length = n * c.blockSize := by
  induction n generalizing prev src with
  | zero => simp [cbcDecryptBlocks]
  | succ n ih =>
      obtain ⟨hblk, hrest⟩ := c.blocks_succ hs
      have hout := c.decrypt_length hblk
      simp only [cbcDecryptBlocks, List.length_append, xorBlock_length, hout, hp, ih hblk hrest,
        Nat.succ_mul, Nat.min_self]
      omega

theorem cbcDecryptBlocks_cbcEncryptBlocks (n : Nat) {prev src : Bytes}
    (hp : prev.length = c.blockSize) (hs : src.length = n * c.blockSize) :
    c.cbcDecryptBlocks n prev (c.cbcEncryptBlocks n prev src) = src := by
  induction n generalizing prev src with
  | zero =>
      have : src = [] := List.length_eq_zero_iff.mp (by simpa using hs)
      simp [cbcDecryptBlocks, this]
  | succ n ih =>
      obtain ⟨hblk, hrest⟩ := c.blocks_succ hs
      have hx : (xorBlock (src.take c.blockSize) prev).length = c.blockSize := by
        rw [xorBlock_length, hblk, hp, Nat.min_self]
      have hout := c.encrypt_length _ hx
      simp only [cbcEncryptBlocks, cbcDecryptBlocks]
      rw [List.take_left' hout, List.drop_left' hout, c.decrypt_encrypt _ hx,
        xorBlock_cancel (hblk.trans hp.symm), ih hout hrest, List.take_append_drop]

theorem cbcEncrypt_length {iv src : Bytes} (hiv : iv.length = c.blockSize)
    (hs : c.blockSize ∣ src.length) : (c.cbcEncrypt iv src).length = src.length := by
  have hn := (Nat.div_mul_cancel hs).symm
  rw [cbcEncrypt, c.cbcEncryptBlocks_length _ hiv hn, ← hn]

theorem cbcDecrypt_length {iv src : Bytes} (hiv : iv.length = c.blockSize)
    (hs : c.blockSize ∣ src.length) : (c.cbcDecrypt iv src).length = src.length := by
  have hn := (Nat.div_mul_cancel hs).symm
  rw [cbcDecrypt, c.cbcDecryptBlocks_length _ hiv hn, ← hn]

/-- **CBC decryption inverts CBC encryption** on whole blocks. -/
theorem cbcDecrypt_cbcEncrypt {iv src : Bytes} (hiv : iv.length = c.blockSize)
    (hs : c.blockSize ∣ src.length) : c.cbcDecrypt iv (c.cbcEncrypt iv src) = src := by
  rw [cbcDecrypt, c.cbcEncrypt_length hiv hs, cbcEncrypt]
  exact c.cbcDecryptBlocks_cbcEncryptBlocks _ hiv (Nat.div_mul_cancel hs).symm

end BlockCipher

/-! ## Hash functions and HMAC -/

/-- A hash function. -/
structure Hash where
  size : Nat
  blockSize : Nat
  sum : Bytes → Bytes
  sum_length : ∀ m, (sum m).length = size

/-- A hash function to compute with: eight copies of a one-byte checksum. -/
def Hash.checksum : Hash where
  size := 8
  blockSize := 1
  sum := fun m => List.replicate 8 (m.foldl (fun a b => a * 3 + b) 0)
  sum_length := fun _ => List.length_replicate

/-- HMAC: a key longer than the block is hashed first, then padded to the block. -/
def hmac (h : Hash) (key msg : Bytes) : Bytes :=
  let k := fit h.blockSize (if key.length > h.blockSize then h.sum key else key)
  h.sum (k.map (· ^^^ 0x5c) ++ h.sum (k.map (· ^^^ 0x36) ++ msg))

@[simp] theorem hmac_length (h : Hash) (key msg : Bytes) : (hmac h key msg).length = h.size :=
  h.sum_length _

/-! ## Authenticated encryption -/

/-- Authenticated encryption with associated data, under a fixed key. -/
structure AEAD where
  overhead : Nat
  /-- `sealWith nonce plain ad` -/
  sealWith : Bytes → Bytes → Bytes → Bytes
  /-- `openWith nonce ciphertext ad` -/
  openWith : Bytes → Bytes → Bytes → Option Bytes
  overhead_eq : overhead = 16
  sealWith_length : ∀ n p ad, (sealWith n p ad).length = p.length + overhead
  openWith_sealWith : ∀ n p ad, openWith n (sealWith n p ad) ad = some p

/-- A lawful AEAD that hides nothing: its tag is the additional data. -/
def AEAD.tagged : AEAD where
  overhead := 16
  sealWith := fun _ p ad => p ++ fit 16 ad
  openWith := fun _ c ad =>
    if c.drop (c.length - 16) = fit 16 ad then some (c.take (c.length - 16)) else none
  overhead_eq := rfl
  sealWith_length := by simp
  openWith_sealWith := by simp

/-- A comparison whose running time depends on the lengths alone: `1` on equality. -/
def constantTimeCompare (a b : Bytes) : Nat := if a = b then 1 else 0

end Lib
