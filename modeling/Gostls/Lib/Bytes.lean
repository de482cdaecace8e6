import Mathlib.Data.List.Induction
import Mathlib.Tactic.Common
import Mathlib.Tactic.Ring

/-!
# `Lib.Bytes` — byte strings, big-endian integers, key streams

A byte string is a list of bytes. The operations here are the ones used wherever a wire format is
read or written:

* `toBE k n` / `ofBE b` — the fixed-width big-endian encoding and its inverse;
* `carryAdd` — addition of two big-endian numbers byte by byte, which is addition modulo the width;
* `fit k b` — a copy of `b` into a zeroed buffer of `k` bytes;
* `xorStream ks b` — `b` XORed byte by byte with a key stream, an involution for a fixed stream;
* `blocks f n` — the first `n` blocks of a stream that comes in blocks; a front part of it does not
  depend on how many blocks were made, as long as they are enough.
-/

namespace Lib

/-- A byte string. -/
abbrev Bytes := List UInt8

/-! ## Big-endian integers -/

/-- The `k`-byte big-endian encoding of `n` (of `n mod 256^k`, when `n` does not fit). -/
def toBE : Nat → Nat → Bytes
  | 0,     _ => []
  | k + 1, n => toBE k (n / 256) ++ [UInt8.ofNat n]

/-- The integer whose big-endian digits are the bytes of `b`. -/
def ofBE (b : Bytes) : Nat := b.foldl (fun acc x => acc * 256 + x.toNat) 0

@[simp] theorem toBE_length (k n : Nat) : (toBE k n).length = k := by
  induction k generalizing n with
  | zero => rfl
  | succ k ih => simp [toBE, ih]

@[simp] theorem ofBE_nil : ofBE [] = 0 := rfl

theorem ofBE_snoc (b : Bytes) (x : UInt8) : ofBE (b ++ [x]) = ofBE b * 256 + x.toNat := by
  simp [ofBE]

theorem ofBE_append (a b : Bytes) : ofBE (a ++ b) = ofBE a * 256 ^ b.length + ofBE b := by
  induction b using List.reverseRecOn with
  | nil => simp
  | append_singleton b y ih =>
      rw [← List.append_assoc, ofBE_snoc, ih, ofBE_snoc, List.length_append, List.length_singleton,
        Nat.pow_succ, Nat.add_mul, Nat.mul_assoc, Nat.add_assoc]

theorem ofBE_cons (x : UInt8) (b : Bytes) : ofBE (x :: b) = x.toNat * 256 ^ b.length + ofBE b := by
  rw [← List.singleton_append, ofBE_append]
  simp [ofBE]

theorem ofBE_lt (b : Bytes) : ofBE b < 256 ^ b.length := by
  induction b using List.reverseRecOn with
  | nil => simp
  | append_singleton b x ih =>
      have hx : x.toNat < 256 := x.toNat_lt
      rw [ofBE_snoc, List.length_append, List.length_singleton, Nat.pow_succ]
      omega

/-- **Decoding an encoding** gives the integer back, up to the width. -/
theorem ofBE_toBE (k n : Nat) : ofBE (toBE k n) = n % 256 ^ k := by
  induction k generalizing n with
  | zero => simp [toBE, Nat.mod_one]
  | succ k ih =>
      have hlow : (UInt8.ofNat n).toNat = n % 256 := UInt8.toNat_ofNat'
      have hsplit : n % 256 ^ (k + 1) = n % 256 + 256 * (n / 256 % 256 ^ k) := by
        rw [Nat.pow_succ', Nat.mod_mul]
      rw [toBE, ofBE_snoc, ih, hlow, hsplit]
      omega

theorem ofBE_toBE_of_lt {k n : Nat} (h : n < 256 ^ k) : ofBE (toBE k n) = n := by
  rw [ofBE_toBE, Nat.mod_eq_of_lt h]

/-- The low bytes of an encoding encode the low part. -/
theorem ofBE_drop_toBE (k d n : Nat) :
    ofBE ((toBE k n).drop d) = n % 256 ^ (k - d) := by
  have hlen : ((toBE k n).drop d).length = k - d := by simp
  have hlt := ofBE_lt ((toBE k n).drop d)
  rw [hlen] at hlt
  have hsplit := ofBE_append ((toBE k n).take d) ((toBE k n).drop d)
  rw [List.take_append_drop, ofBE_toBE, hlen] at hsplit
  have hpow : 256 ^ (k - d) ∣ 256 ^ k := Nat.pow_dvd_pow 256 (Nat.sub_le k d)
  rw [← Nat.mod_mod_of_dvd n hpow, hsplit, Nat.mul_comm, Nat.mul_add_mod, Nat.mod_eq_of_lt hlt]

/-- **Encoding a decoding** gives the bytes back. -/
theorem toBE_ofBE (b : Bytes) : toBE b.length (ofBE b) = b := by
  induction b using List.reverseRecOn with
  | nil => rfl
  | append_singleton b x ih =>
      have hx : x.toNat < 256 := x.toNat_lt
      have hdiv : (ofBE b * 256 + x.toNat) / 256 = ofBE b := by omega
      have hlow : UInt8.ofNat (ofBE b * 256 + x.toNat) = x := by
        apply UInt8.toNat_inj.mp
        rw [UInt8.toNat_ofNat']
        omega
      rw [List.length_append, List.length_singleton, toBE, ofBE_snoc, hdiv, ih, hlow]

theorem toBE_mod (k n : Nat) : toBE k (n % 256 ^ k) = toBE k n := by
  have h := toBE_ofBE (toBE k n)
  rwa [toBE_length, ofBE_toBE] at h

/-- The encoding is injective on the integers that fit its width. -/
theorem toBE_inj {k n m : Nat} (hn : n < 256 ^ k) (hm : m < 256 ^ k)
    (h : toBE k n = toBE k m) : n = m := by
  rw [← ofBE_toBE_of_lt hn, ← ofBE_toBE_of_lt hm, h]

theorem ofBE_eq_zero_iff (b : Bytes) : ofBE b = 0 ↔ ∀ x ∈ b, x = 0 := by
  induction b with
  | nil => simp
  | cons x b ih =>
      have hx : x.toNat = 0 ↔ x = 0 := by rw [← UInt8.toNat_inj]; rfl
      rw [ofBE_cons, List.forall_mem_cons, Nat.add_eq_zero_iff, Nat.mul_eq_zero, ih, hx]
      simp

/-- **The size of an integer, read off its bytes**: with `n` bytes behind the byte `x`, the integer has
    `8 * (n + 1)` bits or more iff the top bit of `x` is set or a byte before it is not zero. -/
theorem pow_le_ofBE_iff (hi lo : Bytes) (x : UInt8) :
    2 ^ (8 * lo.length + 7) ≤ ofBE (hi ++ x :: lo) ↔ (∃ y ∈ hi, y ≠ 0) ∨ 0x80 ≤ x := by
  have hlo := ofBE_lt lo
  have hpow : 2 ^ (8 * lo.length + 7) = 256 ^ lo.length * 128 := by rw [Nat.pow_add, Nat.pow_mul]
  have hval : ofBE (hi ++ x :: lo) =
      ofBE hi * (256 * 256 ^ lo.length) + (x.toNat * 256 ^ lo.length + ofBE lo) := by
    rw [ofBE_append, ofBE_cons, List.length_cons, Nat.pow_succ']
  rw [hval, hpow]
  generalize 256 ^ lo.length = w at hlo ⊢
  constructor
  · intro h
    by_contra hsmall
    obtain ⟨hzero, hx⟩ := not_or.mp hsmall
    have hhi : ofBE hi = 0 :=
      (ofBE_eq_zero_iff hi).mpr (fun y hy => by_contra fun hne => hzero ⟨y, hy, hne⟩)
    have hx' : x.toNat ≤ 127 := Nat.le_of_lt_succ (UInt8.not_le.mp hx)
    have hmul := Nat.mul_le_mul_right w hx'
    rw [hhi] at h
    omega
  · rintro (⟨y, hy, hne⟩ | hx)
    · have hhi : ofBE hi ≠ 0 := fun h => hne ((ofBE_eq_zero_iff hi).mp h y hy)
      have hmul := Nat.mul_le_mul_right (256 * w) (Nat.one_le_iff_ne_zero.mpr hhi)
      omega
    · have hx' : 128 ≤ x.toNat := hx
      have hmul := Nat.mul_le_mul_right w hx'
      omega

/-- **A field behind its length**: cut where the first `k` bytes say, a byte string is the encoding of
    what was cut out, and the length fits its prefix. -/
theorem prefixed_eq {k : Nat} {b : Bytes} (hk : k ≤ b.length)
    (hn : ofBE (b.take k) ≤ (b.drop k).length) :
    ((b.drop k).take (ofBE (b.take k))).length < 256 ^ k ∧
      b = toBE k ((b.drop k).take (ofBE (b.take k))).length ++
        ((b.drop k).take (ofBE (b.take k)) ++ (b.drop k).drop (ofBE (b.take k))) := by
  have hpfx : (b.take k).length = k := List.length_take_of_le hk
  have hlt := ofBE_lt (b.take k)
  have henc := toBE_ofBE (b.take k)
  rw [hpfx] at hlt henc
  rw [List.length_take_of_le hn]
  exact ⟨hlt, by rw [henc, List.take_append_drop, List.take_append_drop]⟩

/-- Big-endian addition of byte strings of one length, from the low end up: the carry out, and the
    digits of the sum. -/
def carryAdd : Bytes → Bytes → Nat × Bytes
  | x :: xs, y :: ys =>
    let (carry, out) := carryAdd xs ys
    let v := x.toNat + y.toNat + carry
    (v / 256, UInt8.ofNat (v % 256) :: out)
  | _, _ => (0, [])

theorem carryAdd_length {a b : Bytes} (h : a.length = b.length) :
    (carryAdd a b).2.length = a.length := by
  induction a generalizing b with
  | nil => cases b <;> rfl
  | cons x xs ih =>
      cases b with
      | nil => simp at h
      | cons y ys => simp [carryAdd, ih (by simpa using h)]

theorem carryAdd_value {a b : Bytes} (h : a.length = b.length) :
    (carryAdd a b).1 * 256 ^ a.length + ofBE (carryAdd a b).2 = ofBE a + ofBE b := by
  induction a generalizing b with
  | nil =>
      cases b with
      | nil => simp [carryAdd]
      | cons y ys => simp at h
  | cons x xs ih =>
      cases b with
      | nil => simp at h
      | cons y ys =>
          have hlen : xs.length = ys.length := by simpa using h
          have hrec := ih hlen
          have hsum := carryAdd_length hlen
          have hbyte : (UInt8.ofNat ((x.toNat + y.toNat + (carryAdd xs ys).1) % 256)).toNat =
              (x.toNat + y.toNat + (carryAdd xs ys).1) % 256 := by
            rw [UInt8.toNat_ofNat']
            omega
          simp only [carryAdd, ofBE_cons, List.length_cons, hsum, ← hlen, Nat.pow_succ, hbyte]
          have hv := Nat.div_add_mod (x.toNat + y.toNat + (carryAdd xs ys).1) 256
          generalize (x.toNat + y.toNat + (carryAdd xs ys).1) / 256 = q at hv ⊢
          generalize (x.toNat + y.toNat + (carryAdd xs ys).1) % 256 = r at hv ⊢
          generalize 256 ^ xs.length = w at hrec ⊢
          calc q * (w * 256) + (r * w + ofBE (carryAdd xs ys).2)
              = (256 * q + r) * w + ofBE (carryAdd xs ys).2 := by ring
            _ = x.toNat * w + y.toNat * w + ((carryAdd xs ys).1 * w + ofBE (carryAdd xs ys).2) := by
                rw [hv]; ring
            _ = x.toNat * w + ofBE xs + (y.toNat * w + ofBE ys) := by rw [hrec]; ring

/-- **Carry addition is addition modulo the width.** -/
theorem ofBE_carryAdd {a b : Bytes} (h : a.length = b.length) :
    ofBE (carryAdd a b).2 = (ofBE a + ofBE b) % 256 ^ a.length := by
  have hlt := ofBE_lt (carryAdd a b).2
  rw [carryAdd_length h] at hlt
  rw [← carryAdd_value h, Nat.mul_comm, Nat.mul_add_mod, Nat.mod_eq_of_lt hlt]

/-! ## Fixed-size buffers -/

/-- A copy of `b` into a zeroed buffer of `k` bytes: cut when `b` is longer, zero-padded when shorter. -/
def fit (k : Nat) (b : Bytes) : Bytes := b.take k ++ List.replicate (k - b.length) 0

@[simp] theorem fit_length (k : Nat) (b : Bytes) : (fit k b).length = k := by
  simp [fit]; omega

theorem fit_eq_self {k : Nat} {b : Bytes} (h : b.length = k) : fit k b = b := by
  subst h; simp [fit]

/-! ## Key streams -/

/-- `b` XORed with the first bytes of the key stream `ks`. -/
def xorStream (ks : Nat → UInt8) : Bytes → Bytes
  | []      => []
  | x :: xs => (x ^^^ ks 0) :: xorStream (fun i => ks (i + 1)) xs

@[simp] theorem xorStream_length (ks : Nat → UInt8) (b : Bytes) :
    (xorStream ks b).length = b.length := by
  induction b generalizing ks with
  | nil => rfl
  | cons x xs ih => simp [xorStream, ih]

/-- **XOR with a key stream is an involution.** -/
theorem xorStream_xorStream (ks : Nat → UInt8) (b : Bytes) :
    xorStream ks (xorStream ks b) = b := by
  induction b generalizing ks with
  | nil => rfl
  | cons x xs ih =>
      simp only [xorStream, ih]
      rw [UInt8.xor_assoc, UInt8.xor_self, UInt8.xor_zero]

/-! ## Streams made block by block -/

section Blocks

variable {α : Type} (f : Nat → List α)

/-- The first `n` blocks, one behind the other. -/
def blocks (n : Nat) : List α := (List.range n).flatMap f

theorem blocks_succ (n : Nat) : blocks f (n + 1) = blocks f n ++ f n := by
  simp only [blocks, List.range_succ, List.flatMap_append, List.flatMap_singleton]

variable {f}

theorem blocks_length {k : Nat} (hf : ∀ i, (f i).length = k) (n : Nat) :
    (blocks f n).length = n * k := by
  induction n with
  | zero => simp [blocks]
  | succ n ih => rw [blocks_succ, List.length_append, ih, hf, Nat.succ_mul]

theorem blocks_isPrefix {m n : Nat} (h : m ≤ n) : blocks f m <+: blocks f n := by
  induction n, h using Nat.le_induction with
  | base => exact List.prefix_refl _
  | succ n _ ih =>
      rw [blocks_succ]
      exact ih.trans (List.prefix_append _ _)

/-- **A front part is the same however many blocks were made**, if they are enough. -/
theorem take_blocks {len m n : Nat} (hm : len ≤ (blocks f m).length) (hn : len ≤ (blocks f n).length) :
    (blocks f m).take len = (blocks f n).take len := by
  rcases Nat.le_total m n with hle | hle
  · obtain ⟨rest, hrest⟩ := blocks_isPrefix (f := f) hle
    rw [← hrest, List.take_append_of_le_length hm]
  · obtain ⟨rest, hrest⟩ := blocks_isPrefix (f := f) hle
    rw [← hrest, List.take_append_of_le_length hn]

end Blocks

end Lib
