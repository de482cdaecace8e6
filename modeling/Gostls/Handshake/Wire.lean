import Gostls.Go

/-!
# `Gostls.Handshake.Wire` — fixed-width integers and length-prefixed fields

The readers take a byte string apart from the front and return what they read with the rest; the
appenders are their inverses. The three length-prefixed readers differ in the width of the prefix and
in one error, so they share a definition (`readLenPrefixed`) and its specification.

Each reader has one specification, an equivalence: it returns `v` and `rest` exactly on the encoding
of `v` in front of `rest`. Read one way it runs the reader on an encoded field, read the other way it
says what an accepted byte string looks like.
-/

namespace Gostls

open Lib

def errTruncated1 : Err := .new "handshake: truncated: need 1 byte"
def errTruncated2 : Err := .new "handshake: truncated: need 2 bytes"
def errPfxUint8 : Err := .new "handshake: truncated length prefix (uint8)"
def errPfxUint16 : Err := .new "handshake: truncated length prefix (uint16)"
def errPfxUint24 : Err := .new "handshake: truncated length prefix (uint24)"
def errNeedBytes : Err := .new "handshake: truncated: insufficient bytes"
def errBodyShort : Err := .new "handshake: truncated body"

/-! ## Reading -/

def readUint8 (b : Bytes) : Except Err (UInt8 × Bytes) := do
  if b.length < 1 then throw (errTruncated1.detail (", have " ++ toString b.length))
  let v ← index b 0
  let rest ← sliceFrom b 1
  return (v, rest)

def readUint16 (b : Bytes) : Except Err (UInt16 × Bytes) := do
  if b.length < 2 then throw (errTruncated2.detail (", have " ++ toString b.length))
  let v ← sliceTo b 2
  let rest ← sliceFrom b 2
  return (beUint16 v, rest)

/-- Exactly `n` bytes. -/
def readBytes (b : Bytes) (n : Nat) : Except Err (Bytes × Bytes) := do
  if b.length < n then
    throw (errNeedBytes.detail (": need " ++ toString n ++ " bytes, have " ++ toString b.length))
  let v ← sliceTo b n
  let rest ← sliceFrom b n
  return (v, rest)

/-- A field behind a big-endian length of `k` bytes. -/
def readLenPrefixed (k : Nat) (errPfx : Err) (b : Bytes) : Except Err (Bytes × Bytes) := do
  if b.length < k then throw errPfx
  let pfx ← sliceTo b k
  let length := ofBE pfx
  let b ← sliceFrom b k
  if b.length < length then
    throw (errBodyShort.detail
      (": declared " ++ toString length ++ " bytes, have " ++ toString b.length))
  let v ← sliceTo b length
  let rest ← sliceFrom b length
  return (v, rest)

def readLenPrefixed8 (b : Bytes) : Except Err (Bytes × Bytes) := readLenPrefixed 1 errPfxUint8 b
def readLenPrefixed16 (b : Bytes) : Except Err (Bytes × Bytes) := readLenPrefixed 2 errPfxUint16 b
def readLenPrefixed24 (b : Bytes) : Except Err (Bytes × Bytes) := readLenPrefixed 3 errPfxUint24 b

/-! ## Appending -/

def appendUint8 (dst : Bytes) (v : UInt8) : Bytes := dst ++ [v]
def appendUint16 (dst : Bytes) (v : UInt16) : Bytes := dst ++ toBE 2 v.toNat
def appendUint24 (dst : Bytes) (v : Nat) : Bytes := dst ++ toBE 3 v

/-- The length is cut to a byte: callers keep `data` within 255 bytes. -/
def appendLenPrefixed8 (dst data : Bytes) : Bytes :=
  appendUint8 dst (UInt8.ofNat data.length) ++ data

def appendLenPrefixed16 (dst data : Bytes) : Bytes :=
  appendUint16 dst (UInt16.ofNat data.length) ++ data

theorem appendUint16_ofNat (dst : Bytes) (n : Nat) :
    appendUint16 dst (UInt16.ofNat n) = dst ++ toBE 2 n := by
  have hmod : (UInt16.ofNat n).toNat = n % 256 ^ 2 := UInt16.toNat_ofNat'
  rw [appendUint16, hmod, toBE_mod]

theorem foldl_appendUint16 (l : List UInt16) (dst : Bytes) :
    l.foldl appendUint16 dst = dst ++ l.flatMap fun v => toBE 2 v.toNat := by
  rw [List.flatMap_def, ← List.foldl_append_eq_append]
  rfl

theorem appendLenPrefixed8_eq (dst data : Bytes) :
    appendLenPrefixed8 dst data = dst ++ (toBE 1 data.length ++ data) := List.append_assoc ..

theorem appendLenPrefixed16_eq (dst data : Bytes) :
    appendLenPrefixed16 dst data = dst ++ (toBE 2 data.length ++ data) := by
  rw [appendLenPrefixed16, appendUint16_ofNat, List.append_assoc]

/-! ## What the readers accept -/

section Readers

variable {b v rest : Bytes} {n k : Nat}

theorem readBytes_ok_iff : readBytes b n = .ok (v, rest) ↔ v.length = n ∧ b = v ++ rest := by
  unfold readBytes
  constructor
  · intro h
    split at h
    · cases h
    · rename_i hlen
      have hn : n ≤ b.length := Nat.not_lt.mp hlen
      rw [sliceTo_eq hn, sliceFrom_eq hn] at h
      cases h
      exact ⟨List.length_take_of_le hn, (List.take_append_drop n b).symm⟩
  · rintro ⟨hv, rfl⟩
    have hlen : ¬ (v ++ rest).length < n := by
      rw [List.length_append]
      omega
    rw [if_neg hlen, sliceTo_append hv, sliceFrom_append hv]
    rfl

theorem readUint8_ok_iff {v : UInt8} : readUint8 b = .ok (v, rest) ↔ b = v :: rest := by
  cases b with
  | nil => exact iff_of_false (by rintro ⟨⟩) (by rintro ⟨⟩)
  | cons x b =>
      have hread : readUint8 (x :: b) = .ok (x, b) := by
        have hlen : ¬ (x :: b).length < 1 := by simp
        have htail : sliceFrom (x :: b) 1 = .ok b := sliceFrom_append (a := [x]) rfl b
        simp only [readUint8, if_neg hlen, index_cons_zero, ok_bind, htail, pure_eq]
      rw [hread]
      simp

theorem readUint16_ok_iff {v : UInt16} :
    readUint16 b = .ok (v, rest) ↔ b = toBE 2 v.toNat ++ rest := by
  unfold readUint16
  constructor
  · intro h
    split at h
    · cases h
    · rename_i hlen
      have hn : 2 ≤ b.length := Nat.not_lt.mp hlen
      rw [sliceTo_eq hn, sliceFrom_eq hn] at h
      cases h
      rw [toBE_beUint16 (List.length_take_of_le hn), List.take_append_drop]
  · rintro rfl
    have hlen : ¬ (toBE 2 v.toNat ++ rest).length < 2 := by
      rw [List.length_append, toBE_length]
      omega
    rw [if_neg hlen, sliceTo_append (toBE_length 2 _), sliceFrom_append (toBE_length 2 _)]
    simp only [pure_eq, ok_bind, beUint16_toBE]

/-- **A field behind its length**: the length is the field's own, and fits the prefix. -/
theorem readLenPrefixed_ok_iff {errPfx : Err} :
    readLenPrefixed k errPfx b = .ok (v, rest) ↔
      v.length < 256 ^ k ∧ b = toBE k v.length ++ (v ++ rest) := by
  unfold readLenPrefixed
  constructor
  · intro h
    split at h
    · cases h
    · rename_i hlen
      have hk : k ≤ b.length := Nat.not_lt.mp hlen
      rw [sliceTo_eq hk, sliceFrom_eq hk] at h
      simp only [pure_eq, ok_bind] at h
      split at h
      · cases h
      · rename_i hbody
        have hn : ofBE (b.take k) ≤ (b.drop k).length := Nat.not_lt.mp hbody
        rw [sliceTo_eq hn, sliceFrom_eq hn] at h
        cases h
        exact prefixed_eq hk hn
  · rintro ⟨hv, rfl⟩
    have hlen : ¬ (toBE k v.length ++ (v ++ rest)).length < k := by simp
    have hbody : ¬ (v ++ rest).length < v.length := by simp
    rw [if_neg hlen, sliceTo_append (toBE_length k _), sliceFrom_append (toBE_length k _)]
    simp only [pure_eq, ok_bind, ofBE_toBE_of_lt hv, if_neg hbody, sliceTo_append rfl,
      sliceFrom_append rfl]

/-- Running the readers on an encoded field. -/
theorem readUint16_append (v : UInt16) (rest : Bytes) :
    readUint16 (toBE 2 v.toNat ++ rest) = .ok (v, rest) := readUint16_ok_iff.mpr rfl

theorem readLenPrefixed8_append (h : v.length < 256) (rest : Bytes) :
    readLenPrefixed8 (toBE 1 v.length ++ (v ++ rest)) = .ok (v, rest) :=
  readLenPrefixed_ok_iff.mpr ⟨h, rfl⟩

theorem readLenPrefixed16_append (h : v.length < 65536) (rest : Bytes) :
    readLenPrefixed16 (toBE 2 v.length ++ (v ++ rest)) = .ok (v, rest) :=
  readLenPrefixed_ok_iff.mpr ⟨h, rfl⟩

theorem readLenPrefixed24_append (h : v.length < 16777216) (rest : Bytes) :
    readLenPrefixed24 (toBE 3 v.length ++ (v ++ rest)) = .ok (v, rest) :=
  readLenPrefixed_ok_iff.mpr ⟨h, rfl⟩

end Readers

end Gostls
