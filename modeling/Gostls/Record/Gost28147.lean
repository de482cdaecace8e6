import Gostls.Lib.Crypto
import Gostls.Record.Wire

/-!
# `Gostls.Record.Gost28147` — GOST 28147-89 in CNT mode with the IMIT MAC

The one protector whose state lives across records: the counter mode keeps its gamma position and
its meshed key, and the MAC keeps its chaining value and a partial block, so the tag of a record
depends on all records before it. `Seal` and `Open` therefore return the new protector, and a failed
`Open` has moved the state as well.

`open_seal` is the lockstep lemma: a receiver in the sender's state opens what the sender sealed and
ends in the sender's new state.
-/

namespace Gostls

open Lib

def gostBlockSize : Nat := 8
def gostMACSize : Nat := 4
def gostKeySize : Nat := 32
def meshThreshold : Nat := 1024

/-- An 8-byte block, `[gostBlockSize]byte`. -/
structure GostBlock where
  bytes : Bytes
  length_eq : bytes.length = gostBlockSize

namespace GostBlock

/-- A zeroed block into which `b` was copied. -/
def copy (b : Bytes) : GostBlock := ⟨fit gostBlockSize b, fit_length ..⟩

/-- `b[i]`, for an index within the block. -/
def byteAt (b : GostBlock) (i : Nat) : UInt8 := b.bytes.getD i 0

/-- The bytewise XOR of two blocks. -/
def xor (a b : GostBlock) : GostBlock :=
  ⟨xorBlock a.bytes b.bytes, by rw [xorBlock_length, a.length_eq, b.length_eq, Nat.min_self]⟩

end GostBlock

/-! ## The cipher -/

/-- An S-box, as the keyed block functions it selects: the 32-round encryption and decryption, and
    the 16-round step of the MAC. -/
structure Sbox where
  encrypt : Bytes → GostBlock → GostBlock
  decrypt : Bytes → GostBlock → GostBlock
  seqMACBlock : Bytes → GostBlock → GostBlock

/-- `*gost.GOST28147Cipher` -/
structure Gost28147Cipher where
  key : Bytes
  sbox : Sbox

namespace Gost28147Cipher

def encrypt (c : Gost28147Cipher) (b : GostBlock) : GostBlock := c.sbox.encrypt c.key b
def decrypt (c : Gost28147Cipher) (b : GostBlock) : GostBlock := c.sbox.decrypt c.key b
def seqMACBlock (c : Gost28147Cipher) (b : GostBlock) : GostBlock := c.sbox.seqMACBlock c.key b

end Gost28147Cipher

/-- The four blocks of the CryptoPro key-meshing constant. -/
def cryptoProKeyMeshingKey : List GostBlock :=
  [⟨[0x69, 0x00, 0x72, 0x22, 0x64, 0xC9, 0x04, 0x23], rfl⟩,
   ⟨[0x8D, 0x3A, 0xDB, 0x96, 0x46, 0xE9, 0x2A, 0xC4], rfl⟩,
   ⟨[0x18, 0xFE, 0xAC, 0x94, 0x00, 0xED, 0x07, 0x12], rfl⟩,
   ⟨[0xC0, 0x86, 0xDC, 0xC2, 0xEF, 0x4C, 0xA9, 0x2B], rfl⟩]

/-- The cipher after key meshing: the meshing constant decrypted block by block is the new key. -/
def Gost28147Cipher.mesh (c : Gost28147Cipher) : Gost28147Cipher :=
  { c with key := cryptoProKeyMeshingKey.flatMap (fun b => (c.decrypt b).bytes) }

/-! ## CNT mode -/

/-- The counter mode: the counter block, the current gamma and how much of it is used, and the
    number of gamma bytes since the last meshing. -/
structure GostCNT where
  cipher : Gost28147Cipher
  iv : GostBlock
  buf : GostBlock
  num : Nat
  count : Nat

def newGostCNT (cipher : Gost28147Cipher) (iv : Bytes) : GostCNT :=
  { cipher, iv := .copy iv, buf := .copy [], num := 0, count := 0 }

/-- A 32-bit little-endian word. -/
def le32 (b0 b1 b2 b3 : UInt8) : UInt32 :=
  b0.toUInt32 ||| (b1.toUInt32 <<< 8) ||| (b2.toUInt32 <<< 16) ||| (b3.toUInt32 <<< 24)

def putLE32 (g : UInt32) : Bytes :=
  [g.toUInt8, (g >>> 8).toUInt8, (g >>> 16).toUInt8, (g >>> 24).toUInt8]

/-- Step both halves of the counter block: `+ 0x01010101` modulo `2^32` below, `+ 0x01010104`
    modulo `2^32 - 1` above. -/
def stepCounter (b : GostBlock) : GostBlock :=
  let g := le32 (b.byteAt 0) (b.byteAt 1) (b.byteAt 2) (b.byteAt 3) + 0x01010101
  let g2old := le32 (b.byteAt 4) (b.byteAt 5) (b.byteAt 6) (b.byteAt 7)
  let g2 := g2old + 0x01010104
  let g2 := if g2old > g2 then g2 + 1 else g2
  ⟨putLE32 g ++ putLE32 g2, rfl⟩

namespace GostCNT

/-- Mesh the key and re-encrypt the counter block under the new one. -/
def meshKey (s : GostCNT) : GostCNT :=
  let cipher := s.cipher.mesh
  { s with cipher, iv := cipher.encrypt s.iv }

/-- Produce the next eight bytes of gamma. -/
def nextGamma (s : GostCNT) : GostCNT :=
  let s := if s.count = meshThreshold then s.meshKey else s
  let buf1 := if s.count = 0 then s.cipher.encrypt s.iv else s.iv
  let buf1 := stepCounter buf1
  { s with
    iv := buf1
    buf := s.cipher.encrypt buf1
    count := s.count % meshThreshold + gostBlockSize }

/-- One byte of key stream. The source's inner loop uses up the current gamma; byte by byte that is:
    refill when none is in use, and wrap after eight. -/
def nextByte (s : GostCNT) : UInt8 × GostCNT :=
  let s := if s.num = 0 then s.nextGamma else s
  let num := s.num + 1
  (s.buf.byteAt s.num, { s with num := if num = gostBlockSize then 0 else num })

def xorKeyStream : GostCNT → Bytes → Bytes × GostCNT
  | s, []      => ([], s)
  | s, b :: bs =>
    let (k, s) := s.nextByte
    let (out, s) := xorKeyStream s bs
    ((b ^^^ k) :: out, s)

@[simp] theorem xorKeyStream_length (s : GostCNT) (b : Bytes) :
    (s.xorKeyStream b).1.length = b.length := by
  induction b generalizing s with
  | nil => rfl
  | cons x xs ih => simp [xorKeyStream, ih]

/-- **The stream is its own inverse**, and both directions leave the cipher in the same state. -/
theorem xorKeyStream_xorKeyStream (s : GostCNT) (b : Bytes) :
    s.xorKeyStream (s.xorKeyStream b).1 = (b, (s.xorKeyStream b).2) := by
  induction b generalizing s with
  | nil => rfl
  | cons x xs ih =>
      simp only [xorKeyStream, ih]
      rw [UInt8.xor_assoc, UInt8.xor_self, UInt8.xor_zero]

end GostCNT

/-! ## IMIT -/

/-- The streaming MAC: the chaining value, the bytes of a block not yet processed (a full block is
    kept until more data follows), and the bytes processed since the last meshing. -/
structure GostIMIT where
  cipher : Gost28147Cipher
  prev : GostBlock
  buf : Bytes
  count : Nat
  buf_le : buf.length ≤ gostBlockSize

def newGostIMIT (cipher : Gost28147Cipher) : GostIMIT :=
  { cipher, prev := .copy [], buf := [], count := 0, buf_le := Nat.zero_le _ }

namespace GostIMIT

/-- Chain one block, meshing the key first when the threshold is reached. -/
def processBlockMesh (m : GostIMIT) (block : GostBlock) : GostIMIT :=
  let cipher := if m.count = meshThreshold then m.cipher.mesh else m.cipher
  { m with
    cipher
    prev := cipher.seqMACBlock (m.prev.xor block)
    count := m.count % meshThreshold + gostBlockSize }

/-- Process blocks while more than eight bytes remain; the trailing bytes are left over. -/
def processFull (m : GostIMIT) : Bytes → GostIMIT × Bytes
  | b0 :: b1 :: b2 :: b3 :: b4 :: b5 :: b6 :: b7 :: b8 :: rest =>
    processFull (m.processBlockMesh ⟨[b0, b1, b2, b3, b4, b5, b6, b7], rfl⟩) (b8 :: rest)
  | data => (m, data)

/-- The second half of `Write`: whole blocks, then the trailing one to eight bytes. -/
def writeBlocks (m : GostIMIT) (data : Bytes) : GostIMIT :=
  let (m, rest) := m.processFull data
  if rest = [] then m
  else { m with buf := rest.take gostBlockSize, buf_le := List.length_take_le .. }

/-- Feed data into the MAC, completing a buffered partial block first. -/
def write (m : GostIMIT) (data : Bytes) : GostIMIT :=
  if m.buf = [] then m.writeBlocks data
  else
    let room := gostBlockSize - m.buf.length
    let filled := (m.buf ++ data).take gostBlockSize
    let rest := data.drop room
    if filled.length < gostBlockSize ∨ rest = [] then
      { m with buf := filled, buf_le := List.length_take_le .. }
    else
      let m := m.processBlockMesh (.copy filled)
      { m with buf := [], buf_le := Nat.zero_le _ }.writeBlocks rest

/-- The step `Finalize` makes on its copy of the chaining value and the count. The meshed key is
    local to the step. -/
def processSnap (m : GostIMIT) (snap : GostBlock × Nat) (block : GostBlock) : GostBlock × Nat :=
  let (prev, count) := snap
  let cipher := if count = meshThreshold then m.cipher.mesh else m.cipher
  (cipher.seqMACBlock (prev.xor block), count % meshThreshold + gostBlockSize)

/-- The 4-byte tag of what was written so far; the state is not changed. -/
def finalize (m : GostIMIT) : Bytes :=
  let snap := (m.prev, m.count)
  let snap := if m.buf.length > 0 then m.processSnap snap (.copy m.buf) else snap
  let snap := if snap.2 = 0 ∧ m.buf.length > 0 then m.processSnap snap (.copy []) else snap
  snap.1.bytes.take gostMACSize

@[simp] theorem finalize_length (m : GostIMIT) : m.finalize.length = gostMACSize := by
  simp only [finalize, List.length_take, GostBlock.length_eq]
  rfl

end GostIMIT

/-! ## The protector -/

/-- GOST 28147-89 CNT with a cumulative IMIT. -/
structure Gost28147Protector where
  cnt : GostCNT
  imit : GostIMIT

def newGOST28147Protector (encKey macKey iv : Bytes) (sbox : Sbox) : Except Err Gost28147Protector :=
  if encKey.length ≠ gostKeySize then
    .error (fatalRecordError ("GOST28147 enc key must be 32 bytes, got " ++ toString encKey.length))
  else if macKey.length ≠ gostKeySize then
    .error (fatalRecordError ("GOST28147 mac key must be 32 bytes, got " ++ toString macKey.length))
  else if iv.length ≠ gostBlockSize then
    .error (fatalRecordError ("GOST28147 iv must be 8 bytes, got " ++ toString iv.length))
  else
    .ok { cnt := newGostCNT ⟨encKey, sbox⟩ iv, imit := newGostIMIT ⟨macKey, sbox⟩ }

/-- The tag of a record, and the MAC state that has absorbed it. -/
def Gost28147Protector.computeGOSTMAC (p : Gost28147Protector) (seq : UInt64) (hdr : Header)
    (plain : Bytes) : Bytes × GostIMIT :=
  let ad := toBE 8 seq.toNat ++ hdr.typeVersion ++ toBE 2 plain.length
  let imit := (p.imit.write ad).write plain
  (imit.finalize, imit)

/-- `Encrypt(plain || MAC)` -/
def Gost28147Protector.seal (p : Gost28147Protector) (seq : UInt64) (hdr : Header) (plain : Bytes) :
    Bytes × Gost28147Protector :=
  let (mac, imit) := p.computeGOSTMAC seq hdr plain
  let (buf, cnt) := p.cnt.xorKeyStream (plain ++ mac)
  (buf, { cnt, imit })

/-- Decrypt, then check the MAC. -/
def Gost28147Protector.open (p : Gost28147Protector) (seq : UInt64) (hdr : Header)
    (fragment : Bytes) : Except Err Bytes × Gost28147Protector :=
  if fragment.length < gostMACSize then
    (.error (newFatalAlertError alertBadRecordMAC), p)
  else
    let (buf, cnt) := p.cnt.xorKeyStream fragment
    let plainEnd := buf.length - gostMACSize
    match sliceTo buf plainEnd, sliceFrom buf plainEnd with
    | .ok plain, .ok gotMAC =>
      let (expectedMAC, imit) := p.computeGOSTMAC seq hdr plain
      if constantTimeCompare gotMAC expectedMAC ≠ 1 then
        (.error (newFatalAlertError alertBadRecordMAC), { cnt, imit })
      else
        (.ok plain, { cnt, imit })
    | _, _ => (.error .panic, { p with cnt })

namespace Gost28147Protector

variable (p : Gost28147Protector)

theorem seal_length (seq : UInt64) (hdr : Header) (plain : Bytes) :
    (p.seal seq hdr plain).1.length = plain.length + 4 := by
  simp [Gost28147Protector.seal, computeGOSTMAC, gostMACSize]

theorem computeGOSTMAC_congr {seq : UInt64} {hdr hdr' : Header} (plain : Bytes)
    (h : hdr'.typeVersion = hdr.typeVersion) :
    p.computeGOSTMAC seq hdr' plain = p.computeGOSTMAC seq hdr plain := by
  simp only [computeGOSTMAC, h]

/-- **Round trip in lockstep.** Equal states open what was sealed and stay equal. -/
theorem open_seal {seq : UInt64} {hdr hdr' : Header} (plain : Bytes)
    (hhdr : hdr'.typeVersion = hdr.typeVersion) :
    p.open seq hdr' (p.seal seq hdr plain).1 = (.ok plain, (p.seal seq hdr plain).2) := by
  have hlen := p.seal_length seq hdr plain
  have hlong : ¬ (p.seal seq hdr plain).1.length < gostMACSize := by
    simp only [gostMACSize]; omega
  have hmac : (p.computeGOSTMAC seq hdr plain).1.length = gostMACSize := GostIMIT.finalize_length _
  have hstream : p.cnt.xorKeyStream (p.seal seq hdr plain).1 =
      (plain ++ (p.computeGOSTMAC seq hdr plain).1, (p.seal seq hdr plain).2.cnt) :=
    p.cnt.xorKeyStream_xorKeyStream _
  have hend : (plain ++ (p.computeGOSTMAC seq hdr plain).1).length - gostMACSize = plain.length := by
    rw [List.length_append, hmac, Nat.add_sub_cancel]
  have hto : sliceTo (plain ++ (p.computeGOSTMAC seq hdr plain).1) plain.length = .ok plain := by
    rw [sliceTo_eq (by simp), List.take_left' rfl]
  have hfrom : sliceFrom (plain ++ (p.computeGOSTMAC seq hdr plain).1) plain.length =
      .ok (p.computeGOSTMAC seq hdr plain).1 := by
    rw [sliceFrom_eq (by simp), List.drop_left' rfl]
  simp only [Gost28147Protector.open, if_neg hlong, hstream, hend, hto, hfrom,
    p.computeGOSTMAC_congr plain hhdr, constantTimeCompare, if_true]
  rfl

theorem open_throws (seq : UInt64) (hdr : Header) (fragment : Bytes) :
    Throws Err.Local (p.open seq hdr fragment).1 := by
  unfold Gost28147Protector.open
  split
  · exact throws_alert _
  · simp only
    split
    · split
      · exact throws_alert _
      · exact .ok _
    · exact throws_panic

end Gost28147Protector

end Gostls
