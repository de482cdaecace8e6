import Gostls.Lib.Crypto
import Gostls.Record.Wire
import Mathlib.Data.Nat.ModEq

/-!
# `Gostls.Record.CtrOmac` — Kuznyechik and Magma in CTR mode with OMAC

Nothing is shared between records: each one derives its encryption and MAC keys from the sequence
number through TLSTREE, and its counter block by adding the sequence number to the static IV.

* `adjustIV_value` — the counter block as a number; `adjustIV_inj` what it determines of the
  sequence number (all of it for Kuznyechik, the low 32 bits for Magma);
* `counterBlocks_never_collide` — different records have no counter block in common;
* `open_seal` — the round trip.
-/

namespace Gostls

open Lib

def ctrOMACKeySize : Nat := 32
def kuznyechikBlockSize : Nat := 16
def magmaBlockSize : Nat := 8
def kuznyechikIVLen : Nat := 8
def magmaIVLen : Nat := 4
def kuznyechikACPKMSection : Nat := 4096
def magmaACPKMSection : Nat := 1024

/-! ## Primitives -/

/-- What the protector takes from the cipher library, for one cipher of the given block size: the
    OMAC of a message under a key, the key stream of CTR-ACPKM, and the TLSTREE key derivation.
    OMAC accepts a full-block tag, and CTR-ACPKM an IV of block length and a section of whole
    blocks. -/
structure CtrOmacCipher (blockSize : Nat) where
  newOMAC : Bytes → Nat → Except Err (Bytes → Bytes)
  newCTRACPKM : Bytes → Bytes → Nat → Except Err (Nat → UInt8)
  newTLSTree : Bytes → UInt64 → Bytes
  newOMAC_ok : ∀ key, ∃ mac, newOMAC key blockSize = .ok mac ∧ ∀ m, (mac m).length = blockSize
  newCTRACPKM_ok : ∀ key iv sect, iv.length = blockSize → sect % blockSize = 0 →
    ∃ ks, newCTRACPKM key iv sect = .ok ks

/-- A cipher whose MAC and key stream are zero. -/
def CtrOmacCipher.sample (blockSize : Nat) : CtrOmacCipher blockSize where
  newOMAC := fun _ n => .ok (fun _ => List.replicate n 0)
  newCTRACPKM := fun _ _ _ => .ok (fun _ => 0)
  newTLSTree := fun key _ => key
  newOMAC_ok := fun _ => ⟨_, rfl, fun _ => List.length_replicate⟩
  newCTRACPKM_ok := fun _ _ _ _ _ => ⟨_, rfl⟩

/-! ## The protector -/

/-- The CTR-OMAC protector. The last fields are the proportions both constructors set up: the tag is
    a full block, the IV half a block, and the meshing section whole blocks. -/
structure CtrOMACProtector where
  blockSize : Nat
  cipher : CtrOmacCipher blockSize
  tagSize : Nat
  origIV : Bytes
  encTree : UInt64 → Bytes
  macTree : UInt64 → Bytes
  acpkmSection : Nat
  tagSize_eq : tagSize = blockSize
  blockSize_eq : blockSize = 2 * origIV.length
  origIV_le : origIV.length ≤ 8
  section_mod : acpkmSection % blockSize = 0

/-- The length checks of the two constructors, which differ in the cipher's name and sizes. -/
def checkCTROMACLengths (name : String) (ivLen : Nat) (encKey macKey iv : Bytes) : Except Err Unit :=
  if encKey.length ≠ ctrOMACKeySize then
    .error (fatalRecordError (name ++ " enc key must be 32 bytes, got " ++ toString encKey.length))
  else if macKey.length ≠ ctrOMACKeySize then
    .error (fatalRecordError (name ++ " mac key must be 32 bytes, got " ++ toString macKey.length))
  else if iv.length ≠ ivLen then
    .error (fatalRecordError
      (name ++ " iv must be " ++ toString ivLen ++ " bytes, got " ++ toString iv.length))
  else .ok ()

theorem checkCTROMACLengths_ok {name : String} {ivLen : Nat} {encKey macKey iv : Bytes} {u : Unit}
    (h : checkCTROMACLengths name ivLen encKey macKey iv = .ok u) : iv.length = ivLen := by
  unfold checkCTROMACLengths at h
  split at h
  · cases h
  · split at h
    · cases h
    · split at h
      · cases h
      · rename_i hiv
        exact not_not.mp hiv

def newKuznyechikCTROMACProtector (c : CtrOmacCipher kuznyechikBlockSize)
    (encKey macKey iv : Bytes) : Except Err CtrOMACProtector :=
  match h : checkCTROMACLengths "KuznyechikCTROMAC" kuznyechikIVLen encKey macKey iv with
  | .error err => .error err
  | .ok _ => .ok {
      blockSize := kuznyechikBlockSize
      cipher := c
      tagSize := kuznyechikBlockSize
      origIV := iv
      encTree := c.newTLSTree encKey
      macTree := c.newTLSTree macKey
      acpkmSection := kuznyechikACPKMSection
      tagSize_eq := rfl
      blockSize_eq := by rw [checkCTROMACLengths_ok h]; rfl
      origIV_le := by rw [checkCTROMACLengths_ok h]; decide
      section_mod := rfl }

def newMagmaCTROMACProtector (c : CtrOmacCipher magmaBlockSize)
    (encKey macKey iv : Bytes) : Except Err CtrOMACProtector :=
  match h : checkCTROMACLengths "MagmaCTROMAC" magmaIVLen encKey macKey iv with
  | .error err => .error err
  | .ok _ => .ok {
      blockSize := magmaBlockSize
      cipher := c
      tagSize := magmaBlockSize
      origIV := iv
      encTree := c.newTLSTree encKey
      macTree := c.newTLSTree macKey
      acpkmSection := magmaACPKMSection
      tagSize_eq := rfl
      blockSize_eq := by rw [checkCTROMACLengths_ok h]; rfl
      origIV_le := by rw [checkCTROMACLengths_ok h]; decide
      section_mod := rfl }

/-- The 5-byte header with the plaintext length in place of the placeholder. -/
def macHeaderForOMAC (hdr : Header) (plainLen : Nat) : Bytes := hdr.typeVersion ++ toBE 2 plainLen

/-- The counter block of a record: the low bytes of the sequence number added to the IV, then
    zeros. -/
def CtrOMACProtector.adjustIV (p : CtrOMACProtector) (seq : UInt64) : Bytes :=
  let seqBytes := toBE 8 seq.toNat
  let seqStart := 8 - p.origIV.length
  let (_, out) := carryAdd p.origIV (seqBytes.drop seqStart)
  out ++ List.replicate (p.blockSize - p.origIV.length) 0

/-- The OMAC of a record; `site` names the direction in the error text. -/
def CtrOMACProtector.recordTag (p : CtrOMACProtector) (site : String) (seq : UInt64) (hdr : Header)
    (plain : Bytes) : Except Err Bytes :=
  match p.cipher.newOMAC (p.macTree seq) p.tagSize with
  | .error e => .error (fatalRecordError ("ctrOMACProtector " ++ site ++ " OMAC init: " ++ e.error))
  | .ok omac => .ok (omac (toBE 8 seq.toNat ++ macHeaderForOMAC hdr plain.length ++ plain))

/-- The key stream of a record. -/
def CtrOMACProtector.recordStream (p : CtrOMACProtector) (site : String) (seq : UInt64) :
    Except Err (Nat → UInt8) :=
  match p.cipher.newCTRACPKM (p.encTree seq) (p.adjustIV seq) p.acpkmSection with
  | .error e => .error (fatalRecordError ("ctrOMACProtector " ++ site ++ " CTR init: " ++ e.error))
  | .ok ctr  => .ok ctr

/-- `CTR(plain || OMAC)` -/
def CtrOMACProtector.seal (p : CtrOMACProtector) (seq : UInt64) (hdr : Header) (plain : Bytes) :
    Except Err Bytes := do
  let tag ← p.recordTag "Seal" seq hdr plain
  let ctr ← p.recordStream "Seal" seq
  return xorStream ctr (plain ++ fit p.tagSize tag)

/-- Decrypt everything, then check the tag over the decrypted plaintext. -/
def CtrOMACProtector.open (p : CtrOMACProtector) (seq : UInt64) (hdr : Header) (fragment : Bytes) :
    Except Err Bytes := do
  if fragment.length < p.tagSize then
    throw (newFatalAlertError alertBadRecordMAC)
  let ctr ← p.recordStream "Open" seq
  let buf := xorStream ctr fragment
  let plainEnd := buf.length - p.tagSize
  let plain ← sliceTo buf plainEnd
  let gotTag ← sliceFrom buf plainEnd
  let expectedTag ← p.recordTag "Open" seq hdr plain
  if constantTimeCompare gotTag expectedTag ≠ 1 then
    throw (newFatalAlertError alertBadRecordMAC)
  return plain

namespace CtrOMACProtector

variable (p : CtrOMACProtector)

/-! ## The counter block -/

theorem seqBytes_length (seq : UInt64) :
    p.origIV.length = ((toBE 8 seq.toNat).drop (8 - p.origIV.length)).length := by
  have hle := p.origIV_le
  rw [List.length_drop, toBE_length]
  omega

theorem adjustIV_length (seq : UInt64) : (p.adjustIV seq).length = p.blockSize := by
  have hbs := p.blockSize_eq
  simp only [adjustIV, List.length_append, carryAdd_length (p.seqBytes_length seq),
    List.length_replicate]
  omega

/-- **The counter block as a number**: the IV plus the sequence number, modulo the IV's width, in the
    high half. -/
theorem adjustIV_value (seq : UInt64) :
    ofBE ((p.adjustIV seq).take p.origIV.length) =
      (ofBE p.origIV + seq.toNat) % 256 ^ p.origIV.length := by
  have hle := p.origIV_le
  have hlen := carryAdd_length (p.seqBytes_length seq)
  simp only [adjustIV, List.take_left' hlen, ofBE_carryAdd (p.seqBytes_length seq)]
  rw [ofBE_drop_toBE, show 8 - (8 - p.origIV.length) = p.origIV.length by omega,
    Nat.add_mod_mod]

/-- Equal counter blocks: equal sequence numbers modulo the IV's width. -/
theorem adjustIV_inj {s s' : UInt64} (h : p.adjustIV s = p.adjustIV s') :
    s.toNat % 256 ^ p.origIV.length = s'.toNat % 256 ^ p.origIV.length := by
  have hv := p.adjustIV_value s
  rw [h, p.adjustIV_value s'] at hv
  exact (Nat.ModEq.add_left_cancel' _ hv).symm

/-- **The counter block of a record.** -/
theorem adjustIV_eq (seq : UInt64) :
    p.adjustIV seq = toBE p.origIV.length ((ofBE p.origIV + seq.toNat) % 256 ^ p.origIV.length) ++
      List.replicate p.origIV.length 0 := by
  have hlen := carryAdd_length (p.seqBytes_length seq)
  have hlow : p.blockSize - p.origIV.length = p.origIV.length := by
    rw [p.blockSize_eq]
    omega
  have hhigh : (p.adjustIV seq).take p.origIV.length =
      (carryAdd p.origIV ((toBE 8 seq.toNat).drop (8 - p.origIV.length))).2 := by
    simp only [adjustIV, List.take_left' hlen]
  have hbytes := toBE_ofBE ((p.adjustIV seq).take p.origIV.length)
  rw [p.adjustIV_value seq, hhigh, hlen] at hbytes
  rw [hbytes]
  simp only [adjustIV, hlow]

/-- Counter block `i` of a record: the counter mode increments the whole block, as a big-endian
    integer. -/
def counterBlock (seq : UInt64) (i : Nat) : Bytes := toBE p.blockSize (ofBE (p.adjustIV seq) + i)

theorem adjustIV_ofBE (seq : UInt64) :
    ofBE (p.adjustIV seq) =
      (ofBE p.origIV + seq.toNat) % 256 ^ p.origIV.length * 256 ^ p.origIV.length := by
  have hzero : ofBE (List.replicate p.origIV.length 0) = 0 :=
    (ofBE_eq_zero_iff _).mpr (fun x hx => List.eq_of_mem_replicate hx)
  have hlt : (ofBE p.origIV + seq.toNat) % 256 ^ p.origIV.length < 256 ^ p.origIV.length :=
    Nat.mod_lt _ (Nat.pow_pos (by decide))
  rw [p.adjustIV_eq, ofBE_append, hzero, ofBE_toBE_of_lt hlt, List.length_replicate, Nat.add_zero]

/-- Offsets that stay in the low half leave the high half alone, so counter blocks of sequence numbers
    that differ modulo the IV's width differ. -/
theorem counterBlock_ne {seq seq' : UInt64} {i j : Nat} (hi : i < 256 ^ p.origIV.length)
    (hj : j < 256 ^ p.origIV.length)
    (hseq : seq.toNat % 256 ^ p.origIV.length ≠ seq'.toNat % 256 ^ p.origIV.length) :
    p.counterBlock seq i ≠ p.counterBlock seq' j := by
  intro heq
  have hfits : ∀ v k, k < 256 ^ p.origIV.length →
      v % 256 ^ p.origIV.length * 256 ^ p.origIV.length + k < 256 ^ p.blockSize := by
    intro v k hk
    have hv : v % 256 ^ p.origIV.length < 256 ^ p.origIV.length :=
      Nat.mod_lt _ (Nat.pow_pos (by decide))
    rw [p.blockSize_eq, Nat.two_mul, Nat.pow_add]
    calc v % 256 ^ p.origIV.length * 256 ^ p.origIV.length + k
      _ < v % 256 ^ p.origIV.length * 256 ^ p.origIV.length + 256 ^ p.origIV.length :=
          Nat.add_lt_add_left hk _
      _ = (v % 256 ^ p.origIV.length + 1) * 256 ^ p.origIV.length := (Nat.succ_mul _ _).symm
      _ ≤ 256 ^ p.origIV.length * 256 ^ p.origIV.length := Nat.mul_le_mul_right _ hv
  unfold counterBlock at heq
  rw [adjustIV_ofBE, adjustIV_ofBE] at heq
  have hvalue := toBE_inj (hfits _ i hi) (hfits _ j hj) heq
  -- The high halves agree, and with them the sequence numbers.
  have hhigh := congrArg (· / 256 ^ p.origIV.length) hvalue
  simp only [Nat.mul_add_div (Nat.pow_pos (n := p.origIV.length) (show 0 < 256 by decide)),
    Nat.mul_comm _ (256 ^ p.origIV.length), Nat.div_eq_of_lt hi, Nat.div_eq_of_lt hj, Nat.add_zero] at hhigh
  exact hseq (Nat.ModEq.add_left_cancel' _ hhigh)

theorem tagSize_le : p.tagSize ≤ 16 := by
  rw [p.tagSize_eq, p.blockSize_eq]
  have := p.origIV_le
  omega

/-- No record has as many blocks as the low half counts. -/
theorem offset_lt (hfour : 4 ≤ p.origIV.length) {i : Nat} (hi : i * p.blockSize < 2 ^ 14 + p.tagSize) :
    i < 256 ^ p.origIV.length := by
  have htag := p.tagSize_le
  have hblock : 1 ≤ p.blockSize := by
    rw [p.blockSize_eq]
    omega
  have hle : i ≤ i * p.blockSize := Nat.le_mul_of_pos_right i hblock
  calc i
    _ < 256 ^ 4 := by omega
    _ ≤ 256 ^ p.origIV.length := Nat.pow_le_pow_right (by decide) hfour

/-! ## Round trip -/

/-- The tag of a record depends on the header only through its type and version. -/
theorem recordTag_ok (seq : UInt64) (hdr : Header) (plain : Bytes) :
    ∃ tag, tag.length = p.tagSize ∧ ∀ site hdr', hdr'.typeVersion = hdr.typeVersion →
      p.recordTag site seq hdr' plain = .ok tag := by
  obtain ⟨mac, hmac, hlen⟩ := p.cipher.newOMAC_ok (p.macTree seq)
  have hmac' : p.cipher.newOMAC (p.macTree seq) p.tagSize = .ok mac := by rw [p.tagSize_eq, hmac]
  refine ⟨mac (toBE 8 seq.toNat ++ macHeaderForOMAC hdr plain.length ++ plain), ?_, ?_⟩
  · rw [hlen, p.tagSize_eq]
  · intro site hdr' hhdr
    simp only [recordTag, hmac', macHeaderForOMAC, hhdr]

theorem recordStream_ok (seq : UInt64) : ∃ ks, ∀ site, p.recordStream site seq = .ok ks := by
  obtain ⟨ks, hks⟩ := p.cipher.newCTRACPKM_ok (p.encTree seq) (p.adjustIV seq) p.acpkmSection
    (p.adjustIV_length seq) p.section_mod
  exact ⟨ks, fun site => by simp only [recordStream, hks]⟩

/-- Sealing never fails, and encrypts plaintext and tag with one key stream. -/
theorem seal_eq (seq : UInt64) (hdr : Header) (plain : Bytes) :
    ∃ tag ks, tag.length = p.tagSize ∧ (∀ site, p.recordStream site seq = .ok ks) ∧
      (∀ site hdr', hdr'.typeVersion = hdr.typeVersion →
        p.recordTag site seq hdr' plain = .ok tag) ∧
      p.seal seq hdr plain = .ok (xorStream ks (plain ++ tag)) := by
  obtain ⟨tag, hlen, htag⟩ := p.recordTag_ok seq hdr plain
  obtain ⟨ks, hks⟩ := p.recordStream_ok seq
  refine ⟨tag, ks, hlen, hks, htag, ?_⟩
  simp only [CtrOMACProtector.seal, htag "Seal" hdr rfl, hks, ok_bind, fit_eq_self hlen]
  rfl

theorem seal_length {seq : UInt64} {hdr : Header} {plain frag : Bytes}
    (h : p.seal seq hdr plain = .ok frag) : frag.length = plain.length + p.tagSize := by
  obtain ⟨tag, ks, hlen, -, -, hseal⟩ := p.seal_eq seq hdr plain
  rw [hseal] at h
  cases h
  rw [xorStream_length, List.length_append, hlen]

/-- **Round trip.** -/
theorem open_seal {seq : UInt64} {hdr hdr' : Header} {plain frag : Bytes}
    (hhdr : hdr'.typeVersion = hdr.typeVersion) (h : p.seal seq hdr plain = .ok frag) :
    p.open seq hdr' frag = .ok plain := by
  obtain ⟨tag, ks, hlen, hks, htag, hseal⟩ := p.seal_eq seq hdr plain
  rw [hseal] at h
  cases h
  have hlong : ¬ (xorStream ks (plain ++ tag)).length < p.tagSize := by simp [hlen]
  have hend : (plain ++ tag).length - p.tagSize = plain.length := by simp [hlen]
  have hto : sliceTo (plain ++ tag) plain.length = .ok plain := by
    rw [sliceTo_eq (by simp), List.take_left' rfl]
  have hfrom : sliceFrom (plain ++ tag) plain.length = .ok tag := by
    rw [sliceFrom_eq (by simp), List.drop_left' rfl]
  simp only [CtrOMACProtector.open, if_neg hlong, hks, ok_bind, xorStream_xorStream, hend, hto,
    hfrom, htag "Open" hdr' hhdr, constantTimeCompare, if_true]
  rfl

theorem open_throws (seq : UInt64) (hdr : Header) (fragment : Bytes) :
    Throws Err.Local (p.open seq hdr fragment) := by
  obtain ⟨ks, hks⟩ := p.recordStream_ok seq
  unfold CtrOMACProtector.open
  rw [hks "Open"]
  refine .ite (throws_alert _) (.bind (.ok ks) fun ctr =>
    .bind (slice_throws _ _ _) fun plain => .bind (slice_throws _ _ _) fun got => ?_)
  obtain ⟨tag, -, htag⟩ := p.recordTag_ok seq hdr plain
  rw [htag "Open" hdr rfl]
  exact .ite (throws_alert _) (.ok _)

end CtrOMACProtector

/-! ## Counter blocks of different records -/

theorem newKuznyechikCTROMACProtector_ok {c : CtrOmacCipher kuznyechikBlockSize} {encKey macKey iv : Bytes}
    {p : CtrOMACProtector} (h : newKuznyechikCTROMACProtector c encKey macKey iv = .ok p) :
    p.origIV = iv ∧ iv.length = kuznyechikIVLen := by
  unfold newKuznyechikCTROMACProtector at h
  split at h
  · cases h
  · rename_i hcheck
    cases h
    exact ⟨rfl, checkCTROMACLengths_ok hcheck⟩

theorem newMagmaCTROMACProtector_ok {c : CtrOmacCipher magmaBlockSize} {encKey macKey iv : Bytes}
    {p : CtrOMACProtector} (h : newMagmaCTROMACProtector c encKey macKey iv = .ok p) :
    p.origIV = iv ∧ iv.length = magmaIVLen := by
  unfold newMagmaCTROMACProtector at h
  split at h
  · cases h
  · rename_i hcheck
    cases h
    exact ⟨rfl, checkCTROMACLengths_ok hcheck⟩

/-- **Counter blocks never collide.** The counter block of a record is the IV plus the sequence number,
    modulo the IV's width, over a half of zeros. The blocks of a record of at most `2^14` bytes and a tag
    are counted in that half, so records whose sequence numbers differ (for Magma, in their low 32 bits)
    have no counter block in common. -/
theorem counterBlocks_never_collide (p : CtrOMACProtector) (encKey macKey iv : Bytes) :
    (∀ c, newKuznyechikCTROMACProtector c encKey macKey iv = .ok p →
      (∀ seq, p.adjustIV seq = toBE 8 ((ofBE iv + seq.toNat) % 2 ^ 64) ++ List.replicate 8 0) ∧
      ∀ seq seq' i j, seq ≠ seq' → i * p.blockSize < 2 ^ 14 + p.tagSize →
        j * p.blockSize < 2 ^ 14 + p.tagSize → p.counterBlock seq i ≠ p.counterBlock seq' j) ∧
    (∀ c, newMagmaCTROMACProtector c encKey macKey iv = .ok p →
      (∀ seq, p.adjustIV seq = toBE 4 ((ofBE iv + seq.toNat) % 2 ^ 32) ++ List.replicate 4 0) ∧
      ∀ seq seq' i j, seq.toNat % 2 ^ 32 ≠ seq'.toNat % 2 ^ 32 → i * p.blockSize < 2 ^ 14 + p.tagSize →
        j * p.blockSize < 2 ^ 14 + p.tagSize → p.counterBlock seq i ≠ p.counterBlock seq' j) := by
  constructor
  · intro c h
    obtain ⟨rfl, hlen⟩ := newKuznyechikCTROMACProtector_ok h
    have hfour : 4 ≤ p.origIV.length := hlen ▸ (by decide)
    refine ⟨?_, ?_⟩
    · intro seq
      rw [p.adjustIV_eq, hlen]
      rfl
    · intro seq seq' i j hseq hi hj
      refine p.counterBlock_ne (p.offset_lt hfour hi) (p.offset_lt hfour hj) ?_
      -- The IV is as wide as the sequence number.
      have hwide : ∀ s : UInt64, s.toNat % 256 ^ p.origIV.length = s.toNat := by
        intro s
        rw [hlen]
        exact Nat.mod_eq_of_lt s.toNat_lt
      rw [hwide, hwide]
      exact fun heq => hseq (UInt64.toNat_inj.mp heq)
  · intro c h
    obtain ⟨rfl, hlen⟩ := newMagmaCTROMACProtector_ok h
    have hfour : 4 ≤ p.origIV.length := hlen ▸ (by decide)
    refine ⟨?_, ?_⟩
    · intro seq
      rw [p.adjustIV_eq, hlen]
      rfl
    · intro seq seq' i j hseq hi hj
      refine p.counterBlock_ne (p.offset_lt hfour hi) (p.offset_lt hfour hj) ?_
      rw [hlen]
      exact hseq

/-- The first block of record 1 and the last block of record 0, under zero IVs. -/
theorem counterBlocks_never_collide_first_records :
    (∃ p, newKuznyechikCTROMACProtector (.sample _) (List.replicate 32 0) (List.replicate 32 0)
        (List.replicate 8 0) = .ok p ∧ p.counterBlock 1 0 ≠ p.counterBlock 0 1024) ∧
    (∃ p, newMagmaCTROMACProtector (.sample _) (List.replicate 32 0) (List.replicate 32 0)
        (List.replicate 4 0) = .ok p ∧ p.counterBlock 1 0 ≠ p.counterBlock 0 2048) := by
  refine ⟨⟨_, rfl, ?_⟩, ⟨_, rfl, ?_⟩⟩
  · exact ((counterBlocks_never_collide _ (List.replicate 32 0) (List.replicate 32 0)
      (List.replicate 8 0)).1 (.sample _) rfl).2 1 0 0 1024 (by decide) (by decide) (by decide)
  · exact ((counterBlocks_never_collide _ (List.replicate 32 0) (List.replicate 32 0)
      (List.replicate 4 0)).2 (.sample _) rfl).2 1 0 0 2048 (by decide) (by decide) (by decide)

end Gostls
