import Gostls.Lib.Crypto
import Gostls.Record.Wire

/-!
# `Gostls.Record.Cbc` — the CBC / HMAC protector

MAC-then-pad-then-encrypt with an explicit IV, and its constant-time opening.

* `extractCBCPadding` is the branch-free padding scan; `extractCBCPadding_eq` says what the bit
  arithmetic computes: the mask is `0xff` exactly on well-formed padding.
* `CbcHMACProtector.open_seal` is the round trip, and `CbcHMACProtector.seal_length_le` the bound on
  the sealed fragment.
-/

namespace Gostls

open Lib

/-! ## Constant-time masks -/

/-- `byte(int32(^t) >> 31)`: the complement of bit 31 of `t`, spread over a byte. -/
def signMask (t : UInt64) : UInt8 :=
  ⟨(((~~~ t).toBitVec.setWidth 32).sshiftRight 31).setWidth 8⟩

theorem signMask_bit (t : UInt64) {i : Nat} (hi : i < 8) :
    (signMask t).toBitVec.getLsbD i = !t.toBitVec.getLsbD 31 := by
  simp only [signMask, BitVec.getLsbD_setWidth, hi, decide_true, Bool.true_and,
    BitVec.getLsbD_sshiftRight, BitVec.msb_eq_getLsbD_last]
  rcases Nat.eq_zero_or_pos i with rfl | hpos
  · simp
  · have hout : ¬ 31 + i < 32 := by omega
    simp [hout]
    omega

theorem signMask_eq (t : UInt64) :
    signMask t = if t.toNat / 2147483648 % 2 = 1 then 0 else 0xff := by
  have hbit : t.toBitVec.getLsbD 31 = decide (t.toNat / 2147483648 % 2 = 1) := by
    rw [BitVec.getLsbD, Nat.testBit_eq_decide_div_mod_eq]
    rfl
  apply UInt8.toBitVec_inj.mp
  apply BitVec.eq_of_getLsbD_eq
  intro i hi
  rw [signMask_bit t hi, hbit]
  split
  · rename_i h
    simp [h]
  · rename_i h
    rw [decide_eq_false h]
    revert i
    decide

/-- **The mask is a comparison.** -/
theorem signMask_sub {a b : Nat} (ha : a < 2147483648) (hb : b < 2147483648) :
    signMask (UInt64.ofNat a - UInt64.ofNat b) = if b ≤ a then 0xff else 0 := by
  have hsub : (UInt64.ofNat a - UInt64.ofNat b).toNat = (2 ^ 64 - b + a) % 2 ^ 64 := by
    rw [UInt64.toNat_sub, UInt64.toNat_ofNat', UInt64.toNat_ofNat']
    omega
  rw [signMask_eq, hsub]
  by_cases hle : b ≤ a
  · rw [if_neg (by omega), if_pos hle]
  · rw [if_pos (by omega), if_neg hle]

/-- Fold the eight bits of a byte into all ones or all zeros. -/
def foldMask (good : UInt8) : UInt8 :=
  let good := good &&& (good <<< 4)
  let good := good &&& (good <<< 2)
  let good := good &&& (good <<< 1)
  ⟨good.toBitVec.sshiftRight 7⟩

theorem foldMask_eq (good : UInt8) : foldMask good = if good = 0xff then 0xff else 0 := by
  have hall : ∀ b : BitVec 8, foldMask ⟨b⟩ = if (⟨b⟩ : UInt8) = 0xff then 0xff else 0 := by
    decide +kernel
  exact hall good.toBitVec

/-! ## Padding -/

def cbcMaxPaddingScan : Nat := 256

/-- One step of the scan: clear the bits of `good` in which the byte at distance `i` from the end
    differs from the padding length, if `i` is within the padding. -/
def scanStep (payload : Bytes) (paddingLen good : UInt8) (i : Nat) : Except Err UInt8 := do
  let mask := signMask (paddingLen.toUInt64 - UInt64.ofNat i)
  let b ← index payload (payload.length - 1 - i)
  return good &&& ~~~ ((mask &&& paddingLen) ^^^ (mask &&& b))

/-- The number of trailing bytes to remove, and a mask that is `0xff` iff the padding is well
    formed. -/
def extractCBCPadding (payload : Bytes) : Except Err (Nat × UInt8) := do
  if payload.length < 1 then
    return (0, 0)
  let paddingLen ← index payload (payload.length - 1)
  let t := UInt64.ofNat (payload.length - 1) - paddingLen.toUInt64
  let good := signMask t
  let toCheck := min cbcMaxPaddingScan payload.length
  let good ← (List.range toCheck).foldlM (scanStep payload paddingLen) good
  return (paddingLen.toNat + 1, foldMask good)

/-- Padding is well formed if it fits and all its bytes equal its length. -/
def WellPadded (payload : Bytes) (paddingLen : UInt8) : Prop :=
  paddingLen.toNat + 1 ≤ payload.length ∧
    ∀ i, i ≤ paddingLen.toNat → payload[payload.length - 1 - i]? = some paddingLen

theorem and_compl_eq_ff (x y : UInt8) : x &&& ~~~ y = 0xff ↔ x = 0xff ∧ y = 0 := by
  have hff : (0xff : UInt8) = -1 := by decide
  have hzero : ~~~ (0 : UInt8) = -1 := by decide
  rw [hff, UInt8.and_eq_neg_one_iff, ← hzero, UInt8.not_inj]

theorem ff_and (x : UInt8) : 0xff &&& x = x := by
  have hff : (0xff : UInt8) = -1 := by decide
  rw [hff, UInt8.neg_one_and]

theorem toUInt64_eq (x : UInt8) : x.toUInt64 = UInt64.ofNat x.toNat :=
  UInt64.toNat_inj.mp (by simp)

/-- A step keeps `good` at `0xff` iff the byte it looks at is in order. -/
theorem scanStep_spec {payload : Bytes} (p good : UInt8) {i : Nat} (hi : i < payload.length)
    (hi' : i < 256) :
    ∃ g, scanStep payload p good i = .ok g ∧
      (g = 0xff ↔ good = 0xff ∧ (i ≤ p.toNat → payload[payload.length - 1 - i]? = some p)) := by
  obtain ⟨b, hb⟩ : ∃ b, payload[payload.length - 1 - i]? = some b :=
    ⟨_, List.getElem?_eq_getElem (by omega)⟩
  have hp := p.toNat_lt
  have hmask : signMask (p.toUInt64 - UInt64.ofNat i) = if i ≤ p.toNat then 0xff else 0 := by
    rw [toUInt64_eq, signMask_sub (by omega) (by omega)]
  refine ⟨_, by simp only [scanStep, index, hb]; rfl, ?_⟩
  rw [and_compl_eq_ff, hmask, hb]
  by_cases hle : i ≤ p.toNat
  · simp only [hle, if_true, ff_and, UInt8.xor_eq_zero_iff, Option.some.injEq, true_implies]
    rw [eq_comm (a := p)]
  · simp [hle]

theorem scan_spec {payload : Bytes} (p good : UInt8) {k : Nat} (hk : k ≤ payload.length)
    (hk' : k ≤ 256) :
    ∃ g, (List.range k).foldlM (scanStep payload p) good = .ok g ∧
      (g = 0xff ↔ good = 0xff ∧
        ∀ i, i < k → i ≤ p.toNat → payload[payload.length - 1 - i]? = some p) := by
  induction k with
  | zero => exact ⟨good, rfl, by simp⟩
  | succ k ih =>
      obtain ⟨g, hg, hiff⟩ := ih (by omega) (by omega)
      obtain ⟨g', hg', hiff'⟩ := scanStep_spec p g (show k < payload.length by omega) (by omega)
      refine ⟨g', ?_, ?_⟩
      · rw [List.range_succ, List.foldlM_append, hg]
        simp only [List.foldlM_cons, List.foldlM_nil, bind_pure]
        exact hg'
      · rw [hiff', hiff]
        constructor
        · rintro ⟨⟨hgood, hall⟩, hlast⟩
          refine ⟨hgood, fun i hi hip => ?_⟩
          rcases Nat.lt_succ_iff_lt_or_eq.mp hi with hlt | rfl
          · exact hall i hlt hip
          · exact hlast hip
        · rintro ⟨hgood, hall⟩
          exact ⟨⟨hgood, fun i hi => hall i (by omega)⟩, hall k (by omega)⟩

instance (payload : Bytes) (p : UInt8) : Decidable (WellPadded payload p) :=
  inferInstanceAs (Decidable (_ ∧ ∀ i, i ≤ p.toNat → payload[payload.length - 1 - i]? = some p))

/-- **The padding scan meets its specification.** The length is that of a Go slice on which the
    32-bit sign trick is sound. -/
theorem extractCBCPadding_eq {payload : Bytes} {p : UInt8} (hp : payload.getLast? = some p)
    (hlen : payload.length < 2147483648) :
    extractCBCPadding payload = .ok (p.toNat + 1, if WellPadded payload p then 0xff else 0) := by
  have hpos : 0 < payload.length := by
    cases payload with
    | nil => simp at hp
    | cons x xs => simp
  have hpt := p.toNat_lt
  have hidx : index payload (payload.length - 1) = .ok p := by
    rw [List.getLast?_eq_getElem?] at hp
    simp only [index, hp]
  have hfirst : signMask (UInt64.ofNat (payload.length - 1) - p.toUInt64) =
      if p.toNat ≤ payload.length - 1 then 0xff else 0 := by
    rw [toUInt64_eq, signMask_sub (by omega) (by omega)]
  obtain ⟨g, hg, hiff⟩ := scan_spec p (signMask (UInt64.ofNat (payload.length - 1) - p.toUInt64))
    (Nat.min_le_right cbcMaxPaddingScan payload.length) (Nat.min_le_left ..)
  have hwell : g = 0xff ↔ WellPadded payload p := by
    rw [hiff, hfirst, WellPadded]
    by_cases hle : p.toNat ≤ payload.length - 1
    · simp only [hle, if_true, true_and, cbcMaxPaddingScan]
      constructor
      · intro hall
        exact ⟨by omega, fun i hi => hall i (by omega) hi⟩
      · intro hall i _ hi
        exact hall.2 i hi
    · have hlt : ¬ p.toNat + 1 ≤ payload.length := by omega
      simp [hle, hlt]
  have hfold : foldMask g = if WellPadded payload p then 0xff else 0 := by
    rw [foldMask_eq]
    exact if_congr hwell rfl rfl
  simp only [extractCBCPadding, if_neg (Nat.not_lt.mpr hpos), hidx]
  simp only [bind, Except.bind, hg, hfold, pure, Except.pure]

theorem wellPadded_append (content : Bytes) (p : UInt8) :
    WellPadded (content ++ List.replicate (p.toNat + 1) p) p := by
  refine ⟨by simp, fun i hi => ?_⟩
  rw [List.length_append, List.length_replicate, List.getElem?_append_right (by omega),
    List.getElem?_replicate, if_pos (by omega)]

/-- The payload `Seal` pads: its padding is recognised, and its length recovered. -/
theorem extractCBCPadding_padded (content : Bytes) (p : UInt8)
    (hlen : content.length < 2147483392) :
    extractCBCPadding (content ++ List.replicate (p.toNat + 1) p) = .ok (p.toNat + 1, 0xff) := by
  have hp := p.toNat_lt
  rw [extractCBCPadding_eq (p := p) (by simp [List.replicate_succ']) (by simp; omega),
    if_pos (wellPadded_append content p)]

/-! ## The protector -/

/-- The constructor type of a block cipher. -/
abbrev NewCipherFunc := Bytes → Except Err BlockCipher

/-- TLS 1.2 MAC-then-encrypt CBC mode. The last two fields are what the constructor establishes. -/
structure CbcHMACProtector where
  newCipher : NewCipherFunc
  newHash : Hash
  encKey : Bytes
  macKey : Bytes
  blockSize : Nat
  macSize : Nat
  newCipher_encKey : ∃ b, newCipher encKey = .ok b ∧ b.blockSize = blockSize
  macSize_eq : newHash.size = macSize

/-- Fails exactly when the cipher rejects the key. -/
def newCBCHMACProtector (newCipher : NewCipherFunc) (newHash : Hash) (encKey macKey : Bytes) :
    Except Err CbcHMACProtector :=
  match h : newCipher encKey with
  | .error err => .error err
  | .ok b => .ok {
      newCipher, newHash, encKey, macKey
      blockSize := b.blockSize
      macSize := newHash.size
      newCipher_encKey := ⟨b, h, rfl⟩
      macSize_eq := rfl }

/-- `subtle.ConstantTimeSelect(v, x, y)` -/
def constantTimeSelect (v x y : Int) : Int := if v = 1 then x else y

/-- `int(uint32(n) >> 31)` -/
def signBit32 (n : Int) : Int := n % 4294967296 / 2147483648

namespace CbcHMACProtector

variable (p : CbcHMACProtector)

/-- The MAC of a fragment. The bytes past the digest that the source also feeds to the HMAC do not
    change the result. -/
def computeMAC (seq : UInt64) (hdr : Header) (fragment : Bytes) : Bytes :=
  hmac p.newHash p.macKey (macAdditionalData seq hdr fragment.length ++ fragment)

/-- The number of padding bytes before the length byte. -/
def padLen (plainLen : Nat) : Nat := p.blockSize - (plainLen + p.macSize + 1) % p.blockSize

/-- The buffer that is encrypted: `plain || mac || padding`. -/
def padded (seq : UInt64) (hdr : Header) (plain : Bytes) : Bytes :=
  let padLen := p.padLen plain.length
  plain ++ p.computeMAC seq hdr plain ++ List.replicate (padLen + 1) (UInt8.ofNat padLen)

/-- `p.newCipher(p.encKey)`, with the error text both directions give it. -/
def cipherInit : Except Err BlockCipher :=
  match p.newCipher p.encKey with
  | .ok b    => .ok b
  | .error e => .error (fatalRecordError ("cipher init: " ++ e.error))

/-- What `Open` does once it has decrypted: remove the padding and check the MAC, in one
    constant-time decision. -/
def removePadding (seq : UInt64) (hdr : Header) (plain : Bytes) : Except Err Bytes := do
  let (toRemove, paddingGood) ← extractCBCPadding plain
  let rawN : Int := plain.length - p.macSize - toRemove
  let n ← sliceBound (constantTimeSelect (signBit32 rawN) 0 rawN)
  let gotMAC ← slice plain n (n + p.macSize)
  let out ← sliceTo plain n
  let expectedMAC := p.computeMAC seq hdr out
  if constantTimeCompare gotMAC expectedMAC &&& paddingGood.toNat ≠ 1 then
    throw (newFatalAlertError alertBadRecordMAC)
  return out

end CbcHMACProtector

/-- `IV || Encrypt(plain || mac || padding)` under a fresh random IV. -/
def CbcHMACProtector.seal (p : CbcHMACProtector) (seq : UInt64) (hdr : Header) (plain : Bytes)
    (rand : Entropy) : Except Err Bytes × Entropy :=
  let buf := p.padded seq hdr plain
  match rand.read p.blockSize with
  | (.error e, rand) => (.error (fatalRecordError ("rand.Read failed: " ++ (Err.stream e).error)), rand)
  | (.ok iv, rand)   =>
    match p.cipherInit with
    | .error e  => (.error e, rand)
    | .ok block => (.ok (iv ++ block.cbcEncrypt iv buf), rand)

/-- Decrypt the blocks after the IV, then remove the padding and check the MAC. -/
def CbcHMACProtector.open (p : CbcHMACProtector) (seq : UInt64) (hdr : Header) (fragment : Bytes) :
    Except Err Bytes := do
  if fragment.length < p.blockSize + p.macSize + 1 then
    throw (newFatalAlertError alertBadRecordMAC)
  if fragment.length % p.blockSize ≠ 0 then
    throw (newFatalAlertError alertBadRecordMAC)
  let iv ← sliceTo fragment p.blockSize
  let ciphertext ← sliceFrom fragment p.blockSize
  let block ← p.cipherInit
  p.removePadding seq hdr (block.cbcDecrypt iv ciphertext)

namespace CbcHMACProtector

variable (p : CbcHMACProtector)

@[simp] theorem computeMAC_length (seq : UInt64) (hdr : Header) (fragment : Bytes) :
    (p.computeMAC seq hdr fragment).length = p.macSize := by
  simp [computeMAC, p.macSize_eq]

theorem cipherInit_ok : ∃ b, p.cipherInit = .ok b ∧ b.blockSize = p.blockSize := by
  obtain ⟨b, hb, hbs⟩ := p.newCipher_encKey
  exact ⟨b, by simp only [cipherInit, hb], hbs⟩

theorem blockSize_pos : 0 < p.blockSize := by
  obtain ⟨b, -, hbs⟩ := p.newCipher_encKey
  exact hbs ▸ b.blockSize_pos

theorem padLen_le (n : Nat) : p.padLen n ≤ p.blockSize := Nat.sub_le ..

/-- The padding aligns the buffer to the block. -/
theorem padLen_aligns (n : Nat) : (n + p.macSize + (p.padLen n + 1)) % p.blockSize = 0 := by
  have hpos := p.blockSize_pos
  have hlt := Nat.mod_lt (n + p.macSize + 1) hpos
  have hsplit := Nat.div_add_mod (n + p.macSize + 1) p.blockSize
  have hsum : n + p.macSize + (p.padLen n + 1) =
      p.blockSize * ((n + p.macSize + 1) / p.blockSize + 1) := by
    rw [Nat.mul_add, padLen]
    omega
  rw [hsum, Nat.mul_mod_right]

theorem padded_length (seq : UInt64) (hdr : Header) (plain : Bytes) :
    (p.padded seq hdr plain).length = plain.length + p.macSize + (p.padLen plain.length + 1) := by
  simp [padded, Nat.add_assoc]

/-- The shape of a sealed fragment: an IV and whole encrypted blocks. -/
theorem seal_eq {seq : UInt64} {hdr : Header} {plain frag : Bytes} {rand rand' : Entropy}
    (h : p.seal seq hdr plain rand = (.ok frag, rand')) :
    ∃ iv block, p.cipherInit = .ok block ∧ block.blockSize = p.blockSize ∧
      iv.length = p.blockSize ∧ frag = iv ++ block.cbcEncrypt iv (p.padded seq hdr plain) := by
  obtain ⟨block, hblock, hbs⟩ := p.cipherInit_ok
  simp only [CbcHMACProtector.seal, hblock] at h
  split at h
  · cases h
  · rename_i iv rand₁ hread
    cases h
    exact ⟨iv, block, hblock, hbs, Entropy.read_length hread, rfl⟩

/-- With entropy to draw on, sealing does not fail. -/
theorem seal_ok (seq : UInt64) (hdr : Header) (plain : Bytes) {rand : Entropy}
    (hr : rand.Reliable) : ∃ frag rand', p.seal seq hdr plain rand = (.ok frag, rand') ∧
      rand'.Reliable := by
  obtain ⟨block, hblock, -⟩ := p.cipherInit_ok
  obtain ⟨iv, rand', hread, hr'⟩ := hr.read p.blockSize
  exact ⟨_, rand', by simp only [CbcHMACProtector.seal, hread, hblock]; rfl, hr'⟩

theorem dvd_padded_length (seq : UInt64) (hdr : Header) (plain : Bytes) :
    p.blockSize ∣ (p.padded seq hdr plain).length := by
  rw [padded_length]
  exact Nat.dvd_of_mod_eq_zero (p.padLen_aligns _)

theorem seal_length {seq : UInt64} {hdr : Header} {plain frag : Bytes} {rand rand' : Entropy}
    (h : p.seal seq hdr plain rand = (.ok frag, rand')) :
    frag.length = p.blockSize + (plain.length + p.macSize + (p.padLen plain.length + 1)) := by
  obtain ⟨iv, block, -, hbs, hiv, rfl⟩ := p.seal_eq h
  rw [List.length_append, hiv, block.cbcEncrypt_length (hiv.trans hbs.symm)
    (hbs ▸ p.dvd_padded_length seq hdr plain), padded_length]

/-- The sizes for which padding lengths fit in a byte and fragments in a record. -/
structure Sized : Prop where
  blockSize_le : p.blockSize ≤ 255
  overhead_le : 2 * p.blockSize + p.macSize + 1 ≤ tlsMaxCiphertextOverhead

theorem seal_length_le (hs : p.Sized) {seq : UInt64} {hdr : Header} {plain frag : Bytes}
    {rand rand' : Entropy} (h : p.seal seq hdr plain rand = (.ok frag, rand')) :
    frag.length ≤ plain.length + tlsMaxCiphertextOverhead := by
  have hpad := p.padLen_le plain.length
  have hover := hs.overhead_le
  rw [p.seal_length h]
  omega

theorem computeMAC_congr {seq : UInt64} {hdr hdr' : Header} (plain : Bytes)
    (h : hdr'.typeVersion = hdr.typeVersion) :
    p.computeMAC seq hdr' plain = p.computeMAC seq hdr plain := by
  simp only [computeMAC, macAdditionalData, h]

theorem extractCBCPadding_sealed (hs : p.Sized) (seq : UInt64) (hdr : Header) {plain : Bytes}
    (hlen : plain.length ≤ tlsMaxPlaintextLen) :
    extractCBCPadding (p.padded seq hdr plain) = .ok (p.padLen plain.length + 1, 0xff) := by
  have hpad := p.padLen_le plain.length
  have hbs := hs.blockSize_le
  have hover := hs.overhead_le
  have hbyte : (UInt8.ofNat (p.padLen plain.length)).toNat = p.padLen plain.length := by
    rw [UInt8.toNat_ofNat']
    omega
  have h := extractCBCPadding_padded (plain ++ p.computeMAC seq hdr plain)
    (UInt8.ofNat (p.padLen plain.length)) (by
      simp only [List.length_append, computeMAC_length]
      simp only [tlsMaxPlaintextLen, tlsMaxCiphertextOverhead] at hlen hover
      omega)
  rwa [hbyte] at h

/-- The clamp is the maximum with zero, for lengths the 32-bit sign trick is sound on. -/
theorem clamp_eq {raw : Int} (hlo : -2147483648 ≤ raw) (hhi : raw < 2147483648) :
    sliceBound (constantTimeSelect (signBit32 raw) 0 raw) = .ok raw.toNat := by
  by_cases hneg : raw < 0
  · have hsign : signBit32 raw = 1 := by
      simp only [signBit32]
      omega
    have hzero : raw.toNat = 0 := by omega
    simp [hsign, constantTimeSelect, sliceBound, hzero]
  · have hsign : signBit32 raw = 0 := by
      simp only [signBit32]
      omega
    simp only [hsign, constantTimeSelect, sliceBound]
    exact if_pos (Int.not_lt.mp hneg)

theorem removePadding_padded (hs : p.Sized) {seq : UInt64} {hdr hdr' : Header} {plain : Bytes}
    (hhdr : hdr'.typeVersion = hdr.typeVersion) (hlen : plain.length ≤ tlsMaxPlaintextLen) :
    p.removePadding seq hdr' (p.padded seq hdr plain) = .ok plain := by
  have hraw : ((p.padded seq hdr plain).length : Int) - p.macSize -
      ((p.padLen plain.length + 1 : Nat) : Int) = plain.length := by
    rw [padded_length]
    omega
  have hmac : slice (p.padded seq hdr plain) plain.length (plain.length + p.macSize) =
      .ok (p.computeMAC seq hdr plain) := by
    rw [slice_eq (by omega) (by rw [padded_length]; omega), padded,
      List.take_left' (by simp), List.drop_left' rfl]
  have hout : sliceTo (p.padded seq hdr plain) plain.length = .ok plain := by
    rw [sliceTo_eq (by rw [padded_length]; omega), padded, List.append_assoc, List.take_left' rfl]
  have hclamp : sliceBound (constantTimeSelect (signBit32 plain.length) 0 plain.length) =
      .ok plain.length := by
    simp only [tlsMaxPlaintextLen] at hlen
    exact clamp_eq (by omega) (by omega)
  simp only [removePadding, p.extractCBCPadding_sealed hs seq hdr hlen, ok_bind, hraw, hclamp, hmac,
    hout, p.computeMAC_congr plain hhdr, constantTimeCompare, if_true]
  rfl

/-- **Round trip.** What was sealed opens to the plaintext, whatever length the header carries. -/
theorem open_seal (hs : p.Sized) {seq : UInt64} {hdr hdr' : Header} {plain frag : Bytes}
    {rand rand' : Entropy} (hhdr : hdr'.typeVersion = hdr.typeVersion)
    (hlen : plain.length ≤ tlsMaxPlaintextLen)
    (h : p.seal seq hdr plain rand = (.ok frag, rand')) :
    p.open seq hdr' frag = .ok plain := by
  have hfraglen := p.seal_length h
  obtain ⟨iv, block, hblock, hbs, hiv, hfrag⟩ := p.seal_eq h
  have hdvd := p.dvd_padded_length seq hdr plain
  have hlong : ¬ frag.length < p.blockSize + p.macSize + 1 := by omega
  have hmod : ¬ frag.length % p.blockSize ≠ 0 := by
    rw [hfraglen, ← padded_length p seq hdr, Nat.add_mod_left, not_not]
    exact Nat.mod_eq_zero_of_dvd hdvd
  have hto : sliceTo frag p.blockSize = .ok iv := by
    rw [sliceTo_eq (by omega), hfrag, List.take_left' hiv]
  have hfrom : sliceFrom frag p.blockSize = .ok (block.cbcEncrypt iv (p.padded seq hdr plain)) := by
    rw [sliceFrom_eq (by omega), hfrag, List.drop_left' hiv]
  simp only [CbcHMACProtector.open, if_neg hlong, if_neg hmod, ok_bind, hto, hfrom, hblock,
    block.cbcDecrypt_cbcEncrypt (hiv.trans hbs.symm) (hbs ▸ hdvd)]
  exact p.removePadding_padded hs hhdr hlen

/-! ## Errors -/

theorem extractCBCPadding_throws (payload : Bytes) : Throws Err.Local (extractCBCPadding payload) := by
  refine .ite (.ok _) (.bind (index_throws _ _) fun p =>
    .bind (.foldlM (fun g i => ?_) _ _) fun g => .ok _)
  exact .bind (index_throws _ _) fun b => .ok _

theorem removePadding_throws (seq : UInt64) (hdr : Header) (plain : Bytes) :
    Throws Err.Local (p.removePadding seq hdr plain) := by
  refine .bind (extractCBCPadding_throws plain) fun r => .bind ?_ fun n =>
    .bind (slice_throws _ _ _) fun m => .bind (slice_throws _ _ _) fun o => .ite ?_ (.ok _)
  · exact .ite (.ok _) throws_panic
  · exact throws_alert _

/-- Opening fails with an alert, never with an error of the transport. -/
theorem open_throws (seq : UInt64) (hdr : Header) (fragment : Bytes) :
    Throws Err.Local (p.open seq hdr fragment) := by
  obtain ⟨block, hblock, -⟩ := p.cipherInit_ok
  refine .ite (throws_alert _) (.ite (throws_alert _)
    (.bind (slice_throws _ _ _) fun iv => .bind (slice_throws _ _ _) fun ct => ?_))
  rw [hblock]
  exact p.removePadding_throws _ _ _

end CbcHMACProtector

end Gostls
