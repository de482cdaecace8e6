import Gostls.Record.CbcOpening
import Gostls.Record.Protector

/-!
# `Gostls.Record.Indexed` — `Open` with every index of the source

The protectors' `Open` cuts its fragment with checked slices, but the model of what it calls is written
with total functions: the header is a structure, the additional data a concatenation, the counter block a
sum of byte strings. This file is one level below: `Open` as the source has it, with the header a slice of
bytes and every index, store and slice checked, those of the loops included. Bounds are computed as
integers, so that a negative one is out of range too.

For every 5-byte header each of them is the `Open` of the model (`openAt_eq`), which stays in range
(`open_inRange`).
-/

namespace Gostls

open Lib

/-! ## Stores and loops -/

/-- `b[i] = v` -/
def store (b : Bytes) (i : Nat) (v : UInt8) : Except Err Bytes :=
  if i < b.length then .ok (b.set i v) else .error .panic

theorem store_eq {b : Bytes} {i : Nat} (h : i < b.length) (v : UInt8) : store b i v = .ok (b.set i v) :=
  if_pos h

/-- Access to the byte at which a byte string was put together. -/
theorem index_append {a : Bytes} {n : Nat} (h : a.length = n) (x : UInt8) (b : Bytes) :
    index (a ++ x :: b) n = .ok x := by
  subst h
  unfold index
  rw [List.getElem?_append_right (Nat.le_refl _), Nat.sub_self]
  rfl

theorem store_append {a : Bytes} {n : Nat} (h : a.length = n) (x v : UInt8) (b : Bytes) :
    store (a ++ x :: b) n v = .ok (a ++ v :: b) := by
  subst h
  have hlt : a.length < (a ++ x :: b).length := by simp
  rw [store_eq hlt, List.set_append_right _ _ (Nat.le_refl _), Nat.sub_self]
  rfl

/-- `for i := range n { out[i] = a[i] ^ b[i] }` into an array of `n` bytes. -/
def xorAt (n : Nat) (a b : Bytes) : Except Err Bytes :=
  (List.range n).mapM fun i => do
    let x ← index a i
    let y ← index b i
    return x ^^^ y

theorem xorAt_eq {a b : Bytes} (h : a.length = b.length) : xorAt a.length a b = .ok (xorBlock a b) := by
  unfold xorAt
  induction a generalizing b with
  | nil => rfl
  | cons x xs ih =>
      cases b with
      | nil => cases h
      | cons y ys =>
          have hrest := ih (Nat.succ.inj h)
          rw [List.length_cons, List.range_succ_eq_map, List.mapM_cons, List.mapM_map]
          simp only [Function.comp_def, Nat.succ_eq_add_one, index_cons_zero, index_cons_succ, ok_bind,
            pure_eq] at hrest ⊢
          rw [hrest]
          rfl

/-! ## Headers -/

/-- The additional data: `copy(ad[8:11], hdr[0:3])` between the sequence number and the length. -/
def additionalDataAt (seq : UInt64) (hdr : Bytes) (plainLen : Nat) : Except Err Bytes := do
  let typeVersion ← slice hdr 0 3
  return toBE 8 seq.toNat ++ typeVersion ++ toBE 2 plainLen

def macHeaderForOMACAt (hdr : Bytes) (plainLen : Nat) : Except Err Bytes := do
  let contentType ← index hdr 0
  let verHi ← index hdr 1
  let verLo ← index hdr 2
  return [contentType, verHi, verLo] ++ toBE 2 plainLen

section

variable {hdr : Bytes} (h : hdr.length = recordHeaderLen)

include h

theorem additionalDataAt_eq (seq : UInt64) (plainLen : Nat) :
    additionalDataAt seq hdr plainLen = .ok (buildAD seq (.ofBytes hdr) plainLen) := by
  match hdr, h with
  | [_, _, _, _, _], _ => rfl

theorem macHeaderForOMACAt_eq (plainLen : Nat) :
    macHeaderForOMACAt hdr plainLen = .ok (macHeaderForOMAC (.ofBytes hdr) plainLen) := by
  match hdr, h with
  | [_, _, _, _, _], _ => rfl

end

/-! ## CBC -/

/-- One step of the scan, with the distance from the end taken off as an integer. -/
def scanStepAt (payload : Bytes) (paddingLen good : UInt8) (i : Nat) : Except Err UInt8 := do
  let mask := signMask (paddingLen.toUInt64 - UInt64.ofNat i)
  let j ← sliceBound (payload.length - 1 - i)
  let b ← index payload j
  return good &&& ~~~ ((mask &&& paddingLen) ^^^ (mask &&& b))

def extractCBCPaddingAt (payload : Bytes) : Except Err (Nat × UInt8) := do
  if payload.length < 1 then
    return (0, 0)
  let last ← sliceBound (payload.length - 1)
  let paddingLen ← index payload last
  let t := UInt64.ofNat (payload.length - 1) - paddingLen.toUInt64
  let good := signMask t
  let toCheck := min cbcMaxPaddingScan payload.length
  let good ← (List.range toCheck).foldlM (scanStepAt payload paddingLen) good
  return (paddingLen.toNat + 1, foldMask good)

/-- The scan looks at bytes of the payload only, so no difference is negative. -/
theorem scan_eq {payload : Bytes} (paddingLen : UInt8) {l : List Nat} (hl : ∀ i ∈ l, i < payload.length)
    (good : UInt8) :
    l.foldlM (scanStepAt payload paddingLen) good = l.foldlM (scanStep payload paddingLen) good := by
  induction l generalizing good with
  | nil => rfl
  | cons i l ih =>
      rw [List.forall_mem_cons] at hl
      obtain ⟨hi, hl⟩ := hl
      have hbound : sliceBound (payload.length - 1 - i) = .ok (payload.length - 1 - i) := by
        have hsub := @sliceBound_sub (payload.length - 1) i (by omega)
        rw [Int.natCast_sub (by omega)] at hsub
        exact hsub
      have hstep : scanStepAt payload paddingLen good i = scanStep payload paddingLen good i := by
        unfold scanStepAt
        rw [hbound]
        rfl
      rw [List.foldlM_cons, List.foldlM_cons, hstep]
      cases scanStep payload paddingLen good i with
      | error e => rfl
      | ok good' => exact ih hl good'

theorem extractCBCPaddingAt_eq (payload : Bytes) :
    extractCBCPaddingAt payload = extractCBCPadding payload := by
  unfold extractCBCPaddingAt extractCBCPadding
  by_cases hlen : payload.length < 1
  · rw [if_pos hlen, if_pos hlen]
  · have hlast : sliceBound (payload.length - 1) = .ok (payload.length - 1) :=
      sliceBound_sub (Nat.not_lt.mp hlen)
    have hscan : ∀ i ∈ List.range (min cbcMaxPaddingScan payload.length), i < payload.length := by
      intro i hi
      have hlt := List.mem_range.mp hi
      omega
    rw [if_neg hlen, if_neg hlen, hlast]
    simp only [scan_eq _ hscan]
    rfl

theorem extractCBCPadding_inRange (payload : Bytes) : InRange (extractCBCPadding payload) := by
  refine .ite (fun _ => .ok _) fun hlen => .bind (.index (by omega)) fun paddingLen _ => ?_
  refine .bind (.foldlM (fun good i hi => ?_) _) fun good _ => .ok _
  have hlt := List.mem_range.mp hi
  exact .bind (.index (by omega)) fun b _ => .ok _

/-- At most the length byte and 255 bytes of padding are removed. -/
theorem extractCBCPadding_le {payload : Bytes} {toRemove : Nat} {good : UInt8}
    (h : extractCBCPadding payload = .ok (toRemove, good)) : toRemove ≤ 256 := by
  unfold extractCBCPadding at h
  by_cases hlen : payload.length < 1
  · rw [if_pos hlen] at h
    cases h
    exact Nat.zero_le _
  · rw [if_neg hlen] at h
    obtain ⟨paddingLen, -, h⟩ := bind_eq_ok.mp h
    obtain ⟨g, -, h⟩ := bind_eq_ok.mp h
    cases h
    exact paddingLen.toNat_lt

/-- The clamp: a content length that would be negative becomes zero, since its sign bit survives the cut
    to 32 bits. -/
theorem clamp_nonneg {rawN : Int} (h : -256 ≤ rawN) :
    0 ≤ constantTimeSelect (signBit32 rawN) 0 rawN ∧
      (constantTimeSelect (signBit32 rawN) 0 rawN = 0 ∨
        constantTimeSelect (signBit32 rawN) 0 rawN = rawN) := by
  unfold constantTimeSelect signBit32
  by_cases hsign : rawN % 4294967296 / 2147483648 = 1
  · rw [if_pos hsign]
    exact ⟨Int.le_refl _, .inl rfl⟩
  · rw [if_neg hsign]
    exact ⟨by omega, .inr rfl⟩

namespace CbcHMACProtector

variable (p : CbcHMACProtector)

/-- `p.computeMAC(seq, hdr, fragment, extra)`; `extra` is hashed after the digest is taken. -/
def computeMACAt (seq : UInt64) (hdr fragment : Bytes) : Except Err Bytes := do
  let ad ← additionalDataAt seq hdr fragment.length
  return hmac p.newHash p.macKey (ad ++ fragment)

/-- The part of `Open` behind the decryption. -/
def removePaddingAt (seq : UInt64) (hdr plain : Bytes) : Except Err Bytes := do
  let (toRemove, paddingGood) ← extractCBCPaddingAt plain
  let rawN : Int := plain.length - p.macSize - toRemove
  let n ← sliceBound (constantTimeSelect (signBit32 rawN) 0 rawN)
  let gotMAC ← slice plain n (n + p.macSize)
  let content ← sliceTo plain n
  let _extra ← sliceFrom plain (n + p.macSize)
  let expectedMAC ← p.computeMACAt seq hdr content
  if constantTimeCompare gotMAC expectedMAC &&& paddingGood.toNat ≠ 1 then
    throw (newFatalAlertError alertBadRecordMAC)
  sliceTo plain n

def openAt (seq : UInt64) (hdr fragment : Bytes) : Except Err Bytes := do
  if fragment.length < p.blockSize + p.macSize + 1 then
    throw (newFatalAlertError alertBadRecordMAC)
  if fragment.length % p.blockSize ≠ 0 then
    throw (newFatalAlertError alertBadRecordMAC)
  let iv ← sliceTo fragment p.blockSize
  let ciphertext ← sliceFrom fragment p.blockSize
  let block ← p.cipherInit
  p.removePaddingAt seq hdr (block.cbcDecrypt iv ciphertext)

variable {p} {seq : UInt64} {hdr : Bytes}

theorem removePaddingAt_eq (h : hdr.length = recordHeaderLen) (plain : Bytes) :
    p.removePaddingAt seq hdr plain = p.removePadding seq (.ofBytes hdr) plain := by
  unfold removePaddingAt removePadding
  rw [extractCBCPaddingAt_eq]
  cases extractCBCPadding plain with
  | error e => rfl
  | ok r =>
      obtain ⟨toRemove, paddingGood⟩ := r
      simp only [ok_bind]
      generalize sliceBound (constantTimeSelect (signBit32 (plain.length - p.macSize - toRemove)) 0
        (plain.length - p.macSize - toRemove)) = bound
      cases bound with
      | error e => rfl
      | ok n =>
          -- The slice of the MAC is in range only if the one behind it is.
          by_cases hfit : n + p.macSize ≤ plain.length
          · have hmac : p.computeMACAt seq hdr (plain.take n) =
                .ok (p.computeMAC seq (.ofBytes hdr) (plain.take n)) := by
              rw [computeMACAt, additionalDataAt_eq h]
              rfl
            simp only [ok_bind, slice_eq (Nat.le_add_right n _) hfit,
              sliceTo_eq (Nat.le_of_add_right_le hfit), sliceFrom_eq hfit, hmac, pure_eq]
          · have hout : slice plain n (n + p.macSize) = .error .panic :=
              if_neg fun hle => hfit hle.2
            simp only [ok_bind, hout, error_bind]

theorem openAt_eq (h : hdr.length = recordHeaderLen) (fragment : Bytes) :
    p.openAt seq hdr fragment = p.open seq (.ofBytes hdr) fragment := by
  unfold openAt CbcHMACProtector.open
  simp only [removePaddingAt_eq h]

theorem removePadding_inRange {hdr : Header} {plain : Bytes} (hlen : p.macSize ≤ plain.length) :
    InRange (p.removePadding seq hdr plain) := by
  refine .bind (extractCBCPadding_inRange plain) ?_
  rintro ⟨toRemove, paddingGood⟩ hpad
  have hle := extractCBCPadding_le hpad
  obtain ⟨hpos, hn⟩ := @clamp_nonneg (plain.length - p.macSize - toRemove) (by omega)
  dsimp only
  generalize constantTimeSelect (signBit32 (plain.length - p.macSize - toRemove)) 0
    (plain.length - p.macSize - toRemove) = n at hpos hn ⊢
  have hbound : sliceBound n = .ok n.toNat := if_pos hpos
  rw [hbound]
  refine .bind (.ok _) ?_
  rintro _ ⟨⟩
  refine .bind (.slice (by omega) (by omega)) fun gotMAC _ => ?_
  refine .bind (.sliceTo (by omega)) fun content _ => ?_
  exact .check rfl fun _ => .ok _

theorem open_inRange (hdr : Header) (fragment : Bytes) : InRange (p.open seq hdr fragment) := by
  by_cases hmis : fragment.length % p.blockSize ≠ 0 ∨ fragment.length < p.blockSize + p.macSize + 1
  · rw [open_misfit seq hdr hmis]
    exact .error rfl
  · rw [not_or, not_not, Nat.not_lt] at hmis
    obtain ⟨hmod, hmin⟩ := hmis
    rw [open_eq_removePadding seq hdr hmod hmin]
    apply removePadding_inRange
    rw [payload_length hmod hmin]
    omega

end CbcHMACProtector

/-! ## AEADs -/

namespace AeadProtector

variable (p : AeadProtector)

def openAt (seq : UInt64) (hdr fragment : Bytes) : Except Err Bytes := do
  let tagSize := p.aead.overhead
  if fragment.length < aeadExplicitNonceLen + tagSize then
    throw (newFatalAlertError alertBadRecordMAC)
  let explicitNonce ← sliceTo fragment aeadExplicitNonceLen
  let ciphertext ← sliceFrom fragment aeadExplicitNonceLen
  let plainLen := ciphertext.length - tagSize
  let nonce := p.buildNonce explicitNonce
  let ad ← additionalDataAt seq hdr plainLen
  match p.aead.openWith nonce ciphertext ad with
  | none       => throw (newFatalAlertError alertBadRecordMAC)
  | some plain => return plain

variable {p} {seq : UInt64}

theorem openAt_eq {hdr : Bytes} (h : hdr.length = recordHeaderLen) (fragment : Bytes) :
    p.openAt seq hdr fragment = p.open seq (.ofBytes hdr) fragment := by
  unfold openAt AeadProtector.open
  simp only [additionalDataAt_eq h]
  rfl

theorem open_inRange (hdr : Header) (fragment : Bytes) : InRange (p.open seq hdr fragment) := by
  refine .check rfl fun hmin => .bind (.sliceTo (by omega)) fun explicitNonce _ => ?_
  refine .bind (.sliceFrom (by omega)) fun ciphertext _ => ?_
  dsimp only
  split
  · exact .error rfl
  · exact .ok _

end AeadProtector

namespace ChaCha20Poly1305Protector

variable (p : ChaCha20Poly1305Protector)

/-- `nonce[i] ^= p.iv[i]` over the padded sequence number. -/
def buildNonceAt (seq : UInt64) : Except Err Bytes :=
  xorAt chacha20NonceSize (List.replicate 4 0 ++ toBE 8 seq.toNat) p.iv

def openAt (seq : UInt64) (hdr fragment : Bytes) : Except Err Bytes := do
  let tagSize := p.aead.overhead
  if fragment.length < tagSize then
    throw (newFatalAlertError alertBadRecordMAC)
  let plainLen := fragment.length - tagSize
  let nonce ← p.buildNonceAt seq
  let ad ← additionalDataAt seq hdr plainLen
  match p.aead.openWith nonce fragment ad with
  | none       => throw (newFatalAlertError alertBadRecordMAC)
  | some plain => return plain

variable {p} {seq : UInt64}

theorem buildNonceAt_eq : p.buildNonceAt seq = .ok (p.buildNonce seq) := by
  have hlen : (List.replicate 4 0 ++ toBE 8 seq.toNat).length = chacha20NonceSize := by
    rw [List.length_append, List.length_replicate, toBE_length]
    rfl
  unfold buildNonceAt
  rw [← hlen]
  exact xorAt_eq (hlen.trans p.iv_length.symm)

theorem openAt_eq {hdr : Bytes} (h : hdr.length = recordHeaderLen) (fragment : Bytes) :
    p.openAt seq hdr fragment = p.open seq (.ofBytes hdr) fragment := by
  unfold openAt ChaCha20Poly1305Protector.open
  simp only [buildNonceAt_eq, additionalDataAt_eq h]
  rfl

theorem open_inRange (hdr : Header) (fragment : Bytes) : InRange (p.open seq hdr fragment) := by
  refine .check rfl fun _ => ?_
  split
  · exact .error rfl
  · exact .ok _

end ChaCha20Poly1305Protector

/-! ## CTR-OMAC -/

namespace CtrOMACProtector

variable (p : CtrOMACProtector)

/-- One round of the loop of `adjustIV`, on the carry and the counter block. -/
def adjustIVStep (seqBytes : Bytes) (seqStart : Nat) (st : Nat × Bytes) (j : Nat) :
    Except Err (Nat × Bytes) := do
  let (carry, out) := st
  let o ← index out j
  let s ← index seqBytes (seqStart + j)
  let v := o.toNat + s.toNat + carry
  let out ← store out j (UInt8.ofNat (v % 256))
  return (v / 256, out)

/-- The loop runs from the last byte of the IV to the first. -/
def adjustIVAt (seq : UInt64) : Except Err Bytes := do
  let out := fit p.blockSize p.origIV
  let seqBytes := toBE 8 seq.toNat
  let seqStart ← sliceBound (8 - p.origIV.length)
  let (_, out) ← (List.range p.origIV.length).reverse.foldlM (adjustIVStep seqBytes seqStart) (0, out)
  return out

def recordStreamAt (site : String) (seq : UInt64) : Except Err (Nat → UInt8) := do
  let iv ← p.adjustIVAt seq
  match p.cipher.newCTRACPKM (p.encTree seq) iv p.acpkmSection with
  | .error e => throw (fatalRecordError ("ctrOMACProtector " ++ site ++ " CTR init: " ++ e.error))
  | .ok ctr  => return ctr

def recordTagAt (site : String) (seq : UInt64) (hdr plain : Bytes) : Except Err Bytes := do
  match p.cipher.newOMAC (p.macTree seq) p.tagSize with
  | .error e => throw (fatalRecordError ("ctrOMACProtector " ++ site ++ " OMAC init: " ++ e.error))
  | .ok omac =>
    let macHdr ← macHeaderForOMACAt hdr plain.length
    return omac (toBE 8 seq.toNat ++ macHdr ++ plain)

def openAt (seq : UInt64) (hdr fragment : Bytes) : Except Err Bytes := do
  if fragment.length < p.tagSize then
    throw (newFatalAlertError alertBadRecordMAC)
  let ctr ← p.recordStreamAt "Open" seq
  let buf := xorStream ctr fragment
  let plainEnd ← sliceBound (buf.length - p.tagSize)
  let plain ← sliceTo buf plainEnd
  let gotTag ← sliceFrom buf plainEnd
  let expectedTag ← p.recordTagAt "Open" seq hdr plain
  if constantTimeCompare gotTag expectedTag ≠ 1 then
    throw (newFatalAlertError alertBadRecordMAC)
  return plain

/-- The loop, when the bytes from `k` on are done. -/
theorem adjustIV_loop {iv seqBytes zeros : Bytes} {seqStart k : Nat}
    (hlen : iv.length = (seqBytes.drop seqStart).length) (hk : k ≤ iv.length) :
    (List.range k).reverse.foldlM (adjustIVStep seqBytes seqStart)
        ((carryAdd (iv.drop k) ((seqBytes.drop seqStart).drop k)).1,
          iv.take k ++ (carryAdd (iv.drop k) ((seqBytes.drop seqStart).drop k)).2 ++ zeros) =
      .ok ((carryAdd iv (seqBytes.drop seqStart)).1,
        (carryAdd iv (seqBytes.drop seqStart)).2 ++ zeros) := by
  induction k with
  | zero => rfl
  | succ k ih =>
      have hk' : k < iv.length := hk
      have hks : k < (seqBytes.drop seqStart).length := hlen ▸ hk'
      have hseq : index seqBytes (seqStart + k) = .ok (seqBytes.drop seqStart)[k] := by
        rw [index_eq (by rw [List.length_drop] at hks; omega), List.getElem_drop]
      have hfront : (iv.take k).length = k := List.length_take_of_le (Nat.le_of_lt hk')
      have htake : iv.take (k + 1) = iv.take k ++ [iv[k]] := (List.take_concat_get' iv k hk').symm
      have hih := ih (Nat.le_of_lt hk')
      rw [List.drop_eq_getElem_cons hk', List.drop_eq_getElem_cons hks] at hih
      rw [List.range_succ, List.reverse_append, List.reverse_singleton, List.singleton_append,
        List.foldlM_cons, htake, List.append_assoc, List.append_assoc, List.singleton_append]
      simp only [adjustIVStep, index_append hfront, store_append hfront, hseq, ok_bind, pure_eq]
      simp only [carryAdd, List.append_assoc, List.cons_append] at hih
      exact hih

theorem adjustIVAt_eq (seq : UInt64) : p.adjustIVAt seq = .ok (p.adjustIV seq) := by
  have hle := p.origIV_le
  have hbs := p.blockSize_eq
  have hstart : sliceBound (8 - p.origIV.length) = .ok (8 - p.origIV.length) := sliceBound_sub hle
  have hout : fit p.blockSize p.origIV =
      p.origIV ++ List.replicate (p.blockSize - p.origIV.length) 0 := by
    unfold fit
    rw [List.take_of_length_le (by omega)]
  have hloop := @adjustIV_loop _ _ (List.replicate (p.blockSize - p.origIV.length) 0) _ _
    (p.seqBytes_length seq) (Nat.le_refl _)
  have hnil : (carryAdd (p.origIV.drop p.origIV.length)
      (((toBE 8 seq.toNat).drop (8 - p.origIV.length)).drop p.origIV.length)) = (0, []) := by
    rw [List.drop_length]
    rfl
  rw [hnil, List.take_length, List.append_nil] at hloop
  unfold adjustIVAt
  rw [hout, hstart]
  simp only [ok_bind, hloop]
  rfl

theorem recordStreamAt_eq (site : String) (seq : UInt64) :
    p.recordStreamAt site seq = p.recordStream site seq := by
  unfold recordStreamAt recordStream
  rw [adjustIVAt_eq]
  rfl

theorem recordTagAt_eq {hdr : Bytes} (h : hdr.length = recordHeaderLen) (site : String) (seq : UInt64)
    (plain : Bytes) : p.recordTagAt site seq hdr plain = p.recordTag site seq (.ofBytes hdr) plain := by
  unfold recordTagAt recordTag
  cases p.cipher.newOMAC (p.macTree seq) p.tagSize with
  | error e => rfl
  | ok omac => simp only [macHeaderForOMACAt_eq h, ok_bind, pure_eq]

variable {p} {seq : UInt64}

theorem openAt_eq {hdr : Bytes} (h : hdr.length = recordHeaderLen) (fragment : Bytes) :
    p.openAt seq hdr fragment = p.open seq (.ofBytes hdr) fragment := by
  unfold openAt CtrOMACProtector.open
  by_cases hmin : fragment.length < p.tagSize
  · rw [if_pos hmin, if_pos hmin]
    rfl
  · rw [if_neg hmin, if_neg hmin, recordStreamAt_eq]
    cases p.recordStream "Open" seq with
    | error e => rfl
    | ok ctr =>
        have hend : sliceBound ((xorStream ctr fragment).length - p.tagSize) =
            .ok ((xorStream ctr fragment).length - p.tagSize) :=
          sliceBound_sub (by rw [xorStream_length]; omega)
        simp only [ok_bind, hend, recordTagAt_eq p h]

theorem open_inRange (hdr : Header) (fragment : Bytes) : InRange (p.open seq hdr fragment) := by
  refine .check rfl fun hmin => .bind ?_ fun ctr _ => ?_
  · unfold recordStream
    split
    · exact .error rfl
    · exact .ok _
  · have hlen := xorStream_length ctr fragment
    refine .bind (.sliceTo (Nat.sub_le ..)) fun plain _ => ?_
    refine .bind (.sliceFrom (Nat.sub_le ..)) fun gotTag _ => ?_
    refine .bind ?_ fun expectedTag _ => .check rfl fun _ => .ok _
    unfold recordTag
    split
    · exact .error rfl
    · exact .ok _

end CtrOMACProtector

end Gostls
