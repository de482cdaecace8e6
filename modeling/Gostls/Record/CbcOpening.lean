import Gostls.Record.Cbc

/-!
# `Gostls.Record.CbcOpening` — the constant-time opening equals the plain one

`CbcHMACProtector.open` decides padding and MAC in one branch-free computation: sign masks, a bit fold, a
clamped length. `Authentic` is what it is meant to decide, in the words of the protocol, and
`cbc_open_spec` says that on every fragment a record can carry it decides exactly that.
-/

namespace Gostls

open Lib

namespace CbcHMACProtector

variable (p : CbcHMACProtector)

/-! ## The plain specification -/

/-- The decrypted payload of a fragment: the blocks behind the IV. -/
def payload (fragment : Bytes) : Bytes :=
  match p.newCipher p.encKey with
  | .ok block => block.cbcDecrypt (fragment.take p.blockSize) (fragment.drop p.blockSize)
  | .error _  => []

/-- The length of the content of a payload whose last byte is `padLen`; zero when the padding and the
    MAC leave no room. -/
def contentLength (payload : Bytes) (padLen : UInt8) : Nat :=
  payload.length - p.macSize - (padLen.toNat + 1)

/-- A payload that is to be accepted: the padding is well formed, and the MAC is that of the content. -/
structure Authentic (seq : UInt64) (hdr : Header) (payload : Bytes) (padLen : UInt8) : Prop where
  padding : WellPadded payload padLen
  mac : (payload.drop (p.contentLength payload padLen)).take p.macSize =
    hmac p.newHash p.macKey (toBE 8 seq.toNat ++ hdr.typeVersion ++
      toBE 2 (p.contentLength payload padLen) ++ payload.take (p.contentLength payload padLen))

/-! ## The decision -/

/-- The one decision: equal MACs and a full mask. -/
theorem decision_iff (gotMAC expectedMAC : Bytes) (c : Prop) [Decidable c] :
    constantTimeCompare gotMAC expectedMAC &&& (if c then 0xff else 0 : UInt8).toNat = 1 ↔
      c ∧ gotMAC = expectedMAC := by
  unfold constantTimeCompare
  by_cases hc : c <;> by_cases hmac : gotMAC = expectedMAC <;> simp [hc, hmac]

variable {p} (seq : UInt64) (hdr : Header) {payload : Bytes} {padLen : UInt8}

/-- The MAC is in range also when the padding claims more than there is. -/
theorem contentLength_room (padLen : UInt8) (hmin : p.macSize + 1 ≤ payload.length) :
    p.contentLength payload padLen + p.macSize ≤ payload.length := by
  rw [contentLength]
  omega

theorem removePadding_eq (hmin : p.macSize + 1 ≤ payload.length) (hmax : payload.length ≤ 2 ^ 14 + 2048)
    (hlast : payload.getLast? = some padLen) :
    p.removePadding seq hdr payload =
      if WellPadded payload padLen ∧
        (payload.drop (p.contentLength payload padLen)).take p.macSize =
          p.computeMAC seq hdr (payload.take (p.contentLength payload padLen))
      then .ok (payload.take (p.contentLength payload padLen))
      else .error (newFatalAlertError alertBadRecordMAC) := by
  have hpad := padLen.toNat_lt
  have hscan := extractCBCPadding_eq hlast (by omega)
  have hclamp : sliceBound (constantTimeSelect
      (signBit32 (payload.length - p.macSize - ((padLen.toNat + 1 : Nat) : Int))) 0
      (payload.length - p.macSize - ((padLen.toNat + 1 : Nat) : Int))) =
        .ok (p.contentLength payload padLen) := by
    rw [clamp_eq (by omega) (by omega), contentLength]
    congr 1
    omega
  have hroom := contentLength_room padLen hmin
  have hgot : slice payload (p.contentLength payload padLen)
      (p.contentLength payload padLen + p.macSize) =
        .ok ((payload.drop (p.contentLength payload padLen)).take p.macSize) := by
    rw [slice_eq (by omega) hroom, List.drop_take, Nat.add_sub_cancel_left]
  have hout := sliceTo_eq (b := payload) (j := p.contentLength payload padLen) (by omega)
  simp only [removePadding, hscan, ok_bind, hclamp, hgot, hout, ne_eq, decision_iff]
  by_cases hok : WellPadded payload padLen ∧
      (payload.drop (p.contentLength payload padLen)).take p.macSize =
        p.computeMAC seq hdr (payload.take (p.contentLength payload padLen))
  · rw [if_neg (not_not.mpr hok), if_pos hok]
    rfl
  · rw [if_pos hok, if_neg hok]
    rfl

theorem authentic_iff (hlen : p.contentLength payload padLen ≤ payload.length) :
    p.Authentic seq hdr payload padLen ↔ WellPadded payload padLen ∧
      (payload.drop (p.contentLength payload padLen)).take p.macSize =
        p.computeMAC seq hdr (payload.take (p.contentLength payload padLen)) := by
  rw [computeMAC, macAdditionalData, List.length_take_of_le hlen]
  exact ⟨fun h => ⟨h.padding, h.mac⟩, fun h => ⟨h.1, h.2⟩⟩

/-- **An authentic payload is accepted.** -/
theorem removePadding_authentic (hmin : p.macSize + 1 ≤ payload.length)
    (hmax : payload.length ≤ 2 ^ 14 + 2048) (hlast : payload.getLast? = some padLen)
    (h : p.Authentic seq hdr payload padLen) :
    p.removePadding seq hdr payload = .ok (payload.take (p.contentLength payload padLen)) := by
  have hroom := contentLength_room padLen hmin
  rw [removePadding_eq seq hdr hmin hmax hlast, if_pos ((authentic_iff seq hdr (by omega)).mp h)]

/-- **Any other is refused**, and whatever is wrong with it, with the same alert. -/
theorem removePadding_refused (hmin : p.macSize + 1 ≤ payload.length)
    (hmax : payload.length ≤ 2 ^ 14 + 2048) (hlast : payload.getLast? = some padLen)
    (h : ¬ p.Authentic seq hdr payload padLen) :
    p.removePadding seq hdr payload = .error (newFatalAlertError alertBadRecordMAC) := by
  have hroom := contentLength_room padLen hmin
  rw [removePadding_eq seq hdr hmin hmax hlast,
    if_neg (fun hok => h ((authentic_iff seq hdr (by omega)).mpr hok))]

/-- Content, MAC and any padding make an authentic payload. -/
theorem authentic_of_parts (content : Bytes) (padLen : UInt8) :
    p.contentLength (content ++ p.computeMAC seq hdr content ++ List.replicate (padLen.toNat + 1) padLen)
      padLen = content.length ∧
    p.Authentic seq hdr
      (content ++ p.computeMAC seq hdr content ++ List.replicate (padLen.toNat + 1) padLen) padLen := by
  have hlen : p.contentLength
      (content ++ p.computeMAC seq hdr content ++ List.replicate (padLen.toNat + 1) padLen) padLen =
        content.length := by
    simp only [contentLength, List.length_append, computeMAC_length, List.length_replicate]
    omega
  refine ⟨hlen, (authentic_iff seq hdr (by rw [hlen, List.append_assoc]; simp)).mpr ⟨?_, ?_⟩⟩
  · exact wellPadded_append _ _
  · rw [hlen, List.append_assoc, List.drop_left' rfl, List.take_left' rfl,
      List.take_left' (computeMAC_length ..)]

/-- So they are accepted, and the content is returned. -/
theorem removePadding_parts {content : Bytes}
    (hparts : payload = content ++ p.computeMAC seq hdr content ++
      List.replicate (padLen.toNat + 1) padLen) (hmax : payload.length ≤ 2 ^ 14 + 2048) :
    p.removePadding seq hdr payload = .ok content := by
  subst hparts
  obtain ⟨hcontent, hok⟩ := authentic_of_parts (p := p) seq hdr content padLen
  have hmin : p.macSize + 1 ≤
      (content ++ p.computeMAC seq hdr content ++ List.replicate (padLen.toNat + 1) padLen).length := by
    simp only [List.length_append, computeMAC_length, List.length_replicate]
    omega
  have hlast : (content ++ p.computeMAC seq hdr content ++
      List.replicate (padLen.toNat + 1) padLen).getLast? = some padLen := by
    rw [List.replicate_succ', ← List.append_assoc, List.getLast?_concat]
  rw [removePadding_authentic seq hdr hmin hmax hlast hok, hcontent, List.append_assoc,
    List.take_left' rfl]

/-! ## Opening -/

/-- A fragment that is no whole number of blocks, or too short. -/
theorem open_misfit {fragment : Bytes}
    (h : fragment.length % p.blockSize ≠ 0 ∨ fragment.length < p.blockSize + p.macSize + 1) :
    p.open seq hdr fragment = .error (newFatalAlertError alertBadRecordMAC) := by
  unfold CbcHMACProtector.open
  by_cases hshort : fragment.length < p.blockSize + p.macSize + 1
  · rw [if_pos hshort]
    rfl
  · rw [if_neg hshort, if_pos (h.resolve_right hshort)]
    rfl

theorem payload_length {fragment : Bytes} (hmod : fragment.length % p.blockSize = 0)
    (hmin : p.blockSize + p.macSize + 1 ≤ fragment.length) :
    (p.payload fragment).length = fragment.length - p.blockSize := by
  obtain ⟨block, hblock, hbs⟩ := p.newCipher_encKey
  have hiv : (fragment.take p.blockSize).length = block.blockSize := by
    rw [List.length_take_of_le (by omega), hbs]
  have hdvd : block.blockSize ∣ (fragment.drop p.blockSize).length := by
    rw [hbs, List.length_drop]
    exact Nat.dvd_sub (Nat.dvd_of_mod_eq_zero hmod) (Nat.dvd_refl _)
  simp only [CbcHMACProtector.payload, hblock]
  rw [block.cbcDecrypt_length hiv hdvd, List.length_drop]

theorem open_eq_removePadding {fragment : Bytes} (hmod : fragment.length % p.blockSize = 0)
    (hmin : p.blockSize + p.macSize + 1 ≤ fragment.length) :
    p.open seq hdr fragment = p.removePadding seq hdr (p.payload fragment) := by
  obtain ⟨block, hblock, -⟩ := p.newCipher_encKey
  simp only [CbcHMACProtector.open, if_neg (Nat.not_lt.mpr hmin), hmod, ne_eq, not_true_eq_false, if_false,
    sliceTo_eq (b := fragment) (j := p.blockSize) (by omega),
    sliceFrom_eq (b := fragment) (i := p.blockSize) (by omega), cipherInit, hblock, ok_bind,
    CbcHMACProtector.payload]

end CbcHMACProtector

open CbcHMACProtector

/-- **The constant-time opening equals the plain one**, on every fragment a record can carry.

    A fragment that is no whole number of blocks, or too short, is refused with bad_record_mac. On any
    other, with decrypted payload `P` whose last byte is `padLen`, the content is returned exactly when
    `P` is authentic, and else the same alert; the content and the MAC lie within `P`. In particular the
    padding scan decides well-formedness, and content, MAC and any padding are accepted. -/
theorem cbc_open_spec (p : CbcHMACProtector) (seq : UInt64) (hdr : Header) (fragment : Bytes)
    (hmax : fragment.length ≤ 2 ^ 14 + 2048) :
    (fragment.length % p.blockSize ≠ 0 ∨ fragment.length < p.blockSize + p.macSize + 1 →
      p.open seq hdr fragment = .error (newFatalAlertError alertBadRecordMAC)) ∧
    (fragment.length % p.blockSize = 0 → p.blockSize + p.macSize + 1 ≤ fragment.length →
      (p.payload fragment).length = fragment.length - p.blockSize ∧
      ∃ padLen, (p.payload fragment).getLast? = some padLen ∧
        p.contentLength (p.payload fragment) padLen + p.macSize ≤ (p.payload fragment).length ∧
        (p.open seq hdr fragment =
            .ok ((p.payload fragment).take (p.contentLength (p.payload fragment) padLen)) ↔
          p.Authentic seq hdr (p.payload fragment) padLen) ∧
        (¬ p.Authentic seq hdr (p.payload fragment) padLen →
          p.open seq hdr fragment = .error (newFatalAlertError alertBadRecordMAC)) ∧
        (extractCBCPadding (p.payload fragment) = .ok (padLen.toNat + 1, 0xff) ↔
          WellPadded (p.payload fragment) padLen) ∧
        (¬ WellPadded (p.payload fragment) padLen →
          extractCBCPadding (p.payload fragment) = .ok (padLen.toNat + 1, 0)) ∧
        ∀ content padLen', p.payload fragment = content ++
            hmac p.newHash p.macKey
              (toBE 8 seq.toNat ++ hdr.typeVersion ++ toBE 2 content.length ++ content) ++
            List.replicate (padLen'.toNat + 1) padLen' →
          p.open seq hdr fragment = .ok content) := by
  refine ⟨open_misfit seq hdr, fun hmod hmin => ?_⟩
  have hlen := payload_length hmod hmin
  rw [open_eq_removePadding seq hdr hmod hmin]
  generalize p.payload fragment = P at hlen ⊢
  obtain ⟨padLen, hlast⟩ : ∃ padLen, P.getLast? = some padLen :=
    ⟨_, List.getLast?_eq_some_getLast (List.ne_nil_of_length_pos (by omega))⟩
  have hminP : p.macSize + 1 ≤ P.length := by omega
  have hmaxP : P.length ≤ 2 ^ 14 + 2048 := by omega
  have hrefuse := removePadding_refused (p := p) seq hdr hminP hmaxP hlast
  have hscan := extractCBCPadding_eq hlast (by omega)
  refine ⟨hlen, padLen, hlast, contentLength_room padLen hminP,
    ⟨?_, removePadding_authentic seq hdr hminP hmaxP hlast⟩, hrefuse, ?_, ?_, ?_⟩
  · intro hok
    by_contra hno
    rw [hrefuse hno] at hok
    cases hok
  · rw [hscan]
    by_cases hwell : WellPadded P padLen <;> simp [hwell]
  · intro hbad
    rw [hscan, if_neg hbad]
  · intro content padLen' hparts
    exact removePadding_parts seq hdr hparts hmaxP

/-- A protector to compute with. -/
def CbcHMACProtector.sample : CbcHMACProtector where
  newCipher := fun _ => .ok .identity
  newHash := .checksum
  encKey := []
  macKey := []
  blockSize := 16
  macSize := 8
  newCipher_encKey := ⟨.identity, rfl, rfl⟩
  macSize_eq := rfl

/-- A zero IV, then eight bytes of content with their MAC and a whole block of padding, encrypted. -/
theorem cbc_open_spec_block_of_padding :
    CbcHMACProtector.sample.open 0 ⟨23, 3, 3, 0, 48⟩ (List.replicate 16 0 ++
      BlockCipher.identity.cbcEncrypt (List.replicate 16 0) ([1, 2, 3, 4, 5, 6, 7, 8] ++
        CbcHMACProtector.sample.computeMAC 0 ⟨23, 3, 3, 0, 48⟩ [1, 2, 3, 4, 5, 6, 7, 8] ++
        List.replicate 16 15)) = .ok [1, 2, 3, 4, 5, 6, 7, 8] := by
  obtain ⟨-, padLen, -, -, -, -, -, -, hparts⟩ := (cbc_open_spec .sample 0 ⟨23, 3, 3, 0, 48⟩
    (List.replicate 16 0 ++ BlockCipher.identity.cbcEncrypt (List.replicate 16 0)
      ([1, 2, 3, 4, 5, 6, 7, 8] ++
        CbcHMACProtector.sample.computeMAC 0 ⟨23, 3, 3, 0, 48⟩ [1, 2, 3, 4, 5, 6, 7, 8] ++
        List.replicate 16 15)) (by decide +kernel)).2 (by decide +kernel) (by decide +kernel)
  exact hparts [1, 2, 3, 4, 5, 6, 7, 8] 15 (by decide +kernel)

end Gostls
