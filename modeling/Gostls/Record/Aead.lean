import Gostls.Lib.Crypto
import Gostls.Record.Wire

/-!
# `Gostls.Record.Aead` — the AES-GCM and ChaCha20-Poly1305 protectors

Both derive the nonce from the record sequence number and authenticate the same additional data.
They differ in where the receiver takes the nonce from: GCM reads the explicit part off the wire,
ChaCha20-Poly1305 recomputes it.

* `nonceOf_inj`, `buildNonce_inj` — one key never sees a nonce twice unless a sequence number repeats;
* `open_seal` — the round trips;
* `open_ok` — what an accepting `Open` asked of the AEAD, for both protectors.
-/

namespace Gostls

open Lib

def aeadSaltLen : Nat := 4
def aeadExplicitNonceLen : Nat := 8
def chacha20KeySize : Nat := 32
def chacha20NonceSize : Nat := 12

/-! ## AES-GCM -/

/-- TLS 1.2 AEAD with a 4-byte implicit salt and an 8-byte explicit nonce on the wire. -/
structure AeadProtector where
  aead : AEAD
  salt : Bytes
  salt_length : salt.length = aeadSaltLen

/-- A protector to run concrete traffic through. -/
def AeadProtector.sample : AeadProtector := ⟨.tagged, [0, 0, 0, 0], rfl⟩

/-- `newGCM` is `cipher.NewGCM` after `newAESCipher`. -/
def newAEADProtector (newGCM : Bytes → Except Err AEAD) (key salt : Bytes) :
    Except Err AeadProtector :=
  if h : salt.length = aeadSaltLen then
    match newGCM key with
    | .error err => .error err
    | .ok aead   => .ok { aead, salt, salt_length := h }
  else
    .error (fatalRecordError "AEAD salt must be exactly 4 bytes")

/-- `salt (4) || explicit (8)` -/
def AeadProtector.buildNonce (p : AeadProtector) (explicit : Bytes) : Bytes := p.salt ++ explicit

/-- `explicitNonce (8) || ciphertext+tag` -/
def AeadProtector.seal (p : AeadProtector) (seq : UInt64) (hdr : Header) (plain : Bytes) : Bytes :=
  let explicitNonce := toBE aeadExplicitNonceLen seq.toNat
  let nonce := p.buildNonce explicitNonce
  let ad := buildAD seq hdr plain.length
  explicitNonce ++ p.aead.sealWith nonce plain ad

/-- The explicit nonce is the one on the wire, the sequence number in the additional data is the
    receiver's own. -/
def AeadProtector.open (p : AeadProtector) (seq : UInt64) (hdr : Header) (fragment : Bytes) :
    Except Err Bytes := do
  let tagSize := p.aead.overhead
  if fragment.length < aeadExplicitNonceLen + tagSize then
    throw (newFatalAlertError alertBadRecordMAC)
  let explicitNonce ← sliceTo fragment aeadExplicitNonceLen
  let ciphertext ← sliceFrom fragment aeadExplicitNonceLen
  let plainLen := ciphertext.length - tagSize
  let nonce := p.buildNonce explicitNonce
  let ad := buildAD seq hdr plainLen
  match p.aead.openWith nonce ciphertext ad with
  | none       => throw (newFatalAlertError alertBadRecordMAC)
  | some plain => return plain

namespace AeadProtector

variable (p : AeadProtector)

/-- The nonce under which the record of a sequence number is sealed. -/
def nonceOf (seq : UInt64) : Bytes := p.buildNonce (toBE aeadExplicitNonceLen seq.toNat)

theorem nonceOf_inj {s s' : UInt64} (h : p.nonceOf s = p.nonceOf s') : s = s' := by
  have hexp := List.append_cancel_left h
  exact UInt64.toNat_inj.mp (toBE_inj s.toNat_lt s'.toNat_lt hexp)

theorem seal_length (seq : UInt64) (hdr : Header) (plain : Bytes) :
    (p.seal seq hdr plain).length = plain.length + 24 := by
  simp only [AeadProtector.seal, List.length_append, toBE_length, p.aead.sealWith_length,
    p.aead.overhead_eq, aeadExplicitNonceLen]
  omega

/-- **What an accepting `Open` asked.** -/
theorem open_ok {seq : UInt64} {hdr : Header} {fragment plain : Bytes}
    (h : p.open seq hdr fragment = .ok plain) :
    ∃ explicit ct, fragment = explicit ++ ct ∧ explicit.length = aeadExplicitNonceLen ∧
      p.aead.overhead ≤ ct.length ∧
      p.aead.openWith (p.buildNonce explicit) ct (buildAD seq hdr (ct.length - p.aead.overhead)) =
        some plain := by
  unfold AeadProtector.open at h
  simp only at h
  split at h
  · cases h
  · rename_i hlong
    simp only [aeadExplicitNonceLen] at hlong h ⊢
    rw [sliceTo_eq (by omega), sliceFrom_eq (by omega)] at h
    simp only [ok_bind] at h
    split at h
    · cases h
    · rename_i plain' hopen
      cases h
      refine ⟨fragment.take 8, fragment.drop 8, (List.take_append_drop 8 fragment).symm, ?_, ?_, hopen⟩
      · rw [List.length_take]; omega
      · rw [List.length_drop]; omega

/-- **Round trip.** -/
theorem open_seal {seq : UInt64} {hdr hdr' : Header} (plain : Bytes)
    (hhdr : hdr'.typeVersion = hdr.typeVersion) :
    p.open seq hdr' (p.seal seq hdr plain) = .ok plain := by
  have hlen := p.seal_length seq hdr plain
  have hover := p.aead.overhead_eq
  have hnonce : (toBE aeadExplicitNonceLen seq.toNat).length = aeadExplicitNonceLen := toBE_length ..
  have hlong : ¬ (p.seal seq hdr plain).length < aeadExplicitNonceLen + p.aead.overhead := by
    simp only [aeadExplicitNonceLen]; omega
  have hto : sliceTo (p.seal seq hdr plain) aeadExplicitNonceLen =
      .ok (toBE aeadExplicitNonceLen seq.toNat) := by
    rw [sliceTo_eq (by simp only [aeadExplicitNonceLen]; omega), AeadProtector.seal,
      List.take_left' hnonce]
  have hfrom : sliceFrom (p.seal seq hdr plain) aeadExplicitNonceLen =
      .ok (p.aead.sealWith (p.nonceOf seq) plain (buildAD seq hdr plain.length)) := by
    rw [sliceFrom_eq (by simp only [aeadExplicitNonceLen]; omega), AeadProtector.seal,
      List.drop_left' hnonce]
    rfl
  have had : buildAD seq hdr' plain.length = buildAD seq hdr plain.length := by
    simp only [buildAD, hhdr]
  simp only [AeadProtector.open, if_neg hlong, hto, hfrom, ok_bind, p.aead.sealWith_length,
    Nat.add_sub_cancel, had]
  rw [← nonceOf, p.aead.openWith_sealWith]
  rfl

theorem open_throws (seq : UInt64) (hdr : Header) (fragment : Bytes) :
    Throws Err.Local (p.open seq hdr fragment) := by
  refine .ite (throws_alert _)
    (.bind (slice_throws _ _ _) fun nonce => .bind (slice_throws _ _ _) fun ct => ?_)
  simp only
  split
  · exact throws_alert _
  · exact .ok _

end AeadProtector

/-! ## ChaCha20-Poly1305 -/

/-- TLS 1.2 ChaCha20-Poly1305: nothing but ciphertext and tag on the wire. -/
structure ChaCha20Poly1305Protector where
  aead : AEAD
  iv : Bytes
  iv_length : iv.length = chacha20NonceSize

/-- `newChaCha` is `chacha20poly1305.New`. -/
def newChaCha20Poly1305Protector (newChaCha : Bytes → Except Err AEAD) (key iv : Bytes) :
    Except Err ChaCha20Poly1305Protector :=
  if key.length ≠ chacha20KeySize then
    .error (fatalRecordError "ChaCha20-Poly1305 key must be 32 bytes")
  else if h : iv.length = chacha20NonceSize then
    match newChaCha key with
    | .error err => .error err
    | .ok aead   => .ok { aead, iv, iv_length := h }
  else
    .error (fatalRecordError "ChaCha20-Poly1305 iv must be 12 bytes")

/-- `iv XOR (0x00000000 || seq)` -/
def ChaCha20Poly1305Protector.buildNonce (p : ChaCha20Poly1305Protector) (seq : UInt64) : Bytes :=
  xorBlock (List.replicate 4 0 ++ toBE 8 seq.toNat) p.iv

/-- `ciphertext+tag` -/
def ChaCha20Poly1305Protector.seal (p : ChaCha20Poly1305Protector) (seq : UInt64) (hdr : Header)
    (plain : Bytes) : Bytes :=
  p.aead.sealWith (p.buildNonce seq) plain (buildAD seq hdr plain.length)

/-- Nonce and additional data are both built from the receiver's own sequence number. -/
def ChaCha20Poly1305Protector.open (p : ChaCha20Poly1305Protector) (seq : UInt64) (hdr : Header)
    (fragment : Bytes) : Except Err Bytes :=
  let tagSize := p.aead.overhead
  if fragment.length < tagSize then
    .error (newFatalAlertError alertBadRecordMAC)
  else
    let plainLen := fragment.length - tagSize
    match p.aead.openWith (p.buildNonce seq) fragment (buildAD seq hdr plainLen) with
    | none       => .error (newFatalAlertError alertBadRecordMAC)
    | some plain => .ok plain

namespace ChaCha20Poly1305Protector

variable (p : ChaCha20Poly1305Protector)

theorem buildNonce_inj {s s' : UInt64} (h : p.buildNonce s = p.buildNonce s') : s = s' := by
  have hlen : ∀ t : UInt64, (List.replicate 4 0 ++ toBE 8 t.toNat).length = p.iv.length := by
    intro t
    simp [p.iv_length, chacha20NonceSize]
  have hpad : List.replicate 4 0 ++ toBE 8 s.toNat = List.replicate 4 0 ++ toBE 8 s'.toNat := by
    rw [← xorBlock_cancel (hlen s), ← xorBlock_cancel (hlen s')]
    exact congrArg (xorBlock · p.iv) h
  exact UInt64.toNat_inj.mp (toBE_inj s.toNat_lt s'.toNat_lt (List.append_cancel_left hpad))

theorem seal_length (seq : UInt64) (hdr : Header) (plain : Bytes) :
    (p.seal seq hdr plain).length = plain.length + 16 := by
  rw [ChaCha20Poly1305Protector.seal, p.aead.sealWith_length, p.aead.overhead_eq]

/-- **What an accepting `Open` asked.** -/
theorem open_ok {seq : UInt64} {hdr : Header} {fragment plain : Bytes}
    (h : p.open seq hdr fragment = .ok plain) :
    p.aead.overhead ≤ fragment.length ∧
      p.aead.openWith (p.buildNonce seq) fragment
        (buildAD seq hdr (fragment.length - p.aead.overhead)) = some plain := by
  unfold ChaCha20Poly1305Protector.open at h
  simp only at h
  split at h
  · cases h
  · rename_i hlong
    split at h
    · cases h
    · rename_i plain' hopen
      cases h
      exact ⟨by omega, hopen⟩

/-- **Round trip.** -/
theorem open_seal {seq : UInt64} {hdr hdr' : Header} (plain : Bytes)
    (hhdr : hdr'.typeVersion = hdr.typeVersion) :
    p.open seq hdr' (p.seal seq hdr plain) = .ok plain := by
  have hlong : ¬ (p.seal seq hdr plain).length < p.aead.overhead := by
    rw [ChaCha20Poly1305Protector.seal, p.aead.sealWith_length]
    omega
  have had : buildAD seq hdr' plain.length = buildAD seq hdr plain.length := by
    simp only [buildAD, hhdr]
  simp only [ChaCha20Poly1305Protector.open, if_neg hlong]
  simp only [ChaCha20Poly1305Protector.seal, p.aead.sealWith_length, Nat.add_sub_cancel, had,
    p.aead.openWith_sealWith]

theorem open_throws (seq : UInt64) (hdr : Header) (fragment : Bytes) :
    Throws Err.Local (p.open seq hdr fragment) := by
  refine .ite (throws_alert _) ?_
  split
  · exact throws_alert _
  · exact .ok _

end ChaCha20Poly1305Protector

end Gostls
