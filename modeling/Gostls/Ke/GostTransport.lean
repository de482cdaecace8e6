import Gostls.Ke.Gost
import Gostls.Lib.Asn1

/-!
# `Gostls.Ke.GostTransport` — a server gets back what the GOST key exchanges transport

The types of the messages, as decoders; a server, which has the private key of its certificate and the other
half of the GOST library; and what it makes of the client's message.

* `marshalGOSTKeyTransport_ok` — cutting off the header of the ephemeral key leaves its body, whatever form
  the length in the header has;
* `gostClientKeyExchangeParams_decode`, `psKeyTransportGost_decode` — the messages are of their types;
* `gost_key_transport_invertible` — for each exchange, the server ends with the client's pre-master secret.
-/

namespace Gostls

open Lib Lib.Der Lib.Asn1

/-! ## Types -/

/-- `SubjectPublicKeyInfo`, with the key as it is in its OCTET STRING. -/
structure KeSPKI where
  algorithm : KeAlgorithmIdentifier
  subjectPublicKey : Bytes

/-- `GOST_KEY_INFO` -/
structure GostKeyInfo where
  encryptedKey : Bytes
  imit : Bytes

/-- `GOST_KEY_AGREEMENT_INFO` -/
structure GostKeyAgreementInfo where
  cipher : List Nat
  ephemKey : Option KeSPKI
  ephIV : Bytes

/-- `GOST_KEY_TRANSPORT` -/
structure GostKeyTransport where
  keyInfo : GostKeyInfo
  keyAgreementInfo : GostKeyAgreementInfo

/-- `PSKeyTransport_gost` -/
structure PsKeyTransportGost where
  psexp : Bytes
  ephemKey : KeSPKI
  ukm : Option Bytes

def algorithmIdentifier : Decoder KeAlgorithmIdentifier := element tagSequence do
  let algorithm ← objectIdentifier
  let parameters ← optional (fun _ => true) any
  return { algorithm, parameters := parameters.getD [] }

/-- Under its own tag, or `[0] IMPLICIT`. -/
def subjectPublicKeyInfo (tag : UInt8) : Decoder KeSPKI := element tag do
  let algorithm ← algorithmIdentifier
  let subjectPublicKey ← bitString octetString
  return { algorithm, subjectPublicKey }

def gostKeyInfo : Decoder GostKeyInfo := element tagSequence do
  let encryptedKey ← octetString
  let imit ← octetString
  return { encryptedKey, imit }

def gostKeyAgreementInfo : Decoder GostKeyAgreementInfo := element tagContext0 do
  let cipher ← objectIdentifier
  let ephemKey ← optional (· == tagContext0) (subjectPublicKeyInfo tagContext0)
  let ephIV ← octetString
  return { cipher, ephemKey, ephIV }

def gostKeyTransport : Decoder GostKeyTransport := element tagSequence do
  let keyInfo ← gostKeyInfo
  let keyAgreementInfo ← gostKeyAgreementInfo
  return { keyInfo, keyAgreementInfo }

def gostClientKeyExchangeParams : Decoder GostKeyTransport := element tagSequence gostKeyTransport

def psKeyTransportGost : Decoder PsKeyTransportGost := element tagSequence do
  let psexp ← octetString
  let ephemKey ← subjectPublicKeyInfo tagSequence
  let ukm ← optional (· == tagOctetString) octetString
  return { psexp, ephemKey, ukm }

/-! ## The ephemeral key -/

theorem ofDer_eq_ok {α : Type} {x : Except DerErr α} {a : α} : ofDer x = .ok a ↔ x = .ok a := by
  unfold ofDer
  split <;> simp

/-- **The algorithm identifier is sent on**: what was read of the certificate's is written so that it is
    read as the same. -/
theorem algorithmIdentifier_reads {der : Bytes} {algID : KeAlgorithmIdentifier} {oid : Bytes}
    (h : KeAlgorithmIdentifier.unmarshal der = .ok algID) (hoid : encodeOID algID.algorithm = .ok oid) :
    Reads algorithmIdentifier (tlv tagSequence (tlv tagOID oid ++ algID.parameters)) algID := by
  obtain ⟨sequence, -, h⟩ := bind_eq_ok.mp h
  obtain ⟨oidElement, -, h⟩ := bind_eq_ok.mp h
  obtain ⟨algorithm, halgorithm, h⟩ := bind_eq_ok.mp h
  have hsame : ∀ {params}, encodeOID (KeAlgorithmIdentifier.mk algorithm params).algorithm = .ok oid →
      parseOID oid = .ok algorithm := by
    intro params hoid
    cases (encodeOID_parseOID halgorithm).symm.trans hoid
    exact halgorithm
  apply Decodes.element
  split at h
  · cases h
    exact (reads_objectIdentifier (hsame hoid)).bind_last
      ((decodes_optional_nil _).bind (Decodes.pure _))
  · obtain ⟨params, hparams, h⟩ := bind_eq_ok.mp h
    cases h
    have hfront : params.full.head?.any (fun _ => true) = true := by
      cases hfull : params.full with
      | nil => exact absurd hfull (parseElement_full_ne_nil hparams)
      | cons t more => rfl
    exact (reads_objectIdentifier (hsame hoid)).bind_last
      (((reads_any hparams).optional hfront).decodes.bind (Decodes.pure _))

theorem subjectPublicKeyInfo_reads {der pubRaw spki : Bytes} {algID : KeAlgorithmIdentifier} (tag : UInt8)
    (h : KeAlgorithmIdentifier.unmarshal der = .ok algID) (hspki : spkiBody algID pubRaw = .ok spki) :
    Reads (subjectPublicKeyInfo tag) (tlv tag spki) ⟨algID, pubRaw⟩ := by
  obtain ⟨oid, hoid, hspki⟩ := bind_eq_ok.mp hspki
  cases hspki
  apply Decodes.element
  exact (algorithmIdentifier_reads h hoid).bind_last
    ((reads_octetString pubRaw).decodes.bitString.decodes.bind (Decodes.pure _))

/-! ## The header of the ephemeral key -/

theorem lengthOfLength_short : ∀ n < 0x80, lengthOfLength (UInt8.ofNat n) = 0 := by decide +kernel

theorem lengthOfLength_long : ∀ n < 0x80, lengthOfLength (UInt8.ofNat (0x80 + n)) = n := by decide +kernel

theorem lengthOfLength_lt (first : UInt8) : lengthOfLength first < 0x80 := by
  unfold lengthOfLength
  split
  · decide
  · rw [low7_toNat]
    exact Nat.mod_lt _ (by decide)

/-- **Cutting off a header** leaves the body, for the short form of a length and for every long one. -/
theorem sliceFrom_header {tag first : UInt8} {body : Bytes} (hlen : body.length < maxLength)
    (hfirst : index (tlv tag body) 1 = .ok first) :
    sliceFrom (tlv tag body) (2 + lengthOfLength first) = .ok body := by
  by_cases hshort : body.length < 0x80
  · have htlv : tlv tag body = [tag, UInt8.ofNat body.length] ++ body := by
      rw [tlv, encodeLength, if_pos hshort]
    rw [htlv] at hfirst ⊢
    cases hfirst
    rw [lengthOfLength_short _ hshort]
    exact sliceFrom_append rfl body
  · have hsize := length_minBE_le hlen
    have htlv : tlv tag body =
        (tag :: UInt8.ofNat (0x80 + (minBE body.length).length) :: minBE body.length) ++ body := by
      rw [tlv, encodeLength_long hshort]
    rw [htlv] at hfirst ⊢
    cases hfirst
    rw [lengthOfLength_long _ (by omega)]
    exact sliceFrom_append (by rw [List.length_cons, List.length_cons]; omega) body

/-- What a slice can hold can be written as a length. -/
theorem slice_lt_maxLength {n : Nat} (h : n < 2 ^ 63) : n + 0x82 < maxLength := by
  have hmax : 2 ^ 63 + 0x82 < maxLength := by decide +kernel
  omega

/-! ## The messages -/

/-- **What a message of the VKO exchanges is made of.** The key in it is the body of its SEQUENCE. -/
theorem marshalGOSTKeyTransport_ok {spkiAlgo ephemPubRaw encryptedKey imit ephIV cke : Bytes}
    {cipherOID : List Nat}
    (h : marshalGOSTKeyTransport spkiAlgo ephemPubRaw encryptedKey imit cipherOID ephIV = .ok cke)
    (hlen : cke.length < 2 ^ 63) :
    ∃ algID spki cipher, KeAlgorithmIdentifier.unmarshal spkiAlgo = .ok algID ∧
      spkiBody algID ephemPubRaw = .ok spki ∧ encodeOID cipherOID = .ok cipher ∧
      cke = tlv tagSequence (tlv tagSequence
        (tlv tagSequence (tlv tagOctetString encryptedKey ++ tlv tagOctetString imit) ++
          tlv tagContext0 (tlv tagOID cipher ++ tlv tagContext0 spki ++ tlv tagOctetString ephIV))) := by
  obtain ⟨algID, halgID, h₁⟩ := bind_eq_ok.mp h
  obtain ⟨spki, hspki, h₂⟩ := bind_eq_ok.mp h₁
  obtain ⟨first, hfirst, h₃⟩ := bind_eq_ok.mp h₂
  obtain ⟨ephemKey, hephemKey, h₄⟩ := bind_eq_ok.mp h₃
  obtain ⟨cipher, hcipher, h₅⟩ := bind_eq_ok.mp h₄
  cases h₅
  -- The key without its header is part of the message, and the header is short.
  have hsize : spki.length < maxLength := by
    have hbound := slice_lt_maxLength hlen
    obtain ⟨-, hdrop⟩ := sliceFrom_ok hephemKey
    have hcut := congrArg List.length hdrop
    have hfirst := lengthOfLength_lt first
    rw [List.length_drop] at hcut
    simp only [tlv, List.length_append, List.length_cons] at hbound hcut
    omega
  cases (sliceFrom_header hsize hfirst).symm.trans hephemKey
  exact ⟨algID, spki, cipher, ofDer_eq_ok.mp (mapErr_eq_ok.mp halgID), ofDer_eq_ok.mp (mapErr_eq_ok.mp hspki),
    ofDer_eq_ok.mp hcipher, rfl⟩

/-- **A message of the VKO exchanges** is of its type. -/
theorem gostClientKeyExchangeParams_decode {spkiAlgo ephemPubRaw encryptedKey imit ephIV cke : Bytes}
    {cipherOID : List Nat} (hoid : encodeOID cipherOID >>= parseOID = .ok cipherOID)
    (h : marshalGOSTKeyTransport spkiAlgo ephemPubRaw encryptedKey imit cipherOID ephIV = .ok cke)
    (hlen : cke.length < 2 ^ 63) :
    ∃ algID, KeAlgorithmIdentifier.unmarshal spkiAlgo = .ok algID ∧
      decode gostClientKeyExchangeParams cke =
        some ⟨⟨encryptedKey, imit⟩, ⟨cipherOID, some ⟨algID, ephemPubRaw⟩, ephIV⟩⟩ := by
  obtain ⟨algID, spki, cipher, halgID, hspki, hcipher, rfl⟩ := marshalGOSTKeyTransport_ok h hlen
  refine ⟨algID, halgID, ?_⟩
  rw [hcipher, ok_bind] at hoid
  have hbound := slice_lt_maxLength hlen
  have hkeyInfo : Reads gostKeyInfo
      (tlv tagSequence (tlv tagOctetString encryptedKey ++ tlv tagOctetString imit))
      ⟨encryptedKey, imit⟩ :=
    Decodes.element tagSequence
      ((reads_octetString encryptedKey).bind_last
        ((reads_octetString imit).decodes.bind (Decodes.pure _)))
  have hagreement : Reads gostKeyAgreementInfo
      (tlv tagContext0 (tlv tagOID cipher ++ tlv tagContext0 spki ++ tlv tagOctetString ephIV))
      ⟨cipherOID, some ⟨algID, ephemPubRaw⟩, ephIV⟩ := by
    rw [List.append_assoc]
    exact Decodes.element tagContext0
      ((reads_objectIdentifier hoid).bind_last
        (((subjectPublicKeyInfo_reads tagContext0 halgID hspki).optional rfl).bind_last
          ((reads_octetString ephIV).decodes.bind (Decodes.pure _))))
  have htransport : Reads gostKeyTransport _ _ :=
    Decodes.element tagSequence (hkeyInfo.bind_last (hagreement.decodes.bind (Decodes.pure _)))
  have hparams : Reads gostClientKeyExchangeParams _ _ := Decodes.element tagSequence htransport.decodes
  exact hparams.decodes.decode_eq (by omega)

/-- **A message of the 2018 exchange** is of its type. -/
theorem psKeyTransportGost_decode {psexp spkiAlgo ephemPubRaw ukm cke : Bytes}
    (h : marshalPSKeyTransport psexp spkiAlgo ephemPubRaw (some ukm) = .ok cke)
    (hlen : cke.length < 2 ^ 63) :
    ∃ algID, KeAlgorithmIdentifier.unmarshal spkiAlgo = .ok algID ∧
      decode psKeyTransportGost cke = some ⟨psexp, ⟨algID, ephemPubRaw⟩, some ukm⟩ := by
  obtain ⟨algID, halgID, h⟩ := bind_eq_ok.mp h
  obtain ⟨spki, hspki, h⟩ := bind_eq_ok.mp h
  cases h
  have halgID := ofDer_eq_ok.mp (mapErr_eq_ok.mp halgID)
  have hspki := ofDer_eq_ok.mp (mapErr_eq_ok.mp hspki)
  refine ⟨algID, halgID, ?_⟩
  have hbound := slice_lt_maxLength hlen
  rw [List.append_assoc] at hbound ⊢
  have hparams : Reads psKeyTransportGost _ _ :=
    Decodes.element tagSequence
      ((reads_octetString psexp).bind_last
        ((subjectPublicKeyInfo_reads tagSequence halgID hspki).bind_last
          (((reads_octetString ukm).optional rfl).decodes.bind (Decodes.pure _))))
  exact hparams.decodes.decode_eq (Nat.lt_of_le_of_lt (Nat.le_add_right _ _) hbound)

/-! ## A server -/

/-- The two VKO exchanges. -/
inductive VkoKind
  | gost2001
  | gost2012_256
  deriving DecidableEq, Repr

/-- The client's exchange for a key of this kind. -/
def VkoKind.newExchange (env : Env) :
    VkoKind → Option (List Nat) → Bytes → Bytes → Bytes → RandM VkoExchange
  | .gost2001     => newVKOGost2001Exchange env
  | .gost2012_256 => newVKOGost2012_256Exchange env

/-- The key agreement of keys of this kind. -/
def VkoKind.onCurve (g : Gost) : VkoKind → List Nat → Bytes → Bytes → Bytes → Except Err Bytes
  | .gost2001     => g.vko2001OnCurve
  | .gost2012_256 => g.vko2012_256OnCurve

/-- The S-box an object identifier stands for. -/
def sboxByOID (g : Gost) (oid : List Nat) : Option Sbox :=
  if oid = [1, 2, 643, 2, 2, 31, 1] then some g.sboxCryptoProA
  else if oid = [1, 2, 643, 7, 1, 2, 5, 1, 1] then some g.sboxTC26Z
  else none

/-- The half of the GOST library a server uses, and what the two halves owe each other: generated keys are
    key pairs, two pairs on a curve agree on a key from either side, and a wrapped key unwraps. -/
structure GostPeer (env : Env) where
  keyPair : List Nat → Bytes → Bytes → Prop
  keyUnwrapCryptoPro : Sbox → Bytes → Bytes → Except Err Bytes
  kimp15 : Gost2018Variant → Bytes → Bytes → Bytes → Bytes → Except Err Bytes
  generated : ∀ {curve rand rand' prv pub},
    env.gost.generateEphemeralKey curve rand = (.ok (prv, pub), rand') → keyPair curve prv pub
  vko_symm : ∀ (kind : VkoKind) {curve prv pub prv' pub' ukm kek}, keyPair curve prv pub →
    keyPair curve prv' pub' → kind.onCurve env.gost curve prv pub' ukm = .ok kek →
    kind.onCurve env.gost curve prv' pub ukm = .ok kek
  keg_symm : ∀ {curve prv pub prv' pub' ukm keys}, keyPair curve prv pub → keyPair curve prv' pub' →
    env.gost.keg2012_256 curve pub' prv ukm = .ok keys → env.gost.keg2012_256 curve pub prv' ukm = .ok keys
  keyUnwrap : ∀ {sbox kek ukm key wrapped}, ukm.length = 8 → key.length = 32 →
    env.gost.keyWrapCryptoPro sbox kek ukm key = .ok wrapped →
    ∃ enc imit, enc.length = 32 ∧ imit.length = 4 ∧ wrapped = ukm ++ enc ++ imit ∧
      keyUnwrapCryptoPro sbox kek wrapped = .ok key
  kimp15_kexp15 : ∀ (v : Gost2018Variant) {key cipherKey macKey iv wrapped},
    v.kexp15 env key cipherKey macKey iv = .ok wrapped → kimp15 v wrapped cipherKey macKey iv = .ok key

namespace GostPeer

variable {env : Env}

/-- The server of a VKO exchange: it decodes the message, agrees on the key that wraps with its own private
    key, and unwraps under the S-box the message names. -/
def unwrapVko (peer : GostPeer env) (kind : VkoKind) (curve : List Nat) (serverPrv cke : Bytes) :
    Option Bytes := do
  let gkt ← decode gostClientKeyExchangeParams cke
  let info := gkt.keyAgreementInfo
  let ephemKey ← info.ephemKey
  let sbox ← sboxByOID env.gost info.cipher
  let kek ← (kind.onCurve env.gost curve serverPrv ephemKey.subjectPublicKey info.ephIV).toOption
  (peer.keyUnwrapCryptoPro sbox kek (info.ephIV ++ gkt.keyInfo.encryptedKey ++ gkt.keyInfo.imit)).toOption

/-- The server of a 2018 exchange. -/
def unwrap2018 (peer : GostPeer env) (variant : Gost2018Variant) (curve : List Nat)
    (serverPrv cke : Bytes) : Option Bytes := do
  let pkt ← decode psKeyTransportGost cke
  let ukm ← pkt.ukm
  let expkeys ← (env.gost.keg2012_256 curve pkt.ephemKey.subjectPublicKey serverPrv ukm).toOption
  let ivLen ← variant.ivLen.toOption
  let iv := (ukm.drop 24).take ivLen
  (peer.kimp15 variant pkt.psexp (expkeys.drop 32) (expkeys.take 32) iv).toOption

end GostPeer

/-! ## The two VKO exchanges -/

/-- The parameters of the exchange of a kind. -/
def VkoKind.variant (env : Env) : VkoKind → VkoVariant
  | .gost2001     => vkoGost2001 env
  | .gost2012_256 => vkoGost2012_256 env

theorem VkoKind.newExchange_eq (env : Env) (kind : VkoKind) :
    kind.newExchange env = newVkoExchange env (kind.variant env) := by
  cases kind <;> rfl

theorem VkoKind.onCurve_eq (env : Env) (kind : VkoKind) :
    (kind.variant env).onCurve = kind.onCurve env.gost := by
  cases kind <;> rfl

/-- The S-box the exchange wraps with is the one its message names. -/
theorem VkoKind.sboxByOID_cipherOID (env : Env) (kind : VkoKind) :
    sboxByOID env.gost (kind.variant env).cipherOID = some (kind.variant env).sbox := by
  cases kind <;> rfl

theorem VkoKind.cipherOID_reads (env : Env) (kind : VkoKind) :
    encodeOID (kind.variant env).cipherOID >>= parseOID = .ok (kind.variant env).cipherOID := by
  cases kind <;> rfl

/-! ## A library to compute with -/

/-- Two keys agree on their XOR. -/
def xorAgree (prv pub : Bytes) : Bytes := List.zipWith (· ^^^ ·) (fit 128 prv) pub

theorem xorAgree_symm (prv prv' : Bytes) : xorAgree prv (fit 128 prv') = xorAgree prv' (fit 128 prv) :=
  List.zipWith_comm_of_comm (fun x y => UInt8.xor_comm x y)

def xorKey (key b : Bytes) : Bytes := xorStream (fun i => key.getD i 0) b

/-- Public keys are private keys made longer, and keys are wrapped with XOR. -/
def Env.sampleGost : Env :=
  { Env.sample with
    hashes := { Env.sample.hashes with streebog256 := ⟨32, 64, fit 32, fit_length 32⟩ }
    gost := { Env.sample.gost with
      generateEphemeralKey := fun _ rand => (.ok ([7], fit 128 [7]), rand)
      vko2001OnCurve := fun _ prv pub _ => .ok (fit 32 (xorAgree prv pub))
      vko2012_256OnCurve := fun _ prv pub _ => .ok (fit 32 (xorAgree prv pub))
      keyWrapCryptoPro := fun _ kek ukm key => .ok (ukm ++ xorKey kek key ++ [0, 0, 0, 0])
      keg2012_256 := fun _ pub prv _ => .ok (fit 64 (xorAgree prv pub))
      kexp15Kuznyechik := fun key cipherKey _ _ => .ok (xorKey cipherKey key)
      kexp15Magma := fun key cipherKey _ _ => .ok (xorKey cipherKey key) } }

def GostPeer.sample : GostPeer Env.sampleGost where
  keyPair := fun _ prv pub => pub = fit 128 prv
  keyUnwrapCryptoPro := fun _ kek wrapped => .ok (xorKey kek ((wrapped.drop 8).take 32))
  kimp15 := fun _ wrapped cipherKey _ _ => .ok (xorKey cipherKey wrapped)
  generated := by
    intro curve rand rand' prv pub h
    cases h
    rfl
  vko_symm := by
    rintro kind curve prv pub prv' pub' ukm kek rfl rfl h
    cases kind <;> exact (congrArg (fun k => Except.ok (fit 32 k)) (xorAgree_symm prv' prv)).trans h
  keg_symm := by
    rintro curve prv pub prv' pub' ukm keys rfl rfl h
    exact (congrArg (fun k => Except.ok (fit 64 k)) (xorAgree_symm prv' prv)).trans h
  keyUnwrap := by
    intro sbox kek ukm key wrapped hukm hkey h
    cases h
    have henc : (xorKey kek key).length = 32 := by rw [xorKey, xorStream_length, hkey]
    refine ⟨xorKey kek key, [0, 0, 0, 0], henc, rfl, rfl, ?_⟩
    rw [List.append_assoc, List.drop_left' hukm, List.take_left' henc, xorKey, xorKey, xorStream_xorStream]
  kimp15_kexp15 := by
    intro v key cipherKey macKey iv wrapped h
    cases v with
    | kuznyechik =>
        cases h
        rw [xorKey, xorKey, xorStream_xorStream]
    | magma =>
        cases h
        rw [xorKey, xorKey, xorStream_xorStream]
    | other n => cases h

/-- The algorithm identifier of a GOST R 34.10-2012 key. -/
def spkiAlgoSample : Bytes :=
  tlv tagSequence (tlv tagOID [0x2a, 0x85, 0x03, 0x07, 0x01, 0x01, 0x01, 0x01] ++
    tlv tagSequence (tlv tagOID [0x2a, 0x85, 0x03, 0x02, 0x02, 0x23, 0x01]))

/-! ## Transport -/

/-- **What arrives of a VKO exchange.** The message is of its type and holds the certificate's algorithm, the
    client's ephemeral key, the user keying material and the wrapped secret; the server unwraps the secret. -/
structure GostPeer.ReceivesVko {env : Env} (peer : GostPeer env) (kind : VkoKind) (curve : List Nat)
    (serverPrv serverPub spkiAlgo ukm : Bytes) (e : VkoExchange) (cke preMaster : Bytes) : Prop where
  message : ∃ algID encryptedKey imit kek, KeAlgorithmIdentifier.unmarshal spkiAlgo = .ok algID ∧
    decode gostClientKeyExchangeParams cke =
      some ⟨⟨encryptedKey, imit⟩, ⟨e.variant.cipherOID, some ⟨algID, e.ephemPubRaw⟩, ukm.take 8⟩⟩ ∧
    kind.onCurve env.gost curve e.prvRaw serverPub (ukm.take 8) = .ok kek ∧
    env.gost.keyWrapCryptoPro e.variant.sbox kek (ukm.take 8) preMaster =
      .ok (ukm.take 8 ++ encryptedKey ++ imit)
  unwrapped : peer.unwrapVko kind curve serverPrv cke = some preMaster

/-- **What arrives of a 2018 exchange**, run from `r`. The user keying material is the hash of the randoms,
    where the exchange was given them. -/
structure GostPeer.Receives2018 {env : Env} (peer : GostPeer env) (variant : Gost2018Variant)
    (curve : List Nat) (serverPrv serverPub spkiAlgo : Bytes) (randoms : Option Bytes)
    (e : Gost2018Exchange) (r : Rands) (cke preMaster : Bytes) : Prop where
  message : ∃ algID psexp clientPrv clientPub rand rand' ukm r' expkeys ivLen,
    KeAlgorithmIdentifier.unmarshal spkiAlgo = .ok algID ∧
    decode psKeyTransportGost cke = some ⟨psexp, ⟨algID, clientPub⟩, some ukm⟩ ∧
    env.gost.generateEphemeralKey curve rand = (.ok (clientPrv, clientPub), rand') ∧
    e.ukm env r = .ok ukm r' ∧ (∀ rs, randoms = some rs → ukm = env.hashes.streebog256.sum rs) ∧
    env.gost.keg2012_256 curve serverPub clientPrv ukm = .ok expkeys ∧ variant.ivLen = .ok ivLen ∧
    variant.kexp15 env preMaster (expkeys.drop 32) (expkeys.take 32) ((ukm.drop 24).take ivLen) =
      .ok psexp
  unwrapped : peer.unwrap2018 variant curve serverPrv cke = some preMaster

section

variable {env : Env} (peer : GostPeer env) {curve : List Nat} {serverPrv serverPub spkiAlgo : Bytes}
  (hserver : peer.keyPair curve serverPrv serverPub) {cke preMaster : Bytes} {r r' : Rands}
include hserver

theorem receivesVko {kind : VkoKind} {ukm : Bytes} {r₀ r₁ : Rands} {e : VkoExchange}
    (hnew : kind.newExchange env (some curve) spkiAlgo serverPub ukm r₀ = .ok e r₁)
    (h : e.clientKeyExchange env r = .ok (cke, preMaster) r') (hlen : cke.length < 2 ^ 63) :
    peer.ReceivesVko kind curve serverPrv serverPub spkiAlgo ukm e cke preMaster := by
  rw [kind.newExchange_eq] at hnew
  obtain ⟨prvRaw, ephemPubRaw, rand, rand', hukm, hgen, rfl⟩ := newVkoExchange_ok hnew
  obtain ⟨kek, wrapped, hsecret, hkek, hwrapped, hcke⟩ := VkoExchange.clientKeyExchange_ok h
  dsimp only at hkek hwrapped hcke
  rw [kind.onCurve_eq] at hkek
  have hukmLen : (ukm.take 8).length = 8 := List.length_take_of_le hukm
  obtain ⟨enc, imit, henc, himit, rfl, hunwrap⟩ := peer.keyUnwrap hukmLen hsecret hwrapped
  -- The message holds the two parts of the wrapped key that follow the user keying material.
  have hencCut : ((ukm.take 8 ++ enc ++ imit).take 40).drop 8 = enc := by
    rw [List.take_left' (by rw [List.length_append, hukmLen, henc]), List.drop_left' hukmLen]
  have himitCut : ((ukm.take 8 ++ enc ++ imit).take 44).drop 40 = imit := by
    rw [List.take_of_length_le (by simp only [List.length_append, hukmLen, henc, himit]; omega),
      List.drop_left' (by rw [List.length_append, hukmLen, henc])]
  rw [hencCut, himitCut] at hcke
  obtain ⟨algID, halgID, hdecode⟩ := gostClientKeyExchangeParams_decode (kind.cipherOID_reads env) hcke hlen
  have hagree := peer.vko_symm kind (peer.generated hgen) hserver hkek
  constructor
  case message => exact ⟨algID, enc, imit, kek, halgID, hdecode, hkek, hwrapped⟩
  case unwrapped =>
    unfold GostPeer.unwrapVko
    rw [hdecode]
    dsimp only [Option.bind_some, bind]
    rw [kind.sboxByOID_cipherOID, hagree]
    dsimp only [Option.bind_some, Except.toOption]
    rw [hunwrap]

theorem receives2018 {variant : Gost2018Variant} {randoms : Option Bytes} {e : Gost2018Exchange}
    (hnew : newGost2018Exchange (some curve) spkiAlgo serverPub variant randoms = .ok e)
    (h : e.clientKeyExchange env r = .ok (cke, preMaster) r') (hlen : cke.length < 2 ^ 63) :
    peer.Receives2018 variant curve serverPrv serverPub spkiAlgo randoms e r cke preMaster := by
  obtain ⟨rfl, hrandoms⟩ := newGost2018Exchange_ok hnew
  obtain ⟨ukm, r₁, rand, rand', clientPrv, clientPub, expkeys, ivLen, wrapped, hukm, hgen, hkeys, hivLen,
    hwrapped, hcke⟩ := Gost2018Exchange.clientKeyExchange_ok h
  dsimp only at hgen hkeys hivLen hwrapped hcke
  obtain ⟨algID, halgID, hdecode⟩ := psKeyTransportGost_decode hcke hlen
  have hsame : ∀ rs, randoms = some rs → ukm = env.hashes.streebog256.sum rs := by
    intro rs hrs
    exact Gost2018Exchange.ukm_of_randoms hrs (hrandoms rs hrs) hukm
  have hagree := peer.keg_symm (peer.generated hgen) hserver hkeys
  constructor
  case message =>
    exact ⟨algID, wrapped, clientPrv, clientPub, rand, rand', ukm, r₁, expkeys, ivLen, halgID, hdecode,
      hgen, hukm, hsame, hkeys, hivLen, hwrapped⟩
  case unwrapped =>
    unfold GostPeer.unwrap2018
    rw [hdecode]
    dsimp only [Option.bind_some, bind]
    rw [hagree, hivLen]
    dsimp only [Option.bind_some, Except.toOption]
    rw [peer.kimp15_kexp15 variant hwrapped]

end

/-- **Key transport is invertible.** Whatever the curve, the keys, the algorithm identifier and the user
    keying material or the randoms are, a server with the private key for the public one the client was
    given gets the pre-master secret the client keeps, from the message of each of the exchanges. The length
    of a slice is an `int`. -/
theorem gost_key_transport_invertible (env : Env) (peer : GostPeer env) (curve : List Nat)
    (serverPrv serverPub spkiAlgo : Bytes) (hserver : peer.keyPair curve serverPrv serverPub)
    (r r' : Rands) (cke preMaster : Bytes) (hlen : cke.length < 2 ^ 63) :
    (∀ (kind : VkoKind) (ukm : Bytes) (e : VkoExchange) (r₀ r₁ : Rands),
      kind.newExchange env (some curve) spkiAlgo serverPub ukm r₀ = .ok e r₁ →
      e.clientKeyExchange env r = .ok (cke, preMaster) r' →
      peer.ReceivesVko kind curve serverPrv serverPub spkiAlgo ukm e cke preMaster) ∧
    (∀ (variant : Gost2018Variant) (randoms : Option Bytes) (e : Gost2018Exchange),
      newGost2018Exchange (some curve) spkiAlgo serverPub variant randoms = .ok e →
      e.clientKeyExchange env r = .ok (cke, preMaster) r' →
      peer.Receives2018 variant curve serverPrv serverPub spkiAlgo randoms e r cke preMaster) := by
  constructor
  · intro kind ukm e r₀ r₁ hnew h
    exact receivesVko peer hserver hnew h hlen
  · intro variant randoms e hnew h
    exact receives2018 peer hserver hnew h hlen

/-- A 2001 exchange, and a 2018 one with Magma, to a server whose private key is `[3]`. The keys are long
    enough for lengths of the long form. -/
theorem gost_key_transport_invertible_sample :
    (∃ (e : VkoExchange) (r r' : Rands) (cke preMaster : Bytes),
      e.clientKeyExchange .sampleGost r = .ok (cke, preMaster) r' ∧
      GostPeer.sample.unwrapVko .gost2001 [] [3] cke = some preMaster) ∧
    ∃ (e : Gost2018Exchange) (r r' : Rands) (cke preMaster : Bytes),
      e.clientKeyExchange .sampleGost r = .ok (cke, preMaster) r' ∧
      GostPeer.sample.unwrap2018 .magma [] [3] cke = some preMaster := by
  have hserver : GostPeer.sample.keyPair [] [3] (fit 128 [3]) := rfl
  constructor
  · have hruns : returns (do
        let e ← VkoKind.gost2001.newExchange .sampleGost (some []) spkiAlgoSample (fit 128 [3]) (fit 32 [])
        let out ← e.clientKeyExchange .sampleGost
        if out.1.length < 2 ^ 63 then return out else throw .panic : RandM (Bytes × Bytes)) .zeros =
          true := by
      decide +kernel
    obtain ⟨out, r', h⟩ := of_returns hruns
    obtain ⟨e, r₁, hnew, h₁⟩ := bind_returns.mp h
    obtain ⟨⟨cke, preMaster⟩, r₂, hcke, h₂⟩ := bind_returns.mp h₁
    split at h₂
    · rename_i hlen
      have hvko := (gost_key_transport_invertible .sampleGost .sample [] [3] (fit 128 [3]) spkiAlgoSample
        hserver r₁ r₂ cke preMaster hlen).1
      exact ⟨e, r₁, r₂, cke, preMaster, hcke, (hvko _ _ _ _ _ hnew hcke).unwrapped⟩
    · cases h₂
  · have hruns : returns (do
        let e ← newGost2018Exchange (some []) spkiAlgoSample (fit 128 [3]) .magma (some (fit 64 []))
        let out ← e.clientKeyExchange .sampleGost
        if out.1.length < 2 ^ 63 then return out else throw .panic : RandM (Bytes × Bytes)) .zeros =
          true := by
      decide +kernel
    obtain ⟨out, r', h⟩ := of_returns hruns
    obtain ⟨e, hnew, h₁⟩ := liftM_bind_returns.mp h
    obtain ⟨⟨cke, preMaster⟩, r₂, hcke, h₂⟩ := bind_returns.mp h₁
    split at h₂
    · rename_i hlen
      have h2018 := (gost_key_transport_invertible .sampleGost .sample [] [3] (fit 128 [3]) spkiAlgoSample
        hserver .zeros r₂ cke preMaster hlen).2
      exact ⟨e, .zeros, r₂, cke, preMaster, hcke, (h2018 _ _ _ hnew hcke).unwrapped⟩
    · cases h₂

end Gostls
