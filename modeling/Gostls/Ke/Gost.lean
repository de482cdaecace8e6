import Gostls.Env
import Gostls.Lib.Der

/-!
# `Gostls.Ke.Gost` — the GOST key exchanges

Key transport to the server certificate's key. The VKO exchanges of the 2001 and 2012 suites wrap a
random pre-master secret under a key agreed with an ephemeral one; the 2018 exchange derives its user
keying material from the two hello randoms. All three send the ephemeral public key under the
algorithm identifier of the certificate, re-encoded, and all draw on the system's reader.
-/

namespace Gostls

open Lib Lib.Der

/-! ## The messages -/

/-- `keAlgorithmIdentifier`; the parameters are kept as encoded, and are empty when absent. -/
structure KeAlgorithmIdentifier where
  algorithm : List Nat
  parameters : Bytes

/-- `asn1.Unmarshal(der, &algID)`. Bytes behind the element, and elements behind the two, are let
    go. -/
def KeAlgorithmIdentifier.unmarshal (der : Bytes) : Except DerErr KeAlgorithmIdentifier := do
  let sequence ← expect tagSequence der
  let oid ← expect tagOID sequence.body
  let algorithm ← parseOID oid.body
  if oid.rest = [] then return { algorithm, parameters := [] }
  let parameters ← parseElement oid.rest
  return { algorithm, parameters := parameters.full }

/-- The body of a `keSPKI`: the algorithm and the key as an OCTET STRING in a BIT STRING. -/
def spkiBody (algID : KeAlgorithmIdentifier) (pubRaw : Bytes) : Except DerErr Bytes := do
  let oid ← encodeOID algID.algorithm
  return tlv tagSequence (tlv tagOID oid ++ algID.parameters) ++
    tlv tagBitString (0 :: tlv tagOctetString pubRaw)

/-- The error of an `encoding/asn1` call. -/
def ofDer {α : Type} (x : Except DerErr α) : Except Err α :=
  match x with
  | .ok a    => .ok a
  | .error e => .error (.new e.error)

/-- The bytes of a length behind its first one. -/
def lengthOfLength (first : UInt8) : Nat :=
  if first &&& 0x80 = 0 then 0 else (first &&& 0x7f).toNat

def marshalGOSTKeyTransport (spkiAlgo ephemPubRaw encryptedKey imit : Bytes) (cipherOID : List Nat)
    (ephIV : Bytes) : Except Err Bytes := do
  let algID ← annotate "ke/gost_keytransport: unmarshal server SPKI algorithm"
    (ofDer (KeAlgorithmIdentifier.unmarshal spkiAlgo))
  let spki ← annotate "ke/gost_keytransport: marshal ephemeral SPKI" (ofDer (spkiBody algID ephemPubRaw))
  let spkiDER := tlv tagSequence spki
  -- The key is `[0] IMPLICIT`: what is behind the header of its SEQUENCE, under another tag.
  let first ← index spkiDER 1
  let ephemKey ← sliceFrom spkiDER (2 + lengthOfLength first)
  let cipher ← ofDer (encodeOID cipherOID)
  let keyInfo := tlv tagSequence (tlv tagOctetString encryptedKey ++ tlv tagOctetString imit)
  let keyAgreementInfo :=
    tlv tagContext0 (tlv tagOID cipher ++ tlv tagContext0 ephemKey ++ tlv tagOctetString ephIV)
  return tlv tagSequence (tlv tagSequence (keyInfo ++ keyAgreementInfo))

/-- `ukm = none` leaves the optional field out. -/
def marshalPSKeyTransport (psexp ephemSPKIAlgo ephemPubRaw : Bytes) (ukm : Option Bytes) :
    Except Err Bytes := do
  let algID ← annotate "ke/pskeytransport_gost: unmarshal server SPKI algorithm"
    (ofDer (KeAlgorithmIdentifier.unmarshal ephemSPKIAlgo))
  let spki ← annotate "ke/pskeytransport_gost: marshal PSKeyTransport_gost"
    (ofDer (spkiBody algID ephemPubRaw))
  let ukmField := match ukm with
    | none     => []
    | some ukm => tlv tagOctetString ukm
  return tlv tagSequence (tlv tagOctetString psexp ++ tlv tagSequence spki ++ ukmField)

/-! ## VKO -/

def vkoUKMMinLen : Nat := 8
def vkoPreMasterLen : Nat := 32
def vkoKEKLen : Nat := 32
def cryptoProWrapEncKeyOff : Nat := 8
def cryptoProWrapEncKeyEnd : Nat := 40
def cryptoProWrapIMITEnd : Nat := 44

def errVKO2001CurveRequired : Err := .new "ke/vkogost: VKO2001 curve is required"
def errVKO2001SpkiRequired : Err :=
  .new "ke/vkogost: VKO2001 server SPKI AlgorithmIdentifier is required"
def errVKO2001UKMTooShort : Err := .new "ke/vkogost: VKO2001 UKM must be at least 8 bytes"
def errVKO2001BadKEKLen : Err := .new "ke/vkogost: VKO2001 returned wrong number of bytes, want 32"
def errVKO2012CurveRequired : Err := .new "ke/vkogost: VKO2012_256 curve is required"
def errVKO2012SpkiRequired : Err :=
  .new "ke/vkogost: VKO2012_256 server SPKI AlgorithmIdentifier is required"
def errVKO2012UKMTooShort : Err := .new "ke/vkogost: VKO2012_256 UKM must be at least 8 bytes"

def oidTc26Gost28147ParamZ : List Nat := [1, 2, 643, 7, 1, 2, 5, 1, 1]
def oidGost28147CryptoProA : List Nat := [1, 2, 643, 2, 2, 31, 1]

/-- What sets the two VKO exchanges apart. -/
structure VkoVariant where
  name : String
  errCurveRequired : Err
  errSpkiRequired : Err
  errUKMTooShort : Err
  onCurve : List Nat → Bytes → Bytes → Bytes → Except Err Bytes
  sbox : Sbox
  cipherOID : List Nat

/-- `VKOGost2001Exchange` and `VKOGost2012_256Exchange`. -/
structure VkoExchange where
  variant : VkoVariant
  curve : List Nat
  spkiAlgo : Bytes
  prvRaw : Bytes
  ephemPubRaw : Bytes
  pubRaw : Bytes
  ukm : Bytes

def newVkoExchange (env : Env) (v : VkoVariant) (curve : Option (List Nat))
    (spkiAlgo pubRaw ukm : Bytes) : RandM VkoExchange := do
  let some curve := curve | throw (v.errCurveRequired.detail "")
  if spkiAlgo.length = 0 then throw (v.errSpkiRequired.detail "")
  if ukm.length < vkoUKMMinLen then
    throw (.errorf ("ke/vkogost: " ++ v.name ++ " UKM must be at least 8 bytes, got " ++
      toString ukm.length) v.errUKMTooShort)
  let (prvRaw, ephemPubRaw) ← RandM.mapErr (.errorf ("ke/vkogost: " ++ v.name ++ " keygen"))
    (RandM.withSystem (env.gost.generateEphemeralKey curve))
  return { variant := v, curve, spkiAlgo, prvRaw, ephemPubRaw, pubRaw, ukm := ukm.take vkoUKMMinLen }

/-- The exchange, with nothing read from a ServerKeyExchange. -/
def VkoExchange.clientKeyExchange (env : Env) (e : VkoExchange) : RandM (Bytes × Bytes) := do
  let pfx := "ke/vkogost: " ++ e.variant.name
  let preMaster ← RandM.mapErr (.errorf (pfx ++ " premaster rand"))
    (RandM.withSystem (RandM.readFull vkoPreMasterLen))
  let kek ← annotate (pfx ++ " shared key") (e.variant.onCurve e.curve e.prvRaw e.pubRaw e.ukm)
  if kek.length ≠ vkoKEKLen then
    throw (.errorf (pfx ++ " returned " ++ toString kek.length ++ " bytes, want 32") errVKO2001BadKEKLen)
  let wrapped ← annotate (pfx ++ " key wrap")
    (env.gost.keyWrapCryptoPro e.variant.sbox kek e.ukm preMaster)
  if wrapped.length < cryptoProWrapIMITEnd then
    throw (.errorf (pfx ++ " key wrap output " ++ toString wrapped.length ++ " bytes, want " ++
      toString cryptoProWrapIMITEnd) errVKO2001BadKEKLen)
  let encryptedKey ← slice wrapped cryptoProWrapEncKeyOff cryptoProWrapEncKeyEnd
  let imit ← slice wrapped cryptoProWrapEncKeyEnd cryptoProWrapIMITEnd
  let cke ← annotate (pfx ++ " marshal GKT") (marshalGOSTKeyTransport e.spkiAlgo e.ephemPubRaw
    encryptedKey imit e.variant.cipherOID e.ukm)
  return (cke, preMaster)

theorem newVkoExchange_ok {env : Env} {v : VkoVariant} {curve : List Nat} {spkiAlgo pubRaw ukm : Bytes}
    {r r' : Rands} {e : VkoExchange}
    (h : newVkoExchange env v (some curve) spkiAlgo pubRaw ukm r = .ok e r') :
    ∃ prvRaw ephemPubRaw rand rand', vkoUKMMinLen ≤ ukm.length ∧
      env.gost.generateEphemeralKey curve rand = (.ok (prvRaw, ephemPubRaw), rand') ∧
      e = { variant := v, curve, spkiAlgo, prvRaw, ephemPubRaw, pubRaw, ukm := ukm.take 8 } := by
  unfold newVkoExchange at h
  dsimp only at h
  split at h
  · cases h
  · split at h
    · cases h
    · rename_i hukm
      obtain ⟨⟨prvRaw, ephemPubRaw⟩, r₁, hkey, hrest⟩ := bind_returns.mp h
      cases hrest
      obtain ⟨rand, rand', hgen⟩ := RandM.withSystem_ok (RandM.mapErr_returns hkey)
      exact ⟨prvRaw, ephemPubRaw, rand, rand', Nat.le_of_not_lt hukm, hgen, rfl⟩

/-- **What a VKO exchange did**: it wrapped a fresh secret under the agreed key, and sent the wrapped key
    cut in two. -/
theorem VkoExchange.clientKeyExchange_ok {env : Env} {e : VkoExchange} {r r' : Rands}
    {cke preMaster : Bytes} (h : e.clientKeyExchange env r = .ok (cke, preMaster) r') :
    ∃ kek wrapped, preMaster.length = 32 ∧
      e.variant.onCurve e.curve e.prvRaw e.pubRaw e.ukm = .ok kek ∧
      env.gost.keyWrapCryptoPro e.variant.sbox kek e.ukm preMaster = .ok wrapped ∧
      marshalGOSTKeyTransport e.spkiAlgo e.ephemPubRaw ((wrapped.take 40).drop 8)
        ((wrapped.take 44).drop 40) e.variant.cipherOID e.ukm = .ok cke := by
  unfold VkoExchange.clientKeyExchange at h
  dsimp only at h
  obtain ⟨secret, r₁, hsecret, h₁⟩ := bind_returns.mp h
  obtain ⟨kek, hkek, h₂⟩ := liftM_bind_returns.mp h₁
  split at h₂
  · cases h₂
  · obtain ⟨wrapped, hwrapped, h₃⟩ := liftM_bind_returns.mp h₂
    split at h₃
    · cases h₃
    · obtain ⟨encryptedKey, henc, h₄⟩ := liftM_bind_returns.mp h₃
      obtain ⟨imit, himit, h₅⟩ := liftM_bind_returns.mp h₄
      obtain ⟨out, hout, h₆⟩ := liftM_bind_returns.mp h₅
      cases h₆
      obtain ⟨rand, rand', hread⟩ := RandM.withSystem_ok (RandM.mapErr_returns hsecret)
      obtain ⟨-, -, rfl⟩ := slice_ok henc
      obtain ⟨-, -, rfl⟩ := slice_ok himit
      exact ⟨kek, wrapped, RandM.readFull_length hread, mapErr_eq_ok.mp hkek, mapErr_eq_ok.mp hwrapped,
        mapErr_eq_ok.mp hout⟩

def vkoGost2001 (env : Env) : VkoVariant where
  name := "VKO2001"
  errCurveRequired := errVKO2001CurveRequired
  errSpkiRequired := errVKO2001SpkiRequired
  errUKMTooShort := errVKO2001UKMTooShort
  onCurve := env.gost.vko2001OnCurve
  sbox := env.gost.sboxCryptoProA
  cipherOID := oidGost28147CryptoProA

def vkoGost2012_256 (env : Env) : VkoVariant where
  name := "VKO2012_256"
  errCurveRequired := errVKO2012CurveRequired
  errSpkiRequired := errVKO2012SpkiRequired
  errUKMTooShort := errVKO2012UKMTooShort
  onCurve := env.gost.vko2012_256OnCurve
  sbox := env.gost.sboxTC26Z
  cipherOID := oidTc26Gost28147ParamZ

def newVKOGost2001Exchange (env : Env) (curve : Option (List Nat)) (spkiAlgo pubRaw ukm : Bytes) :
    RandM VkoExchange :=
  newVkoExchange env (vkoGost2001 env) curve spkiAlgo pubRaw ukm

def newVKOGost2012_256Exchange (env : Env) (curve : Option (List Nat)) (spkiAlgo pubRaw ukm : Bytes) :
    RandM VkoExchange :=
  newVkoExchange env (vkoGost2012_256 env) curve spkiAlgo pubRaw ukm

/-! ## GOST 2018 -/

def gost2018RandomsLen : Nat := 64
def gost2018Streebog256Len : Nat := 32
def gost2018UKMLen : Nat := 32
def gost2018PreMasterLen : Nat := 32
def gost2018IVKuznyechik : Nat := 8
def gost2018IVMagma : Nat := 4
def gost2018UKMIVOffset : Nat := 24

def errGost2018CurveRequired : Err := .new "ke/gost2018: curve is required"
def errGost2018SpkiAlgoRequired : Err := .new "ke/gost2018: spkiAlgo is required"
def errGost2018ServerPubRequired : Err := .new "ke/gost2018: serverPubRaw is required"
def errGost2018UnknownVariant : Err := .new "ke/gost2018: unknown variant"
def errGost2018RandomsLen : Err :=
  .new "ke/gost2018: randoms must be 64 bytes (clientRandom || serverRandom)"
def errGost2018Streebog256Len : Err := .new "ke/gost2018: unexpected Streebog-256 output length"

inductive Gost2018Variant
  | kuznyechik
  | magma
  | other (n : Nat)
  deriving DecidableEq, Repr

/-- The length of the IV; an unknown variant panics. -/
def Gost2018Variant.ivLen : Gost2018Variant → Except Err Nat
  | .kuznyechik => .ok gost2018IVKuznyechik
  | .magma      => .ok gost2018IVMagma
  | .other _    => .error .panic

/-- `gost.Kexp15(kexpVariant(v), …)` -/
def Gost2018Variant.kexp15 (env : Env) (v : Gost2018Variant)
    (preMaster cipherKey macKey iv : Bytes) : Except Err Bytes :=
  match v with
  | .kuznyechik => env.gost.kexp15Kuznyechik preMaster cipherKey macKey iv
  | .magma      => env.gost.kexp15Magma preMaster cipherKey macKey iv
  | .other _    => .error .panic

structure Gost2018Exchange where
  curve : List Nat
  spkiAlgo : Bytes
  serverPubRaw : Bytes
  variant : Gost2018Variant
  randoms : Option Bytes

def newGost2018Exchange (curve : Option (List Nat)) (spkiAlgo serverPubRaw : Bytes)
    (variant : Gost2018Variant) (randoms : Option Bytes) : Except Err Gost2018Exchange := do
  let some curve := curve | throw (errGost2018CurveRequired.detail "")
  if spkiAlgo.length = 0 then throw (errGost2018SpkiAlgoRequired.detail "")
  if serverPubRaw.length = 0 then throw (errGost2018ServerPubRequired.detail "")
  if let .other n := variant then
    throw (.errorf ("ke/gost2018: unknown variant " ++ toString n) errGost2018UnknownVariant)
  if let some r := randoms then
    if r.length ≠ gost2018RandomsLen then
      throw (.errorf ("ke/gost2018: randoms must be 64 bytes (clientRandom || serverRandom), got " ++
        toString r.length) errGost2018RandomsLen)
  return { curve, spkiAlgo, serverPubRaw, variant, randoms }

/-- The user keying material: the hash of the randoms, or random without them. -/
def Gost2018Exchange.ukm (env : Env) (e : Gost2018Exchange) : RandM Bytes := do
  let randoms := e.randoms.getD []
  if randoms.length = gost2018RandomsLen then
    let d := env.hashes.streebog256.sum randoms
    if d.length ≠ gost2018Streebog256Len then
      throw (.errorf ("ke/gost2018: unexpected Streebog-256 output length " ++ toString d.length)
        errGost2018Streebog256Len)
    return d
  RandM.mapErr (.errorf "ke/gost2018: ukm rand") (RandM.withSystem (RandM.readFull gost2018UKMLen))

/-- `Gost2018Exchange.ClientKeyExchange` -/
def Gost2018Exchange.clientKeyExchange (env : Env) (e : Gost2018Exchange) :
    RandM (Bytes × Bytes) := do
  let ukm ← e.ukm env
  let preMaster ← RandM.mapErr (.errorf "ke/gost2018: premaster rand")
    (RandM.withSystem (RandM.readFull gost2018PreMasterLen))
  let (clientPrivRaw, clientPubRaw) ← RandM.mapErr (.errorf "ke/gost2018: ephemeral keygen")
    (RandM.withSystem (env.gost.generateEphemeralKey e.curve))
  let expkeys ← annotate "ke/gost2018: KEG2012_256"
    (env.gost.keg2012_256 e.curve e.serverPubRaw clientPrivRaw ukm)
  let ivLen ← e.variant.ivLen
  let iv ← slice ukm gost2018UKMIVOffset (gost2018UKMIVOffset + ivLen)
  let cipherKey ← sliceFrom expkeys 32
  let macKey ← sliceTo expkeys 32
  let wrapped ← annotate "ke/gost2018: kexp15" (e.variant.kexp15 env preMaster cipherKey macKey iv)
  let cke ← annotate "ke/gost2018: marshalPSKeyTransport"
    (marshalPSKeyTransport wrapped e.spkiAlgo clientPubRaw (some ukm))
  return (cke, preMaster)

theorem newGost2018Exchange_ok {curve : List Nat} {spkiAlgo serverPubRaw : Bytes}
    {variant : Gost2018Variant} {randoms : Option Bytes} {e : Gost2018Exchange}
    (h : newGost2018Exchange (some curve) spkiAlgo serverPubRaw variant randoms = .ok e) :
    e = { curve, spkiAlgo, serverPubRaw, variant, randoms } ∧
      ∀ rs, randoms = some rs → rs.length = gost2018RandomsLen := by
  unfold newGost2018Exchange at h
  dsimp only at h
  split at h
  · cases h
  split at h
  · cases h
  split at h
  · cases h
  split at h
  · split at h
    · cases h
    · rename_i hlen
      cases h
      refine ⟨rfl, ?_⟩
      intro rs hrs
      cases hrs
      exact Decidable.not_not.mp hlen
  · rename_i hnone
    cases h
    exact ⟨rfl, fun rs hrs => absurd hrs (hnone rs)⟩

/-- Both sides have the randoms, and so the user keying material. -/
theorem Gost2018Exchange.ukm_of_randoms {env : Env} {e : Gost2018Exchange} {rs ukm : Bytes} {r r' : Rands}
    (hrs : e.randoms = some rs) (hlen : rs.length = gost2018RandomsLen) (h : e.ukm env r = .ok ukm r') :
    ukm = env.hashes.streebog256.sum rs := by
  unfold Gost2018Exchange.ukm at h
  rw [hrs] at h
  dsimp only [Option.getD_some] at h
  rw [if_pos hlen] at h
  split at h
  · cases h
  · cases h
    rfl

/-- **What a 2018 exchange did**: it wrapped a fresh secret under keys agreed with a fresh key. -/
theorem Gost2018Exchange.clientKeyExchange_ok {env : Env} {e : Gost2018Exchange} {r r' : Rands}
    {cke preMaster : Bytes} (h : e.clientKeyExchange env r = .ok (cke, preMaster) r') :
    ∃ ukm r₁ rand rand' clientPrv clientPub expkeys ivLen wrapped, e.ukm env r = .ok ukm r₁ ∧
      env.gost.generateEphemeralKey e.curve rand = (.ok (clientPrv, clientPub), rand') ∧
      env.gost.keg2012_256 e.curve e.serverPubRaw clientPrv ukm = .ok expkeys ∧
      e.variant.ivLen = .ok ivLen ∧
      e.variant.kexp15 env preMaster (expkeys.drop 32) (expkeys.take 32) ((ukm.drop 24).take ivLen) =
        .ok wrapped ∧
      marshalPSKeyTransport wrapped e.spkiAlgo clientPub (some ukm) = .ok cke := by
  unfold Gost2018Exchange.clientKeyExchange at h
  obtain ⟨ukm, r₁, hukm, h₁⟩ := bind_returns.mp h
  obtain ⟨secret, r₂, hsecret, h₂⟩ := bind_returns.mp h₁
  obtain ⟨⟨clientPrv, clientPub⟩, r₃, hkey, h₃⟩ := bind_returns.mp h₂
  obtain ⟨expkeys, hexpkeys, h₄⟩ := liftM_bind_returns.mp h₃
  obtain ⟨ivLen, hivLen, h₅⟩ := liftM_bind_returns.mp h₄
  obtain ⟨iv, hiv, h₆⟩ := liftM_bind_returns.mp h₅
  obtain ⟨cipherKey, hcipherKey, h₇⟩ := liftM_bind_returns.mp h₆
  obtain ⟨macKey, hmacKey, h₈⟩ := liftM_bind_returns.mp h₇
  obtain ⟨wrapped, hwrapped, h₉⟩ := liftM_bind_returns.mp h₈
  obtain ⟨out, hout, h₁₀⟩ := liftM_bind_returns.mp h₉
  cases h₁₀
  obtain ⟨rand, rand', hgen⟩ := RandM.withSystem_ok (RandM.mapErr_returns hkey)
  obtain ⟨-, -, rfl⟩ := slice_ok hiv
  obtain ⟨-, rfl⟩ := sliceFrom_ok hcipherKey
  obtain ⟨-, -, rfl⟩ := slice_ok hmacKey
  have hwrapped := mapErr_eq_ok.mp hwrapped
  rw [List.drop_zero, List.drop_take, Nat.add_sub_cancel_left] at hwrapped
  exact ⟨ukm, r₁, rand, rand', clientPrv, clientPub, expkeys, ivLen, wrapped, hukm, hgen,
    mapErr_eq_ok.mp hexpkeys, hivLen, hwrapped, mapErr_eq_ok.mp hout⟩

end Gostls
