import Gostls.Env

/-!
# `Gostls.Ke.Ecdhe` — the ECDHE and RSA key exchanges

Both draw on the configured reader. `ecdhClientKeyExchange` decodes the server parameters and then
runs the agreement (`ecdhAgree`) on the curve and point it found;
`ecdhClientKeyExchange_eq` says which bytes those are.
-/

namespace Gostls

open Lib

def namedCurveP256 : UInt16 := 0x0017
def namedCurveP384 : UInt16 := 0x0018
def namedCurveP521 : UInt16 := 0x0019
def namedCurveX25519 : UInt16 := 0x001D
def ecdheCurveTypeNamed : UInt8 := 3
def ecdheServerParamsMinLen : Nat := 4
def ecdheHeaderLen : Nat := 4
def rsaPreMasterLen : Nat := 48
def rsaCKELenPrefixSize : Nat := 2

def errECDHEUnsupportedCurve : Err := .new "ke: unsupported named curve"
def errECDHEServerParamsTooShort : Err := .new "ke: ECDHE serverParams too short"
def errECDHEUnsupportedCurveType : Err :=
  .new "ke: unsupported curve_type (only named_curve=3 is supported)"
def errECDHEServerParamsTruncated : Err := .new "ke: ECDHE serverParams truncated"

/-! ## ECDHE -/

def curveByID (id : UInt16) : Except Err EcdhCurve :=
  if id = namedCurveP256 then .ok .p256
  else if id = namedCurveP384 then .ok .p384
  else if id = namedCurveP521 then .ok .p521
  else if id = namedCurveX25519 then .ok .x25519
  else .error (.errorf ("ke: unsupported named curve 0x" ++ hex04Upper id) errECDHEUnsupportedCurve)

/-- The agreement on a curve with the server's point: the key share sent and the shared secret. -/
def ecdhAgree (env : Env) (curve : EcdhCurve) (serverPubBytes : Bytes) : RandM (Bytes × Bytes) := do
  let serverPub ← annotate "ke: parse server public key" (env.ecdhNewPublicKey curve serverPubBytes)
  let clientPriv ← RandM.mapErr (.errorf "ke: generate client key")
    (RandM.withConfig (env.ecdhGenerateKey curve))
  let preMaster ← annotate "ke: ECDH" (env.ecdhShared curve clientPriv serverPub)
  let clientPubBytes := env.ecdhPublicBytes curve clientPriv
  return (UInt8.ofNat clientPubBytes.length :: clientPubBytes, preMaster)

/-- `ecdhExchangeWithRand.ClientKeyExchange` -/
def ecdhClientKeyExchange (env : Env) (serverParams : Bytes) : RandM (Bytes × Bytes) := do
  if serverParams.length < ecdheServerParamsMinLen then
    throw (.errorf ("ke: ECDHE serverParams too short (" ++ toString serverParams.length ++ " bytes)")
      errECDHEServerParamsTooShort)
  let curveType ← index serverParams 0
  if curveType ≠ ecdheCurveTypeNamed then
    throw (.errorf ("ke: unsupported curve_type " ++ toString curveType ++
      " (only named_curve=3 is supported)") errECDHEUnsupportedCurveType)
  let hi ← index serverParams 1
  let lo ← index serverParams 2
  let namedCurve := uint16Of hi lo
  let curve ← curveByID namedCurve
  let len ← index serverParams 3
  let pointLen := len.toNat
  if serverParams.length < ecdheHeaderLen + pointLen then
    throw (.errorf ("ke: ECDHE serverParams truncated: need " ++ toString pointLen ++
      " bytes after header, have " ++ toString (serverParams.length - ecdheHeaderLen))
      errECDHEServerParamsTruncated)
  let serverPubBytes ← slice serverParams ecdheHeaderLen (ecdheHeaderLen + pointLen)
  ecdhAgree env curve serverPubBytes

/-- **What the exchange reads** of well-formed parameters: the curve and the whole point. -/
theorem ecdhClientKeyExchange_eq (env : Env) (hi lo len : UInt8) {point : Bytes}
    (hlen : point.length = len.toNat) :
    ecdhClientKeyExchange env (ecdheCurveTypeNamed :: hi :: lo :: len :: point) =
      (compute (curveByID (uint16Of hi lo)) >>= fun curve => ecdhAgree env curve point) := by
  have hmin : ¬ (ecdheCurveTypeNamed :: hi :: lo :: len :: point).length < ecdheServerParamsMinLen := by
    simp [ecdheServerParamsMinLen]
  have hfull : ¬ (ecdheCurveTypeNamed :: hi :: lo :: len :: point).length <
      ecdheHeaderLen + len.toNat := by
    simp [ecdheHeaderLen, hlen]
    omega
  have hslice : slice (ecdheCurveTypeNamed :: hi :: lo :: len :: point) ecdheHeaderLen
      (ecdheHeaderLen + len.toNat) = .ok point := by
    rw [slice_eq (by omega) (by simp [ecdheHeaderLen, hlen]; omega), ← hlen]
    simp [ecdheHeaderLen, Nat.add_comm]
  simp only [ecdhClientKeyExchange, if_neg hmin, index_cons_zero, index_cons_succ, liftM_eq,
    compute_ok, pure_bind, ne_eq, not_true_eq_false, if_false, if_neg hfull, hslice]

/-! ## RSA -/

/-- `rsaExchangeWithRand.ClientKeyExchange` -/
def rsaClientKeyExchange (env : Env) (pub : Bytes) : RandM (Bytes × Bytes) := do
  let random ← RandM.mapErr (.errorf "ke: RSA: generate pre-master random")
    (RandM.withConfig (RandM.readFull (rsaPreMasterLen - rsaCKELenPrefixSize)))
  let preMaster := 0x03 :: 0x03 :: random
  let ciphertext ← RandM.mapErr (.errorf "ke: RSA: encrypt pre-master")
    (RandM.withConfig (env.rsaEncryptPKCS1v15 pub preMaster))
  return (toBE rsaCKELenPrefixSize ciphertext.length ++ ciphertext, preMaster)

end Gostls
