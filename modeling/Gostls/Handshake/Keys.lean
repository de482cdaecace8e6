import Gostls.Handshake.State
import Gostls.Ke.Dhe
import Gostls.Ke.Ecdhe
import Gostls.Ke.Gost

/-!
# `Gostls.Handshake.Keys` — from the key exchange to the protectors

`computeKeyExchange` runs the exchange of the suite and yields the pre-master secret with the body of
the ClientKeyExchange; `expandKeys` cuts the key block and builds a protector for each direction.
-/

namespace Gostls

open Lib

def errRSAKeyExpected : Err := .new "tls: RSA key exchange but cert has non-RSA public key"
def errUnknownKXKind : Err := .new "tls: unknown KX kind for suite"
def errGOSTNeedGOSTCert : Err := .new "tls: GOST key exchange requires a GOST server certificate"
def errGOSTUnexpectedKXKind : Err := .new "tls: unexpected GOST KX kind"
def errGOST2018NeedGOSTCert : Err :=
  .new "tls: GOST 2018 key exchange requires a GOST server certificate"
def errGOST2018UnexpectedID : Err := .new "tls: GOST 2018 key exchange: unexpected suite ID"
def errKeyExpansionZero : Err := .new "tls: key expansion total length is zero for suite"
def errKeyExpansionZeroLocal : Err := .new "key expansion total length is zero"
def errUnsupportedAEAD : Err := .new "unsupported AEAD cipher"
def errUnsupportedMACLen : Err := .new "unsupported MAC length for suite"
def errUnsupportedCBCCipher : Err := .new "unsupported CBC cipher"

/-! ## The key exchange -/

/-- The implementations of `ke.Exchange` a handshake uses. -/
inductive Exchange
  | ecdhe
  | dhe
  | rsa (pub : Bytes)
  | vko (e : VkoExchange)
  | gost2018 (e : Gost2018Exchange)

/-- `exchange.ClientKeyExchange(serverParams)`: the body to send and the pre-master secret. -/
def Exchange.clientKeyExchange (env : Env) (serverParams : Bytes) : Exchange → RandM (Bytes × Bytes)
  | .ecdhe      => ecdhClientKeyExchange env serverParams
  | .dhe        => dheClientKeyExchange env none serverParams
  | .rsa pub    => rsaClientKeyExchange env pub
  | .vko e      => e.clientKeyExchange env
  | .gost2018 e => e.clientKeyExchange env

/-- What the builders of the GOST exchanges read of the client's state. -/
structure KexInputs where
  suite : Suite
  gostLeaf : Option GostCertificate
  clientRandom : Random
  serverRandom : Random

def buildGOST2018Exchange (env : Env) (c : KexInputs) : RandM Exchange := do
  let some gc := c.gostLeaf | throw (errGOST2018NeedGOSTCert.detail " (got <nil>)")
  let curve ← annotate "tls: resolve GOST 2018 server cert curve" (env.gost.curveByOID gc.curveOID)
  let variant : Gost2018Variant ←
    if c.suite.id = 0xC100 then pure .kuznyechik
    else if c.suite.id = 0xC101 then pure .magma
    else throw (errGOST2018UnexpectedID.detail (" 0x" ++ hex04Upper c.suite.id))
  let randoms := c.clientRandom.val ++ c.serverRandom.val
  let e ← newGost2018Exchange (some curve) gc.spkiAlgorithmDER gc.pubKeyRaw variant (some randoms)
  return .gost2018 e

def buildGOSTExchange (env : Env) (c : KexInputs) : RandM Exchange := do
  let some gc := c.gostLeaf | throw (errGOSTNeedGOSTCert.detail " (got <nil>)")
  let curve ← annotate "tls: resolve GOST server cert curve" (env.gost.curveByOID gc.curveOID)
  let ukm ← sliceTo c.clientRandom.val 8
  match c.suite.kx with
  | .gost2001     =>
    return .vko (← newVKOGost2001Exchange env (some curve) gc.spkiAlgorithmDER gc.pubKeyRaw ukm)
  | .gost2012_256 =>
    return .vko (← newVKOGost2012_256Exchange env (some curve) gc.spkiAlgorithmDER gc.pubKeyRaw ukm)
  | .gost2018_256 => buildGOST2018Exchange env c
  | kx            => throw (errGOSTUnexpectedKXKind.detail (" " ++ toString kx.code))

/-- The exchange of the suite. -/
def buildExchange (env : Env) (cert : X509Certificate) (c : KexInputs) : HsM Exchange := do
  match c.suite.kx with
  | .ecdhe => return .ecdhe
  | .dhe   => return .dhe
  | .rsa   =>
    match cert.publicKey with
    | .rsa pub => return .rsa pub
    | key      =>
      fatal alertBadCertificate (errRSAKeyExpected.detail (" (got " ++ key.goType ++ ")"))
  | .gost2001 | .gost2012_256 | .gost2018_256 =>
    orFatal alertHandshakeFailure id (drawing (buildGOSTExchange env c))
  | .other n =>
    fatal alertHandshakeFailure
      (errUnknownKXKind.detail (" " ++ toString n ++ " for suite " ++ c.suite.name))

/-- The pre-master secret and the body of the ClientKeyExchange. -/
def computeKeyExchange (env : Env) (cert : X509Certificate) (serverParams : Bytes) :
    HsM (Bytes × Bytes) := do
  let suite ← getSuite
  let s ← get
  let exchange ← buildExchange env cert ⟨suite, s.gostLeaf, s.clientRandom, s.serverRandom⟩
  let (ckeBody, preMaster) ← orFatal alertHandshakeFailure (.errorf "tls: ClientKeyExchange")
    (drawing (exchange.clientKeyExchange env serverParams))
  return (preMaster, ckeBody)

/-! ## Protectors -/

/-- A protector of the suite under the given keys. -/
def buildProtector (env : Env) (suite : Suite) (encKey macKey iv : Bytes) : Except Err Protector := do
  match suite.cipher.name with
  | .gost28147CNT =>
    let sbox := if suite.kx = .gost2012_256 then env.gost.sboxTC26Z else env.gost.sboxCryptoProA
    return .gost28147 (← newGOST28147Protector encKey macKey iv sbox)
  | .kuznyechikCTROMAC =>
    return .ctrOMAC (← newKuznyechikCTROMACProtector env.gost.kuznyechik encKey macKey iv)
  | .magmaCTROMAC => return .ctrOMAC (← newMagmaCTROMACProtector env.gost.magma encKey macKey iv)
  | name =>
    if suite.cipher.aead then
      match name with
      | .aes128GCM | .aes256GCM => return .aead (← newAEADProtector env.newGCM encKey iv)
      | .chacha20Poly1305 =>
        return .chacha20Poly1305 (← newChaCha20Poly1305Protector env.newChaCha20Poly1305 encKey iv)
      | name => throw (errUnsupportedAEAD.detail (" \"" ++ name.text ++ "\""))
    else
      let newHash ←
        if suite.mac.macLen = 20 then pure env.hashes.sha1
        else if suite.mac.macLen = 32 then pure env.hashes.sha256
        else if suite.mac.macLen = 48 then pure env.hashes.sha384
        else throw (errUnsupportedMACLen.detail
          (" " ++ toString suite.mac.macLen ++ " for suite " ++ suite.name))
      match name with
      | .aes128CBC | .aes256CBC =>
        return .cbcHMAC (← newCBCHMACProtector env.newAESCipher newHash encKey macKey)
      | name => throw (errUnsupportedCBCCipher.detail (" \"" ++ name.text ++ "\""))

/-- Key expansion with the given IV length. The handshake has its own copy of the seed and of the cuts,
    beside those of `keyExpansion`. -/
def expandKeysManual (suite : Suite) (masterSecret clientRandom serverRandom : Bytes) (ivLen : Nat) :
    Except Err KeyMaterial := do
  let seed := fit tlsRandomLen serverRandom ++ fit tlsRandomLen clientRandom
  let macKeyLen := suite.mac.keyLen
  let encKeyLen := suite.cipher.keyLen
  let totalLen := 2 * macKeyLen + 2 * encKeyLen + 2 * ivLen
  if totalLen = 0 then throw errKeyExpansionZeroLocal
  let keyBlock ← prf suite.prf.hash masterSecret (utf8 "key expansion") seed totalLen
  let off := 0
  let (clientMACKey, serverMACKey, off) ←
    if macKeyLen > 0 then do
      let clientMACKey ← slice keyBlock off (off + macKeyLen)
      let off := off + macKeyLen
      let serverMACKey ← slice keyBlock off (off + macKeyLen)
      let off := off + macKeyLen
      pure (clientMACKey, serverMACKey, off)
    else pure ([], [], off)
  let clientEncKey ← slice keyBlock off (off + encKeyLen)
  let off := off + encKeyLen
  let serverEncKey ← slice keyBlock off (off + encKeyLen)
  let off := off + encKeyLen
  let (clientIV, serverIV) ←
    if ivLen > 0 then do
      let clientIV ← slice keyBlock off (off + ivLen)
      let off := off + ivLen
      let serverIV ← slice keyBlock off (off + ivLen)
      pure (clientIV, serverIV)
    else pure ([], [])
  return { clientMACKey, serverMACKey, clientEncKey, serverEncKey, clientIV, serverIV }

/-- The IV length `expandKeys` finds: its own copy of the rule of `keyBlockIVLen`. -/
def expandKeysIVLen (suite : Suite) : Nat :=
  let ivLen := suite.cipher.fixedIVLen
  let isCBC := !suite.cipher.aead && suite.cipher.name ≠ .gost28147CNT &&
    suite.cipher.name ≠ .kuznyechikCTROMAC && suite.cipher.name ≠ .magmaCTROMAC
  if isCBC then 0 else ivLen

/-- The two copies of the rule agree. -/
theorem expandKeysIVLen_eq (suite : Suite) : expandKeysIVLen suite = keyBlockIVLen suite := rfl

/-- The protectors of both directions, the client's first. -/
def expandKeys (env : Env) : HsM (Protector × Protector) := do
  let suite ← getSuite
  let s ← get
  let ivLen := expandKeysIVLen suite
  let totalLen := 2 * suite.mac.keyLen + 2 * suite.cipher.keyLen + 2 * ivLen
  fatalIf (totalLen = 0) alertInternalError (errKeyExpansionZero.detail (" " ++ suite.name))
  let km ← orFatal alertInternalError (.errorf "tls: key expansion") (compute
    (expandKeysManual suite s.masterSecret s.clientRandom.val s.serverRandom.val ivLen))
  let sendProt ← orFatal alertInternalError (.errorf "tls: build send protector") (compute
    (buildProtector env suite km.clientEncKey km.clientMACKey km.clientIV))
  let recvProt ← orFatal alertInternalError (.errorf "tls: build recv protector") (compute
    (buildProtector env suite km.serverEncKey km.serverMACKey km.serverIV))
  return (sendProt, recvProt)

end Gostls
