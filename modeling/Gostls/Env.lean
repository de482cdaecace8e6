import Gostls.Lib.Stream
import Gostls.Record.Protector
import Gostls.Suites.Suite

/-!
# `Gostls.Env` — what the handshake takes from outside the repository

The standard library's and the GOST library's cryptography, and certificate handling, as functions
the handshake is parametric in. Keys and certificates are values whose content only these functions
look into. A function that is given a randomness reader takes the `Entropy` it reads from and returns
what is left of it.
-/

namespace Gostls

open Lib

/-! ## Keys and certificates -/

/-- The dynamic type of a `crypto.PublicKey`, with the key. -/
inductive PublicKey
  | rsa (key : Bytes)
  | ecdsa (key : Bytes)
  | other (goType : String)
  deriving DecidableEq, Repr

/-- `fmt.Sprintf("%T", k)` -/
def PublicKey.goType : PublicKey → String
  | .rsa _   => "*rsa.PublicKey"
  | .ecdsa _ => "*ecdsa.PublicKey"
  | .other t => t

/-- The `elliptic.Curve` of an ECDSA key. -/
inductive EllipticCurve
  | p256
  | p384
  | other (name : String)
  deriving DecidableEq, Repr

/-- The dynamic type of a `crypto.PrivateKey`, with the key. -/
inductive PrivateKey
  | rsa (key : Bytes)
  | ecdsa (curve : EllipticCurve) (key : Bytes)
  | other (goType : String)
  deriving DecidableEq, Repr

def PrivateKey.goType : PrivateKey → String
  | .rsa _     => "*rsa.PrivateKey"
  | .ecdsa _ _ => "*ecdsa.PrivateKey"
  | .other t   => t

/-- `*x509.Certificate` -/
structure X509Certificate where
  raw : Bytes
  publicKey : PublicKey
  deriving DecidableEq, Repr

/-- `*x509gost.Certificate` -/
structure GostCertificate where
  stdlib : X509Certificate
  isGOST : Bool
  hasGOSTPubKey : Bool
  curveOID : List Nat
  pubKeyRaw : Bytes
  spkiAlgorithmDER : Bytes
  deriving DecidableEq, Repr

/-- What the chain verification is asked; time and key usages are fixed by the code. -/
structure VerifyOptions (α : Type) where
  roots : α
  intermediates : α
  dnsName : Bytes

/-! ## Algorithms -/

/-- `crypto.Hash`, as far as `hashForSigAlg` yields one. -/
inductive CryptoHash
  | sha1
  | sha256
  | sha384
  | sha512
  deriving DecidableEq, Repr

/-- `h.New` -/
def CryptoHash.new (h : CryptoHash) (hashes : Hashes) : Hash :=
  match h with
  | .sha1   => hashes.sha1
  | .sha256 => hashes.sha256
  | .sha384 => hashes.sha384
  | .sha512 => hashes.sha512

/-- The curves of `crypto/ecdh`. -/
inductive EcdhCurve
  | p256
  | p384
  | p521
  | x25519
  deriving DecidableEq, Repr

/-- `filippo.io/bigmod`: moduli and residues as the integers they stand for. -/
structure Bigmod where
  newModulus : Bytes → Except Err Nat
  setBytes : Bytes → Nat → Except Err Nat
  setOverflowingBytes : Bytes → Nat → Except Err Nat
  exp : Nat → Bytes → Nat → Nat
  bytes : Nat → Nat → Bytes

/-- The GOST library; a curve is known by its object identifier. -/
structure Gost where
  sboxCryptoProA : Sbox
  sboxTC26Z : Sbox
  kuznyechik : CtrOmacCipher kuznyechikBlockSize
  magma : CtrOmacCipher magmaBlockSize
  curveByOID : List Nat → Except Err (List Nat)
  generateEphemeralKey : List Nat → Entropy → Except Err (Bytes × Bytes) × Entropy
  vko2001OnCurve : List Nat → Bytes → Bytes → Bytes → Except Err Bytes
  vko2012_256OnCurve : List Nat → Bytes → Bytes → Bytes → Except Err Bytes
  keyWrapCryptoPro : Sbox → Bytes → Bytes → Bytes → Except Err Bytes
  keg2012_256 : List Nat → Bytes → Bytes → Bytes → Except Err Bytes
  kexp15Kuznyechik : Bytes → Bytes → Bytes → Bytes → Except Err Bytes
  kexp15Magma : Bytes → Bytes → Bytes → Bytes → Except Err Bytes

/-- Everything the handshake calls that is not in the repository. -/
structure Env where
  hashes : Hashes
  newAESCipher : NewCipherFunc
  newGCM : Bytes → Except Err AEAD
  newChaCha20Poly1305 : Bytes → Except Err AEAD
  bigmod : Bigmod
  gost : Gost
  /-- `curve.NewPublicKey(point)` -/
  ecdhNewPublicKey : EcdhCurve → Bytes → Except Err Bytes
  /-- `curve.GenerateKey(rnd)` -/
  ecdhGenerateKey : EcdhCurve → Entropy → Except Err Bytes × Entropy
  /-- `priv.ECDH(pub)` -/
  ecdhShared : EcdhCurve → Bytes → Bytes → Except Err Bytes
  /-- `priv.PublicKey().Bytes()` -/
  ecdhPublicBytes : EcdhCurve → Bytes → Bytes
  rsaEncryptPKCS1v15 : Bytes → Bytes → Entropy → Except Err Bytes × Entropy
  rsaVerifyPKCS1v15 : Bytes → CryptoHash → Bytes → Bytes → Except Err Unit
  rsaSignPKCS1v15 : Bytes → CryptoHash → Bytes → Entropy → Except Err Bytes × Entropy
  /-- `asn1.Unmarshal(sig, &struct{R, S *big.Int})` with the bytes left over. -/
  unmarshalECDSASignature : Bytes → Except Err ((Int × Int) × Bytes)
  ecdsaVerify : Bytes → Bytes → Int → Int → Bool
  ecdsaSignASN1 : Bytes → Bytes → Entropy → Except Err Bytes × Entropy
  parseX509 : Bytes → Except Err X509Certificate
  verifyX509 : X509Certificate → VerifyOptions (Option (List X509Certificate)) →
    Except Err (List (List X509Certificate))
  parseX509Gost : Bytes → Except Err GostCertificate
  verifyX509Gost : GostCertificate → VerifyOptions (List GostCertificate) →
    Except Err (List (List GostCertificate))

/-- An environment to run concrete handshakes in: keys are accepted as they come, signatures verify, and
    certificates parse to an RSA key. -/
def Env.sample : Env where
  hashes := ⟨.checksum, .checksum, .checksum, .checksum, .checksum, .checksum⟩
  newAESCipher := fun _ => .error (.new "crypto/aes: invalid key size")
  newGCM := fun _ => .ok .tagged
  newChaCha20Poly1305 := fun _ => .ok .tagged
  bigmod :=
    { newModulus := fun b => .ok (ofBE b)
      setBytes := fun b _ => .ok (ofBE b)
      setOverflowingBytes := fun b m => .ok (ofBE b % m)
      exp := fun x e m => x ^ ofBE e % m
      bytes := fun x _ => toBE 1 x }
  gost :=
    { sboxCryptoProA := ⟨fun _ b => b, fun _ b => b, fun _ b => b⟩
      sboxTC26Z := ⟨fun _ b => b, fun _ b => b, fun _ b => b⟩
      kuznyechik := .sample _
      magma := .sample _
      curveByOID := fun oid => .ok oid
      generateEphemeralKey := fun _ r => (.ok ([], []), r)
      vko2001OnCurve := fun _ _ _ _ => .ok []
      vko2012_256OnCurve := fun _ _ _ _ => .ok []
      keyWrapCryptoPro := fun _ _ _ _ => .ok []
      keg2012_256 := fun _ _ _ _ => .ok []
      kexp15Kuznyechik := fun _ _ _ _ => .ok []
      kexp15Magma := fun _ _ _ _ => .ok [] }
  ecdhNewPublicKey := fun _ point => .ok point
  ecdhGenerateKey := fun _ r => (.ok [], r)
  ecdhShared := fun _ _ pub => .ok pub
  ecdhPublicBytes := fun _ _ => []
  rsaEncryptPKCS1v15 := fun _ preMaster r => (.ok preMaster, r)
  rsaVerifyPKCS1v15 := fun _ _ _ _ => .ok ()
  rsaSignPKCS1v15 := fun _ _ digest r => (.ok digest, r)
  unmarshalECDSASignature := fun _ => .ok ((0, 0), [])
  ecdsaVerify := fun _ _ _ _ => true
  ecdsaSignASN1 := fun _ digest r => (.ok digest, r)
  parseX509 := fun raw => .ok ⟨raw, .rsa raw⟩
  verifyX509 := fun cert _ => .ok [[cert]]
  parseX509Gost := fun raw => .ok ⟨⟨raw, .rsa raw⟩, false, false, [], [], []⟩
  verifyX509Gost := fun cert _ => .ok [[cert]]

/-! ## Randomness -/

/-- The two readers of a handshake: the configured one, which is the system's when absent, and the
    system's. -/
structure Rands where
  config : Option Entropy
  system : Entropy

/-- Randomness that is all zeros. -/
def Rands.zeros : Rands := ⟨none, ⟨fun _ => .ok 0, 0⟩⟩

/-- Programs that draw randomness. -/
abbrev RandM := EStateM Err Rands

namespace RandM

/-- Hand the system's reader to `f`. -/
def withSystem {α : Type} (f : Entropy → Except Err α × Entropy) : RandM α := fun r =>
  match f r.system with
  | (.ok a, system)    => .ok a { r with system }
  | (.error e, system) => .error e { r with system }

/-- Hand the configured reader to `f`. -/
def withConfig {α : Type} (f : Entropy → Except Err α × Entropy) : RandM α := fun r =>
  match r.config with
  | none => withSystem f r
  | some config =>
    match f config with
    | (.ok a, config)    => .ok a { r with config := some config }
    | (.error e, config) => .error e { r with config := some config }

theorem withSystem_ok {α : Type} {f : Entropy → Except Err α × Entropy} {r r' : Rands} {a : α}
    (h : withSystem f r = .ok a r') : ∃ e e', f e = (.ok a, e') := by
  unfold withSystem at h
  split at h
  · rename_i hf
    cases h
    exact ⟨_, _, hf⟩
  · cases h

/-- Either way `f` was given one of the readers. -/
theorem withConfig_ok {α : Type} {f : Entropy → Except Err α × Entropy} {r r' : Rands} {a : α}
    (h : withConfig f r = .ok a r') : ∃ e e', f e = (.ok a, e') := by
  unfold withConfig at h
  split at h
  · exact withSystem_ok h
  · split at h
    · rename_i hf
      cases h
      exact ⟨_, _, hf⟩
    · cases h

/-- `io.ReadFull(rnd, make([]byte, n))` -/
def readFull (n : Nat) (e : Entropy) : Except Err Bytes × Entropy :=
  match e.read n with
  | (.ok b, e)      => (.ok b, e)
  | (.error err, e) => (.error (.stream err), e)

theorem readFull_length {n : Nat} {e e' : Entropy} {b : Bytes} (h : readFull n e = (.ok b, e')) :
    b.length = n := by
  unfold readFull at h
  split at h
  · rename_i hread
    cases h
    exact Entropy.read_length hread
  · cases h

/-- `if err != nil { return …, wrap(err) }` -/
def mapErr {α : Type} (wrap : Err → Err) (m : RandM α) : RandM α := fun r =>
  match m r with
  | .ok a r         => .ok a r
  | .error .panic r => .error .panic r
  | .error e r      => .error (wrap e) r

theorem mapErr_returns {α : Type} {wrap : Err → Err} {m : RandM α} {a : α} {r r' : Rands}
    (h : mapErr wrap m r = .ok a r') : m r = .ok a r' := by
  unfold mapErr at h
  split at h
  · rename_i hm
    cases h
    exact hm
  · cases h
  · cases h

end RandM

end Gostls
