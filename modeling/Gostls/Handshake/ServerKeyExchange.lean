import Gostls.Handshake.State
import Gostls.Ke.Dhe
import Gostls.Ke.Ecdhe

/-!
# `Gostls.Handshake.ServerKeyExchange` — verifying the server's key-exchange parameters

The handshake walks a ServerKeyExchange body to find where the parameters end, checks the signature
over them, and hands them on as bytes; the key exchange then parses those bytes again, with a parser of
its own. `signed_params_are_used` says that the two agree: the second parser finds the very fields the
signature covers, and nothing else. The walk stops at the signature; `serverKeyExchange_grammar_iff` says
that a body is of the grammar when it ends there too.
-/

namespace Gostls

open Lib

/-! ## Signature algorithms -/

def sigHashByte : UInt8 := 0x04
def sigHashSHA384 : UInt8 := 0x05
def sigHashSHA1 : UInt8 := 0x02
def sigHashSHA512 : UInt8 := 0x06
def sigAlgRSA : UInt8 := 0x01
def sigAlgECDSA : UInt8 := 0x03

/-- What the client offers in its signature_algorithms extension, in order of preference. -/
def clientSigAlgsAdvertised : List SigAndHash :=
  [⟨sigHashByte, sigAlgRSA⟩, ⟨sigHashSHA384, sigAlgRSA⟩, ⟨sigHashByte, sigAlgECDSA⟩,
   ⟨sigHashSHA384, sigAlgECDSA⟩]

def sigAlgAdvertised (hashAlg sigAlg : UInt8) : Bool :=
  clientSigAlgsAdvertised.any (fun a => a.hash = hashAlg ∧ a.sig = sigAlg)

/-- The algorithm is the one the suite authenticates with. -/
def skeSigAlgMatchesAuth (sigAlg : UInt8) : AuthKind → Bool
  | .rsa   => sigAlg = sigAlgRSA
  | .ecdsa => sigAlg = sigAlgECDSA
  | .anonymous | .gost2001 | .gost2012_256 => false

/-! ## Errors -/

def errUnexpectedSKE : Err := .new "tls: unexpected ServerKeyExchange for suite"
def errECDHESKETooShort : Err := .new "tls: ECDHE ServerKeyExchange too short"
def errECDHEUnsupportedCT : Err := .new "tls: ECDHE ServerKeyExchange: unsupported curve_type"
def errECDHEBodyTruncated : Err := .new "tls: ECDHE ServerKeyExchange: body truncated after point"
def errECDHESigSectionShort : Err := .new "tls: ECDHE ServerKeyExchange: signature section too short"
def errECDHESigTruncated : Err := .new "tls: ECDHE ServerKeyExchange: signature truncated"
def errDHESigSectionShort : Err := .new "tls: DHE ServerKeyExchange: signature section too short"
def errDHESigTruncated : Err := .new "tls: DHE ServerKeyExchange: signature truncated"
def errSKEUnadvertisedSigAlg : Err :=
  .new "tls: ServerKeyExchange signature algorithm not offered by client"
def errSKESigAuthMismatch : Err :=
  .new "tls: ServerKeyExchange signature algorithm does not match the suite's authentication kind"
def errU16PrefixTruncated : Err := .new "truncated: need 2 bytes for length prefix"
def errU16BodyTruncated : Err := .new "truncated: body too short"
def errCertNotRSA : Err := .new "cert public key is not RSA"
def errCertNotECDSA : Err := .new "cert public key is not ECDSA"
def errUnsupportedSigAlg : Err := .new "unsupported signature algorithm"
def errUnsupportedHashAlg : Err := .new "unsupported hash algorithm"
def errECDSATrailingBytes : Err := .new "ecdsa: trailing bytes in signature"
def errECDSAVerifyFailed : Err := .new "ecdsa: signature verification failed"

/-! ## Signatures -/

def hashForSigAlg (hashByte : UInt8) : Except Err CryptoHash :=
  if hashByte = sigHashSHA1 then .ok .sha1
  else if hashByte = sigHashByte then .ok .sha256
  else if hashByte = sigHashSHA384 then .ok .sha384
  else if hashByte = sigHashSHA512 then .ok .sha512
  else .error (errUnsupportedHashAlg.detail (" 0x" ++ hex02 hashByte))

def verifyRSASignature (env : Env) (pub : Bytes) (hashAlg : UInt8) (digest sig : Bytes) :
    Except Err Unit := do
  let cryptoHash ← hashForSigAlg hashAlg
  env.rsaVerifyPKCS1v15 pub cryptoHash digest sig

def verifyECDSASignature (env : Env) (pub digest sig : Bytes) : Except Err Unit := do
  let ((r, s), rest) ← annotate "ecdsa: parse signature" (env.unmarshalECDSASignature sig)
  if rest.length ≠ 0 then throw errECDSATrailingBytes
  if !env.ecdsaVerify pub digest r s then throw errECDSAVerifyFailed

/-- A TLS 1.2 signature over `signed`, under the certificate's key. -/
def verifySignature (env : Env) (cert : X509Certificate) (hashAlg sigAlg : UInt8)
    (signed sig : Bytes) : Except Err Unit := do
  let cryptoHash ← hashForSigAlg hashAlg
  let digest := (cryptoHash.new env.hashes).sum signed
  if sigAlg = sigAlgRSA then
    match cert.publicKey with
    | .rsa pub => verifyRSASignature env pub hashAlg digest sig
    | key      => throw (errCertNotRSA.detail (" (got " ++ key.goType ++ ")"))
  else if sigAlg = sigAlgECDSA then
    match cert.publicKey with
    | .ecdsa pub => verifyECDSASignature env pub digest sig
    | key        => throw (errCertNotECDSA.detail (" (got " ++ key.goType ++ ")"))
  else throw (errUnsupportedSigAlg.detail (" 0x" ++ hex02 sigAlg))

/-! ## What a signature shows -/

/-- A signature algorithm is that of a suite's authentication. -/
inductive Authenticates : AuthKind → UInt8 → Prop
  | rsa : Authenticates .rsa sigAlgRSA
  | ecdsa : Authenticates .ecdsa sigAlgECDSA

theorem skeSigAlgMatchesAuth_iff {sigAlg : UInt8} {auth : AuthKind} :
    skeSigAlgMatchesAuth sigAlg auth = true ↔ Authenticates auth sigAlg := by
  constructor
  · intro h
    cases auth with
    | rsa =>
        obtain rfl : sigAlg = sigAlgRSA := of_decide_eq_true h
        exact .rsa
    | ecdsa =>
        obtain rfl : sigAlg = sigAlgECDSA := of_decide_eq_true h
        exact .ecdsa
    | anonymous | gost2001 | gost2012_256 => cases h
  · rintro (_ | _) <;> rfl

/-- **A digest is signed** under a public key: the primitive of the algorithm accepts the signature. One of
    ECDSA is a pair of numbers with nothing behind it. -/
inductive SignsDigest (env : Env) (cryptoHash : CryptoHash) (digest sig : Bytes) : PublicKey → UInt8 → Prop
  | rsa {pub : Bytes} (hverify : env.rsaVerifyPKCS1v15 pub cryptoHash digest sig = .ok ()) :
      SignsDigest env cryptoHash digest sig (.rsa pub) sigAlgRSA
  | ecdsa {pub : Bytes} {r s : Int} (hsig : env.unmarshalECDSASignature sig = .ok ((r, s), []))
      (hverify : env.ecdsaVerify pub digest r s = true) :
      SignsDigest env cryptoHash digest sig (.ecdsa pub) sigAlgECDSA

/-- **A text is signed** by the key of a certificate: its digest is, under the hash that was named. -/
def SignedBy (env : Env) (cert : X509Certificate) (hashAlg sigAlg : UInt8) (signed sig : Bytes) : Prop :=
  ∃ cryptoHash, hashForSigAlg hashAlg = .ok cryptoHash ∧
    SignsDigest env cryptoHash ((cryptoHash.new env.hashes).sum signed) sig cert.publicKey sigAlg

theorem verifyECDSASignature_ok_iff {env : Env} {pub digest sig : Bytes} :
    verifyECDSASignature env pub digest sig = .ok () ↔ ∃ r s,
      env.unmarshalECDSASignature sig = .ok ((r, s), []) ∧ env.ecdsaVerify pub digest r s = true := by
  unfold verifyECDSASignature
  constructor
  · intro h
    obtain ⟨⟨⟨r, s⟩, rest⟩, hsig, hrest⟩ := bind_eq_ok.mp h
    dsimp only at hrest
    split at hrest
    · cases hrest
    rename_i hempty
    obtain rfl := List.length_eq_zero_iff.mp (not_not.mp hempty)
    split at hrest
    · cases hrest
    rename_i hverify
    exact ⟨r, s, mapErr_eq_ok.mp hsig, by simpa using hverify⟩
  · rintro ⟨r, s, hsig, hverify⟩
    simp [hsig, hverify, pure_eq]

/-- **What `verifySignature` accepts** is signed, and it accepts all that is. -/
theorem verifySignature_ok_iff {env : Env} {cert : X509Certificate} {hashAlg sigAlg : UInt8}
    {signed sig : Bytes} :
    verifySignature env cert hashAlg sigAlg signed sig = .ok () ↔
      SignedBy env cert hashAlg sigAlg signed sig := by
  unfold verifySignature SignedBy
  constructor
  · intro h
    obtain ⟨cryptoHash, hhash, hkey⟩ := bind_eq_ok.mp h
    refine ⟨cryptoHash, hhash, ?_⟩
    dsimp only at hkey
    split at hkey
    · rename_i halg
      obtain rfl := halg
      cases hpub : cert.publicKey with
      | rsa pub =>
          rw [hpub] at hkey
          dsimp only [verifyRSASignature] at hkey
          rw [hhash, ok_bind] at hkey
          exact .rsa hkey
      | _ =>
          rw [hpub] at hkey
          cases hkey
    · split at hkey
      · rename_i halg
        obtain rfl := halg
        cases hpub : cert.publicKey with
        | ecdsa pub =>
            rw [hpub] at hkey
            obtain ⟨r, s, hsig, hverify⟩ := verifyECDSASignature_ok_iff.mp hkey
            exact .ecdsa hsig hverify
        | _ =>
            rw [hpub] at hkey
            cases hkey
      · cases hkey
  · rintro ⟨cryptoHash, hhash, hdigest⟩
    rw [hhash, ok_bind]
    generalize hpub : cert.publicKey = pub at hdigest
    cases hdigest with
    | rsa hverify =>
        rw [if_pos rfl]
        dsimp only [verifyRSASignature]
        rw [hhash, ok_bind, hverify]
    | ecdsa hsig hverify =>
        rw [if_neg (by decide), if_pos rfl]
        exact verifyECDSASignature_ok_iff.mpr ⟨_, _, hsig, hverify⟩

/-! ## The message -/

/-- What both kinds of ServerKeyExchange end with: the algorithm, a 2-byte length and the signature. The
    kinds differ in the texts of their errors. Bytes behind the signature are ignored. -/
def verifySignedParams (env : Env) (kind : String) (errSectionShort errTruncated : Err)
    (cert : X509Certificate) (serverParams sigData : Bytes) : HsM Bytes := do
  fatalIf (sigData.length < 4) alertHandshakeFailure errSectionShort
  let hashAlg ← index sigData 0
  let sigAlg ← index sigData 1
  let hi ← index sigData 2
  let lo ← index sigData 3
  let sigLen := ofBE [hi, lo]
  fatalIf (sigData.length < 4 + sigLen) alertHandshakeFailure errTruncated
  let sig ← slice sigData 4 (4 + sigLen)
  fatalIf (!sigAlgAdvertised hashAlg sigAlg) alertIllegalParameter
    (errSKEUnadvertisedSigAlg.detail (": hash=0x" ++ hex02 hashAlg ++ " sig=0x" ++ hex02 sigAlg))
  let suite ← getSuite
  fatalIf (!skeSigAlgMatchesAuth sigAlg suite.auth) alertIllegalParameter
    (errSKESigAuthMismatch.detail (": sig=0x" ++ hex02 sigAlg ++ " suite=" ++ suite.name))
  let s ← get
  let signed := s.clientRandom.val ++ s.serverRandom.val ++ serverParams
  orFatal alertDecryptError (.errorf ("tls: " ++ kind ++ " ServerKeyExchange signature verification"))
    (compute (verifySignature env cert hashAlg sigAlg signed sig))
  return serverParams

/-- The shortest body that holds a curve and the length of a point. -/
def minECDHEBodyLen : Nat := 4

def verifyECDHEServerKeyExchange (env : Env) (body : Bytes) (cert : X509Certificate) : HsM Bytes := do
  fatalIf (body.length < minECDHEBodyLen) alertHandshakeFailure
    (errECDHESKETooShort.detail (": " ++ toString body.length ++ " bytes"))
  let curveType ← index body 0
  fatalIf (curveType ≠ ecdheCurveTypeNamed) alertHandshakeFailure
    (errECDHEUnsupportedCT.detail (" " ++ toString curveType))
  let _namedCurve ← slice body 1 3
  let len ← index body 3
  let pointLen := len.toNat
  fatalIf (body.length < minECDHEBodyLen + pointLen + 2) alertHandshakeFailure errECDHEBodyTruncated
  let serverParams ← sliceTo body (minECDHEBodyLen + pointLen)
  let sigData ← sliceFrom body (minECDHEBodyLen + pointLen)
  verifySignedParams env "ECDHE" errECDHESigSectionShort errECDHESigTruncated cert serverParams sigData

/-- Skip a field behind a 2-byte length. -/
def readU16LenPrefixedBuf (buf : Bytes) : Except Err Bytes := do
  if buf.length < 2 then throw (errU16PrefixTruncated.detail (", have " ++ toString buf.length))
  let hi ← index buf 0
  let lo ← index buf 1
  let n := ofBE [hi, lo]
  let buf ← sliceFrom buf 2
  if buf.length < n then
    throw (errU16BodyTruncated.detail
      (": need " ++ toString n ++ " bytes, have " ++ toString buf.length))
  sliceFrom buf n

def verifyDHEServerKeyExchange (env : Env) (body : Bytes) (cert : X509Certificate) : HsM Bytes := do
  let rest ← orFatal alertHandshakeFailure (.errorf "tls: DHE ServerKeyExchange: parse dh_p")
    (compute (readU16LenPrefixedBuf body))
  let rest ← orFatal alertHandshakeFailure (.errorf "tls: DHE ServerKeyExchange: parse dh_g")
    (compute (readU16LenPrefixedBuf rest))
  let rest ← orFatal alertHandshakeFailure (.errorf "tls: DHE ServerKeyExchange: parse dh_Ys")
    (compute (readU16LenPrefixedBuf rest))
  let serverParamsLen ← sliceBound (body.length - rest.length)
  let serverParams ← sliceTo body serverParamsLen
  verifySignedParams env "DHE" errDHESigSectionShort errDHESigTruncated cert serverParams rest

/-- The parameters of a ServerKeyExchange, if the suite has one and the server signed it. -/
def verifyServerKeyExchange (env : Env) (body : Bytes) (cert : X509Certificate) : HsM Bytes := do
  let suite ← getSuite
  match suite.kx with
  | .ecdhe => verifyECDHEServerKeyExchange env body cert
  | .dhe   => verifyDHEServerKeyExchange env body cert
  | _      =>
    fatal alertHandshakeFailure (errUnexpectedSKE.detail
      (" (suite " ++ suite.name ++ ", KX=" ++ toString suite.kx.code ++ ")"))

/-! ## What is signed is what is used -/

/-- `serverParams` is a part of `body` that the server signed, with an algorithm the client offered and
    the suite authenticates with; the signature covers both randoms and nothing else of the body. -/
def Signed (env : Env) (cert : X509Certificate) (s : ClientState) (body serverParams : Bytes) : Prop :=
  ∃ hashAlg sigAlg sig trailing suite,
    body = serverParams ++ (hashAlg :: sigAlg :: (encodeU16 sig ++ trailing)) ∧
    ⟨hashAlg, sigAlg⟩ ∈ clientSigAlgsAdvertised ∧
    s.suite = some suite ∧ Authenticates suite.auth sigAlg ∧
    SignedBy env cert hashAlg sigAlg (s.clientRandom.val ++ s.serverRandom.val ++ serverParams) sig

/-- What stands behind the parameters: an algorithm, a signature behind its length, and `trailing`. -/
def SignatureSection (sigData trailing : Bytes) : Prop :=
  ∃ hashAlg sigAlg sig, sig.length < 65536 ∧
    sigData = hashAlg :: sigAlg :: (encodeU16 sig ++ trailing)

theorem mem_of_sigAlgAdvertised {hashAlg sigAlg : UInt8} (h : sigAlgAdvertised hashAlg sigAlg = true) :
    ⟨hashAlg, sigAlg⟩ ∈ clientSigAlgsAdvertised := by
  obtain ⟨⟨a, b⟩, hmem, hab⟩ := List.any_eq_true.mp h
  obtain ⟨rfl, rfl⟩ := of_decide_eq_true hab
  exact hmem

section

variable {env : Env} {E : Err → ClientState → Prop} {s : ClientState}

theorem verifySignedParams_spec (hx : Exits E s) (kind : String) (errSectionShort errTruncated : Err)
    (cert : X509Certificate) (serverParams sigData : Bytes) :
    wp (verifySignedParams env kind errSectionShort errTruncated cert serverParams sigData)
      (fun p s' => s' = s ∧ p = serverParams ∧ Signed env cert s (serverParams ++ sigData) serverParams ∧
        ∃ trailing, SignatureSection sigData trailing) E s := by
  unfold verifySignedParams
  rw [wp_bind]
  apply wp_fatalIf hx
  intro hmin
  match sigData, hmin with
  | hashAlg :: sigAlg :: hi :: lo :: tail, _ =>
      simp only [index_cons_zero, index_cons_succ, liftM_eq, compute_ok, pure_bind]
      rw [wp_bind]
      apply wp_fatalIf hx
      intro hlen
      have hle : ofBE [hi, lo] ≤ tail.length := by
        simp only [List.length_cons] at hlen
        omega
      rw [slice_eq (by omega) (by simp only [List.length_cons]; omega)]
      have hsig : ((hashAlg :: sigAlg :: hi :: lo :: tail).take (4 + ofBE [hi, lo])).drop 4 =
          tail.take (ofBE [hi, lo]) := by
        simp [Nat.add_comm 4]
      simp only [hsig, compute_ok, pure_bind]
      rw [wp_bind]
      apply wp_fatalIf hx
      intro hadv
      rw [wp_bind]
      apply wp_getSuite hx
      intro suite hsuite
      rw [wp_bind]
      apply wp_fatalIf hx
      intro hauth
      rw [wp_bind, wp_get, wp_bind]
      apply wp_orFatal_compute hx
      intro _ hverify
      -- The signature is the first `ofBE [hi, lo]` bytes of the tail, the rest is ignored.
      obtain ⟨hshort, hsection⟩ := encodeU16_front hle
      refine ⟨rfl, rfl, ⟨hashAlg, sigAlg, _, tail.drop (ofBE [hi, lo]), suite, ?_,
        mem_of_sigAlgAdvertised (by simpa using hadv), hsuite,
        skeSigAlgMatchesAuth_iff.mp (by simpa using hauth), verifySignature_ok_iff.mp hverify⟩,
        tail.drop (ofBE [hi, lo]), hashAlg, sigAlg, _, hshort, ?_⟩
      · rw [hsection]
      · rw [hsection]
  | [], h | [_], h | [_, _], h | [_, _, _], h => exact absurd (by simp) h

/-- **ECDHE.** -/
theorem verifyECDHEServerKeyExchange_spec (hx : Exits E s) (body : Bytes) (cert : X509Certificate) :
    wp (verifyECDHEServerKeyExchange env body cert)
      (fun p s' => s' = s ∧ Signed env cert s body p ∧
        (∃ sigData trailing, body = p ++ sigData ∧ SignatureSection sigData trailing) ∧
        ∃ hi lo len point, p = ecdheCurveTypeNamed :: hi :: lo :: len :: point ∧
          point.length = len.toNat) E s := by
  unfold verifyECDHEServerKeyExchange
  rw [wp_bind]
  apply wp_fatalIf hx
  intro hmin
  match body, hmin with
  | curveType :: hi :: lo :: len :: tail, _ =>
      simp only [index_cons_zero, index_cons_succ, liftM_eq, compute_ok, pure_bind]
      rw [wp_bind]
      apply wp_fatalIf hx
      intro htype
      obtain rfl : curveType = ecdheCurveTypeNamed := not_not.mp htype
      have hcurve : slice (ecdheCurveTypeNamed :: hi :: lo :: len :: tail) 1 3 = .ok [hi, lo] :=
        slice_eq (by decide) (by simp)
      simp only [hcurve, compute_ok, pure_bind]
      rw [wp_bind]
      apply wp_fatalIf hx
      intro hlen
      simp only [List.length_cons, minECDHEBodyLen] at hlen
      rw [sliceTo_eq (by simp only [List.length_cons, minECDHEBodyLen]; omega),
        sliceFrom_eq (by simp only [List.length_cons, minECDHEBodyLen]; omega)]
      simp only [compute_ok, pure_bind]
      apply wp.imp (verifySignedParams_spec hx _ _ _ cert _ _)
      rintro p s' ⟨rfl, rfl, hsigned, trailing, hsection⟩
      rw [List.take_append_drop] at hsigned
      refine ⟨rfl, hsigned, ⟨_, trailing, (List.take_append_drop ..).symm, hsection⟩, hi, lo, len,
        tail.take len.toNat, ?_, ?_⟩
      · simp [minECDHEBodyLen, Nat.add_comm 4]
      · rw [List.length_take]
        omega
  | [], h | [_], h | [_, _], h | [_, _, _], h => exact absurd (by simp [minECDHEBodyLen]) h

/-- What the handshake's own reader skipped is a field, as the exchange's reader knows it. -/
theorem readU16LenPrefixedBuf_ok {buf rest : Bytes} (h : readU16LenPrefixedBuf buf = .ok rest) :
    ∃ x, x.length < 65536 ∧ buf = encodeU16 x ++ rest := by
  unfold readU16LenPrefixedBuf at h
  split at h
  · cases h
  · rename_i hmin
    match buf, hmin with
    | hi :: lo :: tail, _ =>
        have hdrop : sliceFrom (hi :: lo :: tail) 2 = .ok tail := by
          rw [sliceFrom_eq (by simp)]
          rfl
        simp only [index_cons_zero, index_cons_succ, ok_bind, hdrop] at h
        split at h
        · cases h
        · rename_i hfull
          obtain ⟨-, rfl⟩ := sliceFrom_ok h
          exact ⟨_, encodeU16_front (Nat.not_lt.mp hfull)⟩
    | [], h | [_], h => exact absurd (by simp) h

/-- **DHE.** -/
theorem verifyDHEServerKeyExchange_spec (hx : Exits E s) (body : Bytes) (cert : X509Certificate) :
    wp (verifyDHEServerKeyExchange env body cert)
      (fun params s' => s' = s ∧ Signed env cert s body params ∧
        (∃ sigData trailing, body = params ++ sigData ∧ SignatureSection sigData trailing) ∧
        ∃ p g ys rest₁ rest₂ rest₃,
        (readU16LenPrefixedBuf body = .ok rest₁ ∧ body = encodeU16 p ++ rest₁) ∧
        (readU16LenPrefixedBuf rest₁ = .ok rest₂ ∧ rest₁ = encodeU16 g ++ rest₂) ∧
        (readU16LenPrefixedBuf rest₂ = .ok rest₃ ∧ rest₂ = encodeU16 ys ++ rest₃) ∧
        p.length < 65536 ∧ g.length < 65536 ∧ ys.length < 65536 ∧
        params = encodeU16 p ++ (encodeU16 g ++ encodeU16 ys)) E s := by
  unfold verifyDHEServerKeyExchange
  -- The three fields, one after the other.
  rw [wp_bind]
  apply wp_orFatal_compute hx
  intro rest₁ h₁
  rw [wp_bind]
  apply wp_orFatal_compute hx
  intro rest₂ h₂
  rw [wp_bind]
  apply wp_orFatal_compute hx
  intro rest₃ h₃
  obtain ⟨p, hp, rfl⟩ := readU16LenPrefixedBuf_ok h₁
  obtain ⟨g, hg, rfl⟩ := readU16LenPrefixedBuf_ok h₂
  obtain ⟨ys, hys, rfl⟩ := readU16LenPrefixedBuf_ok h₃
  -- What is left of the body when the last field is skipped are the parameters.
  have hsplit : encodeU16 p ++ (encodeU16 g ++ (encodeU16 ys ++ rest₃)) =
      (encodeU16 p ++ (encodeU16 g ++ encodeU16 ys)) ++ rest₃ := by
    simp only [List.append_assoc]
  have hparams : sliceTo (encodeU16 p ++ (encodeU16 g ++ (encodeU16 ys ++ rest₃)))
      ((encodeU16 p ++ (encodeU16 g ++ (encodeU16 ys ++ rest₃))).length - rest₃.length) =
      .ok (encodeU16 p ++ (encodeU16 g ++ encodeU16 ys)) := by
    rw [sliceTo_eq (by omega), hsplit, List.length_append, Nat.add_sub_cancel, List.take_left]
  have hle : rest₃.length ≤ (encodeU16 p ++ (encodeU16 g ++ (encodeU16 ys ++ rest₃))).length := by
    rw [hsplit, List.length_append]
    exact Nat.le_add_left ..
  simp only [sliceBound_sub hle, hparams, liftM_eq, compute_ok, pure_bind]
  apply wp.imp (verifySignedParams_spec hx _ _ _ cert _ _)
  rintro params s' ⟨rfl, rfl, hsigned, trailing, hsection⟩
  rw [← hsplit] at hsigned
  exact ⟨rfl, hsigned, ⟨rest₃, trailing, hsplit, hsection⟩, p, g, ys, _, _, _, ⟨h₁, rfl⟩, ⟨h₂, rfl⟩,
    ⟨h₃, rfl⟩, hp, hg, hys, rfl⟩

/-- A ServerKeyExchange is only accepted for a suite that needs one. -/
theorem verifyServerKeyExchange_spec (hx : Exits E s) (body : Bytes) (cert : X509Certificate) :
    wp (verifyServerKeyExchange env body cert)
      (fun _ s' => s' = s ∧ ∃ suite, s.suite = some suite ∧ (suite.kx = .ecdhe ∨ suite.kx = .dhe))
      E s := by
  unfold verifyServerKeyExchange
  rw [wp_bind]
  apply wp_getSuite hx
  intro suite hsuite
  split
  · rename_i hkx
    apply wp.imp (verifyECDHEServerKeyExchange_spec hx body cert)
    rintro _ s' ⟨rfl, -⟩
    exact ⟨rfl, suite, hsuite, .inl hkx⟩
  · rename_i hkx
    apply wp.imp (verifyDHEServerKeyExchange_spec hx body cert)
    rintro _ s' ⟨rfl, -⟩
    exact ⟨rfl, suite, hsuite, .inr hkx⟩
  · exact wp_fatal.mpr (hx.fatal _ _)

end

/-- **What is signed is what is used.** The parameters of an accepted ServerKeyExchange are signed, and
    the parser of the key exchange finds in them the fields the handshake walked over, up to the last
    byte: for ECDHE it is left with the agreement on the curve and the point, for DHE with the prime, the
    generator and the server's share. -/
theorem signed_params_are_used (env : Env) (cert : X509Certificate) (s s' : ClientState)
    (body params : Bytes) :
    (verifyECDHEServerKeyExchange env body cert s = .ok params s' →
      Signed env cert s body params ∧ ∃ hi lo len point,
        params = ecdheCurveTypeNamed :: hi :: lo :: len :: point ∧ point.length = len.toNat ∧
        ecdhClientKeyExchange env params =
          (compute (curveByID (uint16Of hi lo)) >>= fun curve => ecdhAgree env curve point)) ∧
    (verifyDHEServerKeyExchange env body cert s = .ok params s' →
      Signed env cert s body params ∧ ∃ p g ys rest₁ rest₂ rest₃,
        (readU16LenPrefixedBuf body = .ok rest₁ ∧ body = encodeU16 p ++ rest₁) ∧
        (readU16LenPrefixedBuf rest₁ = .ok rest₂ ∧ rest₁ = encodeU16 g ++ rest₂) ∧
        (readU16LenPrefixedBuf rest₂ = .ok rest₃ ∧ rest₂ = encodeU16 ys ++ rest₃) ∧
        params = encodeU16 p ++ (encodeU16 g ++ encodeU16 ys) ∧
        parseDHEServerParams params = .ok (p, g, ys)) := by
  have hany : Exits (fun _ _ => True) s := ⟨trivial, fun _ _ => trivial⟩
  constructor
  · intro h
    obtain ⟨-, hsigned, -, hi, lo, len, point, rfl, hlen⟩ :=
      (verifyECDHEServerKeyExchange_spec hany body cert).ok h
    exact ⟨hsigned, hi, lo, len, point, rfl, hlen, ecdhClientKeyExchange_eq env hi lo len hlen⟩
  · intro h
    obtain ⟨-, hsigned, -, p, g, ys, rest₁, rest₂, rest₃, h₁, h₂, h₃, hp, hg, hys, rfl⟩ :=
      (verifyDHEServerKeyExchange_spec hany body cert).ok h
    exact ⟨hsigned, p, g, ys, rest₁, rest₂, rest₃, h₁, h₂, h₃, rfl,
      parseDHEServerParams_ok_iff.mpr ⟨hp, hg, hys, rfl⟩⟩

/-- A client that has negotiated this suite. -/
def ClientState.sample (suite : Option Suite) : ClientState :=
  { newClientState (newLayer [] ⟨[], []⟩ ⟨fun _ => .ok 0, 0⟩) none .sample with suite }

set_option maxRecDepth 4000 in
/-- A one-byte point on P-256, and one-byte Diffie-Hellman parameters. -/
theorem signed_params_are_used_both_kinds :
    Signed .sample ⟨[], .rsa []⟩ (.sample (lookup Env.sample.hashes 0xC02F))
      [3, 0, 0x17, 1, 9, 4, 1, 0, 0] [3, 0, 0x17, 1, 9] ∧
    Signed .sample ⟨[], .rsa []⟩ (.sample (lookup Env.sample.hashes 0x009E))
      [0, 1, 23, 0, 1, 2, 0, 1, 3, 4, 1, 0, 0] [0, 1, 23, 0, 1, 2, 0, 1, 3] := by
  constructor
  · exact ((signed_params_are_used .sample ⟨[], .rsa []⟩ _ (.sample (lookup Env.sample.hashes 0xC02F))
      [3, 0, 0x17, 1, 9, 4, 1, 0, 0] [3, 0, 0x17, 1, 9]).1 rfl).1
  · exact ((signed_params_are_used .sample ⟨[], .rsa []⟩ _ (.sample (lookup Env.sample.hashes 0x009E))
      [0, 1, 23, 0, 1, 2, 0, 1, 3, 4, 1, 0, 0] [0, 1, 23, 0, 1, 2, 0, 1, 3]).2 rfl).1

/-! ## Where the message ends -/

/-- The number in the two bytes at `i`. -/
def uint16At (body : Bytes) (i : Nat) : Nat := ofBE ((body.drop i).take 2)

/-- Where the signature ends that stands behind parameters of `paramsLen` bytes. -/
def signatureEnd (body : Bytes) (paramsLen : Nat) : Nat := paramsLen + 4 + uint16At body (paramsLen + 2)

/-- Where the fields of an ECDHE body end, by the lengths in it. -/
def ecdheEnd (body : Bytes) : Nat :=
  signatureEnd body (minECDHEBodyLen + ofBE ((body.drop 3).take 1))

def skipU16 (body : Bytes) (i : Nat) : Nat := i + (2 + uint16At body i)

/-- Where the fields of a DHE body end, by the lengths in it. -/
def dheEnd (body : Bytes) : Nat := signatureEnd body (skipU16 body (skipU16 body (skipU16 body 0)))

/-- `curve_type = 3 || named_curve || point<len8> || hash || sig || signature<len16>` -/
def ECDHEGrammar (body : Bytes) : Prop :=
  ∃ hi lo point hashAlg sigAlg sig, point.length < 256 ∧ sig.length < 65536 ∧
    body = ecdheCurveTypeNamed :: hi :: lo :: (toBE 1 point.length ++ (point ++
      (hashAlg :: sigAlg :: encodeU16 sig)))

/-- `dh_p<len16> || dh_g<len16> || dh_Ys<len16> || hash || sig || signature<len16>` -/
def DHEGrammar (body : Bytes) : Prop :=
  ∃ p g ys hashAlg sigAlg sig, p.length < 65536 ∧ g.length < 65536 ∧ ys.length < 65536 ∧
    sig.length < 65536 ∧ body = encodeU16 p ++ (encodeU16 g ++ (encodeU16 ys ++
      (hashAlg :: sigAlg :: encodeU16 sig)))

theorem uint16At_append {x : Bytes} (hx : x.length < 65536) {a : Bytes} {i : Nat} (hi : i = a.length)
    (c : Bytes) : uint16At (a ++ (encodeU16 x ++ c)) i = x.length := by
  subst hi
  rw [uint16At, List.drop_left, encodeU16, List.append_assoc, List.take_left' (toBE_length 2 _)]
  exact ofBE_toBE_of_lt hx

theorem encodeU16_length (x : Bytes) : (encodeU16 x).length = 2 + x.length := by
  rw [encodeU16, List.length_append, toBE_length]

theorem skipU16_append {x : Bytes} (hx : x.length < 65536) {a : Bytes} {i : Nat} (hi : i = a.length)
    (c : Bytes) : skipU16 (a ++ (encodeU16 x ++ c)) i = (a ++ encodeU16 x).length := by
  rw [skipU16, uint16At_append hx hi, hi, List.length_append, encodeU16_length]

/-- Whether anything trails the signature shows in the lengths. -/
theorem signatureEnd_iff {params sigData trailing : Bytes} (h : SignatureSection sigData trailing) :
    (params ++ sigData).length = signatureEnd (params ++ sigData) params.length ↔ trailing = [] := by
  obtain ⟨hashAlg, sigAlg, sig, hsig, rfl⟩ := h
  have hat : uint16At (params ++ hashAlg :: sigAlg :: (encodeU16 sig ++ trailing)) (params.length + 2) =
      sig.length := by
    have := uint16At_append hsig (a := params ++ [hashAlg, sigAlg]) (i := params.length + 2) (by simp)
      trailing
    rwa [List.append_assoc] at this
  rw [signatureEnd, hat, ← List.length_eq_zero_iff]
  simp only [List.length_append, List.length_cons, encodeU16_length]
  omega

theorem ecdheEnd_iff {hi lo len : UInt8} {point sigData trailing : Bytes} (hlen : point.length = len.toNat)
    (h : SignatureSection sigData trailing) :
    (ecdheCurveTypeNamed :: hi :: lo :: len :: point ++ sigData).length =
      ecdheEnd (ecdheCurveTypeNamed :: hi :: lo :: len :: point ++ sigData) ↔ trailing = [] := by
  have hparams : minECDHEBodyLen + ofBE (([ecdheCurveTypeNamed, hi, lo, len].drop 3).take 1) =
      (ecdheCurveTypeNamed :: hi :: lo :: len :: point).length := by
    show 4 + (0 * 256 + len.toNat) = point.length + 4
    omega
  rw [← signatureEnd_iff h, ← hparams]
  rfl

theorem dheEnd_iff {p g ys sigData trailing : Bytes} (hp : p.length < 65536) (hg : g.length < 65536)
    (hys : ys.length < 65536) (h : SignatureSection sigData trailing) :
    (encodeU16 p ++ (encodeU16 g ++ encodeU16 ys) ++ sigData).length =
      dheEnd (encodeU16 p ++ (encodeU16 g ++ encodeU16 ys) ++ sigData) ↔ trailing = [] := by
  have h₁ : skipU16 (encodeU16 p ++ (encodeU16 g ++ encodeU16 ys) ++ sigData) 0 =
      (encodeU16 p).length := by
    rw [List.append_assoc]
    exact skipU16_append hp (a := []) rfl _
  have h₂ : skipU16 (encodeU16 p ++ (encodeU16 g ++ encodeU16 ys) ++ sigData) (encodeU16 p).length =
      (encodeU16 p ++ encodeU16 g).length := by
    rw [List.append_assoc, List.append_assoc]
    exact skipU16_append hg rfl _
  have h₃ : skipU16 (encodeU16 p ++ (encodeU16 g ++ encodeU16 ys) ++ sigData)
      (encodeU16 p ++ encodeU16 g).length = (encodeU16 p ++ (encodeU16 g ++ encodeU16 ys)).length := by
    rw [← List.append_assoc, List.append_assoc _ _ sigData]
    exact skipU16_append hys rfl _
  rw [dheEnd, h₁, h₂, h₃, signatureEnd_iff h]

theorem signatureSection_exact {sig : Bytes} (hsig : sig.length < 65536) (hashAlg sigAlg : UInt8) :
    SignatureSection (hashAlg :: sigAlg :: encodeU16 sig) [] :=
  ⟨hashAlg, sigAlg, sig, hsig, by rw [List.append_nil]⟩

theorem ECDHEGrammar.length_eq {body : Bytes} (h : ECDHEGrammar body) : body.length = ecdheEnd body := by
  obtain ⟨hi, lo, point, hashAlg, sigAlg, sig, hpoint, hsig, rfl⟩ := h
  have hlen : point.length = (UInt8.ofNat point.length).toNat := (UInt8.toNat_ofNat_of_lt' hpoint).symm
  exact (ecdheEnd_iff hlen (signatureSection_exact hsig hashAlg sigAlg)).mpr rfl

theorem DHEGrammar.length_eq {body : Bytes} (h : DHEGrammar body) : body.length = dheEnd body := by
  obtain ⟨p, g, ys, hashAlg, sigAlg, sig, hp, hg, hys, hsig, rfl⟩ := h
  rw [← List.append_assoc (encodeU16 g), ← List.append_assoc (encodeU16 p)]
  exact (dheEnd_iff hp hg hys (signatureSection_exact hsig hashAlg sigAlg)).mpr rfl

/-- **The grammar of a ServerKeyExchange.** A body that was accepted is exactly its fields if and only if
    it is as long as the lengths in it say. -/
theorem serverKeyExchange_grammar_iff (env : Env) (cert : X509Certificate) (s s' : ClientState)
    (body params : Bytes) :
    (verifyECDHEServerKeyExchange env body cert s = .ok params s' →
      (ECDHEGrammar body ↔ body.length = ecdheEnd body)) ∧
    (verifyDHEServerKeyExchange env body cert s = .ok params s' →
      (DHEGrammar body ↔ body.length = dheEnd body)) := by
  have hany : Exits (fun _ _ => True) s := ⟨trivial, fun _ _ => trivial⟩
  constructor
  · intro h
    refine ⟨ECDHEGrammar.length_eq, ?_⟩
    intro hend
    obtain ⟨-, -, ⟨sigData, trailing, rfl, hsection⟩, hi, lo, len, point, rfl, hlen⟩ :=
      (verifyECDHEServerKeyExchange_spec hany body cert).ok h
    obtain rfl := (ecdheEnd_iff hlen hsection).mp hend
    obtain ⟨hashAlg, sigAlg, sig, hsig, rfl⟩ := hsection
    refine ⟨hi, lo, point, hashAlg, sigAlg, sig, hlen ▸ len.toNat_lt, hsig, ?_⟩
    rw [List.append_nil, hlen]
    simp [toBE]
  · intro h
    refine ⟨DHEGrammar.length_eq, ?_⟩
    intro hend
    obtain ⟨-, -, ⟨sigData, trailing, rfl, hsection⟩, p, g, ys, _, _, _, -, -, -, hp, hg, hys, rfl⟩ :=
      (verifyDHEServerKeyExchange_spec hany body cert).ok h
    obtain rfl := (dheEnd_iff hp hg hys hsection).mp hend
    obtain ⟨hashAlg, sigAlg, sig, hsig, rfl⟩ := hsection
    refine ⟨p, g, ys, hashAlg, sigAlg, sig, hp, hg, hys, hsig, ?_⟩
    rw [List.append_nil, List.append_assoc, List.append_assoc]

set_option maxRecDepth 4000 in
/-- The bodies of both kinds above are of the grammar. -/
theorem serverKeyExchange_grammar_both_kinds :
    ECDHEGrammar [3, 0, 0x17, 1, 9, 4, 1, 0, 0] ∧ DHEGrammar [0, 1, 23, 0, 1, 2, 0, 1, 3, 4, 1, 0, 0] := by
  constructor
  · exact ((serverKeyExchange_grammar_iff .sample ⟨[], .rsa []⟩ (.sample (lookup Env.sample.hashes 0xC02F))
      _ [3, 0, 0x17, 1, 9, 4, 1, 0, 0] [3, 0, 0x17, 1, 9]).1 rfl).mpr (by decide)
  · exact ((serverKeyExchange_grammar_iff .sample ⟨[], .rsa []⟩ (.sample (lookup Env.sample.hashes 0x009E))
      _ [0, 1, 23, 0, 1, 2, 0, 1, 3, 4, 1, 0, 0] [0, 1, 23, 0, 1, 2, 0, 1, 3]).2 rfl).mpr (by decide)

set_option maxRecDepth 4000 in
/-- A byte behind the signature of either kind is not noticed. -/
theorem serverKeyExchange_trailing_ignored :
    (verifyECDHEServerKeyExchange .sample [3, 0, 0x17, 1, 9, 4, 1, 0, 0, 99] ⟨[], .rsa []⟩
        (.sample (lookup Env.sample.hashes 0xC02F)) =
      .ok [3, 0, 0x17, 1, 9] (.sample (lookup Env.sample.hashes 0xC02F)) ∧
      ¬ ECDHEGrammar [3, 0, 0x17, 1, 9, 4, 1, 0, 0, 99]) ∧
    (verifyDHEServerKeyExchange .sample [0, 1, 23, 0, 1, 2, 0, 1, 3, 4, 1, 0, 0, 99] ⟨[], .rsa []⟩
        (.sample (lookup Env.sample.hashes 0x009E)) =
      .ok [0, 1, 23, 0, 1, 2, 0, 1, 3] (.sample (lookup Env.sample.hashes 0x009E)) ∧
      ¬ DHEGrammar [0, 1, 23, 0, 1, 2, 0, 1, 3, 4, 1, 0, 0, 99]) :=
  ⟨⟨rfl, fun h => absurd h.length_eq (by decide)⟩, ⟨rfl, fun h => absurd h.length_eq (by decide)⟩⟩

end Gostls
