import Gostls.Handshake.Peer

/-!
# `Gostls.Handshake.KeyAgreement` — when the server's parameters and the key exchange are accepted

Two functions decide on which keys the handshake is run: `verifyServerKeyExchange`, which takes the
parameters of an ephemeral exchange if the leaf has signed them, and `computeKeyExchange`, which runs the
exchange of the suite with the key of the leaf. For both, what they return is said without the program:
`verifyServerKeyExchange_returns_iff`, `computeKeyExchange_returns_iff`.
-/

namespace Gostls

open Lib

/-! ## Checks that pass, and calls that return -/

section Calls

variable {α : Type} {s t : ClientState} {alertDesc : UInt8} {a : α}

theorem fatalIf_pass {cond : Prop} [Decidable cond] {cause : Err} (h : ¬ cond) :
    fatalIf cond alertDesc cause = pure () := if_neg h

theorem orFatal_computed {x : Except Err α} {wrap : Err → Err} (h : x = .ok a) :
    orFatal alertDesc wrap (compute x) = pure a := by
  rw [h]
  rfl

theorem getSuite_of_some {suite : Suite} (h : s.suite = some suite) : getSuite s = .ok suite s := by
  unfold getSuite
  rw [bind_of_ok (m := get) rfl, h]
  rfl

theorem fatal_never_returns {cause : Err} (h : fatal alertDesc cause s = .ok a t) : False := by
  have hwp : wp (fatal alertDesc cause : HsM α) (fun _ _ => False) (fun _ _ => True) s :=
    wp_fatal.mpr trivial
  exact hwp.ok h

theorem orFatal_returns_iff {wrap : Err → Err} {m : HsM α} :
    orFatal alertDesc wrap m s = .ok a t ↔ m s = .ok a t := by
  refine ⟨?_, orFatal_ok⟩
  intro h
  have hwp : wp (orFatal alertDesc wrap m) (fun b u => m s = .ok b u) (fun _ _ => True) s := by
    apply wp_orFatal
    cases hm : m s with
    | ok b u => exact wp_of_ok hm rfl
    | error e u => exact wp_of_error hm exits_anyhow
  exact hwp.ok h

theorem drawing_returns_iff {m : RandM α} :
    drawing m s = .ok a t ↔ ∃ r', m ⟨s.rand, s.layer.rand⟩ = .ok a r' ∧ t = s.setRands r' := by
  unfold drawing
  cases m ⟨s.rand, s.layer.rand⟩ with
  | ok b r₁ =>
      constructor
      · intro h
        cases h
        exact ⟨r₁, rfl, rfl⟩
      · rintro ⟨r', ⟨⟩, rfl⟩
        rfl
  | error e r₁ =>
      constructor
      · intro h
        cases h
      · rintro ⟨r', ⟨⟩, -⟩

end Calls

/-! ## The server's parameters -/

section ServerKeyExchange

variable {env : Env} {cert : X509Certificate} {s t : ClientState} {alg : SigAndHash}
  {params sig trailing : Bytes} {n : Negotiated}

/-- What `verifySignedParams` has still to do when it has read the signature. -/
def checkSigned (env : Env) (kind : String) (cert : X509Certificate) (serverParams : Bytes)
    (alg : SigAndHash) (sig : Bytes) : HsM Bytes := do
  fatalIf (!sigAlgAdvertised alg.hash alg.sig) alertIllegalParameter
    (errSKEUnadvertisedSigAlg.detail (": hash=0x" ++ hex02 alg.hash ++ " sig=0x" ++ hex02 alg.sig))
  let suite ← getSuite
  fatalIf (!skeSigAlgMatchesAuth alg.sig suite.auth) alertIllegalParameter
    (errSKESigAuthMismatch.detail (": sig=0x" ++ hex02 alg.sig ++ " suite=" ++ suite.name))
  let s ← get
  let signed := s.clientRandom.val ++ s.serverRandom.val ++ serverParams
  orFatal alertDecryptError (.errorf ("tls: " ++ kind ++ " ServerKeyExchange signature verification"))
    (compute (verifySignature env cert alg.hash alg.sig signed sig))
  return serverParams

theorem verifySignedParams_eq (hshort : sig.length < 65536) (kind : String)
    (errSectionShort errTruncated : Err) :
    verifySignedParams env kind errSectionShort errTruncated cert params
      (alg.hash :: alg.sig :: (encodeU16 sig ++ trailing)) = checkSigned env kind cert params alg sig := by
  have hlen : (alg.hash :: alg.sig :: (encodeU16 sig ++ trailing)).length =
      4 + sig.length + trailing.length := by
    simp only [encodeU16, List.length_cons, List.length_append, toBE_length]
    omega
  have hbe : ofBE [UInt8.ofNat (sig.length / 256), UInt8.ofNat sig.length] = sig.length :=
    ofBE_toBE_of_lt (k := 2) hshort
  have h0 : index (alg.hash :: alg.sig :: (encodeU16 sig ++ trailing)) 0 = .ok alg.hash := rfl
  have h1 : index (alg.hash :: alg.sig :: (encodeU16 sig ++ trailing)) 1 = .ok alg.sig := rfl
  have h2 : index (alg.hash :: alg.sig :: (encodeU16 sig ++ trailing)) 2 =
      .ok (UInt8.ofNat (sig.length / 256)) := rfl
  have h3 : index (alg.hash :: alg.sig :: (encodeU16 sig ++ trailing)) 3 = .ok (UInt8.ofNat sig.length) := rfl
  have hslice : slice (alg.hash :: alg.sig :: (encodeU16 sig ++ trailing)) 4 (4 + sig.length) = .ok sig := by
    rw [slice_eq (by omega) (by omega), List.drop_take, Nat.add_sub_cancel_left]
    exact congrArg Except.ok (List.take_left' rfl)
  unfold verifySignedParams
  rw [fatalIf_pass (by omega)]
  simp only [h0, h1, h2, h3, hbe, hslice, liftM_eq, compute_ok, pure_bind]
  rw [fatalIf_pass (by omega), pure_bind]
  rfl

/-- **The signature is checked**, and nothing else. -/
theorem checkSigned_returns_iff {kind : String} {p : Bytes} (hsuite : s.suite = some n.suite)
    (hcr : s.clientRandom = n.clientRandom) (hsr : s.serverRandom = n.serverRandom) :
    checkSigned env kind cert params alg sig s = .ok p t ↔
      p = params ∧ t = s ∧ alg ∈ clientSigAlgsAdvertised ∧ Authenticates n.suite.auth alg.sig ∧
        SignedBy env cert alg.hash alg.sig (n.clientRandom.val ++ n.serverRandom.val ++ params) sig := by
  rw [← skeSigAlgMatchesAuth_iff, ← verifySignature_ok_iff]
  constructor
  · intro h
    have hwp : wp (checkSigned env kind cert params alg sig) (fun p t => p = params ∧ t = s ∧
        alg ∈ clientSigAlgsAdvertised ∧ skeSigAlgMatchesAuth alg.sig n.suite.auth = true ∧
        verifySignature env cert alg.hash alg.sig
          (n.clientRandom.val ++ n.serverRandom.val ++ params) sig = .ok ()) (fun _ _ => True) s := by
      unfold checkSigned
      rw [wp_bind]
      apply wp_fatalIf exits_anyhow
      intro hadv
      rw [wp_bind]
      apply wp_getSuite_some hsuite
      rw [wp_bind]
      apply wp_fatalIf exits_anyhow
      intro hauth
      rw [wp_bind, wp_get, wp_bind, hcr, hsr]
      apply wp_orFatal_compute exits_anyhow
      intro _ hverify
      exact ⟨rfl, rfl, mem_of_sigAlgAdvertised (by simpa using hadv), by simpa using hauth, hverify⟩
    exact hwp.ok h
  · rintro ⟨rfl, rfl, hadv, hauth, hverify⟩
    have hadv' : sigAlgAdvertised alg.hash alg.sig = true := List.any_eq_true.mpr ⟨alg, hadv, by simp⟩
    unfold checkSigned
    rw [fatalIf_pass (by simp [hadv']), pure_bind, bind_of_ok (getSuite_of_some hsuite),
      fatalIf_pass (by simp [hauth]), pure_bind, bind_of_ok (m := get) rfl, hcr, hsr,
      orFatal_computed hverify, pure_bind]
    rfl

theorem readU16LenPrefixedBuf_encodeU16 {x : Bytes} (h : x.length < 65536) (rest : Bytes) :
    readU16LenPrefixedBuf (encodeU16 x ++ rest) = .ok rest := by
  have hmin : ¬ (encodeU16 x ++ rest).length < 2 := by
    simp only [encodeU16, List.length_append, toBE_length]
    omega
  have h0 : index (encodeU16 x ++ rest) 0 = .ok (UInt8.ofNat (x.length / 256)) := rfl
  have h1 : index (encodeU16 x ++ rest) 1 = .ok (UInt8.ofNat x.length) := rfl
  have hbe : ofBE [UInt8.ofNat (x.length / 256), UInt8.ofNat x.length] = x.length :=
    ofBE_toBE_of_lt (k := 2) h
  have hdrop : sliceFrom (encodeU16 x ++ rest) 2 = .ok (x ++ rest) := by
    rw [sliceFrom_eq (Nat.not_lt.mp hmin)]
    rfl
  have hfull : ¬ (x ++ rest).length < x.length := by simp
  simp only [readU16LenPrefixedBuf, if_neg hmin, h0, h1, hbe, hdrop, ok_bind, if_neg hfull,
    sliceFrom_append rfl]

theorem verifyECDHEServerKeyExchange_eq {hi lo len : UInt8} {point sigData : Bytes}
    (hlen : point.length = len.toNat) (hsig : 4 ≤ sigData.length) :
    verifyECDHEServerKeyExchange env (ecdheCurveTypeNamed :: hi :: lo :: len :: point ++ sigData) cert =
      verifySignedParams env "ECDHE" errECDHESigSectionShort errECDHESigTruncated cert
        (ecdheCurveTypeNamed :: hi :: lo :: len :: point) sigData := by
  have hparams : (ecdheCurveTypeNamed :: hi :: lo :: len :: point).length =
      minECDHEBodyLen + len.toNat := by
    simp only [List.length_cons, minECDHEBodyLen, hlen]
    omega
  have htotal : (ecdheCurveTypeNamed :: hi :: lo :: len :: point ++ sigData).length =
      (ecdheCurveTypeNamed :: hi :: lo :: len :: point).length + sigData.length := List.length_append
  have h0 : index (ecdheCurveTypeNamed :: hi :: lo :: len :: point ++ sigData) 0 =
      .ok ecdheCurveTypeNamed := rfl
  have h3 : index (ecdheCurveTypeNamed :: hi :: lo :: len :: point ++ sigData) 3 = .ok len := rfl
  have hcurve : slice (ecdheCurveTypeNamed :: hi :: lo :: len :: point ++ sigData) 1 3 =
      .ok [hi, lo] := slice_eq (by decide) (by rw [htotal, hparams, minECDHEBodyLen]; omega)
  unfold verifyECDHEServerKeyExchange
  rw [fatalIf_pass (by omega)]
  simp only [h0, h3, hcurve, liftM_eq, compute_ok, pure_bind]
  rw [fatalIf_pass (not_not.mpr rfl), pure_bind, fatalIf_pass (by omega), pure_bind,
    sliceTo_append hparams, sliceFrom_append hparams]
  simp only [compute_ok, pure_bind]

theorem verifyDHEServerKeyExchange_eq {p g ys sigData : Bytes} (hp : p.length < 65536)
    (hg : g.length < 65536) (hys : ys.length < 65536) :
    verifyDHEServerKeyExchange env ((encodeU16 p ++ (encodeU16 g ++ encodeU16 ys)) ++ sigData) cert =
      verifySignedParams env "DHE" errDHESigSectionShort errDHESigTruncated cert
        (encodeU16 p ++ (encodeU16 g ++ encodeU16 ys)) sigData := by
  have hsplit : (encodeU16 p ++ (encodeU16 g ++ encodeU16 ys)) ++ sigData =
      encodeU16 p ++ (encodeU16 g ++ (encodeU16 ys ++ sigData)) := by
    simp only [List.append_assoc]
  have hbound : sliceBound ((((encodeU16 p ++ (encodeU16 g ++ encodeU16 ys)) ++ sigData).length : Int) -
      sigData.length) = .ok (encodeU16 p ++ (encodeU16 g ++ encodeU16 ys)).length := by
    rw [sliceBound_sub (by rw [List.length_append]; exact Nat.le_add_left _ _), List.length_append,
      Nat.add_sub_cancel]
  unfold verifyDHEServerKeyExchange
  rw [orFatal_computed (hsplit ▸ readU16LenPrefixedBuf_encodeU16 hp _), pure_bind,
    orFatal_computed (readU16LenPrefixedBuf_encodeU16 hg _), pure_bind,
    orFatal_computed (readU16LenPrefixedBuf_encodeU16 hys _), pure_bind]
  simp only [hbound, sliceTo_append rfl, liftM_eq, compute_ok, pure_bind]

/-- Parameters of the suite's kind are read whole, and the signature is what is behind them. -/
theorem verifyServerKeyExchange_eq (hsuite : s.suite = some n.suite) (hkind : KeyParams n.suite.kx params)
    (hshort : sig.length < 65536) :
    ∃ kind, verifyServerKeyExchange env (params ++ (alg.hash :: alg.sig :: (encodeU16 sig ++ trailing))) cert
      s = checkSigned env kind cert params alg sig s := by
  have hsig : 4 ≤ (alg.hash :: alg.sig :: (encodeU16 sig ++ trailing)).length := by
    simp only [encodeU16, List.length_cons, List.length_append, toBE_length]
    omega
  unfold verifyServerKeyExchange
  rw [bind_of_ok (getSuite_of_some hsuite)]
  generalize n.suite.kx = kx at hkind
  cases hkind with
  | ecdhe hlen =>
      refine ⟨"ECDHE", ?_⟩
      dsimp only
      rw [verifyECDHEServerKeyExchange_eq hlen hsig, verifySignedParams_eq hshort]
  | dhe hp hg hys =>
      refine ⟨"DHE", ?_⟩
      dsimp only
      rw [verifyDHEServerKeyExchange_eq hp hg hys, verifySignedParams_eq hshort]

/-- A body that is accepted has the shape of parameters and a signature. -/
theorem verifyServerKeyExchange_shape {body p : Bytes} (hsuite : s.suite = some n.suite)
    (h : verifyServerKeyExchange env body cert s = .ok p t) :
    KeyParams n.suite.kx p ∧ ∃ (alg : SigAndHash) (sig trailing : Bytes), sig.length < 65536 ∧
      body = p ++ (alg.hash :: alg.sig :: (encodeU16 sig ++ trailing)) := by
  unfold verifyServerKeyExchange at h
  rw [bind_of_ok (getSuite_of_some hsuite)] at h
  cases hkx : n.suite.kx with
  | ecdhe =>
      rw [hkx] at h
      obtain ⟨-, -, ⟨_, trailing, rfl, hashAlg, sigAlg, sig, hsig, rfl⟩, hi, lo, len, point, rfl, hlen⟩ :=
        (verifyECDHEServerKeyExchange_spec exits_anyhow body cert).ok h
      exact ⟨.ecdhe hlen, ⟨hashAlg, sigAlg⟩, sig, trailing, hsig, rfl⟩
  | dhe =>
      rw [hkx] at h
      obtain ⟨-, -, ⟨_, trailing, hbody, hashAlg, sigAlg, sig, hsig, rfl⟩, p, g, ys, _, _, _, -, -, -, hp, hg,
        hys, rfl⟩ := (verifyDHEServerKeyExchange_spec exits_anyhow body cert).ok h
      exact ⟨.dhe hp hg hys, ⟨hashAlg, sigAlg⟩, sig, trailing, hsig, hbody⟩
  | rsa | gost2001 | gost2012_256 | gost2018_256 | other =>
      rw [hkx] at h
      exact (fatal_never_returns h).elim

/-- **The parameters that are accepted** are those that the leaf has signed. -/
theorem verifyServerKeyExchange_returns_iff {body p : Bytes} (hsuite : s.suite = some n.suite)
    (hcr : s.clientRandom = n.clientRandom) (hsr : s.serverRandom = n.serverRandom) :
    verifyServerKeyExchange env body cert s = .ok p t ↔
      t = s ∧ ∃ alg sig trailing, SignedParams env cert n body p alg sig trailing := by
  constructor
  · intro h
    obtain ⟨hkind, alg, sig, trailing, hshort, rfl⟩ := verifyServerKeyExchange_shape hsuite h
    obtain ⟨kind, heq⟩ : ∃ kind, verifyServerKeyExchange env
        (p ++ (alg.hash :: alg.sig :: (encodeU16 sig ++ trailing))) cert s =
          checkSigned env kind cert p alg sig s := verifyServerKeyExchange_eq hsuite hkind hshort
    rw [heq] at h
    obtain ⟨-, rfl, hadv, hauth, hverify⟩ := (checkSigned_returns_iff hsuite hcr hsr).mp h
    exact ⟨rfl, alg, sig, trailing, rfl, hkind, hadv, hauth, hshort, hverify⟩
  · rintro ⟨rfl, alg, sig, trailing, rfl, hkind, hadv, hauth, hshort, hverify⟩
    obtain ⟨kind, heq⟩ := verifyServerKeyExchange_eq hsuite hkind hshort
    rw [heq]
    exact (checkSigned_returns_iff hsuite hcr hsr).mpr ⟨rfl, rfl, hadv, hauth, hverify⟩

end ServerKeyExchange

/-! ## The key exchange -/

section KeyExchange

variable {env : Env} {s : ClientState} {n : Negotiated} {gc : GostCertificate} {keyParams : Bytes}

/-- **The key exchange of the client** is that of the suite and the leaf. -/
theorem computeKeyExchange_returns_iff {cke preMaster : Bytes} {t : ClientState}
    (hsuite : s.suite = some n.suite) (hleaf : s.gostLeaf = gostLeafOf gc)
    (hcr : s.clientRandom = n.clientRandom) (hsr : s.serverRandom = n.serverRandom) :
    computeKeyExchange env gc.stdlib keyParams s = .ok (preMaster, cke) t ↔
      ∃ r', leafKeyExchange env gc n keyParams ⟨s.rand, s.layer.rand⟩ = .ok (cke, preMaster) r' ∧
        t = s.setRands r' := by
  -- What follows the choice of the exchange.
  have hrun : ∀ e u, (orFatal alertHandshakeFailure (.errorf "tls: ClientKeyExchange")
        (drawing (Exchange.clientKeyExchange env keyParams e)) >>= fun p => pure (p.2, p.1)) u =
          EStateM.Result.ok (preMaster, cke) t ↔
      ∃ r', e.clientKeyExchange env keyParams ⟨u.rand, u.layer.rand⟩ = .ok (cke, preMaster) r' ∧
        t = u.setRands r' := by
    intro e u
    rw [bind_returns, ← drawing_returns_iff]
    constructor
    · rintro ⟨p, v, hdraw, hp⟩
      cases hp
      exact orFatal_returns_iff.mp hdraw
    · intro hdraw
      exact ⟨_, t, orFatal_returns_iff.mpr hdraw, rfl⟩
  unfold computeKeyExchange
  rw [bind_of_ok (getSuite_of_some hsuite), bind_of_ok (m := get) rfl, hleaf, hcr, hsr, bind_returns]
  simp only [hrun]
  unfold buildExchange leafKeyExchange
  dsimp only
  generalize n.suite.kx = kx
  cases kx with
  | ecdhe | dhe =>
      constructor
      · rintro ⟨e, u, he, hcke⟩
        cases he
        exact hcke
      · intro hcke
        exact ⟨_, s, rfl, hcke⟩
  | rsa =>
      cases gc.stdlib.publicKey with
      | rsa pub =>
          constructor
          · rintro ⟨e, u, he, hcke⟩
            cases he
            exact hcke
          · intro hcke
            exact ⟨_, s, rfl, hcke⟩
      | _ =>
          constructor
          · rintro ⟨e, u, he, -⟩
            exact (fatal_never_returns he).elim
          · rintro ⟨r', ⟨⟩, -⟩
  | gost2001 | gost2012_256 | gost2018_256 =>
      constructor
      · rintro ⟨e, u, he, r', hcke, rfl⟩
        obtain ⟨r₁, hbuild, rfl⟩ := drawing_returns_iff.mp (orFatal_returns_iff.mp he)
        exact ⟨r', bind_returns.mpr ⟨e, r₁, hbuild, hcke⟩, rfl⟩
      · rintro ⟨r', hboth, rfl⟩
        obtain ⟨e, r₁, hbuild, hcke⟩ := bind_returns.mp hboth
        exact ⟨e, s.setRands r₁, orFatal_returns_iff.mpr (drawing_returns_iff.mpr ⟨r₁, hbuild, rfl⟩), r',
          hcke, rfl⟩
  | other code =>
      constructor
      · rintro ⟨e, u, he, -⟩
        exact (fatal_never_returns he).elim
      · rintro ⟨r', ⟨⟩, -⟩

end KeyExchange

end Gostls
