import Gostls.Handshake.Relation

/-!
# `Gostls.Handshake.Refinement` — the client follows the protocol

`handshake_refines`: every run of `handshake`, to its end or to any failure, is a run of the protocol of
`Gostls.Handshake.Protocol`. One lemma per function says from which stage to which it leads, and what it
settles on the way.
-/

namespace Gostls

open Lib

section

variable {env : Env} {input : Reader} {d : Facts} {f : Flow} {st : Stage} {s : ClientState}
  {n : Negotiated} {k : Keyed} {cr : Random}

/-! ## The hellos -/

theorem sendClientHello_spec (h : At env input d .start s) :
    wp sendClientHello (fun _ s' => ∃ cr, At env input { d with clientRandom := cr } (.hello cr) s')
      (Ended env input d.params) s := by
  unfold sendClientHello
  rw [wp_bind]
  apply wp_drawing
  · intro random r
    obtain ⟨f, htracks, hlog⟩ := h.setRands r
    rw [wp_bind, wp_modify, wp_bind, wp_get, wp_bind]
    -- The random value is settled before the hello that carries it is written.
    have hrandom : Tracks env input { d with clientRandom := .copy random } f .start
        { s.setRands r with clientRandom := .copy random } :=
      ⟨by rw [← htracks.facts]; rfl, htracks.run, htracks.buf, htracks.agree⟩
    have hparams : (s.setRands r).params = d.params := congrArg Facts.params htracks.facts
    apply wp_orFail
    apply wp.mono (writeRecord_spec _ _ hrandom.agree.sendProt hrandom.agree.sendSeq)
    · rintro _ _ ⟨f', hstep, hbuf, hflog, hagree, l, rfl⟩
      refine ⟨.copy random, f', ⟨hrandom.facts, hrandom.run.snoc ⟨hstep, .clientHello ⟨rfl, rfl, ?_⟩⟩,
        hrandom.buf.trans hbuf.symm, hagree hrandom.agree⟩, ?_⟩
      · rw [← hparams]
      · rw [hflog]
        exact hlog.write _
    · rintro _ _ ⟨f', hstep, -, -, -, l, rfl⟩ e
      exact ⟨f', .unsent, hrandom.run.snoc ⟨hstep, .unsent rfl⟩, .inr (.inr (.inl rfl))⟩
  · intro e r
    obtain ⟨f, htracks, -⟩ := h.setRands r
    exact ⟨f, .start, htracks.run, .inr (.inr (.inr rfl))⟩

theorem recvServerHello_spec (h : At env input d (.hello cr) s) :
    wp (recvServerHello env)
      (fun _ s' => ∃ suite sr, At env input { d with suite := some suite, serverRandom := sr }
        (.serverHello ⟨suite, cr, sr⟩) s')
      (Ended env input d.params) s := by
  unfold recvServerHello
  apply wp_call (receiveMessage_spec h trivial)
  rintro ⟨msg, payload⟩ s' ⟨⟨f, htook⟩, hparse⟩
  have hx := htook.exits trivial
  cases msg with
  | serverHello sh =>
      dsimp only
      rw [wp_bind]
      apply wp_fatalIf hx
      intro _
      rw [wp_bind, wp_get, wp_bind]
      apply wp_fatalIf hx
      intro hoffered
      cases hlookup : lookup env.hashes sh.cipherSuite with
      | none => exact wp_fatal.mpr (hx.fatal _ _)
      | some suite =>
          dsimp only
          rw [wp_bind, wp_modify]
          have hsuite : Took env input { d with suite := some suite } f (.hello cr) typeServerHello
              payload { s' with suite := some suite } :=
            ⟨by rw [← htook.facts]; rfl, htook.run, htook.buf, htook.log, htook.agree, htook.short⟩
          have hx' := hsuite.exits trivial
          rw [wp_bind]
          apply wp_fatalIf hx'
          intro _
          rw [wp_bind]
          apply wp_fatalIf hx'
          intro _
          rw [wp_bind]
          apply wp_forM_fatalIf hx'
          rw [wp_bind, wp_modify]
          have hrandom : Took env input { d with suite := some suite, serverRandom := sh.random } f
              (.hello cr) typeServerHello payload
              { s' with suite := some suite, serverRandom := sh.random } :=
            ⟨by rw [← htook.facts]; rfl, htook.run, htook.buf, htook.log, htook.agree, htook.short⟩
          have hparams : s'.params = d.params := congrArg Facts.params htook.facts
          refine ⟨suite, sh.random,
            hrandom.accept (.serverHello (parseBody_serverHello hparse) ?_ hlookup)⟩
          rw [← hparams]
          exact not_not.mp hoffered
  | _ => exact wp_fatal.mpr (hx.fatal _ _)

/-! ## The server's flight -/

/-- Verifying the chain only sets the GOST leaf. -/
theorem parseAndVerifyChain_spec (rawCerts : List Bytes) :
    wp (parseAndVerifyChain env rawCerts) (fun _ s' => ∃ leaf, s' = { s with gostLeaf := leaf })
      (fun _ s' => ∃ leaf, s' = { s with gostLeaf := leaf }) s := by
  unfold parseAndVerifyChain
  cases rawCerts with
  | nil => exact ⟨s.gostLeaf, rfl⟩
  | cons rawLeaf rawInter =>
      dsimp only
      rw [wp_bind]
      apply wp_compute _ (fun _ _ => ⟨s.gostLeaf, rfl⟩)
      intro gc _
      have hverify : ∀ leaf, wp (do
          let chains ← verifyChain env (← get).params gc rawInter
          return (gc.stdlib, chains) : HsM _)
          (fun _ s' => ∃ leaf, s' = { s with gostLeaf := leaf })
          (fun _ s' => ∃ leaf, s' = { s with gostLeaf := leaf }) { s with gostLeaf := leaf } := by
        intro leaf
        rw [wp_bind, wp_get, wp_bind]
        exact wp_compute (fun _ _ => ⟨leaf, rfl⟩) (fun _ _ => ⟨leaf, rfl⟩)
      split
      · rw [wp_bind, wp_modify]
        exact hverify (some gc)
      · exact hverify s.gostLeaf

theorem recvCertificate_spec (h : At env input d (.serverHello n) s) :
    wp (recvCertificate env) (fun _ s' => At env input d (.flight n false false) s')
      (Ended env input d.params) s := by
  unfold recvCertificate
  apply wp_call (receiveMessage_spec h trivial)
  rintro ⟨msg, payload⟩ s' ⟨⟨f, htook⟩, hparse⟩
  have hx := htook.exits trivial
  cases msg with
  | certificate certMsg =>
      dsimp only
      rw [wp_bind]
      apply wp_fatalIf hx
      intro hne
      rw [wp_bind]
      have hleaf : ∀ leaf, Took env input d f (.serverHello n) typeCertificate payload
          { s' with gostLeaf := leaf } :=
        fun _ => ⟨htook.facts, htook.run, htook.buf, htook.log, htook.agree, htook.short⟩
      apply wp_orFatal
      apply wp.mono (parseAndVerifyChain_spec certMsg.rawCerts)
      · rintro ⟨leafCert, chains⟩ _ ⟨leaf, rfl⟩
        have hdone := (hleaf leaf).accept (.certificate (parseBody_certificate hparse)
          (fun hnil => hne (by rw [hnil]; rfl)))
        rw [wp_bind, wp_get]
        split
        · exact hdone
        · rw [wp_bind]
          exact wp_orFatal_compute ((hleaf leaf).exits trivial) (fun _ _ => hdone)
      · rintro _ _ ⟨leaf, rfl⟩
        exact (hleaf leaf).exits trivial
  | _ => exact wp_fatal.mpr (hx.fatal _ _)

/-- A message in hand does not mind what is kept of it. -/
theorem Took.setCertReq {t : UInt8} {payload : Bytes} (h : Took env input d f st t payload s)
    (req : Option CertificateRequest) :
    Took env input { d with certReq := req } f st t payload { s with certReq := req } :=
  ⟨congrArg (fun d : Facts => { d with certReq := req }) h.facts, h.run, h.buf, h.log, h.agree, h.short⟩

/-- A suite for which a ServerKeyExchange was accepted is one that needs it. -/
theorem Took.needsSKE {t : UInt8} {payload : Bytes} {suite : Suite}
    (h : Took env input d f st t payload s) (hsuite : d.suite = some n.suite) (hs : s.suite = some suite)
    (hkx : suite.kx = .ecdhe ∨ suite.kx = .dhe) : needsSKE n.suite.kx = true := by
  have hd : s.suite = d.suite := congrArg Facts.suite h.facts
  obtain rfl : suite = n.suite := Option.some.inj (hs.symm.trans (hd.trans hsuite))
  rcases hkx with hkx | hkx
  · rw [hkx]
    rfl
  · rw [hkx]
    rfl

/-- The loop ends with a ServerHelloDone in hand, already in the transcript; whether a ServerKeyExchange
    is missing is checked later. -/
theorem recvServerFlightLoop_spec (serverCert : X509Certificate) (rounds : Nat) {ske : Bool}
    (params : Bytes) (h : At env input d (.flight n ske d.certReq.isSome) s)
    (hsuite : d.suite = some n.suite) (hske : ske = true → needsSKE n.suite.kx = true) :
    wp (recvServerFlightLoop env serverCert rounds ske d.certReq.isSome params)
      (fun r s' => (r.1 = true → needsSKE n.suite.kx = true) ∧ ∃ req f s₁,
        Took env input { d with certReq := req } f (.flight n r.1 req.isSome) typeServerHelloDone [] s₁ ∧
        s' = s₁.record (buildEnvelope typeServerHelloDone []))
      (Ended env input d.params) s := by
  induction rounds generalizing d s ske params with
  | zero =>
      obtain ⟨f, htracks, -⟩ := h
      exact ⟨f, _, htracks.run, .inl rfl⟩
  | succ rounds ih =>
      unfold recvServerFlightLoop
      rw [wp_bind]
      apply wp_orFatal
      apply wp.mono (readHandshakeRecord_spec h trivial) _ (fun _ _ htrouble => htrouble.exits)
      rintro ⟨t, payload⟩ s' ⟨f, htook⟩
      have hx := htook.exits trivial
      apply wp_ite
      · -- ServerKeyExchange: only once, before a CertificateRequest, and for a suite that needs it.
        intro ht
        obtain rfl : t = typeServerKeyExchange := ht
        rw [wp_bind]
        apply wp_fatalIf hx
        intro hsaw
        rw [wp_bind]
        apply wp_fatalIf hx
        intro hreq
        obtain rfl : ske = false := by simpa using hsaw
        apply wp_call (wp_parsePayload hx htook.short)
        rintro msg _ ⟨rfl, hparse⟩
        cases msg with
        | serverKeyExchange ske =>
            dsimp only
            rw [wp_bind, wp_writeTranscript]
            apply wp_call (verifyServerKeyExchange_spec ((htook.trouble trivial).record _).exits _ _)
            rintro params _ ⟨rfl, suite, hs, hkx⟩
            have hneeds := htook.needsSKE hsuite hs hkx
            apply ih params _ hsuite (fun _ => hneeds)
            apply htook.accept
            rw [show d.certReq.isSome = false by simpa using hreq]
            exact .serverKeyExchange hneeds
        | _ => exact wp_fatal.mpr (hx.fatal _ _)
      · intro _
        apply wp_ite
        · -- CertificateRequest: only once.
          intro ht
          obtain rfl : t = typeCertificateRequest := ht
          rw [wp_bind]
          apply wp_fatalIf hx
          intro hreq
          apply wp_call (wp_parsePayload hx htook.short)
          rintro msg s'' ⟨rfl, hparse⟩
          cases msg with
          | certificateRequest certReq =>
              dsimp only
              rw [wp_bind, wp_modify, wp_bind, wp_writeTranscript]
              apply ih (d := { d with certReq := some certReq }) params _ hsuite hske
              apply (htook.setCertReq (some certReq)).accept
              rw [show d.certReq.isSome = false by simpa using hreq]
              exact .certificateRequest (parseBody_certificateRequest hparse)
          | _ => exact wp_fatal.mpr (hx.fatal _ _)
        · intro _
          apply wp_ite
          · intro ht
            obtain rfl : t = typeServerHelloDone := ht
            apply wp_call (wp_parsePayload hx htook.short)
            rintro msg _ ⟨rfl, hparse⟩
            obtain rfl := parseServerHelloDone_ok (parseBody_serverHelloDone hparse)
            exact ⟨hske, d.certReq, f, _, htook, rfl⟩
          · intro _
            exact wp_fatal.mpr (hx.fatal _ _)

theorem recvServerFlight_spec (serverCert : X509Certificate)
    (h : At env input d (.flight n false false) s) (hsuite : d.suite = some n.suite)
    (hreq : d.certReq = none) :
    wp (recvServerFlight env serverCert)
      (fun _ s' => ∃ req, At env input { d with certReq := req } (.serverDone n req.isSome) s')
      (Ended env input d.params) s := by
  unfold recvServerFlight
  have hstart : At env input d (.flight n false d.certReq.isSome) s := by
    rw [hreq]
    exact h
  have hloop := recvServerFlightLoop_spec serverCert 3 [] hstart hsuite (fun h => nomatch h)
  rw [hreq] at hloop
  apply wp_call hloop
  rintro ⟨sawSKE, params⟩ _ ⟨hske, req, f, s₁, htook, rfl⟩
  -- All that is left to know is that the exchange came iff it was needed.
  have hdone : sawSKE = needsSKE n.suite.kx →
      At env input { d with certReq := req } (.serverDone n req.isSome)
        (s₁.record (buildEnvelope typeServerHelloDone [])) := by
    rintro rfl
    exact htook.accept .serverHelloDone
  dsimp only
  apply wp_ite
  · intro hsaw
    exact ⟨req, hdone (hsaw.trans (hske hsaw).symm)⟩
  · intro hsaw
    have hx := ((htook.trouble trivial).record (buildEnvelope typeServerHelloDone [])).exits
    rw [wp_bind]
    have hd : (s₁.record (buildEnvelope typeServerHelloDone [])).suite = d.suite :=
      congrArg Facts.suite htook.facts
    apply wp_getSuite_some (hd.trans hsuite)
    rw [wp_bind]
    apply wp_fatalIf hx
    intro hneeds
    refine ⟨req, hdone ?_⟩
    rw [show sawSKE = false by simpa using hsaw, show needsSKE n.suite.kx = false by simpa using hneeds]

/-! ## Keys -/

theorem At.suite_eq (h : At env input d st s) : s.suite = d.suite := by
  obtain ⟨f, htracks, -⟩ := h
  exact congrArg Facts.suite htracks.facts

theorem buildExchange_spec (serverCert : X509Certificate) (c : KexInputs) (h : At env input d st s)
    (hst : st.Live) :
    wp (buildExchange env serverCert c) (fun _ s' => At env input d st s')
      (Ended env input d.params) s := by
  have hx := h.exits hst
  have hgost : wp (orFatal alertHandshakeFailure id (drawing (buildGOSTExchange env c)))
      (fun _ s' => At env input d st s') (Ended env input d.params) s :=
    wp_orFatal (wp_drawing (fun _ r => h.setRands r) (fun _ r => (h.setRands r).exits hst))
  unfold buildExchange
  cases c.suite.kx with
  | ecdhe | dhe => exact h
  | rsa =>
      dsimp only
      split
      · exact h
      · exact wp_fatal.mpr (hx.fatal _ _)
  | gost2001 | gost2012_256 | gost2018_256 => exact hgost
  | other n => exact wp_fatal.mpr (hx.fatal _ _)

/-- The key exchange only draws randomness. -/
theorem computeKeyExchange_spec (serverCert : X509Certificate) (params : Bytes) (h : At env input d st s)
    (hst : st.Live) :
    wp (computeKeyExchange env serverCert params) (fun _ s' => At env input d st s')
      (Ended env input d.params) s := by
  unfold computeKeyExchange
  rw [wp_bind]
  apply wp_getSuite (h.exits hst)
  intro suite _
  rw [wp_bind, wp_get]
  apply wp_call (buildExchange_spec serverCert _ h hst)
  intro exchange s' h'
  rw [wp_bind]
  apply wp_orFatal
  exact wp_drawing (fun _ r => h'.setRands r) (fun _ r => (h'.setRands r).exits hst)

/-- **The protectors are the negotiated ones.** -/
theorem expandKeys_spec {suite : Suite} (h : At env input d st s) (hst : st.Live)
    (hsuite : d.suite = some suite) :
    wp (expandKeys env)
      (fun r s' => s' = s ∧
        Keyed.protectors env ⟨⟨suite, d.clientRandom, d.serverRandom⟩, d.masterSecret⟩ = .ok r)
      (Ended env input d.params) s := by
  have hx := h.exits hst
  obtain ⟨f, htracks, -⟩ := h
  obtain rfl := htracks.facts
  unfold expandKeys
  rw [wp_bind]
  apply wp_getSuite_some hsuite
  rw [wp_bind, wp_get, wp_bind]
  apply wp_fatalIf hx
  intro _
  rw [wp_bind]
  apply wp_orFatal_compute hx
  intro km hkm
  rw [wp_bind]
  apply wp_orFatal_compute hx
  intro sendProt hsend
  rw [wp_bind]
  apply wp_orFatal_compute hx
  intro recvProt hrecv
  refine ⟨rfl, ?_⟩
  rw [expandKeysIVLen_eq] at hkm
  simp only [Keyed.protectors, ClientState.facts, hkm, hsend, hrecv, ok_bind, pure_eq]

/-! ## Client authentication -/

theorem sendClientCertificate_spec (h : At env input d (.serverDone n true) s) :
    wp sendClientCertificate (fun sent s' => At env input d (.certificate n sent) s')
      (Ended env input d.params) s := by
  obtain ⟨f, htracks, hlog⟩ := h
  unfold sendClientCertificate
  rw [wp_bind, wp_get]
  generalize hcerts : s.params.certificates = certs
  generalize selectClientSigAlg s.certReq certs = alg
  -- The message is empty in the same cases in which the result is false.
  have hsent : (alg.isSome && decide (certs.length > 0)) = !(clientRawCerts alg certs).isEmpty := by
    cases alg <;> cases certs <;> rfl
  simp only [hsent]
  rw [wp_bind]
  exact sendMessage_spec htracks hlog trivial (fun _ ho => .clientCertificate ho)

/-- An answer is only sent to a request. -/
theorem answerCertificateRequest_spec (h : At env input d (.serverDone n d.certReq.isSome) s)
    (hsent : d.clientCertSent = false) :
    wp answerCertificateRequest
      (fun _ s' => ∃ sent, At env input { d with clientCertSent := sent } (.certificate n sent) s' ∨
        sent = false ∧ At env input { d with clientCertSent := sent } (.serverDone n false) s')
      (Ended env input d.params) s := by
  have hsame : { d with clientCertSent := false } = d := by rw [← hsent]
  have hreq : s.certReq = d.certReq := by
    obtain ⟨f, htracks, -⟩ := h
    exact congrArg Facts.certReq htracks.facts
  unfold answerCertificateRequest
  rw [wp_bind, wp_get, hreq]
  apply wp_ite
  · intro hsome
    rw [hsome] at h
    apply wp_call (sendClientCertificate_spec h)
    intro sent s' h'
    apply wp_ite
    · rintro rfl
      obtain ⟨f, htracks, hlog⟩ := h'
      refine ⟨true, .inl ⟨f, ⟨?_, htracks.run, htracks.buf, htracks.agree⟩, hlog⟩⟩
      rw [← htracks.facts]
      rfl
    · intro hnot
      obtain rfl : sent = false := by simpa using hnot
      refine ⟨false, .inl ?_⟩
      rw [hsame]
      exact h'
  · intro hnone
    rw [show d.certReq.isSome = false by simpa using hnone] at h
    refine ⟨false, .inr ⟨rfl, ?_⟩⟩
    rw [hsame]
    exact h

/-- **The ClientKeyExchange**, with or without a client certificate before it. -/
theorem sendClientKeyExchange_spec {text : String} {ckeBody preMaster master : Bytes} {sent : Bool}
    (h : At env input d (.certificate n sent) s ∨ sent = false ∧ At env input d (.serverDone n false) s)
    (hmaster : masterSecret n.suite preMaster n.clientRandom.val n.serverRandom.val = .ok master) :
    wp (sendMessage text (.clientKeyExchange ⟨ckeBody⟩))
      (fun _ s' => At env input d (if sent then .certifying ⟨n, master⟩ else .ready ⟨n, master⟩) s')
      (Ended env input d.params) s := by
  rcases h with ⟨f, htracks, hlog⟩ | ⟨rfl, f, htracks, hlog⟩
  · cases sent with
    | true => exact sendMessage_spec htracks hlog trivial (fun _ ho => .certifiedKeyExchange ho hmaster)
    | false => exact sendMessage_spec htracks hlog trivial (fun _ ho => .anonymousKeyExchange ho hmaster)
  · exact sendMessage_spec htracks hlog trivial (fun _ ho => .clientKeyExchange ho hmaster)

theorem signDigest_spec (key : PrivateKey) (cryptoHash : CryptoHash) (digest : Bytes)
    (h : At env input d st s) (hst : st.Live) :
    wp (signDigest env key cryptoHash digest) (fun _ s' => At env input d st s')
      (Ended env input d.params) s := by
  unfold signDigest
  cases key with
  | rsa k | ecdsa _ k =>
      exact wp_orFatal (wp_drawing (fun _ r => h.setRands r) (fun _ r => (h.setRands r).exits hst))
  | other t => exact wp_fatal.mpr ((h.exits hst).fatal _ _)

/-- **A digest is taken over the log.** -/
theorem sumTranscript_spec {purpose : Purpose} {factory : Option Hash} {log : Bytes}
    (hlog : s.transcript.Records log) :
    wp (sumTranscript purpose factory)
      (fun digest s' => s' = s.log (.summed purpose log) ∧
        ∃ hash, factory = some hash ∧ digest = hash.sum log)
      (fun _ s' => s' = s) s := by
  apply (sumTranscript_logs purpose factory s).imp
  rintro digest _ ⟨hsum, rfl⟩
  obtain ⟨hbuf, hash, hfactory, hdigest⟩ := Transcript.sum_ok hlog hsum
  rw [hbuf]
  exact ⟨rfl, hash, hfactory, hdigest⟩

/-- A digest that the protocol permits. -/
theorem Tracks.summed {purpose : Purpose} {buf : Bytes} {st' : Stage} (h : Tracks env input d f st s)
    (hperm : Permits env d.params f st (.summed purpose buf) st') :
    Tracks env input d f st' (s.log (.summed purpose buf)) :=
  ⟨h.facts, h.run.snoc ⟨.summed, hperm⟩, h.buf, h.agree⟩

theorem sendCertificateVerify_spec (alg : SigAndHash) (h : At env input d (.certifying k) s) :
    wp (sendCertificateVerify env alg) (fun _ s' => At env input d (.ready k) s')
      (Ended env input d.params) s := by
  have hx := h.exits trivial
  obtain ⟨f, htracks, hlog⟩ := h
  unfold sendCertificateVerify
  rw [wp_bind]
  apply wp_orFatal_compute hx
  intro cryptoHash _
  rw [wp_bind]
  apply wp_orFatal
  apply wp.mono (sumTranscript_spec hlog)
  · rintro digest _ ⟨rfl, -⟩
    have hsigning : At env input d (.signing k) (s.log (.summed .certificateVerify f.log)) :=
      ⟨f, htracks.summed .digestToSign, hlog⟩
    rw [wp_bind, wp_get]
    split
    · exact (hsigning.exits trivial).panic
    · apply wp_call (signDigest_spec _ _ _ hsigning trivial)
      rintro sig s' ⟨f', htracks', hlog'⟩
      exact sendMessage_spec htracks' hlog' trivial (fun _ ho => .certificateVerify ho)
  · rintro _ _ rfl
    exact hx

/-! ## Finishing -/

/-- The `verify_data` is over the log. -/
theorem finishedData_spec {E : Err → ClientState → Prop} {purpose : Purpose}
    {site label verifyText : String} {master log : Bytes} {suite : Suite} (hsuite : s.suite = some suite)
    (hlog : s.transcript.Records log) (hx : Exits E s) (hx' : Exits E (s.log (.summed purpose log))) :
    wp (finishedData purpose site label verifyText master)
      (fun data s' => s' = s.log (.summed purpose log) ∧ ∃ hash, suite.prf.hash = some hash ∧
        finishedVerifyData suite master label (hash.sum log) = .ok data) E s := by
  unfold finishedData
  rw [wp_bind]
  apply wp_getSuite_some hsuite
  rw [wp_bind]
  apply wp_orFatal
  apply wp.mono (sumTranscript_spec hlog)
  · rintro digest _ ⟨rfl, hash, hhash, rfl⟩
    exact wp_orFatal_compute hx' (fun data hdata => ⟨rfl, hash, hhash, hdata⟩)
  · rintro _ _ rfl
    exact hx

theorem sendFinished_spec {sendProt recvProt : Protector} (h : At env input d (.ready k) s)
    (hsuite : d.suite = some k.suite) (hkeys : k.protectors env = .ok (sendProt, recvProt)) :
    wp (sendFinished k.master sendProt) (fun _ s' => At env input d (.finished k) s')
      (Ended env input d.params) s := by
  obtain ⟨f, htracks, hlog⟩ := h
  unfold sendFinished
  rw [wp_bind]
  apply wp_orFatal
  apply wp.mono (htracks.writeRecord trivial
    (fun o hct hpayload hok => .changeCipherSpec hct hok hpayload)) _ (fun _ _ h => h.exits)
  rintro _ s₁ ⟨htranscript, f₁, htracks₁, hlog₁⟩
  -- The ChangeCipherSpec is no message: the transcript is still up to date.
  have hlog₁ : s₁.transcript.Records f₁.log := by
    rw [hlog₁, if_neg (by decide), List.append_nil, htranscript]
    exact hlog
  unfold installSend
  rw [wp_bind, wp_modify]
  set s₂ := (s₁.log (.installedSend sendProt)).setLayer
    (s₁.layer.changeCipherSpec (some sendProt) none) with hs₂
  have hkeyed : Tracks env input d { f₁ with sendProt := sendProt, sendSeq := 0 } (.keyed k) s₂ :=
    ⟨htracks₁.facts, htracks₁.run.snoc ⟨.installedSend, .installSend hkeys⟩, htracks₁.buf,
      ⟨rfl, rfl, htracks₁.agree.recvProt, htracks₁.agree.recvSeq, htracks₁.agree.input⟩⟩
  have hfinishing := hkeyed.summed (.digestToFinish)
  apply wp_call (finishedData_spec
    ((congrArg Facts.suite hkeyed.facts).trans hsuite) hlog₁
    (hkeyed.trouble trivial).exits (hfinishing.trouble trivial).exits)
  rintro data _ ⟨rfl, hash, hhash, hdata⟩
  exact sendMessage_spec hfinishing hlog₁ trivial (fun _ ho => .clientFinished ho hhash hdata)

/-- **The server's ChangeCipherSpec**, with nothing buffered. -/
theorem receiveChangeCipherSpec_spec (h : At env input d (.finished k) s) (hbuf : s.hsBuf = []) :
    wp receiveChangeCipherSpec (fun _ s' => At env input d (.changed k) s')
      (Ended env input d.params) s := by
  obtain ⟨f, htracks, hlog⟩ := h
  unfold receiveChangeCipherSpec
  rw [wp_bind]
  apply wp_orFatal
  apply wp.mono (readRecord_spec htracks.agree)
  · rintro ⟨ct, payload⟩ _ ⟨f', hstep, hbuf', hflog, hagree, l, rfl⟩
    have htrouble : Trouble env input d.params
        ((s.log (.read ⟨f.recvProt, f.recvSeq, ct, payload⟩)).setLayer l) :=
      ⟨f', .broken, htracks.run.snoc ⟨hstep, .badRead trivial⟩, trivial, hagree.sendProt, hagree.sendSeq⟩
    rw [wp_bind]
    apply wp_fatalIf htrouble.exits
    intro hct
    apply wp_fatalIf htrouble.exits
    intro hpayload
    obtain rfl : ct = contentTypeChangeCipherSpec := not_not.mp hct
    refine ⟨f', ⟨htracks.facts, htracks.run.snoc ⟨hstep, .serverChangeCipherSpec
      (htracks.buf.symm.trans hbuf) rfl (not_not.mp hpayload)⟩, ?_, hagree⟩, ?_⟩
    · rw [hbuf', ← htracks.buf, Incoming.data,
        if_neg (show ¬ contentTypeChangeCipherSpec = contentTypeHandshake by decide), List.append_nil]
      rfl
    · rw [hflog]
      exact hlog
  · rintro _ _ ⟨l, rfl, hprot, hseq⟩
    exact Trouble.exits ⟨f, _, htracks.run, trivial, hprot, hseq⟩

/-- **The server's Finished** is checked against the log without it, and nothing may follow it. -/
theorem receiveServerFinished_spec {sendProt recvProt : Protector} (h : At env input d (.finished k) s)
    (hbuf : s.hsBuf = []) (hsuite : d.suite = some k.suite)
    (hkeys : k.protectors env = .ok (sendProt, recvProt)) :
    wp (receiveServerFinished k.master recvProt) (fun _ s' => At env input d (.complete k) s')
      (Ended env input d.params) s := by
  unfold receiveServerFinished
  apply wp_call (receiveChangeCipherSpec_spec h hbuf)
  rintro _ s₁ ⟨f₁, htracks₁, hlog₁⟩
  unfold installRecv
  rw [wp_bind, wp_modify]
  have hrekeyed : At env input d (.rekeyed k) ((s₁.log (.installedRecv recvProt)).setLayer
      (s₁.layer.changeCipherSpec none (some recvProt))) :=
    ⟨{ f₁ with recvProt := recvProt, recvSeq := 0 },
      ⟨htracks₁.facts, htracks₁.run.snoc ⟨.installedRecv, .installRecv hkeys⟩, htracks₁.buf,
        ⟨htracks₁.agree.sendProt, htracks₁.agree.sendSeq, rfl, rfl, htracks₁.agree.input⟩⟩, hlog₁⟩
  apply wp_call (receiveMessage_spec hrekeyed trivial)
  rintro ⟨msg, payload⟩ s₂ ⟨⟨f₂, htook⟩, hparse⟩
  cases msg with
  | finished serverFinished =>
      obtain ⟨f₃, hlog₃, hbuf₃, hchecking⟩ := htook.tracks .serverFinished
      have hmismatch := hchecking.summed (.mismatch hlog₃)
      have hx := (hmismatch.trouble trivial).exits
      obtain rfl : serverFinished.verifyData = payload := parseFinished_ok (parseBody_finished hparse)
      dsimp only
      apply wp_call (finishedData_spec ((congrArg Facts.suite hchecking.facts).trans hsuite) htook.log
        (htook.exits trivial) hx)
      rintro expected _ ⟨rfl, hash, hhash, hdata⟩
      rw [wp_bind]
      apply wp_fatalIf hx
      intro hequal
      rw [wp_bind, wp_get, wp_bind]
      apply wp_fatalIf hx
      intro hempty
      obtain rfl : serverFinished.verifyData = expected := equalVerifyData_iff.mp (by simpa using hequal)
      -- The digest was over the log without the Finished, which now joins the transcript.
      have hcomplete := hchecking.summed (.verified hlog₃ hhash hdata
        (hbuf₃.trans (List.length_eq_zero_iff.mp (not_not.mp hempty))))
      refine ⟨f₃, ⟨hcomplete.facts, hcomplete.run, hcomplete.buf, hcomplete.agree⟩, ?_⟩
      rw [hlog₃]
      exact htook.log.write _
  | _ => exact wp_fatal.mpr ((htook.exits trivial).fatal _ _)

/-- The client's state holds what was negotiated. -/
structure Holds (s : ClientState) (k : Keyed) : Prop where
  suite : s.suite = some k.suite
  clientRandom : s.clientRandom = k.clientRandom
  serverRandom : s.serverRandom = k.serverRandom
  masterSecret : s.masterSecret = k.master

/-- The client has come to the end of the protocol. -/
structure Completed (env : Env) (input : Reader) (params : ClientParams) (k : Keyed) (s : ClientState) :
    Prop where
  followed : ∃ d, d.params = params ∧ At env input d (.complete k) s
  holds : Holds s k

theorem finish_spec {params : ClientParams} {certReq : Option CertificateRequest} {sent : Bool}
    {sendProt recvProt : Protector}
    (h : At env input ⟨params, k.clientRandom, k.serverRandom, some k.suite, k.master, certReq, sent⟩
      (.ready k) s) (hkeys : k.protectors env = .ok (sendProt, recvProt)) :
    wp (finish k.master sendProt recvProt) (fun _ s' => Completed env input params k s')
      (Ended env input params) s := by
  unfold finish
  apply wp_call (sendFinished_spec h rfl hkeys)
  intro _ s₁ h₁
  rw [wp_bind, wp_get, wp_bind]
  apply wp_fatalIf (h₁.exits trivial)
  intro hbuf
  apply wp_call (receiveServerFinished_spec h₁ (List.length_eq_zero_iff.mp (not_not.mp hbuf)) rfl hkeys)
  rintro _ s₂ ⟨f, htracks, hlog⟩
  rw [wp_modify]
  have hfacts := htracks.facts
  exact ⟨⟨_, rfl, f, ⟨hfacts, htracks.run, htracks.buf, htracks.agree⟩, hlog⟩,
    ⟨congrArg Facts.suite hfacts, congrArg Facts.clientRandom hfacts, congrArg Facts.serverRandom hfacts,
      congrArg Facts.masterSecret hfacts⟩⟩

end

/-! ## The handshake -/

/-- The record layer of a handshake is fresh. -/
theorem at_start (env : Env) (params : ClientParams) (input : Reader) (output : Writer) (rand : Entropy)
    (config : Option Entropy) :
    At env input ⟨params, .copy [], .copy [], none, [], none, false⟩ .start
      (freshClient params input output rand config) :=
  ⟨.init input, ⟨rfl, .nil, rfl, ⟨rfl, rfl, rfl, rfl, rfl⟩⟩, fun _ => rfl⟩

/-- The client has the keys of a handshake that was negotiated, and nothing has been sent under them. -/
structure Negotiating (env : Env) (input : Reader) (params : ClientParams) (n : Negotiated)
    (req : Option CertificateRequest) (ms : Bytes) (sendProt recvProt : Protector) (s : ClientState) :
    Prop where
  stage : At env input ⟨params, n.clientRandom, n.serverRandom, some n.suite, ms, req, false⟩
    (.serverDone n req.isSome) s
  master : ∃ preMaster, masterSecret n.suite preMaster n.clientRandom.val n.serverRandom.val = .ok ms
  keys : Keyed.protectors env ⟨n, ms⟩ = .ok (sendProt, recvProt)

/-- **From the ServerHello to the keys.** -/
theorem agreeKeys_spec {env : Env} {input : Reader} {params : ClientParams} {cr : Random}
    {s : ClientState} (h₁ : At env input ⟨params, cr, .copy [], none, [], none, false⟩ (.hello cr) s) :
    wp (agreeKeys env) (fun r s => ∃ n req, Negotiating env input params n req r.2.1 r.2.2.1 r.2.2.2 s)
      (Ended env input params) s := by
  unfold agreeKeys
  apply wp_call (recvServerHello_spec h₁)
  rintro _ s₂ ⟨suite, sr, h₂⟩
  apply wp_call (recvCertificate_spec h₂)
  intro serverCert s₃ h₃
  apply wp_call (recvServerFlight_spec serverCert h₃ rfl rfl)
  rintro serverParams s₄ ⟨req, h₄⟩
  apply wp_call (computeKeyExchange_spec serverCert serverParams h₄ trivial)
  rintro ⟨preMaster, ckeBody⟩ s₅ h₅
  dsimp only
  rw [wp_bind]
  apply wp_getSuite_some h₅.suite_eq
  rw [wp_bind, wp_get, wp_bind]
  apply wp_orFatal_compute (h₅.exits trivial)
  intro ms hms
  rw [wp_bind, wp_modify]
  -- The master secret is the one of the two randoms in the hellos.
  obtain ⟨f, htracks, hlog⟩ := h₅
  have hkeyed : At env input ⟨params, cr, sr, some suite, ms, req, false⟩
      (.serverDone ⟨suite, cr, sr⟩ req.isSome) { s₅ with masterSecret := ms } :=
    ⟨f, ⟨congrArg (fun d : Facts => { d with masterSecret := ms }) htracks.facts, htracks.run,
      htracks.buf, htracks.agree⟩, hlog⟩
  have hmaster : masterSecret suite preMaster cr.val sr.val = .ok ms := by
    rw [show s₅.clientRandom = cr from congrArg Facts.clientRandom htracks.facts,
      show s₅.serverRandom = sr from congrArg Facts.serverRandom htracks.facts] at hms
    exact hms
  apply wp_call (expandKeys_spec hkeyed trivial rfl)
  rintro ⟨sendProt, recvProt⟩ _ ⟨rfl, hkeys⟩
  exact ⟨⟨suite, cr, sr⟩, req, hkeyed, ⟨preMaster, hmaster⟩, hkeys⟩

/-- **From the keys to the end.** -/
theorem conclude_spec {env : Env} {input : Reader} {params : ClientParams} {n : Negotiated}
    {req : Option CertificateRequest} {ms : Bytes} {sendProt recvProt : Protector} {s : ClientState}
    (h : Negotiating env input params n req ms sendProt recvProt s) (ckeBody : Bytes) :
    wp (conclude env ckeBody ms sendProt recvProt) (fun _ s => Completed env input params ⟨n, ms⟩ s)
      (Ended env input params) s := by
  obtain ⟨hstage, ⟨preMaster, hmaster⟩, hkeys⟩ := h
  unfold conclude
  apply wp_call (answerCertificateRequest_spec hstage rfl)
  rintro _ s₁ ⟨sent, h₁⟩
  apply wp_call (sendClientKeyExchange_spec h₁ hmaster)
  intro _ s₂ h₂
  rw [wp_bind, wp_get]
  have hsent : s₂.clientCertSent = sent := by
    obtain ⟨f, htracks, -⟩ := h₂
    exact congrArg Facts.clientCertSent htracks.facts
  rw [hsent]
  apply wp_ite
  · rintro rfl
    exact wp_call (sendCertificateVerify_spec _ h₂) (fun _ s₃ h₃ => finish_spec (k := ⟨n, ms⟩) h₃ hkeys)
  · intro hnot
    obtain rfl : sent = false := by simpa using hnot
    exact finish_spec (k := ⟨n, ms⟩) h₂ hkeys

/-- **Refinement.** Every run of the client is a run of the protocol: to the end if it succeeds, and if
    not, to a stage at which the protocol is over. -/
theorem handshake_refines (env : Env) (params : ClientParams) (input : Reader) (output : Writer)
    (rand : Entropy) (config : Option Entropy) :
    wp (handshake env) (fun _ s => ∃ k, Completed env input params k s) (Ended env input params)
      (freshClient params input output rand config) := by
  rw [handshake_eq]
  apply wp_call (sendClientHello_spec (at_start env params input output rand config))
  rintro _ s₁ ⟨cr, h₁⟩
  apply wp_call (agreeKeys_spec h₁)
  rintro ⟨ckeBody, ms, sendProt, recvProt⟩ s ⟨n, req, h⟩
  exact (conclude_spec h ckeBody).imp (fun _ _ hcompleted => ⟨_, hcompleted⟩)

end Gostls
