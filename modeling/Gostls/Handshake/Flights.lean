import Gostls.Handshake.KeyAgreement
import Gostls.Handshake.Underway

/-!
# `Gostls.Handshake.Flights` — each step of the handshake with a server that plays by the rules

One lemma for each function of the client: where the conversation is `Underway` and the next message of the
server is one that the client has no reason to refuse, the function returns, and the conversation is
underway one step further. They are put together into the three parts of the handshake
(`sendClientHello_underway`, `agreeKeys_underway`, `conclude_underway`) and its end (`finish_underway`).
-/

namespace Gostls

open Lib

/-! ## The handshake, step by step -/

section Steps

variable {env : Env} {l₀ far : Layer} {rest : Reader} {d : Known} {said later : List ChannelOp}
  {msgs : List (UInt8 × Bytes)} {log body : Bytes} {s : ClientState} {r r' : Rands} {n : Negotiated}
  {gc : GostCertificate}

theorem sendClientHello_underway {random : Bytes}
    (h : Underway l₀ far rest d [] msgs later [] s) (hclear : InClear r s)
    (hdraw : RandM.withConfig (RandM.readFull tlsRandomLen) r = .ok random r') (hr' : r'.Reliable)
    (hlen : (marshalMessage (.clientHello (clientHello d.params (.copy random)))).length ≤
      tlsMaxPlaintextLen) :
    wp sendClientHello (fun _ t => Underway l₀ far rest { d with clientRandom := .copy random }
      [.record contentTypeHandshake (marshalMessage (.clientHello (clientHello d.params (.copy random))))]
      msgs later (marshalMessage (.clientHello (clientHello d.params (.copy random)))) t ∧ InClear r' t)
      Never s := by
  have hdraw' : RandM.mapErr (.errorf "tls: generate client random")
      (RandM.withConfig (RandM.readFull tlsRandomLen)) r = .ok random r' := by
    simp only [RandM.mapErr, hdraw]
  unfold sendClientHello
  apply wp_call (drawing_underway h hclear hdraw' hr')
  rintro random t ⟨rfl, hunder, hclear'⟩
  have hhello : clientHello t.params (.copy random) = clientHello d.params (.copy random) :=
    congrArg (fun k : Known => clientHello k.params (.copy random)) hunder.known
  rw [wp_bind, wp_modify, wp_bind, wp_get]
  have hkept := hunder.remember (t := { t with clientRandom := .copy random }) rfl rfl rfl
    (congrArg (fun k : Known => { k with clientRandom := .copy random }) hunder.known)
  dsimp only
  rw [hhello]
  apply wp_call (wp_orFail_returns (writeRecord_underway hkept (by decide) hlen (by decide)))
  rintro _ u ⟨hwrote, hkeep⟩
  exact ⟨hwrote.record _, (hkeep r' ⟨hclear'.prot, hclear'.rands⟩).record _⟩

theorem recvServerHello_underway {sh : ServerHello} {suite : Suite}
    (h : Underway l₀ far rest d said ((typeServerHello, body) :: msgs) later log s) (hclear : InClear r s)
    (hbody : body.length ≤ maxHandshakeMsg) (hneg : Negotiates env d.params body sh)
    (hlookup : lookup env.hashes sh.cipherSuite = some suite) :
    wp (recvServerHello env) (fun _ t => Underway l₀ far rest
      { d with suite := some suite, serverRandom := sh.random } said msgs later
      (log ++ buildEnvelope typeServerHello body) t ∧ InClear r t) Never s := by
  have hparse : parseBody typeServerHello body = .ok (.serverHello sh) :=
    bind_eq_ok.mpr ⟨sh, hneg.parses, rfl⟩
  unfold recvServerHello
  apply wp_call (receiveMessage_underway h hbody hparse)
  rintro _ t ⟨rfl, hunder, hheard⟩
  have hparams : t.params = d.params := congrArg (·.params) hunder.known
  have hclear' := hheard.inClear hclear
  dsimp only
  rw [wp_bind]
  apply wp_passed (not_not.mpr hneg.version)
  rw [wp_bind, wp_get, wp_bind, hparams]
  apply wp_passed (not_not.mpr hneg.offered)
  rw [hlookup]
  dsimp only
  rw [wp_bind, wp_modify, wp_bind]
  apply wp_passed (not_not.mpr hneg.compression)
  rw [wp_bind]
  apply wp_passed (fun hems => extendedMasterSecret_refused hneg.parses hems hneg)
  rw [wp_bind]
  apply wp_forM_check
  · intro extType hmem hbad
    exact hbad ((mem_offeredExt _ _).mpr (hneg.types extType hmem))
  · intro _
    rw [wp_bind, wp_modify]
    have hkept := hunder.remember (t := { t with suite := some suite, serverRandom := sh.random })
      rfl rfl rfl
      (congrArg (fun k : Known => { k with suite := some suite, serverRandom := sh.random }) hunder.known)
    exact ⟨hkept.record _, hclear'.prot, hclear'.rands⟩

/-- The leaf's GOST key is kept, if it has one. -/
theorem parseAndVerifyChain_returns {rawLeaf : Bytes} {rawInter : List Bytes}
    {chains : List (List X509Certificate)} (hleaf : env.parseX509Gost rawLeaf = .ok gc)
    (hverify : verifyChain env s.params gc rawInter = .ok chains) (hnone : s.gostLeaf = none) :
    wp (parseAndVerifyChain env (rawLeaf :: rawInter))
      (fun res t => res = (gc.stdlib, chains) ∧ t = { s with gostLeaf := gostLeafOf gc }) Never s := by
  have hparsed : annotate "parse server leaf certificate" (env.parseX509Gost rawLeaf) = .ok gc := by
    rw [hleaf, annotate_ok]
  unfold parseAndVerifyChain gostLeafOf
  dsimp only
  rw [hparsed, wp_bind]
  apply wp_computed rfl
  by_cases hkey : gc.hasGOSTPubKey = true
  · rw [if_pos hkey, if_pos hkey, wp_bind, wp_modify, wp_bind, wp_get, wp_bind]
    apply wp_computed (show verifyChain env s.params gc rawInter = _ from hverify)
    exact ⟨rfl, rfl⟩
  · rw [if_neg hkey, if_neg hkey, wp_bind, wp_get, wp_bind]
    apply wp_computed hverify
    refine ⟨rfl, ?_⟩
    rw [← hnone]

theorem recvCertificate_underway
    (h : Underway l₀ far rest d said ((typeCertificate, body) :: msgs) later log s) (hclear : InClear r s)
    (hbody : body.length ≤ maxHandshakeMsg) (hchain : ChainAccepted env d.params body gc)
    (hnone : d.gostLeaf = none) :
    wp (recvCertificate env) (fun leaf t => leaf = gc.stdlib ∧ Underway l₀ far rest
      { d with gostLeaf := gostLeafOf gc } said msgs later (log ++ buildEnvelope typeCertificate body) t ∧
      InClear r t) Never s := by
  obtain ⟨rawLeaf, rawInter, chains, hparse, hleaf, htrusted, happroved⟩ := hchain
  have hverify := verifyChain_ok_iff.mpr htrusted
  have hparse' : parseBody typeCertificate body = .ok (.certificate ⟨rawLeaf :: rawInter⟩) :=
    bind_eq_ok.mpr ⟨_, hparse, rfl⟩
  unfold recvCertificate
  apply wp_call (receiveMessage_underway h hbody hparse')
  rintro _ t ⟨rfl, hunder, hheard⟩
  have hclear' := hheard.inClear hclear
  have hparams : t.params = d.params := congrArg (·.params) hunder.known
  dsimp only
  rw [wp_bind]
  apply wp_passed (fun hempty => nomatch hempty)
  apply wp_call (wp_orFatal_returns (parseAndVerifyChain_returns hleaf (hparams ▸ hverify)
    ((congrArg (·.gostLeaf) hunder.known).trans hnone)))
  rintro _ u ⟨rfl, rfl⟩
  have hkept := (hunder.remember (t := { t with gostLeaf := gostLeafOf gc }) rfl rfl rfl
    (congrArg (fun k : Known => { k with gostLeaf := gostLeafOf gc }) hunder.known)).record
      (buildEnvelope typeCertificate body)
  rw [wp_bind, wp_get]
  split
  · exact ⟨rfl, hkept, hclear'.prot, hclear'.rands⟩
  · rename_i verify hverifier
    rw [wp_bind]
    apply wp_orFatal_returns
    apply wp_computed (happroved verify (hparams ▸ hverifier))
    exact ⟨rfl, hkept, hclear'.prot, hclear'.rands⟩

/-! ### The rest of the server's flight -/

variable {cert : X509Certificate} {rounds : Nat} {sawSKE sawCertReq : Bool} {keyParams : Bytes}

theorem recvServerFlightLoop_done
    (h : Underway l₀ far rest d said [(typeServerHelloDone, [])] later log s) (hclear : InClear r s) :
    wp (recvServerFlightLoop env cert (rounds + 1) sawSKE sawCertReq keyParams)
      (fun res t => res = (sawSKE, keyParams) ∧ Underway l₀ far rest d said [] later
        (log ++ envelopes [(typeServerHelloDone, [])]) t ∧ InClear r t) Never s := by
  unfold recvServerFlightLoop
  apply wp_call (wp_orFatal_returns (readHandshakeRecord_underway h (Nat.zero_le _)))
  rintro _ t ⟨rfl, hunder, hheard⟩
  dsimp only
  rw [if_neg (by decide), if_neg (by decide), if_pos rfl, wp_bind, parsePayload_eq (Nat.zero_le _)]
  apply wp_orFatal_returns
  apply wp_computed rfl
  rw [envelopes_cons, envelopes_nil, List.append_nil]
  exact ⟨rfl, hunder.record _, (hheard.inClear hclear).record _⟩

theorem recvServerFlightLoop_request {request : Option Bytes} {req : Option CertificateRequest}
    (hreq : Requests request req) (hnone : d.certReq = none)
    (h : Underway l₀ far rest d said
      (request.toList.map (typeCertificateRequest, ·) ++ [(typeServerHelloDone, [])]) later log s)
    (hclear : InClear r s) (hshort : ∀ body ∈ request, body.length ≤ maxHandshakeMsg) :
    wp (recvServerFlightLoop env cert (rounds + 2) sawSKE false keyParams)
      (fun res t => res = (sawSKE, keyParams) ∧ Underway l₀ far rest { d with certReq := req } said [] later
        (log ++ envelopes (request.toList.map (typeCertificateRequest, ·) ++ [(typeServerHelloDone, [])])) t ∧
        InClear r t) Never s := by
  cases hreq with
  | none =>
      have hd : { d with certReq := none } = d := by rw [← hnone]
      rw [hd]
      exact recvServerFlightLoop_done h hclear
  | @some body req hparse =>
      have hbody := hshort body rfl
      have hparse' : parseBody typeCertificateRequest body = .ok (.certificateRequest req) :=
        bind_eq_ok.mpr ⟨req, hparse, rfl⟩
      unfold recvServerFlightLoop
      apply wp_call (wp_orFatal_returns (readHandshakeRecord_underway h hbody))
      rintro _ t ⟨rfl, hunder, hheard⟩
      have hclear' := hheard.inClear hclear
      dsimp only
      rw [if_neg (by decide), if_pos rfl, wp_bind]
      apply wp_passed Bool.false_ne_true
      rw [wp_bind, parsePayload_eq hbody]
      apply wp_orFatal_returns
      apply wp_computed hparse'
      dsimp only
      rw [wp_bind, wp_modify, wp_bind]
      have hkept := hunder.remember (t := { t with certReq := some req }) rfl rfl rfl
        (congrArg (fun k : Known => { k with certReq := some req }) hunder.known)
      have hdone : wp (recvServerFlightLoop env cert (rounds + 1) sawSKE true keyParams) _ Never _ :=
        recvServerFlightLoop_done (hkept.record (buildEnvelope typeCertificateRequest body))
          ⟨hclear'.prot, hclear'.rands⟩
      rw [List.append_assoc] at hdone
      exact hdone

/-- **The rest of the flight.** -/
theorem recvServerFlight_underway {f : ServerFlight} {req : Option CertificateRequest}
    (hske : Exchanges env cert n f.keyExchange keyParams) (hreq : Requests f.request req)
    (hsuite : d.suite = some n.suite) (hcr : d.clientRandom = n.clientRandom)
    (hsr : d.serverRandom = n.serverRandom) (hnone : d.certReq = none)
    (h : Underway l₀ far rest d said (f.messages.drop 2) later log s) (hclear : InClear r s)
    (hshort : ∀ m ∈ f.messages, m.2.length ≤ maxHandshakeMsg) :
    wp (recvServerFlight env cert) (fun res t => res = keyParams ∧
      Underway l₀ far rest { d with certReq := req } said [] later (log ++ envelopes (f.messages.drop 2)) t ∧
      InClear r t) Never s := by
  obtain ⟨hello, certificate, keyExchange, request⟩ := f
  have hrequest : ∀ body ∈ request, body.length ≤ maxHandshakeMsg := by
    intro body hbody
    apply hshort (typeCertificateRequest, body)
    rw [Option.mem_def.mp hbody]
    simp [ServerFlight.messages]
  unfold recvServerFlight
  cases hske with
  | none hneeds =>
      apply wp_call (recvServerFlightLoop_request hreq hnone h hclear hrequest)
      rintro _ t ⟨rfl, hunder, hclear'⟩
      dsimp only
      rw [if_neg Bool.false_ne_true, wp_bind]
      apply wp_getSuite_some ((congrArg (·.suite) hunder.known).trans hsuite)
      rw [wp_bind]
      apply wp_passed (by simp [hneeds])
      exact ⟨rfl, hunder, hclear'⟩
  | @signed body _ sig trailing alg hsigned =>
      have hbody : body.length ≤ maxHandshakeMsg :=
        hshort (typeServerKeyExchange, body) (by simp [ServerFlight.messages])
      rw [wp_bind]
      unfold recvServerFlightLoop
      apply wp_call (wp_orFatal_returns (readHandshakeRecord_underway h hbody))
      rintro _ t ⟨rfl, hunder, hheard⟩
      have hclear' := hheard.inClear hclear
      dsimp only
      rw [if_pos rfl, wp_bind]
      apply wp_passed Bool.false_ne_true
      rw [wp_bind]
      apply wp_passed Bool.false_ne_true
      rw [wp_bind, parsePayload_eq hbody]
      apply wp_orFatal_returns
      apply wp_computed rfl
      have hkept := hunder.record (buildEnvelope typeServerKeyExchange body)
      dsimp only
      rw [wp_bind, wp_writeTranscript, wp_bind]
      apply wp_of_ok ((verifyServerKeyExchange_returns_iff ((congrArg (·.suite) hkept.known).trans hsuite)
        ((congrArg (·.clientRandom) hkept.known).trans hcr)
        ((congrArg (·.serverRandom) hkept.known).trans hsr)).mpr ⟨rfl, _, _, _, hsigned⟩)
      apply (recvServerFlightLoop_request hreq hnone hkept (hclear'.record _) hrequest).imp
      rintro _ u ⟨rfl, hunder', hclear''⟩
      dsimp only
      rw [if_pos rfl]
      rw [List.append_assoc] at hunder'
      exact ⟨rfl, hunder', hclear''⟩

/-! ### The keys -/

theorem computeKeyExchange_underway {cke preMaster : Bytes}
    (hsuite : d.suite = some n.suite) (hleaf : d.gostLeaf = gostLeafOf gc)
    (hcr : d.clientRandom = n.clientRandom) (hsr : d.serverRandom = n.serverRandom)
    (hrun : leafKeyExchange env gc n keyParams r = .ok (cke, preMaster) r') (hr' : r'.Reliable)
    (h : Underway l₀ far rest d said msgs later log s) (hclear : InClear r s) :
    wp (computeKeyExchange env gc.stdlib keyParams) (fun res t => res = (preMaster, cke) ∧
      Underway l₀ far rest d said msgs later log t ∧ InClear r' t) Never s := by
  rw [← hclear.rands] at hrun
  have hok := (computeKeyExchange_returns_iff ((congrArg (·.suite) h.known).trans hsuite)
    ((congrArg (·.gostLeaf) h.known).trans hleaf) ((congrArg (·.clientRandom) h.known).trans hcr)
    ((congrArg (·.serverRandom) h.known).trans hsr)).mpr ⟨r', hrun, rfl⟩
  exact wp_of_ok hok ⟨rfl, h.setRands hr', hclear.prot, rfl⟩

end Steps

/-! ## What the two ends come to -/

/-- What the client knows before its handshake. -/
def Known.fresh (params : ClientParams) : Known :=
  ⟨⟨params, .copy [], .copy [], none, [], none, false⟩, ⟨0, 0⟩, none⟩

/-- What it knows when it has its keys. -/
def Known.keyed (params : ClientParams) (k : Keyed) (req : Option CertificateRequest)
    (gc : GostCertificate) : Known :=
  ⟨⟨params, k.clientRandom, k.serverRandom, some k.suite, k.master, req, false⟩, ⟨0, 0⟩, gostLeafOf gc⟩

/-- What it knows when it has answered a CertificateRequest. -/
def Known.answered (d : Known) : Known :=
  { d with
    clientCertSent := (selectClientSigAlg d.certReq d.params.certificates).isSome
    clientSigAlg := (selectClientSigAlg d.certReq d.params.certificates).getD ⟨0, 0⟩ }

/-- The CertificateVerify of a client that has said and heard `log`, and what is left of its randomness. -/
inductive Certifies (env : Env) (params : ClientParams) (req : Option CertificateRequest) (log : Bytes)
    (r : Rands) : Option CertificateVerify → Rands → Prop
  | none (h : selectClientSigAlg req params.certificates = none) : Certifies env params req log r none r
  | signed {alg : SigAndHash} {cert : ClientCertificate} {others : List ClientCertificate}
      {cryptoHash : CryptoHash} {sig : Bytes} {r' : Rands}
      (halg : selectClientSigAlg req params.certificates = some alg)
      (hcert : params.certificates = cert :: others) (hhash : hashForSigAlg alg.hash = .ok cryptoHash)
      (hsig : RandM.withConfig (cert.privateKey.sign env cryptoHash
        ((cryptoHash.new env.hashes).sum log)) r = .ok sig r')
      (hlen : (marshalMessage (.certificateVerify ⟨alg, sig⟩)).length ≤ tlsMaxPlaintextLen) :
      Certifies env params req log r (some ⟨alg, sig⟩) r'

theorem body_length_le {m : UInt8 × Bytes} {msgs : List (UInt8 × Bytes)} (h : m ∈ msgs) :
    m.2.length ≤ (envelopes msgs).length := by
  obtain ⟨before, after, rfl⟩ := List.append_of_mem h
  rw [envelopes_append, envelopes_cons, List.length_append, List.length_append, buildEnvelope_length]
  omega

section Flights

variable {env : Env} {l₀ far : Layer} {rest : Reader} {said later : List ChannelOp}
  {msgs : List (UInt8 × Bytes)} {log : Bytes} {s : ClientState} {r r' : Rands} {gc : GostCertificate}
  {params : ClientParams} {p : Peer} {k : Keyed} {keyParams : Bytes} {req : Option CertificateRequest}
  {cke preMaster : Bytes} {sendProt recvProt : Protector} {d : Known}

/-- **From the ServerHello to the keys.** -/
theorem agreeKeys_underway {f : ServerFlight}
    (hacc : Acceptable env params k.toNegotiated f gc keyParams req)
    (hsize : (envelopes f.messages).length ≤ maxTranscriptBytes)
    (hrun : leafKeyExchange env gc k.toNegotiated keyParams r = .ok (cke, preMaster) r') (hr' : r'.Reliable)
    (hmaster : masterSecret k.suite preMaster k.clientRandom.val k.serverRandom.val = .ok k.master)
    (hkeys : k.protectors env = .ok (sendProt, recvProt))
    (h : Underway l₀ far rest { Known.fresh params with clientRandom := k.clientRandom } said
      f.messages later log s) (hclear : InClear r s) :
    wp (agreeKeys env) (fun res t => res = (cke, k.master, sendProt, recvProt) ∧
      Underway l₀ far rest (.keyed params k req gc) said [] later
        (log ++ envelopes f.messages) t ∧ InClear r' t) Never s := by
  obtain ⟨sh, hneg, hlookup, hrandom⟩ := hacc.hello
  have hshort : ∀ m ∈ f.messages, m.2.length ≤ maxHandshakeMsg := by
    intro m hm
    have hle := body_length_le hm
    simp only [maxHandshakeMsg, maxTranscriptBytes] at *
    omega
  unfold agreeKeys
  apply wp_call (recvServerHello_underway h hclear (hshort _ List.mem_cons_self) hneg hlookup)
  rintro _ t ⟨hunder, hclear⟩
  apply wp_call (recvCertificate_underway hunder hclear (hshort _ (List.mem_cons_of_mem _ List.mem_cons_self))
    hacc.certificate rfl)
  rintro _ t ⟨rfl, hunder, hclear⟩
  apply wp_call (recvServerFlight_underway hacc.keyExchange hacc.request rfl rfl hrandom rfl hunder hclear
    hshort)
  rintro _ t ⟨rfl, hunder, hclear⟩
  apply wp_call (computeKeyExchange_underway rfl rfl rfl hrandom hrun hr' hunder hclear)
  rintro _ t ⟨rfl, hunder, hclear⟩
  have hsuite' : t.suite = some k.suite := congrArg (·.suite) hunder.known
  have hcr' : t.clientRandom = k.clientRandom := congrArg (·.clientRandom) hunder.known
  have hsr' : t.serverRandom = k.serverRandom := (congrArg (·.serverRandom) hunder.known).trans hrandom
  dsimp only
  rw [wp_bind]
  apply wp_getSuite_some hsuite'
  rw [wp_bind, wp_get, hcr', hsr', wp_bind]
  apply wp_orFatal_returns
  apply wp_computed hmaster
  rw [wp_bind, wp_modify]
  have hexpand := expandKeys_returns (s := { t with masterSecret := k.master })
    (lookup_ok hlookup).1 hsuite' rfl hcr' hsr' hkeys
  rw [wp_bind]
  apply wp_of_ok hexpand
  have hknown : { t.known with masterSecret := k.master } = .keyed params k req gc := by
    rw [hunder.known, hrandom]
    rfl
  have hkept := hunder.remember (t := { t with masterSecret := k.master }) rfl rfl rfl hknown
  rw [List.append_assoc, List.append_assoc] at hkept
  exact ⟨rfl, hkept, hclear.prot, hclear.rands⟩

/-! ### The client's second flight -/

theorem clientRawCerts_short (husable : params.Usable env) (alg : Option SigAndHash) :
    (marshalMessage (.certificate ⟨clientRawCerts alg params.certificates⟩)).length ≤
      tlsMaxPlaintextLen := by
  unfold clientRawCerts
  split
  · rename_i cert others hcerts
    exact husable.certificate cert (hcerts ▸ List.mem_cons_self)
  · decide

theorem sendClientCertificate_underway (husable : params.Usable env)
    (h : Underway l₀ far rest (.keyed params k req gc) said msgs later log s) (hclear : InClear r s)
    (hfew : said.length < 2 ^ 64 - 1) :
    wp sendClientCertificate (fun res t => res = (selectClientSigAlg req params.certificates).isSome ∧
      Underway l₀ far rest (.keyed params k req gc)
        (said ++ sent [.certificate
          ⟨clientRawCerts (selectClientSigAlg req params.certificates) params.certificates⟩]) msgs later
        (log ++ marshalMessage (.certificate
          ⟨clientRawCerts (selectClientSigAlg req params.certificates) params.certificates⟩)) t ∧
      InClear r t) Never s := by
  have hreq : s.certReq = req := congrArg (·.certReq) h.known
  have hparams : s.params = params := congrArg (·.params) h.known
  unfold sendClientCertificate
  rw [wp_bind, wp_get, hreq, hparams]
  apply wp_call (sendMessage_underway h (clientRawCerts_short husable _) hfew)
  rintro _ t ⟨hunder, hkeep⟩
  refine ⟨?_, hunder, hkeep r hclear⟩
  -- Where an algorithm was found there is a certificate.
  cases halg : selectClientSigAlg req params.certificates with
  | none => rfl
  | some alg =>
      obtain ⟨_, cert, others, -, hcerts, -⟩ := selectClientSigAlg_some halg
      rw [hcerts]
      rfl

/-- **The answer to a CertificateRequest.** -/
theorem answerCertificateRequest_underway (husable : params.Usable env)
    (h : Underway l₀ far rest (.keyed params k req gc) said msgs later log s) (hclear : InClear r s)
    (hfew : said.length < 2 ^ 64 - 1) :
    wp answerCertificateRequest (fun _ t => Underway l₀ far rest (Known.keyed params k req gc).answered
      (said ++ sent ((clientChain req params.certificates).toList.map (.certificate ⟨·⟩))) msgs later
      (log ++ ((clientChain req params.certificates).toList.map (.certificate ⟨·⟩)).flatMap marshalMessage)
        t ∧ InClear r t) Never s := by
  have hreq : s.certReq = req := congrArg (·.certReq) h.known
  have hparams : s.params = params := congrArg (·.params) h.known
  unfold answerCertificateRequest
  rw [wp_bind, wp_get, hreq, hparams]
  cases req with
  | none =>
      simp only [clientChain, Option.map_none, Option.toList_none, List.map_nil, sent, List.flatMap_nil,
        List.append_nil]
      exact ⟨h, hclear⟩
  | some req =>
      apply wp_call (sendClientCertificate_underway husable h hclear hfew)
      rintro _ t ⟨rfl, hunder, hclear'⟩
      simp only [clientChain, Option.map_some, Option.toList_some, List.map_cons, List.map_nil,
        List.flatMap_cons, List.flatMap_nil, List.append_nil]
      unfold Known.answered
      show wp _ (fun _ t => Underway l₀ far rest { Known.keyed params k (some req) gc with
        clientCertSent := (selectClientSigAlg (some req) params.certificates).isSome
        clientSigAlg := (selectClientSigAlg (some req) params.certificates).getD ⟨0, 0⟩ } _ _ _ _ t ∧ _) _ _
      generalize selectClientSigAlg (some req) params.certificates = alg at hunder
      cases alg with
      | none => exact ⟨hunder, hclear'⟩
      | some alg =>
          rw [if_pos Option.isSome_some, wp_modify]
          exact ⟨hunder.remember rfl rfl rfl (congrArg (fun d : Known =>
            { d with clientCertSent := true, clientSigAlg := alg }) hunder.known), hclear'.prot,
            hclear'.rands⟩

theorem signDigest_underway {key : PrivateKey} {cryptoHash : CryptoHash} {digest sig : Bytes}
    (hsig : RandM.withConfig (key.sign env cryptoHash digest) r = .ok sig r') (hr' : r'.Reliable)
    (h : Underway l₀ far rest d said msgs later log s) (hclear : InClear r s) :
    wp (signDigest env key cryptoHash digest) (fun res t => res = sig ∧
      Underway l₀ far rest d said msgs later log t ∧ InClear r' t) Never s := by
  unfold signDigest
  cases key with
  | rsa k | ecdsa curve k => exact wp_orFatal_returns (drawing_underway h hclear hsig hr')
  | other t =>
      obtain ⟨_, _, hno⟩ := RandM.withConfig_ok hsig
      cases hno

theorem sendCertificateVerify_underway {alg : SigAndHash} {cert : ClientCertificate}
    {others : List ClientCertificate} {cryptoHash : CryptoHash} {sig : Bytes}
    (hcert : d.params.certificates = cert :: others) (hhash : hashForSigAlg alg.hash = .ok cryptoHash)
    (hsig : RandM.withConfig (cert.privateKey.sign env cryptoHash
      ((cryptoHash.new env.hashes).sum log)) r = .ok sig r') (hr' : r'.Reliable)
    (hlen : (marshalMessage (.certificateVerify ⟨alg, sig⟩)).length ≤ tlsMaxPlaintextLen)
    (h : Underway l₀ far rest d said msgs later log s) (hclear : InClear r s)
    (hcap : log.length ≤ maxTranscriptBytes) (hfew : said.length < 2 ^ 64 - 1) :
    wp (sendCertificateVerify env alg) (fun _ t => Underway l₀ far rest d
      (said ++ sent [.certificateVerify ⟨alg, sig⟩]) msgs later
      (log ++ marshalMessage (.certificateVerify ⟨alg, sig⟩)) t) Never s := by
  unfold sendCertificateVerify
  rw [wp_bind]
  apply wp_orFatal_returns
  apply wp_computed hhash
  apply wp_call (wp_orFatal_returns (sumTranscript_underway h hcap))
  rintro _ t ⟨rfl, hunder, hkeep⟩
  have hcert' : t.params.certificates = cert :: others :=
    (congrArg (·.params.certificates) hunder.known).trans hcert
  rw [wp_bind, wp_get, hcert']
  apply wp_call (signDigest_underway hsig hr' hunder (hkeep r hclear))
  rintro _ u ⟨rfl, hunder', -⟩
  exact (sendMessage_underway hunder' hlen hfew).imp (fun _ _ hs => hs.1)

/-! ### The end -/

theorem finishedData_underway {purpose : Purpose} {site label verifyText : String} {data : Bytes}
    (hdata : k.verifyData label log = .ok data) (hsuite : d.suite = some k.suite)
    (h : Underway l₀ far rest d said msgs later log s) (hcap : log.length ≤ maxTranscriptBytes) :
    wp (finishedData purpose site label verifyText k.master) (fun res t => res = data ∧
      Underway l₀ far rest d said msgs later log t) Never s := by
  unfold Keyed.verifyData at hdata
  split at hdata
  · rename_i hash hhash
    unfold finishedData
    rw [wp_bind]
    apply wp_getSuite_some ((congrArg (·.suite) h.known).trans hsuite)
    rw [hhash]
    apply wp_call (wp_orFatal_returns (sumTranscript_underway h hcap))
    rintro _ t ⟨rfl, hunder, -⟩
    apply wp_orFatal_returns
    apply wp_computed hdata
    exact ⟨rfl, hunder⟩
  · cases hdata

theorem sendFinished_underway {data : Bytes} (hdata : k.verifyData "client finished" log = .ok data)
    (hsuite : d.suite = some k.suite) (hsized : sendProt.Sized)
    (hlen : (marshalMessage (.finished ⟨data⟩)).length ≤ tlsMaxPlaintextLen)
    (h : Underway l₀ far rest d said msgs later log s) (hcap : log.length ≤ maxTranscriptBytes)
    (hfew : said.length + 2 < 2 ^ 64 - 1) :
    wp (sendFinished k.master sendProt) (fun _ t => Underway l₀ far rest d
      (said ++ [.record contentTypeChangeCipherSpec [1], .changeCipherSpec sendProt,
        .record contentTypeHandshake (marshalMessage (.finished ⟨data⟩))]) msgs later
      (log ++ marshalMessage (.finished ⟨data⟩)) t) Never s := by
  unfold sendFinished installSend
  apply wp_call (wp_orFatal_returns (writeRecord_underway h (by decide) (by decide) (by omega)))
  rintro _ t ⟨hunder, -⟩
  rw [wp_bind, wp_modify]
  apply wp_call (finishedData_underway hdata hsuite (hunder.installSend hsized) hcap)
  rintro _ u ⟨rfl, hunder'⟩
  have hsend : wp (sendMessage "tls: send client Finished" _) _ Never u :=
    sendMessage_underway hunder' hlen (by simp; omega)
  rw [List.append_assoc, List.append_assoc] at hsend
  exact hsend.imp (fun _ _ hs => hs.1)

theorem receiveServerFinished_underway {data : Bytes} {frame : List Bytes} {more : List ChannelOp}
    (hdata : k.verifyData "server finished" log = .ok data) (hsuite : d.suite = some k.suite)
    (hcut : frame.flatten = buildEnvelope typeFinished data) (hne : [] ∉ frame)
    (hlen : data.length = 12 ∨ data.length = 32)
    (h : Underway l₀ far rest d said [] (.record contentTypeChangeCipherSpec [1] ::
      .changeCipherSpec recvProt :: (frame.map (.record contentTypeHandshake) ++ more)) log s)
    (hcap : log.length ≤ maxTranscriptBytes) :
    wp (receiveServerFinished k.master recvProt) (fun _ t =>
      Underway l₀ far rest d said [] more (log ++ buildEnvelope typeFinished data) t) Never s := by
  have hbody : data.length ≤ maxHandshakeMsg := by
    simp only [maxHandshakeMsg]
    omega
  have hparse : parseBody typeFinished data = .ok (.finished ⟨data⟩) := by
    refine bind_eq_ok.mpr ⟨⟨data⟩, ?_, rfl⟩
    rw [parseFinished, if_neg (by omega)]
    rfl
  unfold receiveServerFinished receiveChangeCipherSpec installRecv
  rw [wp_bind]
  apply wp_call (wp_orFatal_returns (readRecord_underway h))
  rintro _ t ⟨rfl, hunder⟩
  dsimp only
  rw [wp_bind]
  apply wp_passed (not_not.mpr rfl)
  apply wp_passed (not_not.mpr rfl)
  rw [wp_bind, wp_modify]
  have hflight : Underway l₀ far rest d said [(typeFinished, data)] more log _ :=
    hunder.installRecv.next_flight (by simpa using hcut) hne
  apply wp_call (receiveMessage_underway hflight hbody hparse)
  rintro _ u ⟨rfl, hunder', -⟩
  dsimp only
  apply wp_call (finishedData_underway hdata hsuite hunder' hcap)
  rintro _ v ⟨rfl, hunder''⟩
  rw [wp_bind]
  apply wp_passed (by simp [equalVerifyData_iff.mpr])
  rw [wp_bind, wp_get, wp_bind]
  apply wp_passed (by simp [hunder''.flight_over.1])
  exact hunder''.record _

/-- **Both Finished messages.** -/
theorem finish_underway {clientData serverData : Bytes} {frame : List Bytes} {more : List ChannelOp}
    (hclient : k.verifyData "client finished" log = .ok clientData)
    (hserver : k.verifyData "server finished" (log ++ marshalMessage (.finished ⟨clientData⟩)) =
      .ok serverData)
    (hclientLen : clientData.length = 12 ∨ clientData.length = 32)
    (hserverLen : serverData.length = 12 ∨ serverData.length = 32)
    (hsuite : d.suite = some k.suite) (hsized : sendProt.Sized)
    (hcut : frame.flatten = buildEnvelope typeFinished serverData) (hne : [] ∉ frame)
    (h : Underway l₀ far rest d said [] (.record contentTypeChangeCipherSpec [1] ::
      .changeCipherSpec recvProt :: (frame.map (.record contentTypeHandshake) ++ more)) log s)
    (hcap : log.length + 36 ≤ maxTranscriptBytes) (hfew : said.length + 2 < 2 ^ 64 - 1) :
    wp (finish k.master sendProt recvProt) (fun _ t => t.done = true ∧
      ∃ log', Underway l₀ far rest d
        (said ++ [.record contentTypeChangeCipherSpec [1], .changeCipherSpec sendProt,
          .record contentTypeHandshake (marshalMessage (.finished ⟨clientData⟩))]) [] more log' t)
      Never s := by
  have hlen : (marshalMessage (.finished ⟨clientData⟩)).length = hsEnvelopeSize + clientData.length :=
    buildEnvelope_length ..
  have hsmall : (marshalMessage (.finished ⟨clientData⟩)).length ≤ 36 := by
    rw [hlen, hsEnvelopeSize]
    omega
  have hcap' : (log ++ marshalMessage (.finished ⟨clientData⟩)).length ≤ maxTranscriptBytes := by
    rw [List.length_append]
    omega
  unfold finish
  apply wp_call (sendFinished_underway hclient hsuite hsized (by simp only [tlsMaxPlaintextLen]; omega) h
    (by omega) hfew)
  intro _ t hunder
  rw [wp_bind, wp_get, wp_bind]
  apply wp_passed (by simp [hunder.flight_over.1])
  apply wp_call (receiveServerFinished_underway hserver hsuite hcut hne hserverLen hunder hcap')
  intro _ u hunder'
  rw [wp_modify]
  exact ⟨rfl, _, hunder'.remember rfl rfl rfl hunder'.known⟩

/-- **The client's second flight**, in front of what it does next. -/
theorem conclude_underway {c : ClientFlight} {master : Bytes} {Q : Unit → ClientState → Prop}
    (husable : params.Usable env) (hcert : c.certificate = clientChain req params.certificates)
    (hcke : hsEnvelopeSize + c.keyExchange.length ≤ tlsMaxPlaintextLen)
    (hverify : Certifies env params req (log ++ c.signed.flatMap marshalMessage) r c.verify r')
    (hr' : r'.Reliable) (h : Underway l₀ far rest (.keyed params k req gc) said msgs later log s)
    (hclear : InClear r s) (hcap : (log ++ c.messages.flatMap marshalMessage).length ≤ maxTranscriptBytes)
    (hfew : said.length ≤ 1)
    (hnext : ∀ t, Underway l₀ far rest (Known.keyed params k req gc).answered (said ++ sent c.messages) msgs
      later (log ++ c.messages.flatMap marshalMessage) t → wp (finish master sendProt recvProt) Q Never t) :
    wp (conclude env c.keyExchange master sendProt recvProt) Q Never s := by
  obtain ⟨certificate, cke, verify⟩ := c
  dsimp only at hcert hcke hverify ⊢
  subst hcert
  have hone : (clientChain req params.certificates).toList.length ≤ 1 := Option.length_toList_le
  unfold conclude
  apply wp_call (answerCertificateRequest_underway husable h hclear (by omega))
  rintro _ t ⟨hunder, hclear⟩
  apply wp_call (sendMessage_underway hunder ?_ ?_)
  rotate_left
  · rw [marshalMessage_eq, buildEnvelope_length]
    exact hcke
  · simp only [sent, List.length_append, List.length_map]
    omega
  rintro _ t ⟨hunder, hkeep⟩
  have hclear := hkeep r hclear
  generalize hc : (⟨clientChain req params.certificates, cke, verify⟩ : ClientFlight) = c
  rw [hc] at hverify hcap hnext
  have hsigned : c.signed = (clientChain req params.certificates).toList.map (.certificate ⟨·⟩) ++
      [.clientKeyExchange ⟨cke⟩] := by
    rw [← hc]
    rfl
  have hmsgs : c.messages = c.signed ++ verify.toList.map .certificateVerify := by
    rw [← hc]
    rfl
  have hunder : Underway l₀ far rest (Known.keyed params k req gc).answered (said ++ sent c.signed) msgs later
      (log ++ c.signed.flatMap marshalMessage) t := by
    rw [hsigned]
    simpa only [sent, List.map_append, List.map_cons, List.map_nil, List.flatMap_append, List.flatMap_cons,
      List.flatMap_nil, List.append_nil, List.append_assoc] using hunder
  rw [wp_bind, wp_get]
  cases hverify with
  | none hnone =>
      have hsent : t.clientCertSent = false :=
        (congrArg (·.clientCertSent) hunder.known).trans (congrArg Option.isSome hnone)
      rw [hsent]
      apply hnext
      rw [hmsgs]
      simpa using hunder
  | @signed alg cert others cryptoHash sig _ halg hcerts hhash hsig hlen =>
      have hsent : t.clientCertSent = true :=
        (congrArg (·.clientCertSent) hunder.known).trans (congrArg Option.isSome halg)
      have halg' : t.clientSigAlg = alg :=
        (congrArg (·.clientSigAlg) hunder.known).trans (congrArg (Option.getD · ⟨0, 0⟩) halg)
      rw [hsent, halg']
      apply wp_call (sendCertificateVerify_underway hcerts hhash hsig hr' hlen hunder hclear ?_ ?_)
      · intro _ u hunder'
        apply hnext
        rw [hmsgs]
        simpa [sent] using hunder'
      · rw [hmsgs, List.flatMap_append, ← List.append_assoc, List.length_append] at hcap
        omega
      · simp only [hsigned, sent, List.length_append, List.length_map, List.length_singleton]
        omega

end Flights

end Gostls
