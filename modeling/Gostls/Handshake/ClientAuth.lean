import Gostls.Handshake.Conduct
import Gostls.Handshake.Guarantees

/-!
# `Gostls.Handshake.ClientAuth` — client authentication

What a client sends in a handshake that succeeds, record by record: a Certificate if and only if it was
asked for one, and a CertificateVerify if and only if it sent one that is not empty.

* `FirstUsable` — the algorithm `selectClientSigAlg` picks, said without the search;
* `Silent` — what the functions that receive leave behind: they send nothing, and keep a
  CertificateRequest only if they have received it;
* `client_authentication` — the flights of the client, put together from what each function sends.
-/

namespace Gostls

open Lib

/-! ## Choosing an algorithm -/

/-- The algorithms a key can sign with. -/
def Compatible (key : PrivateKey) (alg : SigAndHash) : Prop :=
  match key with
  | .rsa _          => alg.sig = 1
  | .ecdsa .p256 _  => alg.sig = 3 ∧ alg.hash = 4
  | .ecdsa .p384 _  => alg.sig = 3 ∧ alg.hash = 5
  | .ecdsa _ _ | .other _ => False

/-- The server accepts the algorithm, and the key supports it. -/
def Usable (req : CertificateRequest) (key : PrivateKey) (alg : SigAndHash) : Prop :=
  alg ∈ req.supportedSignatureAlgs ∧ Compatible key alg

/-- The first usable algorithm among those the client advertises. -/
def FirstUsable (req : CertificateRequest) (key : PrivateKey) (alg : SigAndHash) : Prop :=
  Usable req key alg ∧
    ∃ before after, clientSigAlgsAdvertised = before ++ alg :: after ∧ ∀ a ∈ before, ¬ Usable req key a

theorem keyCompatible_iff (key : PrivateKey) (alg : SigAndHash) :
    keyCompatible key alg = true ↔ Compatible key alg := by
  have hboth : ∀ hash : UInt8, (decide (alg.sig = sigAlgECDSA) && decide (alg.hash = hash)) = true ↔
      alg.sig = 3 ∧ alg.hash = hash := by
    intro hash
    rw [Bool.and_eq_true, decide_eq_true_iff, decide_eq_true_iff]
    exact Iff.rfl
  cases key with
  | rsa k => exact decide_eq_true_iff
  | ecdsa curve k =>
      cases curve with
      | p256 => exact hboth sigHashByte
      | p384 => exact hboth sigHashSHA384
      | other _ => simp [keyCompatible, Compatible]
  | other t => simp [keyCompatible, Compatible]

theorem usable_iff (req : CertificateRequest) (key : PrivateKey) (alg : SigAndHash) :
    (decide (alg ∈ req.supportedSignatureAlgs) && keyCompatible key alg) = true ↔ Usable req key alg := by
  rw [Bool.and_eq_true, decide_eq_true_iff, keyCompatible_iff]
  exact Iff.rfl

/-- **The search finds the first usable algorithm.** -/
theorem selectClientSigAlg_some {certReq : Option CertificateRequest} {certs : List ClientCertificate}
    {alg : SigAndHash} (h : selectClientSigAlg certReq certs = some alg) :
    ∃ req cert rest, certReq = some req ∧ certs = cert :: rest ∧ FirstUsable req cert.privateKey alg := by
  unfold selectClientSigAlg at h
  split at h
  · rename_i req cert rest
    obtain ⟨halg, before, after, hlist, hbefore⟩ := List.find?_eq_some_iff_append.mp h
    refine ⟨req, cert, rest, rfl, rfl, (usable_iff _ _ _).mp halg, before, after, hlist, ?_⟩
    intro a ha husable
    have hnot := hbefore a ha
    rw [(usable_iff _ _ _).mpr husable] at hnot
    cases hnot
  · cases h

/-- It finds one if there is one. -/
theorem selectClientSigAlg_isSome_iff (certReq : Option CertificateRequest)
    (certs : List ClientCertificate) :
    (selectClientSigAlg certReq certs).isSome = true ↔
      ∃ req cert rest, certReq = some req ∧ certs = cert :: rest ∧
        ∃ alg ∈ clientSigAlgsAdvertised, Usable req cert.privateKey alg := by
  constructor
  · intro h
    obtain ⟨alg, halg⟩ := Option.isSome_iff_exists.mp h
    obtain ⟨req, cert, rest, hreq, hcerts, husable, before, after, hlist, -⟩ := selectClientSigAlg_some halg
    refine ⟨req, cert, rest, hreq, hcerts, alg, ?_, husable⟩
    rw [hlist]
    exact List.mem_append_right _ List.mem_cons_self
  · rintro ⟨req, cert, rest, rfl, rfl, alg, halg, husable⟩
    exact List.find?_isSome.mpr ⟨alg, halg, (usable_iff _ _ _).mpr husable⟩

/-! ## What is sent -/

section

variable {env : Env} {s : ClientState}

/-- Any failure will do. -/
theorem exits_anyhow : Exits (fun _ _ => True) s := ⟨trivial, fun _ _ => trivial⟩

theorem sendMessage_sends (text : String) (msg : Message) :
    wp (sendMessage text msg) (fun _ t => ∃ o, o.Carries msg ∧ Bookkeeping (s.log (.wrote o)) t)
      (fun _ _ => True) s := by
  unfold sendMessage
  rw [wp_bind]
  apply wp_orFatal
  apply (writeRecord_logs contentTypeHandshake (marshalMessage msg) s).mono _ (fun _ _ _ => exits_anyhow)
  rintro _ _ ⟨-, layer, rfl⟩
  exact ⟨_, ⟨rfl, rfl, rfl⟩, ⟨rfl, rfl, rfl, rfl, rfl, rfl⟩⟩

theorem sendClientHello_sends :
    wp sendClientHello (fun _ t => ∃ o cr, o.Carries (.clientHello (clientHello s.params cr)) ∧
      Bookkeeping (s.log (.wrote o)) t) (fun _ _ => True) s := by
  unfold sendClientHello
  rw [wp_bind]
  apply wp_drawing _ (fun _ _ => trivial)
  intro random r
  rw [wp_bind, wp_modify, wp_bind, wp_get, wp_bind]
  apply wp_orFail
  apply (writeRecord_logs _ _ _).mono _ (fun _ _ _ _ => trivial)
  rintro _ _ ⟨-, layer, rfl⟩
  exact ⟨_, .copy random, ⟨rfl, rfl, rfl⟩, ⟨rfl, rfl, rfl, rfl, rfl, rfl⟩⟩

/-- The chain to answer a request with, if there was one. -/
def clientChain (certReq : Option CertificateRequest) (certs : List ClientCertificate) :
    Option (List Bytes) :=
  certReq.map fun _ => clientRawCerts (selectClientSigAlg certReq certs) certs

/-- It is not empty if there is an algorithm to sign with. -/
theorem clientChain_nonEmpty_iff (certReq : Option CertificateRequest) (certs : List ClientCertificate) :
    (∃ rawCerts, clientChain certReq certs = some rawCerts ∧ rawCerts ≠ []) ↔
      (selectClientSigAlg certReq certs).isSome = true := by
  cases halg : selectClientSigAlg certReq certs with
  | none =>
      refine ⟨?_, fun h => nomatch h⟩
      rintro ⟨rawCerts, hchain, hne⟩
      obtain ⟨req, -, rfl⟩ := Option.map_eq_some_iff.mp hchain
      rw [halg] at hne
      exact absurd rfl hne
  | some alg =>
      refine ⟨fun _ => rfl, fun _ => ?_⟩
      obtain ⟨req, cert, rest, rfl, rfl, -⟩ := selectClientSigAlg_some halg
      refine ⟨[cert.rawCertificate], ?_, List.cons_ne_nil _ _⟩
      show some (clientRawCerts (selectClientSigAlg _ _) _) = _
      rw [halg]
      rfl

theorem sendClientCertificate_sends :
    wp sendClientCertificate
      (fun sent t => sent = (selectClientSigAlg s.certReq s.params.certificates).isSome ∧
        ∃ o, o.Carries (.certificate
            ⟨clientRawCerts (selectClientSigAlg s.certReq s.params.certificates) s.params.certificates⟩) ∧
          Bookkeeping (s.log (.wrote o)) t)
      (fun _ _ => True) s := by
  unfold sendClientCertificate
  rw [wp_bind, wp_get]
  dsimp only
  apply wp_call (sendMessage_sends _ _)
  intro _ t hsent
  refine ⟨?_, hsent⟩
  -- Where an algorithm was found there is a certificate.
  cases halg : selectClientSigAlg s.certReq s.params.certificates with
  | none => rfl
  | some alg =>
      obtain ⟨_, cert, rest, -, hcerts, -⟩ := selectClientSigAlg_some halg
      rw [hcerts]
      rfl

/-- **The answer to a CertificateRequest**, and what the client remembers of it. -/
theorem answerCertificateRequest_sends (hsent : s.clientCertSent = false) :
    wp answerCertificateRequest
      (fun _ t => t.params = s.params ∧
        t.clientCertSent = (selectClientSigAlg s.certReq s.params.certificates).isSome ∧
        (∀ alg, selectClientSigAlg s.certReq s.params.certificates = some alg → t.clientSigAlg = alg) ∧
        ∃ os : List Outgoing, t.trace = s.trace ++ os.map .wrote ∧
          List.Forall₂ Outgoing.Carries os
            ((clientChain s.certReq s.params.certificates).toList.map (.certificate ⟨·⟩)))
      (fun _ _ => True) s := by
  unfold answerCertificateRequest
  rw [wp_bind, wp_get]
  dsimp only
  apply wp_ite
  · intro hsome
    obtain ⟨req, hreq⟩ := Option.isSome_iff_exists.mp hsome
    apply wp_call sendClientCertificate_sends
    rintro sent t ⟨rfl, o, hcarries, hkept⟩
    have hsends : ∃ os : List Outgoing, t.trace = s.trace ++ os.map .wrote ∧
        List.Forall₂ Outgoing.Carries os
          ((clientChain s.certReq s.params.certificates).toList.map (.certificate ⟨·⟩)) := by
      refine ⟨[o], hkept.trace, ?_⟩
      rw [hreq] at hcarries ⊢
      exact .cons hcarries .nil
    cases halg : selectClientSigAlg s.certReq s.params.certificates with
    | none =>
        exact ⟨hkept.params, hkept.clientCertSent.trans hsent, (fun _ h => nomatch h), hsends⟩
    | some alg =>
        refine ⟨hkept.params, rfl, ?_, hsends⟩
        rintro _ ⟨⟩
        rfl
  · intro hnone
    rw [Option.not_isSome_iff_eq_none] at hnone
    rw [hnone]
    exact ⟨rfl, hsent, (fun _ h => nomatch h), [], (List.append_nil _).symm, .nil⟩

/-- A signature by the key. -/
def Signs (env : Env) (key : PrivateKey) (cryptoHash : CryptoHash) (digest sig : Bytes) : Prop :=
  match key with
  | .rsa k     => ∃ r r', env.rsaSignPKCS1v15 k cryptoHash digest r = (.ok sig, r')
  | .ecdsa _ k => ∃ r r', env.ecdsaSignASN1 k digest r = (.ok sig, r')
  | .other _   => False

theorem signDigest_signs (key : PrivateKey) (cryptoHash : CryptoHash) (digest : Bytes) :
    wp (signDigest env key cryptoHash digest)
      (fun sig t => Signs env key cryptoHash digest sig ∧ Bookkeeping s t) (fun _ _ => True) s := by
  unfold signDigest
  cases key with
  | rsa k | ecdsa _ k =>
      apply wp_orFatal
      apply wp_draws _ (fun _ _ => exits_anyhow)
      intro sig r hsig
      exact ⟨RandM.withConfig_ok hsig, rfl, rfl, rfl, rfl, rfl, rfl⟩
  | other t => exact wp_fatal.mpr trivial

/-- **The CertificateVerify** signs the transcript. -/
theorem sendCertificateVerify_sends (alg : SigAndHash) :
    wp (sendCertificateVerify env alg)
      (fun _ t => ∃ cert rest cryptoHash digest sig o, s.params.certificates = cert :: rest ∧
        hashForSigAlg alg.hash = .ok cryptoHash ∧
        s.transcript.sum (some (cryptoHash.new env.hashes)) = .ok digest ∧
        Signs env cert.privateKey cryptoHash digest sig ∧ o.Carries (.certificateVerify ⟨alg, sig⟩) ∧
        t.trace = s.trace ++ [.summed .certificateVerify s.transcript.buf, .wrote o])
      (fun _ _ => True) s := by
  unfold sendCertificateVerify
  rw [wp_bind]
  apply wp_orFatal_compute exits_anyhow
  intro cryptoHash hhash
  rw [wp_bind]
  apply wp_orFatal
  apply (sumTranscript_logs _ _ s).mono _ (fun _ _ _ => exits_anyhow)
  rintro digest _ ⟨hsum, rfl⟩
  rw [wp_bind, wp_get]
  split
  · trivial
  · rename_i cert rest hcerts
    apply wp_call (signDigest_signs _ _ _)
    rintro sig t ⟨hsigns, hkept⟩
    apply (sendMessage_sends _ _).imp
    rintro _ u ⟨o, hcarries, hsent⟩
    refine ⟨cert, rest, cryptoHash, digest, sig, o, hcerts, hhash, hsum, hsigns, hcarries, ?_⟩
    rw [hsent.trace]
    show t.trace ++ [_] = _
    rw [hkept.trace]
    exact List.append_assoc _ _ _

/-- The client's ChangeCipherSpec. -/
structure Outgoing.IsChangeCipherSpec (o : Outgoing) : Prop where
  ct : o.ct = contentTypeChangeCipherSpec
  ok : o.ok = true
  payload : o.payload = [1]

/-- Between `s` and `t` the client sent its ChangeCipherSpec and its Finished, and nothing else. -/
def Finishes (s t : ClientState) : Prop :=
  ∃ ccs data fin es, ccs.IsChangeCipherSpec ∧ fin.Carries (.finished ⟨data⟩) ∧ writes es = [ccs, fin] ∧
    t.trace = s.trace ++ es

theorem sendFinished_sends (master : Bytes) (p : Protector) :
    wp (sendFinished master p) (fun _ t => Finishes s t) (fun _ _ => True) s := by
  unfold sendFinished installSend finishedData
  rw [wp_bind]
  apply wp_orFatal
  apply (writeRecord_logs contentTypeChangeCipherSpec [1] s).mono _ (fun _ _ _ => exits_anyhow)
  rintro _ _ ⟨-, layer, rfl⟩
  rw [wp_bind, wp_modify, wp_bind, wp_bind]
  apply wp_getSuite exits_anyhow
  intro suite _
  rw [wp_bind]
  apply wp_orFatal
  apply (sumTranscript_logs _ _ _).mono _ (fun _ _ _ => exits_anyhow)
  rintro digest _ ⟨-, rfl⟩
  apply wp_orFatal_compute exits_anyhow
  intro data _
  apply (sendMessage_sends _ _).imp
  rintro _ t ⟨fin, hcarries, hsent⟩
  refine ⟨⟨s.layer.sendProt, s.layer.sendSeq, contentTypeChangeCipherSpec, [1], true⟩, data, fin,
    [.wrote _, .installedSend p, .summed .clientFinished s.transcript.buf, .wrote fin],
    ⟨rfl, rfl, rfl⟩, hcarries, rfl, ?_⟩
  rw [hsent.trace]
  simp [ClientState.log, ClientState.setLayer]

end

/-! ## What is received -/

/-- The CertificateRequest that is kept has been received. -/
def Requested (s : ClientState) : Prop :=
  ∀ req, s.certReq = some req →
    ∃ body, (typeCertificateRequest, body) ∈ taken s.trace ∧ parseCertificateRequest body = .ok req

/-- `t` is `s` after something was received, or computed. -/
structure Silent (s t : ClientState) : Prop where
  params : t.params = s.params
  clientCertSent : t.clientCertSent = s.clientCertSent
  trace : ∃ es, t.trace = s.trace ++ es ∧ writes es = []
  requested : Requested s → Requested t

namespace Silent

variable {s t u : ClientState}

theorem trans (h : Silent s t) (h' : Silent t u) : Silent s u := by
  obtain ⟨es, htrace, hes⟩ := h.trace
  obtain ⟨es', htrace', hes'⟩ := h'.trace
  refine ⟨h'.params.trans h.params, h'.clientCertSent.trans h.clientCertSent, ⟨es ++ es', ?_, ?_⟩,
    fun hs => h'.requested (h.requested hs)⟩
  · rw [htrace', htrace, List.append_assoc]
  · rw [writes_append, hes, hes']
    rfl

/-- The request stays, and the trace grows. -/
theorem of_kept {es : List Event} (hparams : t.params = s.params) (hreq : t.certReq = s.certReq)
    (hsent : t.clientCertSent = s.clientCertSent) (htrace : t.trace = s.trace ++ es)
    (hes : writes es = []) : Silent s t := by
  refine ⟨hparams, hsent, ⟨es, htrace, hes⟩, fun hs req hsome => ?_⟩
  obtain ⟨body, hbody, hparse⟩ := hs req (hreq.symm.trans hsome)
  refine ⟨body, ?_, hparse⟩
  rw [htrace, taken_append]
  exact List.mem_append_left _ hbody

theorem of_bookkeeping (h : Bookkeeping s t) : Silent s t :=
  of_kept h.params h.certReq h.clientCertSent (h.trace.trans (List.append_nil _).symm) rfl

theorem receiving : Receiving Silent (fun _ _ => True) (fun _ _ _ => True) where
  refl s := of_bookkeeping ⟨rfl, rfl, rfl, rfl, rfl, rfl⟩
  trans := trans
  fail _ _ := trivial
  raw := ⟨fun s => of_bookkeeping ⟨rfl, rfl, rfl, rfl, rfl, rfl⟩, trans, fun _ _ => trivial⟩
  stop _ := trivial
  panic _ := trivial
  alert _ _ _ := trivial
  bookkeeping h := of_bookkeeping h.toBookkeeping
  message s := by
    obtain ⟨es, layer, hsBuf, hend, hes, -⟩ := readHandshakeRecord_frame s
    have hsilent : Silent s (endState readHandshakeRecord s) := by
      rw [hend]
      exact of_kept rfl rfl rfl rfl hes
    exact (wp_of_endState hsilent).mono (fun _ _ h => h) (fun _ _ _ => trivial)
  request {s body req} hbody hparse := by
    refine ⟨rfl, rfl, ⟨[], (List.append_nil _).symm, rfl⟩, fun _ req' hsome => ?_⟩
    obtain rfl : req = req' := Option.some.inj hsome
    exact ⟨body, hbody, hparse⟩
  sum purpose factory s := by
    apply (sumTranscript_logs purpose factory s).mono _ (fun _ _ _ => trivial)
    rintro _ _ ⟨-, rfl⟩
    exact of_kept rfl rfl rfl rfl rfl
  installRecv p := of_kept rfl rfl rfl rfl rfl
  record {s} _ := by
    apply (readRecord_logs s).mono _ (fun _ _ _ => trivial)
    rintro _ _ ⟨layer, rfl⟩
    exact of_kept rfl rfl rfl rfl rfl

end Silent

theorem Finishes.silent {s t u : ClientState} (h : Finishes s t) (h' : Silent t u) : Finishes s u := by
  obtain ⟨ccs, data, fin, es, hccs, hfin, hwrites, htrace⟩ := h
  obtain ⟨es', htrace', hes'⟩ := h'.trace
  refine ⟨ccs, data, fin, es ++ es', hccs, hfin, ?_, ?_⟩
  · rw [writes_append, hwrites, hes']
    rfl
  · rw [htrace', htrace, List.append_assoc]

/-- **The end of the handshake.** -/
theorem finish_sends {s : ClientState} (master : Bytes) (sendProt recvProt : Protector) :
    wp (finish master sendProt recvProt) (fun _ t => Finishes s t) (fun _ _ => True) s := by
  unfold finish
  apply wp_call (sendFinished_sends master sendProt)
  intro _ t hfinishes
  rw [wp_bind, wp_get, wp_bind]
  apply wp_fatalIf exits_anyhow
  intro hbuf
  have hempty : t.hsBuf = [] := List.length_eq_zero_iff.mp (not_not.mp hbuf)
  apply wp_call (Silent.receiving.receiveServerFinished hempty master recvProt)
  intro _ u hsilent
  exact hfinishes.silent (hsilent.trans (.of_bookkeeping ⟨rfl, rfl, rfl, rfl, rfl, rfl⟩))

/-! ## The server's request -/

/-- The bodies of the CertificateRequests among these messages. -/
def requests (msgs : List (UInt8 × Bytes)) : List Bytes :=
  msgs.filterMap fun m => if m.1 = typeCertificateRequest then some m.2 else none

theorem requests_append (a b : List (UInt8 × Bytes)) : requests (a ++ b) = requests a ++ requests b :=
  List.filterMap_append

theorem mem_requests {msgs : List (UInt8 × Bytes)} {body : Bytes} :
    body ∈ requests msgs ↔ (typeCertificateRequest, body) ∈ msgs := by
  unfold requests
  rw [List.mem_filterMap]
  constructor
  · rintro ⟨⟨t, b⟩, hmem, hbody⟩
    split at hbody
    · rename_i ht
      obtain rfl : t = typeCertificateRequest := ht
      obtain rfl : b = body := Option.some.inj hbody
      exact hmem
    · cases hbody
  · intro hmem
    exact ⟨_, hmem, by simp⟩

/-- The server sent this CertificateRequest and no other, or none. -/
def Asked (tr : List Event) : Option CertificateRequest → Prop
  | none     => requests (taken tr) = []
  | some req => ∃ body, requests (taken tr) = [body] ∧ parseCertificateRequest body = .ok req

namespace Session

variable {env : Env} {params : ClientParams} {input : Reader} {s : Session} {tr : List Event}
  {n : Negotiated} {ske req : Bool} {msgs : List (UInt8 × Bytes)}

theorem Optional.mem {present : Bool} {t : UInt8} (h : Optional present t msgs) :
    ∀ m ∈ msgs, m.1 = t := by
  intro m hm
  unfold Optional at h
  split at h
  · obtain ⟨body, rfl⟩ := h
    rw [List.mem_singleton.mp hm]
  · rw [h] at hm
    cases hm

/-- The opening ends before the ServerHelloDone. -/
theorem Opening.not_done (h : Opening env params n ske req msgs) : (typeServerHelloDone, []) ∉ msgs := by
  obtain ⟨hello, certs, cert, skeMsg, reqMsg, rfl, -, -, -, hske, hreq⟩ := h
  simp only [List.mem_cons, List.mem_append, Prod.mk.injEq, not_or]
  refine ⟨fun h => absurd h.1 (by decide), fun h => absurd h.1 (by decide), fun hmem => ?_, fun hmem => ?_⟩
  · exact absurd (hske.mem _ hmem) (by decide)
  · exact absurd (hreq.mem _ hmem) (by decide)

/-- **Its CertificateRequests** are the one, if it has one. -/
theorem Opening.requests (h : Opening env params n ske req msgs) :
    (requests msgs).length = req.toNat := by
  obtain ⟨hello, certs, cert, skeMsg, reqMsg, rfl, -, -, -, hske, hreq⟩ := h
  have hno : Gostls.requests skeMsg = [] := by
    apply List.filterMap_eq_nil_iff.mpr
    intro m hm
    rw [hske.mem m hm]
    rfl
  show (Gostls.requests (skeMsg ++ reqMsg)).length = _
  rw [requests_append, hno, List.nil_append]
  cases req with
  | false =>
      rw [show reqMsg = [] from hreq]
      rfl
  | true =>
      obtain ⟨body, rfl⟩ := hreq
      rfl

/-- What has been received when the server's flight is complete. -/
theorem serverDone_spec (h : Run (Step env params) (.init input) tr s) (hst : s.stage = .serverDone n req) :
    ∃ opening, Opening env params n (needsSKE n.suite.kx) req opening ∧
      taken tr = opening ++ [(typeServerHelloDone, [])] := by
  cases h with
  | nil => cases hst
  | @snoc pre t _ e hrun hstep =>
      have hheard := heard hrun
      have hperm := hstep.stage
      rw [hst] at hperm
      generalize t.stage = st at hheard hperm
      cases hperm with
      | data hrecv _ => exact hrecv.elim
      | serverHelloDone =>
          refine ⟨_, hheard.2, ?_⟩
          simp [Event.asTaken]

end Session

/-- **The client knows what it was asked for**, when the server's flight is complete. -/
theorem At.asked {env : Env} {input : Reader} {d : Facts} {n : Negotiated} {s : ClientState}
    (h : At env input d (.serverDone n d.certReq.isSome) s) (hreq : Requested s) :
    Asked s.trace s.certReq := by
  obtain ⟨f, htracks, -⟩ := h
  obtain ⟨opening, hopening, htaken⟩ := Session.serverDone_spec htracks.run rfl
  have hone : (requests (taken s.trace)).length = s.certReq.isSome.toNat := by
    rw [htaken, requests_append, List.length_append, hopening.requests,
      show s.certReq = d.certReq from congrArg Facts.certReq htracks.facts]
    rfl
  cases hcert : s.certReq with
  | none =>
      rw [hcert] at hone
      exact List.length_eq_zero_iff.mp hone
  | some req =>
      rw [hcert] at hone
      obtain ⟨body, hbody⟩ := List.length_eq_one_iff.mp hone
      obtain ⟨body', hmem, hparse⟩ := hreq req hcert
      obtain rfl : body' = body := by
        have := mem_requests.mpr hmem
        rw [hbody] at this
        exact List.mem_singleton.mp this
      exact ⟨body', hbody, hparse⟩

/-- The rest of the handshake does not ask again. -/
theorem Asked.to_end {env : Env} {params : ClientParams} {input : Reader} {σ : Session} {k : Keyed}
    {opening : List (UInt8 × Bytes)} {pre post : List Event} {certReq : Option CertificateRequest}
    (h : Asked pre certReq)
    (htaken : taken pre = opening ++ [(typeServerHelloDone, [])])
    (hrun : Run (Session.Step env params) (.init input) (pre ++ post) σ) (hst : σ.stage = .complete k) :
    Asked (pre ++ post) certReq := by
  obtain ⟨send, recv, pre', ccs, post', verifyData, htrace, hcut⟩ := Session.complete_cut hrun hst
  obtain ⟨req', opening', hopening', hflight⟩ := hcut.flight
  -- The flight ends with the first ServerHelloDone, and behind it there is only the Finished.
  have hsplit : opening ++ (typeServerHelloDone, []) :: taken post =
      opening' ++ (typeServerHelloDone, []) :: [(typeFinished, verifyData)] := by
    have hall : taken pre ++ taken post = taken pre' ++ taken post' := by
      rw [← taken_append, htrace, taken_append]
      rfl
    rw [htaken, hflight, hcut.finished] at hall
    simpa using hall
  have hfinished : ((typeServerHelloDone, []) : UInt8 × Bytes) ∉ [(typeFinished, verifyData)] := by
    rw [List.mem_singleton, Prod.mk.injEq]
    exact fun h => absurd h.1 (by decide)
  obtain ⟨-, -, hpost⟩ := (List.append_cons_inj_of_notMem hopening'.not_done hfinished).mp hsplit.symm
  have hsame : requests (taken (pre ++ post)) = requests (taken pre) := by
    rw [taken_append, requests_append, ← hpost]
    exact List.append_nil _
  cases certReq with
  | none => exact hsame.trans h
  | some req =>
      obtain ⟨body, hbody, hparse⟩ := h
      exact ⟨body, hsame.trans hbody, hparse⟩

/-! ## The client's second flight -/

theorem writes_map_wrote (os : List Outgoing) : writes (os.map .wrote) = os := by
  simp [writes, List.filterMap_map, Function.comp_def, Event.asWritten]

/-- All that is written up to the ClientKeyExchange, when the client is silent in between. -/
theorem writes_signed {quiet : List Event} (hquiet : writes quiet = []) (ch cke : Outgoing)
    (certs : List Outgoing) :
    writes (.wrote ch :: (quiet ++ certs.map .wrote) ++ [.wrote cke]) = ch :: certs ++ [cke] := by
  show ch :: writes (quiet ++ certs.map .wrote ++ [.wrote cke]) = _
  rw [writes_append, writes_append, hquiet, writes_map_wrote]
  rfl

/-- A signature over the messages of `signed`, with the first algorithm that is usable for this request
    and the client's key. -/
def SignedOver (env : Env) (params : ClientParams) (certReq : Option CertificateRequest)
    (signed : List Event) (v : CertificateVerify) : Prop :=
  ∃ req cert rest cryptoHash, certReq = some req ∧ params.certificates = cert :: rest ∧
    FirstUsable req cert.privateKey v.algorithm ∧ hashForSigAlg v.algorithm.hash = .ok cryptoHash ∧
    Signs env cert.privateKey cryptoHash ((cryptoHash.new env.hashes).sum (messages signed)) v.signature

/-- The algorithm that was selected is the first that is usable. -/
theorem signedOver_select {env : Env} {params : ClientParams} {certReq : Option CertificateRequest}
    {cert : ClientCertificate} {rest : List ClientCertificate} {alg : SigAndHash} {cryptoHash : CryptoHash}
    {signed : List Event} {sig : Bytes} (halg : selectClientSigAlg certReq params.certificates = some alg)
    (hcerts : params.certificates = cert :: rest) (hhash : hashForSigAlg alg.hash = .ok cryptoHash)
    (hsigns : Signs env cert.privateKey cryptoHash
      ((cryptoHash.new env.hashes).sum (messages signed)) sig) :
    SignedOver env params certReq signed ⟨alg, sig⟩ := by
  obtain ⟨req, cert', rest', hreq, hcerts', hfirst⟩ := selectClientSigAlg_some halg
  obtain ⟨rfl, rfl⟩ := List.cons.inj (hcerts'.symm.trans hcerts)
  exact ⟨req, cert', rest', cryptoHash, hreq, hcerts', hfirst, hhash, hsigns⟩

/-- What the client sends from the keys on: up to the ClientKeyExchange, which makes the trace `signed`;
    from there to `u`, a CertificateVerify or nothing; and then the end. -/
structure Concludes (env : Env) (ckeBody : Bytes) (s : ClientState) (certs : List Outgoing)
    (cke : Outgoing) (verify : Option CertificateVerify) (signed mid : List Event) (u t : ClientState) :
    Prop where
  answer : List.Forall₂ Outgoing.Carries certs
    ((clientChain s.certReq s.params.certificates).toList.map (.certificate ⟨·⟩))
  exchange : cke.Carries (.clientKeyExchange ⟨ckeBody⟩)
  trace_signed : signed = s.trace ++ certs.map .wrote ++ [.wrote cke]
  trace_mid : u.trace = signed ++ mid
  verifies : List.Forall₂ Outgoing.Carries (writes mid) (verify.toList.map .certificateVerify)
  verify_isSome : verify.isSome = (selectClientSigAlg s.certReq s.params.certificates).isSome
  signature : ∀ v, verify = some v → SignedOver env s.params s.certReq signed v ∧
    ∃ rest, mid = .summed .certificateVerify (messages signed) :: rest
  finishes : Finishes u t

theorem conclude_sends {env : Env} {input : Reader} {params : ClientParams} {n : Negotiated}
    {req : Option CertificateRequest} {ms : Bytes} {sendProt recvProt : Protector} {s : ClientState}
    (h : Negotiating env input params n req ms sendProt recvProt s) (ckeBody : Bytes) :
    wp (conclude env ckeBody ms sendProt recvProt)
      (fun _ t => ∃ certs cke verify signed mid u, Concludes env ckeBody s certs cke verify signed mid u t)
      (fun _ _ => True) s := by
  obtain ⟨hstage, ⟨preMaster, hmaster⟩, -⟩ := h
  have hunsent : s.clientCertSent = false := by
    obtain ⟨f, htracks, -⟩ := hstage
    exact congrArg Facts.clientCertSent htracks.facts
  unfold conclude
  apply wp_call ((answerCertificateRequest_spec hstage rfl).both (answerCertificateRequest_sends hunsent))
  rintro _ s₁ ⟨⟨sent, h₁⟩, hparams, hflag, hsigAlg, certs, htrace, hcerts⟩
  apply wp_call ((sendClientKeyExchange_spec h₁ hmaster).both (sendMessage_sends _ _))
  rintro _ s₂ ⟨⟨f, htracks, hlog⟩, cke, hcke, hkept⟩
  have htrace₂ : s₂.trace = s.trace ++ certs.map .wrote ++ [.wrote cke] := by
    rw [hkept.trace, ← htrace]
    rfl
  rw [wp_bind, wp_get, show s₂.clientCertSent = _ from hkept.clientCertSent.trans hflag]
  cases halg : selectClientSigAlg s.certReq s.params.certificates with
  | none =>
      apply (finish_sends ms sendProt recvProt).imp
      intro _ t hfinishes
      refine ⟨certs, cke, none, s₂.trace, [], s₂, hcerts, hcke, htrace₂, (List.append_nil _).symm, .nil, ?_,
        (fun _ h => nomatch h), hfinishes⟩
      rw [halg]
      rfl
  | some alg =>
      rw [show s₂.clientSigAlg = alg from hkept.clientSigAlg.trans (hsigAlg alg halg)]
      apply wp_call (sendCertificateVerify_sends alg)
      rintro _ s₃ ⟨cert, rest, cryptoHash, digest, sig, cv, hcert, hhash, hsum, hsigns, hcv, htrace₃⟩
      -- The transcript is the messages of the trace.
      obtain ⟨hbuf, _, ⟨⟩, rfl⟩ := Transcript.sum_ok hlog hsum
      have hmessages : f.log = messages s₂.trace := Session.log_eq htracks.run
      rw [hbuf, hmessages] at htrace₃
      rw [hmessages] at hsigns
      have hparams₂ : s₂.params = s.params := hkept.params.trans hparams
      rw [hparams₂] at hcert
      have hsigned := signedOver_select halg hcert hhash hsigns
      apply (finish_sends ms sendProt recvProt).imp
      intro _ t hfinishes
      refine ⟨certs, cke, some ⟨alg, sig⟩, s₂.trace, _, s₃, hcerts, hcke, htrace₂, htrace₃, .cons hcv .nil,
        ?_, ?_, hfinishes⟩
      · rw [halg]
        rfl
      · rintro _ ⟨⟩
        exact ⟨hsigned, _, rfl⟩

/-! ## The result -/

/-- How a client authenticates itself, if it does: what it was asked for, the chain it sent, and what it
    signed. -/
structure Authentication (env : Env) (params : ClientParams) (tr : List Event)
    (certReq : Option CertificateRequest) (chain : Option (List Bytes))
    (verify : Option CertificateVerify) : Prop where
  asked : Asked tr certReq
  /-- All the records that were sent. -/
  flight : ∃ ch certs cke verifies ccs fin cr body data,
    writes tr = ch :: certs ++ cke :: verifies ++ [ccs, fin] ∧
    ch.Carries (.clientHello (clientHello params cr)) ∧
    List.Forall₂ Outgoing.Carries certs (chain.toList.map (.certificate ⟨·⟩)) ∧
    cke.Carries (.clientKeyExchange ⟨body⟩) ∧
    List.Forall₂ Outgoing.Carries verifies (verify.toList.map .certificateVerify) ∧
    ccs.IsChangeCipherSpec ∧ fin.Carries (.finished ⟨data⟩)
  certificate_iff : chain.isSome = true ↔ certReq.isSome = true
  verify_iff : verify.isSome = true ↔ ∃ rawCerts, chain = some rawCerts ∧ rawCerts ≠ []
  nonEmpty_iff : (∃ rawCerts, chain = some rawCerts ∧ rawCerts ≠ []) ↔
    ∃ req cert rest, certReq = some req ∧ params.certificates = cert :: rest ∧
      ∃ alg ∈ clientSigAlgsAdvertised, Usable req cert.privateKey alg
  /-- The digest that is signed is taken behind the ClientKeyExchange, over everything so far. -/
  signature : ∀ v, verify = some v → ∃ ch before cke signed after cr body,
    signed = .wrote ch :: before ++ [.wrote cke] ∧ ch.Carries (.clientHello (clientHello params cr)) ∧
    cke.Carries (.clientKeyExchange ⟨body⟩) ∧
    tr = signed ++ .summed .certificateVerify (messages signed) :: after ∧
    SignedOver env params certReq signed v

/-- **Client authentication.** In a handshake that succeeds the client sends a Certificate if and only if
    it was asked for one, and a CertificateVerify if and only if that Certificate was not empty, which is
    when an algorithm is usable. The CertificateVerify comes once, between the ClientKeyExchange and the
    ChangeCipherSpec, and signs with the first usable algorithm the messages from the ClientHello through
    the ClientKeyExchange. -/
theorem client_authentication {env : Env} {params : ClientParams} {input : Reader} {output : Writer}
    {rand : Entropy} {config : Option Entropy} {s : ClientState}
    (h : handshake env (freshClient params input output rand config) = .ok () s) :
    ∃ certReq chain verify, Authentication env params s.trace certReq chain verify := by
  obtain ⟨k, f, hrun, -⟩ := handshake_completes h
  rw [handshake_eq] at h
  obtain ⟨_, s₁, hhello, h⟩ := bind_returns.mp h
  obtain ⟨⟨ckeBody, ms, sendProt, recvProt⟩, s₂, hagree, hconclude⟩ := bind_returns.mp h
  obtain ⟨cr, h₁⟩ := (sendClientHello_spec (at_start env params input output rand config)).ok hhello
  obtain ⟨ch, cr', hch, hkept⟩ := sendClientHello_sends.ok hhello
  obtain ⟨n, req, hneg⟩ := (agreeKeys_spec h₁).ok hagree
  have hsilent := (Silent.receiving.agreeKeys env s₁).ok hagree
  obtain ⟨certs, cke, verify, signed, mid, u, hconcludes⟩ := (conclude_sends hneg ckeBody).ok hconclude
  obtain ⟨ccs, data, fin, es, hccs, hfin, hes, htrace⟩ := hconcludes.finishes
  obtain ⟨quiet, htrace₂, hquiet⟩ := hsilent.trace
  have hparams : s₂.params = params := hsilent.params.trans hkept.params
  -- The trace, piece by piece.
  have hsigned : signed = .wrote ch :: (quiet ++ certs.map .wrote) ++ [.wrote cke] := by
    rw [hconcludes.trace_signed, htrace₂, show s₁.trace = [.wrote ch] from hkept.trace]
    simp
  rw [hconcludes.trace_mid] at htrace
  refine ⟨s₂.certReq, clientChain s₂.certReq params.certificates, verify, ?_, ?_, ?_, ?_, ?_, ?_⟩
  · -- What is kept as the request is what was received, and no other came.
    have hasked : Asked s₂.trace s₂.certReq := by
      refine hneg.stage.asked (hsilent.requested ?_)
      intro req hreq
      cases hkept.certReq.symm.trans hreq
    obtain ⟨f₂, htracks, -⟩ := hneg.stage
    obtain ⟨opening, -, htaken⟩ := Session.serverDone_spec htracks.run rfl
    have hpost : s.trace = s₂.trace ++ (certs.map .wrote ++ [.wrote cke] ++ mid ++ es) := by
      rw [htrace, hconcludes.trace_signed]
      simp
    rw [hpost] at hrun ⊢
    exact hasked.to_end htaken hrun rfl
  · refine ⟨ch, certs, cke, writes mid, ccs, fin, cr', ckeBody, data, ?_, hch, ?_, hconcludes.exchange,
      hconcludes.verifies, hccs, hfin⟩
    · rw [htrace, writes_append, writes_append, hsigned, writes_signed hquiet, hes]
      simp
    · rw [← hparams]
      exact hconcludes.answer
  · simp [clientChain]
  · rw [clientChain_nonEmpty_iff, hconcludes.verify_isSome, hparams]
  · rw [clientChain_nonEmpty_iff, selectClientSigAlg_isSome_iff]
  · intro v hv
    obtain ⟨hover, rest, rfl⟩ := hconcludes.signature v hv
    rw [hparams] at hover
    refine ⟨ch, quiet ++ certs.map .wrote, cke, signed, rest ++ es, cr', ckeBody, hsigned, hch,
      hconcludes.exchange, ?_, hover⟩
    rw [htrace]
    simp

/-- What a server sends that asks for a certificate: `sampleStream` with a CertificateRequest, for RSA and
    SHA-256. -/
def askingStream : Bytes :=
  [22, 3, 3, 0, 42, 2, 0, 0, 38, 3, 3] ++ List.replicate 32 5 ++ [0, 0, 0x9C, 0] ++
  [22, 3, 3, 0, 27, 11, 0, 0, 7, 0, 0, 4, 0, 0, 1, 9] ++
    [13, 0, 0, 8, 1, 1, 0, 2, 4, 1, 0, 0, 14, 0, 0, 0] ++
  [20, 3, 3, 0, 1, 1] ++
  [22, 3, 3, 0, 40] ++ List.replicate 8 0 ++ [20, 0, 0, 12] ++ List.replicate 12 108 ++
    List.replicate 8 0 ++ [22, 3, 3, 0, 16, 0, 0, 0]

/-- A client with an RSA certificate. -/
def certifiedParams : ClientParams := { ClientParams.sample with certificates := [⟨[9], .rsa [1]⟩] }

def certifiedClient : ClientState :=
  freshClient certifiedParams (ofBytes askingStream) ⟨[], []⟩ ⟨fun _ => .ok 7, 0⟩ none

theorem client_authentication_asked : ∃ s certReq chain verify,
    handshake .sample certifiedClient = .ok () s ∧
    Authentication .sample certifiedParams s.trace certReq chain verify ∧ (writes s.trace).length = 6 := by
  have hok : returns (handshake .sample) certifiedClient = true := by decide +kernel
  have hlength : (writes (endState (handshake .sample) certifiedClient).trace).length = 6 := by
    decide +kernel
  obtain ⟨_, s, hs⟩ := of_returns hok
  obtain ⟨certReq, chain, verify, hauth⟩ := client_authentication hs
  rw [endState_ok hs] at hlength
  exact ⟨s, certReq, chain, verify, hs, hauth, hlength⟩

end Gostls
