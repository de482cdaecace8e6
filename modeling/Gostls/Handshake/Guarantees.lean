import Gostls.Handshake.Refinement

/-!
# `Gostls.Handshake.Guarantees` — what a handshake guarantees

The results about the protocol, carried over to every run of the client: over any stream the server
sends, any transport, any randomness and any configuration.

* `handshake_grammar` — a handshake that succeeds has received the messages of a TLS 1.2 server and
  nothing else;
* `transcript_fidelity` — every digest is over the messages on the wire;
* `epoch_separation` — no message is made of bytes from two epochs.
-/

namespace Gostls

open Lib

section

variable {env : Env} {params : ClientParams} {input : Reader} {output : Writer} {rand : Entropy}
  {config : Option Entropy} {s : ClientState}

/-- Every run of the client, whichever way it ends, is a run of the protocol. -/
theorem handshake_runs : ∃ σ, Run (Session.Step env params) (.init input)
    (endState (handshake env) (freshClient params input output rand config)).trace σ := by
  refine (handshake_refines env params input output rand config).endState
    (P := fun s => ∃ σ, Run (Session.Step env params) (.init input) s.trace σ) ?_ ?_
  · rintro _ s ⟨k, ⟨d, rfl, f, htracks, -⟩, -⟩
    exact ⟨_, htracks.run⟩
  · rintro _ s ⟨f, st, hrun, -⟩
    exact ⟨_, hrun⟩

/-- A run that succeeds is a run to the end. -/
theorem handshake_completes
    (h : handshake env (freshClient params input output rand config) = .ok () s) :
    ∃ k f, Run (Session.Step env params) (.init input) s.trace ⟨f, .complete k⟩ ∧ s.hsBuf = f.buf ∧
      Agrees f s.layer ∧ Holds s k := by
  obtain ⟨k, hcompleted⟩ := (handshake_refines env params input output rand config).ok h
  obtain ⟨d, rfl, f, htracks, -⟩ := hcompleted.followed
  exact ⟨k, f, htracks.run, htracks.buf, htracks.agree, hcompleted.holds⟩

end

/-! ## The server's messages -/

/-- What a client has read: over records of the stream, first unprotected and then under one protector,
    the messages of a TLS 1.2 server. -/
def ServerGrammar (env : Env) (params : ClientParams) (input : Reader) (s : ClientState) : Prop :=
  ∃ suite first ccs second, s.suite = some suite ∧ reads s.trace = first ++ ccs :: second ∧
    -- The records are those of the stream, in order, and no other content type is among them.
    (∃ wire₁ wire₂ recv, input = ofBytes (wire₁ ++ wire₂) ++ s.layer.input ∧
      (∃ q m, Opens .null 0 wire₁ (first ++ [ccs]) q m) ∧ ∃ q m, Opens recv 0 wire₂ second q m) ∧
    (∀ i ∈ first ++ second, i.ct = contentTypeHandshake) ∧
    ccs.ct = contentTypeChangeCipherSpec ∧ ccs.payload = [1] ∧
    -- The messages before the ChangeCipherSpec.
    (∃ hello sh certs cert ske req,
      first.flatMap Incoming.payload = envelopes ((typeServerHello, hello) :: (typeCertificate, certs) ::
        (ske ++ req ++ [(typeServerHelloDone, [])])) ∧
      parseServerHello hello = .ok sh ∧ sh.cipherSuite ∈ params.offeredSuites ∧
      lookup env.hashes sh.cipherSuite = some suite ∧
      parseCertificate certs = .ok cert ∧ cert.rawCerts ≠ [] ∧
      (if suite.kx = .ecdhe ∨ suite.kx = .dhe then ∃ body, ske = [(typeServerKeyExchange, body)]
        else ske = []) ∧
      (req = [] ∨ ∃ body, req = [(typeCertificateRequest, body)])) ∧
    -- The message behind it.
    ∃ verifyData hash before, second.flatMap Incoming.payload = buildEnvelope typeFinished verifyData ∧
      s.trace = before ++ [.took typeFinished verifyData, .summed .serverFinished (messages before)] ∧
      suite.prf.hash = some hash ∧
      finishedVerifyData suite s.masterSecret "server finished" (hash.sum (messages before)) =
        .ok verifyData

theorem needsSKE_iff (kx : KexKind) : needsSKE kx = true ↔ kx = .ecdhe ∨ kx = .dhe := by
  cases kx <;> simp [needsSKE]

section

variable {env : Env} {params : ClientParams} {input : Reader} {output : Writer} {rand : Entropy}
  {config : Option Entropy} {s : ClientState}

/-- **A handshake that succeeds has received the messages of a TLS 1.2 server**, in their order, and
    nothing else. -/
theorem handshake_grammar (h : handshake env (freshClient params input output rand config) = .ok () s) :
    ServerGrammar env params input s := by
  obtain ⟨k, f, hrun, -, hagree, hholds⟩ := handshake_completes h
  obtain ⟨send, recv, pre, ccs, post, verifyData, htrace, hcut⟩ := Session.complete_cut hrun rfl
  obtain ⟨-, before, body, hash, hend, hhash, hdata⟩ := Session.complete_spec hrun rfl
  obtain ⟨hpre, hpost⟩ := Session.clean_append.mp hcut.clean
  -- The message that was checked is the one of the second epoch.
  obtain rfl : body = verifyData := by
    have htaken : taken before ++ [(typeFinished, body)] = taken pre ++ taken post := by
      have := congrArg taken (hend.symm.trans htrace)
      rwa [taken_append, taken_append] at this
    rw [hcut.finished] at htaken
    simpa using (List.append_inj' htaken rfl).2
  refine ⟨k.suite, reads pre, ccs, reads post, hholds.suite, ?_, ?_, ?_, hcut.ccs_ct, hcut.ccs_payload,
    ?_, body, hash, before, ?_, hend, hhash, ?_⟩
  · rw [htrace, reads_append]
    rfl
  · obtain ⟨mid, ⟨-, ⟨wire₁, q₁, m₁, hinput₁, hopens₁⟩, -⟩, ⟨-, ⟨wire₂, q₂, m₂, hinput₂, hopens₂⟩, -⟩⟩ :=
      hcut.epochs
    refine ⟨wire₁, wire₂, recv, ?_, ⟨q₁, m₁, ?_⟩, q₂, m₂, hopens₂⟩
    · rw [hinput₁, hinput₂, hagree.input, ofBytes_append, List.append_assoc]
    · simpa [Event.asRead] using hopens₁
  · intro i hi
    rcases List.mem_append.mp hi with hi | hi
    · exact hpre i hi
    · exact hpost i hi
  · obtain ⟨req, opening, ⟨hello, certs, cert, ske, reqMsg, rfl, hanswers, hparse, hne, hske, hreq⟩,
      hmsgs⟩ := hcut.flight
    obtain ⟨sh, hsh, hoffered, hlookup, -⟩ := hanswers
    refine ⟨hello, sh, certs, cert, ske, reqMsg, ?_, hsh, hoffered, hlookup, hparse, hne, ?_, ?_⟩
    · rw [← Session.received_of_clean hpre, hcut.flight_bytes, hmsgs]
      rfl
    · simpa only [Session.Optional, needsSKE_iff] using hske
    · cases req with
      | true => exact .inr hreq
      | false => exact .inl hreq
  · rw [← Session.received_of_clean hpost, hcut.finished_bytes]
  · rw [hholds.masterSecret]
    exact hdata

end

/-- What a server sends for suite `0x009C`: its flight in two records, a ChangeCipherSpec, and a Finished
    under the negotiated protector. -/
def sampleStream : Bytes :=
  [22, 3, 3, 0, 42, 2, 0, 0, 38, 3, 3] ++ List.replicate 32 5 ++ [0, 0, 0x9C, 0] ++
  [22, 3, 3, 0, 15, 11, 0, 0, 7, 0, 0, 4, 0, 0, 1, 9, 14, 0, 0, 0] ++
  [20, 3, 3, 0, 1, 1] ++
  [22, 3, 3, 0, 40] ++ List.replicate 8 0 ++ [20, 0, 0, 12] ++ List.replicate 12 108 ++
    List.replicate 8 0 ++ [22, 3, 3, 0, 16, 0, 0, 0]

def sampleClient : ClientState :=
  freshClient .sample (ofBytes sampleStream) ⟨[], []⟩ ⟨fun _ => .ok 7, 0⟩ none

/-- The handshake over that stream succeeds. -/
theorem sample_succeeds : ∃ s, handshake .sample sampleClient = .ok () s := by
  have hok : returns (handshake .sample) sampleClient = true := by decide +kernel
  obtain ⟨_, s, hs⟩ := of_returns hok
  exact ⟨s, hs⟩

theorem handshake_grammar_sample : ∃ s, handshake .sample sampleClient = .ok () s ∧
    ServerGrammar .sample .sample (ofBytes sampleStream) s := by
  obtain ⟨s, hs⟩ := sample_succeeds
  exact ⟨s, hs, handshake_grammar hs⟩

/-! ## The transcript -/

/-- **Every digest is over the messages on the wire.** Whatever a run comes to: when a digest is taken,
    the transcript holds the messages sent and received so far, in their order and each once; the
    server's Finished is checked against those before it. The messages received are, end to end, the
    handshake bytes of the records read, and each record sent as handshake data is one message. -/
theorem transcript_fidelity (env : Env) (params : ClientParams) (input : Reader) (output : Writer)
    (rand : Entropy) (config : Option Entropy) (pre post : List Event) (purpose : Purpose) (buf : Bytes)
    (h : (endState (handshake env) (freshClient params input output rand config)).trace =
      pre ++ .summed purpose buf :: post) :
    Session.Covers pre buf purpose ∧ (∃ left, received pre = envelopes (taken pre) ++ left) ∧
      ∀ o ∈ writes pre, Session.Outgoing.Whole o := by
  obtain ⟨σ, hrun⟩ : ∃ σ, Run (Session.Step env params) (.init input)
      (endState (handshake env) (freshClient params input output rand config)).trace σ := handshake_runs
  rw [h] at hrun
  obtain ⟨t, t', hpre, -, -⟩ := hrun.middle
  exact ⟨Session.summed_covers hrun, ⟨_, Flow.tiles (Session.flow_run hpre)⟩, Session.sent_messages hpre⟩

/-- In the sample handshake both sides' Finished are digested for. -/
theorem transcript_fidelity_sample : ∃ pre post buf,
    (endState (handshake .sample) sampleClient).trace = pre ++ .summed .serverFinished buf :: post ∧
      Session.Covers pre buf .serverFinished := by
  have hmem : (endState (handshake .sample) sampleClient).trace.any (fun e =>
      match e with
      | .summed .serverFinished _ => true
      | _ => false) = true := by decide +kernel
  obtain ⟨e, he, hsummed⟩ := List.any_eq_true.mp hmem
  split at hsummed
  · rename_i buf
    obtain ⟨pre, post, htrace⟩ := List.append_of_mem he
    exact ⟨pre, post, buf, htrace,
      (transcript_fidelity _ _ _ _ _ _ pre post .serverFinished buf htrace).1⟩
  · cases hsummed

/-! ## Epochs -/

/-- **No message is made of bytes from two epochs.** In every run the messages before the change of the
    receive protector come from unprotected records and use them up; those behind it come from records
    opened by the negotiated protector, counted from 0. When the handshake succeeds, nothing is buffered
    and both directions are under the negotiated protectors. -/
theorem epoch_separation (env : Env) (params : ClientParams) (input : Reader) (output : Writer)
    (rand : Entropy) (config : Option Entropy) (s : ClientState)
    (h : endState (handshake env) (freshClient params input output rand config) = s) :
    ((∃ rest, Session.Epoch .null input s.trace rest) ∨
      ∃ pre recv post, s.trace = pre ++ .installedRecv recv :: post ∧
        (∃ mid rest, Session.Epoch .null input pre mid ∧ Session.Epoch recv mid post rest) ∧
        received pre = envelopes (taken pre) ∧
        ∃ k send, k.protectors env = .ok (send, recv) ∧ Session.Derived params pre k ∧
          Session.ServerFlight env params k.toNegotiated (taken pre)) ∧
    (handshake env (freshClient params input output rand config) = .ok () s → s.hsBuf = [] ∧
      ∃ k send recv pre ccs post verifyData, Holds s k ∧
        s.trace = pre ++ .read ccs :: .installedRecv recv :: post ∧
        Session.Cut env params input k send recv pre ccs post verifyData s.layer.input ∧
        (∃ wire, Opens recv 0 wire (reads post) s.layer.recvProt s.layer.recvSeq) ∧
        ∃ pre' post', s.trace = pre' ++ .installedSend send :: post' ∧
          Seals send 0 (writes post') s.layer.sendProt s.layer.sendSeq) := by
  obtain ⟨σ, hrun⟩ : ∃ σ, Run (Session.Step env params) (.init input)
      (endState (handshake env) (freshClient params input output rand config)).trace σ := handshake_runs
  rw [h] at hrun
  constructor
  · exact Session.epochs hrun
  · intro hok
    obtain ⟨k, f, hrun, hbuf, hagree, hholds⟩ := handshake_completes hok
    obtain ⟨hempty, -⟩ := Session.complete_spec hrun rfl
    obtain ⟨send, recv, pre, ccs, post, verifyData, htrace, hcut⟩ := Session.complete_cut hrun rfl
    obtain ⟨pre', send', recv', post', htrace', hkeys, hno⟩ := (Session.settled hrun).2
    obtain ⟨rfl, rfl⟩ : send' = send ∧ recv' = recv := by
      have := hkeys.symm.trans hcut.keys
      simpa using this
    refine ⟨hbuf.trans hempty, k, send', recv', pre, ccs, post, verifyData, hholds, htrace, ?_, ?_,
      pre', post', htrace', ?_⟩
    · rw [hagree.input]
      exact hcut
    · rw [hagree.recvProt, hagree.recvSeq]
      rw [htrace, show pre ++ .read ccs :: .installedRecv recv' :: post =
        (pre ++ [.read ccs]) ++ .installedRecv recv' :: post by simp] at hrun
      exact Session.opens_of_cut hrun
    · rw [hagree.sendProt, hagree.sendSeq]
      rw [htrace'] at hrun
      exact Session.seals_of_cut hrun hno

theorem epoch_separation_sample : ∃ s k send recv pre ccs post verifyData,
    handshake .sample sampleClient = .ok () s ∧ s.hsBuf = [] ∧ Holds s k ∧
      s.trace = pre ++ .read ccs :: .installedRecv recv :: post ∧
      Session.Cut .sample .sample (ofBytes sampleStream) k send recv pre ccs post verifyData
        s.layer.input := by
  obtain ⟨s, hs⟩ := sample_succeeds
  obtain ⟨-, hend⟩ := epoch_separation .sample .sample (ofBytes sampleStream) ⟨[], []⟩
    ⟨fun _ => .ok 7, 0⟩ none s (endState_ok hs)
  obtain ⟨hbuf, k, send, recv, pre, ccs, post, verifyData, hholds, htrace, hcut, -⟩ := hend hs
  exact ⟨s, k, send, recv, pre, ccs, post, verifyData, hs, hbuf, hholds, htrace, hcut⟩

end Gostls
