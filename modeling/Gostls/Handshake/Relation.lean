import Gostls.Handshake.Protocol

/-!
# `Gostls.Handshake.Relation` — where in the protocol the client is

The relation between a state of the client and a state of the protocol, and what the client's operations
do to it.

* `At` — the trace is a run of the protocol to some stage; buffer, transcript and record layer are what
  the flow says;
* `Took` — the same, with a message in hand that has not been judged yet;
* `Trouble`, `Ended` — something failed, before and after the alert (`Trouble.exits`).

`sendMessage_spec` and `receiveMessage_spec` are what the functions of the handshake are verified with.
-/

namespace Gostls

open Lib

/-! ## The relation -/

/-- What the client has settled so far, apart from its buffers and its record layer. -/
structure Facts where
  params : ClientParams
  clientRandom : Random
  serverRandom : Random
  suite : Option Suite
  masterSecret : Bytes
  certReq : Option CertificateRequest
  clientCertSent : Bool

def ClientState.facts (s : ClientState) : Facts :=
  ⟨s.params, s.clientRandom, s.serverRandom, s.suite, s.masterSecret, s.certReq, s.clientCertSent⟩

/-- The record layer is where the flow says. -/
structure Agrees (f : Flow) (l : Layer) : Prop where
  sendProt : l.sendProt = f.sendProt
  sendSeq : l.sendSeq = f.sendSeq
  recvProt : l.recvProt = f.recvProt
  recvSeq : l.recvSeq = f.recvSeq
  input : l.input = f.input

/-- The trace of `s` is a run of the protocol to stage `st`. -/
structure Tracks (env : Env) (input : Reader) (d : Facts) (f : Flow) (st : Stage) (s : ClientState) :
    Prop where
  facts : s.facts = d
  run : Run (Session.Step env d.params) (.init input) s.trace ⟨f, st⟩
  buf : s.hsBuf = f.buf
  agree : Agrees f s.layer

/-- The client is at stage `st`, and its transcript is up to date. -/
def At (env : Env) (input : Reader) (d : Facts) (st : Stage) (s : ClientState) : Prop :=
  ∃ f, Tracks env input d f st s ∧ s.transcript.Records f.log

/-- At stage `st`, the client has taken a message off its buffer and not judged it yet. -/
structure Took (env : Env) (input : Reader) (d : Facts) (f : Flow) (st : Stage) (msgType : UInt8)
    (body : Bytes) (s : ClientState) : Prop where
  facts : s.facts = d
  run : ∃ tr, s.trace = tr ++ [.took msgType body] ∧
    Run (Session.Step env d.params) (.init input) tr ⟨f, st⟩
  buf : f.buf = buildEnvelope msgType body ++ s.hsBuf
  log : s.transcript.Records f.log
  agree : Agrees f s.layer
  short : body.length ≤ maxHandshakeMsg

/-- Something failed, and an alert can be sent. -/
def Trouble (env : Env) (input : Reader) (params : ClientParams) (s : ClientState) : Prop :=
  ∃ f st, Run (Session.Step env params) (.init input) s.trace ⟨f, st⟩ ∧ st.Live ∧
    s.layer.sendProt = f.sendProt ∧ s.layer.sendSeq = f.sendSeq

/-- The handshake is over without success: behind an alert, in a panic, or before it began. -/
def Ended (env : Env) (input : Reader) (params : ClientParams) (e : Err) (s : ClientState) : Prop :=
  ∃ f st, Run (Session.Step env params) (.init input) s.trace ⟨f, st⟩ ∧
    (e = .panic ∨ st = .failed ∨ st = .unsent ∨ st = .start)

theorem Stage.Receiving.live {st : Stage} (h : st.Receiving) : st.Live := by
  cases st <;> first | exact h | trivial

theorem Stage.Receiving.reading {st : Stage} (h : st.Receiving) : st.Reading := by
  cases st <;> first | exact h | trivial

section

variable {env : Env} {input : Reader} {d : Facts} {f : Flow} {st st' : Stage} {s : ClientState}

theorem Tracks.trouble (h : Tracks env input d f st s) (hst : st.Live) : Trouble env input d.params s :=
  ⟨f, st, h.run, hst, h.agree.sendProt, h.agree.sendSeq⟩

theorem At.trouble (h : At env input d st s) (hst : st.Live) : Trouble env input d.params s := by
  obtain ⟨f, htracks, -⟩ := h
  exact htracks.trouble hst

/-- A message taken can always be found wrong. -/
theorem Took.trouble {t : UInt8} {body : Bytes} (h : Took env input d f st t body s)
    (hst : st.Receiving) : Trouble env input d.params s := by
  obtain ⟨tr, htrace, hrun⟩ := h.run
  refine ⟨{ f with buf := s.hsBuf, log := f.log ++ buildEnvelope t body }, .broken, ?_, trivial,
    h.agree.sendProt, h.agree.sendSeq⟩
  rw [htrace]
  exact hrun.snoc ⟨.took h.buf, .badMessage hst⟩

theorem Trouble.record {params : ClientParams} (h : Trouble env input params s) (msg : Bytes) :
    Trouble env input params (s.record msg) := h

/-- A message that the protocol permits becomes part of it, and of the transcript. -/
theorem Took.tracks {t : UInt8} {body : Bytes} (h : Took env input d f st t body s)
    (hperm : Permits env d.params f st (.took t body) st') :
    ∃ f', f'.log = f.log ++ buildEnvelope t body ∧ f'.buf = s.hsBuf ∧ Tracks env input d f' st' s := by
  obtain ⟨tr, htrace, hrun⟩ := h.run
  refine ⟨{ f with buf := s.hsBuf, log := f.log ++ buildEnvelope t body }, rfl, rfl, h.facts, ?_, rfl,
    ⟨h.agree.1, h.agree.2, h.agree.3, h.agree.4, h.agree.5⟩⟩
  rw [htrace]
  exact hrun.snoc ⟨.took h.buf, hperm⟩

theorem Took.accept {t : UInt8} {body : Bytes} (h : Took env input d f st t body s)
    (hperm : Permits env d.params f st (.took t body) st') :
    At env input d st' (s.record (buildEnvelope t body)) := by
  obtain ⟨f', hlog, -, htracks⟩ := h.tracks hperm
  refine ⟨f', ⟨htracks.facts, htracks.run, htracks.buf, htracks.agree⟩, ?_⟩
  rw [hlog]
  exact h.log.write _

end

/-! ## Records -/

/-- `s'` is `s` after a write of this record, and `f'` is what becomes of the flow. -/
structure Wrote (f : Flow) (s : ClientState) (o : Outgoing) (f' : Flow) (s' : ClientState) : Prop where
  step : Flow.Step f (.wrote o) f'
  buf : f'.buf = f.buf
  log : f'.log = f.log ++ (Event.wrote o).message
  agree : Agrees f s.layer → Agrees f' s'.layer
  state : ∃ l, s' = (s.log (.wrote o)).setLayer l

/-- `s'` is `s` after a read of this record, and `f'` is what becomes of the flow. -/
structure DidRead (f : Flow) (s : ClientState) (i : Incoming) (f' : Flow) (s' : ClientState) : Prop where
  step : Flow.Step f (.read i) f'
  buf : f'.buf = f.buf ++ i.data
  log : f'.log = f.log
  agree : Agrees f' s'.layer
  state : ∃ l, s' = (s.log (.read i)).setLayer l

section

variable {f : Flow} {s : ClientState}

/-- **Writing**, with or without success, is a step of the flow. -/
theorem writeRecord_spec (ct : UInt8) (payload : Bytes) (hprot : s.layer.sendProt = f.sendProt)
    (hseq : s.layer.sendSeq = f.sendSeq) :
    wp (writeRecord ct payload)
      (fun _ s' => ∃ f', Wrote f s ⟨f.sendProt, f.sendSeq, ct, payload, true⟩ f' s')
      (fun _ s' => ∃ f', Wrote f s ⟨f.sendProt, f.sendSeq, ct, payload, false⟩ f' s') s := by
  unfold wp writeRecord
  rw [hprot, hseq]
  match hw : s.layer.writeRecord ct payload with
  | (.ok _, l) =>
      obtain ⟨hdr, fragment, l₁, w, w', hrec, -, -, rfl⟩ := Layer.writeRecord_ok hw
      obtain ⟨-, -, -, prot, rand, hseal, -, rfl⟩ := Layer.sealRecord_ok hrec
      rw [hprot, hseq] at hseal
      refine ⟨{ f with log := _, sendProt := prot, sendSeq := f.sendSeq + 1 },
        .wrote rfl rfl (fun _ => ⟨_, _, _, hseal⟩), rfl, rfl, ?_, _, rfl⟩
      intro h
      exact ⟨rfl, congrArg (· + 1) hseq, h.recvProt, h.recvSeq, h.input⟩
  | (.error e, l) =>
      obtain ⟨output, rand, prot, rfl⟩ := Layer.writeRecord_error hw
      refine ⟨{ f with log := _, sendProt := prot }, .wrote rfl rfl (fun h => nomatch h), rfl, rfl,
        ?_, _, rfl⟩
      intro h
      exact ⟨rfl, hseq, h.recvProt, h.recvSeq, h.input⟩

/-- **Reading** is a step of the flow, if it succeeds. -/
theorem readRecord_spec (h : Agrees f s.layer) :
    wp readRecord
      (fun r s' => ∃ f', DidRead f s ⟨f.recvProt, f.recvSeq, r.1, r.2⟩ f' s')
      (fun _ s' => ∃ l, s' = s.setLayer l ∧ l.sendProt = f.sendProt ∧ l.sendSeq = f.sendSeq) s := by
  unfold wp readRecord
  match hr : s.layer.readRecord with
  | (.ok (ct, payload), l) =>
      obtain ⟨-, hdr, fragment, rest, prot, hinput, -, hct, hlen, hopen, -, rfl⟩ :=
        Layer.readRecord_ok hr
      rw [h.recvProt, h.recvSeq] at hopen
      rw [h.input] at hinput
      simp only [h.recvProt, h.recvSeq]
      refine ⟨_, .read hinput hlen rfl rfl hct hopen, rfl, rfl, ?_, _, rfl⟩
      exact ⟨h.sendProt, h.sendSeq, rfl, rfl, rfl⟩
  | (.error e, l) =>
      obtain ⟨input, prot, seq, hframe⟩ := Layer.readRecord_frame s.layer
      rw [hr] at hframe
      exact ⟨l, rfl, by rw [show l = _ from hframe]; exact h.sendProt,
        by rw [show l = _ from hframe]; exact h.sendSeq⟩

end

/-! ## Failing -/

section

variable {env : Env} {input : Reader} {params : ClientParams} {d : Facts} {f : Flow} {st st' : Stage}
  {s : ClientState}

/-- **In trouble, both ways out end the handshake.** -/
theorem Trouble.exits (h : Trouble env input params s) : Exits (Ended env input params) s := by
  obtain ⟨f, st, hrun, hlive, hprot, hseq⟩ := h
  refine ⟨⟨f, st, hrun, .inl rfl⟩, ?_⟩
  intro desc cause
  have hwrite := writeRecord_spec contentTypeAlert (encodeAlert alertLevelFatal desc) hprot hseq
  have hend : ∀ o f' s', o.ct = contentTypeAlert → o.payload = encodeAlert alertLevelFatal desc →
      Wrote f s o f' s' → Ended env input params cause s' := by
    rintro o f' _ hct hpayload ⟨hstep, -, -, -, l, rfl⟩
    exact ⟨f', .failed, hrun.snoc ⟨hstep, .alert hlive hct hpayload⟩, .inr (.inl rfl)⟩
  -- Whether the alert goes out makes no difference.
  unfold ClientState.alerted
  cases hw : writeRecord contentTypeAlert (encodeAlert alertLevelFatal desc) s with
  | ok _ s' =>
      obtain ⟨f', h⟩ := hwrite.ok hw
      exact hend _ f' s' rfl rfl h
  | error _ s' =>
      obtain ⟨f', h⟩ := hwrite.error hw
      exact hend _ f' s' rfl rfl h

theorem At.exits (h : At env input d st s) (hst : st.Live) : Exits (Ended env input d.params) s :=
  (h.trouble hst).exits

theorem Took.exits {t : UInt8} {body : Bytes} (h : Took env input d f st t body s) (hst : st.Receiving) :
    Exits (Ended env input d.params) s := (h.trouble hst).exits

/-- New randomness changes nothing that the protocol knows of. -/
theorem At.setRands (h : At env input d st s) (r : Rands) : At env input d st (s.setRands r) := by
  obtain ⟨f, htracks, hlog⟩ := h
  exact ⟨f, ⟨htracks.facts, htracks.run, htracks.buf,
    ⟨htracks.agree.1, htracks.agree.2, htracks.agree.3, htracks.agree.4, htracks.agree.5⟩⟩, hlog⟩

end

/-! ## Sending messages -/

section

variable {env : Env} {input : Reader} {d : Facts} {f : Flow} {st st' : Stage} {s : ClientState}

/-- **Writing a record that the protocol permits.** -/
theorem Tracks.writeRecord {ct : UInt8} {payload : Bytes} (h : Tracks env input d f st s)
    (hst : st.Writing)
    (hperm : ∀ o : Outgoing, o.ct = ct → o.payload = payload → o.ok = true →
      Permits env d.params f st (.wrote o) st') :
    wp (writeRecord ct payload)
      (fun _ s' => s'.transcript = s.transcript ∧ ∃ f', Tracks env input d f' st' s' ∧
        f'.log = f.log ++ if ct = contentTypeHandshake then payload else [])
      (fun _ s' => Trouble env input d.params s') s := by
  apply wp.mono (writeRecord_spec ct payload h.agree.sendProt h.agree.sendSeq)
  · rintro _ _ ⟨f', hstep, hbuf, hlog, hagree, l, rfl⟩
    refine ⟨rfl, f', ⟨h.facts, h.run.snoc ⟨hstep, hperm _ rfl rfl rfl⟩, ?_, hagree h.agree⟩, ?_⟩
    · rw [hbuf]
      exact h.buf
    · rw [hlog]
      simp [Event.message]
  · rintro _ _ ⟨f', hstep, hbuf, hlog, hagree, l, rfl⟩
    have hnext := hagree h.agree
    exact ⟨f', .broken, h.run.snoc ⟨hstep, .failedWrite hst rfl⟩, trivial, hnext.sendProt, hnext.sendSeq⟩

/-- **Sending a message that the protocol permits.** -/
theorem sendMessage_spec {text : String} {msg : Message} (h : Tracks env input d f st s)
    (hlog : s.transcript.Records f.log) (hst : st.Writing)
    (hperm : ∀ o : Outgoing, o.Carries msg → Permits env d.params f st (.wrote o) st') :
    wp (sendMessage text msg) (fun _ s' => At env input d st' s') (Ended env input d.params) s := by
  unfold sendMessage
  rw [wp_bind]
  apply wp_orFatal
  apply wp.mono (h.writeRecord hst (fun o hct hpayload hok => hperm o ⟨hct, hok, hpayload⟩))
  · rintro _ s' ⟨htranscript, f', htracks, hf'⟩
    refine ⟨f', ⟨htracks.facts, htracks.run, htracks.buf, htracks.agree⟩, ?_⟩
    rw [hf', if_pos rfl]
    show (s'.transcript.write _).Records _
    rw [htranscript]
    exact hlog.write _
  · intro _ s' htrouble
    exact htrouble.exits

end

/-! ## Receiving messages -/

section

variable {env : Env} {input : Reader} {d : Facts} {f : Flow} {st st' : Stage} {s : ClientState}

theorem nextRecord_spec {Q : UInt8 × Bytes → ClientState → Prop} {E : ClientState → Prop}
    (h : wp readRecord Q (fun _ s' => E s') s) : wp nextRecord Q (fun _ s' => E s') s := by
  cases hr : readRecord s with
  | ok r s' => exact wp_of_ok (by simp only [nextRecord, hr]) (h.ok hr)
  | error e s' =>
      by_cases hbuf : s'.hsBuf.length ≠ 0
      · exact wp_of_error (by simp only [nextRecord, hr, if_pos hbuf]; rfl) (h.error hr)
      · exact wp_of_error (by simp only [nextRecord, hr, if_neg hbuf]; rfl) (h.error hr)

/-- **The reader takes a message or gets into trouble.** Its rounds read records of handshake data, which
    leave the protocol where it is. -/
theorem readHandshakeLoop_spec (rounds : Nat) (h : At env input d st s) (hst : st.Receiving) :
    wp (readHandshakeLoop rounds) (fun m s' => ∃ f, Took env input d f st m.1 m.2 s')
      (fun _ s' => Trouble env input d.params s') s := by
  induction rounds generalizing s with
  | zero => exact h.trouble hst.live
  | succ rounds ih =>
      obtain ⟨f, htracks, hlog⟩ := h
      unfold readHandshakeLoop
      rw [wp_bind, wp_get, wp_bind]
      apply wp_compute _ (fun _ _ => htracks.trouble hst.live)
      intro found hnext
      cases found with
      | some found =>
          obtain ⟨t, body, rest⟩ := found
          obtain ⟨hbuf, hshort⟩ := nextBuffered_some hnext
          exact ⟨f, htracks.facts, ⟨s.trace, rfl, htracks.run⟩, htracks.buf ▸ hbuf, hlog, htracks.agree,
            hshort⟩
      | none =>
          show wp (nextRecord >>= _) _ _ s
          rw [wp_bind]
          apply nextRecord_spec
          apply wp.mono (readRecord_spec htracks.agree)
          · rintro ⟨ct, payload⟩ _ ⟨f', hstep, hbuf, hflog, hagree, l, rfl⟩
            rw [wp_bind, wp_get]
            apply wp_ite
            · -- Handshake data: another round.
              intro hct
              apply ih
              refine ⟨f', ⟨htracks.facts, htracks.run.snoc ⟨hstep, .data hst hct⟩, ?_, hagree⟩, ?_⟩
              · rw [hbuf, Incoming.data, if_pos hct, ← htracks.buf]
                rfl
              · rw [hflog]
                exact hlog
            · -- Any other record is refused.
              intro _
              apply wp_compute (fun r hr => absurd hr (refuseRecord_error _ _ _ r))
              intro _ _
              exact ⟨f', .broken, htracks.run.snoc ⟨hstep, .badRead hst.reading⟩, trivial,
                hagree.sendProt, hagree.sendSeq⟩
          · rintro _ _ ⟨l, rfl, hprot, hseq⟩
            exact ⟨f, st, htracks.run, hst.live, hprot, hseq⟩

theorem readHandshakeRecord_spec (h : At env input d st s) (hst : st.Receiving) :
    wp readHandshakeRecord (fun m s' => ∃ f, Took env input d f st m.1 m.2 s')
      (fun _ s' => Trouble env input d.params s') s := by
  unfold readHandshakeRecord
  rw [wp_bind, wp_get]
  exact readHandshakeLoop_spec _ h hst

/-- **The next message**, of the type wanted and parsed. -/
theorem receiveMessage_spec {want parseAlert : UInt8} {name : String} {errExpected : Err}
    (h : At env input d st s) (hst : st.Receiving) :
    wp (receiveMessage want name errExpected parseAlert)
      (fun r s' => (∃ f, Took env input d f st want r.2 s') ∧ parseBody want r.2 = .ok r.1)
      (Ended env input d.params) s := by
  unfold receiveMessage
  rw [wp_bind]
  apply wp_orFatal
  apply wp.mono (readHandshakeRecord_spec h hst) _ (fun _ _ htrouble => htrouble.exits)
  rintro ⟨t, body⟩ s' ⟨f, htook⟩
  rw [wp_bind]
  apply wp_fatalIf (htook.exits hst)
  intro ht
  obtain rfl : t = want := not_not.mp ht
  apply wp_call (wp_parsePayload (htook.exits hst) htook.short)
  rintro m _ ⟨rfl, hparse⟩
  exact ⟨⟨f, htook⟩, hparse⟩

end

end Gostls
