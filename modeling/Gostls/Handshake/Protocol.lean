import Gostls.Handshake.Client
import Gostls.Handshake.Flow
import Mathlib.Data.List.Basic

/-!
# `Gostls.Handshake.Protocol` — the handshake as a protocol

The TLS 1.2 client handshake in its own terms: which event may follow which, and what has to hold for it
to be accepted. A `Session` is a stage of the protocol over a `Flow` of bytes; its steps are the steps
of the flow that the stage permits. Every event is either the next one of the protocol or an offence,
after which the only thing left to do is to send an alert.

The results are about all runs of the protocol, finished or not:

* `Session.summed_covers` — every digest is over the messages so far;
* `Session.sent_messages` — what is sent as handshake data are messages;
* `Session.installedRecv_cut`, `Session.epochs` — the change of the receive protector separates two
  epochs;
* `Session.heard`, `Session.complete_spec` — what has been received at each stage, and at the end;
* `Session.settled` — what the keys of each stage are derived from, and when they are in use.
-/

namespace Gostls

open Lib

/-! ## Stages -/

/-- What the two hellos settle. -/
structure Negotiated where
  suite : Suite
  clientRandom : Random
  serverRandom : Random

/-- What the key exchange adds. -/
structure Keyed extends Negotiated where
  master : Bytes

/-- The protectors of both directions, the client's first. -/
def Keyed.protectors (env : Env) (k : Keyed) : Except Err (Protector × Protector) := do
  let km ← expandKeysManual k.suite k.master k.clientRandom.val k.serverRandom.val
    (keyBlockIVLen k.suite)
  let sendProt ← buildProtector env k.suite km.clientEncKey km.clientMACKey km.clientIV
  let recvProt ← buildProtector env k.suite km.serverEncKey km.serverMACKey km.serverIV
  return (sendProt, recvProt)

/-- How far a handshake has come. -/
inductive Stage
  | start
  /-- ClientHello sent. -/
  | hello (clientRandom : Random)
  | serverHello (n : Negotiated)
  /-- Certificate received, and then perhaps ServerKeyExchange and CertificateRequest. -/
  | flight (n : Negotiated) (ske req : Bool)
  | serverDone (n : Negotiated) (req : Bool)
  /-- The client's Certificate sent, empty or not. -/
  | certificate (n : Negotiated) (nonEmpty : Bool)
  /-- ClientKeyExchange sent, CertificateVerify to follow. -/
  | certifying (k : Keyed)
  | signing (k : Keyed)
  /-- Ready to change the cipher. -/
  | ready (k : Keyed)
  | changing (k : Keyed)
  /-- Sending under the negotiated protector. -/
  | keyed (k : Keyed)
  | finishing (k : Keyed)
  /-- The client's Finished sent. -/
  | finished (k : Keyed)
  | changed (k : Keyed)
  /-- Receiving under the negotiated protector. -/
  | rekeyed (k : Keyed)
  /-- The server's Finished received, to be checked. -/
  | checking (k : Keyed) (body : Bytes)
  | complete (k : Keyed)
  /-- Something was wrong. -/
  | broken
  | failed
  /-- The ClientHello could not be written. -/
  | unsent

namespace Stage

/-- The stages in which the client waits for a handshake message. -/
def Receiving : Stage → Prop
  | .hello _ | .serverHello _ | .flight _ _ _ | .rekeyed _ => True
  | _ => False

/-- The stages in which the client reads records. -/
def Reading : Stage → Prop
  | .hello _ | .serverHello _ | .flight _ _ _ | .finished _ | .rekeyed _ => True
  | _ => False

/-- The stages in which the client writes, but for the first. -/
def Writing : Stage → Prop
  | .serverDone _ _ | .certificate _ _ | .signing _ | .ready _ | .finishing _ => True
  | _ => False

/-- The stages in which an error is answered with an alert. -/
def Live : Stage → Prop
  | .start | .complete _ | .failed | .unsent => False
  | _ => True

/-- The stages behind the change of the receive protector. -/
def Late : Stage → Prop
  | .rekeyed _ | .checking _ _ | .complete _ | .broken | .failed => True
  | _ => False

end Stage

/-- A protocol state: a stage, and the bytes. -/
structure Session where
  flow : Flow
  stage : Stage

def Session.init (input : Reader) : Session := ⟨.init input, .start⟩

/-! ## The protocol -/

/-- A handshake message was written. -/
structure Outgoing.Carries (o : Outgoing) (m : Message) : Prop where
  ct : o.ct = contentTypeHandshake
  ok : o.ok = true
  payload : o.payload = marshalMessage m

/-- The stage an event leads to, given the flow before it. -/
inductive Permits (env : Env) (params : ClientParams) (f : Flow) : Stage → Event → Stage → Prop
  | clientHello {o : Outgoing} {cr : Random} (h : o.Carries (.clientHello (clientHello params cr))) :
      Permits env params f .start (.wrote o) (.hello cr)
  /-- Handshake data, to be interpreted when a message is complete. -/
  | data {st : Stage} {i : Incoming} (hst : st.Receiving) (hct : i.ct = contentTypeHandshake) :
      Permits env params f st (.read i) st
  | serverHello {cr : Random} {body : Bytes} {sh : ServerHello} {suite : Suite}
      (hparse : parseServerHello body = .ok sh) (hoffered : sh.cipherSuite ∈ params.offeredSuites)
      (hlookup : lookup env.hashes sh.cipherSuite = some suite) :
      Permits env params f (.hello cr) (.took typeServerHello body) (.serverHello ⟨suite, cr, sh.random⟩)
  | certificate {n : Negotiated} {body : Bytes} {m : Certificate}
      (hparse : parseCertificate body = .ok m)
      (hne : m.rawCerts ≠ []) :
      Permits env params f (.serverHello n) (.took typeCertificate body) (.flight n false false)
  | serverKeyExchange {n : Negotiated} {body : Bytes} (hkx : needsSKE n.suite.kx = true) :
      Permits env params f (.flight n false false) (.took typeServerKeyExchange body)
        (.flight n true false)
  | certificateRequest {n : Negotiated} {ske : Bool} {body : Bytes} {m : CertificateRequest}
      (hparse : parseCertificateRequest body = .ok m) :
      Permits env params f (.flight n ske false) (.took typeCertificateRequest body) (.flight n ske true)
  | serverHelloDone {n : Negotiated} {req : Bool} :
      Permits env params f (.flight n (needsSKE n.suite.kx) req) (.took typeServerHelloDone [])
        (.serverDone n req)
  | clientCertificate {n : Negotiated} {o : Outgoing} {m : Certificate}
      (h : o.Carries (.certificate m)) :
      Permits env params f (.serverDone n true) (.wrote o) (.certificate n !m.rawCerts.isEmpty)
  | clientKeyExchange {n : Negotiated} {o : Outgoing} {m : KeyExchangeMessage} {preMaster master : Bytes}
      (h : o.Carries (.clientKeyExchange m))
      (hmaster : masterSecret n.suite preMaster n.clientRandom.val n.serverRandom.val = .ok master) :
      Permits env params f (.serverDone n false) (.wrote o) (.ready ⟨n, master⟩)
  | anonymousKeyExchange {n : Negotiated} {o : Outgoing} {m : KeyExchangeMessage}
      {preMaster master : Bytes} (h : o.Carries (.clientKeyExchange m))
      (hmaster : masterSecret n.suite preMaster n.clientRandom.val n.serverRandom.val = .ok master) :
      Permits env params f (.certificate n false) (.wrote o) (.ready ⟨n, master⟩)
  | certifiedKeyExchange {n : Negotiated} {o : Outgoing} {m : KeyExchangeMessage}
      {preMaster master : Bytes} (h : o.Carries (.clientKeyExchange m))
      (hmaster : masterSecret n.suite preMaster n.clientRandom.val n.serverRandom.val = .ok master) :
      Permits env params f (.certificate n true) (.wrote o) (.certifying ⟨n, master⟩)
  | digestToSign {k : Keyed} :
      Permits env params f (.certifying k) (.summed .certificateVerify f.log) (.signing k)
  | certificateVerify {k : Keyed} {o : Outgoing} {m : CertificateVerify}
      (h : o.Carries (.certificateVerify m)) : Permits env params f (.signing k) (.wrote o) (.ready k)
  | changeCipherSpec {k : Keyed} {o : Outgoing} (hct : o.ct = contentTypeChangeCipherSpec)
      (hok : o.ok = true) (hpayload : o.payload = [1]) :
      Permits env params f (.ready k) (.wrote o) (.changing k)
  | installSend {k : Keyed} {p q : Protector} (hkeys : k.protectors env = .ok (p, q)) :
      Permits env params f (.changing k) (.installedSend p) (.keyed k)
  | digestToFinish {k : Keyed} :
      Permits env params f (.keyed k) (.summed .clientFinished f.log) (.finishing k)
  | clientFinished {k : Keyed} {o : Outgoing} {m : Finished} {hash : Hash} (h : o.Carries (.finished m))
      (hhash : k.suite.prf.hash = some hash)
      (hdata : finishedVerifyData k.suite k.master "client finished" (hash.sum f.log) =
        .ok m.verifyData) :
      Permits env params f (.finishing k) (.wrote o) (.finished k)
  /-- Nothing may be buffered when the cipher changes. -/
  | serverChangeCipherSpec {k : Keyed} {i : Incoming} (hbuf : f.buf = [])
      (hct : i.ct = contentTypeChangeCipherSpec) (hpayload : i.payload = [1]) :
      Permits env params f (.finished k) (.read i) (.changed k)
  | installRecv {k : Keyed} {p q : Protector} (hkeys : k.protectors env = .ok (p, q)) :
      Permits env params f (.changed k) (.installedRecv q) (.rekeyed k)
  | serverFinished {k : Keyed} {body : Bytes} :
      Permits env params f (.rekeyed k) (.took typeFinished body) (.checking k body)
  /-- The digest is over everything before the message it checks, and the message is the last. -/
  | verified {k : Keyed} {body log : Bytes} {hash : Hash}
      (hlog : f.log = log ++ buildEnvelope typeFinished body) (hhash : k.suite.prf.hash = some hash)
      (hdata : finishedVerifyData k.suite k.master "server finished" (hash.sum log) = .ok body)
      (hbuf : f.buf = []) :
      Permits env params f (.checking k body) (.summed .serverFinished log) (.complete k)
  /-- Offences, by kind of event. -/
  | mismatch {k : Keyed} {body log : Bytes} (hlog : f.log = log ++ buildEnvelope typeFinished body) :
      Permits env params f (.checking k body) (.summed .serverFinished log) .broken
  | badRead {st : Stage} {i : Incoming} (hst : st.Reading) : Permits env params f st (.read i) .broken
  | badMessage {st : Stage} {msgType : UInt8} {body : Bytes} (hst : st.Receiving) :
      Permits env params f st (.took msgType body) .broken
  | failedWrite {st : Stage} {o : Outgoing} (hst : st.Writing) (hok : o.ok = false) :
      Permits env params f st (.wrote o) .broken
  | unsent {o : Outgoing} (hok : o.ok = false) : Permits env params f .start (.wrote o) .unsent
  | alert {st : Stage} {o : Outgoing} {desc : UInt8} (hst : st.Live) (hct : o.ct = contentTypeAlert)
      (hpayload : o.payload = encodeAlert alertLevelFatal desc) :
      Permits env params f st (.wrote o) .failed

/-- A step of the protocol: what the event does to the flow, and the stage it leads to. -/
structure Session.Step (env : Env) (params : ClientParams) (s : Session) (e : Event) (s' : Session) :
    Prop where
  flow : Flow.Step s.flow e s'.flow
  stage : Permits env params s.flow s.stage e s'.stage

namespace Session

variable {env : Env} {params : ClientParams} {input : Reader} {s s' : Session} {tr pre post : List Event}

/-- A run of the protocol is a run of its flow. -/
theorem flow_run (h : Run (Step env params) s tr s') : Run Flow.Step s.flow tr s'.flow :=
  h.map Session.flow (fun _ _ _ hstep => hstep.flow)

/-! ## Digests -/

/-- What is being checked is the message just taken. -/
theorem checking_last {k : Keyed} {body : Bytes} (h : Run (Step env params) (.init input) tr s)
    (hst : s.stage = .checking k body) : ∃ pre, tr = pre ++ [.took typeFinished body] := by
  cases h with
  | nil => cases hst
  | @snoc pre t _ e _ hstep =>
      have hperm := hstep.stage
      rw [hst] at hperm
      generalize t.stage = st at hperm
      cases hperm with
      | serverFinished => exact ⟨pre, rfl⟩
      | data hrecv _ => exact hrecv.elim

/-- The log of a run is the messages of its trace. -/
theorem log_eq (h : Run (Step env params) (.init input) tr s) : s.flow.log = messages tr :=
  Flow.log_eq (flow_run h)

/-- What a digest has to be taken over, when `pre` is what happened before: all messages, but for the
    Finished it is to check. -/
def Covers (pre : List Event) (buf : Bytes) : Purpose → Prop
  | .certificateVerify | .clientFinished => buf = messages pre
  | .serverFinished => ∃ pre' body, pre = pre' ++ [.took typeFinished body] ∧ buf = messages pre'

/-- **Every digest covers the messages so far.** -/
theorem summed_covers {purpose : Purpose} {buf : Bytes}
    (h : Run (Step env params) (.init input) (pre ++ .summed purpose buf :: post) s) :
    Covers pre buf purpose := by
  obtain ⟨t, t', hpre, hstep, -⟩ := h.middle
  have hlog := log_eq hpre
  have hperm := hstep.stage
  have hfinished : ∀ k body, t.stage = .checking k body →
      t.flow.log = buf ++ buildEnvelope typeFinished body → Covers pre buf .serverFinished := by
    intro k body hst hbuf
    obtain ⟨pre', rfl⟩ := checking_last hpre hst
    refine ⟨pre', body, rfl, ?_⟩
    rw [hbuf, messages_append, messages_single] at hlog
    exact List.append_cancel_right hlog
  generalize hst : t.stage = st at hperm
  generalize t'.stage = st' at hperm
  cases hperm with
  | digestToSign | digestToFinish => exact hlog
  | verified hbuf _ _ _ => exact hfinished _ _ hst hbuf
  | mismatch hbuf => exact hfinished _ _ hst hbuf

/-! ## Sent messages -/

/-- A record of handshake data that went out is one message. -/
def Outgoing.Whole (o : Outgoing) : Prop :=
  o.ct = contentTypeHandshake → o.ok = true → ∃ m, o.payload = marshalMessage m

theorem whole_of_step {o : Outgoing} (h : Step env params s (.wrote o) s') : Outgoing.Whole o := by
  intro hct hok
  have hperm := h.stage
  generalize s.stage = st at hperm
  generalize s'.stage = st' at hperm
  cases hperm with
  | clientHello h | clientCertificate h | clientKeyExchange h _ | anonymousKeyExchange h _
  | certifiedKeyExchange h _ | certificateVerify h | clientFinished h _ _ => exact ⟨_, h.payload⟩
  | changeCipherSpec hccs _ _ | alert _ hccs _ => exact absurd (hct.symm.trans hccs) (by decide)
  | failedWrite _ hno | unsent hno => exact absurd (hok.symm.trans hno) (by decide)

/-- **What is sent as handshake data are messages**, one in a record. -/
theorem sent_messages (h : Run (Step env params) s tr s') : ∀ o ∈ writes tr, Outgoing.Whole o := by
  induction h with
  | nil => simp [writes]
  | @snoc es t u e _ hstep ih =>
      intro o ho
      rw [writes_append, writes_single, List.mem_append] at ho
      rcases ho with ho | ho
      · exact ih o ho
      · cases e with
        | wrote o' =>
            obtain rfl : o = o' := by simpa [Event.asWritten] using ho
            exact whole_of_step hstep
        | read _ | took _ _ | summed _ _ | installedSend _ | installedRecv _ =>
            simp [Event.asWritten] at ho

/-! ## Epochs -/

/-- Between the ChangeCipherSpec and the new protector nothing is buffered. -/
theorem changed_spec {k : Keyed} (h : Run (Step env params) (.init input) tr s)
    (hst : s.stage = .changed k) :
    s.flow.buf = [] ∧ ∃ pre i, tr = pre ++ [.read i] ∧ i.ct = contentTypeChangeCipherSpec ∧
      i.payload = [1] := by
  cases h with
  | nil => cases hst
  | @snoc pre t _ e _ hstep =>
      have hperm := hstep.stage
      have hflow := hstep.flow
      rw [hst] at hperm
      generalize t.stage = st at hperm
      cases hperm with
      | data hrecv _ => exact hrecv.elim
      | serverChangeCipherSpec hbuf hct hpayload =>
          refine ⟨?_, pre, _, rfl, hct, hpayload⟩
          generalize s.flow = f at hflow
          cases hflow with
          | read _ _ _ _ _ _ =>
              -- A ChangeCipherSpec record carries no handshake data.
              show t.flow.buf ++ Incoming.data _ = []
              rw [hbuf, Incoming.data, hct]
              rfl

theorem late_step {e : Event} (hs : s.stage.Late) (h : Step env params s e s') : s'.stage.Late := by
  have hperm := h.stage
  generalize s.stage = st at hs hperm
  generalize s'.stage = st' at hperm
  cases hperm <;> first | exact hs | trivial

/-- The change of the receive protector leads behind it, and not from there. -/
theorem late_of_installedRecv {p : Protector} (h : Step env params s (.installedRecv p) s') :
    ¬ s.stage.Late ∧ s'.stage.Late := by
  have hperm := h.stage
  generalize s.stage = st at hperm
  generalize s'.stage = st' at hperm
  cases hperm
  exact ⟨id, trivial⟩

/-- Behind the change of the receive protector there is no other. -/
theorem late_no_installedRecv (h : Run (Step env params) s tr s') (hs : s.stage.Late) (p : Protector) :
    .installedRecv p ∉ tr := by
  intro hp
  apply h.absent_after (P := (·.stage.Late)) (B := (∃ q, · = Event.installedRecv q))
    (fun _ _ _ => late_step) _ hs _ hp ⟨p, rfl⟩
  rintro s _ s' ⟨q, rfl⟩ hstep
  exact (late_of_installedRecv hstep).1

/-- And there was none before it. -/
theorem early_no_installedRecv (h : Run (Step env params) s tr s') (hs : ¬ s'.stage.Late)
    (p : Protector) : .installedRecv p ∉ tr := by
  intro hp
  apply h.absent_before (P := (·.stage.Late)) (B := (∃ q, · = Event.installedRecv q))
    (fun _ _ _ => late_step) _ hs _ hp ⟨p, rfl⟩
  rintro s _ s' ⟨q, rfl⟩ hstep
  exact (late_of_installedRecv hstep).2

/-- The events of one receive epoch: they start with protector `p` at sequence number 0 and do not change
    it. Every record was opened by it, in sequence; these are the records of `input` up to `rest`. At
    every point the messages taken are, end to end, the first handshake bytes of these records. -/
structure Epoch (p : Protector) (input : Reader) (es : List Event) (rest : Reader) : Prop where
  unchanged : ∀ q, .installedRecv q ∉ es
  opened : ∃ wire q m, input = ofBytes wire ++ rest ∧ Opens p 0 wire (reads es) q m
  tiled : ∀ pre post, es = pre ++ post → ∃ left, received pre = envelopes (taken pre) ++ left

theorem epoch_of_run (h : Run (Step env params) s tr s') (hbuf : s.flow.buf = [])
    (hseq : s.flow.recvSeq = 0) (hno : ∀ p, .installedRecv p ∉ tr) :
    Epoch s.flow.recvProt s.flow.input tr s'.flow.input := by
  have hflow := flow_run h
  obtain ⟨wire, hinput, hopens⟩ := Flow.opens hflow hno
  refine ⟨hno, ⟨wire, _, _, hinput, hseq ▸ hopens⟩, ?_⟩
  rintro pre post rfl
  obtain ⟨t, hpre, -⟩ := hflow.append_inv
  have htiles := Flow.tiles hpre
  rw [hbuf] at htiles
  exact ⟨_, htiles⟩

/-- Before the change of the receive protector there is one epoch, without protection. -/
theorem early_epoch (h : Run (Step env params) (.init input) tr s) (hno : ∀ p, .installedRecv p ∉ tr) :
    Epoch .null input tr s.flow.input :=
  epoch_of_run h rfl rfl hno

/-- **The change of the receive protector separates two epochs**, and nothing of the first is left when
    the second starts. -/
theorem installedRecv_cut {p : Protector}
    (h : Run (Step env params) (.init input) (pre ++ .installedRecv p :: post) s) :
    (∃ mid, Epoch .null input pre mid ∧ Epoch p mid post s.flow.input) ∧
      received pre = envelopes (taken pre) ∧
      ∃ t k send, Run (Step env params) (.init input) pre t ∧ t.stage = .changed k ∧
        k.protectors env = .ok (send, p) := by
  obtain ⟨t, t', hpre, hstep, hpost⟩ := h.middle
  obtain ⟨hearly, hlate⟩ := late_of_installedRecv hstep
  have hperm := hstep.stage
  have hflow := hstep.flow
  generalize hst : t.stage = st at hperm
  generalize t'.stage = st' at hperm
  cases hperm with
  | @installRecv k send _ hkeys =>
      obtain ⟨hbuf, -⟩ := changed_spec hpre hst
      have hnew : t'.flow.recvProt = p ∧ t'.flow.recvSeq = 0 ∧ t'.flow.buf = [] ∧
          t'.flow.input = t.flow.input := by
        generalize t'.flow = f at hflow
        cases hflow
        exact ⟨rfl, rfl, hbuf, rfl⟩
      obtain ⟨hprot, hseq, hbuf', hinput⟩ := hnew
      refine ⟨⟨t.flow.input, early_epoch hpre (early_no_installedRecv hpre hearly), ?_⟩, ?_,
        t, k, send, hpre, hst, hkeys⟩
      · rw [← hprot, ← hinput]
        exact epoch_of_run hpost hbuf' hseq (late_no_installedRecv hpost hlate)
      · have htiles := Flow.tiles (flow_run hpre)
        rw [hbuf, List.append_nil] at htiles
        exact htiles

/-! ## The grammar of the server's messages -/

/-- Every record read carried handshake data. -/
def Clean (tr : List Event) : Prop := ∀ i ∈ reads tr, i.ct = contentTypeHandshake

@[simp] theorem clean_append {a b : List Event} : Clean (a ++ b) ↔ Clean a ∧ Clean b := by
  simp [Clean, or_imp, forall_and]

theorem Clean.took (h : Clean tr) (msgType : UInt8) (body : Bytes) :
    Clean (tr ++ [.took msgType body]) :=
  clean_append.mpr ⟨h, by simp [Clean, Event.asRead]⟩

/-- A ServerHello that picks an offered, registered suite. -/
def Answers (env : Env) (params : ClientParams) (n : Negotiated) (body : Bytes) : Prop :=
  ∃ sh, parseServerHello body = .ok sh ∧ sh.cipherSuite ∈ params.offeredSuites ∧
    lookup env.hashes sh.cipherSuite = some n.suite ∧ n.serverRandom = sh.random

/-- One message of this type, or none. -/
def Optional (present : Bool) (msgType : UInt8) (msgs : List (UInt8 × Bytes)) : Prop :=
  if present then ∃ body, msgs = [(msgType, body)] else msgs = []

/-- The messages up to the ServerHelloDone. -/
def Opening (env : Env) (params : ClientParams) (n : Negotiated) (ske req : Bool)
    (msgs : List (UInt8 × Bytes)) : Prop :=
  ∃ hello certs cert skeMsg reqMsg,
    msgs = (typeServerHello, hello) :: (typeCertificate, certs) :: (skeMsg ++ reqMsg) ∧
    Answers env params n hello ∧ parseCertificate certs = .ok cert ∧ cert.rawCerts ≠ [] ∧
    Optional ske typeServerKeyExchange skeMsg ∧ Optional req typeCertificateRequest reqMsg

/-- The server's first flight. -/
def ServerFlight (env : Env) (params : ClientParams) (n : Negotiated) (msgs : List (UInt8 × Bytes)) :
    Prop :=
  ∃ req opening, Opening env params n (needsSKE n.suite.kx) req opening ∧
    msgs = opening ++ [(typeServerHelloDone, [])]

/-- A trace of two epochs: the server's flight, a ChangeCipherSpec, and these messages. -/
def TwoEpochs (env : Env) (params : ClientParams) (k : Keyed) (tr : List Event)
    (msgs : List (UInt8 × Bytes)) : Prop :=
  ∃ pre i send recv post, tr = pre ++ .read i :: .installedRecv recv :: post ∧
    i.ct = contentTypeChangeCipherSpec ∧ i.payload = [1] ∧ Clean pre ∧
    ServerFlight env params k.toNegotiated (taken pre) ∧ k.protectors env = .ok (send, recv) ∧
    Clean post ∧ taken post = msgs

/-- What has been received when a stage is reached. -/
def Heard (env : Env) (params : ClientParams) (tr : List Event) : Stage → Prop
  | .start | .hello _ => Clean tr ∧ taken tr = []
  | .serverHello n =>
    Clean tr ∧ ∃ hello, taken tr = [(typeServerHello, hello)] ∧ Answers env params n hello
  | .flight n ske req => Clean tr ∧ Opening env params n ske req (taken tr)
  | .serverDone n _ | .certificate n _ => Clean tr ∧ ServerFlight env params n (taken tr)
  | .certifying k | .signing k | .ready k | .changing k | .keyed k | .finishing k | .finished k =>
    Clean tr ∧ ServerFlight env params k.toNegotiated (taken tr)
  | .changed k => ∃ pre i, tr = pre ++ [.read i] ∧ i.ct = contentTypeChangeCipherSpec ∧
      i.payload = [1] ∧ Clean pre ∧ ServerFlight env params k.toNegotiated (taken pre)
  | .rekeyed k => TwoEpochs env params k tr []
  | .checking k body => TwoEpochs env params k tr [(typeFinished, body)]
  | .complete k => ∃ body, TwoEpochs env params k tr [(typeFinished, body)]
  | .broken | .failed | .unsent => True

/-- Two epochs grow at the end. -/
theorem TwoEpochs.snoc {k : Keyed} {msgs : List (UInt8 × Bytes)} (h : TwoEpochs env params k tr msgs)
    (e : Event) (he : Clean [e]) : TwoEpochs env params k (tr ++ [e]) (msgs ++ e.asTaken.toList) := by
  obtain ⟨pre, i, send, recv, post, rfl, hct, hpayload, hpre, hflight, hkeys, hpost, rfl⟩ := h
  refine ⟨pre, i, send, recv, post ++ [e], by simp, hct, hpayload, hpre, hflight, hkeys, ?_, by simp⟩
  exact clean_append.mpr ⟨hpost, he⟩

/-- An event that takes no message, and reads nothing but handshake data. -/
def Quiet (e : Event) : Prop := Clean [e] ∧ e.asTaken = none

/-- A quiet event changes nothing of what was received as messages. -/
theorem Quiet.snoc {e : Event} (he : Quiet e) {P : List (UInt8 × Bytes) → Prop}
    (h : Clean tr ∧ P (taken tr)) : Clean (tr ++ [e]) ∧ P (taken (tr ++ [e])) := by
  refine ⟨clean_append.mpr ⟨h.1, he.1⟩, ?_⟩
  rw [taken_append, taken_single, he.2]
  simpa using h.2

theorem quiet_of_asRead {e : Event} (hr : e.asRead = none) (ht : e.asTaken = none) : Quiet e :=
  ⟨by simp [Clean, hr], ht⟩

theorem heard_data {st : Stage} {i : Incoming} (hst : st.Receiving) (hct : i.ct = contentTypeHandshake)
    (h : Heard env params tr st) : Heard env params (tr ++ [.read i]) st := by
  have hquiet : Quiet (.read i) := ⟨by simp [Clean, Event.asRead, hct], rfl⟩
  cases st with
  | hello _ => exact hquiet.snoc (P := (· = [])) h
  | serverHello n =>
      exact hquiet.snoc
        (P := fun l => ∃ hello, l = [(typeServerHello, hello)] ∧ Answers env params n hello) h
  | flight n ske req => exact hquiet.snoc (P := Opening env params n ske req) h
  | rekeyed k => exact TwoEpochs.snoc h (.read i) hquiet.1
  | _ => exact hst.elim

/-- **What a run has received, stage by stage.** -/
theorem heard (h : Run (Step env params) (.init input) tr s) : Heard env params tr s.stage := by
  induction h with
  | nil => exact ⟨by simp [Clean, reads], rfl⟩
  | @snoc es t u e hrun hstep ih =>
      have hperm := hstep.stage
      generalize t.stage = st at ih hperm
      generalize u.stage = st' at hperm
      cases hperm with
      | data hrecv hct => exact heard_data hrecv hct ih
      -- Up to the ServerHelloDone each message extends the list in the one place it has there.
      | clientHello _ => exact (quiet_of_asRead rfl rfl).snoc (P := (· = [])) ih
      | @serverHello _ body sh _ hparse hoffered hlookup =>
          refine ⟨ih.1.took _ _, body, ?_, sh, hparse, hoffered, hlookup, rfl⟩
          simp [ih.2, Event.asTaken]
      | @certificate _ body m hparse hne =>
          obtain ⟨hclean, hello, htaken, hanswers⟩ := ih
          refine ⟨hclean.took _ _, hello, body, m, [], [], ?_, hanswers, hparse, hne, rfl, rfl⟩
          simp [htaken, Event.asTaken]
      | @serverKeyExchange _ body _ =>
          obtain ⟨hclean, hello, certs, cert, ske, req, htaken, hanswers, hparse, hne, rfl, rfl⟩ := ih
          refine ⟨hclean.took _ _, hello, certs, cert, [(typeServerKeyExchange, body)], [], ?_,
            hanswers, hparse, hne, ⟨body, rfl⟩, rfl⟩
          simp [htaken, Event.asTaken]
      | @certificateRequest _ _ body _ _ =>
          obtain ⟨hclean, hello, certs, cert, ske, req, htaken, hanswers, hparse, hne, hske, rfl⟩ := ih
          refine ⟨hclean.took _ _, hello, certs, cert, ske, [(typeCertificateRequest, body)], ?_,
            hanswers, hparse, hne, hske, ⟨body, rfl⟩⟩
          simp [htaken, Event.asTaken]
      | serverHelloDone =>
          refine ⟨ih.1.took _ _, _, _, ih.2, ?_⟩
          simp [Event.asTaken]
      -- Then the client is busy writing, and the list stays as it is.
      | @clientCertificate n _ _ _ | @clientKeyExchange n _ _ _ _ _ _
      | @anonymousKeyExchange n _ _ _ _ _ _ | @certifiedKeyExchange n _ _ _ _ _ _ =>
          exact (quiet_of_asRead rfl rfl).snoc (P := ServerFlight env params n) ih
      | @digestToSign k | @certificateVerify k _ _ _ | @changeCipherSpec k _ _ _ _ | @installSend k _ _ _
      | @digestToFinish k | @clientFinished k _ _ _ _ _ _ =>
          exact (quiet_of_asRead rfl rfl).snoc (P := ServerFlight env params k.toNegotiated) ih
      | @serverChangeCipherSpec _ i _ hct hpayload => exact ⟨es, i, rfl, hct, hpayload, ih⟩
      | @installRecv _ p q hkeys =>
          obtain ⟨pre, i, rfl, hct, hpayload, hpre, hflight⟩ := ih
          exact ⟨pre, i, p, q, [], by simp, hct, hpayload, hpre, hflight, hkeys,
            by simp [Clean, reads], rfl⟩
      | serverFinished => exact TwoEpochs.snoc ih _ (by simp [Clean, Event.asRead])
      | @verified _ body _ _ _ _ _ _ =>
          exact ⟨body, TwoEpochs.snoc ih _ (by simp [Clean, Event.asRead])⟩
      | mismatch _ | badRead _ | badMessage _ | failedWrite _ _ | unsent _ | alert _ _ _ => trivial

/-! ## The keys -/

/-- A ClientHello with this random value was sent. -/
def Offered (params : ClientParams) (tr : List Event) (cr : Random) : Prop :=
  ∃ o ∈ writes tr, o.Carries (.clientHello (clientHello params cr))

/-- The master secret is derived from the random values of the hellos. -/
def Derived (params : ClientParams) (tr : List Event) (k : Keyed) : Prop :=
  Offered params tr k.clientRandom ∧
    ∃ preMaster, masterSecret k.suite preMaster k.clientRandom.val k.serverRandom.val = .ok k.master

/-- The negotiated send protector was put in place, once. -/
def Sealing (env : Env) (tr : List Event) (k : Keyed) : Prop :=
  ∃ pre send recv post, tr = pre ++ .installedSend send :: post ∧ k.protectors env = .ok (send, recv) ∧
    ∀ p, .installedSend p ∉ post

/-- What has been settled when a stage is reached. -/
def Settled (env : Env) (params : ClientParams) (tr : List Event) : Stage → Prop
  | .hello cr => Offered params tr cr
  | .serverHello n | .flight n _ _ | .serverDone n _ | .certificate n _ =>
    Offered params tr n.clientRandom
  | .certifying k | .signing k | .ready k | .changing k => Derived params tr k
  | .keyed k | .finishing k | .finished k | .changed k | .rekeyed k | .checking k _ | .complete k =>
    Derived params tr k ∧ Sealing env tr k
  | .start | .broken | .failed | .unsent => True

theorem Offered.snoc {cr : Random} (h : Offered params tr cr) (e : Event) :
    Offered params (tr ++ [e]) cr := by
  obtain ⟨o, ho, hcarries⟩ := h
  refine ⟨o, ?_, hcarries⟩
  rw [writes_append]
  exact List.mem_append_left _ ho

theorem Derived.snoc {k : Keyed} (h : Derived params tr k) (e : Event) : Derived params (tr ++ [e]) k :=
  ⟨h.1.snoc e, h.2⟩

theorem Sealing.snoc {k : Keyed} (h : Sealing env tr k) {e : Event} (he : ∀ p, e ≠ .installedSend p) :
    Sealing env (tr ++ [e]) k := by
  obtain ⟨pre, send, recv, post, rfl, hkeys, hno⟩ := h
  refine ⟨pre, send, recv, post ++ [e], by simp, hkeys, ?_⟩
  intro p hp
  rcases List.mem_append.mp hp with hp | hp
  · exact hno p hp
  · exact he p (List.mem_singleton.mp hp).symm

theorem settled_data {st : Stage} {i : Incoming} (hst : st.Receiving) (h : Settled env params tr st) :
    Settled env params (tr ++ [.read i]) st := by
  cases st with
  | hello _ | serverHello _ | flight _ _ _ => exact Offered.snoc h _
  | rekeyed k => exact ⟨h.1.snoc _, h.2.snoc (by intro _ he; cases he)⟩
  | _ => exact hst.elim

/-- **What a run has settled, stage by stage.** -/
theorem settled (h : Run (Step env params) (.init input) tr s) : Settled env params tr s.stage := by
  induction h with
  | nil => trivial
  | @snoc es t u e hrun hstep ih =>
      have hperm := hstep.stage
      generalize t.stage = st at ih hperm
      generalize u.stage = st' at hperm
      cases hperm with
      | data hrecv _ => exact settled_data hrecv ih
      | @clientHello o cr hcarries =>
          refine ⟨o, ?_, hcarries⟩
          simp [Event.asWritten]
      | serverHello _ _ _ | certificate _ _ | serverKeyExchange _ | certificateRequest _
      | serverHelloDone | clientCertificate _ => exact Offered.snoc ih _
      | clientKeyExchange _ hmaster | anonymousKeyExchange _ hmaster | certifiedKeyExchange _ hmaster =>
          exact ⟨Offered.snoc ih _, _, hmaster⟩
      | digestToSign | certificateVerify _ | changeCipherSpec _ _ _ => exact Derived.snoc ih _
      | @installSend k p q hkeys => exact ⟨Derived.snoc ih _, es, p, q, [], rfl, hkeys, by simp⟩
      | digestToFinish | clientFinished _ _ _ | serverChangeCipherSpec _ _ _ | installRecv _
      | serverFinished | verified _ _ _ _ => exact ⟨ih.1.snoc _, ih.2.snoc (by intro _ he; cases he)⟩
      | mismatch _ | badRead _ | badMessage _ | failedWrite _ _ | unsent _ | alert _ _ _ => trivial

/-- What is sent behind the change is sealed in sequence. -/
theorem seals_of_cut {p : Protector}
    (h : Run (Step env params) (.init input) (pre ++ .installedSend p :: post) s)
    (hno : ∀ q, .installedSend q ∉ post) : Seals p 0 (writes post) s.flow.sendProt s.flow.sendSeq := by
  obtain ⟨t, t', -, hstep, hpost⟩ := h.middle
  have hseals := Flow.seals (flow_run hpost) hno
  have hflow := hstep.flow
  generalize t'.flow = f at hseals hflow
  cases hflow
  exact hseals

/-- What is received behind the change is opened in sequence. -/
theorem opens_of_cut {p : Protector}
    (h : Run (Step env params) (.init input) (pre ++ .installedRecv p :: post) s) :
    ∃ wire, Opens p 0 wire (reads post) s.flow.recvProt s.flow.recvSeq := by
  obtain ⟨t, t', -, hstep, hpost⟩ := h.middle
  obtain ⟨wire, -, hopens⟩ :=
    Flow.opens (flow_run hpost) (late_no_installedRecv hpost (late_of_installedRecv hstep).2)
  have hflow := hstep.flow
  generalize t'.flow = f at hopens hflow
  cases hflow
  exact ⟨wire, hopens⟩

/-- **A run is one epoch or two.** The second starts behind the server's flight, under a protector
    derived from the hellos. -/
theorem epochs (h : Run (Step env params) (.init input) tr s) :
    (∃ rest, Epoch .null input tr rest) ∨
      ∃ pre recv post, tr = pre ++ .installedRecv recv :: post ∧
        (∃ mid rest, Epoch .null input pre mid ∧ Epoch recv mid post rest) ∧
        received pre = envelopes (taken pre) ∧
        ∃ k send, k.protectors env = .ok (send, recv) ∧ Derived params pre k ∧
          ServerFlight env params k.toNegotiated (taken pre) := by
  by_cases hcut : ∃ recv, .installedRecv recv ∈ tr
  · obtain ⟨recv, hmem⟩ := hcut
    obtain ⟨pre, post, rfl⟩ := List.append_of_mem hmem
    obtain ⟨⟨mid, hfirst, hsecond⟩, hbytes, t, k, send, hpre, hst, hkeys⟩ := installedRecv_cut h
    have hsettled := settled hpre
    have hheard := heard hpre
    rw [hst] at hsettled hheard
    refine .inr ⟨pre, recv, post, rfl, ⟨mid, _, hfirst, hsecond⟩, hbytes, k, send, hkeys,
      hsettled.1, ?_⟩
    -- The ChangeCipherSpec before it is no message.
    obtain ⟨pre', i, rfl, -, -, -, hflight⟩ := hheard
    simpa [Event.asTaken] using hflight
  · exact .inl ⟨_, early_epoch h (fun p hp => hcut ⟨p, hp⟩)⟩

/-! ## The end -/

/-- **How a handshake ends**: with a Finished that proves the server's knowledge of everything before it,
    and with nothing behind it. -/
theorem complete_spec {k : Keyed} (h : Run (Step env params) (.init input) tr s)
    (hst : s.stage = .complete k) :
    s.flow.buf = [] ∧ ∃ pre body hash,
      tr = pre ++ [.took typeFinished body, .summed .serverFinished (messages pre)] ∧
      k.suite.prf.hash = some hash ∧
      finishedVerifyData k.suite k.master "server finished" (hash.sum (messages pre)) = .ok body := by
  cases h with
  | nil => cases hst
  | @snoc es t _ e hrun hstep =>
      have hperm := hstep.stage
      have hflow := hstep.flow
      rw [hst] at hperm
      generalize hchk : t.stage = st at hperm
      cases hperm with
      | data hrecv _ => exact hrecv.elim
      | @verified _ body log hash hlog hhash hdata hbuf =>
          obtain ⟨pre, rfl⟩ := checking_last hrun hchk
          have hmsgs : log = messages pre := by
            rw [log_eq hrun, messages_append, messages_single] at hlog
            exact (List.append_cancel_right hlog).symm
          subst hmsgs
          refine ⟨?_, pre, body, hash, by simp, hhash, hdata⟩
          generalize s.flow = f at hflow
          cases hflow
          exact hbuf

theorem received_of_clean (h : Clean tr) : received tr = (reads tr).flatMap Incoming.payload := by
  unfold received
  apply List.flatMap_congr
  intro i hi
  rw [Incoming.data, if_pos (h i hi)]

/-- The two epochs of a completed handshake, around its ChangeCipherSpec `ccs`. -/
structure Cut (env : Env) (params : ClientParams) (input : Reader) (k : Keyed) (send recv : Protector)
    (pre : List Event) (ccs : Incoming) (post : List Event) (verifyData : Bytes) (rest : Reader) :
    Prop where
  keys : k.protectors env = .ok (send, recv)
  clean : Clean (pre ++ post)
  ccs_ct : ccs.ct = contentTypeChangeCipherSpec
  ccs_payload : ccs.payload = [1]
  flight : ServerFlight env params k.toNegotiated (taken pre)
  flight_bytes : received pre = envelopes (taken pre)
  finished : taken post = [(typeFinished, verifyData)]
  finished_bytes : received post = buildEnvelope typeFinished verifyData
  epochs : ∃ mid, Epoch .null input (pre ++ [.read ccs]) mid ∧ Epoch recv mid post rest

/-- **A completed handshake falls into two epochs**: the server's flight, and its Finished. -/
theorem complete_cut {k : Keyed} (h : Run (Step env params) (.init input) tr s)
    (hst : s.stage = .complete k) :
    ∃ send recv pre ccs post verifyData, tr = pre ++ .read ccs :: .installedRecv recv :: post ∧
      Cut env params input k send recv pre ccs post verifyData s.flow.input := by
  obtain ⟨hbuf, -⟩ := complete_spec h hst
  have hheard := heard h
  rw [hst] at hheard
  obtain ⟨body, pre, ccs, send, recv, post, rfl, hct, hpayload, hpre, hflight, hkeys, hpost, htaken⟩ :=
    hheard
  have hccs : Incoming.data ccs = [] := by
    rw [Incoming.data, hct]
    rfl
  rw [show pre ++ .read ccs :: .installedRecv recv :: post =
    (pre ++ [.read ccs]) ++ .installedRecv recv :: post by simp] at h
  obtain ⟨hepochs, hbytes, -⟩ := installedRecv_cut h
  have hfirst : received pre = envelopes (taken pre) := by
    simpa [received, Event.asRead, Event.asTaken, hccs] using hbytes
  -- All bytes have been taken, and those of the first epoch are accounted for.
  have hsecond : received post = envelopes (taken post) := by
    have htiles : received (pre ++ [.read ccs] ++ .installedRecv recv :: post) =
        envelopes (taken (pre ++ [.read ccs] ++ .installedRecv recv :: post)) ++ s.flow.buf :=
      Flow.tiles (flow_run h)
    rw [hbuf, List.append_nil, received_append, taken_append, envelopes_append, hbytes] at htiles
    exact List.append_cancel_left htiles
  refine ⟨send, recv, pre, ccs, post, body, rfl, hkeys, clean_append.mpr ⟨hpre, hpost⟩, hct, hpayload,
    hflight, hfirst, htaken, ?_, hepochs⟩
  rw [hsecond, htaken]
  simp

end Session

end Gostls
