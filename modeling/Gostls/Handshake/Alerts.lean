import Gostls.Handshake.Conduct
import Gostls.Handshake.Guarantees

/-!
# `Gostls.Handshake.Alerts` — one fatal alert per failed handshake

Some functions of the handshake send the alert for an error themselves, others leave it to their caller.
The conduct `Unalerted` / `Answered` holds both to it: what returns, or only reports an error, has sent no
alert, and what fails with its error answered has sent one, last. The protocol's account of the records
sent then says what the alert was sealed with.
-/

namespace Gostls

open Lib

/-- Nobody tried to send an alert. -/
def NoAlert (es : List Event) : Prop := ∀ o ∈ writes es, o.ct ≠ contentTypeAlert

theorem noAlert_append {a b : List Event} : NoAlert (a ++ b) ↔ NoAlert a ∧ NoAlert b := by
  simp [NoAlert, or_imp, forall_and]

/-- A call of `WriteRecord` with a fatal alert. -/
def Outgoing.IsFatalAlert (o : Outgoing) : Prop :=
  o.ct = contentTypeAlert ∧ ∃ desc, o.payload = encodeAlert alertLevelFatal desc

/-- `t` is `s` after events without an alert. -/
def Unalerted (s t : ClientState) : Prop := ∃ es, t.trace = s.trace ++ es ∧ NoAlert es

/-- `t` is `s` after an error that was answered with an alert; a panic is not. -/
def Answered (e : Err) (s t : ClientState) : Prop :=
  e = .panic ∨ ∃ es o, t.trace = s.trace ++ (es ++ [.wrote o]) ∧ NoAlert es ∧ o.IsFatalAlert

namespace Unalerted

variable {s t u : ClientState}

theorem refl (s : ClientState) : Unalerted s s := ⟨[], (List.append_nil _).symm, by simp [NoAlert, writes]⟩

theorem trans (h : Unalerted s t) (h' : Unalerted t u) : Unalerted s u := by
  obtain ⟨es, htrace, hes⟩ := h
  obtain ⟨es', htrace', hes'⟩ := h'
  refine ⟨es ++ es', ?_, noAlert_append.mpr ⟨hes, hes'⟩⟩
  rw [htrace', htrace, List.append_assoc]

theorem fail {e : Err} (h : Unalerted s t) (h' : Answered e t u) : Answered e s u := by
  obtain ⟨es, htrace, hes⟩ := h
  rcases h' with hpanic | ⟨es', o, htrace', hes', ho⟩
  · exact .inl hpanic
  · refine .inr ⟨es ++ es', o, ?_, noAlert_append.mpr ⟨hes, hes'⟩, ho⟩
    rw [htrace', htrace, List.append_assoc, List.append_assoc]

theorem of_trace (h : t.trace = s.trace) : Unalerted s t :=
  ⟨[], h.trans (List.append_nil _).symm, by simp [NoAlert, writes]⟩

/-- An event that is no alert. -/
theorem event {e : Event} (h : t.trace = s.trace ++ [e]) (he : NoAlert [e]) : Unalerted s t := ⟨[e], h, he⟩

theorem answered {cause : Err} (desc : UInt8) (h : Unalerted s t) : Answered cause s (t.alerted desc) := by
  obtain ⟨o, layer, hct, hpayload, heq⟩ := alerted_eq desc t
  refine h.fail (.inr ⟨[], o, ?_, by simp [NoAlert, writes], hct, desc, hpayload⟩)
  rw [heq]
  rfl

theorem readHandshakeRecord : Does Unalerted (fun _ => Unalerted) readHandshakeRecord := by
  intro s
  apply wp_of_endState
  obtain ⟨es, layer, hsBuf, hend, hwrites, -⟩ := readHandshakeRecord_frame s
  rw [hend]
  exact ⟨es, rfl, by simp [NoAlert, hwrites]⟩

theorem sending : Sending Unalerted Unalerted Answered where
  refl := refl
  trans := trans
  fail := fail
  raw := ⟨refl, trans, trans⟩
  stop := refl
  panic _ := .inl rfl
  alert desc _ h := h.answered desc
  bookkeeping h := of_trace h.trace
  message := readHandshakeRecord
  request _ _ := of_trace rfl
  write ct payload hct := by
    intro s
    apply (writeRecord_logs ct payload s).mono
    · rintro _ _ ⟨-, layer, rfl⟩
      exact event rfl (by simpa [NoAlert, Event.asWritten] using hct)
    · rintro _ _ ⟨layer, rfl⟩
      exact event rfl (by simpa [NoAlert, Event.asWritten] using hct)
  sum purpose factory := by
    intro s
    apply (sumTranscript_logs purpose factory s).mono
    · rintro _ _ ⟨-, rfl⟩
      exact event rfl (by simp [NoAlert, Event.asWritten])
    · rintro _ _ rfl
      exact refl _
  installSend _ := event rfl (by simp [NoAlert, Event.asWritten])
  installRecv _ := event rfl (by simp [NoAlert, Event.asWritten])
  record {s} _ := by
    apply (readRecord_logs s).mono
    · rintro _ _ ⟨layer, rfl⟩
      exact event rfl (by simp [NoAlert, Event.asWritten])
    · rintro _ _ ⟨layer, rfl⟩
      exact of_trace rfl
  certificate _ := of_trace rfl

end Unalerted

/-! ## The protector in force -/

/-- The send direction is under `prot`, with `seq` the next number, after these events: none of them
    changed the send protector, or the last that did put in place what `prot` has come from. -/
def SendUnder (es : List Event) (prot : Protector) (seq : UInt64) : Prop :=
  ((∀ p, .installedSend p ∉ es) ∧ Seals .null 0 (writes es) prot seq) ∨
    ∃ pre p post, es = pre ++ .installedSend p :: post ∧ (∀ q, .installedSend q ∉ post) ∧
      Seals p 0 (writes post) prot seq

namespace SendUnder

variable {tr : List Event} {e : Event} {f f' : Flow}

theorem step (h : SendUnder tr f.sendProt f.sendSeq) (hstep : Flow.Step f e f') :
    SendUnder (tr ++ [e]) f'.sendProt f'.sendSeq := by
  by_cases hchange : ∃ p, e = .installedSend p
  · obtain ⟨p, rfl⟩ := hchange
    cases hstep
    exact .inr ⟨tr, p, [], rfl, by simp, .nil⟩
  · have hkept : ∀ q, e ≠ .installedSend q := fun q hq => hchange ⟨q, hq⟩
    rcases h with ⟨hno, hseals⟩ | ⟨pre, p, post, rfl, hno, hseals⟩
    · refine .inl ⟨fun q hq => ?_, hstep.seals hkept hseals⟩
      rcases List.mem_append.mp hq with hq | hq
      · exact hno q hq
      · exact hkept q (List.mem_singleton.mp hq).symm
    · refine .inr ⟨pre, p, post ++ [e], by simp, fun q hq => ?_, hstep.seals hkept hseals⟩
      rcases List.mem_append.mp hq with hq | hq
      · exact hno q hq
      · exact hkept q (List.mem_singleton.mp hq).symm

/-- **The send protector of a run** is the one put in place last. -/
theorem of_run {input : Reader} (h : Run Flow.Step (.init input) tr f) :
    SendUnder tr f.sendProt f.sendSeq := by
  induction h with
  | nil => exact .inl ⟨by simp, .nil⟩
  | snoc _ hstep ih => exact ih.step hstep

end SendUnder

namespace Session

variable {env : Env} {params : ClientParams} {input : Reader} {s : Session} {tr : List Event} {o : Outgoing}

/-- The last record of a run was sealed with what was in force. -/
theorem sendUnder_last (h : Run (Step env params) (.init input) (tr ++ [.wrote o]) s) :
    SendUnder tr o.prot o.seq := by
  obtain ⟨t, hrun, hstep⟩ := h.snoc_inv
  have hunder := SendUnder.of_run (flow_run hrun)
  have hflow := hstep.flow
  generalize t.flow = f at hunder hflow
  generalize s.flow = f' at hflow
  cases hflow with
  | wrote hprot hseq _ =>
      rw [hprot, hseq]
      exact hunder

/-- A session that has failed has ended with an alert. -/
theorem failed_last (h : Run (Step env params) (.init input) tr s) (hst : s.stage = .failed) :
    ∃ pre o, tr = pre ++ [.wrote o] ∧ o.ct = contentTypeAlert := by
  cases h with
  | nil => cases hst
  | @snoc pre t _ e _ hstep =>
      have hperm := hstep.stage
      rw [hst] at hperm
      generalize t.stage = st at hperm
      cases hperm with
      | data hrecv _ => exact hrecv.elim
      | alert _ hct _ => exact ⟨pre, _, rfl, hct⟩

/-- No step leads back to the start. -/
theorem start_nil (h : Run (Step env params) (.init input) tr s) (hst : s.stage = .start) : tr = [] := by
  cases h with
  | nil => rfl
  | @snoc pre t _ e _ hstep =>
      have hperm := hstep.stage
      rw [hst] at hperm
      generalize t.stage = st at hperm
      cases hperm with
      | data hrecv _ => exact hrecv.elim

/-- Where the ClientHello could not be written, nothing else was. -/
theorem unsent_only (h : Run (Step env params) (.init input) tr s) (hst : s.stage = .unsent) :
    ∃ o, tr = [.wrote o] ∧ o.ok = false := by
  cases h with
  | nil => cases hst
  | @snoc pre t _ e hrun hstep =>
      have hperm := hstep.stage
      rw [hst] at hperm
      generalize hstart : t.stage = st at hperm
      cases hperm with
      | data hrecv _ => exact hrecv.elim
      | unsent hok =>
          obtain rfl := start_nil hrun hstart
          exact ⟨_, rfl, hok⟩

end Session

/-! ## The result -/

/-- **A handshake that ends without an alert**, and not in a panic, has not sent its ClientHello. -/
theorem Ended.not_offered {env : Env} {params : ClientParams} {input : Reader} {e : Err} {s : ClientState}
    {cr : Random} (h : Ended env input params e s) (he : e ≠ .panic) (hno : NoAlert s.trace) :
    ¬ Session.Offered params s.trace cr := by
  obtain ⟨f, st, hrun, hend⟩ := h
  rintro ⟨o, ho, hcarries⟩
  rcases hend with hpanic | rfl | rfl | rfl
  · exact he hpanic
  · obtain ⟨pre, o', htrace, hct⟩ := Session.failed_last hrun rfl
    exact hno o' (by simp [htrace, Event.asWritten]) hct
  · obtain ⟨o', htrace, hok⟩ := Session.unsent_only hrun rfl
    obtain rfl : o = o' := by simpa [htrace, Event.asWritten] using ho
    exact absurd (hcarries.ok.symm.trans hok) (by decide)
  · rw [Session.start_nil hrun rfl] at ho
    cases ho

/-- **One fatal alert per failed handshake.** Whatever the server sends and wherever the transport fails:
    if the handshake returns an error and the ClientHello was written, the last call of `WriteRecord` is
    one with a fatal alert, and no other is; the alert is sealed with the protector that is then in force,
    under its next sequence number. If it succeeds there is none. (A run-time panic returns no error.) -/
theorem one_fatal_alert (env : Env) (params : ClientParams) (input : Reader) (output : Writer)
    (rand : Entropy) (config : Option Entropy) (s : ClientState) :
    (∀ e cr, handshake env (freshClient params input output rand config) = .error e s → e ≠ .panic →
      Session.Offered params s.trace cr →
      ∃ before o, s.trace = before ++ [.wrote o] ∧ NoAlert before ∧ o.IsFatalAlert ∧
        SendUnder before o.prot o.seq) ∧
    (handshake env (freshClient params input output rand config) = .ok () s → NoAlert s.trace) := by
  have hconduct := Unalerted.sending.handshake env (freshClient params input output rand config)
  have hrefines := handshake_refines env params input output rand config
  constructor
  · intro e cr herr he hoffered
    have hended := hrefines.error herr
    rcases hconduct.error herr with ⟨es, htrace, hno⟩ | hpanic | ⟨es, o, htrace, hno, halert⟩
    · -- Only a ClientHello that was not sent leaves the error unanswered.
      obtain rfl : s.trace = es := htrace
      exact absurd hoffered (hended.not_offered he hno)
    · exact absurd hpanic he
    · obtain ⟨f, st, hrun, -⟩ := hended
      have hlast : s.trace = es ++ [.wrote o] := htrace
      rw [hlast] at hrun
      exact ⟨es, o, hlast, hno, halert, Session.sendUnder_last hrun⟩
  · intro hok
    obtain ⟨es, htrace, hno⟩ := hconduct.ok hok
    obtain rfl : s.trace = es := htrace
    exact hno

/-- A server that hangs up at once. -/
def abandonedClient : ClientState := freshClient .sample [] ⟨[], []⟩ ⟨fun _ => .ok 7, 0⟩ none

/-- The sample server with other verify data in its Finished. -/
def forgedStream : Bytes := sampleStream.map fun x => if x = 108 then 109 else x

def forgedClient : ClientState :=
  freshClient .sample (ofBytes forgedStream) ⟨[], []⟩ ⟨fun _ => .ok 7, 0⟩ none

/-- The run fails behind the ClientHello and sends these records, here with type and sequence number. -/
def failsAfter (client : ClientState) (sent : List (UInt8 × UInt64)) : Bool :=
  match handshake .sample client with
  | .ok _ _    => false
  | .error e s => e ≠ .panic ∧ (writes s.trace).map (fun o => (o.ct, o.seq)) = sent ∧
      ∃ o ∈ writes s.trace, o.ct = contentTypeHandshake ∧ o.ok = true ∧
        o.payload = marshalMessage (.clientHello (clientHello .sample (.copy (List.replicate 32 7))))

theorem of_failsAfter {client : ClientState} {sent : List (UInt8 × UInt64)}
    (h : failsAfter client sent = true) : ∃ e s, handshake .sample client = .error e s ∧ e ≠ .panic ∧
      (writes s.trace).map (fun o => (o.ct, o.seq)) = sent ∧
      Session.Offered .sample s.trace (.copy (List.replicate 32 7)) := by
  unfold failsAfter at h
  split at h
  · cases h
  · rename_i e s hrun
    obtain ⟨he, hsent, o, ho, hct, hok, hpayload⟩ := of_decide_eq_true h
    exact ⟨e, s, hrun, he, hsent, o, ho, hct, hok, hpayload⟩

/-- **In the clear and behind the ChangeCipherSpec**: with no answer the alert follows the ClientHello;
    with a wrong Finished it is sealed, as the second record of its epoch. -/
theorem one_fatal_alert_clear_and_sealed :
    (∃ e s before o, handshake .sample abandonedClient = .error e s ∧ s.trace = before ++ [.wrote o] ∧
      NoAlert before ∧ o.IsFatalAlert ∧ SendUnder before o.prot o.seq) ∧
    ∃ e s before o, handshake .sample forgedClient = .error e s ∧ s.trace = before ++ [.wrote o] ∧
      NoAlert before ∧ o.IsFatalAlert ∧ SendUnder before o.prot o.seq ∧
      (writes before).map (fun o => (o.ct, o.seq)) = [(22, 0), (22, 1), (20, 2), (22, 0)] ∧ o.seq = 1 := by
  constructor
  · obtain ⟨e, s, herr, he, -, hoffered⟩ :=
      of_failsAfter (show failsAfter abandonedClient [(22, 0), (21, 1)] = true by decide +kernel)
    obtain ⟨before, o, hlast⟩ :=
      (one_fatal_alert .sample .sample [] ⟨[], []⟩ ⟨fun _ => .ok 7, 0⟩ none s).1 e _ herr he hoffered
    exact ⟨e, s, before, o, herr, hlast⟩
  · obtain ⟨e, s, herr, he, hsent, hoffered⟩ := of_failsAfter (show failsAfter forgedClient
      [(22, 0), (22, 1), (20, 2), (22, 0), (21, 1)] = true by decide +kernel)
    obtain ⟨before, o, htrace, hno, halert, hunder⟩ := (one_fatal_alert .sample .sample
      (ofBytes forgedStream) ⟨[], []⟩ ⟨fun _ => .ok 7, 0⟩ none s).1 e _ herr he hoffered
    rw [htrace, writes_append, List.map_append] at hsent
    have hparts : (writes before).map (fun o => (o.ct, o.seq)) ++ [(o.ct, o.seq)] =
        [(22, 0), (22, 1), (20, 2), (22, 0)] ++ [(21, 1)] := hsent
    obtain ⟨hbefore, hlast⟩ := List.append_inj' hparts rfl
    exact ⟨e, s, before, o, herr, htrace, hno, halert, hunder, hbefore,
      congrArg Prod.snd (List.singleton_inj.mp hlast)⟩

end Gostls
