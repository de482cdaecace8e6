import Gostls.Handshake.Conduct

/-!
# `Gostls.Handshake.OnWire` — the records of a handshake on the wire

The trace of a handshake lists its calls of `WriteRecord`. `Outbound.Step` says what the events of a trace
do to the way out of the record layer: a call puts on the wire what `Outbound.Puts` allows, a new protector
begins with number zero, and nothing else goes out. A handshake, to its end or to any failure, is a run of
these steps (`OnWire`), so the bytes that the transport has accepted are those of the calls, one after the
other: `handshake_on_wire`.
-/

namespace Gostls

open Lib

def Outgoing.emitted (o : Outgoing) : Emitted := ⟨o.ct, o.payload, o.ok⟩

/-- What an event does to the way out. -/
inductive Outbound.Step (f : Outbound) : Event → Outbound → Prop
  | wrote {o : Outgoing} {f' : Outbound} (hprot : o.prot = f.prot) (hseq : o.seq = f.seq)
      (hputs : f.Puts o.emitted f') : Step f (.wrote o) f'
  | installedSend {p : Protector} : Step f (.installedSend p) ⟨p, 0, f.sent⟩
  | quiet {e : Event} (hwrites : e.asWritten = none) (hsend : ∀ p, e ≠ .installedSend p) : Step f e f

/-- The events from `s` to `t` account for what has gone out. -/
def OnWire (s t : ClientState) : Prop :=
  ∃ es, t.trace = s.trace ++ es ∧ Run Outbound.Step s.layer.outbound es t.layer.outbound

namespace OnWire

variable {s t u : ClientState}

theorem trans (h : OnWire s t) (h' : OnWire t u) : OnWire s u := by
  obtain ⟨es, htrace, hrun⟩ := h
  obtain ⟨es', htrace', hrun'⟩ := h'
  exact ⟨es ++ es', by rw [htrace', htrace, List.append_assoc], hrun.append hrun'⟩

theorem event {e : Event} (htrace : t.trace = s.trace ++ [e])
    (hstep : Outbound.Step s.layer.outbound e t.layer.outbound) : OnWire s t :=
  ⟨[e], htrace, Run.nil.snoc hstep⟩

/-- Nothing happened, as far as the wire is concerned. -/
theorem still (htrace : t.trace = s.trace) (hout : t.layer.outbound = s.layer.outbound) : OnWire s t := by
  refine ⟨[], by rw [htrace, List.append_nil], ?_⟩
  rw [hout]
  exact .nil

/-- Events that write nothing, and change nothing for the writes to come. -/
theorem received {es : List Event} (htrace : t.trace = s.trace ++ es) (hwrites : writes es = [])
    (hsend : ∀ p, .installedSend p ∉ es) (hout : t.layer.outbound = s.layer.outbound) : OnWire s t := by
  refine ⟨es, htrace, ?_⟩
  rw [hout]
  clear htrace
  induction es using List.reverseRecOn with
  | nil => exact .nil
  | append_singleton es e ih =>
      rw [writes_append, writes_single, List.append_eq_nil_iff] at hwrites
      refine (ih hwrites.1 fun p hp => hsend p (List.mem_append_left _ hp)).snoc (.quiet ?_ ?_)
      · exact Option.toList_eq_nil_iff.mp hwrites.2
      · rintro p rfl
        exact hsend p (by simp)

theorem writeRecord (ct : UInt8) (payload : Bytes) :
    Does OnWire (fun _ => OnWire) (writeRecord ct payload) := by
  intro s
  unfold wp Gostls.writeRecord
  match hw : s.layer.writeRecord ct payload with
  | (.ok _, layer) | (.error _, layer) => exact event rfl (.wrote rfl rfl (Layer.writeRecord_puts hw))

theorem alerted (desc : UInt8) (s : ClientState) : OnWire s (s.alerted desc) := by
  have hwrite := writeRecord contentTypeAlert (encodeAlert alertLevelFatal desc) s
  unfold ClientState.alerted
  cases hw : Gostls.writeRecord contentTypeAlert (encodeAlert alertLevelFatal desc) s with
  | ok _ t => exact hwrite.ok hw
  | error _ t => exact hwrite.error hw

theorem readRecord : Does OnWire (fun _ => OnWire) readRecord := by
  intro s
  have hout := s.layer.readRecord_outbound
  unfold wp Gostls.readRecord
  match hr : s.layer.readRecord with
  | (.ok _, layer) =>
      rw [hr] at hout
      exact received rfl rfl (by simp) hout
  | (.error _, layer) =>
      rw [hr] at hout
      exact still rfl hout

theorem readHandshakeRecord : Does OnWire (fun _ => OnWire) readHandshakeRecord := by
  intro s
  apply wp_of_endState
  obtain ⟨es, layer, hsBuf, hend, hwrites, hsend, hout⟩ := readHandshakeRecord_frame s
  rw [hend]
  exact received rfl hwrites hsend hout

theorem sending : Sending OnWire OnWire (fun _ => OnWire) where
  refl _ := still rfl rfl
  trans := trans
  fail := trans
  raw := ⟨fun _ => still rfl rfl, trans, trans⟩
  stop _ := still rfl rfl
  panic h := h
  alert desc _ h := h.trans (alerted desc _)
  bookkeeping h := still h.trace h.outbound
  message := readHandshakeRecord
  request _ _ := still rfl rfl
  write ct payload _ := writeRecord ct payload
  sum purpose factory := by
    intro s
    apply (sumTranscript_logs purpose factory s).mono
    · rintro _ _ ⟨-, rfl⟩
      exact event rfl (.quiet rfl (by simp))
    · rintro _ _ rfl
      exact still rfl rfl
  installSend _ := event rfl .installedSend
  installRecv _ := event rfl (.quiet rfl (by simp))
  record _ := readRecord _
  certificate _ := still rfl rfl

end OnWire

/-! ## The bytes -/

/-- **The bytes of one call** of `WriteRecord`: header and sealed fragment if it succeeded; if not, a part of
    them from the front, or nothing. -/
inductive Outgoing.Wire (o : Outgoing) : Bytes → Prop
  | whole {fragment : Bytes} {prot : Protector} {rand rand' : Entropy} (hok : o.ok = true)
      (hseal : o.prot.seal o.seq (.template o.ct) o.payload rand = (.ok fragment, prot, rand')) :
      Wire o (recordBytes o.ct fragment)
  | torn {fragment part : Bytes} {prot : Protector} {rand rand' : Entropy} (hok : o.ok = false)
      (hseal : o.prot.seal o.seq (.template o.ct) o.payload rand = (.ok fragment, prot, rand'))
      (hpart : part <+: recordBytes o.ct fragment) : Wire o part
  | nothing (hok : o.ok = false) : Wire o []

theorem Outbound.Puts.wire {f f' : Outbound} {o : Outgoing} (hprot : o.prot = f.prot) (hseq : o.seq = f.seq)
    (h : f.Puts o.emitted f') : ∃ wire, o.Wire wire ∧ f'.sent = f.sent ++ wire := by
  obtain ⟨prot, seq, ct, payload, ok⟩ := o
  obtain rfl : prot = f.prot := hprot
  obtain rfl : seq = f.seq := hseq
  unfold Outgoing.emitted at h
  cases h with
  | whole hseal => exact ⟨_, .whole rfl hseal, rfl⟩
  | torn hseal hpart => exact ⟨_, .torn rfl hseal hpart, rfl⟩
  | unsealed _ => exact ⟨[], .nothing rfl, (List.append_nil _).symm⟩
  | refused => exact ⟨[], .nothing rfl, (List.append_nil _).symm⟩

/-- **What a run has sent** are the bytes of its calls. -/
theorem Outbound.sent_eq {f f' : Outbound} {es : List Event} (h : Run Outbound.Step f es f') :
    ∃ wires, List.Forall₂ Outgoing.Wire (writes es) wires ∧ f'.sent = f.sent ++ wires.flatten := by
  induction h with
  | nil => exact ⟨[], .nil, by simp⟩
  | snoc _ hstep ih =>
      obtain ⟨wires, hall, hsent⟩ := ih
      rw [writes_append, writes_single]
      cases hstep with
      | wrote hprot hseq hputs =>
          obtain ⟨wire, hwire, hsent'⟩ := hputs.wire hprot hseq
          refine ⟨wires ++ [wire], List.rel_append hall (.cons hwire .nil), ?_⟩
          rw [hsent', hsent, List.flatten_append, List.flatten_singleton, List.append_assoc]
      | installedSend => exact ⟨wires, by simpa [Event.asWritten] using hall, hsent⟩
      | quiet hwrites _ =>
          refine ⟨wires, ?_, hsent⟩
          rw [hwrites, Option.toList_none, List.append_nil]
          exact hall

/-- **A handshake on the wire.** Whichever way a handshake ends, the transport has accepted the records of
    its calls of `WriteRecord`, in order and under the protector and the number that each call found, and
    nothing else. -/
theorem handshake_on_wire (env : Env) (params : ClientParams) (input : Reader) (output : Writer)
    (rand : Entropy) (config : Option Entropy) :
    ∃ wires, List.Forall₂ Outgoing.Wire
        (writes (endState (handshake env) (freshClient params input output rand config)).trace) wires ∧
      (endState (handshake env) (freshClient params input output rand config)).layer.output.output =
        output.output ++ wires.flatten := by
  have hwire : OnWire (freshClient params input output rand config)
      (endState (handshake env) (freshClient params input output rand config)) :=
    (OnWire.sending.handshake env _).endState (P := OnWire _) (fun _ _ h => h) (fun _ _ h => h.elim id id)
  obtain ⟨es, htrace, hrun⟩ := hwire
  obtain rfl : _ = es := htrace
  exact Outbound.sent_eq hrun

end Gostls
