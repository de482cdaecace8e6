import Gostls.Record.Channel
import Gostls.Record.Halves

/-!
# `Gostls.Record.Duplex` — a layer in the middle of a conversation

`Channel` joins a sender to a receiver. Here a layer is both at once, at some point of a conversation
with a far end:

* `Awaits` — what the far end will still do is known, and its bytes are on the transport. Reading a record
  and changing the receive protector follow it step by step (`Awaits.read`, `Awaits.change`);
* `Spoken` — what the layer has sent so far can be read at the far end. Writing a record and changing the
  send protector add to it (`Spoken.write`, `Spoken.change`).

Each is a matter of one half of the layer, and keeps through whatever happens to the other one.
-/

namespace Gostls

open Lib

namespace ChannelOp

theorem records_append (ops ops' : List ChannelOp) :
    records (ops ++ ops') = records ops ++ records ops' := by
  induction ops with
  | nil => rfl
  | cons op ops ih =>
      cases op with
      | record ct payload => exact congrArg ((ct, payload) :: ·) ih
      | changeCipherSpec p => exact ih

/-- Receiving goes on where it stopped. -/
theorem receive_append {ops ops' : List ChannelOp} {l l₁ l₂ : Layer} {recs recs' : List (UInt8 × Bytes)}
    (h : receive ops l = (.ok recs, l₁)) (h' : receive ops' l₁ = (.ok recs', l₂)) :
    receive (ops ++ ops') l = (.ok (recs ++ recs'), l₂) := by
  induction ops generalizing l recs with
  | nil =>
      cases h
      exact h'
  | cons op ops ih =>
      cases op with
      | changeCipherSpec p => exact ih (l := l.changeCipherSpec none (some p)) h
      | record ct payload =>
          simp only [List.cons_append, receive] at h ⊢
          rcases hread : l.readRecord with ⟨e | rec, l'⟩
          · rw [hread] at h
            cases h
          · rw [hread] at h
            dsimp only at h ⊢
            rcases hrest : receive ops l' with ⟨e | recs'', l''⟩
            · rw [hrest] at h
              cases h
            · rw [hrest] at h
              cases h
              rw [ih hrest]
              rfl

/-- Operations that are all records of one content type, each within the limits. -/
theorem admissible_records {ct : UInt8} (hct : isKnownContentType ct = true) (ps : List Bytes) {n : Nat}
    {ops : List ChannelOp} (hlen : ∀ p ∈ ps, p.length ≤ tlsMaxPlaintextLen)
    (hn : n + ps.length < 2 ^ 64) (hops : Admissible (n + ps.length) ops) :
    Admissible n (ps.map (.record ct) ++ ops) := by
  induction ps generalizing n with
  | nil => exact hops
  | cons p ps ih =>
      obtain ⟨hp, hps⟩ := List.forall_mem_cons.mp hlen
      rw [List.length_cons] at hn hops
      refine ⟨hct, hp, by omega, ih hps (by omega) ?_⟩
      rw [show n + 1 + ps.length = n + (ps.length + 1) by omega]
      exact hops

/-- **Everything within the limits is sent.** -/
theorem send_ok {ops : List ChannelOp} {l : Layer} (hs : Sender l)
    (hops : Admissible l.sendSeq.toNat ops) :
    ∃ l' emitted, send ops l = (.ok (), l') ∧ l'.output.output = l.output.output ++ emitted := by
  induction ops generalizing l with
  | nil => exact ⟨l, [], rfl, (List.append_nil _).symm⟩
  | cons op ops ih =>
      cases op with
      | record ct payload =>
          obtain ⟨hct, hlen, hseq, hrest⟩ := hops
          obtain ⟨l₁, hdr, fragment, hwrite, hs₁, hseq₁, -, hout₁, -⟩ := write_read hs hct hlen hseq
          obtain ⟨l', emitted, hsend, hout⟩ := ih hs₁ (hseq₁ ▸ hrest)
          refine ⟨l', (hdr.bytes ++ fragment) ++ emitted, ?_, ?_⟩
          · simp only [send, hwrite, hsend]
          · rw [hout, hout₁, List.append_assoc]
      | changeCipherSpec p =>
          exact ih (l := l.changeCipherSpec (some p) none) ⟨hs.output, hs.rand, hops.1⟩ hops.2

end ChannelOp

/-! ## What is still to be read -/

/-- The far end does `ops` and is `far` then; `l` has read everything it did before. Its transport holds
    what the far end emits with `ops`, and `rest` behind it. -/
def Awaits (ops : List ChannelOp) (far : Layer) (rest : Reader) (l : Layer) : Prop :=
  ∃ snd emitted, Sender snd ∧ ChannelOp.Admissible snd.sendSeq.toNat ops ∧
    ChannelOp.send ops snd = (.ok (), far) ∧ far.output.output = snd.output.output ++ emitted ∧
    Matched snd l ∧ l.input = ofBytes emitted ++ rest

namespace Awaits

variable {ops : List ChannelOp} {far l l' : Layer} {rest : Reader} {ct : UInt8} {payload : Bytes}

/-- **The start of a conversation.** -/
theorem start {snd : Layer} (hs : Sender snd) (hops : ChannelOp.Admissible snd.sendSeq.toNat ops) :
    ∃ far emitted, ChannelOp.send ops snd = (.ok (), far) ∧
      far.output.output = snd.output.output ++ emitted ∧
      ∀ l rest, Matched snd l → l.input = ofBytes emitted ++ rest → Awaits ops far rest l := by
  obtain ⟨far, emitted, hsend, hout⟩ := ChannelOp.send_ok hs hops
  exact ⟨far, _, hsend, hout, fun l rest hm hin => ⟨snd, _, hs, hops, hsend, hout, hm, hin⟩⟩

/-- It is a matter of the receive half. -/
theorem congr (h : Awaits ops far rest l) (hhalf : Layer.recvHalf.get l' = Layer.recvHalf.get l) :
    Awaits ops far rest l' := by
  obtain ⟨snd, emitted, hs, hops, hsend, hout, hm, hin⟩ := h
  have hprot : l'.recvProt = l.recvProt := congrArg RecvHalf.recvProt hhalf
  have hseq : l'.recvSeq = l.recvSeq := congrArg RecvHalf.recvSeq hhalf
  have hinput : l'.input = l.input := congrArg RecvHalf.input hhalf
  exact ⟨snd, emitted, hs, hops, hsend, hout, ⟨hprot ▸ hm.prot, hseq ▸ hm.seq⟩, hinput ▸ hin⟩

/-- **The next record** is the one that the far end sends next. -/
theorem read (h : Awaits (.record ct payload :: ops) far rest l) :
    ∃ l', l.readRecord = (.ok (ct, payload), l') ∧ Awaits ops far rest l' := by
  obtain ⟨snd, emitted, hs, ⟨hct, hlen, hseq, hops⟩, hsend, hout, hm, hin⟩ := h
  obtain ⟨snd₁, hdr, fragment, hwrite, hs₁, hseq₁, -, hout₁, hread⟩ := write_read hs hct hlen hseq
  rw [ChannelOp.send, hwrite] at hsend
  rw [← hseq₁] at hops
  obtain ⟨far', later, hsend', hout'⟩ := ChannelOp.send_ok hs₁ hops
  obtain rfl : far' = far := congrArg Prod.snd (hsend'.symm.trans hsend)
  -- What is emitted is this record, and then what the rest emits.
  obtain rfl : emitted = (hdr.bytes ++ fragment) ++ later := by
    apply @List.append_cancel_left _ snd.output.output
    rw [← hout, hout', hout₁, List.append_assoc]
  rw [ofBytes_append, List.append_assoc] at hin
  obtain ⟨l', hread', hm', hin'⟩ := hread l _ hm hin
  exact ⟨l', hread', snd₁, _, hs₁, hops, hsend, hout', hm', hin'⟩

/-- **Changing the receive protector** when the far end changes its own. -/
theorem change {p : Protector} (h : Awaits (.changeCipherSpec p :: ops) far rest l) :
    Awaits ops far rest (l.changeCipherSpec none (some p)) := by
  obtain ⟨snd, emitted, hs, ⟨hsized, hops⟩, hsend, hout, hm, hin⟩ := h
  exact ⟨snd.changeCipherSpec (some p) none, emitted, ⟨hs.output, hs.rand, hsized⟩, hops, hsend, hout,
    ⟨rfl, rfl⟩, hin⟩

/-- **The end**: the two are matched, and nothing else has been read. -/
theorem done (h : Awaits [] far rest l) : Matched far l ∧ l.input = rest := by
  obtain ⟨snd, emitted, hs, -, hsend, hout, hm, hin⟩ := h
  cases hsend
  obtain rfl : emitted = [] := by simpa using hout
  exact ⟨hm, hin⟩

end Awaits

/-! ## What has been sent -/

/-- Since it was `l₀`, the layer has done `ops`: whoever was matched with `l₀` and is given the bytes sent
    since then reads the records, and is matched with `l`. -/
def Spoken (ops : List ChannelOp) (l₀ l : Layer) : Prop :=
  ∃ emitted, l.output.output = l₀.output.output ++ emitted ∧
    ∀ r rest, Matched l₀ r → r.input = ofBytes emitted ++ rest →
      ∃ r', ChannelOp.receive ops r = (.ok (ChannelOp.records ops), r') ∧ Matched l r' ∧ r'.input = rest

namespace Spoken

variable {ops : List ChannelOp} {l₀ l l' : Layer} {ct : UInt8} {payload : Bytes}

theorem nil (l : Layer) : Spoken [] l l :=
  ⟨[], (List.append_nil _).symm, fun r _ hm hin => ⟨r, rfl, hm, hin⟩⟩

/-- It is a matter of the send half, but for the entropy. -/
theorem congr (h : Spoken ops l₀ l) (hout : l'.output = l.output) (hprot : l'.sendProt = l.sendProt)
    (hseq : l'.sendSeq = l.sendSeq) : Spoken ops l₀ l' := by
  obtain ⟨emitted, hemit, hrecv⟩ := h
  refine ⟨emitted, by rw [hout, hemit], ?_⟩
  intro r rest hm hin
  obtain ⟨r', hreceive, hm', hin'⟩ := hrecv r rest hm hin
  exact ⟨r', hreceive, ⟨hprot.trans hm'.prot, hseq.trans hm'.seq⟩, hin'⟩

/-- **Writing a record.** -/
theorem write (h : Spoken ops l₀ l) (hs : Sender l) (hct : isKnownContentType ct = true)
    (hlen : payload.length ≤ tlsMaxPlaintextLen) (hseq : l.sendSeq.toNat < 2 ^ 64 - 1) :
    ∃ l', l.writeRecord ct payload = (.ok (), l') ∧ Sender l' ∧
      l'.sendSeq.toNat = l.sendSeq.toNat + 1 ∧ Spoken (ops ++ [.record ct payload]) l₀ l' := by
  obtain ⟨emitted, hemit, hrecv⟩ := h
  obtain ⟨l', hdr, fragment, hwrite, hs', hseq', -, hout, hread⟩ := write_read hs hct hlen hseq
  refine ⟨l', hwrite, hs', hseq', emitted ++ (hdr.bytes ++ fragment), ?_, ?_⟩
  · rw [hout, hemit, List.append_assoc]
  · intro r rest hm hin
    rw [ofBytes_append, List.append_assoc] at hin
    obtain ⟨r₁, hreceive₁, hm₁, hin₁⟩ := hrecv r _ hm hin
    obtain ⟨r₂, hread₂, hm₂, hin₂⟩ := hread r₁ rest hm₁ hin₁
    have hlast : ChannelOp.receive [.record ct payload] r₁ = (.ok [(ct, payload)], r₂) := by
      simp only [ChannelOp.receive, hread₂]
    refine ⟨r₂, ?_, hm₂, hin₂⟩
    rw [ChannelOp.receive_append hreceive₁ hlast, ChannelOp.records_append]
    rfl

/-- **Changing the send protector.** -/
theorem change (h : Spoken ops l₀ l) (p : Protector) :
    Spoken (ops ++ [.changeCipherSpec p]) l₀ (l.changeCipherSpec (some p) none) := by
  obtain ⟨emitted, hemit, hrecv⟩ := h
  refine ⟨emitted, hemit, ?_⟩
  intro r rest hm hin
  obtain ⟨r₁, hreceive₁, hm₁, hin₁⟩ := hrecv r rest hm hin
  have hlast : ChannelOp.receive [.changeCipherSpec p] r₁ =
      (.ok [], r₁.changeCipherSpec none (some p)) := rfl
  refine ⟨r₁.changeCipherSpec none (some p), ?_, ⟨rfl, rfl⟩, hin₁⟩
  rw [ChannelOp.receive_append hreceive₁ hlast, ChannelOp.records_append]
  rfl

end Spoken

end Gostls
