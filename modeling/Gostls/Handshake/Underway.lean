import Gostls.Handshake.Peer

/-!
# `Gostls.Handshake.Underway` — a handshake in which nothing goes wrong

Where `Relation` follows the client through whatever happens, this module follows it through a
conversation with a far end whose script is known. `Underway` says how far it has come: what the client
has sent, what of the current flight it has still to read, what the far end does after that, and what is
in the transcript. Each operation of the handshake returns (`wp … Never`), and takes the conversation one
step further.

In the clear the client's randomness is followed as well (`InClear`): what it will draw is settled before
the server's last messages, which depend on it, are put on the transport.
-/

namespace Gostls

open Lib

/-! ## Operations that succeed -/

section Rules

variable {α : Type} {Q : α → ClientState → Prop} {s : ClientState} {alertDesc : UInt8}

theorem wp_orFatal_returns {m : HsM α} {wrap : Err → Err} (h : wp m Q Never s) :
    wp (orFatal alertDesc wrap m) Q Never s := by
  obtain ⟨a, t, hm, hq⟩ := h.returns
  exact wp_of_ok (orFatal_ok hm) hq

theorem wp_orFail_returns {m : HsM α} {wrap : Err → Err} (h : wp m Q Never s) :
    wp (orFail wrap m) Q Never s :=
  wp_orFail (h.mono (fun _ _ hq => hq) (fun _ _ hno _ => hno))

/-- A check that passes. -/
theorem wp_passed {cond : Prop} [Decidable cond] {cause : Err} {Q : Unit → ClientState → Prop}
    (h : ¬ cond) (hq : Q () s) : wp (fatalIf cond alertDesc cause) Q Never s :=
  wp_check (fun hc => absurd hc h) (fun _ => hq)

theorem wp_drawn {m : RandM α} {a : α} {r : Rands} (h : m ⟨s.rand, s.layer.rand⟩ = .ok a r)
    (hq : Q a (s.setRands r)) : wp (drawing m) Q Never s := by
  refine wp_of_ok ?_ hq
  simp only [drawing, h]

end Rules

/-! ## Where the client is -/

/-- What the client has settled so far, with what it keeps for its own flight. -/
structure Known extends Facts where
  clientSigAlg : SigAndHash
  gostLeaf : Option GostCertificate

def ClientState.known (s : ClientState) : Known := ⟨s.facts, s.clientSigAlg, s.gostLeaf⟩

/-- What is buffered and what comes next is `data`, cut into records in some way; then the far end does
    `later`. -/
def Hears (far : Layer) (rest : Reader) (data : Bytes) (later : List ChannelOp) (s : ClientState) : Prop :=
  ∃ ps : List Bytes, Awaits (ps.map (.record contentTypeHandshake) ++ later) far rest s.layer ∧
    s.hsBuf ++ ps.flatten = data ∧ [] ∉ ps

theorem Hears.of_empty {far : Layer} {rest : Reader} {later : List ChannelOp} {s : ClientState}
    (hbuf : s.hsBuf = []) (h : Awaits later far rest s.layer) : Hears far rest [] later s :=
  ⟨[], h, by rw [hbuf]; rfl, List.not_mem_nil⟩

/-- The client has sent `said` since its layer was `l₀`. It has still to take the messages `msgs` of the
    current flight; then the far end does `later` and is `far`. Its transcript holds `log`. -/
structure Underway (l₀ far : Layer) (rest : Reader) (d : Known) (said : List ChannelOp)
    (msgs : List (UInt8 × Bytes)) (later : List ChannelOp) (log : Bytes) (s : ClientState) : Prop where
  known : s.known = d
  sender : Sender s.layer
  seq : s.layer.sendSeq.toNat ≤ said.length
  spoken : Spoken said l₀ s.layer
  hears : Hears far rest (envelopes msgs) later s
  log : s.transcript.Capped log

/-- The client sends in the clear, and this is what it will draw on. -/
structure InClear (r : Rands) (s : ClientState) : Prop where
  prot : s.layer.sendProt = .null
  rands : (⟨s.rand, s.layer.rand⟩ : Rands) = r

/-- Between `s` and `t` the client has only read. -/
structure Heard (s t : ClientState) : Prop where
  known : t.known = s.known
  transcript : t.transcript = s.transcript
  rand : t.rand = s.rand
  half : Layer.sendHalf.get t.layer = Layer.sendHalf.get s.layer

theorem Heard.inClear {s t : ClientState} {r : Rands} (h : Heard s t) (hc : InClear r s) : InClear r t := by
  have hprot : t.layer.sendProt = s.layer.sendProt := congrArg SendHalf.sendProt h.half
  have hrand : t.layer.rand = s.layer.rand := congrArg SendHalf.rand h.half
  refine ⟨hprot.trans hc.prot, ?_⟩
  rw [h.rand, hrand, hc.rands]

theorem InClear.record {s : ClientState} {r : Rands} (h : InClear r s) (msg : Bytes) :
    InClear r (s.record msg) := ⟨h.prot, h.rands⟩

section

variable {l₀ far : Layer} {rest : Reader} {d d' : Known} {said later : List ChannelOp}
  {msgs : List (UInt8 × Bytes)} {log : Bytes} {s t : ClientState} {r : Rands}

/-- What the client remembers is its own business. -/
theorem Underway.remember (h : Underway l₀ far rest d said msgs later log s) (hlayer : t.layer = s.layer)
    (hbuf : t.hsBuf = s.hsBuf) (htranscript : t.transcript = s.transcript) (hknown : t.known = d') :
    Underway l₀ far rest d' said msgs later log t where
  known := hknown
  sender := hlayer ▸ h.sender
  seq := hlayer ▸ h.seq
  spoken := hlayer ▸ h.spoken
  hears := by
    unfold Hears
    rw [hlayer, hbuf]
    exact h.hears
  log := htranscript ▸ h.log

/-! ## Reading -/

/-- There is at least a byte on the transport for every record to come. -/
theorem Awaits.length_le {ct : UInt8} {ps : List Bytes} {ops : List ChannelOp} {l : Layer}
    (h : Awaits (ps.map (.record ct) ++ ops) far rest l) : ps.length ≤ l.input.length := by
  induction ps generalizing l with
  | nil => exact Nat.zero_le _
  | cons p ps ih =>
      obtain ⟨l', hread, hrest⟩ := Awaits.read h
      have hlt := Layer.readRecord_input_lt hread
      have hle := ih hrest
      rw [List.length_cons]
      omega

/-- Reading a record leaves the send half alone. -/
theorem Layer.readRecord_sendHalf {l l' : Layer} {r : Except Err (UInt8 × Bytes)}
    (h : l.readRecord = (r, l')) : Layer.sendHalf.get l' = Layer.sendHalf.get l := by
  have hkeep := Layer.readRecord_local.get_other Layer.recvHalf_sendHalf l
  rw [h] at hkeep
  exact hkeep

/-- **One message**, however it is cut: the call returns it, and what it leaves is what is behind it. -/
theorem readHandshakeLoop_awaits {msgType : UInt8} {body behind : Bytes} (ps : List Bytes) {rounds : Nat}
    (hbody : body.length ≤ maxHandshakeMsg)
    (h : Awaits (ps.map (.record contentTypeHandshake) ++ later) far rest s.layer)
    (hrounds : ps.length < rounds) (hcut : s.hsBuf ++ ps.flatten = buildEnvelope msgType body ++ behind)
    (hne : [] ∉ ps) :
    ∃ t, readHandshakeLoop rounds s = .ok (msgType, body) t ∧ Hears far rest behind later t ∧
      Heard s t := by
  induction ps generalizing s rounds with
  | nil =>
      obtain ⟨r, rfl⟩ : ∃ n, rounds = n + 1 := ⟨rounds - 1, by simp at hrounds; omega⟩
      have hbuf : s.hsBuf = buildEnvelope msgType body ++ behind := by simpa using hcut
      exact ⟨_, readHandshakeLoop_take (hbuf ▸ nextBuffered_envelope behind hbody),
        ⟨[], h, by simp, hne⟩, ⟨rfl, rfl, rfl, rfl⟩⟩
  | cons p ps ih =>
      obtain ⟨r, rfl⟩ : ∃ n, rounds = n + 1 := ⟨rounds - 1, by simp at hrounds; omega⟩
      by_cases hfull : s.hsBuf.length < (buildEnvelope msgType body).length
      · -- The message is not complete yet: read on.
        obtain ⟨l', hread, hrest⟩ := Awaits.read h
        rw [readHandshakeLoop_read (nextBuffered_none hbody hcut hfull) hread]
        have hcut' : (s.receive p l').hsBuf ++ ps.flatten = buildEnvelope msgType body ++ behind := by
          show (s.hsBuf ++ p) ++ ps.flatten = _
          rw [List.append_assoc]
          exact hcut
        obtain ⟨t, hloop, hhears, hheard⟩ := ih (s := s.receive p l') hrest (by simpa using hrounds) hcut'
          (fun hmem => hne (List.mem_cons_of_mem _ hmem))
        exact ⟨t, hloop, hhears, hheard.known, hheard.transcript, hheard.rand,
          hheard.half.trans (Layer.readRecord_sendHalf hread)⟩
      · -- It is, and what follows it in the buffer belongs to later messages.
        obtain ⟨more, hmore⟩ : ∃ more, s.hsBuf = buildEnvelope msgType body ++ more :=
          ⟨s.hsBuf.drop (buildEnvelope msgType body).length, by
            have hfront := congrArg (List.take (buildEnvelope msgType body).length) hcut
            rw [List.take_left, List.take_append_of_le_length (by omega)] at hfront
            rw [← hfront, List.length_take, Nat.min_eq_left (by omega), List.take_append_drop]⟩
        refine ⟨_, readHandshakeLoop_take (hmore ▸ nextBuffered_envelope more hbody),
          ⟨p :: ps, h, ?_, hne⟩, ⟨rfl, rfl, rfl, rfl⟩⟩
        rw [hmore, List.append_assoc] at hcut
        exact List.append_cancel_left hcut

/-- What has only been heard leaves everything else as it was. -/
theorem Underway.heard {msgs' : List (UInt8 × Bytes)} {later' : List ChannelOp}
    (h : Underway l₀ far rest d said msgs later log s) (hheard : Heard s t)
    (hhears : Hears far rest (envelopes msgs') later' t) :
    Underway l₀ far rest d said msgs' later' log t := by
  have hout : t.layer.output = s.layer.output := congrArg SendHalf.output hheard.half
  have hrand : t.layer.rand = s.layer.rand := congrArg SendHalf.rand hheard.half
  have hseq : t.layer.sendSeq = s.layer.sendSeq := congrArg SendHalf.sendSeq hheard.half
  have hprot : t.layer.sendProt = s.layer.sendProt := congrArg SendHalf.sendProt hheard.half
  exact ⟨hheard.known.trans h.known, ⟨hout ▸ h.sender.output, hrand ▸ h.sender.rand, hprot ▸ h.sender.sized⟩,
    hseq ▸ h.seq, h.spoken.congr hout hprot hseq, hhears, hheard.transcript ▸ h.log⟩

/-- **The next message of the flight.** -/
theorem readHandshakeRecord_underway {msgType : UInt8} {body : Bytes}
    (h : Underway l₀ far rest d said ((msgType, body) :: msgs) later log s)
    (hbody : body.length ≤ maxHandshakeMsg) :
    wp readHandshakeRecord (fun m t => m = (msgType, body) ∧
      Underway l₀ far rest d said msgs later log t ∧ Heard s t) Never s := by
  obtain ⟨ps, hawaits, hcut, hne⟩ := h.hears
  obtain ⟨t, hloop, hhears, hheard⟩ := readHandshakeLoop_awaits ps hbody hawaits
    (Nat.lt_succ_of_le hawaits.length_le) hcut hne
  exact wp_of_ok hloop ⟨rfl, h.heard hheard hhears, hheard⟩

/-- When the flight is over, nothing is left of it. -/
theorem Underway.flight_over (h : Underway l₀ far rest d said [] later log s) :
    s.hsBuf = [] ∧ Awaits later far rest s.layer := by
  obtain ⟨ps, hawaits, hcut, hne⟩ := h.hears
  obtain ⟨hbuf, hflat⟩ := List.append_eq_nil_iff.mp hcut
  obtain rfl : ps = [] := by
    cases ps with
    | nil => rfl
    | cons p ps =>
        obtain ⟨rfl, -⟩ := List.append_eq_nil_iff.mp hflat
        exact absurd List.mem_cons_self hne
  exact ⟨hbuf, hawaits⟩

/-- **The next record**, when the flight is over. -/
theorem readRecord_underway {ct : UInt8} {payload : Bytes}
    (h : Underway l₀ far rest d said [] (.record ct payload :: later) log s) :
    wp readRecord (fun res t => res = (ct, payload) ∧ Underway l₀ far rest d said [] later log t)
      Never s := by
  obtain ⟨hbuf, hawaits⟩ := h.flight_over
  obtain ⟨l', hread, hrest⟩ := hawaits.read
  have hrun : readRecord s = .ok (ct, payload)
      ((s.log (.read ⟨s.layer.recvProt, s.layer.recvSeq, ct, payload⟩)).setLayer l') := by
    simp only [readRecord, hread]
  apply wp_of_ok hrun
  exact ⟨rfl, h.heard ⟨rfl, rfl, rfl, Layer.readRecord_sendHalf hread⟩ (.of_empty hbuf hrest)⟩

/-- The far end has changed its protector, and the client follows. -/
theorem Underway.installRecv {p : Protector}
    (h : Underway l₀ far rest d said [] (.changeCipherSpec p :: later) log s) :
    Underway l₀ far rest d said [] later log
      ((s.log (.installedRecv p)).setLayer (s.layer.changeCipherSpec none (some p))) := by
  obtain ⟨hbuf, hawaits⟩ := h.flight_over
  exact h.heard ⟨rfl, rfl, rfl, rfl⟩ (.of_empty hbuf hawaits.change)

/-- What comes is the next flight, in the records `ps`. -/
theorem Underway.next_flight {ps : List Bytes}
    (h : Underway l₀ far rest d said [] (ps.map (.record contentTypeHandshake) ++ later) log s)
    (hcut : ps.flatten = envelopes msgs) (hne : [] ∉ ps) :
    Underway l₀ far rest d said msgs later log s := by
  obtain ⟨hbuf, hawaits⟩ := h.flight_over
  refine ⟨h.known, h.sender, h.seq, h.spoken, ⟨ps, hawaits, ?_, hne⟩, h.log⟩
  rw [hbuf]
  exact hcut

/-- **The next message, of the type wanted and parsed.** -/
theorem receiveMessage_underway {want parseAlert : UInt8} {name : String} {errExpected : Err} {body : Bytes}
    {m : Message} (h : Underway l₀ far rest d said ((want, body) :: msgs) later log s)
    (hbody : body.length ≤ maxHandshakeMsg) (hparse : parseBody want body = .ok m) :
    wp (receiveMessage want name errExpected parseAlert) (fun res t => res = (m, body) ∧
      Underway l₀ far rest d said msgs later log t ∧ Heard s t) Never s := by
  unfold receiveMessage
  apply wp_call (wp_orFatal_returns (readHandshakeRecord_underway h hbody))
  rintro _ t ⟨rfl, hunder, hheard⟩
  dsimp only
  rw [wp_bind]
  apply wp_passed (not_not.mpr rfl)
  rw [wp_bind, parsePayload_eq hbody]
  apply wp_orFatal_returns
  apply wp_computed hparse
  exact ⟨rfl, hunder, hheard⟩

/-! ## Writing -/

/-- In the clear a record is sent as it is, and nothing is drawn. -/
theorem Layer.writeRecord_clear {l l' : Layer} {ct : UInt8} {payload : Bytes} (hprot : l.sendProt = .null)
    (h : l.writeRecord ct payload = (.ok (), l')) : l'.sendProt = .null ∧ l'.rand = l.rand := by
  obtain ⟨hdr, fragment, l₁, w, w', hrecord, -, -, rfl⟩ := Layer.writeRecord_ok h
  obtain ⟨-, -, -, prot, rand, hseal, -, rfl⟩ := Layer.sealRecord_ok hrecord
  rw [hprot] at hseal
  cases hseal
  exact ⟨rfl, rfl⟩

theorem writeRecord_underway {ct : UInt8} {payload : Bytes}
    (h : Underway l₀ far rest d said msgs later log s) (hct : isKnownContentType ct = true)
    (hlen : payload.length ≤ tlsMaxPlaintextLen) (hfew : said.length < 2 ^ 64 - 1) :
    wp (writeRecord ct payload) (fun _ t =>
      Underway l₀ far rest d (said ++ [.record ct payload]) msgs later log t ∧
      ∀ r, InClear r s → InClear r t) Never s := by
  obtain ⟨l', hwrite, hs', hseq', hspoken⟩ :=
    h.spoken.write h.sender hct hlen (Nat.lt_of_le_of_lt h.seq hfew)
  have hrecv : Layer.recvHalf.get l' = Layer.recvHalf.get s.layer := by
    have hkeep := (Layer.writeRecord_local ct payload).get_other Layer.sendHalf_recvHalf s.layer
    rw [hwrite] at hkeep
    exact hkeep
  have hrun : writeRecord ct payload s = .ok ()
      ((s.log (.wrote ⟨s.layer.sendProt, s.layer.sendSeq, ct, payload, true⟩)).setLayer l') := by
    simp only [writeRecord, hwrite]
  apply wp_of_ok hrun
  obtain ⟨ps, hawaits, hcut, hne⟩ := h.hears
  refine ⟨⟨h.known, hs', ?_, hspoken, ⟨ps, hawaits.congr hrecv, hcut, hne⟩, h.log⟩, ?_⟩
  · show l'.sendSeq.toNat ≤ _
    have hle := h.seq
    rw [List.length_append, List.length_singleton]
    omega
  · intro r hclear
    obtain ⟨hprot, hrand⟩ := Layer.writeRecord_clear hclear.prot hwrite
    refine ⟨hprot, ?_⟩
    show (⟨s.rand, l'.rand⟩ : Rands) = r
    rw [hrand]
    exact hclear.rands

theorem sendMessage_underway {text : String} {msg : Message}
    (h : Underway l₀ far rest d said msgs later log s)
    (hlen : (marshalMessage msg).length ≤ tlsMaxPlaintextLen) (hfew : said.length < 2 ^ 64 - 1) :
    wp (sendMessage text msg) (fun _ t => Underway l₀ far rest d
        (said ++ [.record contentTypeHandshake (marshalMessage msg)]) msgs later
        (log ++ marshalMessage msg) t ∧
      ∀ r, InClear r s → InClear r t) Never s := by
  unfold sendMessage
  apply wp_call (wp_orFatal_returns (writeRecord_underway h (by decide) hlen hfew))
  rintro _ t ⟨hunder, hclear⟩
  exact ⟨⟨hunder.known, hunder.sender, hunder.seq, hunder.spoken, hunder.hears, hunder.log.write _⟩,
    fun r hr => ⟨(hclear r hr).prot, (hclear r hr).rands⟩⟩

/-- The client changes its send protector. -/
theorem Underway.installSend {p : Protector} (h : Underway l₀ far rest d said msgs later log s)
    (hsized : p.Sized) : Underway l₀ far rest d (said ++ [.changeCipherSpec p]) msgs later log
      ((s.log (.installedSend p)).setLayer (s.layer.changeCipherSpec (some p) none)) := by
  obtain ⟨ps, hawaits, hcut, hne⟩ := h.hears
  exact ⟨h.known, ⟨h.sender.output, h.sender.rand, hsized⟩, Nat.zero_le _, h.spoken.change p,
    ⟨ps, hawaits.congr rfl, hcut, hne⟩, h.log⟩

/-- A received message goes into the transcript. -/
theorem Underway.record (h : Underway l₀ far rest d said msgs later log s) (msg : Bytes) :
    Underway l₀ far rest d said msgs later (log ++ msg) (s.record msg) :=
  ⟨h.known, h.sender, h.seq, h.spoken, h.hears, h.log.write msg⟩

theorem sumTranscript_underway {purpose : Purpose} {hash : Hash}
    (h : Underway l₀ far rest d said msgs later log s) (hlen : log.length ≤ maxTranscriptBytes) :
    wp (sumTranscript purpose (some hash)) (fun digest t => digest = hash.sum log ∧
      Underway l₀ far rest d said msgs later log t ∧ ∀ r, InClear r s → InClear r t) Never s := by
  have hover : s.transcript.overflow = false := by
    rw [← Bool.not_eq_true, h.log.overflow_iff]
    omega
  have hsum := h.log.sum_within hover hash
  have hrun : sumTranscript purpose (some hash) s =
      .ok (hash.sum log) (s.log (.summed purpose s.transcript.buf)) := by
    simp only [sumTranscript, hsum]
  apply wp_of_ok hrun
  exact ⟨rfl, ⟨h.known, h.sender, h.seq, h.spoken, h.hears, h.log⟩, fun r hr => ⟨hr.prot, hr.rands⟩⟩

/-- Other randomness will do, as long as it is reliable. -/
theorem Underway.setRands {r' : Rands} (h : Underway l₀ far rest d said msgs later log s)
    (hr' : r'.Reliable) : Underway l₀ far rest d said msgs later log (s.setRands r') := by
  obtain ⟨ps, hawaits, hcut, hne⟩ := h.hears
  exact ⟨h.known, ⟨h.sender.output, hr'.1, h.sender.sized⟩, h.seq, h.spoken.congr rfl rfl rfl,
    ⟨ps, hawaits.congr rfl, hcut, hne⟩, h.log⟩

/-- Drawing what was settled that it would draw. -/
theorem drawing_underway {α : Type} {m : RandM α} {a : α} {r' : Rands}
    (h : Underway l₀ far rest d said msgs later log s) (hclear : InClear r s) (hm : m r = .ok a r')
    (hr' : r'.Reliable) :
    wp (drawing m) (fun b t => b = a ∧ Underway l₀ far rest d said msgs later log t ∧ InClear r' t)
      Never s := by
  rw [← hclear.rands] at hm
  apply wp_drawn hm
  exact ⟨rfl, h.setRands hr', hclear.prot, rfl⟩

end

end Gostls
