import Mathlib.Algebra.Order.BigOperators.Group.List
import Gostls.Handshake.Flights

/-!
# `Gostls.Handshake.Completeness` — the handshake succeeds with every honest server

What the client accepts is bounded from above by its guarantees; this module bounds it from below. With a
server that plays by the rules (`Peer`), that the client has no reason to refuse (`Peer.Welcome`), the
handshake returns: for every suite, every framing of the server's messages, with and without client
authentication. Both ends then hold the same keys, and each is matched with the other's record layer.

The server's last messages depend on what the client draws and sends. So that is settled first, from the
client's readers alone (`Settled.exists`), and then the client is followed through the whole conversation
(`handshake_underway`).
-/

namespace Gostls

open Lib

/-! ## The draws, and what follows from them -/

section Settled

variable {env : Env} {params : ClientParams} {req : Option CertificateRequest} {r : Rands} {log : Bytes}

theorem RandM.withConfig_reliable {α : Type} {f : Entropy → Except Err α × Entropy} {P : α → Prop}
    (hf : ∀ e : Entropy, e.Reliable → ∃ a e', f e = (.ok a, e') ∧ e'.Reliable ∧ P a) (hr : r.Reliable) :
    ∃ a r', RandM.withConfig f r = .ok a r' ∧ r'.Reliable ∧ P a := by
  obtain ⟨config, system⟩ := r
  obtain ⟨hsystem, hconfig⟩ := hr
  cases config with
  | none =>
      obtain ⟨a, system', hrun, hsystem', ha⟩ := hf system hsystem
      exact ⟨a, ⟨none, system'⟩, by simp only [withConfig, withSystem, hrun], ⟨hsystem', hconfig⟩, ha⟩
  | some config =>
      obtain ⟨a, config', hrun, hconfig', ha⟩ := hf config (hconfig config rfl)
      refine ⟨a, ⟨some config', system⟩, by simp only [withConfig, hrun], ⟨hsystem, ?_⟩, ha⟩
      rintro _ ⟨⟩
      exact hconfig'

/-- The client always finds something to sign with, or has nothing to sign. -/
theorem Certifies.exists (husable : params.Usable env) (hr : r.Reliable) :
    ∃ cv r', Certifies env params req log r cv r' ∧ r'.Reliable := by
  cases halg : selectClientSigAlg req params.certificates with
  | none => exact ⟨Option.none, r, .none halg, hr⟩
  | some alg =>
      obtain ⟨_, cert, others, -, hcerts, ⟨-, hcompatible⟩, before, after, hadv, -⟩ :=
        selectClientSigAlg_some halg
      have hmem : alg ∈ clientSigAlgsAdvertised := by
        rw [hadv]
        exact List.mem_append_right _ List.mem_cons_self
      have hhashes : ∀ alg ∈ clientSigAlgsAdvertised,
          alg.hash = sigHashByte ∨ alg.hash = sigHashSHA384 := by decide
      obtain ⟨cryptoHash, hhash⟩ : ∃ h, hashForSigAlg alg.hash = .ok h := by
        rcases hhashes alg hmem with hsha | hsha
        · exact ⟨.sha256, by rw [hsha]; rfl⟩
        · exact ⟨.sha384, by rw [hsha]; rfl⟩
      obtain ⟨sig, r', hsig, hr', hlen⟩ := RandM.withConfig_reliable
        (husable.sign cert (hcerts ▸ List.mem_cons_self) alg cryptoHash
          ((keyCompatible_iff _ _).mpr hcompatible) hhash log) hr
      exact ⟨_, r', .signed halg hcerts hhash hsig hlen, hr'⟩

theorem masterSecret_ok (henv : env.Sound) {suite : Suite} (hs : suite ∈ registry env.hashes)
    (preMaster : Bytes) (clientRandom serverRandom : Random) :
    ∃ master, masterSecret suite preMaster clientRandom.val serverRandom.val = .ok master := by
  obtain ⟨hash, hhash, -⟩ := registry_hash henv hs
  have hlen : ¬ (clientRandom.val.length ≠ tlsRandomLen ∨ serverRandom.val.length ≠ tlsRandomLen) := by
    rw [clientRandom.property, serverRandom.property]
    simp
  refine ⟨pHash hash preMaster (utf8 "master secret" ++ (clientRandom.val ++ serverRandom.val))
    tlsMasterSecretLen, ?_⟩
  rw [masterSecret, if_neg hlen, hhash]
  exact prf_some (by decide) (by decide)

theorem Keyed.verifyData_ok (henv : env.Sound) {k : Keyed} (hs : k.suite ∈ registry env.hashes)
    {label : String} (hlabel : utf8 label ≠ []) (log : Bytes) :
    ∃ data, k.verifyData label log = .ok data ∧ (data.length = 12 ∨ data.length = 32) := by
  obtain ⟨hash, hhash, hsize⟩ := registry_hash henv hs
  have hlen : verifyDataLen k.suite = 12 ∨ verifyDataLen k.suite = 32 := by
    unfold verifyDataLen
    split
    · exact .inr rfl
    · exact .inl rfl
  refine ⟨pHash hash k.master (utf8 label ++ hash.sum log) (verifyDataLen k.suite), ?_, ?_⟩
  · simp only [Keyed.verifyData, hhash, finishedVerifyData]
    exact prf_some hlabel (by omega)
  · rw [pHash_length hsize]
    exact hlen

theorem Certifies.short {cv : CertificateVerify} {r' : Rands}
    (h : Certifies env params req log r (some cv) r') :
    (marshalMessage (.certificateVerify cv)).length ≤ tlsMaxPlaintextLen := by
  cases h with
  | signed _ _ _ _ hlen => exact hlen

theorem ClientFlight.messages_length_le (c : ClientFlight) : c.messages.length ≤ 3 := by
  have hone := c.certificate.length_toList_le
  have hone' := c.verify.length_toList_le
  simp only [ClientFlight.messages, ClientFlight.signed, List.length_append, List.length_map,
    List.length_singleton]
  omega

/-- What the client sends in its second flight is not much. -/
theorem ClientFlight.messages_size {c : ClientFlight} {r' : Rands} (husable : params.Usable env)
    (hcert : c.certificate = clientChain req params.certificates)
    (hcke : hsEnvelopeSize + c.keyExchange.length ≤ tlsMaxPlaintextLen)
    (hverify : Certifies env params req log r c.verify r') :
    (c.messages.flatMap marshalMessage).length ≤ 3 * tlsMaxPlaintextLen := by
  have hmsg : ∀ m ∈ c.messages, (marshalMessage m).length ≤ tlsMaxPlaintextLen := by
    intro m hm
    simp only [ClientFlight.messages, ClientFlight.signed, List.mem_append, List.mem_map,
      Option.mem_toList, List.mem_singleton] at hm
    rcases hm with (⟨rawCerts, hraw, rfl⟩ | rfl) | ⟨cv, hcv, rfl⟩
    · obtain ⟨_, -, rfl⟩ := Option.map_eq_some_iff.mp (hcert ▸ hraw)
      exact clientRawCerts_short husable _
    · rw [marshalMessage_eq, buildEnvelope_length]
      exact hcke
    · rw [Option.mem_def.mp hcv] at hverify
      exact hverify.short
  calc (c.messages.flatMap marshalMessage).length
      = (c.messages.map (fun m => (marshalMessage m).length)).sum := List.length_flatMap
    _ ≤ (c.messages.map (fun m => (marshalMessage m).length)).length • tlsMaxPlaintextLen :=
        List.sum_le_card_nsmul _ _ (by simpa using hmsg)
    _ ≤ 3 * tlsMaxPlaintextLen := by
        rw [List.length_map]
        exact Nat.mul_le_mul_right _ c.messages_length_le

end Settled

/-- No record is empty, so there are no more of them than bytes. -/
theorem Frames.length_le {frame : Bytes → List Bytes} (h : Frames frame) (b : Bytes) :
    (frame b).length ≤ b.length := by
  have hpos : ∀ n ∈ (frame b).map List.length, 1 ≤ n := by
    intro n hn
    obtain ⟨payload, hmem, rfl⟩ := List.mem_map.mp hn
    exact List.length_pos_iff.mpr (fun hempty => h.nonempty b (hempty ▸ hmem))
  have hsum := List.length_le_sum_of_one_le _ hpos
  rw [List.length_map, ← List.length_flatten, h.flatten] at hsum
  exact hsum

/-- What the server does is within the limits of the record layer. -/
theorem Peer.script_admissible {p : Peer} (hframes : Frames p.frame) {clientRandom : Random}
    (hsize : (envelopes (p.flight clientRandom).messages).length ≤ maxTranscriptBytes) {rep : Peer.Reply}
    (hsized : rep.recvProt.Sized) (hlen : rep.serverData.length = 12 ∨ rep.serverData.length = 32) :
    ChannelOp.Admissible 0 (p.script clientRandom rep) := by
  have hflight := hframes.length_le (envelopes (p.flight clientRandom).messages)
  have hfin := hframes.length_le (buildEnvelope typeFinished rep.serverData)
  rw [buildEnvelope_length, hsEnvelopeSize] at hfin
  rw [maxTranscriptBytes] at hsize
  apply ChannelOp.admissible_records (by decide) _ (hframes.short _) (by omega)
  refine ⟨by decide, by decide, by omega, hsized, ?_⟩
  have hlast : ChannelOp.Admissible 0 (p.speak (buildEnvelope typeFinished rep.serverData) ++ []) :=
    ChannelOp.admissible_records (by decide) _ (hframes.short _) (by omega) trivial
  rwa [List.append_nil] at hlast

/-- What the two ends come to: from the readers `r₁` the client makes its flight `c`, and the server has
    the reply `rep` to it. -/
structure Settled (env : Env) (params : ClientParams) (p : Peer) (hello : ClientHello) (keyParams : Bytes)
    (gc : GostCertificate) (req : Option CertificateRequest) (preMaster : Bytes) (r₁ r₂ r₃ : Rands)
    (c : ClientFlight) (rep : Peer.Reply) : Prop where
  exchange : leafKeyExchange env gc ⟨p.suite, hello.random, p.random⟩ keyParams r₁ =
    .ok (c.keyExchange, preMaster) r₂
  reliable : r₂.Reliable ∧ r₃.Reliable
  certificate : c.certificate = clientChain req params.certificates
  short : hsEnvelopeSize + c.keyExchange.length ≤ tlsMaxPlaintextLen
  verify : Certifies env params req (marshalMessage (.clientHello hello) ++
    envelopes (p.flight hello.random).messages ++ c.signed.flatMap marshalMessage) r₂ c.verify r₃
  reply : p.reply env hello c = .ok rep
  keys : rep.keys.toNegotiated = ⟨p.suite, hello.random, p.random⟩
  master : masterSecret p.suite preMaster hello.random.val p.random.val = .ok rep.keys.master
  protectors : rep.keys.protectors env = .ok (rep.sendProt, rep.recvProt)
  sized : rep.sendProt.Sized ∧ rep.recvProt.Sized
  client : rep.keys.verifyData "client finished" (p.log hello c) = .ok rep.clientData
  server : rep.keys.verifyData "server finished"
    (p.log hello c ++ marshalMessage (.finished ⟨rep.clientData⟩)) = .ok rep.serverData
  clientLen : rep.clientData.length = 12 ∨ rep.clientData.length = 32
  serverLen : rep.serverData.length = 12 ∨ rep.serverData.length = 32

/-- **They always come to something.** -/
theorem Settled.exists {env : Env} {params : ClientParams} {p : Peer} {hello : ClientHello}
    {gc : GostCertificate} {keyParams : Bytes} {req : Option CertificateRequest} {r₁ : Rands}
    (henv : env.Sound) (husable : params.Usable env)
    (hw : p.Welcome env params hello.random gc keyParams req) (hr₁ : r₁.Reliable) :
    ∃ preMaster r₂ r₃ c rep, Settled env params p hello keyParams gc req preMaster r₁ r₂ r₃ c rep := by
  obtain ⟨sh, -, hlookup, -⟩ := hw.acceptable.hello
  have hs : p.suite ∈ registry env.hashes := (lookup_ok hlookup).1
  obtain ⟨cke, preMaster, r₂, hcke, hr₂, hrecover, hshort⟩ := hw.recovered r₁ hr₁
  obtain ⟨master, hmaster⟩ := masterSecret_ok henv hs preMaster hello.random p.random
  obtain ⟨sendProt, recvProt, hprots, hsend, hrecv⟩ :=
    Keyed.protectors_ok henv ⟨⟨p.suite, hello.random, p.random⟩, master⟩ hs
  obtain ⟨cv, r₃, hverify, hr₃⟩ : ∃ cv r₃, Certifies env params req (marshalMessage (.clientHello hello) ++
      envelopes (p.flight hello.random).messages ++
      (⟨clientChain req params.certificates, cke, none⟩ : ClientFlight).signed.flatMap marshalMessage)
      r₂ cv r₃ ∧ r₃.Reliable := Certifies.exists husable hr₂
  obtain ⟨clientData, hclient, hclientLen⟩ := Keyed.verifyData_ok henv
    (k := ⟨⟨p.suite, hello.random, p.random⟩, master⟩) hs (by decide : utf8 "client finished" ≠ [])
    (p.log hello ⟨clientChain req params.certificates, cke, cv⟩)
  obtain ⟨serverData, hserver, hserverLen⟩ := Keyed.verifyData_ok henv
    (k := ⟨⟨p.suite, hello.random, p.random⟩, master⟩) hs (by decide : utf8 "server finished" ≠ [])
    (p.log hello ⟨clientChain req params.certificates, cke, cv⟩ ++ marshalMessage (.finished ⟨clientData⟩))
  refine ⟨preMaster, r₂, r₃, ⟨clientChain req params.certificates, cke, cv⟩,
    ⟨⟨⟨p.suite, hello.random, p.random⟩, master⟩, sendProt, recvProt, clientData, serverData⟩,
    hcke, ⟨hr₂, hr₃⟩, rfl, hshort, hverify, ?_, rfl, hmaster, hprots, ⟨hsend, hrecv⟩, hclient, hserver,
    hclientLen, hserverLen⟩
  simp only [Peer.reply, Peer.keyed, hrecover, hmaster, hprots, hclient, hserver, ok_bind, pure_eq]

/-- **The whole handshake**, once it is settled what the two ends come to. -/
theorem handshake_underway {env : Env} {params : ClientParams} {p : Peer} {random : Bytes}
    {gc : GostCertificate} {keyParams : Bytes} {req : Option CertificateRequest}
    {preMaster : Bytes} {r₀ r₁ r₂ r₃ : Rands} {c : ClientFlight} {rep : Peer.Reply} {l₀ far : Layer}
    {rest : Reader} {s : ClientState} (husable : params.Usable env) (hframes : Frames p.frame)
    (hdraw : RandM.withConfig (RandM.readFull tlsRandomLen) r₀ = .ok random r₁) (hr₁ : r₁.Reliable)
    (hw : p.Welcome env params (.copy random) gc keyParams req)
    (hset : Settled env params p (clientHello params (.copy random)) keyParams gc req preMaster r₁ r₂ r₃ c
      rep)
    (h : Underway l₀ far rest (.fresh params) [] [] (p.script (.copy random) rep) [] s)
    (hclear : InClear r₀ s) :
    wp (handshake env) (fun _ t => t.done = true ∧ ∃ log, Underway l₀ far rest
      (Known.keyed params rep.keys req gc).answered
      (clientScript (clientHello params (.copy random)) c rep) [] [] log t) Never s := by
  obtain ⟨⟨n, master⟩, sendProt, recvProt, clientData, serverData⟩ := rep
  obtain rfl : n = ⟨p.suite, .copy random, p.random⟩ := hset.keys
  have hhello := husable.hello (.copy random)
  have hcap : (p.log (clientHello params (.copy random)) c).length + 36 ≤ maxTranscriptBytes := by
    have hflight := hw.size
    have hmsgs := ClientFlight.messages_size husable hset.certificate hset.short hset.verify
    have hlog : (p.log (clientHello params (.copy random)) c).length = _ + _ := List.length_append
    rw [hlog, List.length_append]
    simp only [clientShare, maxTranscriptBytes, tlsMaxPlaintextLen, hsEnvelopeSize] at *
    show _ + (envelopes (p.flight (.copy random)).messages).length + _ + 36 ≤ _
    omega
  rw [handshake_eq]
  apply wp_call (sendClientHello_underway (h.next_flight (hframes.flatten _) (hframes.nonempty _)) hclear
    hdraw hr₁ hhello)
  rintro _ t ⟨hunder, hclear⟩
  apply wp_call (agreeKeys_underway (k := ⟨⟨p.suite, .copy random, p.random⟩, master⟩) hw.acceptable
    (Nat.le_of_add_right_le hw.size) hset.exchange hset.reliable.1 hset.master hset.protectors hunder hclear)
  rintro _ t ⟨rfl, hunder, hclear⟩
  apply conclude_underway husable hset.certificate hset.short hset.verify hset.reliable.2 hunder hclear
    (Nat.le_of_add_right_le hcap) (Nat.le_refl 1)
  intro t hunder
  rw [← List.append_nil (p.speak _)] at hunder
  have hfew : (sent (.clientHello (clientHello params (.copy random)) :: c.messages)).length + 2 <
      2 ^ 64 - 1 := by
    have hthree := c.messages_length_le
    simp only [sent, List.length_map, List.length_cons]
    omega
  exact finish_underway (k := ⟨⟨p.suite, .copy random, p.random⟩, master⟩) hset.client hset.server
    hset.clientLen hset.serverLen rfl hset.sized.1 (hframes.flatten _) (hframes.nonempty _) hunder hcap hfew

/-- **The handshake succeeds with every honest server**: of any suite, however it cuts its messages into
    records, and whether or not it asks for a certificate. If each of its messages is one that the client
    has no reason to refuse, and nothing fails underneath, the client's handshake returns over the bytes
    that the server sends. Both then hold the same keys. The client reads where the server writes, with
    nothing behind the server's Finished touched, and what it has sent is read at the other end as its
    ClientHello, its flight and its Finished. -/
theorem honest_handshake_succeeds (env : Env) (params : ClientParams) (p : Peer) (output : Writer)
    (rand : Entropy) (config : Option Entropy) (henv : env.Sound) (husable : params.Usable env)
    (hout : output.Reliable) (hrand : Rands.Reliable ⟨config, rand⟩) (hframes : Frames p.frame)
    (hprand : p.rand.Reliable)
    (hwelcome : ∀ clientRandom, ∃ gc keyParams req, p.Welcome env params clientRandom gc keyParams req) :
    ∃ hello c rep far, hello = clientHello params hello.random ∧ p.reply env hello c = .ok rep ∧
      ChannelOp.send (p.script hello.random rep) (newLayer [] ⟨[], []⟩ p.rand) = (.ok (), far) ∧
      ∀ rest, ∃ s,
        handshake env (freshClient params (ofBytes far.output.output ++ rest) output rand config) =
          .ok () s ∧ s.done = true ∧ Holds s rep.keys ∧
        Matched far s.layer ∧ s.layer.input = rest ∧
        Spoken (clientScript hello c rep)
          (newLayer (ofBytes far.output.output ++ rest) output rand) s.layer := by
  -- What the client draws first, and what comes of it.
  obtain ⟨random, r₁, hdraw, hr₁, -⟩ : ∃ random r₁,
      RandM.withConfig (RandM.readFull tlsRandomLen) ⟨config, rand⟩ = .ok random r₁ ∧ r₁.Reliable ∧ True := by
    apply RandM.withConfig_reliable _ hrand
    intro e he
    obtain ⟨b, e', hread, he'⟩ := he.read tlsRandomLen
    exact ⟨b, e', by simp only [RandM.readFull, hread], he', trivial⟩
  obtain ⟨gc, keyParams, req, hw⟩ := hwelcome (.copy random)
  obtain ⟨preMaster, r₂, r₃, c, rep, hset⟩ : ∃ preMaster r₂ r₃ c rep, Settled env params p
      (clientHello params (.copy random)) keyParams gc req preMaster r₁ r₂ r₃ c rep :=
    Settled.exists henv husable hw hr₁
  have hadm := Peer.script_admissible hframes (Nat.le_of_add_right_le hw.size) hset.sized.2 hset.serverLen
  have hpeer : Sender (newLayer [] ⟨[], []⟩ p.rand) :=
    ⟨by simp [Writer.Reliable, newLayer, newLayerWithSeq], hprand, trivial⟩
  obtain ⟨far, emitted, hsend, houtput, hstart⟩ := Awaits.start hpeer hadm
  obtain rfl : far.output.output = emitted := houtput
  refine ⟨clientHello params (.copy random), c, rep, far, rfl, hset.reply, hsend, ?_⟩
  intro rest
  -- The client, before its handshake.
  have hunder : Underway (newLayer (ofBytes far.output.output ++ rest) output rand) far rest (.fresh params)
      [] [] (p.script (.copy random) rep) []
      (freshClient params (ofBytes far.output.output ++ rest) output rand config) :=
    ⟨rfl, ⟨hout, hrand.1, trivial⟩, Nat.le_refl 0, .nil _,
      .of_empty rfl (hstart _ rest ⟨rfl, rfl⟩ rfl), .new⟩
  obtain ⟨_, s, hrun, hdone, log, hend⟩ :=
    (handshake_underway husable hframes hdraw hr₁ hw hset hunder ⟨rfl, rfl⟩).returns
  obtain ⟨hmatched, hrest⟩ := hend.flight_over.2.done
  exact ⟨s, hrun, hdone, ⟨congrArg (·.suite) hend.known, congrArg (·.clientRandom) hend.known,
    congrArg (·.serverRandom) hend.known, congrArg (·.masterSecret) hend.known⟩, hmatched, hrest, hend.spoken⟩

/-! ## An instance -/

/-- A client that offers one ECDHE suite and has a certificate. -/
def ClientParams.sampleAuth : ClientParams :=
  { ClientParams.sample with offeredSuites := [0xC02F], certificates := [⟨[8], .rsa [1]⟩] }

/-- A flight for that suite, with a CertificateRequest. -/
def ServerFlight.sample : ServerFlight where
  hello := [3, 3, 5] ++ List.replicate 31 0 ++ [0, 0xC0, 0x2F, 0]
  certificate := [0, 0, 4, 0, 0, 1, 9]
  keyExchange := some ([3, 0, 0x1D, 1, 7] ++ [4, 1, 0, 1, 6])
  request := some [1, 1, 0, 2, 4, 1, 0, 0]

/-- A server that sends one record for each byte. -/
def Peer.sample : Peer where
  suite := ⟨0xC02F, "ECDHE-RSA-AES128-GCM-SHA256", .ecdhe, .rsa, specAES128GCM, specNoMAC,
    specPRFSHA256 Env.sampleBlock.hashes⟩
  random := .copy [5]
  flight := fun _ => .sample
  recover := fun _ _ => .ok [7]
  frame := fun b => b.map fun x => [x]
  rand := ⟨fun _ => .ok 0, 0⟩

theorem Peer.sample_frames : Frames Peer.sample.frame where
  flatten := fun b => by
    show (b.map fun x => [x]).flatten = b
    rw [← List.flatMap_def]
    exact List.flatMap_singleton' b
  nonempty := fun b => by simp [Peer.sample]
  short := fun b payload hmem => by
    obtain ⟨x, -, rfl⟩ := List.mem_map.mp hmem
    show 1 ≤ tlsMaxPlaintextLen
    decide

theorem ClientParams.sampleAuth_usable : ClientParams.sampleAuth.Usable .sampleBlock where
  hello := fun clientRandom => by
    have hrandom := clientRandom.property
    have hext : (marshalExtensions
        { serverName := [], supportedGroups := [0x001D, 0x0017, 0x0018, 0x0019, 0x0100, 0x0101],
          ecPointFormats := [0], signatureAlgorithms := clientSigAlgsAdvertised,
          extendedMasterSecret := false, renegotiationInfo := true }).length ≤ 100 := by decide
    simp only [marshalMessage_eq, buildEnvelope_length, Message.marshal, ClientHello.marshal, clientHello,
      ClientParams.sampleAuth, ClientParams.sample, List.foldl_cons, List.foldl_nil, appendUint16,
      appendLenPrefixed8, appendUint8, List.length_append, toBE_length, hrandom]
    simp only [hsEnvelopeSize, tlsRandomLen, tlsMaxPlaintextLen, List.length_cons, List.length_nil]
    omega
  certificate := fun cert hcert => by
    obtain rfl := List.mem_singleton.mp hcert
    decide
  sign := fun cert hcert alg cryptoHash _ _ log e he => by
    obtain rfl := List.mem_singleton.mp hcert
    refine ⟨_, e, rfl, he, ?_⟩
    have hdigest := (cryptoHash.new Env.sampleBlock.hashes).sum_length log
    have hsize : (cryptoHash.new Env.sampleBlock.hashes).size = 8 := by
      cases cryptoHash <;> rfl
    rw [hsize] at hdigest
    simp only [marshalMessage_eq, buildEnvelope_length, Message.marshal, CertificateVerify.marshal,
      appendLenPrefixed16, appendUint16, appendUint8, List.length_append, toBE_length, hdigest]
    show 16 ≤ tlsMaxPlaintextLen
    decide

theorem ServerFlight.sample_acceptable (clientRandom : Random) :
    Acceptable .sampleBlock .sampleAuth ⟨Peer.sample.suite, clientRandom, Peer.sample.random⟩ .sample
      ⟨⟨[9], .rsa [9]⟩, false, false, [], [], []⟩ [3, 0, 0x1D, 1, 7] (some ⟨[1], [⟨4, 1⟩], []⟩) where
  hello := by
    refine ⟨⟨0x0303, .copy [5], [], 0xC02F, 0, false, false, []⟩, ?_, rfl, rfl⟩
    have hparse : parseServerHello ServerFlight.sample.hello =
        .ok ⟨0x0303, .copy [5], [], 0xC02F, 0, false, false, []⟩ := by decide
    exact ⟨hparse, rfl, by decide, by decide, rfl,
      answered_of_types hparse fun _ hno => absurd hno List.not_mem_nil⟩
  certificate := by
    refine ⟨[9], [], [], rfl, rfl, .skipped rfl, ?_⟩
    intro verify hverify
    cases hverify
  keyExchange := by
    have hsigned : SignedParams .sampleBlock ⟨[9], .rsa [9]⟩
        ⟨Peer.sample.suite, clientRandom, Peer.sample.random⟩ ([3, 0, 0x1D, 1, 7] ++ [4, 1, 0, 1, 6])
        [3, 0, 0x1D, 1, 7] ⟨4, 1⟩ [6] [] :=
      ⟨rfl, .ecdhe rfl, by decide, .rsa, by decide, .sha256, rfl, .rsa rfl⟩
    exact .signed hsigned
  request := .some rfl

theorem Peer.sample_welcome (clientRandom : Random) :
    Peer.sample.Welcome .sampleBlock .sampleAuth clientRandom ⟨⟨[9], .rsa [9]⟩, false, false, [], [], []⟩
      [3, 0, 0x1D, 1, 7] (some ⟨[1], [⟨4, 1⟩], []⟩) where
  acceptable := ServerFlight.sample_acceptable clientRandom
  recovered := by
    rintro ⟨config, system⟩ hr
    refine ⟨[0], [7], ⟨config, system⟩, ?_, hr, rfl, by decide⟩
    cases config with
    | none | some config => rfl
  size := by
    show (envelopes ServerFlight.sample.messages).length + clientShare ≤ maxTranscriptBytes
    decide

theorem honest_handshake_succeeds_ecdhe : ∃ hello c rep far s, hello = clientHello .sampleAuth hello.random ∧
    Peer.sample.reply .sampleBlock hello c = .ok rep ∧
    ChannelOp.send (Peer.sample.script hello.random rep) (newLayer [] ⟨[], []⟩ ⟨fun _ => .ok 0, 0⟩) =
      (.ok (), far) ∧
    handshake .sampleBlock (freshClient .sampleAuth (ofBytes far.output.output ++ []) ⟨[], []⟩
      ⟨fun _ => .ok 7, 0⟩ none) = .ok () s ∧ Holds s rep.keys ∧ Matched far s.layer := by
  obtain ⟨hello, c, rep, far, hhello, hreply, hsend, hrun⟩ := honest_handshake_succeeds .sampleBlock
    .sampleAuth .sample ⟨[], []⟩ ⟨fun _ => .ok 7, 0⟩ none Env.sampleBlock_sound
    ClientParams.sampleAuth_usable (by simp [Writer.Reliable])
    ⟨fun _ => ⟨7, rfl⟩, (fun _ hno => absurd hno (Option.not_mem_none _))⟩
    Peer.sample_frames (fun _ => ⟨0, rfl⟩)
    (fun clientRandom => ⟨_, _, _, Peer.sample_welcome clientRandom⟩)
  obtain ⟨s, hs, -, hholds, hmatched, -⟩ := hrun []
  exact ⟨hello, c, rep, far, s, hhello, hreply, hsend, hs, hholds, hmatched⟩

end Gostls
