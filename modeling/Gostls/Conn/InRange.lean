import Gostls.Conn.ByteStream
import Gostls.Handshake.InRange

/-!
# `Gostls.Conn.InRange` — nothing a peer sends is decoded out of range

The last reader of what a peer sends is `Read`, which decodes the alerts of an established connection. With
it the three places where bytes from outside are decoded are covered: messages (`Handshake.InRange`),
records (`Record.InRange`), and alerts, in the handshake and after it. `decoding_in_range` puts them
together.
-/

namespace Gostls

open Lib

namespace Conn

variable {c c' : Conn}

/-- **`Read` decodes an alert only if it has two bytes.** -/
theorem readAlert_inRange (payload : Bytes) (c : Conn) : InRange (c.readAlert payload).1 := by
  unfold readAlert
  by_cases hlen : payload.length < alertMinLen
  · rw [if_pos hlen]
    exact .error rfl
  · have hrange : InRange (decodeAlert payload) := decodeAlert_inRange_iff.mpr (Nat.not_lt.mp hlen)
    rw [if_neg hlen]
    cases hdecode : decodeAlert payload with
    | error e => exact .rethrow hrange hdecode
    | ok alert =>
        dsimp only
        split
        · exact .error rfl
        · exact .error rfl

theorem readRecord_inRange (c : Conn) : InRange c.readRecord.1 := by
  have hlayer := c.layer.readRecord_inRange
  unfold readRecord
  split
  · exact .ok _
  · rename_i hread
    exact .rethrow hlayer (congrArg Prod.fst hread)

theorem readLoop_inRange (n budget : Nat) (c : Conn) : InRange (c.readLoop n budget).1 := by
  fun_induction readLoop n budget c with
  | case1 budget c e c₁ hrec => exact .rethrow c.readRecord_inRange (congrArg Prod.fst hrec)
  | case2 c payload c₁ hempty hrec => exact .error rfl
  | case3 c payload c₁ hempty budget hrec ih => exact ih
  | case4 budget c payload c₁ hne hrec => exact .ok _
  | case5 budget c payload c₁ hrec hct => exact readAlert_inRange payload c₁
  | case6 budget c ct payload c₁ hrec hct hct' => exact .error rfl

/-! ## Runs -/

/-- An established connection whose read side has not kept a panic. -/
structure Calm (c : Conn) : Prop where
  handshake : c.handshakeDone = some (.ok ())
  readErr : c.readErr ≠ some .panic

theorem Calm.read (h : c.Calm) (n : Nat) : InRange (c.read n).1 ∧ (c.read n).2.Calm := by
  rcases read_cases h.handshake n with ⟨-, hr⟩ | ⟨-, -, hr⟩ | ⟨e, -, -, herr, hr⟩ | ⟨-, hbuf, -, hr⟩
  · rw [hr]
    exact ⟨.error rfl, h⟩
  · rw [hr]
    exact ⟨.ok _, h.handshake, h.readErr⟩
  · rw [hr]
    refine ⟨?_, h⟩
    rintro ⟨⟩
    exact h.readErr herr
  · have hrange := c.readLoop_inRange n maxEmptyRecords
    have hout := readLoop_outcome n maxEmptyRecords hbuf
    rw [hr]
    refine ⟨hrange, ?_⟩
    -- What the loop keeps is what it returns.
    generalize (c.readLoop n maxEmptyRecords).1 = res, (c.readLoop n maxEmptyRecords).2 = c' at hrange hout
    cases hout with
    | data rest err data => exact ⟨rest.handshake.trans h.handshake, err ▸ h.readErr⟩
    | fail rest err buf data =>
        refine ⟨rest.handshake.trans h.handshake, ?_⟩
        rw [err]
        rintro ⟨⟩
        exact hrange rfl

theorem Calm.of_same (h : c.Calm) (hs : SameRead c c') : c'.Calm :=
  ⟨hs.handshake.trans h.handshake, hs.readErr ▸ h.readErr⟩

/-- **No `Read` of a run goes out of range**, whatever the peer sends. -/
theorem Calm.run (h : c.Calm) (ops : List ConnOp) :
    ∀ res, ConnResult.read res ∈ (c.run ops).1 → InRange res := by
  induction ops generalizing c with
  | nil =>
      intro res hres
      cases hres
  | cons op ops ih =>
      have hstep : (∀ res, (c.step op).1 = .read res → InRange res) ∧ (c.step op).2.Calm := by
        cases op with
        | read n =>
            refine ⟨?_, (h.read n).2⟩
            rintro res ⟨⟩
            exact (h.read n).1
        | write b => exact ⟨(fun _ hres => nomatch hres), h.of_same (write_wrote h.handshake b).same⟩
        | close => exact ⟨(fun _ hres => nomatch hres), h.of_same (close_same c)⟩
      intro res hres
      rcases List.mem_cons.mp hres with hfirst | hrest
      · exact hstep.1 res hfirst.symm
      · exact ih hstep.2 res hrest

theorem Established.calm (h : c.Established) : c.Calm :=
  ⟨h.handshake, by rw [h.readErr]; exact fun herr => nomatch herr⟩

end Conn

/-! ## What a peer sends -/

/-- **Nothing a peer sends is decoded out of range.** Every parser returns on every byte string. The
    parameters of a ServerKeyExchange are walked in range: what can panic there is a suite that was never
    negotiated, or the library. For every 5-byte header and fragment each protector opens in range with all
    indices of the source, and record after record as the model does. An alert is decoded only where it has
    two bytes, in the handshake and in every run of calls after it. -/
theorem decoding_in_range :
    (∀ data, InRange (parseMessage data)) ∧
    (∀ msgType body, InRange (parseBody msgType body)) ∧
    (∀ extData, InRange (parseExtensions extData)) ∧
    (∀ extType extBody out, InRange (parseExtension extType extBody out)) ∧
    (∀ params, InRange (parseDHEServerParams params)) ∧
    (∀ env body cert s s', verifyECDHEServerKeyExchange env body cert s = .error .panic s' →
      s.suite = none ∨ ¬env.SignaturesReturn) ∧
    (∀ env body cert s s', verifyDHEServerKeyExchange env body cert s = .error .panic s' →
      s.suite = none ∨ ¬env.SignaturesReturn) ∧
    (∀ env serverParams r r', ecdhClientKeyExchange env serverParams r = .error .panic r' →
      ∃ curve point r'', ecdhAgree env curve point r = .error .panic r'') ∧
    (∀ (prot : ProtectorAt) (seq : UInt64) (hdr fragment : Bytes), hdr.length = recordHeaderLen →
      InRange (prot.openAt seq hdr fragment).1) ∧
    (∀ (prot : ProtectorAt) (cs : List OpenCall), (∀ res ∈ prot.openAll cs, InRange res) ∧
      (prot.Positioned → prot.openAll cs = prot.toProtector.openAll cs)) ∧
    (∀ l : Layer, InRange l.readRecord.1) ∧
    (∀ b, InRange (decodeAlert b) ↔ 2 ≤ b.length) ∧
    (∀ hsBuf ct payload, InRange (refuseRecord hsBuf ct payload)) ∧
    (∀ s s', readHandshakeRecord s ≠ .error .panic s') ∧
    (∀ payload (c : Conn), InRange (c.readAlert payload).1) ∧
    ∀ c : Conn, c.Established → ∀ ops res, ConnResult.read res ∈ (c.run ops).1 → InRange res := by
  refine ⟨parseMessage_inRange, parseBody_inRange, parseExtensions_inRange, parseExtension_inRange,
    parseDHEServerParams_inRange, ?_, ?_, ?_, ?_, ?_, Layer.readRecord_inRange, ?_, refuseRecord_inRange,
    readHandshakeRecord_inRange, Conn.readAlert_inRange, ?_⟩
  · intro env body cert s s' hpanic
    exact (verifyECDHEServerKeyExchange_inRange body cert).elim hpanic
  · intro env body cert s s' hpanic
    exact (verifyDHEServerKeyExchange_inRange body cert).elim hpanic
  · intro env serverParams r r' hpanic
    exact (ecdhClientKeyExchange_inRange env serverParams r).elim hpanic
  · intro prot seq hdr fragment hhdr
    exact prot.openAt_inRange seq hhdr fragment
  · intro prot cs
    exact ⟨prot.openAll_inRange cs, ProtectorAt.openAll_refines cs⟩
  · intro b
    exact decodeAlert_inRange_iff
  · intro c hc ops
    exact hc.calm.run ops

end Gostls
