import Gostls.Handshake.Flow

/-!
# `Gostls.Handshake.Buffering` — what `readHandshakeRecord` holds back, and for how long

The loop of `readHandshakeRecord` buffers handshake bytes until they make a message. `recordCalls` lists
the states in which it calls `ReadRecord`, so that statements can speak about the moment of a call, also
of one that fails. `Round` says once what a round of the loop can do; the rest is by induction over the
rounds.

* `bounded` — at every `ReadRecord` the buffer is short of the message it waits for, and what a returned
  message leaves behind came in one record;
* `advances_iff` — the buffer grows from one `ReadRecord` to the next, unless the peer sends an empty
  record: nothing in the loop stops those.
-/

namespace Gostls

open Lib

/-! ## The message at the front of the buffer -/

/-- The length that the header at the front of the buffer declares. -/
def declared (buf : Bytes) : Nat := ofBE ((buf.drop 1).take 3)

/-- No message can be taken yet: the header is not there, or the body is not. -/
def Incomplete (buf : Bytes) : Prop :=
  buf.length < hsEnvelopeSize ∨
    declared buf ≤ maxHandshakeMsg ∧ buf.length < hsEnvelopeSize + declared buf

/-- The header is there and declares too much. -/
def Oversized (buf : Bytes) : Prop :=
  hsEnvelopeSize ≤ buf.length ∧ maxHandshakeMsg < declared buf

/-- What an oversized header is answered with. -/
def oversizedErr (buf : Bytes) : Err :=
  errHSBodyTruncated.detail (": declared " ++ toString (declared buf))

theorem Incomplete.length_le {buf : Bytes} (h : Incomplete buf) : buf.length ≤ maxHandshakeMsg + 3 := by
  unfold Incomplete hsEnvelopeSize at h
  omega

theorem Incomplete.not_oversized {buf : Bytes} (h : Incomplete buf) : ¬ Oversized buf := by
  unfold Incomplete at h
  unfold Oversized
  omega

/-- A header is not changed by what is behind it. -/
theorem declared_append {buf : Bytes} (h : hsEnvelopeSize ≤ buf.length) (more : Bytes) :
    declared (buf ++ more) = declared buf := by
  obtain ⟨t, b1, b2, b3, tail, rfl⟩ := four_bytes (Nat.not_lt.mpr h)
  rfl

theorem declared_envelope {t : UInt8} {body : Bytes} (hbody : body.length ≤ maxHandshakeMsg)
    (rest : Bytes) : declared (buildEnvelope t body ++ rest) = body.length :=
  ofBE_toBE_of_lt (k := 3) (by simp only [maxHandshakeMsg] at hbody; omega)

/-- **The three cases of the buffer.** -/
theorem nextBuffered_cases (buf : Bytes) :
    Incomplete buf ∧ nextBuffered buf = .ok none ∨
      Oversized buf ∧ nextBuffered buf = .error (oversizedErr buf) ∨
      ¬ Incomplete buf ∧ ∃ t body rest, nextBuffered buf = .ok (some (t, body, rest)) := by
  by_cases hmin : buf.length < hsEnvelopeSize
  · exact .inl ⟨.inl hmin, by simp only [nextBuffered, if_pos hmin, pure_eq]⟩
  obtain ⟨t, b1, b2, b3, tail, rfl⟩ := four_bytes hmin
  have hdecl : declared (t :: b1 :: b2 :: b3 :: tail) = ofBE [b1, b2, b3] := rfl
  by_cases hmax : maxHandshakeMsg < ofBE [b1, b2, b3]
  · refine .inr (.inl ⟨⟨Nat.not_lt.mp hmin, hmax⟩, ?_⟩)
    simp only [nextBuffered, if_neg hmin, index_cons_zero, index_cons_succ, ok_bind, if_pos hmax,
      throw_eq, error_bind, oversizedErr, hdecl]
  by_cases hfull : (t :: b1 :: b2 :: b3 :: tail).length < hsEnvelopeSize + ofBE [b1, b2, b3]
  · refine .inl ⟨.inr ⟨Nat.not_lt.mp hmax, hfull⟩, ?_⟩
    simp only [nextBuffered, if_neg hmin, index_cons_zero, index_cons_succ, ok_bind, if_neg hmax,
      if_pos hfull, pure_eq]
  · refine .inr (.inr ⟨?_, t, tail.take (ofBE [b1, b2, b3]), tail.drop (ofBE [b1, b2, b3]), ?_⟩)
    · rintro (h | ⟨-, h⟩)
      · exact hmin h
      · exact hfull h
    simp only [nextBuffered, if_neg hmin, index_cons_zero, index_cons_succ, ok_bind, if_neg hmax,
      if_neg hfull, pure_eq]
    rw [slice_eq (by omega) (by omega), consumeBuffered_eq (by omega)]
    simp [hsEnvelopeSize, Nat.add_comm 4]

theorem nextBuffered_oversized {buf : Bytes} (h : Oversized buf) :
    nextBuffered buf = .error (oversizedErr buf) := by
  rcases nextBuffered_cases buf with ⟨hinc, -⟩ | ⟨-, hnext⟩ | ⟨-, t, body, rest, hnext⟩
  · exact absurd h hinc.not_oversized
  · exact hnext
  · -- What is taken declares no more than it may.
    obtain ⟨rfl, hbody⟩ := nextBuffered_some hnext
    have hmax := h.2
    rw [declared_envelope hbody] at hmax
    omega

/-- A header that declares too much is refused at once. -/
theorem readHandshakeLoop_refuse {n : Nat} {s : ClientState} (h : Oversized s.hsBuf) :
    readHandshakeLoop (n + 1) s = .error (oversizedErr s.hsBuf) s := by
  simp only [readHandshakeLoop_succ, nextBuffered_oversized h]

/-! ## The rounds of a call -/

/-- The states in which the loop calls `ReadRecord`. -/
def recordCalls : Nat → ClientState → List ClientState
  | 0, _ => []
  | rounds + 1, s =>
    match nextBuffered s.hsBuf, s.layer.readRecord with
    | .ok none, (.ok (ct, payload), layer) =>
      if ct = contentTypeHandshake then s :: recordCalls rounds (s.receive payload layer) else [s]
    | .ok none, (.error _, _) => [s]
    | _, _ => []

/-- The states in which `readHandshakeRecord` calls `ReadRecord`. -/
def ClientState.recordCalls (s : ClientState) : List ClientState :=
  Gostls.recordCalls (s.layer.input.length + 1) s

/-- **What a round can do**: take a message, refuse a header, fail to read, refuse a record, or buffer
    one and go on. -/
inductive Round (n : Nat) (s : ClientState) : Prop
  | took {t : UInt8} {body rest : Bytes} (hbuf : ¬ Incomplete s.hsBuf)
      (hnext : nextBuffered s.hsBuf = .ok (some (t, body, rest)))
      (hcalls : recordCalls (n + 1) s = [])
      (hloop : readHandshakeLoop (n + 1) s = .ok (t, body) ((s.log (.took t body)).setHsBuf rest))
  | oversized (hbuf : Oversized s.hsBuf) (hcalls : recordCalls (n + 1) s = [])
      (hloop : readHandshakeLoop (n + 1) s = .error (oversizedErr s.hsBuf) s)
  | failed {e e' : Err} {layer : Layer} (hbuf : Incomplete s.hsBuf)
      (hread : s.layer.readRecord = (.error e, layer)) (hcalls : recordCalls (n + 1) s = [s])
      (hloop : readHandshakeLoop (n + 1) s = .error e' (s.setLayer layer))
  | foreign {ct : UInt8} {payload : Bytes} {layer : Layer} {e : Err} (hbuf : Incomplete s.hsBuf)
      (hread : s.layer.readRecord = (.ok (ct, payload), layer)) (hct : ct ≠ contentTypeHandshake)
      (hcalls : recordCalls (n + 1) s = [s])
      (hloop : readHandshakeLoop (n + 1) s =
        .error e ((s.log (.read ⟨s.layer.recvProt, s.layer.recvSeq, ct, payload⟩)).setLayer layer))
  | data {payload : Bytes} {layer : Layer} (hbuf : Incomplete s.hsBuf)
      (hread : s.layer.readRecord = (.ok (contentTypeHandshake, payload), layer))
      (hcalls : recordCalls (n + 1) s = s :: recordCalls n (s.receive payload layer))
      (hloop : readHandshakeLoop (n + 1) s = readHandshakeLoop n (s.receive payload layer))

theorem round (n : Nat) (s : ClientState) : Round n s := by
  rcases nextBuffered_cases s.hsBuf with ⟨hinc, hnext⟩ | ⟨hover, hnext⟩ | ⟨hbuf, t, body, rest, hnext⟩
  · match hread : s.layer.readRecord with
    | (.error e, layer) =>
        obtain ⟨e', hloop⟩ : ∃ e', readHandshakeLoop (n + 1) s = .error e' (s.setLayer layer) :=
          readHandshakeLoop_error hnext hread
        exact .failed hinc hread (by simp only [recordCalls, hnext, hread]) hloop
    | (.ok (ct, payload), layer) =>
        by_cases hct : ct = contentTypeHandshake
        · subst hct
          refine .data hinc hread ?_ (readHandshakeLoop_read hnext hread)
          simp only [recordCalls, hnext, hread, if_true]
        · have hcalls : recordCalls (n + 1) s = [s] := by
            simp only [recordCalls, hnext, hread, if_neg hct]
          obtain ⟨e, hloop⟩ := readHandshakeLoop_foreign hnext hread hct
          exact .foreign hinc hread hct hcalls hloop
  · refine .oversized hover ?_ (readHandshakeLoop_refuse hover)
    simp only [recordCalls, hnext]
  · refine .took hbuf hnext ?_ (readHandshakeLoop_take hnext)
    simp only [recordCalls, hnext]

/-- **What a call changes**: the receive side of the record layer, the buffer, and the trace, which gets
    neither a write nor a new protector to write under. -/
theorem readHandshakeLoop_frame (n : Nat) (s : ClientState) :
    ∃ es layer hsBuf, endState (readHandshakeLoop n) s =
      ({ s with trace := s.trace ++ es, layer, hsBuf } : ClientState) ∧ writes es = [] ∧
      (∀ p, .installedSend p ∉ es) ∧ layer.outbound = s.layer.outbound := by
  have hout : ∀ {s : ClientState} {res : Except Err (UInt8 × Bytes)} {layer : Layer},
      s.layer.readRecord = (res, layer) → layer.outbound = s.layer.outbound := by
    intro s res layer hread
    have h := s.layer.readRecord_outbound
    rw [hread] at h
    exact h
  induction n generalizing s with
  | zero =>
      refine ⟨[], s.layer, s.hsBuf, ?_, rfl, by simp, rfl⟩
      rw [List.append_nil]
      rfl
  | succ n ih =>
      cases round n s with
      | @took t body rest _ _ _ hloop =>
          exact ⟨[.took t body], s.layer, rest, endState_ok hloop, rfl, by simp, rfl⟩
      | oversized _ _ hloop =>
          refine ⟨[], s.layer, s.hsBuf, ?_, rfl, by simp, rfl⟩
          rw [endState_error hloop, List.append_nil]
      | @failed _ _ layer _ hread _ hloop =>
          refine ⟨[], layer, s.hsBuf, ?_, rfl, by simp, hout hread⟩
          rw [endState_error hloop, List.append_nil]
          rfl
      | @foreign ct payload layer _ _ hread _ _ hloop =>
          exact ⟨[.read ⟨_, _, ct, payload⟩], layer, s.hsBuf, endState_error hloop, rfl, by simp, hout hread⟩
      | @data payload layer _ hread _ hloop =>
          obtain ⟨es, layer', hsBuf, hend, hwrites, hsend, hsame⟩ := ih (s.receive payload layer)
          refine ⟨.read ⟨s.layer.recvProt, s.layer.recvSeq, contentTypeHandshake, payload⟩ :: es, layer',
            hsBuf, ?_, hwrites, by simpa using hsend, hsame.trans (hout hread)⟩
          rw [endState_congr hloop, hend, List.append_cons]
          rfl

theorem readHandshakeRecord_frame (s : ClientState) :
    ∃ es layer hsBuf, endState readHandshakeRecord s =
      ({ s with trace := s.trace ++ es, layer, hsBuf } : ClientState) ∧ writes es = [] ∧
      (∀ p, .installedSend p ∉ es) ∧ layer.outbound = s.layer.outbound :=
  readHandshakeLoop_frame (s.layer.input.length + 1) s

/-- A message that is returned has been logged, and is not too long. -/
theorem readHandshakeLoop_taken {n : Nat} {s s' : ClientState} {m : UInt8 × Bytes}
    (h : readHandshakeLoop n s = .ok m s') : m ∈ taken s'.trace ∧ m.2.length ≤ maxHandshakeMsg := by
  induction n generalizing s with
  | zero => cases h
  | succ n ih =>
      cases round n s with
      | @took t body rest _ hnext _ hloop =>
          cases hloop.symm.trans h
          refine ⟨?_, (nextBuffered_some hnext).2⟩
          show (t, body) ∈ taken (s.trace ++ [.took t body])
          simp [Event.asTaken]
      | oversized _ _ hloop | failed _ _ _ hloop | foreign _ _ _ _ hloop => cases hloop.symm.trans h
      | data _ _ _ hloop => exact ih (hloop.symm.trans h)

/-! ## What is buffered -/

section

variable {n : Nat} {s s' t : ClientState}

/-- The loop reads only while the message is incomplete. -/
theorem incomplete_of_mem_recordCalls (ht : t ∈ recordCalls n s) : Incomplete t.hsBuf := by
  induction n generalizing s with
  | zero => cases ht
  | succ n ih =>
      cases round n s with
      | took _ _ hcalls _ | oversized _ hcalls _ =>
          rw [hcalls] at ht
          cases ht
      | failed hbuf _ hcalls _ | foreign hbuf _ _ hcalls _ =>
          rw [hcalls] at ht
          rw [List.mem_singleton.mp ht]
          exact hbuf
      | data hbuf _ hcalls _ =>
          rw [hcalls] at ht
          rcases List.mem_cons.mp ht with rfl | ht
          · exact hbuf
          · exact ih ht

/-- What the buffer is between two calls: short, or nothing that a message can be taken from. -/
def Held (buf : Bytes) : Prop := buf.length < 2 ^ 14 ∨ Incomplete buf ∨ Oversized buf

/-- What the buffer is at the top of a round: it was held, or one record made it what it is. -/
def Limited (buf : Bytes) : Prop :=
  Held buf ∨ ∃ old payload, Incomplete old ∧ payload.length ≤ tlsMaxPlaintextLen ∧ buf = old ++ payload

/-- **What a message leaves behind** came with the record that completed it. -/
theorem Limited.rest {msgType : UInt8} {body rest : Bytes}
    (h : Limited (buildEnvelope msgType body ++ rest)) (hbody : body.length ≤ maxHandshakeMsg) :
    rest.length < 2 ^ 14 := by
  have hlen : (buildEnvelope msgType body ++ rest).length = hsEnvelopeSize + body.length + rest.length := by
    rw [List.length_append, buildEnvelope_length]
  have hdecl := declared_envelope (t := msgType) hbody rest
  rcases h with (hshort | hinc | hover) | ⟨old, payload, hinc, hpayload, heq⟩
  · omega
  · -- The message is complete.
    unfold Incomplete at hinc
    omega
  · unfold Oversized at hover
    omega
  · -- Without the record the message was not complete.
    have hold : old.length < hsEnvelopeSize + body.length := by
      rcases hinc with hmin | ⟨-, hfull⟩
      · omega
      · by_cases hmin : old.length < hsEnvelopeSize
        · omega
        · rw [heq, declared_append (Nat.not_lt.mp hmin)] at hdecl
          omega
    rw [heq, List.length_append] at hlen
    simp only [tlsMaxPlaintextLen] at hpayload
    omega

/-- **A returned message**: its body is bounded, and so is what stays in the buffer. -/
theorem readHandshakeLoop_limited {m : UInt8 × Bytes} (hbuf : Limited s.hsBuf)
    (h : readHandshakeLoop n s = .ok m s') :
    m.2.length ≤ maxHandshakeMsg ∧ s'.hsBuf.length < 2 ^ 14 := by
  induction n generalizing s with
  | zero => cases h
  | succ n ih =>
      cases round n s with
      | took _ hnext _ hloop =>
          cases hloop.symm.trans h
          obtain ⟨heq, hbody⟩ := nextBuffered_some hnext
          rw [heq] at hbuf
          exact ⟨hbody, hbuf.rest hbody⟩
      | oversized _ _ hloop | failed _ _ _ hloop | foreign _ _ _ _ hloop =>
          cases hloop.symm.trans h
      | @data payload layer hinc hread _ hloop =>
          obtain ⟨-, -, -, -, -, -, -, -, -, -, hpayload, -⟩ := Layer.readRecord_ok hread
          rw [hloop] at h
          exact ih (.inr ⟨s.hsBuf, payload, hinc, hpayload, rfl⟩) h

/-- **A call that fails** leaves a buffer that no message can be taken from. -/
theorem readHandshakeLoop_held {e : Err} (hrounds : s.layer.input.length < n)
    (h : readHandshakeLoop n s = .error e s') : Held s'.hsBuf := by
  induction n generalizing s with
  | zero => omega
  | succ n ih =>
      cases round n s with
      | took _ _ _ hloop => cases hloop.symm.trans h
      | oversized hover _ hloop =>
          cases hloop.symm.trans h
          exact .inr (.inr hover)
      | failed hinc _ _ hloop | foreign hinc _ _ _ hloop =>
          cases hloop.symm.trans h
          exact .inr (.inl hinc)
      | @data payload layer _ hread _ hloop =>
          have hlt := Layer.readRecord_input_lt hread
          exact ih (by show layer.input.length < n; omega) (hloop.symm.trans h)

/-- **An oversized header is refused** in the state in which it is complete: nothing more is read. -/
theorem readHandshakeLoop_oversized {payload : Bytes} {layer : Layer}
    (hrounds : s.layer.input.length < n) (ht : t ∈ recordCalls n s)
    (hread : t.layer.readRecord = (.ok (contentTypeHandshake, payload), layer))
    (hover : Oversized (t.hsBuf ++ payload)) :
    readHandshakeLoop n s = .error (oversizedErr (t.hsBuf ++ payload)) (t.receive payload layer) := by
  induction n generalizing s with
  | zero => cases ht
  | succ n ih =>
      cases round n s with
      | took _ _ hcalls _ | oversized _ hcalls _ =>
          rw [hcalls] at ht
          cases ht
      | failed _ hfail hcalls _ =>
          rw [hcalls] at ht
          obtain rfl := List.mem_singleton.mp ht
          cases hfail.symm.trans hread
      | foreign _ hother hct hcalls _ =>
          rw [hcalls] at ht
          obtain rfl := List.mem_singleton.mp ht
          cases hother.symm.trans hread
          exact absurd rfl hct
      | @data payload' layer' _ hdata hcalls hloop =>
          have hlt := Layer.readRecord_input_lt hdata
          rw [hloop]
          rw [hcalls] at ht
          rcases List.mem_cons.mp ht with rfl | ht
          · cases hdata.symm.trans hread
            obtain ⟨n, rfl⟩ : ∃ k, n = k + 1 := ⟨n - 1, by omega⟩
            exact readHandshakeLoop_refuse hover
          · exact ih (by show layer'.input.length < n; omega) ht

end

/-- What holds of a call of `readHandshakeRecord` in this state. -/
structure Bounded (s : ClientState) : Prop where
  /-- Whenever it calls `ReadRecord`, the buffer is short of a message. -/
  waiting : ∀ t ∈ s.recordCalls, t.hsBuf.length ≤ maxHandshakeMsg + 3
  /-- A message it returns is bounded, and so is what stays in the buffer. -/
  returned : ∀ msgType body s', readHandshakeRecord s = .ok (msgType, body) s' →
    body.length ≤ maxHandshakeMsg ∧ s'.hsBuf.length < 2 ^ 14
  /-- An oversized header that is already there is refused without a read. -/
  refused : Oversized s.hsBuf →
    s.recordCalls = [] ∧ readHandshakeRecord s = .error (oversizedErr s.hsBuf) s
  /-- One that a record completes is refused without another. -/
  refused_after : ∀ t ∈ s.recordCalls, ∀ payload layer,
    t.layer.readRecord = (.ok (contentTypeHandshake, payload), layer) → Oversized (t.hsBuf ++ payload) →
    readHandshakeRecord s = .error (oversizedErr (t.hsBuf ++ payload)) (t.receive payload layer)

theorem bounded {s : ClientState} (h : Held s.hsBuf) : Bounded s where
  waiting t ht := (incomplete_of_mem_recordCalls ht).length_le
  returned _ _ _ hok := readHandshakeLoop_limited (.inl h) hok
  refused hover := by
    refine ⟨?_, readHandshakeLoop_refuse hover⟩
    simp only [ClientState.recordCalls, recordCalls, nextBuffered_oversized hover]
  refused_after t ht payload layer hread hover :=
    readHandshakeLoop_oversized (Nat.lt_succ_self _) ht hread hover

/-- Whichever way a call ends, the next one can count on the same. -/
theorem held_readHandshakeRecord {s : ClientState} (h : Held s.hsBuf) :
    Held (endState readHandshakeRecord s).hsBuf := by
  cases hm : readHandshakeRecord s with
  | ok m s' =>
      rw [endState_ok hm]
      exact .inl (readHandshakeLoop_limited (.inl h) hm).2
  | error e s' =>
      rw [endState_error hm]
      exact readHandshakeLoop_held (Nat.lt_succ_self _) hm

/-! ## Progress -/

/-- An empty record of handshake data arrives while the message is incomplete. -/
def Stalling (l : Layer) (buf : Bytes) : Prop :=
  ∃ ps, Delivers l (ps ++ [[]]) ∧ ∀ qs, qs <+: ps → Incomplete (buf ++ qs.flatten)

section

variable {n : Nat} {s : ClientState} {l layer : Layer} {buf payload : Bytes}

theorem Stalling.incomplete (h : Stalling l buf) : Incomplete buf := by
  obtain ⟨ps, -, hinc⟩ := h
  simpa using hinc [] List.nil_prefix

theorem Stalling.reads (h : Stalling l buf) :
    ∃ payload layer, l.readRecord = (.ok (contentTypeHandshake, payload), layer) := by
  obtain ⟨ps, hdel, -⟩ := h
  cases ps with
  | nil =>
      obtain ⟨layer, hread, -⟩ := hdel
      exact ⟨[], layer, hread⟩
  | cons p ps =>
      obtain ⟨layer, hread, -⟩ := hdel
      exact ⟨p, layer, hread⟩

/-- The next record is the empty one, or it comes later. -/
theorem stalling_iff (hinc : Incomplete buf)
    (hread : l.readRecord = (.ok (contentTypeHandshake, payload), layer)) :
    Stalling l buf ↔ payload = [] ∨ Stalling layer (buf ++ payload) := by
  constructor
  · rintro ⟨ps, hdel, hps⟩
    cases ps with
    | nil =>
        obtain ⟨_, hfirst, -⟩ := hdel
        cases hread.symm.trans hfirst
        exact .inl rfl
    | cons p ps =>
        obtain ⟨_, hfirst, hrest⟩ := hdel
        cases hread.symm.trans hfirst
        refine .inr ⟨ps, hrest, ?_⟩
        intro qs hqs
        have := hps (payload :: qs) (List.cons_prefix_cons.mpr ⟨rfl, hqs⟩)
        rwa [List.flatten_cons, ← List.append_assoc] at this
  · rintro (rfl | ⟨ps, hdel, hps⟩)
    · refine ⟨[], ⟨layer, hread, trivial⟩, ?_⟩
      intro qs hqs
      rw [List.prefix_nil.mp hqs]
      simpa using hinc
    · refine ⟨payload :: ps, ⟨layer, hread, hdel⟩, ?_⟩
      intro qs hqs
      cases qs with
      | nil => simpa using hinc
      | cons q qs =>
          obtain ⟨rfl, htail⟩ := List.cons_prefix_cons.mp hqs
          rw [List.flatten_cons, ← List.append_assoc]
          exact hps qs htail

/-- The buffer grows from one `ReadRecord` to the next. -/
def Growing (calls : List ClientState) : Prop :=
  calls.IsChain (fun t u => t.hsBuf.length < u.hsBuf.length)

/-- A round that waits calls `ReadRecord` first. -/
theorem recordCalls_head (hinc : Incomplete s.hsBuf) : ∃ later, recordCalls (n + 1) s = s :: later := by
  cases round n s with
  | took hbuf _ _ _ => exact absurd hinc hbuf
  | oversized hover _ _ => exact absurd hover hinc.not_oversized
  | failed _ _ hcalls _ | foreign _ _ _ hcalls _ => exact ⟨[], hcalls⟩
  | data _ _ hcalls _ => exact ⟨_, hcalls⟩

/-- And nothing else comes first. -/
theorem head_recordCalls {t : ClientState} {later : List ClientState}
    (h : recordCalls n s = t :: later) : t = s := by
  cases n with
  | zero => cases h
  | succ n =>
      cases round n s with
      | took _ _ hcalls _ | oversized _ hcalls _ => cases hcalls.symm.trans h
      | failed _ _ hcalls _ | foreign _ _ _ hcalls _ | data _ _ hcalls _ =>
          cases hcalls.symm.trans h
          rfl

/-- A record with something in it keeps the buffer growing. -/
theorem growing_cons_receive (hne : payload ≠ []) :
    Growing (s :: recordCalls n (s.receive payload layer)) ↔
      Growing (recordCalls n (s.receive payload layer)) := by
  cases hcalls : recordCalls n (s.receive payload layer) with
  | nil => exact iff_of_true (.singleton s) .nil
  | cons t later =>
      obtain rfl := head_recordCalls hcalls
      have hlt : s.hsBuf.length < (s.receive payload layer).hsBuf.length := by
        show _ < (s.hsBuf ++ payload).length
        have hpos := List.length_pos_iff.mpr hne
        rw [List.length_append]
        omega
      exact List.isChain_cons_cons.trans (and_iff_right hlt)

/-- **Growth is what empty records break**, and nothing else does. -/
theorem growing_iff (hrounds : s.layer.input.length < n) :
    Growing (recordCalls n s) ↔ ¬ Stalling s.layer s.hsBuf := by
  induction n generalizing s with
  | zero => omega
  | succ n ih =>
      cases round n s with
      -- A round that ends the call has made one call of `ReadRecord` or none, and nothing can stall it.
      | took hbuf _ hcalls _ =>
          rw [hcalls]
          exact iff_of_true .nil (fun h => hbuf h.incomplete)
      | oversized hover hcalls _ =>
          rw [hcalls]
          exact iff_of_true .nil (fun h => h.incomplete.not_oversized hover)
      | failed _ hread hcalls _ =>
          rw [hcalls]
          refine iff_of_true (.singleton s) ?_
          intro h
          obtain ⟨_, _, hdata⟩ := h.reads
          cases hread.symm.trans hdata
      | foreign _ hread hct hcalls _ =>
          rw [hcalls]
          refine iff_of_true (.singleton s) ?_
          intro h
          obtain ⟨_, _, hdata⟩ := h.reads
          cases hread.symm.trans hdata
          exact hct rfl
      | @data payload layer hinc hread hcalls _ =>
          have hlt := Layer.readRecord_input_lt hread
          have hlater := ih (s := s.receive payload layer) (by show layer.input.length < n; omega)
          rw [hcalls, stalling_iff hinc hread, not_or]
          by_cases hempty : payload = []
          · -- Nothing was added, so the loop asks again with the buffer it had.
            subst hempty
            obtain ⟨n, rfl⟩ : ∃ k, n = k + 1 := ⟨n - 1, by omega⟩
            have hsame : (s.receive [] layer).hsBuf = s.hsBuf := List.append_nil _
            obtain ⟨later, hhead⟩ : ∃ later, recordCalls (n + 1) (s.receive [] layer) =
                s.receive [] layer :: later := recordCalls_head (hsame.symm ▸ hinc)
            refine iff_of_false ?_ (fun h => h.1 rfl)
            intro hgrow
            rw [hhead] at hgrow
            have hlt := (List.isChain_cons_cons.mp hgrow).1
            rw [hsame] at hlt
            exact Nat.lt_irrefl _ hlt
          · rw [growing_cons_receive hempty, hlater]
            exact (and_iff_right hempty).symm

/-- While the buffer grows, the calls are bounded by what it can still take. -/
theorem recordCalls_length (hgrow : Growing (recordCalls n s)) :
    recordCalls n s = [] ∨ (recordCalls n s).length + s.hsBuf.length ≤ maxHandshakeMsg + 4 := by
  induction n generalizing s with
  | zero => exact .inl rfl
  | succ n ih =>
      cases round n s with
      | took _ _ hcalls _ | oversized _ hcalls _ => exact .inl hcalls
      | failed hinc _ hcalls _ | foreign hinc _ _ hcalls _ =>
          have hlen := hinc.length_le
          rw [hcalls]
          refine .inr ?_
          simp only [List.length_singleton]
          omega
      | @data payload layer hinc _ hcalls _ =>
          have hlen := hinc.length_le
          rw [hcalls] at hgrow ⊢
          refine .inr ?_
          cases hlater : recordCalls n (s.receive payload layer) with
          | nil =>
              simp only [List.length_singleton]
              omega
          | cons t later =>
              obtain rfl := head_recordCalls hlater
              rw [hlater] at hgrow
              obtain ⟨hlt, hrest⟩ := List.isChain_cons_cons.mp hgrow
              rcases ih (hlater.symm ▸ hrest) with hnil | hle
              · rw [hnil] at hlater
                cases hlater
              · rw [hlater] at hle
                simp only [List.length_cons] at hle ⊢
                omega

/-- Every record read is one of a call of `ReadRecord`. -/
theorem reads_readHandshakeLoop (n : Nat) (s : ClientState) :
    (reads (endState (readHandshakeLoop n) s).trace).length ≤
      (reads s.trace).length + (recordCalls n s).length := by
  induction n generalizing s with
  | zero => exact Nat.le_refl _
  | succ n ih =>
      cases round n s with
      | @took t body rest _ _ hcalls hloop =>
          rw [endState_ok hloop, hcalls]
          show (reads (s.trace ++ [.took t body])).length ≤ _
          simp [Event.asRead]
      | oversized _ hcalls hloop =>
          rw [endState_error hloop, hcalls]
          exact Nat.le_refl _
      | failed _ _ hcalls hloop =>
          rw [endState_error hloop, hcalls]
          exact Nat.le_succ _
      | @foreign ct payload layer _ _ _ _ hcalls hloop =>
          rw [endState_error hloop, hcalls]
          show (reads (s.trace ++ [.read ⟨s.layer.recvProt, s.layer.recvSeq, ct, payload⟩])).length ≤ _
          simp [Event.asRead]
      | @data payload layer _ _ hcalls hloop =>
          have hlater := ih (s.receive payload layer)
          have hone : (reads (s.receive payload layer).trace).length = (reads s.trace).length + 1 := by
            show (reads (s.trace ++ [.read _])).length = _
            simp [Event.asRead]
          rw [endState_congr hloop, hcalls, List.length_cons]
          omega

end

/-- **A call of `readHandshakeRecord` that makes progress**: the buffer grows from one `ReadRecord` to the
    next, and there are no more of them than there are bytes in the longest message. -/
structure Advances (s : ClientState) : Prop where
  growing : Growing s.recordCalls
  bounded : (reads (endState readHandshakeRecord s).trace).length ≤
    (reads s.trace).length + (maxHandshakeMsg + 4)

/-- **A call makes progress unless it is stalled** by an empty record. -/
theorem advances_iff (s : ClientState) : Advances s ↔ ¬ Stalling s.layer s.hsBuf := by
  have hgrowing : Growing s.recordCalls ↔ ¬ Stalling s.layer s.hsBuf :=
    growing_iff (Nat.lt_succ_self _)
  rw [← hgrowing]
  constructor
  · exact Advances.growing
  · intro hgrow
    refine ⟨hgrow, ?_⟩
    have hreads := reads_readHandshakeLoop (s.layer.input.length + 1) s
    have hcalls : s.recordCalls.length ≤ maxHandshakeMsg + 4 := by
      rcases recordCalls_length hgrow with hnil | hle
      · rw [ClientState.recordCalls, hnil]
        exact Nat.zero_le _
      · exact (Nat.le_add_right _ _).trans hle
    exact hreads.trans (Nat.add_le_add_left hcalls _)

/-! ## A peer that stalls -/

/-- An empty record of handshake data, unprotected. -/
def emptyRecord : Bytes := [22, 3, 3, 0, 0]

theorem readRecord_emptyRecord {l : Layer} {rest : Reader} (hseq : l.recvSeq ≠ maxUint64)
    (hprot : l.recvProt = .null) (hinput : l.input = ofBytes emptyRecord ++ rest) :
    l.readRecord = (.ok (contentTypeHandshake, []), { l with input := rest, recvSeq := l.recvSeq + 1 }) := by
  have hopen : l.recvProt.open l.recvSeq ⟨22, 3, 3, 0, 0⟩ [] = (.ok [], l.recvProt) := by
    rw [hprot]
    rfl
  have hframe : l.input = ofBytes ((⟨22, 3, 3, 0, 0⟩ : Header).bytes ++ []) ++ rest := hinput
  exact Layer.readRecord_eq hseq hframe (by decide) (by decide) hopen (by simp)

/-- **However many empty records there are, one call reads them all.** -/
theorem reads_emptyRecords (k : Nat) {n : Nat} {s : ClientState} (hprot : s.layer.recvProt = .null)
    (hseq : s.layer.recvSeq.toNat + k < 2 ^ 64) (hbuf : s.hsBuf = [])
    (hinput : s.layer.input = ofBytes (List.replicate k emptyRecord).flatten) (hn : k ≤ n) :
    (reads s.trace).length + k ≤ (reads (endState (readHandshakeLoop n) s).trace).length := by
  induction k generalizing s n with
  | zero =>
      obtain ⟨es, _, _, hend, -⟩ := readHandshakeLoop_frame n s
      rw [hend]
      show _ ≤ (reads (s.trace ++ es)).length
      rw [reads_append, List.length_append]
      omega
  | succ k ih =>
      obtain ⟨n, rfl⟩ : ∃ m, n = m + 1 := ⟨n - 1, by omega⟩
      have hne : s.layer.recvSeq ≠ maxUint64 := ne_maxUint64_of_lt (by omega)
      have hfirst : s.layer.input =
          ofBytes emptyRecord ++ ofBytes (List.replicate k emptyRecord).flatten := by
        rw [hinput, List.replicate_succ, List.flatten_cons, ofBytes_append]
      have hread := readRecord_emptyRecord hne hprot hfirst
      have hnext : nextBuffered s.hsBuf = .ok none := by
        rw [hbuf]
        rfl
      generalize hlayer : ({ s.layer with
        input := ofBytes (List.replicate k emptyRecord).flatten
        recvSeq := s.layer.recvSeq + 1 } : Layer) = layer at hread
      have hseq' : layer.recvSeq.toNat + k < 2 ^ 64 := by
        rw [← hlayer]
        show (s.layer.recvSeq + 1).toNat + k < _
        rw [toNat_succ hne]
        omega
      have hlater := ih (s := s.receive [] layer) (n := n) (hlayer ▸ hprot) hseq'
        ((List.append_nil _).trans hbuf) (hlayer ▸ rfl) (by omega)
      have hone : (reads (s.receive [] layer).trace).length = (reads s.trace).length + 1 := by
        show (reads (s.trace ++ [.read _])).length = _
        simp [Event.asRead]
      rw [endState_congr (readHandshakeLoop_read hnext hread)]
      omega

/-- A client over `n` empty records. -/
def stalledClient (n : Nat) : ClientState :=
  newClientState (newLayer (ofBytes (List.replicate n emptyRecord).flatten) ⟨[], []⟩
    ⟨fun _ => .ok 0, 0⟩) none .sample

theorem reads_stalledClient {n : Nat} (hn : n < 2 ^ 64) :
    n ≤ (reads (endState readHandshakeRecord (stalledClient n)).trace).length := by
  have hrounds : n ≤ (stalledClient n).layer.input.length + 1 := by
    show n ≤ (ofBytes (List.replicate n emptyRecord).flatten).length + 1
    rw [ofBytes_length, List.length_flatten, List.map_replicate, List.sum_replicate_nat]
    simp only [emptyRecord, List.length_cons, List.length_nil]
    omega
  have hseq : (stalledClient n).layer.recvSeq.toNat + n < 2 ^ 64 := by
    show (0 : UInt64).toNat + n < _
    rw [show (0 : UInt64).toNat = 0 from rfl]
    omega
  have hreads := reads_emptyRecords n (s := stalledClient n) rfl hseq rfl rfl hrounds
  exact (Nat.le_add_left _ _).trans hreads

/-- **Empty records keep a call reading**: with one more of them than a call may need, it reads them
    all. -/
theorem empty_records_stall :
    maxHandshakeMsg + 4 <
        (reads (endState readHandshakeRecord (stalledClient (maxHandshakeMsg + 5))).trace).length ∧
      ¬ Advances (stalledClient (maxHandshakeMsg + 5)) := by
  have hmany := reads_stalledClient (n := maxHandshakeMsg + 5) (by unfold maxHandshakeMsg; omega)
  refine ⟨hmany, ?_⟩
  intro h
  have hbound := h.bounded
  have hnone : (reads (stalledClient (maxHandshakeMsg + 5)).trace).length = 0 := rfl
  omega

end Gostls
