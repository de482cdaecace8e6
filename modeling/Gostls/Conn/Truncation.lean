import Gostls.Conn.ByteStream

/-!
# `Gostls.Conn.Truncation` — when `Read` reports the end of the stream

`io.EOF` tells the reader that the stream is complete. It is legitimate after a `close_notify`, or
when the transport ended exactly between two records. A record is read with two calls of
`io.ReadFull`, and the second reports `io.EOF` as well when the transport ends right behind a header:
the *seam* between header and fragment. There `Read` passes `io.EOF` on although the stream was cut
inside a record.

`eof_legitimate_iff` says that this is the only way: over any run of calls, every `io.EOF` is
legitimate if and only if no `ReadRecord` of the run starts at a seam.
-/

namespace Gostls

open Lib

/-- The stream consists of whole records: it ends at a record boundary. -/
inductive WholeRecords : Reader → Prop
  | nil : WholeRecords []
  | cons {hdr : Header} {fragment : Bytes} {rest : Reader} (hlen : hdr.length = fragment.length)
      (hrest : WholeRecords rest) : WholeRecords (ofBytes (hdr.bytes ++ fragment) ++ rest)

/-- Framing is unambiguous. -/
theorem framing_inj {hdr hdr' : Header} {fragment fragment' : Bytes} {rest rest' : Reader}
    (hlen : hdr.length = fragment.length) (hlen' : hdr'.length = fragment'.length)
    (h : ofBytes (hdr.bytes ++ fragment) ++ rest = ofBytes (hdr'.bytes ++ fragment') ++ rest') :
    rest = rest' := by
  rw [ofBytes_append, ofBytes_append, List.append_assoc, List.append_assoc] at h
  obtain ⟨hh, hr⟩ := List.append_inj h (by simp)
  have hhdr : hdr = hdr' := by
    rw [← Header.ofBytes_bytes hdr, ofBytes_inj hh, Header.ofBytes_bytes]
  subst hhdr
  exact (List.append_inj hr (by simp [← hlen, hlen'])).2

/-- Taking a record off the front does not change whether the rest are whole. -/
theorem wholeRecords_cons {hdr : Header} {fragment : Bytes} {rest : Reader}
    (hlen : hdr.length = fragment.length) :
    WholeRecords (ofBytes (hdr.bytes ++ fragment) ++ rest) ↔ WholeRecords rest := by
  constructor
  · intro h
    generalize hs : ofBytes (hdr.bytes ++ fragment) ++ rest = stream at h
    cases h with
    | nil => simp [Header.bytes] at hs
    | cons hlen' hrest => rwa [framing_inj hlen hlen' hs]
  · exact .cons hlen

theorem not_wholeRecords_header (hdr : Header) (h : 0 < hdr.length) :
    ¬ WholeRecords (ofBytes hdr.bytes) := by
  intro hw
  generalize hs : ofBytes hdr.bytes = stream at hw
  cases hw with
  | nil => simp [Header.bytes] at hs
  | @cons hdr' fragment rest hlen hrest =>
      have hcount := congrArg List.length hs
      simp only [ofBytes_length, Header.bytes_length, List.length_append] at hcount
      have hfrag : fragment = [] := List.length_eq_zero_iff.mp (by omega)
      subst hfrag
      have hrest' : rest = [] := List.length_eq_zero_iff.mp (by omega)
      subst hrest'
      simp only [List.append_nil] at hs
      have hhdr : hdr = hdr' := by
        rw [← Header.ofBytes_bytes hdr, ofBytes_inj hs, Header.ofBytes_bytes]
      rw [hhdr, hlen] at h
      exact Nat.lt_irrefl 0 h

/-! ## The seam -/

/-- The transport ends right behind the header of a record with a non-empty fragment. -/
def Layer.AtSeam (l : Layer) : Prop :=
  l.recvSeq ≠ maxUint64 ∧ ∃ hdr, l.input = ofBytes hdr.bytes ∧
    Layer.checkHeader hdr = .ok () ∧ 0 < hdr.length

/-- **When `ReadRecord` reports `io.EOF`**: at the end of the stream, or at a seam. -/
theorem Layer.readRecord_eof {l l' : Layer} (h : l.readRecord = (.error .eof, l')) :
    l.input = [] ∨ l.AtSeam := by
  have hout := Layer.readRecord_outcome l
  rw [h] at hout
  generalize hres : (Except.error Err.eof : Except Err (UInt8 × Bytes)) = res at hout
  cases hout with
  | overflow | overlong _ | opened _ _ _ _ _ _ => cases hres
  | cutHeader hread =>
      cases hres
      exact .inl (readFull_eof hread).1
  | cutFragment hseq hinput hcheck hread =>
      cases hres
      obtain ⟨rfl, -, hpos⟩ := readFull_eof hread
      exact .inr ⟨hseq, _, by rw [hinput, List.append_nil], hcheck, hpos⟩
  -- Neither the checks nor a protector report the end of a stream.
  | badHeader hcheck =>
      cases hres
      exact absurd rfl (Layer.checkHeader_throws _ _ hcheck _)
  | @rejected hdr fragment _ _ _ hopen =>
      cases hres
      have hthrows := l.recvProt.open_throws l.recvSeq hdr fragment
      rw [hopen] at hthrows
      exact absurd rfl (hthrows _ rfl _)

/-- At a seam `ReadRecord` does report `io.EOF`. -/
theorem Layer.AtSeam.readRecord {l : Layer} (h : l.AtSeam) :
    ∃ l', l.readRecord = (.error .eof, l') := by
  obtain ⟨hseq, hdr, hinput, hcheck, hpos⟩ := h
  have hread : readFull recordHeaderLen l.input = (.ok hdr.bytes, []) := by
    rw [hinput, ← List.append_nil (ofBytes hdr.bytes), ← hdr.bytes_length, readFull_ofBytes]
  exact ⟨_, by simp only [Layer.readRecord, if_neg hseq, hread, Header.ofBytes_bytes, hcheck,
    readFull_nil hpos]; rfl⟩

namespace Conn

/-- A `ReadRecord` of the loop starts at a seam: the next one, or one behind empty records. -/
def loopAtSeam : Nat → Conn → Prop
  | 0, c => c.layer.AtSeam
  | budget + 1, c =>
    c.layer.AtSeam ∨ match c.readRecord with
      | (.ok (ct, []), c') => ct = contentTypeApplicationData ∧ loopAtSeam budget c'
      | _ => False

/-- A `ReadRecord` of a `Read` starts at a seam. -/
def ReadsAtSeam (c : Conn) : Prop :=
  c.closed = false ∧ c.readBuf = [] ∧ c.readErr = none ∧ c.loopAtSeam maxEmptyRecords

/-- A `close_notify` was among the records consumed. -/
def CloseNotified (c : Conn) : Prop :=
  ∃ level rest, (contentTypeAlert, level :: alertCloseNotify :: rest) ∈ c.consumed

/-- `io.EOF` is legitimate on a stream: a `close_notify` was received, or the stream ends at a record
    boundary. -/
def EofLegitimate (stream : Reader) (c : Conn) : Prop := c.CloseNotified ∨ WholeRecords stream

/-- Every `Read` of a run that reports `io.EOF` does so legitimately. -/
def EofsLegitimate (stream : Reader) : Conn → List ConnOp → Prop
  | _, [] => True
  | c, op :: ops =>
    (∀ n, op = .read n → (c.read n).1 = .error .eof → (c.read n).2.EofLegitimate stream) ∧
      EofsLegitimate stream (c.step op).2 ops

/-- No `ReadRecord` of a run starts at a seam. -/
def AvoidsSeam : Conn → List ConnOp → Prop
  | _, [] => True
  | c, op :: ops => (∀ n, op = .read n → ¬ c.ReadsAtSeam) ∧ AvoidsSeam (c.step op).2 ops

/-! ## The loop -/

/-- Reading goes on: what is left on the transport ends as the whole stream does, and no
    `close_notify` has been seen. -/
structure Reading (stream : Reader) (c : Conn) : Prop where
  whole : WholeRecords stream ↔ WholeRecords c.layer.input
  unnotified : ¬ c.CloseNotified

/-- **What a `Read` tells about the stream**: it goes on, it ended and then legitimately unless a
    seam was met, or it broke off. -/
structure Tells (stream : Reader) (seam : Prop) (res : Except Err Bytes) (c' : Conn) : Prop where
  data : res.isOk = true → Reading stream c' ∧ ¬ seam
  eof : res = .error .eof → (c'.EofLegitimate stream ↔ ¬ seam)
  fault : ∀ e, res = .error e → e ≠ .eof → ¬ seam

variable {stream : Reader} {c c' : Conn}

theorem appData_ne_alert : contentTypeApplicationData ≠ contentTypeAlert := by decide

/-- A record without a `close_notify` was taken off the stream. -/
theorem Reading.readRecord {rec : UInt8 × Bytes} (h : Reading stream c)
    (hrec : c.readRecord = (.ok rec, c')) (hct : rec.1 ≠ contentTypeAlert) : Reading stream c' := by
  obtain ⟨layer, hl, rfl⟩ := readRecord_ok hrec
  obtain ⟨ct, payload⟩ := rec
  obtain ⟨-, hdr, fragment, rest, prot, hinput, -, -, hlen, -, -, rfl⟩ := Layer.readRecord_ok hl
  refine ⟨?_, ?_⟩
  · rw [h.whole, hinput, wholeRecords_cons hlen]
  · rintro ⟨level, tail, hmem⟩
    rcases List.mem_append.mp hmem with hmem | hmem
    · exact h.unnotified ⟨level, tail, hmem⟩
    · simp only [List.mem_singleton, Prod.mk.injEq] at hmem
      exact hct hmem.1.symm

/-- Where a record can be read there is no seam. -/
theorem not_atSeam_of_readRecord {rec : UInt8 × Bytes} (hrec : c.readRecord = (.ok rec, c')) :
    ¬ c.layer.AtSeam := by
  obtain ⟨layer, hl, -⟩ := readRecord_ok hrec
  intro hseam
  obtain ⟨l', hl'⟩ := hseam.readRecord
  rw [hl] at hl'
  cases hl'

/-- Behind a record that was read, the seam can only come later, after an empty record. -/
theorem loopAtSeam_iff {ct : UInt8} {payload : Bytes} {c₁ : Conn} {budget : Nat}
    (hrec : c.readRecord = (.ok (ct, payload), c₁)) :
    c.loopAtSeam budget ↔ ∃ k, budget = k + 1 ∧ ct = contentTypeApplicationData ∧ payload = [] ∧
      c₁.loopAtSeam k := by
  have hno := not_atSeam_of_readRecord hrec
  cases budget with
  | zero => simp [loopAtSeam, hno]
  | succ k => cases payload <;> simp [loopAtSeam, hrec, hno]

theorem Tells.broken {seam : Prop} {e : Err} (he : e ≠ .eof) (hs : ¬ seam) :
    Tells stream seam (.error e) c' :=
  ⟨fun h => (by cases h), fun h => absurd (Except.error.inj h) he, fun _ _ _ => hs⟩

theorem Tells.ended {seam : Prop} (h : c'.EofLegitimate stream ↔ ¬ seam) :
    Tells stream seam (.error .eof) c' :=
  ⟨fun h => (by cases h), fun _ => h, fun _ he hne => absurd (Except.error.inj he).symm hne⟩

/-- An alert ends the stream if it is a `close_notify`, and breaks it otherwise. -/
theorem readAlert_tells {seam : Prop} {payload : Bytes} (hs : ¬ seam)
    (hmem : (contentTypeAlert, payload) ∈ c.consumed) :
    Tells stream seam (c.readAlert payload).1 (c.readAlert payload).2 := by
  unfold readAlert
  split
  · exact .broken (by simp [errAlertTruncated]) hs
  · rename_i hlen
    simp only [alertMinLen, Nat.not_lt] at hlen
    obtain ⟨level, desc, rest, rfl⟩ : ∃ level desc rest, payload = level :: desc :: rest := by
      match payload, hlen with
      | level :: desc :: rest, _ => exact ⟨level, desc, rest, rfl⟩
    simp only [decodeAlert, index_cons_zero, index_cons_succ, ok_bind, pure_eq]
    split
    · rename_i hdesc
      subst hdesc
      exact .ended ⟨fun _ => hs, fun _ => .inl ⟨level, rest, hmem⟩⟩
    · exact .broken (by simp [Err.errorf]) hs

/-- A record that cannot be read ends the stream, truthfully unless at a seam, or breaks it. -/
theorem readRecord_error_tells {e : Err} {c₁ : Conn} (h : Reading stream c)
    (hrec : c.readRecord = (.error e, c₁)) (hcons : c'.consumed = c.consumed) :
    Tells stream c.layer.AtSeam (.error e) c' := by
  obtain ⟨layer, hl, -⟩ := readRecord_error hrec
  by_cases he : e = .eof
  · subst he
    apply Tells.ended
    rw [EofLegitimate, CloseNotified, hcons, h.whole]
    rcases Layer.readRecord_eof hl with hnil | hat
    · have hno : ¬ c.layer.AtSeam := by
        rintro ⟨-, hdr, hin, -⟩
        rw [hnil] at hin
        simp [Header.bytes] at hin
      rw [hnil]
      exact ⟨fun _ => hno, fun _ => .inr .nil⟩
    · -- At a seam a header is left, which is no whole record.
      obtain ⟨-, hdr, hin, -, hpos⟩ := id hat
      rw [hin]
      constructor
      · rintro (hn | hw)
        · exact absurd hn h.unnotified
        · exact absurd hw (not_wholeRecords_header _ hpos)
      · intro hno
        exact absurd hat hno
  · apply Tells.broken he
    intro hat
    obtain ⟨l', hl'⟩ := hat.readRecord
    rw [hl] at hl'
    cases hl'
    exact he rfl

/-- **The loop of `Read` tells the truth about the stream**, except at a seam. -/
theorem readLoop_tells (n budget : Nat) (h : Reading stream c) :
    Tells stream (c.loopAtSeam budget) (c.readLoop n budget).1 (c.readLoop n budget).2 := by
  fun_induction readLoop n budget c with
  | case1 budget c e c₁ hrec =>
      have hseam : c.loopAtSeam budget ↔ c.layer.AtSeam := by
        cases budget <;> simp [loopAtSeam, hrec]
      rw [hseam]
      obtain ⟨layer, -, rfl⟩ := readRecord_error hrec
      exact readRecord_error_tells h hrec rfl
  | case2 c payload c₁ hempty hrec =>
      refine .broken (by simp [errTooManyEmptyRecords]) ?_
      rw [loopAtSeam_iff hrec]
      simp
  | case3 c payload c₁ hempty budget hrec ih =>
      have hseam : c.loopAtSeam (budget + 1) ↔ c₁.loopAtSeam budget := by
        rw [loopAtSeam_iff hrec]
        simp [List.length_eq_zero_iff.mp hempty]
      rw [hseam]
      exact ih (h.readRecord hrec appData_ne_alert)
  | case4 budget c payload c₁ hne hrec =>
      refine ⟨fun _ => ⟨?_, ?_⟩, fun he => (by cases he), fun e he => (by cases he)⟩
      · have hr := h.readRecord hrec appData_ne_alert
        exact ⟨hr.whole, hr.unnotified⟩
      · rw [loopAtSeam_iff hrec]
        rintro ⟨k, -, -, rfl, -⟩
        exact hne rfl
  | case5 budget c payload c₁ hrec hct =>
      have hs : ¬ c.loopAtSeam budget := by
        rw [loopAtSeam_iff hrec]
        rintro ⟨k, -, hct', -⟩
        exact hct hct'
      obtain ⟨layer, -, rfl⟩ := readRecord_ok hrec
      exact readAlert_tells hs (by simp)
  | case6 budget c ct payload c₁ hrec hct hct' =>
      refine .broken (by simp [Err.errorf]) ?_
      rw [loopAtSeam_iff hrec]
      rintro ⟨k, -, hct'', -⟩
      exact hct hct''

/-! ## Runs -/

/-- What a run knows between two calls: the read side is still going, it ended legitimately, or it
    broke off. -/
structure Tracks (stream : Reader) (c : Conn) : Prop where
  handshake : c.handshakeDone = some (.ok ())
  going : c.readErr = none → Reading stream c
  ended : c.readErr = some .eof → c.EofLegitimate stream

theorem Tracks.of_same (h : Tracks stream c) (hs : SameRead c c')
    (hin : c'.layer.input = c.layer.input) : Tracks stream c' := by
  refine ⟨hs.handshake.trans h.handshake, fun he => ?_, fun he => ?_⟩
  · obtain ⟨hw, hn⟩ := h.going (hs.readErr ▸ he)
    refine ⟨by rw [hw, hin], ?_⟩
    rw [CloseNotified, hs.consumed]
    exact hn
  · have := h.ended (hs.readErr ▸ he)
    rw [EofLegitimate, CloseNotified] at this ⊢
    rwa [hs.consumed]

/-- **One `Read`**: it reports an illegitimate `io.EOF` exactly at a seam, and otherwise the run goes
    on as before. -/
theorem Tracks.read (h : Tracks stream c) (n : Nat) :
    (c.ReadsAtSeam ∧ (c.read n).1 = .error .eof ∧ ¬ (c.read n).2.EofLegitimate stream) ∨
    (¬ c.ReadsAtSeam ∧ ((c.read n).1 = .error .eof → (c.read n).2.EofLegitimate stream) ∧
      Tracks stream (c.read n).2) := by
  rcases read_cases h.handshake n with
    ⟨hcl, hr⟩ | ⟨-, hbuf, hr⟩ | ⟨e, -, -, herr, hr⟩ | ⟨hcl, hbuf, herr, hr⟩
  · rw [hr]
    refine .inr ⟨?_, by simp [errConnClosed], h⟩
    rintro ⟨hopen, -⟩
    rw [hcl] at hopen
    cases hopen
  · rw [hr]
    refine .inr ⟨fun hs => hbuf hs.2.1, by simp, h.handshake, fun he => ?_, h.ended⟩
    exact ⟨(h.going he).whole, (h.going he).unnotified⟩
  · rw [hr]
    refine .inr ⟨?_, fun he => ?_, h⟩
    · rintro ⟨-, -, hnone, -⟩
      rw [herr] at hnone
      cases hnone
    · exact h.ended (by rw [herr, Except.error.inj he])
  · have hseam : c.ReadsAtSeam ↔ c.loopAtSeam maxEmptyRecords := by
      simp [ReadsAtSeam, hcl, hbuf, herr]
    have ht := readLoop_tells n maxEmptyRecords (h.going herr)
    have hout := readLoop_outcome n maxEmptyRecords hbuf
    rw [← hr] at ht hout
    rw [hseam]
    generalize c.read n = r at ht hout
    obtain ⟨res, c'⟩ := r
    cases hout with
    | data rest err data =>
        obtain ⟨hread, hno⟩ := ht.data rfl
        refine .inr ⟨hno, fun he => (by cases he), rest.handshake.trans h.handshake, fun _ => hread, ?_⟩
        intro he
        rw [err, herr] at he
        cases he
    | @fail e _ rest err buf data =>
        by_cases he : e = .eof
        · subst he
          by_cases hs : c.loopAtSeam maxEmptyRecords
          · exact .inl ⟨hs, rfl, fun hl => (ht.eof rfl).mp hl hs⟩
          · have hl := (ht.eof rfl).mpr hs
            refine .inr ⟨hs, fun _ => hl, rest.handshake.trans h.handshake, fun hn => ?_, fun _ => hl⟩
            rw [err] at hn
            cases hn
        · refine .inr ⟨ht.fault e rfl he, fun h' => absurd (Except.error.inj h') he,
            rest.handshake.trans h.handshake, fun hn => ?_, fun hn => ?_⟩
          · rw [err] at hn
            cases hn
          · rw [err] at hn
            exact absurd (Option.some.inj hn) he

theorem writeRecord_input (ct : UInt8) (payload : Bytes) (c : Conn) :
    (c.writeRecord ct payload).2.layer.input = c.layer.input := by
  have h := c.layer.writeRecord_input ct payload
  unfold writeRecord
  split
  · rename_i u layer hw
    rw [hw] at h
    exact h
  · rename_i e layer hw
    rw [hw] at h
    exact h

theorem writeLoop_input (rounds written : Nat) (b : Bytes) (c : Conn) :
    (c.writeLoop rounds written b).2.layer.input = c.layer.input := by
  fun_induction writeLoop rounds written b c with
  | case1 => rfl
  | case2 => rfl
  | case3 rounds written b c hb chunk e c₁ hw =>
      have := writeRecord_input contentTypeApplicationData chunk c
      rwa [hw] at this
  | case4 rounds written b c hb chunk u c₁ hw ih =>
      have := writeRecord_input contentTypeApplicationData chunk c
      rw [hw] at this
      rw [ih, this]

theorem write_input (hd : c.handshakeDone = some (.ok ())) (b : Bytes) :
    (c.write b).2.layer.input = c.layer.input := by
  unfold write
  rw [handshake_done hd]
  simp only
  split
  · rfl
  · exact writeLoop_input ..

theorem close_input (c : Conn) : c.close.2.layer.input = c.layer.input := by
  unfold close
  split
  · rfl
  · simp only
    split
    · exact writeRecord_input contentTypeAlert _ { c with closed := true }
    · rfl

/-- The run lemma: up to the first seam, every `io.EOF` is legitimate; the one at a seam is not. -/
theorem Tracks.run (h : Tracks stream c) (ops : List ConnOp) :
    c.EofsLegitimate stream ops ↔ c.AvoidsSeam ops := by
  induction ops generalizing c with
  | nil => simp [EofsLegitimate, AvoidsSeam]
  | cons op ops ih =>
      cases op with
      | read n =>
          simp only [EofsLegitimate, AvoidsSeam, ConnOp.read.injEq, forall_eq', step]
          rcases h.read n with ⟨hs, heof, hl⟩ | ⟨hs, hl, ht⟩
          · constructor
            · intro hall
              exact absurd (hall.1 heof) hl
            · intro hall
              exact absurd hs (hall.1)
          · rw [ih ht]
            constructor
            · intro hall
              exact ⟨hs, hall.2⟩
            · intro hall
              exact ⟨hl, hall.2⟩
      | write b =>
          have ht := h.of_same (write_wrote h.handshake b).same (write_input h.handshake b)
          simp [EofsLegitimate, AvoidsSeam, step, ih ht]
      | close =>
          have ht := h.of_same (close_same c) (close_input c)
          simp [EofsLegitimate, AvoidsSeam, step, ih ht]

end Conn

/-- **When `io.EOF` can be trusted.** Over any sequence of calls on an established connection and any
    transport stream, every `io.EOF` that `Read` reports comes after a `close_notify` or at a record
    boundary, if and only if no record read starts where the stream ends between a header and its
    fragment. -/
theorem eof_legitimate_iff (c : Conn) (hc : c.Established) (ops : List ConnOp) :
    c.EofsLegitimate c.layer.input ops ↔ c.AvoidsSeam ops := by
  refine Conn.Tracks.run ⟨hc.handshake, fun _ => ⟨Iff.rfl, ?_⟩, fun he => ?_⟩ ops
  · rintro ⟨level, rest, hmem⟩
    rw [hc.consumed] at hmem
    cases hmem
  · rw [hc.readErr] at he
    cases he

/-- The characterisation at a stream of one whole record. -/
theorem eof_legitimate_iff_whole_record :
    Conn.EofsLegitimate (Conn.over [23, 3, 3, 0, 1, 7]).layer.input (.over [23, 3, 3, 0, 1, 7])
        [.read 4, .read 4] ↔
      Conn.AvoidsSeam (.over [23, 3, 3, 0, 1, 7]) [.read 4, .read 4] :=
  eof_legitimate_iff _ ⟨rfl, rfl, rfl, rfl, rfl, rfl⟩ _

/-- **A stream cut behind a header reads as complete**: five bytes of a fragment are announced, none
    arrives, and `Read` reports `io.EOF`. -/
theorem truncated_record_reads_as_eof :
    ((Conn.over [23, 3, 3, 0, 5]).read 16).1 = .error .eof ∧
      ¬ ((Conn.over [23, 3, 3, 0, 5]).read 16).2.EofLegitimate
        (Conn.over [23, 3, 3, 0, 5]).layer.input := by
  refine ⟨rfl, ?_⟩
  rintro (⟨level, rest, hmem⟩ | hw)
  · cases hmem
  · exact not_wholeRecords_header ⟨23, 3, 3, 0, 5⟩ (by decide) hw

end Gostls
