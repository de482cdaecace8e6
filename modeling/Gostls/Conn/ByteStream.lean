import Gostls.Conn.Basic

/-!
# `Gostls.Conn.ByteStream` — the connection as a byte stream

What an established connection promises its caller, over any sequence of calls and any behaviour of
the transport: no byte of application data is lost, duplicated or reordered on the way to the reader,
a read error is final and comes after all data, and `Write` reports exactly the bytes whose records
were written whole, with nothing else on the wire but part of one more record. The promises are
assembled in `conn_byte_stream`.

`read_cases` and `readLoop_outcome` say once what a `Read` can do, `Emits` and `Wrote` what is written;
everything about runs is derived from them.
-/

namespace Gostls

open Lib

/-- The application data among some records. -/
def appData (recs : List (UInt8 × Bytes)) : Bytes :=
  recs.flatMap (fun r => if r.1 = contentTypeApplicationData then r.2 else [])

@[simp] theorem appData_append (a b : List (UInt8 × Bytes)) :
    appData (a ++ b) = appData a ++ appData b := List.flatMap_append

@[simp] theorem appData_singleton (r : UInt8 × Bytes) :
    appData [r] = if r.1 = contentTypeApplicationData then r.2 else [] := by simp [appData]

/-- The bytes a sequence of calls returned to the reader. -/
def returned (results : List ConnResult) : Bytes :=
  results.flatMap (fun
    | .read (.ok b) => b
    | _             => [])

namespace Conn

/-- A connection right after a successful handshake. -/
structure Established (c : Conn) : Prop where
  handshake : c.handshakeDone = some (.ok ())
  closed : c.closed = false
  readBuf : c.readBuf = []
  readErr : c.readErr = none
  consumed : c.consumed = []
  emitted : c.emitted = []

variable {c c' : Conn}

theorem handshake_done (h : c.handshakeDone = some (.ok ())) : c.handshake = (.ok (), c) := by
  simp only [handshake, h]

/-! ## What a `Read` does -/

theorem readRecord_ok {rec : UInt8 × Bytes} (h : c.readRecord = (.ok rec, c')) :
    ∃ layer, c.layer.readRecord = (.ok rec, layer) ∧
      c' = { c with layer, consumed := c.consumed ++ [rec] } := by
  unfold readRecord at h
  split at h
  · rename_i rec' layer hl
    cases h
    exact ⟨layer, hl, rfl⟩
  · cases h

theorem readRecord_readBuf {rec : UInt8 × Bytes} (h : c.readRecord = (.ok rec, c'))
    (hbuf : c.readBuf = []) : c'.readBuf = [] := by
  obtain ⟨layer, -, rfl⟩ := readRecord_ok h
  exact hbuf

theorem readRecord_error {e : Err} (h : c.readRecord = (.error e, c')) :
    ∃ layer, c.layer.readRecord = (.error e, layer) ∧ c' = { c with layer } := by
  unfold readRecord at h
  split at h
  · cases h
  · rename_i e' layer hl
    cases h
    exact ⟨layer, hl, rfl⟩

/-- The part of a connection that reading does not touch. -/
structure SameRest (c c' : Conn) : Prop where
  handshake : c'.handshakeDone = c.handshakeDone
  closed : c'.closed = c.closed
  emitted : c'.emitted = c.emitted
  outbound : c'.layer.outbound = c.layer.outbound

theorem SameRest.trans {c₁ c₂ c₃ : Conn} (h : SameRest c₁ c₂) (h' : SameRest c₂ c₃) : SameRest c₁ c₃ :=
  ⟨h'.handshake.trans h.handshake, h'.closed.trans h.closed, h'.emitted.trans h.emitted,
    h'.outbound.trans h.outbound⟩

theorem readRecord_rest {res : Except Err (UInt8 × Bytes)} (h : c.readRecord = (res, c')) :
    SameRest c c' := by
  have hout := c.layer.readRecord_outbound
  cases res with
  | ok rec =>
      obtain ⟨layer, hl, rfl⟩ := readRecord_ok h
      rw [hl] at hout
      exact ⟨rfl, rfl, rfl, hout⟩
  | error e =>
      obtain ⟨layer, hl, rfl⟩ := readRecord_error h
      rw [hl] at hout
      exact ⟨rfl, rfl, rfl, hout⟩

/-- **What a `Read` did**, starting with an empty buffer: it returned data, the rest of which it
    keeps, or it failed for good with nothing kept. -/
inductive ReadOutcome (c : Conn) : Except Err Bytes → Conn → Prop
  | data {b : Bytes} {c' : Conn} (rest : SameRest c c') (err : c'.readErr = c.readErr)
      (data : appData c'.consumed = appData c.consumed ++ (b ++ c'.readBuf)) :
      ReadOutcome c (.ok b) c'
  | fail {e : Err} {c' : Conn} (rest : SameRest c c') (err : c'.readErr = some e)
      (buf : c'.readBuf = []) (data : appData c'.consumed = appData c.consumed) :
      ReadOutcome c (.error e) c'

/-- A consumed record without application data does not change what the rest of a `Read` does. -/
theorem ReadOutcome.after {c₁ : Conn} {rec : UInt8 × Bytes} {res : Except Err Bytes}
    (hrec : c.readRecord = (.ok rec, c₁)) (hdata : appData [rec] = [])
    (h : ReadOutcome c₁ res c') : ReadOutcome c res c' := by
  have hrest := readRecord_rest hrec
  obtain ⟨layer, -, rfl⟩ := readRecord_ok hrec
  cases h with
  | data rest err data =>
      exact .data (hrest.trans rest) err (by rw [data, appData_append, hdata, List.append_nil])
  | fail rest err buf data =>
      exact .fail (hrest.trans rest) err buf (by rw [data, appData_append, hdata, List.append_nil])

theorem failRead_outcome (e : Err) (hbuf : c.readBuf = []) :
    ReadOutcome c (c.failRead e).1 (c.failRead e).2 :=
  .fail ⟨rfl, rfl, rfl, rfl⟩ rfl hbuf rfl

theorem readAlert_outcome (payload : Bytes) (hbuf : c.readBuf = []) :
    ReadOutcome c (c.readAlert payload).1 (c.readAlert payload).2 := by
  unfold readAlert
  split
  · exact failRead_outcome _ hbuf
  · split
    · exact failRead_outcome _ hbuf
    · split
      · exact failRead_outcome _ hbuf
      · exact failRead_outcome _ hbuf

/-- **The loop of `Read`** meets its specification, by induction along its rounds. -/
theorem readLoop_outcome (n budget : Nat) (hbuf : c.readBuf = []) :
    ReadOutcome c (c.readLoop n budget).1 (c.readLoop n budget).2 := by
  fun_induction readLoop n budget c with
  | case1 budget c e c₁ hrec =>
      have hrest := readRecord_rest hrec
      obtain ⟨layer, -, rfl⟩ := readRecord_error hrec
      exact .fail (hrest.trans ⟨rfl, rfl, rfl, rfl⟩) rfl hbuf rfl
  | case2 c payload c₁ hempty hrec =>
      refine .after hrec ?_ (failRead_outcome _ (readRecord_readBuf hrec hbuf))
      simp [List.length_eq_zero_iff.mp hempty]
  | case3 c payload c₁ hempty budget hrec ih =>
      refine .after hrec ?_ (ih (readRecord_readBuf hrec hbuf))
      simp [List.length_eq_zero_iff.mp hempty]
  | case4 budget c payload c₁ hne hrec =>
      have hrest := readRecord_rest hrec
      obtain ⟨layer, -, rfl⟩ := readRecord_ok hrec
      refine .data (hrest.trans ⟨rfl, rfl, rfl, rfl⟩) rfl ?_
      simp [hbuf]
  | case5 budget c payload c₁ hrec hct =>
      refine .after hrec ?_ (readAlert_outcome payload (readRecord_readBuf hrec hbuf))
      simp [hct]
  | case6 budget c ct payload c₁ hrec hct hct' =>
      refine .after hrec ?_ (failRead_outcome _ (readRecord_readBuf hrec hbuf))
      simp [hct]

/-- **What a `Read` can do** on an established connection. -/
theorem read_cases (hd : c.handshakeDone = some (.ok ())) (n : Nat) :
    (c.closed = true ∧ c.read n = (.error errConnClosed, c)) ∨
    (c.closed = false ∧ c.readBuf ≠ [] ∧
      c.read n = (.ok (c.readBuf.take n), { c with readBuf := c.readBuf.drop n })) ∨
    (∃ e, c.closed = false ∧ c.readBuf = [] ∧ c.readErr = some e ∧ c.read n = (.error e, c)) ∨
    (c.closed = false ∧ c.readBuf = [] ∧ c.readErr = none ∧
      c.read n = c.readLoop n maxEmptyRecords) := by
  have hh := handshake_done hd
  cases hcl : c.closed with
  | true => exact .inl ⟨rfl, by simp only [read, hh, hcl, if_true]⟩
  | false =>
      by_cases hbuf : c.readBuf = []
      · have hlen : ¬ c.readBuf.length > 0 := by simp [hbuf]
        cases herr : c.readErr with
        | some e =>
            refine .inr (.inr (.inl ⟨e, rfl, hbuf, rfl, ?_⟩))
            simp only [read, hh, hcl, Bool.false_eq_true, if_false, if_neg hlen, herr]
        | none =>
            refine .inr (.inr (.inr ⟨rfl, hbuf, rfl, ?_⟩))
            simp only [read, hh, hcl, Bool.false_eq_true, if_false, if_neg hlen, herr]
      · have hlen : c.readBuf.length > 0 := List.length_pos_iff.mpr hbuf
        refine .inr (.inl ⟨rfl, hbuf, ?_⟩)
        simp only [read, hh, hcl, Bool.false_eq_true, if_false, if_pos hlen]

/-- The accounting of one `Read`: returned bytes and buffer together are what was buffered before and
    the application data consumed since. -/
theorem read_accounts (hd : c.handshakeDone = some (.ok ())) {n : Nat} {res : Except Err Bytes}
    (h : c.read n = (res, c')) {sofar : Bytes} (hs : sofar ++ c.readBuf = appData c.consumed) :
    c'.handshakeDone = some (.ok ()) ∧
      sofar ++ returned [.read res] ++ c'.readBuf = appData c'.consumed := by
  rcases read_cases hd n with ⟨-, hr⟩ | ⟨-, -, hr⟩ | ⟨e, -, -, -, hr⟩ | ⟨-, hbuf, -, hr⟩
  · rw [hr] at h
    cases h
    exact ⟨hd, by simpa [returned] using hs⟩
  · rw [hr] at h
    cases h
    exact ⟨hd, by simpa [returned] using hs⟩
  · rw [hr] at h
    cases h
    exact ⟨hd, by simpa [returned] using hs⟩
  · have hout := readLoop_outcome n maxEmptyRecords hbuf
    rw [← hr, h] at hout
    rw [hbuf, List.append_nil] at hs
    cases hout with
    | data rest err data => exact ⟨rest.handshake.trans hd, by simp [returned, data, hs]⟩
    | fail rest err buf data =>
        refine ⟨rest.handshake.trans hd, ?_⟩
        rw [show c'.readBuf = [] from buf, data, hs]
        simp [returned]

/-- **A read error is final**: with the connection open, it comes when nothing is buffered and leaves
    the error behind. -/
theorem read_error (hd : c.handshakeDone = some (.ok ())) (hopen : c.closed = false) {n : Nat}
    {e : Err} (h : c.read n = (.error e, c')) :
    c.readBuf = [] ∧ c'.readBuf = [] ∧ c'.readErr = some e ∧ c'.closed = false ∧
      c'.handshakeDone = some (.ok ()) := by
  rcases read_cases hd n with ⟨hcl, -⟩ | ⟨-, -, hr⟩ | ⟨e', -, hbuf, herr, hr⟩ | ⟨-, hbuf, -, hr⟩
  · rw [hopen] at hcl
    cases hcl
  · rw [hr] at h
    cases h
  · rw [hr] at h
    cases h
    exact ⟨hbuf, hbuf, herr, hopen, hd⟩
  · have hout := readLoop_outcome n maxEmptyRecords hbuf
    rw [← hr, h] at hout
    cases hout with
    | fail rest err buf data =>
        exact ⟨hbuf, buf, err, rest.closed.trans hopen, rest.handshake.trans hd⟩

/-! ## What a `Write` and a `Close` do -/

/-- The part of a connection that writing does not touch. -/
structure SameRead (c c' : Conn) : Prop where
  handshake : c'.handshakeDone = c.handshakeDone
  readBuf : c'.readBuf = c.readBuf
  readErr : c'.readErr = c.readErr
  consumed : c'.consumed = c.consumed

theorem SameRead.trans {c₁ c₂ c₃ : Conn} (h : SameRead c₁ c₂) (h' : SameRead c₂ c₃) :
    SameRead c₁ c₃ :=
  ⟨h'.handshake.trans h.handshake, h'.readBuf.trans h.readBuf, h'.readErr.trans h.readErr,
    h'.consumed.trans h.consumed⟩

theorem writeRecord_same (ct : UInt8) (payload : Bytes) (c : Conn) :
    SameRead c (c.writeRecord ct payload).2 ∧ (c.writeRecord ct payload).2.closed = c.closed := by
  unfold writeRecord
  split <;> exact ⟨⟨rfl, rfl, rfl, rfl⟩, rfl⟩

/-- **What was emitted** from `c` to `c'`: added to the history, and put on the wire. -/
structure Emits (c : Conn) (es : List Emitted) (c' : Conn) : Prop where
  emitted : c'.emitted = c.emitted ++ es
  wire : Run Outbound.Puts c.layer.outbound es c'.layer.outbound

theorem Emits.nothing (hemit : c'.emitted = c.emitted) (hout : c'.layer.outbound = c.layer.outbound) :
    Emits c [] c' := by
  refine ⟨by rw [hemit, List.append_nil], ?_⟩
  rw [hout]
  exact .nil

theorem Emits.trans {c₁ c₂ c₃ : Conn} {es es' : List Emitted} (h : Emits c₁ es c₂) (h' : Emits c₂ es' c₃) :
    Emits c₁ (es ++ es') c₃ :=
  ⟨by rw [h'.emitted, h.emitted, List.append_assoc], h.wire.append h'.wire⟩

/-- A record given to `WriteRecord` is emitted, with the verdict. -/
theorem writeRecord_emits {ct : UInt8} {payload : Bytes} {res : Except Err Unit}
    (h : c.writeRecord ct payload = (res, c')) : Emits c [⟨ct, payload, res.isOk⟩] c' := by
  unfold writeRecord at h
  split at h
  · rename_i hw
    cases h
    exact ⟨rfl, Run.nil.snoc (Layer.writeRecord_puts hw)⟩
  · rename_i hw
    cases h
    exact ⟨rfl, Run.nil.snoc (Layer.writeRecord_puts hw)⟩

/-- **What `Write` emitted** for `b`: whole chunks that make up the bytes it reports, then possibly
    one chunk that was not written whole. -/
structure Wrote (b : Bytes) (c c' : Conn) (written : Nat) (err : Option Err) : Prop where
  same : SameRead c c'
  closed : c'.closed = c.closed
  chunks : ∃ whole torn : List Bytes,
    Emits c (whole.map (⟨contentTypeApplicationData, ·, true⟩) ++
      torn.map (⟨contentTypeApplicationData, ·, false⟩)) c' ∧
    (∀ p ∈ whole ++ torn, 1 ≤ p.length ∧ p.length ≤ maxChunk) ∧ torn.length ≤ 1 ∧
    whole.flatten = b.take written ∧ (err = none → torn = [])
  written_le : written ≤ b.length
  complete : err = none → written = b.length

/-- Nothing is written of nothing. -/
theorem Wrote.nothing {b : Bytes} {err : Option Err} (h : err = none → b.length = 0) :
    Wrote b c c 0 err :=
  ⟨⟨rfl, rfl, rfl, rfl⟩, rfl, ⟨[], [], .nothing rfl rfl, by simp, by simp, by simp, fun _ => rfl⟩,
    Nat.zero_le _, fun he => (h he).symm⟩

/-- One chunk written whole, then the rest. -/
theorem Wrote.cons {b chunk : Bytes} {c₁ : Conn} {written : Nat} {err : Option Err}
    (hchunk : chunk = b.take maxChunk) (hb : 0 < b.length)
    (hw : c.writeRecord contentTypeApplicationData chunk = (.ok (), c₁))
    (h : Wrote (b.drop chunk.length) c₁ c' written err) :
    Wrote b c c' (chunk.length + written) err := by
  obtain ⟨hsame, hclosed⟩ := writeRecord_same contentTypeApplicationData chunk c
  rw [hw] at hsame hclosed
  have hlen : chunk.length = min maxChunk b.length := by rw [hchunk, List.length_take]
  have hpos : 1 ≤ chunk.length := by
    simp only [maxChunk] at hlen
    omega
  have hpre : b.take chunk.length = chunk := by
    rw [hlen, hchunk]
    exact (List.take_eq_take_min ..).symm
  have hle := h.written_le
  rw [List.length_drop] at hle
  refine ⟨hsame.trans h.same, h.closed.trans hclosed, ?_, by omega, ?_⟩
  · obtain ⟨whole, torn, hemits, hsizes, htorn, hcat, hnone⟩ := h.chunks
    refine ⟨chunk :: whole, torn, (writeRecord_emits hw).trans hemits, ?_, htorn, ?_, hnone⟩
    · intro p hp
      rcases List.mem_cons.mp hp with rfl | hp
      · exact ⟨hpos, by omega⟩
      · exact hsizes p hp
    · rw [List.flatten_cons, hcat, List.take_add, hpre]
  · intro he
    have := h.complete he
    rw [List.length_drop] at this
    omega

/-- A chunk that was not written whole ends the `Write`. -/
theorem Wrote.torn {b : Bytes} {e : Err} (hb : 0 < b.length)
    (hw : c.writeRecord contentTypeApplicationData (b.take maxChunk) = (.error e, c')) :
    Wrote b c c' 0 (some e) := by
  obtain ⟨hsame, hclosed⟩ := writeRecord_same contentTypeApplicationData (b.take maxChunk) c
  rw [hw] at hsame hclosed
  refine ⟨hsame, hclosed, ⟨[], [b.take maxChunk], writeRecord_emits hw, ?_, by simp, by simp, by simp⟩,
    Nat.zero_le _, by simp⟩
  intro p hp
  simp only [List.nil_append, List.mem_singleton] at hp
  rw [hp, List.length_take]
  simp only [maxChunk]
  omega

/-- **The loop of `Write`** meets its specification. -/
theorem writeLoop_wrote (rounds written : Nat) {b : Bytes} (hr : b.length ≤ rounds) :
    ∃ k, (c.writeLoop rounds written b).1.1 = written + k ∧
      Wrote b c (c.writeLoop rounds written b).2 k (c.writeLoop rounds written b).1.2 := by
  induction rounds generalizing written b c with
  | zero => exact ⟨0, rfl, .nothing fun _ => by omega⟩
  | succ rounds ih =>
      unfold writeLoop
      split
      · rename_i hb
        exact ⟨0, rfl, .nothing fun _ => hb⟩
      · rename_i hb
        simp only
        split
        · rename_i e c₁ hw
          exact ⟨0, rfl, .torn (by omega) hw⟩
        · rename_i u c₁ hw
          obtain ⟨k, hk, hwrote⟩ := ih (c := c₁) (written + (b.take maxChunk).length)
            (b := b.drop (b.take maxChunk).length) (by
              rw [List.length_drop, List.length_take]
              simp only [maxChunk]
              omega)
          refine ⟨(b.take maxChunk).length + k, by rw [hk]; omega, ?_⟩
          exact Wrote.cons rfl (by omega) hw hwrote

/-- **What a `Write` does** on an established connection. -/
theorem write_wrote (hd : c.handshakeDone = some (.ok ())) (b : Bytes) :
    Wrote b c (c.write b).2 (c.write b).1.1 (c.write b).1.2 := by
  unfold write
  rw [handshake_done hd]
  simp only
  split
  · exact .nothing (by simp)
  · obtain ⟨k, hk, hw⟩ := writeLoop_wrote (c := c) b.length 0 (Nat.le_refl _)
    rw [Nat.zero_add] at hk
    rw [hk]
    exact hw

theorem close_same (c : Conn) : SameRead c c.close.2 := by
  unfold close
  split
  · exact ⟨rfl, rfl, rfl, rfl⟩
  · have h := (writeRecord_same contentTypeAlert closeNotifyAlert { c with closed := true }).1
    simp only
    split
    · exact ⟨h.handshake, h.readBuf, h.readErr, h.consumed⟩
    · exact ⟨rfl, rfl, rfl, rfl⟩

/-- A `Close` emits the alert, or nothing. -/
theorem close_emits (c : Conn) : ∃ es, Emits c es c.close.2 := by
  have hmark : Emits c [] { c with closed := true } := .nothing rfl rfl
  unfold close
  split
  · exact ⟨[], .nothing rfl rfl⟩
  · simp only
    split
    · exact ⟨_, hmark.trans (writeRecord_emits rfl)⟩
    · exact ⟨[], hmark⟩

/-! ## Runs -/

/-- Nothing is lost, duplicated or reordered, over any sequence of calls. -/
theorem run_accounts (hd : c.handshakeDone = some (.ok ())) (ops : List ConnOp) (sofar : Bytes)
    (hs : sofar ++ c.readBuf = appData c.consumed) :
    (c.run ops).2.handshakeDone = some (.ok ()) ∧
      sofar ++ returned (c.run ops).1 ++ (c.run ops).2.readBuf = appData (c.run ops).2.consumed := by
  induction ops generalizing c sofar with
  | nil => exact ⟨hd, by simpa [run, returned] using hs⟩
  | cons op ops ih =>
      have hstep : (c.step op).2.handshakeDone = some (.ok ()) ∧
          sofar ++ returned [(c.step op).1] ++ (c.step op).2.readBuf =
            appData (c.step op).2.consumed := by
        cases op with
        | read n => exact read_accounts hd rfl hs
        | write b =>
            have hw := (write_wrote hd b).same
            refine ⟨hw.handshake.trans hd, ?_⟩
            simp only [step, hw.readBuf, hw.consumed, ← hs]
            simp [returned]
        | close =>
            have hw := close_same c
            refine ⟨hw.handshake.trans hd, ?_⟩
            simp only [step, hw.readBuf, hw.consumed, ← hs]
            simp [returned]
      obtain ⟨hd', hacc⟩ := ih hstep.1 _ hstep.2
      refine ⟨hd', ?_⟩
      simp only [run]
      rw [← hacc]
      simp [returned]

/-- A `Read` emits nothing. -/
theorem read_rest (hd : c.handshakeDone = some (.ok ())) (n : Nat) : SameRest c (c.read n).2 := by
  rcases read_cases hd n with ⟨-, hr⟩ | ⟨-, -, hr⟩ | ⟨e, -, -, -, hr⟩ | ⟨-, hbuf, -, hr⟩
  · rw [hr]
    exact ⟨rfl, rfl, rfl, rfl⟩
  · rw [hr]
    exact ⟨rfl, rfl, rfl, rfl⟩
  · rw [hr]
    exact ⟨rfl, rfl, rfl, rfl⟩
  · have hout := readLoop_outcome n maxEmptyRecords hbuf
    rw [← hr] at hout
    generalize (c.read n).1 = res at hout
    cases hout with
    | data rest _ _ => exact rest
    | fail rest _ _ _ => exact rest

/-- **The history is what went on the wire**, over any sequence of calls. -/
theorem run_emits (hd : c.handshakeDone = some (.ok ())) (ops : List ConnOp) :
    ∃ es, Emits c es (c.run ops).2 := by
  induction ops generalizing c with
  | nil => exact ⟨[], .nothing rfl rfl⟩
  | cons op ops ih =>
      have hstep : (c.step op).2.handshakeDone = some (.ok ()) ∧ ∃ es, Emits c es (c.step op).2 := by
        cases op with
        | read n =>
            have hrest := read_rest hd n
            exact ⟨hrest.handshake.trans hd, [], .nothing hrest.emitted hrest.outbound⟩
        | write b =>
            have hw := write_wrote hd b
            obtain ⟨_, _, hemits, -⟩ := hw.chunks
            exact ⟨hw.same.handshake.trans hd, _, hemits⟩
        | close => exact ⟨(close_same c).handshake.trans hd, close_emits c⟩
      obtain ⟨hd', es, hemits⟩ := hstep
      obtain ⟨es', hemits'⟩ := ih hd'
      exact ⟨es ++ es', hemits.trans hemits'⟩

/-- The read side has failed with `e`. -/
structure Failed (e : Err) (c : Conn) : Prop where
  handshake : c.handshakeDone = some (.ok ())
  closed : c.closed = false
  readBuf : c.readBuf = []
  readErr : c.readErr = some e

theorem Failed.read {e : Err} (h : Failed e c) (n : Nat) : c.read n = (.error e, c) := by
  rcases read_cases h.handshake n with ⟨hcl, -⟩ | ⟨-, hbuf, -⟩ | ⟨e', -, -, herr, hr⟩ | ⟨-, -, herr, -⟩
  · rw [h.closed] at hcl
    cases hcl
  · exact absurd h.readBuf hbuf
  · rw [h.readErr] at herr
    cases herr
    exact hr
  · rw [h.readErr] at herr
    cases herr

/-- **A failed read side stays as it is** until the connection is closed. -/
theorem Failed.run {e : Err} (h : Failed e c) {ops : List ConnOp} (hops : ConnOp.close ∉ ops) :
    Failed e (c.run ops).2 ∧ (c.run ops).2.consumed = c.consumed := by
  induction ops generalizing c with
  | nil => exact ⟨h, rfl⟩
  | cons op ops ih =>
      simp only [List.mem_cons, not_or] at hops
      have hstep : Failed e (c.step op).2 ∧ (c.step op).2.consumed = c.consumed := by
        cases op with
        | read n =>
            simp only [step, h.read n, and_true]
            exact h
        | write b =>
            have hw := write_wrote h.handshake b
            exact ⟨⟨hw.same.handshake.trans h.handshake, hw.closed.trans h.closed,
              hw.same.readBuf.trans h.readBuf, hw.same.readErr.trans h.readErr⟩, hw.same.consumed⟩
        | close => exact absurd rfl hops.1
      obtain ⟨hf, hc⟩ := ih hstep.1 hops.2
      exact ⟨hf, hc.trans hstep.2⟩

end Conn

/-- **The byte-stream contract**, after the calls `ops` on the connection `c`. -/
structure ByteStream (c : Conn) (ops : List ConnOp) : Prop where
  /-- The bytes returned and the bytes buffered are the application data consumed, in order. -/
  accounts : returned (c.run ops).1 ++ (c.run ops).2.readBuf = appData (c.run ops).2.consumed
  /-- On the open connection a `Read` fails only with an empty buffer, and from then on until `Close`
      every `Read` fails with the same error and consumes nothing. -/
  final : ∀ n e c', (c.run ops).2.closed = false → (c.run ops).2.read n = (.error e, c') →
    (c.run ops).2.readBuf = [] ∧
    ∀ later, ConnOp.close ∉ later → (c'.run later).2.consumed = c'.consumed ∧
      ∀ m, (c'.run later).2.read m = (.error e, (c'.run later).2)
  /-- Of the records given to `WriteRecord`, and of nothing else, the transport has accepted header and
      sealed fragment, or a part of them where the record was not written whole. -/
  wire : Run Outbound.Puts c.layer.outbound (c.run ops).2.emitted (c.run ops).2.layer.outbound
  /-- `Write b` emits application data in chunks of 1 to 16384 bytes, and those written whole make up
      the bytes it reports. -/
  writes : ∀ b, Conn.Wrote b (c.run ops).2 ((c.run ops).2.write b).2 ((c.run ops).2.write b).1.1
    ((c.run ops).2.write b).1.2

/-- **An established connection is a byte stream**, over every transport and every sequence of
    calls. -/
theorem conn_byte_stream (c : Conn) (hc : c.Established) (ops : List ConnOp) : ByteStream c ops := by
  obtain ⟨hd, hacc⟩ := Conn.run_accounts hc.handshake ops []
    (by simp [hc.readBuf, hc.consumed, appData])
  obtain ⟨es, hemits⟩ := Conn.run_emits hc.handshake ops
  have hes : (c.run ops).2.emitted = es := by rw [hemits.emitted, hc.emitted, List.nil_append]
  refine ⟨hacc, ?_, by rw [hes]; exact hemits.wire, fun b => Conn.write_wrote hd b⟩
  intro n e c' hopen hread
  obtain ⟨hbuf, hbuf', herr, hclosed, hd'⟩ := Conn.read_error hd hopen hread
  refine ⟨hbuf, fun later hlater => ?_⟩
  obtain ⟨hf, hcons⟩ := Conn.Failed.run ⟨hd', hclosed, hbuf', herr⟩ hlater
  exact ⟨hcons, hf.read⟩

/-- An established connection whose transport delivers the given bytes. -/
def Conn.over (input : Bytes) : Conn where
  layer := newLayer (ofBytes input) ⟨[], []⟩ ⟨fun _ => .ok 0, 0⟩
  doHandshake := fun l => (.ok (), l)
  transportClose := .ok ()
  handshakeDone := some (.ok ())
  closed := false
  readBuf := []
  readErr := none
  consumed := []
  emitted := []

/-- Three bytes read in two pieces, around a write, and then the end of the stream. -/
theorem conn_byte_stream_in_pieces :
    ByteStream (.over [23, 3, 3, 0, 3, 1, 2, 3]) [.read 2, .write [9], .read 0, .read 5, .read 1] :=
  conn_byte_stream _ ⟨rfl, rfl, rfl, rfl, rfl, rfl⟩ _

end Gostls
