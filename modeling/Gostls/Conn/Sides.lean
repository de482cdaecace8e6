import Gostls.Conn.ByteStream
import Gostls.Record.Halves

/-!
# `Gostls.Conn.Sides` — the two directions of a connection

A connection has a receive side, a send side, and two flags: whether the handshake is done and whether
it is closed. `ReadRecord`, and with it the body of `Read`, is local to the receive side; `WriteRecord`,
and with it the body of `Write`, to the send side. `inMu` guards the first, `outMu` the second.
-/

namespace Gostls

open Lib

/-! ## The sides of a connection -/

structure RecvSide where
  half : RecvHalf
  readBuf : Bytes
  readErr : Option Err
  consumed : List (UInt8 × Bytes)

structure SendSide where
  half : SendHalf
  emitted : List Emitted

namespace Conn

def recv : Part Conn RecvSide where
  get c := ⟨Layer.recvHalf.get c.layer, c.readBuf, c.readErr, c.consumed⟩
  set c r := { c with
    layer := Layer.recvHalf.set c.layer r.half
    readBuf := r.readBuf
    readErr := r.readErr
    consumed := r.consumed }
  get_set _ _ := rfl
  set_get _ := rfl
  set_set _ _ _ := rfl

def send : Part Conn SendSide where
  get c := ⟨Layer.sendHalf.get c.layer, c.emitted⟩
  set c s := { c with layer := Layer.sendHalf.set c.layer s.half, emitted := s.emitted }
  get_set _ _ := rfl
  set_get _ := rfl
  set_set _ _ _ := rfl

theorem recv_send : recv.Independent send := fun _ _ => rfl

theorem send_recv : send.Independent recv := fun _ _ => rfl

/-- A connection is its two sides, its flags and what it is configured with. -/
theorem ext_sides {c c' : Conn} (hrecv : recv.get c = recv.get c') (hsend : send.get c = send.get c')
    (hdone : c.handshakeDone = c'.handshakeDone) (hclosed : c.closed = c'.closed)
    (hhs : c.doHandshake = c'.doHandshake) (hclose : c.transportClose = c'.transportClose) : c = c' := by
  have hlayer : c.layer = c'.layer :=
    Layer.ext_halves (congrArg RecvSide.half hrecv) (congrArg SendSide.half hsend)
  have hbuf : c.readBuf = c'.readBuf := congrArg RecvSide.readBuf hrecv
  have herr : c.readErr = c'.readErr := congrArg RecvSide.readErr hrecv
  have hcons : c.consumed = c'.consumed := congrArg RecvSide.consumed hrecv
  have hemit : c.emitted = c'.emitted := congrArg SendSide.emitted hsend
  obtain ⟨_, _, _, _, _, _, _, _, _⟩ := c
  obtain ⟨_, _, _, _, _, _, _, _, _⟩ := c'
  simp only at hlayer hbuf herr hcons hemit hdone hclosed hhs hclose
  rw [hlayer, hbuf, herr, hcons, hemit, hdone, hclosed, hhs, hclose]

/-! ## Reading -/

theorem readRecord_local : recv.Local readRecord := by
  intro c c'
  have h := Layer.readRecord_local c.layer c'.layer
  show readRecord (recv.set c' (recv.get c)) = _
  unfold readRecord
  rw [show (recv.set c' (recv.get c)).layer = Layer.recvHalf.set c'.layer (Layer.recvHalf.get c.layer)
    from rfl, h]
  cases c.layer.readRecord with
  | mk res l => cases res <;> rfl

theorem readAlert_local (payload : Bytes) : recv.Local (readAlert payload) := by
  intro c c'
  unfold readAlert
  by_cases hlen : payload.length < alertMinLen
  · simp only [if_pos hlen]
    rfl
  · simp only [if_neg hlen]
    cases decodeAlert payload with
    | error e => rfl
    | ok alert =>
        obtain ⟨level, desc⟩ := alert
        by_cases hdesc : desc = alertCloseNotify
        · simp only [if_pos hdesc]
          rfl
        · simp only [if_neg hdesc]
          rfl

/-- What a round of the loop of `Read` comes to: the result of the call, or another round. -/
inductive Round
  | done (res : Except Err Bytes)
  | again (budget : Nat)

/-- A round of the loop of `Read`: one `ReadRecord`, and what is done with the record. -/
def readRound (n budget : Nat) (c : Conn) : Round × Conn :=
  match c.readRecord with
  | (.error e, c) => (.done (c.failRead e).1, (c.failRead e).2)
  | (.ok (ct, payload), c) =>
    if ct = contentTypeApplicationData then
      if payload.length = 0 then
        match budget with
        | 0          => (.done (c.failRead errTooManyEmptyRecords).1, (c.failRead errTooManyEmptyRecords).2)
        | budget + 1 => (.again budget, c)
      else
        (.done (.ok (payload.take n)), { c with readBuf := c.readBuf ++ payload.drop n })
    else if ct = contentTypeAlert then (.done (c.readAlert payload).1, (c.readAlert payload).2)
    else
      let e := Err.errorf ("tls: unexpected record type " ++ toString ct ++
        " in application data phase") errUnexpectedRecord
      (.done (c.failRead e).1, (c.failRead e).2)

/-- What is left of `Read` after a round. -/
def Round.resume (n : Nat) : Round → Conn → Except Err Bytes × Conn
  | .done res, c     => (res, c)
  | .again budget, c => c.readLoop n budget

/-- The loop is its rounds. -/
theorem readLoop_eq (n budget : Nat) (c : Conn) :
    c.readLoop n budget = (c.readRound n budget).1.resume n (c.readRound n budget).2 := by
  rw [readLoop.eq_def]
  unfold readRound
  dsimp only
  cases c.readRecord with
  | mk res c₁ =>
      cases res with
      | error e => rfl
      | ok rec =>
          obtain ⟨ct, payload⟩ := rec
          dsimp only
          by_cases hct : ct = contentTypeApplicationData
          · simp only [if_pos hct]
            by_cases hlen : payload.length = 0
            · simp only [if_pos hlen]
              cases budget <;> rfl
            · simp only [if_neg hlen]
              rfl
          · simp only [if_neg hct]
            by_cases hct' : ct = contentTypeAlert
            · simp only [if_pos hct']
              rfl
            · simp only [if_neg hct']
              rfl

theorem readRound_local (n budget : Nat) : recv.Local (readRound n budget) := by
  intro c c'
  unfold readRound
  rw [readRecord_local c c']
  cases c.readRecord with
  | mk res c₁ =>
      cases res with
      | error e => rfl
      | ok rec =>
          obtain ⟨ct, payload⟩ := rec
          dsimp only
          by_cases hct : ct = contentTypeApplicationData
          · simp only [if_pos hct]
            by_cases hlen : payload.length = 0
            · simp only [if_pos hlen]
              cases budget <;> rfl
            · simp only [if_neg hlen]
              rfl
          · simp only [if_neg hct]
            by_cases hct' : ct = contentTypeAlert
            · simp only [if_pos hct']
              rw [readAlert_local payload c₁ c']
            · simp only [if_neg hct']
              rfl

/-- A round that goes on has less of its budget left. -/
theorem readRound_again {n budget budget' : Nat} {c c' : Conn}
    (h : c.readRound n budget = (.again budget', c')) : budget = budget' + 1 := by
  unfold readRound at h
  split at h
  · cases h
  · split at h
    · split at h
      · split at h
        · cases h
        · cases h
          rfl
      · cases h
    · split at h
      · cases h
      · cases h

theorem readLoop_local (n budget : Nat) : recv.Local (readLoop n budget) := by
  induction budget with
  | zero =>
      intro c c'
      rw [readLoop_eq, readLoop_eq n 0 c, readRound_local n 0 c c']
      cases h : c.readRound n 0 with
      | mk round c₁ =>
          cases round with
          | done res => rfl
          | again budget => exact absurd (readRound_again h) (Nat.succ_ne_zero _).symm
  | succ budget ih =>
      intro c c'
      rw [readLoop_eq, readLoop_eq n (budget + 1) c, readRound_local n (budget + 1) c c']
      cases h : c.readRound n (budget + 1) with
      | mk round c₁ =>
          cases round with
          | done res => rfl
          | again budget' =>
              obtain rfl : budget = budget' := Nat.succ.inj (readRound_again h)
              exact ih c₁ c'

/-! ## Writing -/

theorem writeRecord_local (ct : UInt8) (payload : Bytes) : send.Local (writeRecord ct payload) := by
  intro c c'
  have h := Layer.writeRecord_local ct payload c.layer c'.layer
  unfold writeRecord
  rw [show (send.set c' (send.get c)).layer = Layer.sendHalf.set c'.layer (Layer.sendHalf.get c.layer)
    from rfl, h]
  cases c.layer.writeRecord ct payload with
  | mk res l => cases res <;> rfl

theorem writeLoop_local (rounds written : Nat) (b : Bytes) : send.Local (writeLoop rounds written b) := by
  induction rounds generalizing written b with
  | zero => exact fun _ _ => rfl
  | succ rounds ih =>
      intro c c'
      unfold writeLoop
      by_cases hb : b.length = 0
      · simp only [if_pos hb]
      · simp only [if_neg hb]
        rw [writeRecord_local _ _ c c']
        cases c.writeRecord contentTypeApplicationData (b.take maxChunk) with
        | mk res c₁ =>
            cases res with
            | error e => rfl
            | ok _ => exact ih _ _ c₁ c'

end Conn

end Gostls
