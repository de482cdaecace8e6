import Gostls.Conn.Sides
import Gostls.Lib.Threads

/-!
# `Gostls.Conn.Concurrent` — a connection used from several goroutines

`Conn.Basic` takes the calls on a connection one at a time. Here any number of threads call `Handshake`,
`Read`, `Write` and `Close` on one connection, interleaved at the synchronisation of the source: entering
and leaving `handshakeOnce`, locking and unlocking `inMu` and `outMu`, `TryLock`, the atomic operations
on `closed` and `handshakeOK`, and each `ReadRecord` and `WriteRecord`.

A program counter says what its thread is about to do; for a blocking operation, that it is in the
middle of it. The operation takes effect when it ends; that until then no other thread touches what it
works on is proved in `Gostls.Conn.Races`.

`Pc.step` is the code, `ThreadStep` what a thread can do at all, `Moves` the branches of the code one by
one. `schedule` runs the threads in a given order.
-/

namespace Gostls

open Lib

/-! ## Threads -/

/-- The calls that run the handshake first. -/
inductive Task
  | handshake
  | read (n : Nat)
  | write (b : Bytes)

inductive Call
  | task (k : Task)
  | close

/-- What a call returns; `notify` is the outcome of the alert inside `Close`, which is discarded. -/
inductive Outcome
  | handshake (res : Except Err Unit)
  | read (res : Except Err Bytes)
  | write (written : Nat) (err : Option Err)
  | close (res : Except Err Unit)
  | notify (res : Except Err Unit)

/-- `sync.Once`: unused, with its function running in some thread, or done. -/
inductive Once (T : Type)
  | fresh
  | running (t : T)
  | done

/-- What the threads share. In `conn`, `handshakeDone` is what `handshakeErr` has been set to. The
    owners of the mutexes are history, except that there is one; so is `closer`, the thread whose `Close`
    came first. -/
structure Shared (T : Type) where
  conn : Conn
  once : Once T
  handshakeOK : Bool
  inMu : Option T
  outMu : Option T
  closer : Option T

/-- Where a thread is. -/
inductive Pc
  | idle
  /-- `Handshake`: at `handshakeOnce.Do`. -/
  | enter (k : Task)
  /-- In the function of `Do`: at `closed.Load()`. -/
  | load (k : Task)
  /-- In `doHandshake`. -/
  | shaking (k : Task)
  /-- At `handshakeOK.Store(true)`. -/
  | publish (k : Task)
  /-- At the end of the function of `Do`. -/
  | leave (k : Task)
  /-- Behind `Do`: at `return c.handshakeErr`. -/
  | proceed (k : Task)
  /-- `Read`: at `inMu.Lock()`. -/
  | lockIn (n : Nat)
  | checkIn (n : Nat)
  | buffered (n : Nat)
  /-- In `ReadRecord`. -/
  | reading (n budget : Nat)
  | unlockIn (res : Except Err Bytes)
  /-- `Write`: at `outMu.Lock()`. -/
  | lockOut (b : Bytes)
  | checkOut (b : Bytes)
  /-- At the head of the loop, or in `WriteRecord`. -/
  | writing (written : Nat) (b : Bytes)
  | unlockOut (written : Nat) (err : Option Err)
  /-- `Close`: at `closed.CompareAndSwap(false, true)`. -/
  | swap
  | loadOK
  | tryLock
  /-- In the `WriteRecord` of the `close_notify`. -/
  | alert
  | release
  /-- At `c.conn.Close()`. -/
  | hangUp
  | ret (out : Outcome)

/-- Where a call begins. -/
def Call.start : Call → Pc
  | .task k => .enter k
  | .close  => .swap

/-- `c.handshakeErr`, which is nil until it is set. -/
def Conn.handshakeErr (c : Conn) : Except Err Unit := c.handshakeDone.getD (.ok ())

/-- `Handshake` returns its error: `Handshake` itself is over, `Read` and `Write` go on or give up. -/
def Task.proceed : Task → Except Err Unit → Pc
  | .handshake, res     => .ret (.handshake res)
  | .read n,  .ok _     => .lockIn n
  | .read _,  .error e  => .ret (.read (.error e))
  | .write b, .ok _     => .lockOut b
  | .write _, .error e  => .ret (.write 0 (some e))

namespace Pc

variable {T : Type}

/-- The next step of thread `t`; `none` if it has to wait, or has nothing to do. -/
def step (t : T) : Pc → Shared T → Option (Option (CallEvent Call Outcome) × Pc × Shared T)
  | .idle, _ => none
  | .enter k, s =>
    match s.once with
    | .fresh     => some (none, .load k, { s with once := .running t })
    | .running _ => none
    | .done      => some (none, .proceed k, s)
  | .load k, s =>
    if s.conn.closed then
      some (none, .leave k, { s with conn.handshakeDone := some (.error errConnClosed) })
    else some (none, .shaking k, s)
  | .shaking k, s =>
    match s.conn.doHandshake s.conn.layer with
    | (.ok _, layer) =>
      some (none, .publish k, { s with conn.layer := layer, conn.handshakeDone := some (.ok ()) })
    | (.error e, layer) =>
      some (none, .leave k, { s with conn.layer := layer, conn.handshakeDone := some (.error e) })
  | .publish k, s => some (none, .leave k, { s with handshakeOK := true })
  | .leave k, s => some (none, .proceed k, { s with once := .done })
  | .proceed k, s => some (none, k.proceed s.conn.handshakeErr, s)
  -- `Read`
  | .lockIn n, s =>
    match s.inMu with
    | none   => some (none, .checkIn n, { s with inMu := some t })
    | some _ => none
  | .checkIn n, s =>
    if s.conn.closed then some (none, .unlockIn (.error errConnClosed), s)
    else some (none, .buffered n, s)
  | .buffered n, s =>
    if s.conn.readBuf.length > 0 then
      some (none, .unlockIn (.ok (s.conn.readBuf.take n)),
        { s with conn.readBuf := s.conn.readBuf.drop n })
    else
      match s.conn.readErr with
      | some e => some (none, .unlockIn (.error e), s)
      | none   => some (none, .reading n maxEmptyRecords, s)
  | .reading n budget, s =>
    match s.conn.readRound n budget with
    | (.done res, conn)     => some (none, .unlockIn res, { s with conn })
    | (.again budget, conn) => some (none, .reading n budget, { s with conn })
  | .unlockIn res, s => some (none, .ret (.read res), { s with inMu := none })
  -- `Write`
  | .lockOut b, s =>
    match s.outMu with
    | none   => some (none, .checkOut b, { s with outMu := some t })
    | some _ => none
  | .checkOut b, s =>
    if s.conn.closed then some (none, .unlockOut 0 (some errConnClosed), s)
    else some (none, .writing 0 b, s)
  | .writing written b, s =>
    if b.length = 0 then some (none, .unlockOut written none, s)
    else
      let chunk := b.take maxChunk
      match s.conn.writeRecord contentTypeApplicationData chunk with
      | (.error e, conn) => some (none, .unlockOut written (some e), { s with conn })
      | (.ok _, conn)    =>
        some (none, .writing (written + chunk.length) (b.drop chunk.length), { s with conn })
  | .unlockOut written err, s => some (none, .ret (.write written err), { s with outMu := none })
  -- `Close`
  | .swap, s =>
    if s.conn.closed then some (none, .ret (.close (.ok ())), s)
    else some (none, .loadOK, { s with conn.closed := true, closer := some t })
  | .loadOK, s => if s.handshakeOK then some (none, .tryLock, s) else some (none, .hangUp, s)
  | .tryLock, s =>
    match s.outMu with
    | none   => some (none, .alert, { s with outMu := some t })
    | some _ => some (none, .hangUp, s)
  | .alert, s =>
    some (none, .release, { s with
      conn := (s.conn.writeRecord contentTypeAlert closeNotifyAlert).2 })
  | .release, s => some (none, .hangUp, { s with outMu := none })
  | .hangUp, s => some (none, .ret (.close s.conn.transportClose), s)
  | .ret out, s => some (some (.ret out), .idle, s)

end Pc

/-- What a thread can do: call a method, or go on with the call it is in. `TryLock` may fail even if the
    mutex is free. -/
inductive ThreadStep {T : Type} (t : T) : Pc → Shared T → Option (CallEvent Call Outcome) → Pc →
    Shared T → Prop
  | invoke {s : Shared T} (c : Call) : ThreadStep t .idle s (some (.invoke c)) c.start s
  | run {pc pc' : Pc} {s s' : Shared T} {e : Option (CallEvent Call Outcome)}
      (h : pc.step t s = some (e, pc', s')) : ThreadStep t pc s e pc' s'
  | tryFail {s : Shared T} : ThreadStep t .tryLock s none .hangUp s

/-- A connection that has not been used: nothing has happened on it. -/
structure Conn.Unused (c : Conn) : Prop where
  handshake : c.handshakeDone = none
  closed : c.closed = false
  readBuf : c.readBuf = []
  readErr : c.readErr = none
  consumed : c.consumed = []
  emitted : c.emitted = []

/-- Threads over a connection on which nothing has happened yet. -/
def goroutines (T : Type) (c : Conn) : Threads T Pc (Shared T) where
  pc _ := .idle
  shared := { conn := c, once := .fresh, handshakeOK := false, inMu := none, outMu := none, closer := none }

/-- Run the threads by a schedule: at each turn, the thread that moves and the call it makes, if it is to
    make one. -/
def schedule {T : Type} [DecidableEq T] :
    List (T × Option Call) → Threads T Pc (Shared T) → Option (Threads T Pc (Shared T))
  | [], σ => some σ
  | (t, some c) :: turns, σ =>
    match σ.pc t with
    | .idle => schedule turns { σ with pc := Function.update σ.pc t c.start }
    | _     => none
  | (t, none) :: turns, σ =>
    match (σ.pc t).step t σ.shared with
    | some (_, pc, s) => schedule turns ⟨Function.update σ.pc t pc, s⟩
    | none            => none

theorem schedule_run {T : Type} [DecidableEq T] {turns : List (T × Option Call)}
    {σ₀ σ σ' : Threads T Pc (Shared T)} {es : List (T × Option (CallEvent Call Outcome))}
    (hrun : Run (Threads.Step ThreadStep) σ₀ es σ) (h : schedule turns σ = some σ') :
    ∃ es', Run (Threads.Step ThreadStep) σ₀ es' σ' := by
  induction turns generalizing σ es with
  | nil =>
      cases h
      exact ⟨es, hrun⟩
  | cons turn turns ih =>
      obtain ⟨t, call⟩ := turn
      cases call with
      | some c =>
          simp only [schedule] at h
          split at h
          · rename_i hpc
            exact ih (hrun.snoc (.of (t := t) (by rw [hpc]; exact .invoke c))) h
          · cases h
      | none =>
          simp only [schedule] at h
          split at h
          · rename_i hstep
            exact ih (hrun.snoc (.of (t := t) (.run hstep))) h
          · cases h

/-! ## What a step does -/

section

variable {T : Type}

/-- **The steps of a thread** in a call, one for each branch of the code. -/
inductive Moves (t : T) : Pc → Shared T → Option (CallEvent Call Outcome) → Pc → Shared T → Prop
  | enter {k : Task} {s : Shared T} (h : s.once = .fresh) :
      Moves t (.enter k) s none (.load k) { s with once := .running t }
  | skip {k : Task} {s : Shared T} (h : s.once = .done) : Moves t (.enter k) s none (.proceed k) s
  | refuse {k : Task} {s : Shared T} (h : s.conn.closed = true) :
      Moves t (.load k) s none (.leave k) { s with conn.handshakeDone := some (.error errConnClosed) }
  | shake {k : Task} {s : Shared T} (h : s.conn.closed = false) :
      Moves t (.load k) s none (.shaking k) s
  | succeed {k : Task} {s : Shared T} {layer : Layer}
      (h : s.conn.doHandshake s.conn.layer = (.ok (), layer)) :
      Moves t (.shaking k) s none (.publish k)
        { s with conn.layer := layer, conn.handshakeDone := some (.ok ()) }
  | fail {k : Task} {s : Shared T} {e : Err} {layer : Layer}
      (h : s.conn.doHandshake s.conn.layer = (.error e, layer)) :
      Moves t (.shaking k) s none (.leave k)
        { s with conn.layer := layer, conn.handshakeDone := some (.error e) }
  | publish {k : Task} {s : Shared T} :
      Moves t (.publish k) s none (.leave k) { s with handshakeOK := true }
  | leave {k : Task} {s : Shared T} : Moves t (.leave k) s none (.proceed k) { s with once := .done }
  | proceed {k : Task} {s : Shared T} :
      Moves t (.proceed k) s none (k.proceed s.conn.handshakeErr) s
  | lockIn {n : Nat} {s : Shared T} (h : s.inMu = none) :
      Moves t (.lockIn n) s none (.checkIn n) { s with inMu := some t }
  | shutIn {n : Nat} {s : Shared T} (h : s.conn.closed = true) :
      Moves t (.checkIn n) s none (.unlockIn (.error errConnClosed)) s
  | passIn {n : Nat} {s : Shared T} (h : s.conn.closed = false) :
      Moves t (.checkIn n) s none (.buffered n) s
  | drain {n : Nat} {s : Shared T} (h : s.conn.readBuf.length > 0) :
      Moves t (.buffered n) s none (.unlockIn (.ok (s.conn.readBuf.take n)))
        { s with conn.readBuf := s.conn.readBuf.drop n }
  | stuck {n : Nat} {s : Shared T} {e : Err} (h : ¬ s.conn.readBuf.length > 0)
      (he : s.conn.readErr = some e) : Moves t (.buffered n) s none (.unlockIn (.error e)) s
  | fetch {n : Nat} {s : Shared T} (h : ¬ s.conn.readBuf.length > 0) (he : s.conn.readErr = none) :
      Moves t (.buffered n) s none (.reading n maxEmptyRecords) s
  | read {n budget : Nat} {s : Shared T} {res : Except Err Bytes} {conn : Conn}
      (h : s.conn.readRound n budget = (.done res, conn)) :
      Moves t (.reading n budget) s none (.unlockIn res) { s with conn }
  | again {n budget budget' : Nat} {s : Shared T} {conn : Conn}
      (h : s.conn.readRound n budget = (.again budget', conn)) :
      Moves t (.reading n budget) s none (.reading n budget') { s with conn }
  | unlockIn {res : Except Err Bytes} {s : Shared T} :
      Moves t (.unlockIn res) s none (.ret (.read res)) { s with inMu := none }
  | lockOut {b : Bytes} {s : Shared T} (h : s.outMu = none) :
      Moves t (.lockOut b) s none (.checkOut b) { s with outMu := some t }
  | shutOut {b : Bytes} {s : Shared T} (h : s.conn.closed = true) :
      Moves t (.checkOut b) s none (.unlockOut 0 (some errConnClosed)) s
  | passOut {b : Bytes} {s : Shared T} (h : s.conn.closed = false) :
      Moves t (.checkOut b) s none (.writing 0 b) s
  | wrote {written : Nat} {b : Bytes} {s : Shared T} (h : b.length = 0) :
      Moves t (.writing written b) s none (.unlockOut written none) s
  | torn {written : Nat} {b : Bytes} {s : Shared T} {e : Err} {conn : Conn} (hb : ¬ b.length = 0)
      (h : s.conn.writeRecord contentTypeApplicationData (b.take maxChunk) = (.error e, conn)) :
      Moves t (.writing written b) s none (.unlockOut written (some e)) { s with conn }
  | chunk {written : Nat} {b : Bytes} {s : Shared T} {conn : Conn} (hb : ¬ b.length = 0)
      (h : s.conn.writeRecord contentTypeApplicationData (b.take maxChunk) = (.ok (), conn)) :
      Moves t (.writing written b) s none
        (.writing (written + (b.take maxChunk).length) (b.drop (b.take maxChunk).length)) { s with conn }
  | unlockOut {written : Nat} {err : Option Err} {s : Shared T} :
      Moves t (.unlockOut written err) s none (.ret (.write written err)) { s with outMu := none }
  | late {s : Shared T} (h : s.conn.closed = true) :
      Moves t .swap s none (.ret (.close (.ok ()))) s
  | close {s : Shared T} (h : s.conn.closed = false) :
      Moves t .swap s none .loadOK { s with conn.closed := true, closer := some t }
  | sawOK {s : Shared T} (h : s.handshakeOK = true) : Moves t .loadOK s none .tryLock s
  | sawNone {s : Shared T} (h : s.handshakeOK = false) : Moves t .loadOK s none .hangUp s
  | tryLock {s : Shared T} (h : s.outMu = none) :
      Moves t .tryLock s none .alert { s with outMu := some t }
  | tryFail {s : Shared T} : Moves t .tryLock s none .hangUp s
  | alert {s : Shared T} :
      Moves t .alert s none .release { s with
        conn := (s.conn.writeRecord contentTypeAlert closeNotifyAlert).2 }
  | release {s : Shared T} : Moves t .release s none .hangUp { s with outMu := none }
  | hangUp {s : Shared T} : Moves t .hangUp s none (.ret (.close s.conn.transportClose)) s
  | ret {out : Outcome} {s : Shared T} : Moves t (.ret out) s (some (.ret out)) .idle s

theorem step_moves {t : T} {pc pc' : Pc} {s s' : Shared T} {e : Option (CallEvent Call Outcome)}
    (h : pc.step t s = some (e, pc', s')) : Moves t pc s e pc' s' := by
  cases pc with
  | idle => cases h
  | enter k =>
      simp only [Pc.step] at h
      split at h
      · cases h
        exact .enter ‹_›
      · cases h
      · cases h
        exact .skip ‹_›
  | load k =>
      simp only [Pc.step] at h
      split at h
      · cases h
        exact .refuse ‹_›
      · cases h
        exact .shake (Bool.eq_false_iff.mpr ‹_›)
  | shaking k =>
      simp only [Pc.step] at h
      split at h
      · cases h
        exact .succeed ‹_›
      · cases h
        exact .fail ‹_›
  | publish k => cases h; exact .publish
  | leave k => cases h; exact .leave
  | proceed k => cases h; exact .proceed
  | lockIn n =>
      simp only [Pc.step] at h
      split at h
      · cases h
        exact .lockIn ‹_›
      · cases h
  | checkIn n =>
      simp only [Pc.step] at h
      split at h
      · cases h
        exact .shutIn ‹_›
      · cases h
        exact .passIn (Bool.eq_false_iff.mpr ‹_›)
  | buffered n =>
      simp only [Pc.step] at h
      split at h
      · cases h
        exact .drain ‹_›
      · split at h
        · cases h
          exact .stuck ‹_› ‹_›
        · cases h
          exact .fetch ‹_› ‹_›
  | reading n budget =>
      simp only [Pc.step] at h
      split at h
      · cases h
        exact .read ‹_›
      · cases h
        exact .again ‹_›
  | unlockIn res => cases h; exact .unlockIn
  | lockOut b =>
      simp only [Pc.step] at h
      split at h
      · cases h
        exact .lockOut ‹_›
      · cases h
  | checkOut b =>
      simp only [Pc.step] at h
      split at h
      · cases h
        exact .shutOut ‹_›
      · cases h
        exact .passOut (Bool.eq_false_iff.mpr ‹_›)
  | writing written b =>
      simp only [Pc.step] at h
      split at h
      · cases h
        exact .wrote ‹_›
      · split at h
        · cases h
          exact .torn ‹_› ‹_›
        · cases h
          exact .chunk ‹_› ‹_›
  | unlockOut written err => cases h; exact .unlockOut
  | swap =>
      simp only [Pc.step] at h
      split at h
      · cases h
        exact .late ‹_›
      · cases h
        exact .close (Bool.eq_false_iff.mpr ‹_›)
  | loadOK =>
      simp only [Pc.step] at h
      split at h
      · cases h
        exact .sawOK ‹_›
      · cases h
        exact .sawNone (Bool.eq_false_iff.mpr ‹_›)
  | tryLock =>
      simp only [Pc.step] at h
      split at h
      · cases h
        exact .tryLock ‹_›
      · cases h
        exact .tryFail
  | alert => cases h; exact .alert
  | release => cases h; exact .release
  | hangUp => cases h; exact .hangUp
  | ret out => cases h; exact .ret

/-- A thread makes a call, or moves. -/
theorem ThreadStep.moves {t : T} {pc pc' : Pc} {s s' : Shared T} {e : Option (CallEvent Call Outcome)}
    (h : ThreadStep t pc s e pc' s') :
    (∃ c, pc = .idle ∧ e = some (.invoke c) ∧ pc' = c.start ∧ s' = s) ∨ Moves t pc s e pc' s' := by
  cases h with
  | invoke c => exact .inl ⟨c, rfl, rfl, rfl, rfl⟩
  | run hrun => exact .inr (step_moves hrun)
  | tryFail => exact .inr .tryFail

end

end Gostls
