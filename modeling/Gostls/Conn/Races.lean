import Gostls.Conn.Concurrent

/-!
# `Gostls.Conn.Races` — locks, data races and progress

What the locks and flags of a connection achieve, in every run of any number of goroutines.

* `Pc.Known` and `Coherent` — what is known at each point of the code, and what the flags say;
* `Frame` — what a step may change under the feet of the other threads;
* `no_data_race` — no two threads are at the same data unless both only read it;
* `progress` — `Close` never waits, and what any other call waits for is held by a thread that can move.
-/

namespace Gostls

open Lib

/-! ## Who holds what -/

/-- The handshake has succeeded, and `Handshake` does not wait any more. -/
structure Ready {T : Type} (s : Shared T) : Prop where
  once : s.once = .done
  done : s.conn.handshakeDone = some (.ok ())

/-- What is known at each point of the code that thread `t` can be at. -/
def Pc.Known {T : Type} (t : T) (s : Shared T) : Pc → Prop
  | .idle | .enter _ | .swap | .ret _ => True
  | .load _ | .shaking _ => s.once = .running t ∧ s.conn.handshakeDone = none
  | .publish _ => s.once = .running t ∧ s.conn.handshakeDone = some (.ok ())
  | .leave _ => s.once = .running t ∧ s.conn.handshakeDone ≠ none
  | .proceed _ => s.once = .done
  | .lockIn _ | .lockOut _ => Ready s
  | .checkIn _ | .buffered _ | .reading _ _ | .unlockIn _ => Ready s ∧ s.inMu = some t
  | .checkOut _ | .writing _ _ | .unlockOut _ _ => Ready s ∧ s.outMu = some t
  | .loadOK | .hangUp => s.closer = some t
  | .tryLock => s.closer = some t ∧ s.handshakeOK = true
  | .alert | .release => s.closer = some t ∧ s.handshakeOK = true ∧ s.outMu = some t

/-- What the flags say. -/
structure Coherent {T : Type} (s : Shared T) : Prop where
  fresh : s.once = .fresh → s.conn.handshakeDone = none
  done : s.once = .done → s.conn.handshakeDone ≠ none
  ok : s.handshakeOK = true → s.conn.handshakeDone = some (.ok ())
  closed : s.conn.closed = s.closer.isSome

/-- The data of a connection that is neither atomic nor a lock: what `inMu` guards, what `outMu` guards,
    and the result of the handshake. -/
inductive Datum
  | recvSide
  | sendSide
  | handshakeErr

/-- What gives a thread the right to change a datum: it runs the handshake, or the handshake is over
    and it holds the mutex. -/
def Licensed {T : Type} (t : T) (s : Shared T) : Datum → Prop
  | .recvSide => s.once = .running t ∧ s.conn.handshakeDone = none ∨
      s.conn.handshakeDone = some (.ok ()) ∧ s.inMu = some t
  | .sendSide => s.once = .running t ∧ s.conn.handshakeDone = none ∨
      s.conn.handshakeDone = some (.ok ()) ∧ s.outMu = some t
  | .handshakeErr => s.once = .running t

/-- **One thread at a time** has the right. -/
theorem Licensed.unique {T : Type} {t u : T} {s : Shared T} {d : Datum} (ht : Licensed t s d)
    (hu : Licensed u s d) : t = u := by
  have hside : ∀ {m : Option T},
      s.once = .running t ∧ s.conn.handshakeDone = none ∨
        s.conn.handshakeDone = some (.ok ()) ∧ m = some t →
      s.once = .running u ∧ s.conn.handshakeDone = none ∨
        s.conn.handshakeDone = some (.ok ()) ∧ m = some u → t = u := by
    rintro m (⟨ht, hnone⟩ | ⟨hok, ht⟩) (⟨hu, hnone'⟩ | ⟨hok', hu⟩)
    · exact Once.running.inj (ht.symm.trans hu)
    · exact nomatch hnone.symm.trans hok'
    · exact nomatch hnone'.symm.trans hok
    · exact Option.some.inj (ht.symm.trans hu)
  cases d with
  | recvSide | sendSide => exact hside ht hu
  | handshakeErr => exact Once.running.inj (Eq.trans (Eq.symm ht) hu)

/-- What a step of thread `t` may change: a mutex that is free or its own, the handshake if it runs it,
    and the two sides of the connection if it has the right to. -/
structure Frame {T : Type} (t : T) (s s' : Shared T) : Prop where
  once : s'.once = s.once ∨ s.once = .fresh ∧ s'.once = .running t ∨
    s.once = .running t ∧ s'.once = .done
  inMu : s'.inMu = s.inMu ∨ s.inMu = none ∨ s.inMu = some t
  outMu : s'.outMu = s.outMu ∨ s.outMu = none ∨ s.outMu = some t
  done : s'.conn.handshakeDone = s.conn.handshakeDone ∨
    s.once = .running t ∧ s.conn.handshakeDone = none
  ok : s.handshakeOK = true → s'.handshakeOK = true
  closer : s'.closer = s.closer ∨ s.closer = none
  recv : Conn.recv.get s'.conn = Conn.recv.get s.conn ∨ Licensed t s .recvSide
  send : Conn.send.get s'.conn = Conn.send.get s.conn ∨ Licensed t s .sendSide
  config : s'.conn.doHandshake = s.conn.doHandshake ∧
    s'.conn.transportClose = s.conn.transportClose

/-- Reading does not change the flags. -/
theorem Conn.recv_flags {α : Type} {m : Conn → α × Conn} {a : α} {c c' : Conn}
    (hm : Conn.recv.Local m) (h : m c = (a, c')) :
    c'.handshakeDone = c.handshakeDone ∧ c'.closed = c.closed := by
  obtain rfl : (m c).2 = c' := congrArg Prod.snd h
  rw [hm.frame c]
  exact ⟨rfl, rfl⟩

/-- Writing does not change the flags. -/
theorem Conn.send_flags {α : Type} {m : Conn → α × Conn} {a : α} {c c' : Conn}
    (hm : Conn.send.Local m) (h : m c = (a, c')) :
    c'.handshakeDone = c.handshakeDone ∧ c'.closed = c.closed := by
  obtain rfl : (m c).2 = c' := congrArg Prod.snd h
  rw [hm.frame c]
  exact ⟨rfl, rfl⟩

section

variable {T : Type} {t u : T} {pc pc' : Pc} {s s' : Shared T} {e : Option (CallEvent Call Outcome)}

/-- Whoever else runs the handshake, holds a mutex or is closing still does. -/
theorem Frame.known (hf : Frame t s s') (hne : u ≠ t) (h : pc.Known u s) : pc.Known u s' := by
  have honce : ∀ {o : Once T}, s.once = o → o ≠ .fresh → o ≠ .running t → s'.once = o := by
    intro o ho hfresh hrun
    rcases hf.once with h' | ⟨h', -⟩ | ⟨h', -⟩
    · exact h'.trans ho
    · exact absurd (ho.symm.trans h') hfresh
    · exact absurd (ho.symm.trans h') hrun
  have hrunning : s.once = .running u → s'.once = .running u ∧
      s'.conn.handshakeDone = s.conn.handshakeDone := by
    intro hu
    have hother : Once.running u ≠ .running t := fun heq => hne (Once.running.inj heq)
    refine ⟨honce hu (fun heq => nomatch heq) hother, ?_⟩
    rcases hf.done with h' | ⟨h', -⟩
    · exact h'
    · exact absurd (hu.symm.trans h') hother
  have hready : Ready s → Ready s' := by
    rintro ⟨hdone, hok⟩
    refine ⟨honce hdone (fun heq => nomatch heq) (fun heq => nomatch heq), ?_⟩
    rcases hf.done with h' | ⟨h', -⟩
    · exact h'.trans hok
    · exact nomatch hdone.symm.trans h'
  have hheld : ∀ {m m' : Option T}, m' = m ∨ m = none ∨ m = some t → m = some u → m' = some u := by
    rintro m m' (h' | h' | h') hm
    · exact h'.trans hm
    · exact nomatch hm.symm.trans h'
    · exact absurd (Option.some.inj (hm.symm.trans h')) hne
  have hcloser : s.closer = some u → s'.closer = some u := by
    intro hu
    rcases hf.closer with h' | h'
    · exact h'.trans hu
    · exact nomatch hu.symm.trans h'
  cases pc with
  | idle | enter _ | swap | ret _ => trivial
  | load _ | shaking _ | publish _ =>
      obtain ⟨honce', hdone⟩ := hrunning h.1
      exact ⟨honce', hdone.trans h.2⟩
  | leave _ =>
      obtain ⟨honce', hdone⟩ := hrunning h.1
      exact ⟨honce', by rw [hdone]; exact h.2⟩
  | proceed _ => exact honce h (fun heq => nomatch heq) (fun heq => nomatch heq)
  | lockIn _ | lockOut _ => exact hready h
  | checkIn _ | buffered _ | reading _ _ | unlockIn _ => exact ⟨hready h.1, hheld hf.inMu h.2⟩
  | checkOut _ | writing _ _ | unlockOut _ _ => exact ⟨hready h.1, hheld hf.outMu h.2⟩
  | loadOK | hangUp => exact hcloser h
  | tryLock => exact ⟨hcloser h.1, hf.ok h.2⟩
  | alert | release => exact ⟨hcloser h.1, hf.ok h.2.1, hheld hf.outMu h.2.2⟩

/-- A step that changes neither the connection nor the handshake. -/
theorem Frame.of_conn (honce : s'.once = s.once) (hconn : s'.conn = s.conn)
    (hin : s'.inMu = s.inMu ∨ s.inMu = none ∨ s.inMu = some t)
    (hout : s'.outMu = s.outMu ∨ s.outMu = none ∨ s.outMu = some t)
    (hok : s.handshakeOK = true → s'.handshakeOK = true) (hcloser : s'.closer = s.closer) :
    Frame t s s' where
  once := .inl honce
  inMu := hin
  outMu := hout
  done := .inl (by rw [hconn])
  ok := hok
  closer := .inl hcloser
  recv := .inl (by rw [hconn])
  send := .inl (by rw [hconn])
  config := by rw [hconn]; exact ⟨rfl, rfl⟩

theorem Frame.refl (s : Shared T) : Frame t s s :=
  .of_conn rfl rfl (.inl rfl) (.inl rfl) id rfl

/-- A step in the receive side. -/
theorem Frame.receive {α : Type} {m : Conn → α × Conn} {a : α} {conn : Conn} (hm : Conn.recv.Local m)
    (hrun : m s.conn = (a, conn)) (hright : Licensed t s .recvSide) : Frame t s { s with conn } := by
  obtain rfl : (m s.conn).2 = conn := congrArg Prod.snd hrun
  have hframe := hm.frame s.conn
  exact {
    once := .inl rfl
    inMu := .inl rfl
    outMu := .inl rfl
    done := .inl (by rw [hframe]; rfl)
    ok := id
    closer := .inl rfl
    recv := .inr hright
    send := .inl (hm.get_other Conn.recv_send s.conn)
    config := by
      rw [hframe]
      exact ⟨rfl, rfl⟩ }

/-- A step in the send side. -/
theorem Frame.transmit {α : Type} {m : Conn → α × Conn} {a : α} {conn : Conn} (hm : Conn.send.Local m)
    (hrun : m s.conn = (a, conn)) (hright : Licensed t s .sendSide) : Frame t s { s with conn } := by
  obtain rfl : (m s.conn).2 = conn := congrArg Prod.snd hrun
  have hframe := hm.frame s.conn
  exact {
    once := .inl rfl
    inMu := .inl rfl
    outMu := .inl rfl
    done := .inl (by rw [hframe]; rfl)
    ok := id
    closer := .inl rfl
    recv := .inl (hm.get_other Conn.send_recv s.conn)
    send := .inr hright
    config := by
      rw [hframe]
      exact ⟨rfl, rfl⟩ }

/-- A step of the handshake, by the thread that runs it. -/
theorem Frame.settle {layer : Layer} {res : Except Err Unit}
    (h : s.once = .running t ∧ s.conn.handshakeDone = none) :
    Frame t s { s with conn.layer := layer, conn.handshakeDone := some res } where
  once := .inl rfl
  inMu := .inl rfl
  outMu := .inl rfl
  done := .inr h
  ok := id
  closer := .inl rfl
  recv := .inr (.inl h)
  send := .inr (.inl h)
  config := ⟨rfl, rfl⟩

theorem Moves.frame (hG : Coherent s) (h : pc.Known t s) (hstep : Moves t pc s e pc' s') :
    Frame t s s' := by
  cases hstep with
  | enter ho => exact { Frame.refl s with once := .inr (.inl ⟨ho, rfl⟩) }
  | leave => exact { Frame.refl s with once := .inr (.inr ⟨h.1, rfl⟩) }
  | refuse _ | succeed _ | fail _ => exact .settle h
  | publish => exact .of_conn rfl rfl (.inl rfl) (.inl rfl) (fun _ => rfl) rfl
  | lockIn hm => exact .of_conn rfl rfl (.inr (.inl hm)) (.inl rfl) id rfl
  | unlockIn => exact .of_conn rfl rfl (.inr (.inr h.2)) (.inl rfl) id rfl
  | lockOut hm | tryLock hm => exact .of_conn rfl rfl (.inl rfl) (.inr (.inl hm)) id rfl
  | unlockOut => exact .of_conn rfl rfl (.inl rfl) (.inr (.inr h.2)) id rfl
  | release => exact .of_conn rfl rfl (.inl rfl) (.inr (.inr h.2.2)) id rfl
  | @drain n _ _ =>
      exact .receive (m := fun c => ((), { c with readBuf := c.readBuf.drop n })) (fun _ _ => rfl) rfl
        (.inr ⟨h.1.done, h.2⟩)
  | read hr | again hr => exact .receive (Conn.readRound_local _ _) hr (.inr ⟨h.1.done, h.2⟩)
  | torn _ hw | chunk _ hw => exact .transmit (Conn.writeRecord_local _ _) hw (.inr ⟨h.1.done, h.2⟩)
  | alert => exact .transmit (Conn.writeRecord_local _ _) rfl (.inr ⟨hG.ok h.2.1, h.2.2⟩)
  | close hc =>
      have hnone : s.closer = none := by
        rw [hG.closed] at hc
        exact Option.isSome_eq_false_iff.mp hc |> Option.isNone_iff_eq_none.mp
      exact { Frame.refl s with closer := .inr hnone }
  | skip _ | shake _ | proceed | shutIn _ | passIn _ | stuck _ _ | fetch _ _ | shutOut _ | passOut _
  | wrote _ | late _ | sawOK _ | sawNone _ | tryFail | hangUp | ret => exact .refl s

/-- As long as the thread does not run the handshake, it leaves the flags in order. -/
theorem Frame.ready {conn : Conn} (hf : Frame t s { s with conn }) (h : Ready s) :
    Ready { s with conn } := by
  refine ⟨h.once, ?_⟩
  rcases hf.done with h' | ⟨h', -⟩
  · exact h'.trans h.done
  · exact nomatch h.once.symm.trans h'

theorem Moves.known (hG : Coherent s) (h : pc.Known t s) (hstep : Moves t pc s e pc' s') :
    pc'.Known t s' := by
  have hf := hstep.frame hG h
  cases hstep with
  | enter ho => exact ⟨rfl, hG.fresh ho⟩
  | skip ho => exact ho
  | refuse _ | fail _ => exact ⟨h.1, fun heq => nomatch heq⟩
  | shake _ => exact h
  | succeed _ => exact ⟨h.1, rfl⟩
  | publish => exact ⟨h.1, by rw [h.2]; exact fun heq => nomatch heq⟩
  | leave => rfl
  | @proceed k _ =>
      have hready : s.conn.handshakeErr = .ok () → Ready s := by
        intro hok
        unfold Conn.handshakeErr at hok
        cases hd : s.conn.handshakeDone with
        | none => exact absurd hd (hG.done h)
        | some res =>
            rw [hd] at hok
            obtain rfl : res = .ok () := hok
            exact ⟨h, hd⟩
      cases k with
      | handshake => trivial
      | read n =>
          cases hok : s.conn.handshakeErr with
          | ok _ => exact hready hok
          | error e => trivial
      | write b =>
          cases hok : s.conn.handshakeErr with
          | ok _ => exact hready hok
          | error e => trivial
  | lockIn _ => exact ⟨⟨h.once, h.done⟩, rfl⟩
  | lockOut _ => exact ⟨⟨h.once, h.done⟩, rfl⟩
  | shutIn _ | passIn _ | stuck _ _ | fetch _ _ | shutOut _ | passOut _ | wrote _ => exact h
  | drain _ | read _ | again _ | torn _ _ | chunk _ _ => exact ⟨hf.ready h.1, h.2⟩
  | unlockIn | unlockOut | late _ | hangUp | ret => trivial
  | close _ => rfl
  | sawOK hok => exact ⟨h, hok⟩
  | sawNone _ => exact h
  | tryLock _ => exact ⟨h.1, h.2, rfl⟩
  | tryFail => exact h.1
  | alert => exact h
  | release => exact h.1

/-- The flags stay in order when only the data of the connection changes. -/
theorem Coherent.conn {conn : Conn} (hG : Coherent s)
    (h : conn.handshakeDone = s.conn.handshakeDone ∧ conn.closed = s.conn.closed) :
    Coherent { s with conn } where
  fresh ho := h.1.trans (hG.fresh ho)
  done ho := by
    show conn.handshakeDone ≠ none
    rw [h.1]
    exact hG.done ho
  ok hok := h.1.trans (hG.ok hok)
  closed := h.2.trans hG.closed

theorem Moves.coherent (hG : Coherent s) (h : pc.Known t s) (hstep : Moves t pc s e pc' s') :
    Coherent s' := by
  cases hstep with
  | enter _ => exact ⟨nofun, nofun, hG.ok, hG.closed⟩
  | refuse _ | succeed _ | fail _ =>
      exact ⟨fun ho => (nomatch h.1.symm.trans ho), fun ho => (nomatch h.1.symm.trans ho),
        fun hok => (nomatch h.2.symm.trans (hG.ok hok)), hG.closed⟩
  | publish =>
      exact ⟨fun ho => (nomatch h.1.symm.trans ho), fun ho => (nomatch h.1.symm.trans ho), fun _ => h.2,
        hG.closed⟩
  | leave => exact ⟨nofun, fun _ => h.2, hG.ok, hG.closed⟩
  | drain _ => exact hG.conn ⟨rfl, rfl⟩
  | read hr | again hr => exact hG.conn (Conn.recv_flags (Conn.readRound_local _ _) hr)
  | torn _ hw | chunk _ hw => exact hG.conn (Conn.send_flags (Conn.writeRecord_local _ _) hw)
  | alert => exact hG.conn (Conn.send_flags (Conn.writeRecord_local _ _) rfl)
  | close _ => exact ⟨hG.fresh, hG.done, hG.ok, rfl⟩
  | lockIn _ | unlockIn | lockOut _ | unlockOut | tryLock _ | release =>
      exact ⟨hG.fresh, hG.done, hG.ok, hG.closed⟩
  | skip _ | shake _ | proceed | shutIn _ | passIn _ | stuck _ _ | fetch _ _ | shutOut _ | passOut _
  | wrote _ | late _ | sawOK _ | sawNone _ | tryFail | hangUp | ret => exact hG

end

/-! ## Runs -/

section

variable {T : Type}

/-- What is known of the threads of a connection, at any time. -/
abbrev Sound (σ : Threads T Pc (Shared T)) : Prop :=
  Threads.Asserts Coherent (fun t pc s => pc.Known t s) σ

theorem sound_goroutines {c : Conn} (hc : c.Unused) : Sound (goroutines T c) where
  shared := ⟨fun _ => hc.handshake, nofun, nofun, hc.closed⟩
  threads _ := trivial

theorem ThreadStep.sound {t : T} {pc pc' : Pc} {s s' : Shared T} {e : Option (CallEvent Call Outcome)}
    (hG : Coherent s) (h : pc.Known t s) (hstep : ThreadStep t pc s e pc' s') :
    Frame t s s' ∧ Coherent s' ∧ pc'.Known t s' := by
  rcases hstep.moves with ⟨call, rfl, -, rfl, rfl⟩ | hmove
  · refine ⟨.refl _, hG, ?_⟩
    cases call <;> trivial
  · exact ⟨hmove.frame hG h, hmove.coherent hG h, hmove.known hG h⟩

/-- **In every run**, what is known of the threads holds. -/
theorem sound_run [DecidableEq T] {σ₀ σ : Threads T Pc (Shared T)}
    {es : List (T × Option (CallEvent Call Outcome))} (hrun : Run (Threads.Step ThreadStep) σ₀ es σ)
    (h : Sound σ₀) : Sound σ := by
  refine Threads.Asserts.run ?_ ?_ hrun h
  · intro t pc s e pc' s' hG hpc hstep
    exact (ThreadStep.sound hG hpc hstep).2
  · intro t u pc m s e pc' s' hne hG hpc hm hstep
    exact (ThreadStep.sound hG hpc hstep).1.known hne hm

end

/-! ## Data races -/

namespace Pc

/-- The thread is about to change the datum, or in the middle of it. -/
def Writes : Pc → Datum → Prop
  | .load _, .handshakeErr => True
  | .shaking _, _ => True
  | .buffered _, .recvSide | .reading _ _, .recvSide => True
  | .writing _ _, .sendSide | .alert, .sendSide => True
  | _, _ => False

/-- The thread is about to use the datum, or in the middle of it. -/
def Uses : Pc → Datum → Prop
  | .proceed _, .handshakeErr => True
  | pc, d => pc.Writes d

end Pc

section

variable {T : Type} {t u : T} {pc : Pc} {s : Shared T} {d : Datum}

theorem Pc.Writes.licensed (hG : Coherent s) (h : pc.Known t s) (hw : pc.Writes d) : Licensed t s d := by
  cases pc with
  | load _ =>
      cases d with
      | handshakeErr => exact h.1
      | recvSide | sendSide => exact hw.elim
  | shaking _ =>
      cases d with
      | handshakeErr => exact h.1
      | recvSide | sendSide => exact .inl h
  | buffered _ | reading _ _ =>
      cases d with
      | recvSide => exact .inr ⟨h.1.done, h.2⟩
      | sendSide | handshakeErr => exact hw.elim
  | writing _ _ =>
      cases d with
      | sendSide => exact .inr ⟨h.1.done, h.2⟩
      | recvSide | handshakeErr => exact hw.elim
  | alert =>
      cases d with
      | sendSide => exact .inr ⟨hG.ok h.2.1, h.2.2⟩
      | recvSide | handshakeErr => exact hw.elim
  | idle | enter _ | publish _ | leave _ | proceed _ | lockIn _ | checkIn _ | unlockIn _ | lockOut _
  | checkOut _ | unlockOut _ _ | swap | loadOK | tryLock | release | hangUp | ret _ => exact hw.elim

/-- Whoever uses a datum has the right to change it, or reads the result of a handshake that is over. -/
theorem Pc.Uses.licensed (hG : Coherent s) (h : pc.Known t s) (hu : pc.Uses d) :
    Licensed t s d ∨ d = .handshakeErr ∧ s.once = .done := by
  by_cases hw : pc.Writes d
  · exact .inl (hw.licensed hG h)
  · cases pc with
    | proceed _ =>
        cases d with
        | handshakeErr => exact .inr ⟨rfl, h⟩
        | recvSide | sendSide => exact absurd hu hw
    | _ => exact absurd hu hw

end

/-- **No data race**: in every run of any number of goroutines, while one is at data of the connection
    to change it, no other one is at it at all. -/
theorem no_data_race {T : Type} [DecidableEq T] (c : Conn) (hc : c.Unused)
    (σ : Threads T Pc (Shared T)) (es : List (T × Option (CallEvent Call Outcome)))
    (hrun : Run (Threads.Step ThreadStep) (goroutines T c) es σ) (t u : T) (htu : t ≠ u) (d : Datum)
    (hw : (σ.pc t).Writes d) : ¬ (σ.pc u).Uses d := by
  have hsound := sound_run hrun (sound_goroutines hc)
  intro hu
  have ht := hw.licensed hsound.shared (hsound.threads t)
  rcases hu.licensed hsound.shared (hsound.threads u) with hu | ⟨rfl, hdone⟩
  · exact htu (ht.unique hu)
  · exact nomatch Eq.trans (Eq.symm ht) hdone

/-- A connection over the given stream whose handshake succeeds at once. -/
def Conn.unusedOver (input : Bytes) : Conn := { Conn.over input with handshakeDone := none }

/-- A `Read` that waits for its record while another thread writes. -/
def readAndWrite : List (Bool × Option Call) :=
  [(true, some (.task (.read 2))), (false, some (.task (.write [9])))] ++
    List.replicate 9 (true, none) ++ List.replicate 4 (false, none)

theorem no_data_race_read_write : ∃ σ es, Run (Threads.Step ThreadStep)
      (goroutines Bool (.unusedOver [23, 3, 3, 0, 1, 7])) es σ ∧
    ¬ (σ.pc false).Uses .recvSide ∧ ¬ (σ.pc true).Uses .sendSide := by
  obtain ⟨σ, hσ, hread, hwrite⟩ : ∃ σ, schedule readAndWrite
      (goroutines Bool (.unusedOver [23, 3, 3, 0, 1, 7])) = some σ ∧
      (σ.pc true).Writes .recvSide ∧ (σ.pc false).Writes .sendSide := ⟨_, rfl, trivial, trivial⟩
  obtain ⟨es, hrun⟩ := schedule_run .nil hσ
  have hc : (Conn.unusedOver [23, 3, 3, 0, 1, 7]).Unused := ⟨rfl, rfl, rfl, rfl, rfl, rfl⟩
  exact ⟨σ, es, hrun, no_data_race _ hc σ es hrun true false (by decide) .recvSide hread,
    no_data_race _ hc σ es hrun false true (by decide) .sendSide hwrite⟩

/-! ## Waiting -/

namespace Pc

/-- In the function of `handshakeOnce.Do`. -/
def InDo : Pc → Prop
  | .load _ | .shaking _ | .publish _ | .leave _ => True
  | _ => False

def HoldsIn : Pc → Prop
  | .checkIn _ | .buffered _ | .reading _ _ | .unlockIn _ => True
  | _ => False

def HoldsOut : Pc → Prop
  | .checkOut _ | .writing _ _ | .unlockOut _ _ | .alert | .release => True
  | _ => False

/-- How many steps a `Close` still has to take, at most. -/
def stepsToClose : Pc → Option Nat
  | .swap            => some 7
  | .loadOK          => some 6
  | .tryLock         => some 5
  | .alert           => some 4
  | .release         => some 3
  | .hangUp          => some 2
  | .ret (.close _)  => some 1
  | _                => none

end Pc

def Once.owner {T : Type} : Once T → Option T
  | .running t => some t
  | _          => none

section

variable {T : Type} {t : T} {pc pc' : Pc} {s s' : Shared T} {e : Option (CallEvent Call Outcome)}

/-- Thread `u` has what the thread is waiting for. -/
inductive WaitsFor (u : T) : Pc → Shared T → Prop
  | once {k : Task} {s : Shared T} (h : s.once = .running u) : WaitsFor u (.enter k) s
  | inMu {n : Nat} {s : Shared T} (h : s.inMu = some u) : WaitsFor u (.lockIn n) s
  | outMu {b : Bytes} {s : Shared T} (h : s.outMu = some u) : WaitsFor u (.lockOut b) s

/-- The thread can move. -/
def Pc.Enabled (t : T) (pc : Pc) (s : Shared T) : Prop := (pc.step t s).isSome

/-- In the middle of a call, a thread can move, or somebody else has what it waits for. -/
theorem enabled_or_waits (h : pc ≠ .idle) : pc.Enabled t s ∨ ∃ u, WaitsFor u pc s := by
  unfold Pc.Enabled
  cases pc with
  | idle => exact absurd rfl h
  | enter k =>
      cases ho : s.once with
      | fresh | done => exact .inl (by simp only [Pc.step, ho]; rfl)
      | running u => exact .inr ⟨u, .once ho⟩
  | lockIn n =>
      cases hm : s.inMu with
      | none => exact .inl (by simp only [Pc.step, hm]; rfl)
      | some u => exact .inr ⟨u, .inMu hm⟩
  | lockOut b =>
      cases hm : s.outMu with
      | none => exact .inl (by simp only [Pc.step, hm]; rfl)
      | some u => exact .inr ⟨u, .outMu hm⟩
  | load _ | shaking _ | checkIn _ | reading _ _ | checkOut _ | swap | loadOK | tryLock =>
      left
      simp only [Pc.step]
      split <;> rfl
  | buffered _ | writing _ _ =>
      left
      simp only [Pc.step]
      split
      · rfl
      · split <;> rfl
  | publish _ | leave _ | proceed _ | unlockIn _ | unlockOut _ _ | alert | release | hangUp | ret _ =>
      exact .inl rfl

/-- Nothing that a thread does with a lock in its hands can make it wait. -/
theorem enabled_of_holds (h : pc.InDo ∨ pc.HoldsIn ∨ pc.HoldsOut) : pc.Enabled t s := by
  have hne : pc ≠ .idle := by
    rintro rfl
    rcases h with h | h | h <;> exact h
  rcases enabled_or_waits hne with henabled | ⟨u, hwaits⟩
  · exact henabled
  · cases hwaits with
    | once _ | inMu _ | outMu _ => rcases h with h | h | h <;> exact h.elim

/-- `Close` waits for nothing. -/
theorem enabled_of_closing {n : Nat} (h : pc.stepsToClose = some n) : pc.Enabled t s := by
  have hne : pc ≠ .idle := by
    rintro rfl
    cases h
  rcases enabled_or_waits hne with henabled | ⟨u, hwaits⟩
  · exact henabled
  · cases hwaits with
    | once _ | inMu _ | outMu _ => cases h

/-- Every step of a `Close` brings it closer to its end. -/
theorem Moves.closer {n : Nat} (hstep : Moves t pc s e pc' s') (h : pc.stepsToClose = some n) :
    pc' = .idle ∨ ∃ m, pc'.stepsToClose = some m ∧ m < n := by
  cases hstep with
  | late _ | close _ | sawOK _ | sawNone _ | tryLock _ | tryFail | alert | release | hangUp =>
      cases h
      exact .inr ⟨_, rfl, by decide⟩
  | ret => exact .inl rfl
  | _ => cases h

theorem ThreadStep.once_owner (hstep : ThreadStep t pc s e pc' s') :
    s'.once.owner = s.once.owner ∧ (pc.InDo → pc'.InDo) ∨ s'.once.owner = some t ∧ pc'.InDo ∨
      s'.once.owner = none := by
  rcases hstep.moves with ⟨c, rfl, -, rfl, rfl⟩ | hmove
  · exact .inl ⟨rfl, fun h => h.elim⟩
  · cases hmove with
    | enter _ => exact .inr (.inl ⟨rfl, trivial⟩)
    | leave => exact .inr (.inr rfl)
    | refuse _ | shake _ | succeed _ | fail _ | publish => exact .inl ⟨rfl, fun _ => trivial⟩
    | _ => exact .inl ⟨rfl, fun h => h.elim⟩

theorem ThreadStep.inMu_owner (hstep : ThreadStep t pc s e pc' s') :
    s'.inMu = s.inMu ∧ (pc.HoldsIn → pc'.HoldsIn) ∨ s'.inMu = some t ∧ pc'.HoldsIn ∨ s'.inMu = none := by
  rcases hstep.moves with ⟨c, rfl, -, rfl, rfl⟩ | hmove
  · exact .inl ⟨rfl, fun h => h.elim⟩
  · cases hmove with
    | lockIn _ => exact .inr (.inl ⟨rfl, trivial⟩)
    | unlockIn => exact .inr (.inr rfl)
    | shutIn _ | passIn _ | drain _ | stuck _ _ | fetch _ _ | read _ | again _ =>
        exact .inl ⟨rfl, fun _ => trivial⟩
    | _ => exact .inl ⟨rfl, fun h => h.elim⟩

theorem ThreadStep.outMu_owner (hstep : ThreadStep t pc s e pc' s') :
    s'.outMu = s.outMu ∧ (pc.HoldsOut → pc'.HoldsOut) ∨ s'.outMu = some t ∧ pc'.HoldsOut ∨
      s'.outMu = none := by
  rcases hstep.moves with ⟨c, rfl, -, rfl, rfl⟩ | hmove
  · exact .inl ⟨rfl, fun h => h.elim⟩
  · cases hmove with
    | lockOut _ | tryLock _ => exact .inr (.inl ⟨rfl, trivial⟩)
    | unlockOut | release => exact .inr (.inr rfl)
    | shutOut _ | passOut _ | wrote _ | torn _ _ | chunk _ _ | alert =>
        exact .inl ⟨rfl, fun _ => trivial⟩
    | _ => exact .inl ⟨rfl, fun h => h.elim⟩

end

section

variable {T : Type} [DecidableEq T] {c : Conn} {σ : Threads T Pc (Shared T)}
  {es : List (T × Option (CallEvent Call Outcome))}
  (hrun : Run (Threads.Step ThreadStep) (goroutines T c) es σ)
include hrun

/-- Who runs the handshake, or holds a mutex, is where that is done. -/
theorem once_held (t : T) (h : σ.shared.once = .running t) : (σ.pc t).InDo :=
  Threads.owned_run (fun s => s.once.owner) Pc.InDo (fun _ _ _ _ _ _ => ThreadStep.once_owner) hrun
    (fun _ h => nomatch h) t (congrArg Once.owner h)

theorem inMu_held (t : T) (h : σ.shared.inMu = some t) : (σ.pc t).HoldsIn :=
  Threads.owned_run Shared.inMu Pc.HoldsIn (fun _ _ _ _ _ _ => ThreadStep.inMu_owner) hrun
    (fun _ h => nomatch h) t h

theorem outMu_held (t : T) (h : σ.shared.outMu = some t) : (σ.pc t).HoldsOut :=
  Threads.owned_run Shared.outMu Pc.HoldsOut (fun _ _ _ _ _ _ => ThreadStep.outMu_owner) hrun
    (fun _ h => nomatch h) t h

end

/-- **Progress**: in every run of any number of goroutines, a thread in the middle of a call can move, or
    waits for one that can; and a `Close` can always move, and is over after at most seven steps of its
    own. -/
theorem progress {T : Type} [DecidableEq T] (c : Conn) (σ : Threads T Pc (Shared T))
    (es : List (T × Option (CallEvent Call Outcome)))
    (hrun : Run (Threads.Step ThreadStep) (goroutines T c) es σ) (t : T) (ht : σ.pc t ≠ .idle) :
    ((σ.pc t).Enabled t σ.shared ∨
      ∃ u, WaitsFor u (σ.pc t) σ.shared ∧ (σ.pc u).Enabled u σ.shared) ∧
    ∀ n, (σ.pc t).stepsToClose = some n → n ≤ 7 ∧ (σ.pc t).Enabled t σ.shared ∧
      ∀ e pc' s', ThreadStep t (σ.pc t) σ.shared e pc' s' →
        pc' = .idle ∨ ∃ m, pc'.stepsToClose = some m ∧ m < n := by
  constructor
  · rcases enabled_or_waits ht with henabled | ⟨u, hwaits⟩
    · exact .inl henabled
    · refine .inr ⟨u, hwaits, enabled_of_holds ?_⟩
      generalize σ.pc t = pc at hwaits
      cases hwaits with
      | once h => exact .inl (once_held hrun u h)
      | inMu h => exact .inr (.inl (inMu_held hrun u h))
      | outMu h => exact .inr (.inr (outMu_held hrun u h))
  · intro n hn
    refine ⟨?_, enabled_of_closing hn, ?_⟩
    · generalize σ.pc t = pc at hn
      unfold Pc.stepsToClose at hn
      split at hn <;> cases hn <;> decide
    · intro e pc' s' hstep
      rcases hstep.moves with ⟨_, hidle, -⟩ | hmove
      · exact absurd hidle ht
      · exact hmove.closer hn

/-- Two threads write; one is in `WriteRecord`, the other one waits for `outMu`. -/
def twoWriters : List (Bool × Option Call) :=
  [(true, some (.task (.write [1]))), (false, some (.task (.write [2])))] ++
    List.replicate 8 (true, none) ++ List.replicate 2 (false, none)

theorem progress_two_writers : ∃ σ es, Run (Threads.Step ThreadStep)
      (goroutines Bool (.unusedOver [])) es σ ∧
    WaitsFor true (σ.pc false) σ.shared ∧ (σ.pc true).Enabled true σ.shared := by
  obtain ⟨σ, hσ, hpc, hwaits⟩ : ∃ σ, schedule twoWriters (goroutines Bool (.unusedOver [])) = some σ ∧
      σ.pc false = .lockOut [2] ∧ σ.shared.outMu = some true := ⟨_, rfl, rfl, rfl⟩
  obtain ⟨es, hrun⟩ := schedule_run .nil hσ
  refine ⟨σ, es, hrun, by rw [hpc]; exact .outMu hwaits, ?_⟩
  obtain ⟨henabled | ⟨u, hu, henabled⟩, -⟩ :=
    progress _ σ es hrun false (by rw [hpc]; exact fun heq => nomatch heq)
  · rw [hpc] at henabled
    simp only [Pc.Enabled, Pc.step, hwaits] at henabled
    cases henabled
  · rw [hpc] at hu
    cases hu with
    | outMu h =>
        obtain rfl : true = u := Option.some.inj (hwaits.symm.trans h)
        exact henabled

end Gostls
