import Gostls.Conn.Races

/-!
# `Gostls.Conn.Linearizable` — concurrent calls take effect one at a time

The calls of any number of goroutines on a connection have their effects one at a time, each within its
own call, and return what the sequential connection returns there (`conn_linearizable`). The effects are
those of `Conn.act`: `Handshake`, `Read` and `Write` are the operations of `Gostls.Conn.Basic`; `Close`
marks the connection closed. Not every call is atomic, and `Conn.script` says how: a `Read` or `Write`
may run the handshake at an earlier moment than it reads or writes, so that a `Close` can come between;
and the first `Close` may send its `close_notify` at a later moment than it marks the connection.

A `Read` or `Write` takes effect when it finds the connection open, with its mutex in hand. What it then
does to its side of the connection takes further steps, so the object is ahead of the connection until
they are done: `Linked` says by how much.
-/

namespace Gostls

open Lib

/-! ## The object -/

/-- What happens to a connection at one moment: a `Handshake`, `Read` or `Write`, a `Close` that finds the
    connection open or one that finds it closed, and the alert inside `Close`. -/
inductive Effect
  | task (k : Task)
  | close
  | closeAgain
  | notify

/-- The handshake that a `Read` or `Write` runs is an effect of its own. -/
inductive Effect.Before : Call → Effect → Prop
  | read {n : Nat} : Before (.task (.read n)) (.task .handshake)
  | write {b : Bytes} : Before (.task (.write b)) (.task .handshake)

inductive Effect.Answers : Call → Effect → Prop
  | task {k : Task} : Answers (.task k) (.task k)
  | close : Answers .close .close
  | closeAgain : Answers .close .closeAgain

/-- Only the `Close` that has closed the connection sends the alert. -/
inductive Effect.After : Effect → Effect → Prop
  | notify : After .close .notify

namespace Conn

/-- The effects of the calls: a `Handshake` has one, and so has a `Close` that comes late. -/
def script : Script Call Effect where
  before := Effect.Before
  answers := Effect.Answers
  after := Effect.After

/-- The alert inside `Close`. -/
def closeNotify (c : Conn) : Except Err Unit × Conn :=
  c.writeRecord contentTypeAlert closeNotifyAlert

/-- A connection whose effects are taken one at a time. A connection is closed once. -/
def act : Effect → Conn → Option (Outcome × Conn)
  | .task .handshake, c => some (.handshake c.handshake.1, c.handshake.2)
  | .task (.read n), c  => some (.read (c.read n).1, (c.read n).2)
  | .task (.write b), c => some (.write (c.write b).1.1 (c.write b).1.2, (c.write b).2)
  | .close, c           =>
      if c.closed then none else some (.close c.transportClose, { c with closed := true })
  | .closeAgain, c      => if c.closed then some (.close (.ok ()), c) else none
  | .notify, c          => some (.notify c.closeNotify.1, c.closeNotify.2)

/-- What `Read` does on an open connection. -/
def readBody (n : Nat) (c : Conn) : Except Err Bytes × Conn :=
  if c.readBuf.length > 0 then (.ok (c.readBuf.take n), { c with readBuf := c.readBuf.drop n })
  else
    match c.readErr with
    | some e => (.error e, c)
    | none   => c.readLoop n maxEmptyRecords

/-- The connection once the handshake has run. -/
def shaken (c : Conn) : Conn :=
  { c with layer := (c.doHandshake c.layer).2, handshakeDone := some (c.doHandshake c.layer).1 }

variable {c c' : Conn}

theorem act_close_open (h : c.closed = false) :
    c.act .close = some (.close c.transportClose, { c with closed := true }) := by
  simp only [act, h, Bool.false_eq_true, if_false]

theorem act_closeAgain_shut (h : c.closed = true) : c.act .closeAgain = some (.close (.ok ()), c) := by
  simp only [act, h, if_true]

theorem close_shaken (hc : c.closed = false) (hd : c.handshakeDone = some (.ok ())) :
    c.close = (c.transportClose, ({ c with closed := true } : Conn).closeNotify.2) := by
  have hclose : ∀ {m : Except Err Unit × Conn}, m = ({ c with closed := true } : Conn).closeNotify →
      m.2.transportClose = c.transportClose := by
    rintro _ rfl
    rw [closeNotify, (writeRecord_local _ _).frame]
    rfl
  rw [close, if_neg (by rw [hc]; exact Bool.false_ne_true)]
  dsimp only
  split
  · exact congrArg (·, _) (hclose rfl)
  · rename_i hnot
    exact absurd hd (hnot ())

theorem close_unshaken (hc : c.closed = false) (hd : c.handshakeDone ≠ some (.ok ())) :
    c.close = (c.transportClose, { c with closed := true }) := by
  rw [close, if_neg (by rw [hc]; exact Bool.false_ne_true)]
  dsimp only
  split
  · rename_i hok
    exact absurd hok hd
  · rfl

/-- **The effects of `Close`** are the sequential `Close` when nothing comes between them. -/
theorem close_acts (c : Conn) :
    (c.closed = true → c.act .closeAgain = some (.close c.close.1, c.close.2)) ∧
    (c.closed = false → c.handshakeDone ≠ some (.ok ()) →
      c.act .close = some (.close c.close.1, c.close.2)) ∧
    (c.closed = false → c.handshakeDone = some (.ok ()) → ∃ c₁ out,
      c.act .close = some (.close c.close.1, c₁) ∧ c₁.act .notify = some (out, c.close.2)) := by
  refine ⟨fun hc => ?_, fun hc hd => ?_, fun hc hd => ?_⟩
  · rw [act_closeAgain_shut hc, close, if_pos hc]
  · rw [act_close_open hc, close_unshaken hc hd]
  · rw [act_close_open hc, close_shaken hc hd]
    exact ⟨_, _, rfl, rfl⟩

theorem handshake_some {res : Except Err Unit} (h : c.handshakeDone = some res) :
    c.handshake = (res, c) := by simp only [handshake, h]

theorem handshake_closed (h : c.handshakeDone = none) (hc : c.closed = true) :
    c.handshake = (.error errConnClosed, { c with handshakeDone := some (.error errConnClosed) }) := by
  simp only [handshake, h, hc, if_true]

theorem handshake_open (h : c.handshakeDone = none) (hc : c.closed = false) :
    c.handshake = ((c.doHandshake c.layer).1, c.shaken) := by
  simp only [handshake, h, hc, Bool.false_eq_true, if_false, shaken]

theorem read_failed {e : Err} (h : c.handshakeDone = some (.error e)) (n : Nat) :
    c.read n = (.error e, c) := by simp only [read, handshake_some h]

theorem read_shut (h : c.handshakeDone = some (.ok ())) (hc : c.closed = true) (n : Nat) :
    c.read n = (.error errConnClosed, c) := by simp only [read, handshake_some h, hc, if_true]

theorem read_open (h : c.handshakeDone = some (.ok ())) (hc : c.closed = false) (n : Nat) :
    c.read n = c.readBody n := by
  rcases read_cases h n with ⟨hcl, -⟩ | ⟨-, hbuf, hr⟩ | ⟨e, -, hbuf, herr, hr⟩ | ⟨-, hbuf, herr, hr⟩
  · exact absurd (hc.symm.trans hcl) Bool.false_ne_true
  · rw [hr, readBody, if_pos (List.length_pos_iff.mpr hbuf)]
  · rw [hr, readBody, if_neg (by simp [hbuf]), herr]
  · rw [hr, readBody, if_neg (by simp [hbuf]), herr]

theorem write_failed {e : Err} (h : c.handshakeDone = some (.error e)) (b : Bytes) :
    c.write b = ((0, some e), c) := by simp only [write, handshake_some h]

theorem write_shut (h : c.handshakeDone = some (.ok ())) (hc : c.closed = true) (b : Bytes) :
    c.write b = ((0, some errConnClosed), c) := by simp only [write, handshake_some h, hc, if_true]

theorem write_open (h : c.handshakeDone = some (.ok ())) (hc : c.closed = false) (b : Bytes) :
    c.write b = c.writeLoop b.length 0 b := by
  simp only [write, handshake_some h, hc, Bool.false_eq_true, if_false]

theorem readBody_local (n : Nat) : recv.Local (readBody n) := by
  intro c c'
  have hbuf : (recv.set c' (recv.get c)).readBuf = c.readBuf := rfl
  have herr : (recv.set c' (recv.get c)).readErr = c.readErr := rfl
  unfold readBody
  rw [hbuf, herr]
  by_cases hlen : c.readBuf.length > 0
  · rw [if_pos hlen, if_pos hlen]
    rfl
  · rw [if_neg hlen, if_neg hlen]
    cases c.readErr with
    | some e => rfl
    | none => exact readLoop_local n maxEmptyRecords c c'

/-- The two sides determine what the handshake makes of a connection. -/
theorem shaken_congr (hrecv : recv.get c' = recv.get c) (hsend : send.get c' = send.get c)
    (hhs : c'.doHandshake = c.doHandshake) :
    c'.shaken.handshakeDone = c.shaken.handshakeDone ∧ recv.get c'.shaken = recv.get c.shaken ∧
      send.get c'.shaken = send.get c.shaken := by
  have hlayer : c'.layer = c.layer :=
    Layer.ext_halves (congrArg RecvSide.half hrecv) (congrArg SendSide.half hsend)
  have hbuf : c'.readBuf = c.readBuf := congrArg RecvSide.readBuf hrecv
  have herr : c'.readErr = c.readErr := congrArg RecvSide.readErr hrecv
  have hcons : c'.consumed = c.consumed := congrArg RecvSide.consumed hrecv
  have hemit : c'.emitted = c.emitted := congrArg SendSide.emitted hsend
  simp only [shaken, recv, send, hlayer, hhs, hbuf, herr, hcons, hemit, and_self]

/-- More rounds than there are bytes make no difference to the loop of `Write`. -/
theorem writeLoop_rounds {rounds written : Nat} {b : Bytes} (h : b.length ≤ rounds) :
    c.writeLoop rounds written b = c.writeLoop b.length written b := by
  suffices hany : ∀ rounds' written b (c : Conn), b.length ≤ rounds → b.length ≤ rounds' →
      c.writeLoop rounds written b = c.writeLoop rounds' written b from hany _ _ _ _ h (Nat.le_refl _)
  clear h
  induction rounds with
  | zero =>
      intro rounds' written b c hb _
      have hnil : b.length = 0 := Nat.le_zero.mp hb
      cases rounds' with
      | zero => rfl
      | succ rounds' => simp only [writeLoop, if_pos hnil]
  | succ rounds ih =>
      intro rounds' written b c hb hb'
      by_cases hnil : b.length = 0
      · cases rounds' with
        | zero => simp only [writeLoop, if_pos hnil]
        | succ rounds' => simp only [writeLoop, if_pos hnil]
      · cases rounds' with
        | zero => exact absurd (Nat.le_zero.mp hb') hnil
        | succ rounds' =>
            simp only [writeLoop, if_neg hnil]
            cases c.writeRecord contentTypeApplicationData (b.take maxChunk) with
            | mk res c₁ =>
                cases res with
                | error e => rfl
                | ok _ =>
                    have hlen : (b.drop (b.take maxChunk).length).length < b.length := by
                      rw [List.length_drop, List.length_take]
                      simp only [maxChunk]
                      omega
                    exact ih rounds' _ _ c₁ (by omega) (by omega)

end Conn

/-! ## How far the object is ahead -/

section

variable {T : Type}

/-- Nobody is at work on a side of the connection: the handshake has not begun, or it is over and the
    side's mutex is free. -/
def AtRest (s : Shared T) (mu : Option T) : Prop :=
  s.once = .fresh ∨ s.conn.handshakeDone ≠ none ∧ mu = none

/-- The flags of the object are those of the connection, and so are the sides at rest. -/
structure InStep (s : Shared T) (x : Conn) : Prop where
  closed : x.closed = s.conn.closed
  doHandshake : x.doHandshake = s.conn.doHandshake
  transportClose : x.transportClose = s.conn.transportClose
  fresh : s.once = .fresh → x.handshakeDone = none
  done : ∀ res, s.conn.handshakeDone = some res → x.handshakeDone = some res
  recv : AtRest s s.inMu → Conn.recv.get x = Conn.recv.get s.conn
  send : AtRest s s.outMu → Conn.send.get x = Conn.send.get s.conn

/-- A call that has run the handshake, or found it done: `Handshake` may have its answer. -/
inductive Shook (k : Task) (ph : Phase Call Effect Outcome) (x : Conn) : Prop
  | pending (h : ph.call = some (.task k))
  | answered {res : Except Err Unit} (hk : k = .handshake) (h : ph.outcome = some (.handshake res))
      (hx : x.handshakeDone = some res)

/-- Where a thread is in the call, and what it still has to do to its side of the connection: the object
    has it done already. -/
def Linked : Pc → Phase Call Effect Outcome → Shared T → Conn → Prop
  | .idle, ph, _, _ => ph = .outside
  | .enter k, ph, _, _ => ph = .pending (.task k) false
  | .load k, ph, s, x => ph = .pending (.task k) false ∧ x.handshakeDone = none ∧
      Conn.recv.get x = Conn.recv.get s.conn ∧ Conn.send.get x = Conn.send.get s.conn
  | .shaking k, ph, s, x => Shook k ph x ∧ x.handshakeDone = s.conn.shaken.handshakeDone ∧
      Conn.recv.get x = Conn.recv.get s.conn.shaken ∧ Conn.send.get x = Conn.send.get s.conn.shaken
  | .publish k, ph, _, x | .leave k, ph, _, x | .proceed k, ph, _, x => Shook k ph x
  | .lockIn n, ph, _, _ => ph.call = some (.task (.read n))
  | .checkIn n, ph, s, x => ph.call = some (.task (.read n)) ∧ Conn.recv.get x = Conn.recv.get s.conn
  | .buffered n, ph, s, x => ph.outcome = some (.read (s.conn.readBody n).1) ∧
      Conn.recv.get x = Conn.recv.get (s.conn.readBody n).2
  | .reading n budget, ph, s, x => ph.outcome = some (.read (s.conn.readLoop n budget).1) ∧
      Conn.recv.get x = Conn.recv.get (s.conn.readLoop n budget).2
  | .unlockIn res, ph, s, x => ph.outcome = some (.read res) ∧ Conn.recv.get x = Conn.recv.get s.conn
  | .lockOut b, ph, _, _ => ph.call = some (.task (.write b))
  | .checkOut b, ph, s, x => ph.call = some (.task (.write b)) ∧ Conn.send.get x = Conn.send.get s.conn
  | .writing written b, ph, s, x =>
      ph.outcome = some (.write (s.conn.writeLoop b.length written b).1.1
        (s.conn.writeLoop b.length written b).1.2) ∧
      Conn.send.get x = Conn.send.get (s.conn.writeLoop b.length written b).2
  | .unlockOut written err, ph, s, x =>
      ph.outcome = some (.write written err) ∧ Conn.send.get x = Conn.send.get s.conn
  | .swap, ph, _, _ => ph.call = some .close
  | .loadOK, ph, s, _ | .tryLock, ph, s, _ =>
      ph = .answered .close (.close s.conn.transportClose) false
  | .alert, ph, s, x =>
      ph = .answered .close (.close s.conn.transportClose) false ∧ Conn.send.get x = Conn.send.get s.conn
  | .release, ph, s, x =>
      ph.outcome = some (.close s.conn.transportClose) ∧ Conn.send.get x = Conn.send.get s.conn
  | .hangUp, ph, s, _ => ph.outcome = some (.close s.conn.transportClose)
  | .ret out, ph, _, _ => ph.outcome = some out

/-- What an action of thread `t` may change in the object. -/
structure ActFrame (t : T) (s : Shared T) (x x' : Conn) : Prop where
  done : x'.handshakeDone = x.handshakeDone ∨ s.once = .running t ∧ s.conn.handshakeDone = none
  recv : Conn.recv.get x' = Conn.recv.get x ∨ Licensed t s .recvSide
  send : Conn.send.get x' = Conn.send.get x ∨ Licensed t s .sendSide

theorem Shook.congr {k : Task} {ph : Phase Call Effect Outcome} {x x' : Conn} (h : Shook k ph x)
    (hx : x'.handshakeDone = x.handshakeDone) : Shook k ph x' := by
  cases h with
  | pending h => exact .pending h
  | answered hk h hres => exact .answered hk h (hx.trans hres)

theorem ActFrame.refl {t : T} {s : Shared T} (x : Conn) : ActFrame t s x x :=
  ⟨.inl rfl, .inl rfl, .inl rfl⟩

variable {t u : T} {pc pc' : Pc} {s s' : Shared T} {x x' : Conn} {ph : Phase Call Effect Outcome}

/-- **Other threads stay linked**: what they are at work on, nobody else touches. -/
theorem Linked.other (hf : Frame t s s') (hx : ActFrame t s x x') (hne : u ≠ t) (hG : Coherent s)
    (hk : pc.Known u s) (h : Linked pc ph s x) : Linked pc ph s' x' := by
  have hrecv : Licensed u s .recvSide →
      Conn.recv.get s'.conn = Conn.recv.get s.conn ∧ Conn.recv.get x' = Conn.recv.get x := by
    intro hu
    have hnot : ¬ Licensed t s .recvSide := fun ht => hne (hu.unique ht)
    exact ⟨hf.recv.resolve_right hnot, hx.recv.resolve_right hnot⟩
  have hsend : Licensed u s .sendSide →
      Conn.send.get s'.conn = Conn.send.get s.conn ∧ Conn.send.get x' = Conn.send.get x := by
    intro hu
    have hnot : ¬ Licensed t s .sendSide := fun ht => hne (hu.unique ht)
    exact ⟨hf.send.resolve_right hnot, hx.send.resolve_right hnot⟩
  have hdone : s.once = .running u ∨ s.once = .done → x'.handshakeDone = x.handshakeDone := by
    refine fun hu => hx.done.resolve_right fun ht => ?_
    rcases hu with hu | hu
    · exact hne (Once.running.inj (hu.symm.trans ht.1))
    · cases hu.symm.trans ht.1
  cases pc with
  | idle | enter _ | lockIn _ | lockOut _ | swap | ret _ => exact h
  | publish k | leave k => exact h.congr (hdone (.inl hk.1))
  | proceed k => exact h.congr (hdone (.inr hk))
  | load k =>
      obtain ⟨hr, hr'⟩ := hrecv (.inl hk)
      obtain ⟨hs, hs'⟩ := hsend (.inl hk)
      exact ⟨h.1, (hdone (.inl hk.1)).trans h.2.1, by rw [hr, hr', h.2.2.1], by rw [hs, hs', h.2.2.2]⟩
  | shaking k =>
      obtain ⟨hr, hr'⟩ := hrecv (.inl hk)
      obtain ⟨hs, hs'⟩ := hsend (.inl hk)
      obtain ⟨hsd, hsr, hss⟩ := Conn.shaken_congr hr hs hf.config.1
      have hd := hdone (.inl hk.1)
      exact ⟨h.1.congr hd, by rw [hsd, hd, h.2.1], by rw [hsr, hr', h.2.2.1], by rw [hss, hs', h.2.2.2]⟩
  | checkIn _ | unlockIn _ =>
      obtain ⟨hr, hr'⟩ := hrecv (.inr ⟨hk.1.done, hk.2⟩)
      exact ⟨h.1, by rw [hr, hr', h.2]⟩
  | buffered n =>
      obtain ⟨hr, hr'⟩ := hrecv (.inr ⟨hk.1.done, hk.2⟩)
      obtain ⟨hres, hside⟩ := (Conn.readBody_local n).congr hr.symm
      exact ⟨by rw [hres, h.1], by rw [hside, hr', h.2]⟩
  | reading n budget =>
      obtain ⟨hr, hr'⟩ := hrecv (.inr ⟨hk.1.done, hk.2⟩)
      obtain ⟨hres, hside⟩ := (Conn.readLoop_local n budget).congr hr.symm
      exact ⟨by rw [hres, h.1], by rw [hside, hr', h.2]⟩
  | checkOut _ | unlockOut _ _ =>
      obtain ⟨hs, hs'⟩ := hsend (.inr ⟨hk.1.done, hk.2⟩)
      exact ⟨h.1, by rw [hs, hs', h.2]⟩
  | writing written b =>
      obtain ⟨hs, hs'⟩ := hsend (.inr ⟨hk.1.done, hk.2⟩)
      obtain ⟨hres, hside⟩ := (Conn.writeLoop_local b.length written b).congr hs.symm
      exact ⟨by rw [hres, h.1], by rw [hside, hs', h.2]⟩
  | loadOK | tryLock | hangUp =>
      simp only [Linked, hf.config.2] at h ⊢
      exact h
  | alert | release =>
      obtain ⟨hs, hs'⟩ := hsend (.inr ⟨hG.ok hk.2.1, hk.2.2⟩)
      exact ⟨by rw [hf.config.2]; exact h.1, by rw [hs, hs', h.2]⟩

/-! ## One step -/

theorem not_atRest {mu : Option T} (honce : s.once ≠ .fresh) (hmu : mu = some t) : ¬ AtRest s mu := by
  rintro (hfresh | ⟨-, hnone⟩)
  · exact honce hfresh
  · exact nomatch hmu.symm.trans hnone

theorem Ready.not_fresh (h : Ready s) : s.once ≠ .fresh := by
  rw [h.once]
  exact fun heq => nomatch heq

/-- A step in the receive side leaves the rest in step. -/
theorem InStep.receive {α : Type} {m : Conn → α × Conn} {a : α} {conn : Conn} (h : InStep s x)
    (hready : Ready s) (hin : s.inMu = some t) (hm : Conn.recv.Local m) (hrun : m s.conn = (a, conn)) :
    InStep { s with conn } x := by
  obtain rfl : (m s.conn).2 = conn := congrArg Prod.snd hrun
  have hsend := hm.get_other Conn.recv_send s.conn
  rw [hm.frame s.conn] at hsend ⊢
  exact ⟨h.closed, h.doHandshake, h.transportClose, h.fresh, h.done,
    fun hrest => absurd hrest (not_atRest hready.not_fresh hin),
    fun hrest => (h.send hrest).trans hsend.symm⟩

/-- A step in the send side leaves the rest in step. -/
theorem InStep.transmit {α : Type} {m : Conn → α × Conn} {a : α} {conn : Conn} (h : InStep s x)
    (honce : s.once ≠ .fresh) (hout : s.outMu = some t) (hm : Conn.send.Local m)
    (hrun : m s.conn = (a, conn)) : InStep { s with conn } x := by
  obtain rfl : (m s.conn).2 = conn := congrArg Prod.snd hrun
  have hrecv := hm.get_other Conn.send_recv s.conn
  rw [hm.frame s.conn] at hrecv ⊢
  exact ⟨h.closed, h.doHandshake, h.transportClose, h.fresh, h.done,
    fun hrest => (h.recv hrest).trans hrecv.symm,
    fun hrest => absurd hrest (not_atRest honce hout)⟩

/-- A thread that has the receive side in step may take `inMu` and give it back. -/
theorem InStep.setIn (h : InStep s x) (hr : Conn.recv.get x = Conn.recv.get s.conn) (mu : Option T) :
    InStep { s with inMu := mu } x :=
  ⟨h.closed, h.doHandshake, h.transportClose, h.fresh, h.done, fun _ => hr, h.send⟩

theorem InStep.setOut (h : InStep s x) (hs : Conn.send.get x = Conn.send.get s.conn) (mu : Option T) :
    InStep { s with outMu := mu } x :=
  ⟨h.closed, h.doHandshake, h.transportClose, h.fresh, h.done, h.recv, fun _ => hs⟩

/-- The same for actions of the object. -/
theorem InStep.receives {α : Type} {m : Conn → α × Conn} (h : InStep s x) (hready : Ready s)
    (hin : s.inMu = some t) (hm : Conn.recv.Local m) : InStep s (m x).2 := by
  have hsend := hm.get_other Conn.recv_send x
  rw [hm.frame x] at hsend ⊢
  exact ⟨h.closed, h.doHandshake, h.transportClose, h.fresh, h.done,
    fun hrest => absurd hrest (not_atRest hready.not_fresh hin),
    fun hrest => hsend.trans (h.send hrest)⟩

theorem InStep.transmits {α : Type} {m : Conn → α × Conn} (h : InStep s x) (honce : s.once ≠ .fresh)
    (hout : s.outMu = some t) (hm : Conn.send.Local m) : InStep s (m x).2 := by
  have hrecv := hm.get_other Conn.send_recv x
  rw [hm.frame x] at hrecv ⊢
  exact ⟨h.closed, h.doHandshake, h.transportClose, h.fresh, h.done,
    fun hrest => hrecv.trans (h.recv hrest), fun hrest => absurd hrest (not_atRest honce hout)⟩

theorem ActFrame.receives {α : Type} {m : Conn → α × Conn} (hm : Conn.recv.Local m)
    (hright : Licensed t s .recvSide) : ActFrame t s x (m x).2 :=
  ⟨.inl (Conn.recv_flags hm rfl).1, .inr hright, .inl (hm.get_other Conn.recv_send x)⟩

theorem ActFrame.transmits {α : Type} {m : Conn → α × Conn} (hm : Conn.send.Local m)
    (hright : Licensed t s .sendSide) : ActFrame t s x (m x).2 :=
  ⟨.inl (Conn.send_flags hm rfl).1, .inl (hm.get_other Conn.send_recv x), .inr hright⟩

/-- The object follows a step of thread `t`. -/
structure Follows (t : T) (ph : Phase Call Effect Outcome) (s : Shared T) (x : Conn)
    (e : Option (CallEvent Call Outcome)) (pc' : Pc) (s' : Shared T) (ms : List (Mark Call Effect Outcome))
    (ph' : Phase Call Effect Outcome) (x' : Conn) : Prop where
  visible : ms.filterMap Mark.visible = e.toList
  taken : Run (Taken Conn.act) x ms x'
  phase : Run (Phase.Step Conn.script) ph ms ph'
  shared : InStep s' x'
  own : Linked pc' ph' s' x'
  frame : ActFrame t s x x'

variable {e : Option (CallEvent Call Outcome)} {ph' : Phase Call Effect Outcome}

theorem Follows.silent (hin : InStep s' x) (hl : Linked pc' ph s' x) :
    ∃ ms ph' x', Follows t ph s x none pc' s' ms ph' x' :=
  ⟨[], ph, x, rfl, .nil, .nil, hin, hl, .refl x⟩

theorem Follows.commit {a : Effect} {o : Outcome} (hact : Conn.act a x = some (o, x'))
    (hphase : Phase.Step Conn.script ph (.commit a o) ph') (hin : InStep s' x')
    (hl : Linked pc' ph' s' x') (hframe : ActFrame t s x x') :
    ∃ ms ph' x', Follows t ph s x none pc' s' ms ph' x' := by
  exact ⟨[.commit a o], ph', x', rfl, .snoc .nil (.commit hact), .snoc .nil hphase, hin, hl, hframe⟩

/-- What `proceed` finds in `handshakeErr` is what the object has settled. -/
theorem InStep.handshakeErr (hin : InStep s x) (hG : Coherent s) (honce : s.once = .done) :
    x.handshakeDone = some s.conn.handshakeErr ∧ s.conn.handshakeDone = some s.conn.handshakeErr := by
  unfold Conn.handshakeErr
  cases hd : s.conn.handshakeDone with
  | none => exact absurd hd (hG.done honce)
  | some res => exact ⟨hin.done res hd, rfl⟩

/-- Behind `Do`: `Handshake` is answered, and so is a call that gives up. -/
theorem follows_proceed {k : Task} (hG : Coherent s) (honce : s.once = .done) (hin : InStep s x)
    (hl : Shook k ph x) :
    ∃ ms ph' x', Follows t ph s x none (k.proceed s.conn.handshakeErr) s ms ph' x' := by
  obtain ⟨hx, -⟩ := hin.handshakeErr hG honce
  generalize s.conn.handshakeErr = res at hx ⊢
  cases hl with
  | @answered res' hk hout hx' =>
      subst hk
      cases hx.symm.trans hx'
      exact Follows.silent hin hout
  | pending hcall =>
      cases k with
      | handshake =>
          have hact : Conn.act (.task .handshake) x = some (.handshake res, x) := by
            simp only [Conn.act, Conn.handshake_some hx]
          exact Follows.commit hact (.of_call hcall .task) hin rfl (.refl x)
      | read n =>
          cases res with
          | ok _ => exact Follows.silent hin hcall
          | error e =>
              have hact : Conn.act (.task (.read n)) x = some (.read (.error e), x) := by
                simp only [Conn.act, Conn.read_failed hx]
              exact Follows.commit hact (.of_call hcall .task) hin rfl (.refl x)
      | write b =>
          cases res with
          | ok _ => exact Follows.silent hin hcall
          | error e =>
              have hact : Conn.act (.task (.write b)) x = some (.write 0 (some e), x) := by
                simp only [Conn.act, Conn.write_failed hx]
              exact Follows.commit hact (.of_call hcall .task) hin rfl (.refl x)

/-- The handshake in `Do` answers a `Handshake`, and comes before the effect of a `Read` or `Write`. -/
theorem shook_handshake {k : Task} {res : Except Err Unit} (hx : x.handshakeDone = some res) :
    ∃ ph', Phase.Step Conn.script (.pending (.task k) false)
        (.commit (.task .handshake) (.handshake res)) ph' ∧
      Shook k ph' x := by
  cases k with
  | handshake => exact ⟨_, .answer .task, .answered rfl rfl hx⟩
  | read n => exact ⟨_, .before .read, .pending rfl⟩
  | write b => exact ⟨_, .before .write, .pending rfl⟩

/-- In `Do`: the handshake takes effect when the connection is found open, or closed. -/
theorem follows_load {k : Task} (hk : Pc.Known t s (.load k)) (hin : InStep s x)
    (hl : Linked (.load k) ph s x) :
    (s.conn.closed = true → ∃ ms ph' x', Follows t ph s x none (.leave k)
      { s with conn.handshakeDone := some (.error errConnClosed) } ms ph' x') ∧
    (s.conn.closed = false → ∃ ms ph' x', Follows t ph s x none (.shaking k) s ms ph' x') := by
  obtain ⟨rfl, hdone, hr, hs⟩ := hl
  have hrunning : s.once ≠ .fresh := by
    rw [hk.1]
    exact fun heq => nomatch heq
  constructor
  · intro hc
    have hact : Conn.act (.task .handshake) x = some (.handshake (.error errConnClosed),
        { x with handshakeDone := some (.error errConnClosed) }) := by
      simp only [Conn.act, Conn.handshake_closed hdone (hin.closed.trans hc)]
    obtain ⟨ph', hphase, hshook⟩ := shook_handshake (k := k)
      (x := { x with handshakeDone := some (.error errConnClosed) }) rfl
    refine Follows.commit hact hphase ?_ hshook ⟨.inr hk, .inl rfl, .inl rfl⟩
    exact ⟨hin.closed, hin.doHandshake, hin.transportClose, fun ho => absurd ho hrunning,
      fun _ h => h, fun _ => hr, fun _ => hs⟩
  · intro hc
    have hact : Conn.act (.task .handshake) x =
        some (.handshake (x.doHandshake x.layer).1, x.shaken) := by
      simp only [Conn.act, Conn.handshake_open hdone (hin.closed.trans hc)]
    have hnot : ∀ mu, ¬ AtRest s mu := by
      rintro mu (hfresh | ⟨hsome, -⟩)
      · exact hrunning hfresh
      · exact hsome hk.2
    obtain ⟨ph', hphase, hshook⟩ := shook_handshake (k := k) (x := x.shaken) rfl
    refine Follows.commit hact hphase ?_
      ⟨hshook, Conn.shaken_congr hr hs hin.doHandshake⟩ ⟨.inr hk, .inr (.inl hk), .inr (.inl hk)⟩
    exact ⟨hin.closed, hin.doHandshake, hin.transportClose, fun ho => absurd ho hrunning,
      fun _ h => (nomatch hk.2.symm.trans h), fun h => absurd h (hnot _), fun h => absurd h (hnot _)⟩

/-- The handshake ends: the connection catches up with the object. -/
theorem InStep.settle {k : Task} {res : Except Err Unit} {layer : Layer} (hk : Pc.Known t s (.shaking k))
    (hin : InStep s x) (hl : Linked (.shaking k) ph s x)
    (hd : s.conn.doHandshake s.conn.layer = (res, layer)) :
    InStep { s with conn.layer := layer, conn.handshakeDone := some res } x := by
  obtain ⟨-, hxd, hr, hs⟩ := hl
  have hshaken : s.conn.shaken = { s.conn with layer := layer, handshakeDone := some res } := by
    simp only [Conn.shaken, hd]
  rw [hshaken] at hxd hr hs
  refine ⟨hin.closed, hin.doHandshake, hin.transportClose, ?_, ?_, fun _ => hr, fun _ => hs⟩
  · intro ho
    exact nomatch hk.1.symm.trans ho
  · intro _ h
    exact hxd.trans h

/-- With `inMu` in hand: a `Read` takes effect when the connection is found open, or closed. -/
theorem follows_checkIn {n : Nat} (hk : Pc.Known t s (.checkIn n)) (hin : InStep s x)
    (hl : Linked (.checkIn n) ph s x) :
    (s.conn.closed = true → ∃ ms ph' x',
      Follows t ph s x none (.unlockIn (.error errConnClosed)) s ms ph' x') ∧
    (s.conn.closed = false → ∃ ms ph' x', Follows t ph s x none (.buffered n) s ms ph' x') := by
  obtain ⟨hready, hmu⟩ := hk
  obtain ⟨hcall, hr⟩ := hl
  have hdone := hin.done _ hready.done
  constructor
  · intro hc
    have hact : Conn.act (.task (.read n)) x = some (.read (.error errConnClosed), x) := by
      simp only [Conn.act, Conn.read_shut hdone (hin.closed.trans hc)]
    exact Follows.commit hact (.of_call hcall .task) hin ⟨rfl, hr⟩ (.refl x)
  · intro hc
    have hact : Conn.act (.task (.read n)) x =
        some (.read (x.readBody n).1, (x.readBody n).2) := by
      simp only [Conn.act, Conn.read_open hdone (hin.closed.trans hc)]
    obtain ⟨hres, hside⟩ := (Conn.readBody_local n).congr hr
    exact Follows.commit hact (.of_call hcall .task) (hin.receives hready hmu (Conn.readBody_local n))
      ⟨by rw [hres]; rfl, hside.symm⟩ (.receives (Conn.readBody_local n) (.inr ⟨hready.done, hmu⟩))

/-- With `outMu` in hand: a `Write` takes effect when the connection is found open, or closed. -/
theorem follows_checkOut {b : Bytes} (hk : Pc.Known t s (.checkOut b)) (hin : InStep s x)
    (hl : Linked (.checkOut b) ph s x) :
    (s.conn.closed = true → ∃ ms ph' x',
      Follows t ph s x none (.unlockOut 0 (some errConnClosed)) s ms ph' x') ∧
    (s.conn.closed = false → ∃ ms ph' x', Follows t ph s x none (.writing 0 b) s ms ph' x') := by
  obtain ⟨hready, hmu⟩ := hk
  obtain ⟨hcall, hs⟩ := hl
  have hdone := hin.done _ hready.done
  constructor
  · intro hc
    have hact : Conn.act (.task (.write b)) x = some (.write 0 (some errConnClosed), x) := by
      simp only [Conn.act, Conn.write_shut hdone (hin.closed.trans hc)]
    exact Follows.commit hact (.of_call hcall .task) hin ⟨rfl, hs⟩ (.refl x)
  · intro hc
    have hlocal := Conn.writeLoop_local b.length 0 b
    have hact : Conn.act (.task (.write b)) x =
        some (.write (x.writeLoop b.length 0 b).1.1 (x.writeLoop b.length 0 b).1.2,
          (x.writeLoop b.length 0 b).2) := by
      simp only [Conn.act, Conn.write_open hdone (hin.closed.trans hc)]
    obtain ⟨hres, hside⟩ := hlocal.congr hs
    exact Follows.commit hact (.of_call hcall .task) (hin.transmits hready.not_fresh hmu hlocal)
      ⟨by rw [hres]; rfl, hside.symm⟩ (.transmits hlocal (.inr ⟨hready.done, hmu⟩))

/-- What is left of a `Read` behind the check of its buffer. -/
theorem linked_buffered {n : Nat} (hl : Linked (.buffered n) ph s x) :
    (s.conn.readBuf.length > 0 → Linked (.unlockIn (.ok (s.conn.readBuf.take n))) ph
      { s with conn.readBuf := s.conn.readBuf.drop n } x) ∧
    (¬ s.conn.readBuf.length > 0 → ∀ e, s.conn.readErr = some e →
      Linked (.unlockIn (.error e)) ph s x) ∧
    (¬ s.conn.readBuf.length > 0 → s.conn.readErr = none →
      Linked (.reading n maxEmptyRecords) ph s x) := by
  obtain ⟨hph, hr⟩ := hl
  unfold Conn.readBody at hph hr
  refine ⟨fun h => ?_, fun h e he => ?_, fun h he => ?_⟩
  · rw [if_pos h] at hph hr
    exact ⟨hph, hr⟩
  · rw [if_neg h, he] at hph hr
    exact ⟨hph, hr⟩
  · rw [if_neg h, he] at hph hr
    exact ⟨hph, hr⟩

/-- What is left of a `Read` after a round. -/
theorem linked_round {n budget : Nat} {round : Conn.Round} {conn : Conn}
    (hl : Linked (.reading n budget) ph s x) (hr : s.conn.readRound n budget = (round, conn)) :
    ph.outcome = some (.read (round.resume n conn).1) ∧
      Conn.recv.get x = Conn.recv.get (round.resume n conn).2 := by
  obtain ⟨hph, hside⟩ := hl
  rw [Conn.readLoop_eq, hr] at hph hside
  exact ⟨hph, hside⟩

/-- What is left of a `Write` after a chunk. -/
theorem linked_chunk {written : Nat} {b : Bytes} {res : Except Err Unit} {conn : Conn}
    (hl : Linked (.writing written b) ph s x) (hb : ¬ b.length = 0)
    (hw : s.conn.writeRecord contentTypeApplicationData (b.take maxChunk) = (res, conn)) :
    (∀ e, res = .error e → Linked (.unlockOut written (some e)) ph { s with conn } x) ∧
    (res = .ok () → Linked (.writing (written + (b.take maxChunk).length)
      (b.drop (b.take maxChunk).length)) ph { s with conn } x) := by
  obtain ⟨hph, hside⟩ := hl
  cases hlen : b.length with
  | zero => exact absurd hlen hb
  | succ rounds =>
      rw [hlen, Conn.writeLoop, if_neg hb] at hph hside
      simp only [hw] at hph hside
      constructor
      · rintro e rfl
        exact ⟨hph, hside⟩
      · rintro rfl
        have hrounds : (b.drop (b.take maxChunk).length).length ≤ rounds := by
          rw [List.length_drop, List.length_take]
          simp only [maxChunk]
          omega
        simp only [Conn.writeLoop_rounds hrounds] at hph hside
        exact ⟨hph, hside⟩

/-- **The object follows every step** of a thread in a call. -/
theorem Moves.follows (hG : Coherent s) (hk : pc.Known t s) (hin : InStep s x) (hl : Linked pc ph s x)
    (hmove : Moves t pc s e pc' s') : ∃ ms ph' x', Follows t ph s x e pc' s' ms ph' x' := by
  -- Locks and flags that the object does not have.
  have hsame : ∀ {s' : Shared T}, s'.conn = s.conn → s'.once = s.once → s'.inMu = s.inMu →
      s'.outMu = s.outMu → InStep s' x := by
    intro s' hc ho hi hm
    refine ⟨by rw [hc]; exact hin.closed, by rw [hc]; exact hin.doHandshake,
      by rw [hc]; exact hin.transportClose, by rw [ho]; exact hin.fresh, by rw [hc]; exact hin.done, ?_, ?_⟩
    · unfold AtRest
      rw [hc, ho, hi]
      exact hin.recv
    · unfold AtRest
      rw [hc, ho, hm]
      exact hin.send
  cases hmove with
  | enter ho =>
      refine Follows.silent ?_ ⟨hl, hin.fresh ho, hin.recv (.inl ho), hin.send (.inl ho)⟩
      exact ⟨hin.closed, hin.doHandshake, hin.transportClose, nofun, hin.done,
        fun _ => hin.recv (.inl ho), fun _ => hin.send (.inl ho)⟩
  | skip _ => exact Follows.silent hin (.pending (congrArg Phase.call hl))
  | refuse hc => exact (follows_load hk hin hl).1 hc
  | shake hc => exact (follows_load hk hin hl).2 hc
  | succeed hd => exact Follows.silent (hin.settle hk hl hd) hl.1
  | fail hd => exact Follows.silent (hin.settle hk hl hd) hl.1
  | publish => exact Follows.silent (hsame rfl rfl rfl rfl) hl
  | leave =>
      refine Follows.silent ?_ hl
      have hrest : ∀ {mu : Option T}, AtRest { s with once := .done } mu → AtRest s mu := by
        rintro mu (hfresh | hrest)
        · cases hfresh
        · exact .inr hrest
      exact ⟨hin.closed, hin.doHandshake, hin.transportClose, nofun, hin.done,
        fun h => hin.recv (hrest h), fun h => hin.send (hrest h)⟩
  | proceed => exact follows_proceed hG hk hin hl
  | lockIn hm =>
      have hr := hin.recv (.inr ⟨hG.done hk.once, hm⟩)
      exact Follows.silent (hin.setIn hr _) ⟨hl, hr⟩
  | shutIn hc => exact (follows_checkIn hk hin hl).1 hc
  | passIn hc => exact (follows_checkIn hk hin hl).2 hc
  | @drain n _ h =>
      refine Follows.silent ?_ ((linked_buffered hl).1 h)
      exact hin.receive (m := fun c => ((), { c with readBuf := c.readBuf.drop n })) hk.1 hk.2
        (fun _ _ => rfl) rfl
  | stuck h he => exact Follows.silent hin ((linked_buffered hl).2.1 h _ he)
  | fetch h he => exact Follows.silent hin ((linked_buffered hl).2.2 h he)
  | read hr =>
      exact Follows.silent (hin.receive hk.1 hk.2 (Conn.readRound_local _ _) hr) (linked_round hl hr)
  | again hr =>
      exact Follows.silent (hin.receive hk.1 hk.2 (Conn.readRound_local _ _) hr) (linked_round hl hr)
  | unlockIn => exact Follows.silent (hin.setIn hl.2 _) hl.1
  | lockOut hm =>
      have hs := hin.send (.inr ⟨hG.done hk.once, hm⟩)
      exact Follows.silent (hin.setOut hs _) ⟨hl, hs⟩
  | shutOut hc => exact (follows_checkOut hk hin hl).1 hc
  | passOut hc => exact (follows_checkOut hk hin hl).2 hc
  | wrote hb =>
      refine Follows.silent hin ?_
      have hnil := List.length_eq_zero_iff.mp hb
      subst hnil
      exact hl
  | torn hb hw =>
      exact Follows.silent (hin.transmit hk.1.not_fresh hk.2 (Conn.writeRecord_local _ _) hw)
        ((linked_chunk hl hb hw).1 _ rfl)
  | chunk hb hw =>
      exact Follows.silent (hin.transmit hk.1.not_fresh hk.2 (Conn.writeRecord_local _ _) hw)
        ((linked_chunk hl hb hw).2 rfl)
  | unlockOut => exact Follows.silent (hin.setOut hl.2 _) hl.1
  | late hc =>
      have hact := Conn.act_closeAgain_shut (hin.closed.trans hc)
      exact Follows.commit hact (.of_call hl .closeAgain) hin rfl (.refl x)
  | close hc =>
      have hact := Conn.act_close_open (hin.closed.trans hc)
      refine Follows.commit hact (.of_call hl .close) ?_ ?_ ⟨.inl rfl, .inl rfl, .inl rfl⟩
      · exact ⟨rfl, hin.doHandshake, hin.transportClose, hin.fresh, hin.done, hin.recv, hin.send⟩
      · exact congrArg (fun res => Phase.answered Effect.close (Outcome.close res) false) hin.transportClose
  | sawOK _ => exact Follows.silent hin hl
  | sawNone _ => exact Follows.silent hin (congrArg Phase.outcome hl)
  | tryLock hm =>
      have hdone : s.conn.handshakeDone ≠ none := by
        rw [hG.ok hk.2]
        exact fun heq => nomatch heq
      have hs := hin.send (.inr ⟨hdone, hm⟩)
      exact Follows.silent (hin.setOut hs _) ⟨hl, hs⟩
  | tryFail => exact Follows.silent hin (congrArg Phase.outcome hl)
  | alert =>
      have hlocal := Conn.writeRecord_local contentTypeAlert closeNotifyAlert
      have honce : s.once ≠ .fresh := by
        intro hfresh
        exact nomatch (hG.fresh hfresh).symm.trans (hG.ok hk.2.1)
      obtain ⟨rfl, hs⟩ := hl
      obtain ⟨-, hside⟩ := hlocal.congr hs
      refine Follows.commit (a := .notify) rfl (.after .notify)
        ((hin.transmit honce hk.2.2 hlocal rfl).transmits honce hk.2.2 hlocal) ?_
        (.transmits hlocal (.inr ⟨hG.ok hk.2.1, hk.2.2⟩))
      refine ⟨?_, hside.symm⟩
      rw [hlocal.frame s.conn]
      rfl
  | release => exact Follows.silent (hin.setOut hl.2 _) hl.1
  | hangUp => exact Follows.silent hin hl
  | @ret out _ =>
      exact ⟨[.ret out], .outside, x, rfl, .snoc .nil .ret, .snoc .nil (.of_outcome hl), hin, rfl, .refl x⟩

theorem ThreadStep.follows (hG : Coherent s) (hk : pc.Known t s) (hin : InStep s x)
    (hl : Linked pc ph s x) (hstep : ThreadStep t pc s e pc' s') :
    ∃ ms ph' x', Follows t ph s x e pc' s' ms ph' x' := by
  rcases hstep.moves with ⟨call, rfl, rfl, rfl, rfl⟩ | hmove
  · obtain rfl : ph = .outside := hl
    refine ⟨[.invoke call], .pending call false, x, rfl, .snoc .nil .invoke, .snoc .nil .invoke, hin, ?_,
      .refl x⟩
    cases call with
    | task k => rfl
    | close => rfl
  · exact hmove.follows hG hk hin hl

end

/-! ## Runs -/

section

variable {T : Type} [DecidableEq T] {c : Conn} {σ : Threads T Pc (Shared T)}
  {es : List (T × Option (CallEvent Call Outcome))}

/-- When no call is in progress, the object is the connection. -/
theorem InStep.eq_of_idle {x : Conn} (hrun : Run (Threads.Step ThreadStep) (goroutines T c) es σ)
    (hG : Coherent σ.shared) (hin : InStep σ.shared x) (hidle : ∀ t, σ.pc t = .idle) :
    x = σ.shared.conn := by
  have hinMu : σ.shared.inMu = none := by
    cases h : σ.shared.inMu with
    | none => rfl
    | some t =>
        have hpc := inMu_held hrun t h
        rw [hidle t] at hpc
        exact hpc.elim
  have houtMu : σ.shared.outMu = none := by
    cases h : σ.shared.outMu with
    | none => rfl
    | some t =>
        have hpc := outMu_held hrun t h
        rw [hidle t] at hpc
        exact hpc.elim
  have honce : σ.shared.once = .fresh ∨ σ.shared.once = .done := by
    cases h : σ.shared.once with
    | fresh => exact .inl rfl
    | done => exact .inr rfl
    | running t =>
        have hpc := once_held hrun t h
        rw [hidle t] at hpc
        exact hpc.elim
  have hrest : ∀ {mu : Option T}, mu = none → AtRest σ.shared mu := by
    intro mu hmu
    rcases honce with h | h
    · exact .inl h
    · exact .inr ⟨hG.done h, hmu⟩
  have hdone : x.handshakeDone = σ.shared.conn.handshakeDone := by
    rcases honce with h | h
    · rw [hin.fresh h, hG.fresh h]
    · obtain ⟨hx, hs⟩ := hin.handshakeErr hG h
      rw [hx, hs]
  exact Conn.ext_sides (hin.recv (hrest hinMu)) (hin.send (hrest houtMu)) hdone hin.closed
    hin.doHandshake hin.transportClose

end

/-- **A run and its object**: the history of a run is one of the sequential connection, which stays in
    step with the shared one. -/
theorem run_linearized {T : Type} [DecidableEq T] {c : Conn} (hc : c.Unused)
    {σ : Threads T Pc (Shared T)} {es : List (T × Option (CallEvent Call Outcome))}
    (hrun : Run (Threads.Step ThreadStep) (goroutines T c) es σ) :
    ∃ marks x, Linearized Conn.act Conn.script (history es) marks c x ∧ InStep σ.shared x := by
  have hstart : InStep (goroutines T c).shared c :=
    ⟨rfl, rfl, rfl, fun _ => hc.handshake, fun _ h => (nomatch hc.handshake.symm.trans h), fun _ => rfl,
      fun _ => rfl⟩
  have hstep : ∀ (σ : Threads T Pc (Shared T)) t e pc' s' ph x, Sound σ → InStep σ.shared x →
      Linked (σ.pc t) ph σ.shared x → ThreadStep t (σ.pc t) σ.shared e pc' s' →
      ∃ ms ph' x', Threads.Advances Conn.act Conn.script InStep (fun _ => Linked) σ t ph x e pc' s'
        ms ph' x' := by
    intro σ t e pc' s' ph x hσ hin hl hstep
    obtain ⟨ms, ph', x', hfollows⟩ := hstep.follows hσ.shared (hσ.threads t) hin hl
    obtain ⟨hframe, -⟩ := hstep.sound hσ.shared (hσ.threads t)
    refine ⟨ms, ph', x', hfollows.visible, hfollows.taken, hfollows.phase, hfollows.shared,
      hfollows.own, ?_⟩
    intro u phᵤ hu hlᵤ
    exact hlᵤ.other hframe hfollows.frame hu hσ.shared (hσ.threads u)
  obtain ⟨marks, x, -, hlin, hin, -⟩ := Threads.linearizes (P := Sound)
    (fun σ e σ' hσ hlast => sound_run (.snoc .nil hlast) hσ) hstep hrun (sound_goroutines hc) hstart
    (fun _ => rfl)
  exact ⟨marks, x, hlin, hin⟩

/-- **Linearizability**: however the calls of any number of goroutines on a new connection are
    interleaved, they have their effects one at a time, each within its own call, and a call returns what
    the sequential connection returns at the effect that answers it. Beside that one, a `Read` or `Write`
    has at most the handshake, before it; the `Close` that closes the connection has at most the
    `close_notify`, behind it; a `Handshake` or a later `Close` has none. When no call is in progress, the
    connection is the one that the effects have led to. -/
theorem conn_linearizable {T : Type} [DecidableEq T] (c : Conn) (hc : c.Unused)
    (σ : Threads T Pc (Shared T)) (es : List (T × Option (CallEvent Call Outcome)))
    (hrun : Run (Threads.Step ThreadStep) (goroutines T c) es σ) :
    ∃ marks x, Linearized Conn.act Conn.script (history es) marks c x ∧
      ((∀ t, σ.pc t = .idle) → x = σ.shared.conn) := by
  obtain ⟨marks, x, hlin, hin⟩ := run_linearized hc hrun
  refine ⟨marks, x, hlin, fun hidle => ?_⟩
  exact hin.eq_of_idle hrun (sound_run hrun (sound_goroutines hc)).shared hidle

theorem Conn.unusedOver_unused (input : Bytes) : (Conn.unusedOver input).Unused :=
  ⟨rfl, rfl, rfl, rfl, rfl, rfl⟩

/-- A `Read` and a `Write` that overlap. -/
theorem conn_linearizable_read_write : ∃ σ es marks x, Run (Threads.Step ThreadStep)
      (goroutines Bool (.unusedOver [23, 3, 3, 0, 1, 7])) es σ ∧
    Linearized Conn.act Conn.script (history es) marks (.unusedOver [23, 3, 3, 0, 1, 7]) x := by
  obtain ⟨σ, hσ⟩ : ∃ σ, schedule readAndWrite
      (goroutines Bool (.unusedOver [23, 3, 3, 0, 1, 7])) = some σ := ⟨_, rfl⟩
  obtain ⟨es, hrun⟩ := schedule_run .nil hσ
  obtain ⟨marks, x, hlin, -⟩ := conn_linearizable _ (Conn.unusedOver_unused _) σ es hrun
  exact ⟨σ, es, marks, x, hrun, hlin⟩

/-! ## The byte stream -/

/-- The bytes that the `Read`s return, in the order in which they take effect. -/
def bytesRead (marks : List (Mark Call Effect Outcome)) : Bytes :=
  marks.flatMap fun
    | .commit _ (.read (.ok b)) => b
    | _                         => []

theorem bytesRead_append (ms ms' : List (Mark Call Effect Outcome)) :
    bytesRead (ms ++ ms') = bytesRead ms ++ bytesRead ms' := List.flatMap_append

theorem bytesRead_read (a : Effect) (res : Except Err Bytes) :
    bytesRead [.commit a (.read res)] = returned [.read res] := by
  cases res <;> rfl

namespace Conn

variable {c c' : Conn}

/-- The handshake leaves the buffer of the connection and what `Read` has consumed alone. -/
theorem handshake_same (c : Conn) :
    c.handshake.2.readBuf = c.readBuf ∧ c.handshake.2.consumed = c.consumed := by
  cases hd : c.handshakeDone with
  | some res => rw [handshake_some hd]; exact ⟨rfl, rfl⟩
  | none =>
      cases hc : c.closed with
      | true => rw [handshake_closed hd hc]; exact ⟨rfl, rfl⟩
      | false => rw [handshake_open hd hc]; exact ⟨rfl, rfl⟩

theorem handshake_settles (c : Conn) : c.handshake.2.handshakeDone = some c.handshake.1 := by
  cases hd : c.handshakeDone with
  | some res => rw [handshake_some hd]; exact hd
  | none =>
      cases hc : c.closed with
      | true => rw [handshake_closed hd hc]
      | false => rw [handshake_open hd hc]; rfl

/-- A `Read` is the handshake and then a `Read`. -/
theorem read_handshake (n : Nat) (c : Conn) : c.read n = c.handshake.2.read n := by
  have hsettled := handshake_some (handshake_settles c)
  conv => lhs; unfold read
  conv => rhs; unfold read
  rw [hsettled]

theorem write_handshake (b : Bytes) (c : Conn) : c.write b = c.handshake.2.write b := by
  have hsettled := handshake_some (handshake_settles c)
  conv => lhs; unfold write
  conv => rhs; unfold write
  rw [hsettled]

/-- The accounting of an effect that reads nothing. -/
theorem accounts_of_same {sofar : Bytes} (h : sofar ++ c.readBuf = appData c.consumed)
    (hbuf : c'.readBuf = c.readBuf) (hcons : c'.consumed = c.consumed) :
    sofar ++ [] ++ c'.readBuf = appData c'.consumed := by
  rw [hbuf, hcons, List.append_nil]
  exact h

/-- The accounting of a `Handshake`, `Read` or `Write`. -/
theorem task_accounts {k : Task} {out : Outcome} (hact : c.act (.task k) = some (out, c')) {sofar : Bytes}
    (h : sofar ++ c.readBuf = appData c.consumed) :
    sofar ++ bytesRead [.commit (.task k) out] ++ c'.readBuf = appData c'.consumed := by
  obtain ⟨hbuf, hcons⟩ := handshake_same c
  cases k with
  | handshake =>
      cases hact
      exact accounts_of_same h hbuf hcons
  | read n =>
      cases hact
      rw [read_handshake n c]
      cases hres : c.handshake.1 with
      | error e =>
          rw [read_failed ((handshake_settles c).trans (congrArg some hres))]
          exact accounts_of_same h hbuf hcons
      | ok _ =>
          have hd := (handshake_settles c).trans (congrArg some hres)
          rw [bytesRead_read]
          exact (read_accounts hd rfl (by rw [hbuf, hcons]; exact h)).2
  | write b =>
      cases hact
      rw [write_handshake b c]
      cases hres : c.handshake.1 with
      | error e =>
          rw [write_failed ((handshake_settles c).trans (congrArg some hres))]
          exact accounts_of_same h hbuf hcons
      | ok _ =>
          have hw := (write_wrote ((handshake_settles c).trans (congrArg some hres)) b).same
          exact accounts_of_same h (hw.readBuf.trans hbuf) (hw.consumed.trans hcons)

/-- The accounting of one effect. -/
theorem act_accounts {a : Effect} {out : Outcome} (hact : c.act a = some (out, c')) {sofar : Bytes}
    (h : sofar ++ c.readBuf = appData c.consumed) :
    sofar ++ bytesRead [.commit a out] ++ c'.readBuf = appData c'.consumed := by
  cases a with
  | task k => exact task_accounts hact h
  | notify =>
      cases hact
      have hw := (writeRecord_same contentTypeAlert closeNotifyAlert c).1
      exact accounts_of_same h hw.readBuf hw.consumed
  | close =>
      cases hc : c.closed with
      | true => simp [act, hc] at hact
      | false =>
          cases (act_close_open hc).symm.trans hact
          exact accounts_of_same h rfl rfl
  | closeAgain =>
      cases hc : c.closed with
      | true =>
          cases (act_closeAgain_shut hc).symm.trans hact
          exact accounts_of_same h rfl rfl
      | false => simp [act, hc] at hact

/-- Nothing is lost, duplicated or reordered, whatever actions are taken. -/
theorem taken_accounts {marks : List (Mark Call Effect Outcome)} (hrun : Run (Taken act) c marks c')
    (h : c.readBuf = [] ∧ c.consumed = []) :
    bytesRead marks ++ c'.readBuf = appData c'.consumed := by
  induction hrun with
  | nil =>
      rw [h.1, h.2]
      rfl
  | snoc _ hlast ih =>
      rw [bytesRead_append]
      cases hlast with
      | commit hact => exact act_accounts hact ih
      | invoke | ret =>
          rw [show bytesRead [_] = [] from rfl, List.append_nil]
          exact ih

end Conn

/-- **The byte stream under concurrency**: however the goroutines that read, write and close are
    interleaved, there is an order of their effects, each within its own call, in which the bytes
    that the `Read`s return are, together with what is buffered, the application data of the records
    consumed: no byte is lost, duplicated or reordered. -/
theorem concurrent_byte_stream {T : Type} [DecidableEq T] (c : Conn) (hc : c.Unused)
    (σ : Threads T Pc (Shared T)) (es : List (T × Option (CallEvent Call Outcome)))
    (hrun : Run (Threads.Step ThreadStep) (goroutines T c) es σ) :
    ∃ marks x, Linearized Conn.act Conn.script (history es) marks c x ∧
      bytesRead (marks.map Prod.snd) ++ x.readBuf = appData x.consumed ∧
      ((∀ t, σ.pc t = .idle) → bytesRead (marks.map Prod.snd) ++ σ.shared.conn.readBuf =
        appData σ.shared.conn.consumed) := by
  obtain ⟨marks, x, hlin, hin⟩ := run_linearized hc hrun
  have haccounts := Conn.taken_accounts hlin.taken ⟨hc.readBuf, hc.consumed⟩
  refine ⟨marks, x, hlin, haccounts, fun hidle => ?_⟩
  rw [← hin.eq_of_idle hrun (sound_run hrun (sound_goroutines hc)).shared hidle]
  exact haccounts

/-- Two `Read`s of one byte each, by two threads, out of one record. -/
def twoReaders : List (Bool × Option Call) :=
  [(true, some (.task (.read 1))), (false, some (.task (.read 1)))] ++
    List.replicate 12 (true, none) ++ List.replicate 7 (false, none)

theorem concurrent_byte_stream_two_readers : ∃ σ es marks x, Run (Threads.Step ThreadStep)
      (goroutines Bool (.unusedOver [23, 3, 3, 0, 3, 7, 8, 9])) es σ ∧
    Linearized Conn.act Conn.script (history es) marks (.unusedOver [23, 3, 3, 0, 3, 7, 8, 9]) x ∧
    bytesRead (marks.map Prod.snd) = [7, 8] := by
  obtain ⟨σ, hσ, hidle, hbuf, hcons⟩ : ∃ σ, schedule twoReaders
      (goroutines Bool (.unusedOver [23, 3, 3, 0, 3, 7, 8, 9])) = some σ ∧
      (σ.pc true = .idle ∧ σ.pc false = .idle) ∧ σ.shared.conn.readBuf = [9] ∧
      appData σ.shared.conn.consumed = [7, 8, 9] := ⟨_, rfl, ⟨rfl, rfl⟩, rfl, rfl⟩
  obtain ⟨es, hrun⟩ := schedule_run .nil hσ
  obtain ⟨marks, x, hlin, -, hbytes⟩ :=
    concurrent_byte_stream _ (Conn.unusedOver_unused _) σ es hrun
  refine ⟨σ, es, marks, x, hrun, hlin, ?_⟩
  have hall := hbytes (by intro t; cases t <;> simp [hidle])
  rw [hbuf, hcons] at hall
  exact List.append_cancel_right (hall.trans (show [7, 8, 9] = [7, 8] ++ [9] from rfl))

end Gostls
