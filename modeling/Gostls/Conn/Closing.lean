import Gostls.Conn.Races

/-!
# `Gostls.Conn.Closing` — what a connection sends last

`Close` sends its `close_notify` only if it gets `outMu` without waiting. In every run of any number of
goroutines, the alert is sent at most once, after a handshake that has succeeded, and no record of any
`Write` follows it (`close_notify_last`).

The argument is about when a thread can still add a record: a `Write` that found the connection open
holds `outMu`, so that no `Close` can send its alert until the `Write` is done; and the alert is left to
the one `Close` that came first.
-/

namespace Gostls

open Lib

/-- Only application data has been given to `WriteRecord`. -/
def Conn.Talking (c : Conn) : Prop := ∀ r ∈ c.emitted, r.ct = contentTypeApplicationData

/-- After application data came one `close_notify`. -/
def Conn.Hushed (c : Conn) : Prop := ∃ pre r, c.emitted = pre ++ [r] ∧
  (∀ r ∈ pre, r.ct = contentTypeApplicationData) ∧ r.ct = contentTypeAlert ∧ r.payload = closeNotifyAlert

section

variable {T : Type} {t u : T} {pc pc' : Pc} {s s' : Shared T} {e : Option (CallEvent Call Outcome)}

/-- The points from which a thread can still add a record. -/
def Pc.MaySend : Pc → Prop
  | .writing _ _ | .loadOK | .tryLock | .alert => True
  | _ => False

/-- What a step adds to the emitted records: a chunk of a `Write`, the alert, or nothing. -/
inductive Adds (pc : Pc) (s s' : Shared T) : Prop
  | none (h : s'.conn.emitted = s.conn.emitted)
  | chunk {payload : Bytes} {whole : Bool} (hpc : pc.MaySend)
      (h : s'.conn.emitted = s.conn.emitted ++ [⟨contentTypeApplicationData, payload, whole⟩])
  | alert {whole : Bool} (hpc : pc = .alert)
      (h : s'.conn.emitted = s.conn.emitted ++ [⟨contentTypeAlert, closeNotifyAlert, whole⟩])

theorem Moves.adds (hmove : Moves t pc s e pc' s') : Adds pc s s' := by
  have hrecv : ∀ {α : Type} {m : Conn → α × Conn} {a : α} {conn : Conn}, Conn.recv.Local m →
      m s.conn = (a, conn) → conn.emitted = s.conn.emitted := by
    intro α m a conn hm hrun
    have hother := hm.get_other Conn.recv_send s.conn
    rw [hrun] at hother
    exact congrArg SendSide.emitted hother
  cases hmove with
  | read hr | again hr => exact .none (hrecv (Conn.readRound_local _ _) hr)
  | torn _ hw | chunk _ hw => exact .chunk trivial (Conn.writeRecord_emits hw).emitted
  | alert => exact .alert rfl (Conn.writeRecord_emits rfl).emitted
  | _ => exact .none rfl

/-- Another chunk is more application data. -/
theorem Conn.Talking.snoc {c c' : Conn} (h : c.Talking) {payload : Bytes} {whole : Bool}
    (hc : c'.emitted = c.emitted ++ [⟨contentTypeApplicationData, payload, whole⟩]) : c'.Talking := by
  intro r hr
  rw [hc] at hr
  rcases List.mem_append.mp hr with hr | hr
  · exact h r hr
  · rw [List.mem_singleton.mp hr]

/-- What is known of the emitted records, beside what is known of the locks. -/
structure Orderly (s : Shared T) : Prop extends Coherent s where
  opened : s.conn.closed = false → s.conn.Talking
  ended : s.conn.Talking ∨ s.conn.Hushed ∧ s.conn.handshakeDone = some (.ok ())

/-- A thread that may still send knows that the alert has not been sent. -/
def Pc.Aware (t : T) (pc : Pc) (s : Shared T) : Prop := pc.Known t s ∧ (pc.MaySend → s.conn.Talking)

theorem Moves.aware (hG : Orderly s) (h : pc.Aware t s) (hmove : Moves t pc s e pc' s') :
    pc'.MaySend → s'.conn.Talking := by
  intro hsend
  have hadds := hmove.adds
  cases hmove with
  | passOut hc | close hc => exact hG.opened hc
  | chunk _ _ =>
      cases hadds with
      | none hsame => intro r hr; rw [hsame] at hr; exact h.2 trivial r hr
      | chunk _ hadd => exact (h.2 trivial).snoc hadd
      | alert hpc _ => cases hpc
  | sawOK _ | tryLock _ => exact h.2 trivial
  | @proceed k _ =>
      cases k with
      | handshake => exact hsend.elim
      | read n => cases hres : s.conn.handshakeErr <;> rw [hres] at hsend <;> exact hsend.elim
      | write b => cases hres : s.conn.handshakeErr <;> rw [hres] at hsend <;> exact hsend.elim
  | _ => exact hsend.elim

/-- No other thread adds an alert to what this one knows. -/
theorem Moves.aware_other (hne : u ≠ t) (h : pc.Aware t s) {m : Pc} (hu : m.Aware u s)
    (hmove : Moves t pc s e pc' s') : m.MaySend → s'.conn.Talking := by
  intro hsend
  cases hmove.adds with
  | none hsame =>
      intro r hr
      rw [hsame] at hr
      exact hu.2 hsend r hr
  | chunk _ hadd => exact (hu.2 hsend).snoc hadd
  | alert hpc _ =>
      subst hpc
      obtain ⟨⟨hcloser, -, hout⟩, -⟩ := h
      obtain ⟨hknown, -⟩ := hu
      exfalso
      cases m with
      | writing _ _ => exact hne (Option.some.inj (hknown.2.symm.trans hout))
      | loadOK => exact hne (Option.some.inj (Eq.trans (Eq.symm hknown) hcloser))
      | tryLock => exact hne (Option.some.inj (hknown.1.symm.trans hcloser))
      | alert => exact hne (Option.some.inj (hknown.1.symm.trans hcloser))
      | _ => exact hsend

theorem Moves.orderly (hG : Orderly s) (h : pc.Aware t s) (hmove : Moves t pc s e pc' s') :
    Orderly s' := by
  have hcoherent := hmove.coherent hG.toCoherent h.1
  have hframe := hmove.frame hG.toCoherent h.1
  -- Once closed, always closed.
  have hopen : s'.conn.closed = false → s.conn.closed = false := by
    rw [hcoherent.closed, hG.closed]
    rcases hframe.closer with heq | heq
    · rw [heq]; exact id
    · rw [heq]; exact fun _ => rfl
  have hdone : s.conn.handshakeDone = some (.ok ()) → s'.conn.handshakeDone = some (.ok ()) := by
    intro hok
    rcases hframe.done with heq | ⟨-, hnone⟩
    · exact heq.trans hok
    · exact nomatch hnone.symm.trans hok
  refine { toCoherent := hcoherent, opened := ?_, ended := ?_ }
  · intro hc
    cases hmove.adds with
    | none hsame =>
        intro r hr
        rw [hsame] at hr
        exact hG.opened (hopen hc) r hr
    | chunk _ hadd => exact (hG.opened (hopen hc)).snoc hadd
    | alert hpc _ =>
        subst hpc
        have hclosed := hG.closed
        rw [h.1.1] at hclosed
        exact nomatch (hopen hc).symm.trans hclosed
  · cases hmove.adds with
    | none hsame =>
        rcases hG.ended with htalk | ⟨hush, hok⟩
        · left
          intro r hr
          rw [hsame] at hr
          exact htalk r hr
        · right
          unfold Conn.Hushed
          rw [hsame]
          exact ⟨hush, hdone hok⟩
    | chunk hpc hadd => exact .inl ((h.2 hpc).snoc hadd)
    | @alert whole hpc hadd =>
        subst hpc
        exact .inr ⟨⟨_, _, hadd, h.2 trivial, rfl, rfl⟩, hdone (hG.ok h.1.2.1)⟩

end

/-- **The `close_notify` is the last record**: in every run of any number of goroutines that read, write
    and close a new connection, what has been given to `WriteRecord` since the handshake is application
    data, or application data and then one `close_notify`; and the alert is only sent by a `Close` on a
    connection whose handshake has succeeded. -/
theorem close_notify_last {T : Type} [DecidableEq T] (c : Conn) (hc : c.Unused)
    (σ : Threads T Pc (Shared T)) (es : List (T × Option (CallEvent Call Outcome)))
    (hrun : Run (Threads.Step ThreadStep) (goroutines T c) es σ) :
    σ.shared.conn.Talking ∨ σ.shared.conn.Hushed ∧ σ.shared.conn.closed = true ∧
      σ.shared.conn.handshakeDone = some (.ok ()) := by
  have htalk : c.Talking := by
    intro r hr
    rw [hc.emitted] at hr
    cases hr
  have hstart : Threads.Asserts Orderly (fun t pc s => pc.Aware t s) (goroutines T c) :=
    ⟨⟨(sound_goroutines (T := T) hc).shared, fun _ => htalk, .inl htalk⟩, fun _ => ⟨trivial, fun h => h.elim⟩⟩
  have hsound := Threads.Asserts.run ?_ ?_ hrun hstart
  · cases hclosed : σ.shared.conn.closed with
    | false => exact .inl (hsound.shared.opened hclosed)
    | true =>
        rcases hsound.shared.ended with h | ⟨hush, hok⟩
        · exact .inl h
        · exact .inr ⟨hush, rfl, hok⟩
  · intro t pc s e pc' s' hG hpc hstep
    rcases hstep.moves with ⟨call, rfl, -, rfl, rfl⟩ | hmove
    · refine ⟨hG, (hstep.sound hG.toCoherent hpc.1).2.2, fun h => ?_⟩
      cases call <;> exact h.elim
    · exact ⟨hmove.orderly hG hpc, hmove.known hG.toCoherent hpc.1, hmove.aware hG hpc⟩
  · intro t u pc m s e pc' s' hne hG hpc hm hstep
    refine ⟨(hstep.sound hG.toCoherent hpc.1).1.known hne hm.1, ?_⟩
    rcases hstep.moves with ⟨call, rfl, -, rfl, rfl⟩ | hmove
    · exact hm.2
    · exact hmove.aware_other hne hpc hm

/-- A `Write` is under way when another thread closes: the alert is left out. -/
def closeDuringWrite : List (Bool × Option Call) :=
  [(true, some (.task (.write [1])))] ++ List.replicate 8 (true, none) ++
    [(false, some .close)] ++ List.replicate 5 (false, none) ++ List.replicate 4 (true, none)

/-- A `Close` after a `Write`: the alert comes last. -/
def closeAfterWrite : List (Bool × Option Call) :=
  [(true, some (.task (.write [1])))] ++ List.replicate 12 (true, none) ++
    [(false, some .close)] ++ List.replicate 7 (false, none)

theorem close_notify_last_both : ∃ σ es σ' es',
    Run (Threads.Step ThreadStep) (goroutines Bool (.unusedOver [])) es σ ∧ σ.shared.conn.Talking ∧
    Run (Threads.Step ThreadStep) (goroutines Bool (.unusedOver [])) es' σ' ∧ σ'.shared.conn.Hushed := by
  obtain ⟨σ, hσ, hlog⟩ : ∃ σ, schedule closeDuringWrite (goroutines Bool (.unusedOver [])) = some σ ∧
      σ.shared.conn.emitted = [⟨contentTypeApplicationData, [1], true⟩] := ⟨_, rfl, rfl⟩
  obtain ⟨σ', hσ', hlog'⟩ : ∃ σ, schedule closeAfterWrite (goroutines Bool (.unusedOver [])) = some σ ∧
      σ.shared.conn.emitted = [⟨contentTypeApplicationData, [1], true⟩,
        ⟨contentTypeAlert, closeNotifyAlert, true⟩] := ⟨_, rfl, rfl⟩
  obtain ⟨es, hrun⟩ := schedule_run .nil hσ
  obtain ⟨es', hrun'⟩ := schedule_run .nil hσ'
  have hunused : (Conn.unusedOver []).Unused := ⟨rfl, rfl, rfl, rfl, rfl, rfl⟩
  refine ⟨σ, es, σ', es', hrun, ?_, hrun', ?_⟩
  · rcases close_notify_last _ hunused σ es hrun with h | ⟨⟨pre, r, hpre, -, hct, -⟩, -⟩
    · exact h
    · rw [hlog] at hpre
      obtain ⟨-, rfl⟩ : pre = [] ∧ r = _ := by
        cases pre with
        | nil => exact ⟨rfl, (List.singleton_inj.mp hpre).symm⟩
        | cons _ pre => simp at hpre
      cases hct
  · rcases close_notify_last _ hunused σ' es' hrun' with h | ⟨h, -⟩
    · exact absurd (h ⟨contentTypeAlert, closeNotifyAlert, true⟩ (by rw [hlog']; simp)) (by decide)
    · exact h

end Gostls
