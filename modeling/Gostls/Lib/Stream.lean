import Gostls.Lib.Bytes

/-!
# `Lib.Stream` — blocking byte streams with faults

A transport seen from one end. Reading is driven by a finite list of events (a byte arrives, or the
read fails with some error code); past the end of the list every read reports `eof`. Writing is
driven by a list of outcomes, one per call: success, or a fault after some prefix was accepted; past
the end of the list every write succeeds. Quantifying over both lists quantifies over everything the
far end and the network can do.

`readFull n` reads exactly `n` bytes or fails: with `eof` if the stream ended before the first byte,
with `unexpectedEOF` if it ended after some but not all of them.
-/

namespace Lib

/-- What a stream operation can fail with. -/
inductive StreamErr
  | eof
  | unexpectedEOF
  | fault (code : Nat)
  deriving DecidableEq, Repr

/-! ## Reading -/

/-- What the next read of a stream meets. -/
inductive ReadEvent
  | byte (b : UInt8)
  | fault (code : Nat)
  deriving DecidableEq, Repr

/-- The readable side of a transport: the events still to come, then end of file for ever. -/
abbrev Reader := List ReadEvent

/-- A stream that delivers `b`. -/
def ofBytes (b : Bytes) : Reader := b.map .byte

@[simp] theorem ofBytes_nil : ofBytes [] = [] := rfl
@[simp] theorem ofBytes_cons (x : UInt8) (b : Bytes) : ofBytes (x :: b) = .byte x :: ofBytes b := rfl
@[simp] theorem ofBytes_length (b : Bytes) : (ofBytes b).length = b.length := List.length_map ..

theorem ofBytes_append (a b : Bytes) : ofBytes (a ++ b) = ofBytes a ++ ofBytes b := List.map_append

theorem ofBytes_inj {a b : Bytes} (h : ofBytes a = ofBytes b) : a = b :=
  (List.map_inj_right (fun _ _ he => ReadEvent.byte.inj he)).mp h

/-- Read `n` more bytes; `started` says whether this call has already read one. -/
def readFrom (started : Bool) : Nat → Reader → Except StreamErr Bytes × Reader
  | 0,     r => (.ok [], r)
  | _ + 1, [] => (.error (if started then .unexpectedEOF else .eof), [])
  | _ + 1, .fault c :: r => (.error (.fault c), r)
  | n + 1, .byte b :: r =>
    match readFrom true n r with
    | (.ok bs, r')   => (.ok (b :: bs), r')
    | (.error e, r') => (.error e, r')

/-- Read exactly `n` bytes. -/
def readFull (n : Nat) (r : Reader) : Except StreamErr Bytes × Reader := readFrom false n r

theorem readFrom_ofBytes (started : Bool) (b : Bytes) (r : Reader) :
    readFrom started b.length (ofBytes b ++ r) = (.ok b, r) := by
  induction b generalizing started with
  | nil => rfl
  | cons x xs ih => simp [readFrom, ih true]

/-- **Reading what is there.** -/
theorem readFull_ofBytes (b : Bytes) (r : Reader) :
    readFull b.length (ofBytes b ++ r) = (.ok b, r) := readFrom_ofBytes false b r

theorem readFrom_ok {started : Bool} {n : Nat} {r r' : Reader} {b : Bytes}
    (h : readFrom started n r = (.ok b, r')) : r = ofBytes b ++ r' ∧ b.length = n := by
  induction n generalizing started r b with
  | zero =>
      simp only [readFrom, Prod.mk.injEq, Except.ok.injEq] at h
      obtain ⟨rfl, rfl⟩ := h
      exact ⟨rfl, rfl⟩
  | succ n ih =>
      cases r with
      | nil => simp [readFrom] at h
      | cons ev r =>
          cases ev with
          | fault c => simp [readFrom] at h
          | byte x =>
              simp only [readFrom] at h
              split at h
              · rename_i bs r'' hrec
                simp only [Prod.mk.injEq, Except.ok.injEq] at h
                obtain ⟨rfl, rfl⟩ := h
                obtain ⟨rfl, rfl⟩ := ih hrec
                exact ⟨rfl, rfl⟩
              · simp at h

/-- **A successful read** returns the next `n` bytes and leaves the rest. -/
theorem readFull_ok {n : Nat} {r r' : Reader} {b : Bytes}
    (h : readFull n r = (.ok b, r')) : r = ofBytes b ++ r' ∧ b.length = n := readFrom_ok h

theorem readFrom_true_ne_eof {n : Nat} {r r' : Reader} : readFrom true n r ≠ (.error .eof, r') := by
  induction n generalizing r with
  | zero => simp [readFrom]
  | succ n ih =>
      cases r with
      | nil => simp [readFrom]
      | cons ev r =>
          cases ev with
          | fault c => simp [readFrom]
          | byte x =>
              simp only [readFrom]
              split
              · simp
              · rename_i e r'' hrec
                intro h
                simp only [Prod.mk.injEq, Except.error.injEq] at h
                obtain ⟨rfl, rfl⟩ := h
                exact ih hrec

/-- **`eof` means that not a single byte was left**, and that one was asked for. -/
theorem readFull_eof {n : Nat} {r r' : Reader} (h : readFull n r = (.error .eof, r')) :
    r = [] ∧ r' = [] ∧ 0 < n := by
  cases n with
  | zero => simp [readFull, readFrom] at h
  | succ n =>
      cases r with
      | nil =>
          simp only [readFull, readFrom, Prod.mk.injEq] at h
          exact ⟨rfl, h.2.symm, Nat.succ_pos n⟩
      | cons ev r =>
          cases ev with
          | fault c => simp [readFull, readFrom] at h
          | byte x =>
              simp only [readFull, readFrom] at h
              split at h
              · simp at h
              · rename_i e r'' hrec
                simp only [Prod.mk.injEq, Except.error.injEq] at h
                obtain ⟨rfl, rfl⟩ := h
                exact absurd hrec readFrom_true_ne_eof

theorem readFull_nil {n : Nat} (h : 0 < n) : readFull n [] = (.error .eof, []) := by
  cases n with
  | zero => omega
  | succ n => rfl

/-! ## Writing -/

/-- A failed write: how much of the buffer was accepted before the error. -/
structure WriteFault where
  accepted : Nat
  code : Nat
  deriving DecidableEq, Repr

/-- The writable side of a transport: what it has accepted, and the outcomes of the writes to come. -/
structure Writer where
  output : Bytes
  faults : List (Option WriteFault)
  deriving DecidableEq, Repr

/-- Write the whole of `p`, or fail after a prefix of it. -/
def Writer.write (p : Bytes) (w : Writer) : Except StreamErr Unit × Writer :=
  match w.faults with
  | []           => (.ok (), { w with output := w.output ++ p })
  | none :: fs   => (.ok (), { output := w.output ++ p, faults := fs })
  | some f :: fs => (.error (.fault f.code), { output := w.output ++ p.take f.accepted, faults := fs })

/-- **A write that succeeds** is accepted whole. -/
theorem Writer.write_ok {w w' : Writer} {p : Bytes} (h : w.write p = (.ok (), w')) :
    w'.output = w.output ++ p := by
  unfold Writer.write at h
  split at h <;> cases h <;> rfl

/-- **A write that fails** is accepted in part, from the front. -/
theorem Writer.write_error {w w' : Writer} {p : Bytes} {e : StreamErr} (h : w.write p = (.error e, w')) :
    ∃ part, part <+: p ∧ w'.output = w.output ++ part := by
  unfold Writer.write at h
  split at h
  · cases h
  · cases h
  · cases h
    exact ⟨_, List.take_prefix .., rfl⟩

/-- A transport on which no write fails. -/
def Writer.Reliable (w : Writer) : Prop := ∀ f ∈ w.faults, f = none

/-- **A reliable transport** accepts every write whole, and stays reliable. -/
theorem Writer.Reliable.write {w : Writer} (hw : w.Reliable) (p : Bytes) :
    ∃ w', w.write p = (.ok (), w') ∧ w'.output = w.output ++ p ∧ w'.Reliable := by
  unfold Writer.write
  split
  · exact ⟨_, rfl, rfl, hw⟩
  · rename_i fs hfs
    refine ⟨_, rfl, rfl, fun f hf => hw f ?_⟩
    rw [hfs]
    exact List.mem_cons_of_mem _ hf
  · rename_i f fs hfs
    have := hw (some f) (by rw [hfs]; exact List.mem_cons_self)
    cases this

/-! ## Entropy -/

/-- An unbounded source of random bytes, with what it fails with where it cannot supply one. -/
structure Entropy where
  src : Nat → Except StreamErr UInt8
  pos : Nat

/-- The `n` bytes of a source from position `i` on. -/
def Entropy.bytesFrom (src : Nat → Except StreamErr UInt8) : Nat → Nat → Except StreamErr Bytes
  | _, 0     => .ok []
  | i, n + 1 => do
    let b ← src i
    let bs ← bytesFrom src (i + 1) n
    return b :: bs

/-- Take `n` random bytes. -/
def Entropy.read (n : Nat) (e : Entropy) : Except StreamErr Bytes × Entropy :=
  (Entropy.bytesFrom e.src e.pos n, { e with pos := e.pos + n })

/-- A source that never fails. -/
def Entropy.Reliable (e : Entropy) : Prop := ∀ i, ∃ b, e.src i = .ok b

theorem Entropy.bytesFrom_length {src : Nat → Except StreamErr UInt8} {i n : Nat} {b : Bytes}
    (h : bytesFrom src i n = .ok b) : b.length = n := by
  induction n generalizing i b with
  | zero => cases h; rfl
  | succ n ih =>
      simp only [bytesFrom, bind, Except.bind] at h
      split at h
      · cases h
      · split at h
        · cases h
        · rename_i bs hbs
          cases h
          simp [ih hbs]

theorem Entropy.read_length {n : Nat} {e e' : Entropy} {b : Bytes}
    (h : e.read n = (.ok b, e')) : b.length = n := bytesFrom_length (congrArg Prod.fst h)

theorem Entropy.Reliable.bytesFrom {e : Entropy} (he : e.Reliable) (i n : Nat) :
    ∃ b, Entropy.bytesFrom e.src i n = .ok b := by
  induction n generalizing i with
  | zero => exact ⟨[], rfl⟩
  | succ n ih =>
      obtain ⟨b, hb⟩ := he i
      obtain ⟨bs, hbs⟩ := ih (i + 1)
      exact ⟨b :: bs, by simp only [Entropy.bytesFrom, hb, hbs]; rfl⟩

/-- **A reliable source supplies every request and stays reliable.** -/
theorem Entropy.Reliable.read {e : Entropy} (he : e.Reliable) (n : Nat) :
    ∃ b e', e.read n = (.ok b, e') ∧ e'.Reliable := by
  obtain ⟨b, hb⟩ := he.bytesFrom e.pos n
  exact ⟨b, { e with pos := e.pos + n }, by simp only [Entropy.read, hb], he⟩

end Lib
