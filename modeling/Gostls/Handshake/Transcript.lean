import Gostls.Lib.Crypto
import Gostls.Go

/-!
# `Gostls.Handshake.Transcript` — the handshake transcript

A buffer of message bytes with a cap. Past the cap nothing is appended any more and every later `Sum`
fails, so a digest is only ever taken over everything that was written: `Records` is kept by `write`
and is what a successful `sum` rests on.

The cap is exact. `Capped` adds to `Records` that the transcript has overflowed exactly when more was
written than fits; every call keeps it, and `transcript_cap_exact` reads it off after any sequence of
calls.
-/

namespace Gostls

open Lib

def maxTranscriptBytes : Nat := 256 * 1024

def errNilHashFactory : Err := .new "handshake: transcript: nil hash factory"
def errTranscriptOverflow : Err := .new "tls: handshake transcript exceeded maximum size"

structure Transcript where
  buf : Bytes
  overflow : Bool
  deriving DecidableEq, Repr

def newTranscript : Transcript := ⟨[], false⟩

namespace Transcript

def write (t : Transcript) (msg : Bytes) : Transcript :=
  if t.overflow || t.buf.length + msg.length > maxTranscriptBytes then { t with overflow := true }
  else { t with buf := t.buf ++ msg }

/-- `Overflowed()` -/
def overflowed (t : Transcript) : Bool := t.overflow

def sum (t : Transcript) (factory : Option Hash) : Except Err Bytes :=
  match factory with
  | none   => .error errNilHashFactory
  | some h => if t.overflow then .error errTranscriptOverflow else .ok (h.sum t.buf)

/-- The transcript has overflowed, or holds exactly `b`. -/
def Records (t : Transcript) (b : Bytes) : Prop := t.overflow = false → t.buf = b

theorem Records.write {t : Transcript} {b : Bytes} (h : t.Records b) (msg : Bytes) :
    (t.write msg).Records (b ++ msg) := by
  intro hover
  unfold Transcript.write at hover ⊢
  split at hover
  · cases hover
  · rename_i hfit
    rw [if_neg hfit]
    show t.buf ++ msg = b ++ msg
    rw [h hover]

/-- **A digest is over everything written.** -/
theorem sum_ok {t : Transcript} {factory : Option Hash} {d b : Bytes} (ht : t.Records b)
    (h : t.sum factory = .ok d) : t.buf = b ∧ ∃ hash, factory = some hash ∧ d = hash.sum b := by
  unfold sum at h
  split at h
  · cases h
  · rename_i hash
    split at h
    · cases h
    · rename_i hover
      cases h
      have hbuf := ht (by simpa using hover)
      exact ⟨hbuf, hash, rfl, by rw [hbuf]⟩

/-! ## Sequences of calls -/

/-- A call on a transcript. -/
inductive Call
  | write (msg : Bytes)
  | sum (factory : Option Hash)

/-- The transcript a call leaves behind. `Sum` reads it and nothing else. -/
def call (t : Transcript) : Call → Transcript
  | .write msg => t.write msg
  | .sum _     => t

def calls (t : Transcript) (cs : List Call) : Transcript := cs.foldl call t

/-- What a call writes. -/
def Call.written : Call → Bytes
  | .write msg => msg
  | .sum _     => []

/-- Everything a sequence of calls writes, in order. -/
def written (cs : List Call) : Bytes := cs.flatMap Call.written

/-- After `b` was written: the transcript holds it, or has overflowed, and it has overflowed exactly
    when `b` is longer than the cap. -/
structure Capped (t : Transcript) (b : Bytes) : Prop where
  records : t.Records b
  overflow_iff : t.overflow = true ↔ maxTranscriptBytes < b.length

namespace Capped

variable {t : Transcript} {b : Bytes}

theorem new : newTranscript.Capped [] :=
  ⟨fun _ => rfl, iff_of_false Bool.false_ne_true (Nat.not_lt_zero _)⟩

theorem write (h : t.Capped b) (msg : Bytes) : (t.write msg).Capped (b ++ msg) := by
  refine ⟨h.records.write msg, ?_⟩
  rw [List.length_append]
  unfold Transcript.write
  by_cases hover : t.overflow = true
  · -- What did not fit before does not fit now.
    have hlong := h.overflow_iff.mp hover
    rw [if_pos (by rw [hover]; rfl)]
    exact iff_of_true rfl (by omega)
  · have hbuf : t.buf = b := h.records (Bool.not_eq_true _ ▸ hover)
    by_cases hfit : b.length + msg.length > maxTranscriptBytes
    · rw [hbuf, if_pos (by simp [hfit])]
      exact iff_of_true rfl hfit
    · rw [hbuf, if_neg (by simp [hover, hfit])]
      exact iff_of_false hover hfit

theorem call (h : t.Capped b) (c : Call) : (t.call c).Capped (b ++ c.written) := by
  cases c with
  | write msg => exact h.write msg
  | sum factory =>
      show t.Capped (b ++ [])
      rw [List.append_nil]
      exact h

theorem calls (h : t.Capped b) (cs : List Call) : (t.calls cs).Capped (b ++ written cs) := by
  induction cs generalizing t b with
  | nil =>
      show t.Capped (b ++ [])
      rw [List.append_nil]
      exact h
  | cons c cs ih =>
      have hrest := ih (h.call c)
      rw [List.append_assoc] at hrest
      exact hrest

/-- Within the cap a digest is over everything written. -/
theorem sum_within (h : t.Capped b) (hover : t.overflow = false) (hash : Hash) :
    t.sum (some hash) = .ok (hash.sum b) := by
  have hbuf := h.records hover
  simp only [sum, hover, hbuf]
  rfl

/-- Past the cap there is none. -/
theorem sum_past (h : t.Capped b) (hlong : maxTranscriptBytes < b.length) (hash : Hash) :
    t.sum (some hash) = .error errTranscriptOverflow := by
  have hover := h.overflow_iff.mpr hlong
  simp only [sum, hover]
  rfl

end Capped

end Transcript

open Transcript

/-- **The cap fails closed, exactly.** After any sequence of calls of `Write` and `Sum`, the transcript
    has overflowed exactly when more was written than the cap. Until then `Sum` with a hash is the digest
    of everything written, in order, and changes nothing; from then on it is the overflow error, whatever
    is called afterwards. A nil factory is refused with its own error in every state. -/
theorem transcript_cap_exact (cs : List Call) :
    ((newTranscript.calls cs).overflowed = true ↔ maxTranscriptBytes < (written cs).length) ∧
    ((newTranscript.calls cs).overflowed = false → ∀ hash,
      (newTranscript.calls cs).sum (some hash) = .ok (hash.sum (written cs)) ∧
      newTranscript.calls (cs ++ [.sum (some hash)]) = newTranscript.calls cs) ∧
    ((newTranscript.calls cs).overflowed = true → ∀ later hash,
      (newTranscript.calls (cs ++ later)).sum (some hash) = .error errTranscriptOverflow) ∧
    (newTranscript.calls cs).sum none = .error errNilHashFactory := by
  have hcap : ∀ cs, (newTranscript.calls cs).Capped (written cs) := fun cs => Capped.new.calls cs
  refine ⟨(hcap cs).overflow_iff, ?_, ?_, rfl⟩
  · intro hover hash
    refine ⟨(hcap cs).sum_within hover hash, ?_⟩
    rw [Transcript.calls, List.foldl_append]
    rfl
  · intro hover later hash
    apply (hcap (cs ++ later)).sum_past
    have hlong := (hcap cs).overflow_iff.mp hover
    rw [written, List.flatMap_append, List.length_append]
    exact Nat.lt_add_right _ hlong

/-- One message of a byte more than fits, then `Sum` without a hash. -/
theorem overflowed_sum_nil_factory :
    (newTranscript.calls [.write (List.replicate (maxTranscriptBytes + 1) 0)]).overflowed = true ∧
      (newTranscript.calls [.write (List.replicate (maxTranscriptBytes + 1) 0)]).sum none =
        .error errNilHashFactory ∧
      errNilHashFactory ≠ errTranscriptOverflow := by
  -- For any calls, so that nothing looks at the bytes of this message.
  have hover : ∀ cs, maxTranscriptBytes < (written cs).length →
      (newTranscript.calls cs).overflowed = true :=
    fun cs hlong => (Capped.new.calls cs).overflow_iff.mpr hlong
  have hnil : ∀ t : Transcript, t.sum none = .error errNilHashFactory := fun _ => rfl
  refine ⟨hover _ ?_, hnil _, by decide⟩
  simp [written, Call.written]

end Gostls
