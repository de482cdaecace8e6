import Gostls.Lib.Program
import Gostls.Lib.Stream

/-!
# `Gostls.Go` — error values and slices as the code sees them

What the code takes from the Go language and its standard library, and nothing of TLS:

* **Errors.** `Err` is the closed sum of the error values the code builds: transport errors,
  `errors.New` and `fmt.Errorf` values, and the record layer's two error types. `Err.error` is the
  text.
* **Slices.** Indexing and slicing are checked: an access outside the operand is the run-time panic
  `Err.panic`. Parsers are written with these operations, so that "it never goes out of range" is a
  statement about the model.
-/

namespace Gostls

open Lib

/-! ## Errors -/

/-- A Go error value. -/
inductive Err
  /-- `io.EOF`, `io.ErrUnexpectedEOF` or an error of the transport. -/
  | stream (e : StreamErr)
  /-- `errors.New(text)`, or `fmt.Errorf` without `%w`. -/
  | new (text : String)
  /-- `*record.AlertError` -/
  | alert (level description : UInt8)
  /-- `*record.RecordError` -/
  | record (fatal : Bool) (message : String)
  /-- `fmt.Errorf(before + "%w" + after, cause)` -/
  | wrap (before : String) (cause : Err) (after : String)
  /-- A run-time panic: an index or slice out of range, or a nil dereference. -/
  | panic
  deriving DecidableEq, Repr

namespace Err

/-- `io.EOF` -/
abbrev eof : Err := .stream .eof

/-- The text of an error. The text of a transport fault is the transport's own and is only ever
    passed on. -/
def error : Err → String
  | .stream .eof           => "EOF"
  | .stream .unexpectedEOF => "unexpected EOF"
  | .stream (.fault c)     => "transport fault " ++ toString c
  | .new text              => text
  | .alert level desc      => "tls: fatal alert " ++ toString desc ++ " (level " ++ toString level ++ ")"
  | .record _ message      => "tls record: " ++ message
  | .wrap pre cause post   => pre ++ cause.error ++ post
  | .panic                 => "runtime error"

/-- Not an error of the transport. -/
def Local (e : Err) : Prop := ∀ s, e ≠ .stream s

/-- `fmt.Errorf(text + ": %w", cause)` -/
def errorf (text : String) (cause : Err) : Err := .wrap (text ++ ": ") cause ""

/-- `fmt.Errorf("%w" + text, cause)` -/
def detail (cause : Err) (text : String) : Err := .wrap "" cause text

end Err

/-- `if err != nil { return …, wrap(err) }`. A panic is not an error value and passes through. -/
def mapErr {α : Type} (wrap : Err → Err) : Except Err α → Except Err α
  | .ok a         => .ok a
  | .error .panic => .error .panic
  | .error e      => .error (wrap e)

/-- `if err != nil { return …, fmt.Errorf(text + ": %w", err) }` -/
def annotate {α : Type} (text : String) (x : Except Err α) : Except Err α := mapErr (.errorf text) x

@[simp] theorem annotate_ok {α : Type} (text : String) (a : α) : annotate text (.ok a) = .ok a := rfl

theorem mapErr_eq_ok {α : Type} {wrap : Err → Err} {x : Except Err α} {a : α} :
    mapErr wrap x = .ok a ↔ x = .ok a := by
  unfold mapErr
  split <;> simp

theorem annotate_eq_ok {α : Type} {text : String} {x : Except Err α} {a : α} :
    annotate text x = .ok a ↔ x = .ok a := mapErr_eq_ok

/-- One hexadecimal digit. -/
def hexDigit (n : Nat) : Char := if n < 10 then Char.ofNat (48 + n) else Char.ofNat (87 + n)

/-- `fmt.Sprintf("%02x", b)` -/
def hex02 (b : UInt8) : String :=
  String.ofList [hexDigit (b.toNat / 16), hexDigit (b.toNat % 16)]

/-- `fmt.Sprintf("%04x", n)` -/
def hex04 (n : UInt16) : String :=
  hex02 (UInt8.ofNat (n.toNat / 256)) ++ hex02 (UInt8.ofNat (n.toNat % 256))

/-- `fmt.Sprintf("%04X", n)` -/
def hex04Upper (n : UInt16) : String := (hex04 n).map Char.toUpper

/-! ## Slices -/

/-- `b[i]` -/
def index (b : Bytes) (i : Nat) : Except Err UInt8 :=
  match b[i]? with
  | some x => .ok x
  | none   => .error .panic

/-- `b[i:j]` -/
def slice (b : Bytes) (i j : Nat) : Except Err Bytes :=
  if i ≤ j ∧ j ≤ b.length then .ok ((b.take j).drop i) else .error .panic

/-- `b[i:]` -/
def sliceFrom (b : Bytes) (i : Nat) : Except Err Bytes := slice b i b.length

/-- `b[:j]` -/
def sliceTo (b : Bytes) (j : Nat) : Except Err Bytes := slice b 0 j

/-- `binary.BigEndian.Uint16(b)`, for `b` of two bytes. -/
def beUint16 (b : Bytes) : UInt16 := UInt16.ofNat (ofBE b)

/-- `uint16(hi)<<8 | uint16(lo)` -/
def uint16Of (hi lo : UInt8) : UInt16 := beUint16 [hi, lo]

theorem throws_panic {α : Type} : Throws Err.Local (.error .panic : Except Err α) :=
  .error (fun _ h => nomatch h)

theorem index_throws (b : Bytes) (i : Nat) : Throws Err.Local (index b i) := by
  unfold index
  split
  · exact .ok _
  · exact throws_panic

theorem slice_throws (b : Bytes) (i j : Nat) : Throws Err.Local (slice b i j) :=
  .ite (.ok _) throws_panic

theorem index_panics (b : Bytes) (i : Nat) : Throws (· = .panic) (index b i) := by
  unfold index
  split
  · exact .ok _
  · exact .error rfl

theorem slice_panics (b : Bytes) (i j : Nat) : Throws (· = .panic) (slice b i j) :=
  .ite (.ok _) (.error rfl)

@[simp] theorem index_cons_zero (x : UInt8) (b : Bytes) : index (x :: b) 0 = .ok x := rfl
@[simp] theorem index_cons_succ (x : UInt8) (b : Bytes) (i : Nat) :
    index (x :: b) (i + 1) = index b i := rfl

theorem index_eq {b : Bytes} {i : Nat} (h : i < b.length) : index b i = .ok b[i] := by
  unfold index
  rw [List.getElem?_eq_getElem h]

theorem slice_eq {b : Bytes} {i j : Nat} (hij : i ≤ j) (hj : j ≤ b.length) :
    slice b i j = .ok ((b.take j).drop i) := if_pos ⟨hij, hj⟩

theorem slice_ok {b x : Bytes} {i j : Nat} (h : slice b i j = .ok x) :
    i ≤ j ∧ j ≤ b.length ∧ x = (b.take j).drop i := by
  unfold slice at h
  split at h
  · rename_i hb
    cases h
    exact ⟨hb.1, hb.2, rfl⟩
  · cases h

theorem sliceFrom_eq {b : Bytes} {i : Nat} (h : i ≤ b.length) : sliceFrom b i = .ok (b.drop i) := by
  rw [sliceFrom, slice_eq h (Nat.le_refl _), List.take_length]

theorem sliceFrom_ok {b x : Bytes} {i : Nat} (h : sliceFrom b i = .ok x) :
    i ≤ b.length ∧ x = b.drop i := by
  obtain ⟨hi, -, rfl⟩ := slice_ok h
  exact ⟨hi, by rw [List.take_length]⟩

theorem sliceTo_eq {b : Bytes} {j : Nat} (h : j ≤ b.length) : sliceTo b j = .ok (b.take j) := by
  rw [sliceTo, slice_eq (Nat.zero_le _) h, List.drop_zero]

/-- A slice cut where a byte string was put together. -/
theorem sliceTo_append {a : Bytes} {n : Nat} (h : a.length = n) (b : Bytes) :
    sliceTo (a ++ b) n = .ok a := by
  subst h
  rw [sliceTo_eq (by simp), List.take_left]

theorem sliceFrom_append {a : Bytes} {n : Nat} (h : a.length = n) (b : Bytes) :
    sliceFrom (a ++ b) n = .ok b := by
  subst h
  rw [sliceFrom_eq (by simp), List.drop_left]

/-- A slice bound: negative values panic. -/
def sliceBound (n : Int) : Except Err Nat := if 0 ≤ n then .ok n.toNat else .error .panic

theorem sliceBound_panics (n : Int) : Throws (· = .panic) (sliceBound n) := .ite (.ok _) (.error rfl)

theorem sliceBound_sub {a b : Nat} (h : b ≤ a) : sliceBound (a - b) = .ok (a - b) := by
  unfold sliceBound
  rw [if_pos (by omega)]
  congr 1
  omega

/-- A front part and the slice behind it. -/
theorem take_append_slice (b : Bytes) {i j : Nat} (h : i ≤ j) :
    b.take i ++ (b.take j).drop i = b.take j := by
  have hfront : (b.take j).take i = b.take i := by
    rw [List.take_take, Nat.min_eq_left h]
  rw [← hfront, List.take_append_drop]

/-! ## Staying in range -/

/-- Whether an error is the run-time panic. -/
def Err.isPanic : Err → Bool
  | .panic => true
  | _      => false

/-- The program does not panic: it returns, a value or an error. -/
def InRange {α : Type} (x : Except Err α) : Prop := x ≠ .error .panic

namespace InRange

variable {α β : Type} {x y : Except Err α} {f : α → Except Err β} {c : Prop} [Decidable c] {e : Err}
  {b : Bytes} {i j : Nat}

theorem ok (a : α) : InRange (.ok a : Except Err α) := fun h => nomatch h

theorem error (he : e.isPanic = false) : InRange (.error e : Except Err α) := by
  intro h
  cases h
  cases he

/-- An error that is passed on. -/
theorem rethrow (hx : InRange x) (hres : x = .error e) : InRange (.error e : Except Err β) := by
  intro h
  apply hx
  rw [hres]
  exact congrArg Except.error (Except.error.inj h)

theorem bind (hx : InRange x) (hf : ∀ a, x = .ok a → InRange (f a)) : InRange (x >>= f) := by
  cases hres : x with
  | ok a => exact hf a hres
  | error e => exact rethrow hx hres

theorem ite (hx : c → InRange x) (hy : ¬c → InRange y) : InRange (if c then x else y) := by
  by_cases hc : c
  · rw [if_pos hc]
    exact hx hc
  · rw [if_neg hc]
    exact hy hc

/-- A check: what follows it may rely on it. -/
theorem check (he : e.isPanic = false) (hx : ¬c → InRange x) : InRange (if c then .error e else x) :=
  ite (fun _ => error he) hx

theorem index (h : i < b.length) : InRange (index b i) := by
  rw [index_eq h]
  exact ok _

theorem slice (hij : i ≤ j) (hj : j ≤ b.length) : InRange (slice b i j) := by
  rw [slice_eq hij hj]
  exact ok _

theorem sliceTo (h : j ≤ b.length) : InRange (sliceTo b j) := slice (Nat.zero_le _) h

theorem sliceFrom (h : i ≤ b.length) : InRange (sliceFrom b i) := slice h (Nat.le_refl _)

theorem annotate {text : String} (hx : InRange x) : InRange (annotate text x) := by
  cases hres : x with
  | ok a => exact ok a
  | error e =>
      cases e with
      | panic => exact absurd hres hx
      | _ => exact error rfl

/-- A loop whose every step stays in range. -/
theorem mapM {γ : Type} {g : γ → Except Err β} {l : List γ} (hg : ∀ a ∈ l, InRange (g a)) :
    InRange (l.mapM g) := by
  induction l with
  | nil => exact ok _
  | cons a l ih =>
      rw [List.forall_mem_cons] at hg
      rw [List.mapM_cons]
      exact bind hg.1 fun _ _ => bind (ih hg.2) fun _ _ => ok _

theorem foldlM {γ : Type} {g : β → γ → Except Err β} {l : List γ} (hg : ∀ b, ∀ a ∈ l, InRange (g b a))
    (b : β) : InRange (l.foldlM g b) := by
  induction l generalizing b with
  | nil => exact ok b
  | cons a l ih =>
      rw [List.foldlM_cons]
      exact bind (hg b a List.mem_cons_self) fun b' _ =>
        ih (fun b'' a' ha' => hg b'' a' (List.mem_cons_of_mem _ ha')) b'

end InRange

/-! ## Sixteen-bit integers -/

theorem beUint16_toNat {b : Bytes} (h : b.length = 2) : (beUint16 b).toNat = ofBE b := by
  have hlt := ofBE_lt b
  rw [h] at hlt
  exact UInt16.toNat_ofNat_of_lt' hlt

theorem toBE_beUint16 {b : Bytes} (h : b.length = 2) : toBE 2 (beUint16 b).toNat = b := by
  rw [beUint16_toNat h, ← h, toBE_ofBE]

@[simp] theorem beUint16_toBE (v : UInt16) : beUint16 (toBE 2 v.toNat) = v := by
  have hlt : v.toNat < 256 ^ 2 := v.toNat_lt
  rw [beUint16, ofBE_toBE_of_lt hlt, UInt16.ofNat_toNat]

end Gostls
