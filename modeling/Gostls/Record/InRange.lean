import Gostls.Record.IndexedGost
import Gostls.Record.Layer

/-!
# `Gostls.Record.InRange` — records are opened in range

`ProtectorAt` puts the protectors of the two modules below under the one interface the record layer calls.
Whatever the state, the 5-byte header and the fragment, `Open` stays in range (`openAt_inRange`), and
record after record it is the `Open` of the model (`openAll_refines`). The record layer gives a protector
only headers of five bytes, so reading a record stays in range as well (`Layer.readRecord_inRange`).
-/

namespace Gostls

open Lib

/-! ## The key stream between calls -/

namespace GostCNT

theorem nextByte_num {s : GostCNT} (hnum : s.num < gostBlockSize) : s.nextByte.2.num < gostBlockSize := by
  have hgamma : (if s.num = 0 then s.nextGamma else s).num = s.num := by
    split
    · exact s.nextGamma_num
    · rfl
  unfold nextByte
  dsimp only
  rw [hgamma]
  split
  · exact Nat.zero_lt_succ 7
  · omega

/-- Between calls the position is within a block. -/
theorem xorKeyStream_num {s : GostCNT} (hnum : s.num < gostBlockSize) (src : Bytes) :
    (s.xorKeyStream src).2.num < gostBlockSize := by
  induction src generalizing s with
  | nil => exact hnum
  | cons b bs ih => exact ih (nextByte_num hnum)

end GostCNT

/-! ## The interface -/

/-- The implementations of the `Protector` interface, with the arrays of the source. -/
inductive ProtectorAt
  | null
  | cbcHMAC (p : CbcHMACProtector)
  | aead (p : AeadProtector)
  | chacha20Poly1305 (p : ChaCha20Poly1305Protector)
  | gost28147 (p : Gost28147At)
  | ctrOMAC (p : CtrOMACProtector)

namespace ProtectorAt

/-- `Open(seq, hdr, fragment)` -/
def openAt (prot : ProtectorAt) (seq : UInt64) (hdr fragment : Bytes) : Except Err Bytes × ProtectorAt :=
  match prot with
  | .null => (.ok fragment, prot)
  | .cbcHMAC p => (p.openAt seq hdr fragment, prot)
  | .aead p => (p.openAt seq hdr fragment, prot)
  | .chacha20Poly1305 p => (p.openAt seq hdr fragment, prot)
  | .gost28147 p =>
    match p.openAt seq hdr fragment with
    | .ok (res, p) => (res, .gost28147 p)
    | .error e     => (.error e, prot)
  | .ctrOMAC p => (p.openAt seq hdr fragment, prot)

/-- The protector of the model. -/
def toProtector : ProtectorAt → Protector
  | .null               => .null
  | .cbcHMAC p          => .cbcHMAC p
  | .aead p             => .aead p
  | .chacha20Poly1305 p => .chacha20Poly1305 p
  | .gost28147 p        => .gost28147 p.toProtector
  | .ctrOMAC p          => .ctrOMAC p

/-- A protector as a call leaves it: the key stream stands within a block. -/
def Positioned : ProtectorAt → Prop
  | .gost28147 p => p.cnt.num < gostBlockSize
  | _            => True

variable {hdr : Bytes} (prot : ProtectorAt) (seq : UInt64)

/-- **`Open` stays in range**, whatever the state of the protector. -/
theorem openAt_inRange (h : hdr.length = recordHeaderLen) (fragment : Bytes) :
    InRange (prot.openAt seq hdr fragment).1 := by
  cases prot with
  | null => exact .ok _
  | cbcHMAC p =>
      show InRange (p.openAt seq hdr fragment)
      rw [CbcHMACProtector.openAt_eq h]
      exact CbcHMACProtector.open_inRange _ fragment
  | aead p =>
      show InRange (p.openAt seq hdr fragment)
      rw [AeadProtector.openAt_eq h]
      exact AeadProtector.open_inRange _ fragment
  | chacha20Poly1305 p =>
      show InRange (p.openAt seq hdr fragment)
      rw [ChaCha20Poly1305Protector.openAt_eq h]
      exact ChaCha20Poly1305Protector.open_inRange _ fragment
  | gost28147 p =>
      obtain ⟨res, p', hopen, hres⟩ := p.openAt_inRange seq h fragment
      simp only [openAt, hopen]
      exact hres
  | ctrOMAC p =>
      show InRange (p.openAt seq hdr fragment)
      rw [CtrOMACProtector.openAt_eq h]
      exact CtrOMACProtector.open_inRange _ fragment

/-- **`Open` is the `Open` of the model**, and leaves the state of the model. -/
theorem openAt_refines (h : hdr.length = recordHeaderLen) (hpos : prot.Positioned) (fragment : Bytes) :
    (prot.openAt seq hdr fragment).1 = (prot.toProtector.open seq (.ofBytes hdr) fragment).1 ∧
      (prot.openAt seq hdr fragment).2.toProtector =
        (prot.toProtector.open seq (.ofBytes hdr) fragment).2 ∧
      (prot.openAt seq hdr fragment).2.Positioned := by
  cases prot with
  | null => exact ⟨rfl, rfl, trivial⟩
  | cbcHMAC p => exact ⟨CbcHMACProtector.openAt_eq h fragment, rfl, trivial⟩
  | aead p => exact ⟨AeadProtector.openAt_eq h fragment, rfl, trivial⟩
  | chacha20Poly1305 p => exact ⟨ChaCha20Poly1305Protector.openAt_eq h fragment, rfl, trivial⟩
  | gost28147 p =>
      obtain ⟨p', hopen, hstate⟩ := p.openAt_eq seq h hpos fragment
      simp only [openAt, hopen, toProtector, Protector.open, hstate, true_and]
      show p'.cnt.num < gostBlockSize
      have hcnt : p'.cnt = (p.toProtector.open seq (.ofBytes hdr) fragment).2.cnt := by
        rw [← hstate]
        rfl
      rw [hcnt]
      by_cases hshort : fragment.length < gostMACSize
      · unfold Gost28147Protector.open
        rw [if_pos hshort]
        exact hpos
      · rw [p.toProtector.open_long seq _ hshort]
        exact GostCNT.xorKeyStream_num hpos fragment
  | ctrOMAC p => exact ⟨CtrOMACProtector.openAt_eq h fragment, rfl, trivial⟩

end ProtectorAt

/-! ## Whole runs -/

/-- A call of `Open`. -/
structure OpenCall where
  seq : UInt64
  hdr : Bytes
  fragment : Bytes
  hdr_length : hdr.length = recordHeaderLen

/-- Consecutive calls of `Open`: what they return. -/
def ProtectorAt.openAll : List OpenCall → ProtectorAt → List (Except Err Bytes)
  | [], _ => []
  | c :: cs, prot =>
    let (res, prot) := prot.openAt c.seq c.hdr c.fragment
    res :: openAll cs prot

@[inherit_doc ProtectorAt.openAll]
def Protector.openAll : List OpenCall → Protector → List (Except Err Bytes)
  | [], _ => []
  | c :: cs, prot =>
    let (res, prot) := prot.open c.seq (.ofBytes c.hdr) c.fragment
    res :: openAll cs prot

/-- **A run in range**: no call of a run goes out of range, whatever the calls before it have done. -/
theorem ProtectorAt.openAll_inRange (prot : ProtectorAt) (cs : List OpenCall) :
    ∀ res ∈ prot.openAll cs, InRange res := by
  induction cs generalizing prot with
  | nil =>
      intro res hres
      cases hres
  | cons c cs ih =>
      intro res hres
      rcases List.mem_cons.mp hres with rfl | hrest
      · exact prot.openAt_inRange c.seq c.hdr_length c.fragment
      · exact ih _ res hrest

/-- **A run of the model**: started together, both return the same from record to record. -/
theorem ProtectorAt.openAll_refines (cs : List OpenCall) {prot : ProtectorAt} (hpos : prot.Positioned) :
    prot.openAll cs = prot.toProtector.openAll cs := by
  induction cs generalizing prot with
  | nil => rfl
  | cons c cs ih =>
      obtain ⟨hres, hstate, hpos'⟩ := prot.openAt_refines c.seq c.hdr_length hpos c.fragment
      show (prot.openAt c.seq c.hdr c.fragment).1 :: (prot.openAt c.seq c.hdr c.fragment).2.openAll cs =
        (prot.toProtector.open c.seq (.ofBytes c.hdr) c.fragment).1 ::
          (prot.toProtector.open c.seq (.ofBytes c.hdr) c.fragment).2.openAll cs
      rw [hres, ih hpos', hstate]

/-! ## The record layer -/

theorem Protector.open_inRange (prot : Protector) (seq : UInt64) (hdr : Header) (fragment : Bytes) :
    InRange (prot.open seq hdr fragment).1 := by
  cases prot with
  | null => exact .ok _
  | cbcHMAC p => exact CbcHMACProtector.open_inRange hdr fragment
  | aead p => exact AeadProtector.open_inRange hdr fragment
  | chacha20Poly1305 p => exact ChaCha20Poly1305Protector.open_inRange hdr fragment
  | gost28147 p => exact p.open_inRange seq hdr fragment
  | ctrOMAC p => exact CtrOMACProtector.open_inRange hdr fragment

theorem Layer.checkHeader_inRange (hdr : Header) : InRange (checkHeader hdr) :=
  .check rfl fun _ => .check rfl fun _ => .check rfl fun _ => .ok _

/-- **Reading a record stays in range**, whatever the transport holds. -/
theorem Layer.readRecord_inRange (l : Layer) : InRange l.readRecord.1 := by
  have hout := readRecord_outcome l
  generalize l.readRecord.1 = res, l.readRecord.2 = l' at hout
  cases hout with
  | overflow => exact .error rfl
  | cutHeader _ => exact .error rfl
  | badHeader hcheck => exact .rethrow (checkHeader_inRange _) hcheck
  | cutFragment _ _ _ _ => exact .error rfl
  | rejected hopen => exact .rethrow (l.recvProt.open_inRange _ _ _) (congrArg Prod.fst hopen)
  | overlong _ => exact .error rfl
  | opened _ _ _ _ _ _ => exact .ok _

end Gostls
