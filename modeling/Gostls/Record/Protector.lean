import Gostls.Record.Aead
import Gostls.Record.Cbc
import Gostls.Record.CtrOmac
import Gostls.Record.Gost28147

/-!
# `Gostls.Record.Protector` — the `Protector` interface and its six implementations

`seal` and `open` dispatch to the implementation. Both return the protector they leave behind, since
one implementation keeps state across records; `seal` threads the system entropy, which only CBC
draws on.

The record layer uses three facts and never looks inside an implementation again: sealing succeeds
(`seal_ok`), a sealed fragment fits in a record (`seal_length_le`), and opening a sealed fragment
gives the plaintext and the sender's next state (`open_seal`).
-/

namespace Gostls

open Lib

/-- The implementations of the `Protector` interface. -/
inductive Protector
  | null
  | cbcHMAC (p : CbcHMACProtector)
  | aead (p : AeadProtector)
  | chacha20Poly1305 (p : ChaCha20Poly1305Protector)
  | gost28147 (p : Gost28147Protector)
  | ctrOMAC (p : CtrOMACProtector)

/-- `Seal(seq, hdr, plain)` -/
def Protector.seal (prot : Protector) (seq : UInt64) (hdr : Header) (plain : Bytes)
    (rand : Entropy) : Except Err Bytes × Protector × Entropy :=
  match prot with
  | .null => (.ok plain, prot, rand)
  | .cbcHMAC p =>
    let (res, rand) := p.seal seq hdr plain rand
    (res, prot, rand)
  | .aead p => (.ok (p.seal seq hdr plain), prot, rand)
  | .chacha20Poly1305 p => (.ok (p.seal seq hdr plain), prot, rand)
  | .gost28147 p =>
    let (frag, p) := p.seal seq hdr plain
    (.ok frag, .gost28147 p, rand)
  | .ctrOMAC p => (p.seal seq hdr plain, prot, rand)

/-- `Open(seq, hdr, fragment)` -/
def Protector.open (prot : Protector) (seq : UInt64) (hdr : Header) (fragment : Bytes) :
    Except Err Bytes × Protector :=
  match prot with
  | .null => (.ok fragment, prot)
  | .cbcHMAC p => (p.open seq hdr fragment, prot)
  | .aead p => (p.open seq hdr fragment, prot)
  | .chacha20Poly1305 p => (p.open seq hdr fragment, prot)
  | .gost28147 p =>
    let (res, p) := p.open seq hdr fragment
    (res, .gost28147 p)
  | .ctrOMAC p => (p.open seq hdr fragment, prot)

namespace Protector

/-- The block and MAC sizes of a CBC protector are such that its padding length fits in a byte and
    its fragments in a record. The other protectors have fixed sizes. -/
def Sized : Protector → Prop
  | .cbcHMAC p => p.Sized
  | _          => True

/-- **Sealing succeeds** as long as there is entropy. -/
theorem seal_ok (prot : Protector) (seq : UInt64) (hdr : Header) (plain : Bytes) {rand : Entropy}
    (hr : rand.Reliable) : ∃ frag prot' rand',
      prot.seal seq hdr plain rand = (.ok frag, prot', rand') ∧ rand'.Reliable := by
  cases prot with
  | null => exact ⟨_, _, _, rfl, hr⟩
  | cbcHMAC p =>
      obtain ⟨frag, rand', h, hr'⟩ := p.seal_ok seq hdr plain hr
      exact ⟨frag, .cbcHMAC p, rand', by simp only [Protector.seal, h], hr'⟩
  | aead p => exact ⟨_, _, _, rfl, hr⟩
  | chacha20Poly1305 p => exact ⟨_, _, _, rfl, hr⟩
  | gost28147 p => exact ⟨_, _, _, rfl, hr⟩
  | ctrOMAC p =>
      obtain ⟨tag, ks, -, -, -, h⟩ := p.seal_eq seq hdr plain
      exact ⟨xorStream ks (plain ++ tag), .ctrOMAC p, rand, by simp only [Protector.seal, h], hr⟩

/-- **A sealed fragment fits in a record.** -/
theorem seal_length_le {prot prot' : Protector} (hs : prot.Sized) {seq : UInt64} {hdr : Header}
    {plain frag : Bytes} {rand rand' : Entropy}
    (h : prot.seal seq hdr plain rand = (.ok frag, prot', rand')) :
    frag.length ≤ plain.length + tlsMaxCiphertextOverhead := by
  cases prot with
  | null =>
      simp only [Protector.seal, Prod.mk.injEq, Except.ok.injEq] at h
      rw [← h.1]
      omega
  | cbcHMAC p =>
      simp only [Protector.seal, Prod.mk.injEq] at h
      exact p.seal_length_le hs (Prod.ext h.1 rfl)
  | aead p =>
      simp only [Protector.seal, Prod.mk.injEq, Except.ok.injEq] at h
      rw [← h.1, p.seal_length, tlsMaxCiphertextOverhead]
      omega
  | chacha20Poly1305 p =>
      simp only [Protector.seal, Prod.mk.injEq, Except.ok.injEq] at h
      rw [← h.1, p.seal_length, tlsMaxCiphertextOverhead]
      omega
  | gost28147 p =>
      simp only [Protector.seal, Prod.mk.injEq, Except.ok.injEq] at h
      rw [← h.1, p.seal_length, tlsMaxCiphertextOverhead]
      omega
  | ctrOMAC p =>
      simp only [Protector.seal, Prod.mk.injEq] at h
      have hle := p.tagSize_le
      rw [p.seal_length h.1, tlsMaxCiphertextOverhead]
      omega

/-- **Round trip in lockstep.** A receiver holding the sender's protector opens what it sealed,
    whatever length its copy of the header carries, and ends with the sender's next protector. -/
theorem open_seal {prot prot' : Protector} (hs : prot.Sized) {seq : UInt64} {hdr hdr' : Header}
    {plain frag : Bytes} {rand rand' : Entropy} (hhdr : hdr'.typeVersion = hdr.typeVersion)
    (hlen : plain.length ≤ tlsMaxPlaintextLen)
    (h : prot.seal seq hdr plain rand = (.ok frag, prot', rand')) :
    prot.open seq hdr' frag = (.ok plain, prot') := by
  cases prot with
  | null =>
      simp only [Protector.seal, Prod.mk.injEq, Except.ok.injEq] at h
      obtain ⟨rfl, rfl, -⟩ := h
      rfl
  | cbcHMAC p =>
      simp only [Protector.seal, Prod.mk.injEq] at h
      obtain ⟨hseal, rfl, -⟩ := h
      rw [Protector.open, p.open_seal hs hhdr hlen (Prod.ext hseal rfl)]
  | aead p =>
      simp only [Protector.seal, Prod.mk.injEq, Except.ok.injEq] at h
      obtain ⟨rfl, rfl, -⟩ := h
      rw [Protector.open, p.open_seal plain hhdr]
  | chacha20Poly1305 p =>
      simp only [Protector.seal, Prod.mk.injEq, Except.ok.injEq] at h
      obtain ⟨rfl, rfl, -⟩ := h
      rw [Protector.open, p.open_seal plain hhdr]
  | gost28147 p =>
      simp only [Protector.seal, Prod.mk.injEq, Except.ok.injEq] at h
      obtain ⟨rfl, rfl, -⟩ := h
      rw [Protector.open, p.open_seal plain hhdr]
  | ctrOMAC p =>
      simp only [Protector.seal, Prod.mk.injEq] at h
      obtain ⟨hseal, rfl, -⟩ := h
      rw [Protector.open, p.open_seal hhdr hseal]

theorem seal_sized {prot prot' : Protector} (hs : prot.Sized) {seq : UInt64} {hdr : Header}
    {plain : Bytes} {res : Except Err Bytes} {rand rand' : Entropy}
    (h : prot.seal seq hdr plain rand = (res, prot', rand')) : prot'.Sized := by
  cases prot <;> simp only [Protector.seal, Prod.mk.injEq] at h <;> obtain ⟨-, rfl, -⟩ := h <;>
    exact hs

/-- **Opening does not touch the transport**, and so never fails with one of its errors. -/
theorem open_throws (prot : Protector) (seq : UInt64) (hdr : Header) (fragment : Bytes) :
    Throws Err.Local (prot.open seq hdr fragment).1 := by
  cases prot with
  | null => exact .ok _
  | cbcHMAC p => exact p.open_throws _ _ _
  | aead p => exact p.open_throws _ _ _
  | chacha20Poly1305 p => exact p.open_throws _ _ _
  | gost28147 p => exact p.open_throws _ _ _
  | ctrOMAC p => exact p.open_throws _ _ _

end Protector

end Gostls
