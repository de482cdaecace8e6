import Gostls.Lib.Der

/-!
# `Lib.Asn1` — decoders for ASN.1 types in the distinguished encoding

A decoder takes the bytes of one value from the front of a byte string. The decoders of structured types are
put together from `element`, which enters the body of an element and wants all of it used, the primitive
types, and `optional`; a type definition is then read off its decoder line by line.

Unlike the reader of `Lib.Der` a decoder has no bound on lengths. `Reads p x a` is what the proofs are about:
`x` is an encoding of `a`, whatever comes behind it. There is one rule for each way to build a decoder, and
the one side condition, that lengths can be written at all, is part of the relation.
-/

namespace Lib.Asn1

open Lib.Der

/-- A decoder: the value at the front, and what follows it. -/
abbrev Decoder (α : Type) := StateT Bytes Option α

/-! ## Decoders -/

/-- The length of an element, in its shortest form. -/
def length : Decoder Nat
  | [] => none
  | x :: b =>
    if x.toNat < 0x80 then some (x.toNat, b)
    else
      let n := x.toNat - 0x80
      let len := ofBE (b.take n)
      if n ≤ b.length ∧ encodeLength len = x :: b.take n then some (len, b.drop n) else none

/-- So many bytes. -/
def bytes (n : Nat) : Decoder Bytes := fun b =>
  if n ≤ b.length then some (b.take n, b.drop n) else none

/-- One byte, which is this one. -/
def byte (x : UInt8) : Decoder Unit
  | []     => none
  | y :: b => if y = x then some ((), b) else none

/-- The value of `p`, which takes all of `b`. -/
def decode {α : Type} (p : Decoder α) (b : Bytes) : Option α :=
  match p b with
  | some (a, []) => some a
  | _            => none

/-- An element with this tag, whose body is a `p`. -/
def element {α : Type} (tag : UInt8) (p : Decoder α) : Decoder α := do
  byte tag
  let len ← length
  let body ← bytes len
  (decode p body : Option α)

/-- Everything there is. -/
def content : Decoder Bytes := fun b => some (b, [])

def octetString : Decoder Bytes := element tagOctetString content

def objectIdentifier : Decoder (List Nat) := element tagOID (fun b =>
  match parseOID b with
  | .ok arcs => some (arcs, [])
  | .error _ => none)

/-- A BIT STRING of whole bytes, which are a `p`. -/
def bitString {α : Type} (p : Decoder α) : Decoder α := element tagBitString (byte 0 >>= fun _ => p)

/-- ANY: one element, as it is encoded. -/
def any : Decoder Bytes := fun b =>
  match parseTag b with
  | .error _   => none
  | .ok (_, r) =>
    match length r with
    | none => none
    | some (len, r) =>
      if len ≤ r.length then some (b.take (b.length - r.length + len), r.drop len) else none

/-- OPTIONAL: a `p` if the next tag is one of those. -/
def optional {α : Type} (tags : UInt8 → Bool) (p : Decoder α) : Decoder (Option α)
  | []     => some (none, [])
  | t :: b => if tags t then (p (t :: b)).map (fun (a, r) => (some a, r)) else some (none, t :: b)

/-! ## What they read -/

section

variable {α β : Type} {p : Decoder α} {f : α → Decoder β} {x y : Bytes} {a : α} {b : β}

/-- `x` is an encoding of `a`, whatever follows. -/
def Reads (p : Decoder α) (x : Bytes) (a : α) : Prop :=
  x.length < maxLength → ∀ rest, p (x ++ rest) = some (a, rest)

/-- `x`, with nothing behind it, is an encoding of `a`. -/
def Decodes (p : Decoder α) (x : Bytes) (a : α) : Prop := x.length < maxLength → p x = some (a, [])

theorem Reads.decodes (h : Reads p x a) : Decodes p x a := by
  intro hlen
  have hread := h hlen []
  rwa [List.append_nil] at hread

theorem Decodes.decode_eq (h : Decodes p x a) (hlen : x.length < maxLength) : decode p x = some a := by
  unfold decode
  rw [h hlen]

theorem bind_apply (p : Decoder α) (f : α → Decoder β) (x : Bytes) :
    (p >>= f) x = (p x).bind (fun out => f out.1 out.2) := rfl

/-- One decoder after the other. -/
theorem Reads.bind (hp : Reads p x a) (hf : Reads (f a) y b) : Reads (p >>= f) (x ++ y) b := by
  intro hlen rest
  rw [List.length_append] at hlen
  rw [List.append_assoc, bind_apply, hp (by omega)]
  exact hf (by omega) rest

/-- The second one is the last. -/
theorem Reads.bind_last (hp : Reads p x a) (hf : Decodes (f a) y b) : Decodes (p >>= f) (x ++ y) b := by
  intro hlen
  rw [List.length_append] at hlen
  rw [bind_apply, hp (by omega)]
  exact hf (by omega)

theorem Decodes.pure (a : α) : Decodes (pure a : Decoder α) [] a := fun _ => rfl

theorem Decodes.bind (hp : Decodes p x a) (hf : Decodes (f a) [] b) : Decodes (p >>= f) x b := by
  intro hlen
  rw [bind_apply, hp hlen]
  exact hf (by decide +kernel)

theorem reads_byte (t : UInt8) : Reads (byte t) [t] () := fun _ _ => if_pos rfl

theorem reads_bytes (x : Bytes) : Reads (bytes x.length) x x := by
  intro _ rest
  unfold bytes
  rw [if_pos (by simp), List.take_left, List.drop_left]

/-- **A length is read back**, short or long. -/
theorem reads_length {n : Nat} (h : n < maxLength) : Reads length (encodeLength n) n := by
  intro _ rest
  by_cases hshort : n < 0x80
  · have hn : (UInt8.ofNat n).toNat = n := by
      rw [UInt8.toNat_ofNat']
      omega
    rw [encodeLength, if_pos hshort, List.singleton_append, length, hn, if_pos hshort]
  · have hsize := length_minBE_le h
    have hfirst : (UInt8.ofNat (0x80 + (minBE n).length)).toNat - 0x80 = (minBE n).length := by
      rw [UInt8.toNat_ofNat']
      omega
    have hhigh : ¬ (UInt8.ofNat (0x80 + (minBE n).length)).toNat < 0x80 := by
      rw [UInt8.toNat_ofNat']
      omega
    rw [encodeLength_long hshort, List.cons_append, length, if_neg hhigh]
    dsimp only
    rw [hfirst, List.take_left, List.drop_left, ofBE_minBE, encodeLength_long hshort, if_pos]
    exact ⟨by simp, rfl⟩

/-- **Entering an element.** -/
theorem Decodes.element (tag : UInt8) (h : Decodes p x a) : Reads (element tag p) (tlv tag x) a := by
  intro hlen
  have hx : x.length < maxLength := Nat.lt_trans (length_lt_tlv tag x) hlen
  have hbody : Reads (liftM (decode p x) : Decoder α) [] a := by
    intro _ rest
    rw [h.decode_eq hx]
    rfl
  have hparts : Reads (Asn1.element tag p) ([tag] ++ (encodeLength x.length ++ (x ++ []))) a :=
    (reads_byte tag).bind ((reads_length hx).bind ((reads_bytes x).bind hbody))
  have htlv : [tag] ++ (encodeLength x.length ++ (x ++ [])) = tlv tag x := by simp [tlv]
  rw [htlv] at hparts
  exact hparts hlen

theorem decodes_content (x : Bytes) : Decodes content x x := fun _ => rfl

theorem reads_octetString (x : Bytes) : Reads octetString (tlv tagOctetString x) x :=
  (decodes_content x).element tagOctetString

theorem reads_objectIdentifier {arcs : List Nat} (h : parseOID x = .ok arcs) :
    Reads objectIdentifier (tlv tagOID x) arcs := by
  apply Decodes.element
  intro _
  dsimp only
  rw [h]

theorem Decodes.bitString (h : Decodes p x a) : Reads (bitString p) (tlv tagBitString (0 :: x)) a :=
  Decodes.element tagBitString ((reads_byte 0).bind_last h)

/-- Any element the reader of `Lib.Der` accepted. -/
theorem reads_any {el : Element} (h : parseElement x = .ok el) : Reads any el.full el.full := by
  obtain ⟨t, htag, hlen, hfull, -⟩ := parseElement_ok h
  intro hsize rest
  have hheader : (encodeLength el.body.length).length < maxLength := by
    rw [hfull, List.length_append, List.length_append] at hsize
    omega
  have hbytes : el.full ++ rest = t ++ (encodeLength el.body.length ++ (el.body ++ rest)) := by
    rw [hfull, List.append_assoc, List.append_assoc]
  have hcut : (el.full ++ rest).length - (el.body ++ rest).length + el.body.length = el.full.length := by
    rw [hfull]
    simp only [List.length_append]
    omega
  unfold any
  conv in parseTag _ => rw [hbytes, htag]
  dsimp only
  rw [reads_length hlen hheader]
  dsimp only
  rw [if_pos (by simp), hcut, List.take_left, List.drop_left]

/-- A field that is there. -/
theorem Reads.optional {tags : UInt8 → Bool} (htag : x.head?.any tags = true) (h : Reads p x a) :
    Reads (optional tags p) x (some a) := by
  intro hlen rest
  have hread := h hlen rest
  cases x with
  | nil => cases htag
  | cons t x =>
      have ht : tags t = true := htag
      rw [List.cons_append] at hread ⊢
      unfold Asn1.optional
      dsimp only
      rw [if_pos ht, hread]
      rfl

theorem decodes_optional_nil (tags : UInt8 → Bool) : Decodes (optional tags p) [] none := fun _ => rfl

end

end Lib.Asn1
