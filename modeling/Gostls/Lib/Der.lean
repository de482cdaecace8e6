import Gostls.Lib.Bytes
import Gostls.Lib.Program

/-!
# `Lib.Der` — the distinguished encoding rules, as far as key transport needs them

Elements are a tag byte, a definite length in the shortest form, and a body. The reader accepts what
the writer produces and rejects the non-canonical forms: indefinite lengths, leading zeros, long forms
of short lengths. So what it accepts is written again as it was read: `parseLength_ok`,
`encodeOID_parseOID`, `parseElement_ok`.
-/

namespace Lib.Der

/-- Why an element is rejected. -/
inductive DerErr
  | syntaxError (msg : String)
  | structuralError (msg : String)
  deriving DecidableEq, Repr

def DerErr.error : DerErr → String
  | .syntaxError msg     => "asn1: syntax error: " ++ msg
  | .structuralError msg => "asn1: structure error: " ++ msg

def tagBitString : UInt8 := 0x03
def tagOctetString : UInt8 := 0x04
def tagOID : UInt8 := 0x06
def tagSequence : UInt8 := 0x30

/-- The constructed context-specific tag 0. -/
def tagContext0 : UInt8 := 0xA0

/-! ## Writing -/

/-- The digits of `n` in base `b`, most significant first, none for zero; `fuel` bounds their number. -/
def digits (b : Nat) : Nat → Nat → List Nat
  | 0,        _ => []
  | fuel + 1, n => if n = 0 then [] else digits b fuel (n / b) ++ [n % b]

def encodeLength (n : Nat) : Bytes :=
  if n < 0x80 then [UInt8.ofNat n]
  else
    let d := (digits 256 n n).map UInt8.ofNat
    UInt8.ofNat (0x80 + d.length) :: d

/-- An element: tag, length, body. -/
def tlv (tag : UInt8) (body : Bytes) : Bytes := tag :: encodeLength body.length ++ body

/-- A number in base 128, every byte but the last with the high bit set. -/
def base128 (n : Nat) : Bytes :=
  (digits 128 n (n / 128)).map (fun d => UInt8.ofNat (0x80 + d)) ++ [UInt8.ofNat (n % 128)]

/-- The body of an object identifier; the first two arcs share a number. -/
def encodeOID : List Nat → Except DerErr Bytes
  | a :: b :: arcs =>
    if a > 2 ∨ (a < 2 ∧ b ≥ 40) then .error (.structuralError "invalid object identifier")
    else .ok (base128 (a * 40 + b) ++ arcs.flatMap base128)
  | _ => .error (.structuralError "invalid object identifier")

theorem digits_of_le {b n fuel : Nat} (hb : 1 < b) (h : n ≤ fuel) : digits b fuel n = digits b n n := by
  induction fuel using Nat.strong_induction_on generalizing n with
  | _ fuel ih =>
      cases fuel with
      | zero => rw [Nat.le_zero.mp h]
      | succ fuel =>
          cases n with
          | zero => rfl
          | succ n =>
              have hdiv : (n + 1) / b < n + 1 := Nat.div_lt_self n.succ_pos hb
              rw [digits, digits, ih fuel (by omega) (by omega), ih n (by omega) (by omega)]

/-- **One more digit.** -/
theorem digits_snoc {b acc d : Nat} (hb : 1 < b) (hd : d < b) (h : acc * b + d ≠ 0) :
    digits b (acc * b + d) (acc * b + d) = digits b acc acc ++ [d] := by
  have hdiv : (acc * b + d) / b = acc := by
    rw [Nat.mul_comm, Nat.mul_add_div (by omega), Nat.div_eq_of_lt hd, Nat.add_zero]
  have hmod : (acc * b + d) % b = d := by
    rw [Nat.mul_comm, Nat.mul_add_mod, Nat.mod_eq_of_lt hd]
  obtain ⟨k, hk⟩ := Nat.exists_eq_succ_of_ne_zero h
  have hacc : acc ≤ k := by
    have hmul : acc * 2 ≤ acc * b := Nat.mul_le_mul_left acc hb
    omega
  conv => lhs; arg 2; rw [hk]
  rw [digits, if_neg h, hdiv, hmod, digits_of_le hb hacc]

theorem length_digits_le {b n k : Nat} (hb : 1 < b) (h : n < b ^ k) : (digits b n n).length ≤ k := by
  induction k generalizing n with
  | zero =>
      have hn : n = 0 := by simpa using h
      simp [hn, digits]
  | succ k ih =>
      by_cases hn : n = 0
      · simp [hn, digits]
      · have hsplit : n = n / b * b + n % b := by rw [Nat.mul_comm, Nat.div_add_mod]
        have hlt : n / b < b ^ k := Nat.div_lt_of_lt_mul (by rwa [Nat.pow_succ'] at h)
        rw [hsplit, digits_snoc hb (Nat.mod_lt n (by omega)) (by omega), List.length_append,
          List.length_singleton]
        exact Nat.succ_le_succ (ih hlt)

/-- The bytes of `n`, without a leading zero. -/
def minBE (n : Nat) : Bytes := (digits 256 n n).map UInt8.ofNat

theorem minBE_snoc {acc : Nat} {x : UInt8} (h : acc * 256 + x.toNat ≠ 0) :
    minBE (acc * 256 + x.toNat) = minBE acc ++ [x] := by
  unfold minBE
  rw [digits_snoc (by decide) x.toNat_lt h, List.map_append, List.map_singleton, UInt8.ofNat_toNat]

theorem ofBE_minBE (n : Nat) : ofBE (minBE n) = n := by
  induction n using Nat.strong_induction_on with
  | _ n ih =>
      by_cases hn : n = 0
      · rw [hn]
        rfl
      · have hx : (UInt8.ofNat (n % 256)).toNat = n % 256 := by
          rw [UInt8.toNat_ofNat']
          omega
        have hsplit : n / 256 * 256 + (UInt8.ofNat (n % 256)).toNat = n := by omega
        have hsnoc : minBE (n / 256 * 256 + (UInt8.ofNat (n % 256)).toNat) =
            minBE (n / 256) ++ [UInt8.ofNat (n % 256)] := minBE_snoc (by omega)
        rw [hsplit] at hsnoc
        rw [hsnoc, ofBE_snoc, ih (n / 256) (by omega), hsplit]

/-- The lengths that can be written: 126 bytes of length are the most the first one can announce. -/
def maxLength : Nat := 256 ^ 126

theorem length_minBE_le {n : Nat} (h : n < maxLength) : (minBE n).length ≤ 126 := by
  unfold minBE
  rw [List.length_map]
  exact length_digits_le (by decide) h

theorem encodeLength_long {n : Nat} (h : ¬ n < 0x80) :
    encodeLength n = UInt8.ofNat (0x80 + (minBE n).length) :: minBE n := if_neg h

theorem length_lt_tlv (tag : UInt8) (body : Bytes) : body.length < (tlv tag body).length := by
  rw [tlv, List.length_append, List.length_cons]
  omega

/-! ## Reading -/

/-- `n` more bytes of a long-form length, onto `acc`. -/
def readLength : Nat → Nat → Bytes → Except DerErr (Nat × Bytes)
  | 0,     acc, b => .ok (acc, b)
  | n + 1, acc, b =>
    match b with
    | [] => .error (.syntaxError "truncated tag or length")
    | x :: b =>
      if acc ≥ 2 ^ 23 then .error (.structuralError "length too large")
      else if acc * 256 + x.toNat = 0 then
        .error (.structuralError "superfluous leading zeros in length")
      else readLength n (acc * 256 + x.toNat) b

/-- The length of an element and what follows it. -/
def parseLength : Bytes → Except DerErr (Nat × Bytes)
  | [] => .error (.syntaxError "truncated tag or length")
  | x :: b =>
    if x.toNat < 0x80 then .ok (x.toNat, b)
    else if x.toNat = 0x80 then .error (.syntaxError "indefinite length found (not DER)")
    else
      match readLength (x.toNat - 0x80) 0 b with
      | .error e => .error e
      | .ok (len, b) =>
        if len < 0x80 then .error (.structuralError "non-minimal length") else .ok (len, b)

/-- A base-128 number: `acc` is what has been read of it, in `n` bytes. -/
def parseBase128Int : Nat → Nat → Bytes → Except DerErr (Nat × Bytes)
  | _, _, [] => .error (.syntaxError "truncated base 128 integer")
  | acc, n, x :: b =>
    if n = 5 then .error (.structuralError "base 128 integer too large")
    else if n = 0 ∧ x = 0x80 then .error (.syntaxError "integer is not minimally encoded")
    else
      let acc := acc * 128 + (x &&& 0x7f).toNat
      if x.toNat ≥ 0x80 then parseBase128Int acc (n + 1) b
      else if acc ≥ 2 ^ 31 then .error (.structuralError "base 128 integer too large")
      else .ok (acc, b)

/-- The tag of an element, by its first byte, and what follows the tag. -/
def parseTag : Bytes → Except DerErr (UInt8 × Bytes)
  | [] => .error (.syntaxError "sequence truncated")
  | tag :: b =>
    if tag &&& 0x1f ≠ 0x1f then .ok (tag, b)
    else
      -- The long form: the number is in the bytes that follow.
      match parseBase128Int 0 0 b with
      | .error e   => .error e
      | .ok (n, b) => if n < 0x1f then .error (.syntaxError "non-minimal tag") else .ok (tag, b)

/-- One element: the first byte of its tag, its body, all its bytes, and what follows. -/
structure Element where
  tag : UInt8
  body : Bytes
  full : Bytes
  rest : Bytes

/-- The element at the front of `b`. -/
def parseElement (b : Bytes) : Except DerErr Element := do
  let (tag, r) ← parseTag b
  let (len, r) ← parseLength r
  if r.length < len then throw (.syntaxError "data truncated")
  return { tag, body := r.take len, full := b.take (b.length - r.length + len), rest := r.drop len }

/-- The element at the front of `b`, which must have this tag. -/
def expect (tag : UInt8) (b : Bytes) : Except DerErr Element := do
  let el ← parseElement b
  if el.tag ≠ tag then throw (.structuralError "tags don't match")
  return el

/-- The base-128 numbers that make up `b`; `fuel` bounds their number. -/
def parseBase128Ints : Nat → Bytes → Except DerErr (List Nat)
  | _, [] => .ok []
  | 0, _ => .error (.syntaxError "truncated base 128 integer")
  | fuel + 1, b => do
    let (v, b) ← parseBase128Int 0 0 b
    let vs ← parseBase128Ints fuel b
    return v :: vs

/-- The arcs of an object identifier. -/
def parseOID (b : Bytes) : Except DerErr (List Nat) := do
  match ← parseBase128Ints b.length b with
  | [] => throw (.syntaxError "zero length OBJECT IDENTIFIER")
  | v :: vs => if v < 80 then return v / 40 :: v % 40 :: vs else return 2 :: (v - 80) :: vs

/-! ## What the reader accepts is what the writer writes -/

theorem readLength_succ_ok {n acc len : Nat} {b r : Bytes} (h : readLength (n + 1) acc b = .ok (len, r)) :
    ∃ x b', b = x :: b' ∧ acc < 2 ^ 23 ∧ acc * 256 + x.toNat ≠ 0 ∧
      readLength n (acc * 256 + x.toNat) b' = .ok (len, r) := by
  cases b with
  | nil => cases h
  | cons x b =>
      rw [readLength] at h
      split at h
      · cases h
      · rename_i hsmall
        split at h
        · cases h
        · rename_i hne
          exact ⟨x, b, rfl, Nat.lt_of_not_le hsmall, hne, h⟩

/-- The bytes read so far are the bytes of `acc`. -/
theorem readLength_ok {n acc len : Nat} {b r : Bytes} (h : readLength n acc b = .ok (len, r)) :
    minBE acc ++ b = minBE len ++ r ∧ (minBE len).length = (minBE acc).length + n := by
  induction n generalizing acc b with
  | zero =>
      cases h
      exact ⟨rfl, rfl⟩
  | succ n ih =>
      obtain ⟨x, b, rfl, -, hne, hrest⟩ := readLength_succ_ok h
      obtain ⟨hbytes, hlength⟩ := ih hrest
      rw [minBE_snoc hne, List.append_assoc, List.singleton_append] at hbytes
      rw [minBE_snoc hne, List.length_append, List.length_singleton] at hlength
      exact ⟨hbytes, by omega⟩

theorem readLength_lt {n acc len : Nat} {b r : Bytes} (hacc : acc < 2 ^ 31)
    (h : readLength n acc b = .ok (len, r)) : len < 2 ^ 31 := by
  induction n generalizing acc b with
  | zero =>
      cases h
      exact hacc
  | succ n ih =>
      obtain ⟨x, b, rfl, hsmall, -, hrest⟩ := readLength_succ_ok h
      have hx : x.toNat < 256 := x.toNat_lt
      exact ih (by omega) hrest

/-- **A length is read** in its shortest form only. -/
theorem parseLength_ok {b r : Bytes} {len : Nat} (h : parseLength b = .ok (len, r)) :
    b = encodeLength len ++ r ∧ len < maxLength := by
  have hmax : 2 ^ 31 ≤ maxLength := by decide +kernel
  cases b with
  | nil => cases h
  | cons x b =>
      have hx : x.toNat < 256 := x.toNat_lt
      rw [parseLength] at h
      split at h
      · rename_i hshort
        cases h
        refine ⟨?_, by omega⟩
        rw [encodeLength, if_pos hshort, UInt8.ofNat_toNat]
        rfl
      · split at h
        · cases h
        · rename_i hlong _
          cases hread : readLength (x.toNat - 0x80) 0 b with
          | error e =>
              rw [hread] at h
              cases h
          | ok out =>
              obtain ⟨len', r'⟩ := out
              rw [hread] at h
              dsimp only at h
              split at h
              · cases h
              · rename_i hlen
                cases h
                obtain ⟨hbytes, hlength⟩ := readLength_ok hread
                have hfirst : UInt8.ofNat (0x80 + (minBE len).length) = x := by
                  apply UInt8.toNat_inj.mp
                  have hzero : (minBE 0).length = 0 := rfl
                  rw [UInt8.toNat_ofNat']
                  omega
                refine ⟨?_, Nat.lt_of_lt_of_le (readLength_lt (by decide) hread) hmax⟩
                rw [encodeLength_long hlen, hfirst, List.cons_append, ← hbytes]
                rfl

/-- The bytes of `acc` in base 128, more to follow. -/
def continued (acc : Nat) : Bytes := (digits 128 acc acc).map (fun d => UInt8.ofNat (0x80 + d))

theorem base128_eq (n : Nat) : base128 n = continued (n / 128) ++ [UInt8.ofNat (n % 128)] := by
  unfold base128 continued
  rw [digits_of_le (by decide) (Nat.div_le_self n 128)]

theorem low7_toNat (x : UInt8) : (x &&& 0x7f).toNat = x.toNat % 128 := by
  rw [UInt8.toNat_and]
  exact Nat.and_two_pow_sub_one_eq_mod x.toNat 7

theorem continued_snoc {acc : Nat} {x : UInt8} (hx : x.toNat ≥ 0x80)
    (h : acc * 128 + (x &&& 0x7f).toNat ≠ 0) :
    continued (acc * 128 + (x &&& 0x7f).toNat) = continued acc ++ [x] := by
  have hlt : x.toNat < 256 := x.toNat_lt
  have hlow := low7_toNat x
  have hback : UInt8.ofNat (0x80 + (x &&& 0x7f).toNat) = x := by
    apply UInt8.toNat_inj.mp
    rw [UInt8.toNat_ofNat']
    omega
  unfold continued
  rw [digits_snoc (by decide) (by omega) h, List.map_append, List.map_singleton, hback]

/-- **A base-128 number is read** in its shortest form only, and without a look at what follows. -/
theorem parseBase128Int_ok {acc n v : Nat} {b r : Bytes} (hzero : n = 0 → acc = 0) (hpos : n ≠ 0 → acc ≠ 0)
    (h : parseBase128Int acc n b = .ok (v, r)) :
    ∃ x, b = x ++ r ∧ continued acc ++ x = base128 v ∧
      ∀ r', parseBase128Int acc n (x ++ r') = .ok (v, r') := by
  induction b generalizing acc n with
  | nil => cases h
  | cons x b ih =>
      have hlow := low7_toNat x
      rw [parseBase128Int] at h
      split at h
      · cases h
      · rename_i hroom
        split at h
        · cases h
        · rename_i hlead
          dsimp only at h
          split at h
          · rename_i hmore
            have hne : acc * 128 + (x &&& 0x7f).toNat ≠ 0 := by
              by_cases hn : n = 0
              · -- The first byte is not 0x80, so it has a digit.
                have hx : x.toNat ≠ 0x80 := fun hx => hlead ⟨hn, UInt8.toNat_inj.mp hx⟩
                have hlt : x.toNat < 256 := x.toNat_lt
                omega
              · have hacc := hpos hn
                omega
            obtain ⟨y, rfl, hbytes, hread⟩ := ih (fun hn => absurd hn n.succ_ne_zero) (fun _ => hne) h
            rw [continued_snoc hmore hne, List.append_assoc, List.singleton_append] at hbytes
            refine ⟨x :: y, rfl, hbytes, ?_⟩
            intro r'
            rw [List.cons_append, parseBase128Int, if_neg hroom, if_neg hlead]
            dsimp only
            rw [if_pos hmore]
            exact hread r'
          · rename_i hlast
            split at h
            · cases h
            · rename_i hfits
              cases h
              have hdiv : (acc * 128 + (x &&& 0x7f).toNat) / 128 = acc := by omega
              have hmod : UInt8.ofNat ((acc * 128 + (x &&& 0x7f).toNat) % 128) = x := by
                apply UInt8.toNat_inj.mp
                rw [UInt8.toNat_ofNat']
                omega
              refine ⟨[x], rfl, by rw [base128_eq, hdiv, hmod], ?_⟩
              intro r'
              rw [List.singleton_append, parseBase128Int, if_neg hroom, if_neg hlead]
              dsimp only
              rw [if_neg hlast, if_neg hfits]

theorem parseBase128Ints_ok {fuel : Nat} {b : Bytes} {vs : List Nat}
    (h : parseBase128Ints fuel b = .ok vs) : b = vs.flatMap base128 := by
  induction fuel generalizing b vs with
  | zero =>
      cases b with
      | nil =>
          cases h
          rfl
      | cons x b => cases h
  | succ fuel ih =>
      cases b with
      | nil =>
          cases h
          rfl
      | cons x b =>
          obtain ⟨⟨v, r⟩, hv, h⟩ := bind_eq_ok.mp h
          obtain ⟨rest, hrest, h⟩ := bind_eq_ok.mp h
          cases h
          obtain ⟨y, hy, hbytes, -⟩ :=
            parseBase128Int_ok (fun _ => rfl) (fun hn => absurd rfl hn) hv
          rw [hy, ih hrest, List.flatMap_cons, ← hbytes]
          rfl

/-- **An object identifier is written** as it was read. -/
theorem encodeOID_parseOID {b : Bytes} {arcs : List Nat} (h : parseOID b = .ok arcs) :
    encodeOID arcs = .ok b := by
  obtain ⟨vs, hvs, harcs⟩ := bind_eq_ok.mp h
  obtain rfl := parseBase128Ints_ok hvs
  cases vs with
  | nil => cases harcs
  | cons v vs =>
      dsimp only at harcs
      split at harcs
      · rename_i hv
        cases harcs
        have hback : v / 40 * 40 + v % 40 = v := by omega
        rw [encodeOID, if_neg (by omega), hback]
        rfl
      · rename_i hv
        cases harcs
        have hback : 2 * 40 + (v - 80) = v := by omega
        rw [encodeOID, if_neg (by omega), hback]
        rfl

theorem parseTag_ok {b r : Bytes} {tag : UInt8} (h : parseTag b = .ok (tag, r)) :
    ∃ x, b = x ++ r ∧ ∀ r', parseTag (x ++ r') = .ok (tag, r') := by
  cases b with
  | nil => cases h
  | cons t b =>
      rw [parseTag] at h
      split at h
      · rename_i hlow
        cases h
        exact ⟨[tag], rfl, fun r' => if_pos hlow⟩
      · rename_i hhigh
        cases hn : parseBase128Int 0 0 b with
        | error e =>
            rw [hn] at h
            cases h
        | ok out =>
            obtain ⟨n, r₁⟩ := out
            rw [hn] at h
            dsimp only at h
            split at h
            · cases h
            · rename_i hmin
              cases h
              obtain ⟨x, rfl, -, hread⟩ :=
                parseBase128Int_ok (fun _ => rfl) (fun hz => absurd rfl hz) hn
              refine ⟨tag :: x, rfl, ?_⟩
              intro r'
              rw [List.cons_append, parseTag, if_neg hhigh, hread]
              exact if_neg hmin

/-- **An element is read** as its tag, the length of its body, and its body. -/
theorem parseElement_ok {b : Bytes} {el : Element} (h : parseElement b = .ok el) :
    ∃ x, (∀ r, parseTag (x ++ r) = .ok (el.tag, r)) ∧ el.body.length < maxLength ∧
      el.full = x ++ encodeLength el.body.length ++ el.body ∧ b = el.full ++ el.rest := by
  obtain ⟨⟨tag, r₁⟩, htag, h⟩ := bind_eq_ok.mp h
  obtain ⟨⟨len, r₂⟩, hlength, h⟩ := bind_eq_ok.mp h
  dsimp only at h
  split at h
  · cases h
  · rename_i hroom
    cases h
    obtain ⟨x, rfl, hread⟩ := parseTag_ok htag
    obtain ⟨rfl, hlen⟩ := parseLength_ok hlength
    have hbody : (r₂.take len).length = len := List.length_take_of_le (by omega)
    have hcut : (x ++ (encodeLength len ++ r₂)).take
        ((x ++ (encodeLength len ++ r₂)).length - r₂.length + len) =
        x ++ encodeLength len ++ r₂.take len := by
      have hsize : (x ++ (encodeLength len ++ r₂)).length - r₂.length + len =
          (x ++ encodeLength len).length + len := by
        simp only [List.length_append]
        omega
      rw [hsize, ← List.append_assoc, List.take_length_add_append]
    refine ⟨x, hread, by dsimp only; omega, by dsimp only; rw [hbody, hcut], ?_⟩
    dsimp only
    rw [hcut, List.append_assoc, List.append_assoc, List.take_append_drop]

theorem parseElement_full_ne_nil {b : Bytes} {el : Element} (h : parseElement b = .ok el) :
    el.full ≠ [] := by
  obtain ⟨x, htag, -, hfull, -⟩ := parseElement_ok h
  intro hnil
  rw [hnil] at hfull
  have hx : x = [] := by
    simp only [List.nil_eq, List.append_eq_nil_iff] at hfull
    exact hfull.1.1
  rw [hx] at htag
  cases htag []

end Lib.Der
