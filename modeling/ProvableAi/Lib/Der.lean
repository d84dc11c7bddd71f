/-
# DER

The distinguished encoding rules, as a reader has them: an identifier octet, a
length, the contents.  A length is in the short form, one octet below 128, or in
the long form, and then it has no shorter encoding; tag numbers from 31 on take
more octets and are not read.

The contents of an `INTEGER` are a number in two's complement whose first nine
bits are not all equal, those of an `OBJECT IDENTIFIER` are arcs in base 128.
`shortest_of_minimal` says what the rule on the nine bits is for: no other
contents of that value are shorter.  `ShortForm` is a string of elements, one
after the other and nested, whose lengths are all single octets.
-/

import Mathlib.Algebra.Order.Ring.Int
import Mathlib.Data.List.Basic
import Mathlib.Data.UInt
import Mathlib.Tactic.Ring
import Mathlib.Tactic.Linarith

namespace ProvableAi
namespace Der

/-! ### Numbers -/

/-- The number that octets spell, the highest first. -/
def unsigned : List UInt8 → ℕ
  | [] => 0
  | b :: bs => b.toNat * 256 ^ bs.length + unsigned bs

/-- `n` as `k` octets, the highest first. -/
def octets : ℕ → ℕ → List UInt8
  | 0, _ => []
  | k + 1, n => UInt8.ofNat (n / 256 ^ k) :: octets k n

/-- The number that octets spell in two's complement. -/
def signed : List UInt8 → ℤ
  | [] => 0
  | b :: bs => if b < 128 then unsigned (b :: bs) else unsigned (b :: bs) - 256 ^ (bs.length + 1)

/-- The first nine bits are not all equal. -/
def Minimal : List UInt8 → Prop
  | [] => False
  | [_] => True
  | b :: c :: _ => ¬(b = 0 ∧ c < 128) ∧ ¬(b = 255 ∧ 128 ≤ c)

instance : DecidablePred Minimal
  | [] => inferInstanceAs (Decidable False)
  | [_] => inferInstanceAs (Decidable True)
  | b :: c :: _ => inferInstanceAs (Decidable (¬(b = 0 ∧ c < 128) ∧ ¬(b = 255 ∧ 128 ≤ c)))

variable {b c : UInt8} {bs cs : List UInt8} {n k : ℕ}

@[simp] theorem unsigned_nil : unsigned [] = 0 := rfl

@[simp] theorem unsigned_zero_cons : unsigned (0 :: bs) = unsigned bs := by simp [unsigned]

@[simp] theorem octets_length : (octets k n).length = k := by
  induction k with
  | zero => rfl
  | succ k ih => simp [octets, ih]

theorem unsigned_lt (bs : List UInt8) : unsigned bs < 256 ^ bs.length := by
  induction bs with
  | nil => simp
  | cons b bs ih =>
    have hb : b.toNat ≤ 255 := by have := b.toNat_lt; omega
    have hmul : b.toNat * 256 ^ bs.length ≤ 255 * 256 ^ bs.length := Nat.mul_le_mul_right _ hb
    rw [unsigned, List.length_cons, pow_succ]
    omega

/-- Octets are the digits of their number. -/
theorem octets_unsigned_add (bs : List UInt8) (m : ℕ) :
    octets bs.length (m * 256 ^ bs.length + unsigned bs) = bs := by
  induction bs generalizing m with
  | nil => rfl
  | cons b bs ih =>
    have hpos : 0 < 256 ^ bs.length := by positivity
    have hlt := unsigned_lt bs
    have hdiv : (m * 256 ^ (bs.length + 1) + (b.toNat * 256 ^ bs.length + unsigned bs)) / 256 ^ bs.length
        = m * 256 + b.toNat := by
      rw [show m * 256 ^ (bs.length + 1) + (b.toNat * 256 ^ bs.length + unsigned bs) =
        unsigned bs + (m * 256 + b.toNat) * 256 ^ bs.length by ring, Nat.add_mul_div_right _ _ hpos,
        Nat.div_eq_of_lt hlt, Nat.zero_add]
    have hrest : m * 256 ^ (bs.length + 1) + (b.toNat * 256 ^ bs.length + unsigned bs) =
        (m * 256 + b.toNat) * 256 ^ bs.length + unsigned bs := by ring
    rw [List.length_cons, octets, unsigned, hdiv, hrest, ih]
    congr 1
    rw [← UInt8.toNat_inj, UInt8.toNat_ofNat']
    have := b.toNat_lt
    omega

@[simp] theorem octets_unsigned : octets bs.length (unsigned bs) = bs := by
  simpa using octets_unsigned_add bs 0

theorem signed_eq_unsigned (h : b < 128) : signed (b :: bs) = unsigned (b :: bs) := by
  simp [signed, h]

/-- **The range of `k + 1` octets** in two's complement. -/
theorem signed_range (b : UInt8) (bs : List UInt8) :
    -(128 * 256 ^ bs.length : ℤ) ≤ signed (b :: bs) ∧ signed (b :: bs) < 128 * 256 ^ bs.length := by
  have hlt : (unsigned bs : ℤ) < 256 ^ bs.length := by exact_mod_cast unsigned_lt bs
  have hcons : (unsigned (b :: bs) : ℤ) = b.toNat * 256 ^ bs.length + unsigned bs := by
    rw [unsigned]; push_cast; ring
  have hpow : (0 : ℤ) < 256 ^ bs.length := by positivity
  by_cases hb : b < 128
  · have hle : (b.toNat : ℤ) ≤ 127 := by have : b.toNat < 128 := hb; omega
    have hmul : (b.toNat : ℤ) * 256 ^ bs.length ≤ 127 * 256 ^ bs.length := mul_le_mul_of_nonneg_right hle hpow.le
    rw [signed_eq_unsigned hb, hcons]
    exact ⟨by nlinarith [Int.natCast_nonneg b.toNat, Int.natCast_nonneg (unsigned bs)], by linarith⟩
  · have hge : (128 : ℤ) ≤ b.toNat := by have : ¬ b.toNat < 128 := hb; omega
    have hle : (b.toNat : ℤ) ≤ 255 := by have := b.toNat_lt; omega
    have hlow : (128 : ℤ) * 256 ^ bs.length ≤ b.toNat * 256 ^ bs.length := mul_le_mul_of_nonneg_right hge hpow.le
    have hhigh : (b.toNat : ℤ) * 256 ^ bs.length ≤ 255 * 256 ^ bs.length := mul_le_mul_of_nonneg_right hle hpow.le
    rw [signed, if_neg hb, hcons, pow_succ]
    constructor <;> linarith [Int.natCast_nonneg (unsigned bs)]

/-- Of minimal contents the number is out of the range of one octet less. -/
theorem signed_out_of_range (h : Minimal (b :: c :: cs)) :
    signed (b :: c :: cs) < -(128 * 256 ^ cs.length) ∨ 128 * 256 ^ cs.length ≤ signed (b :: c :: cs) := by
  have hlt : (unsigned cs : ℤ) < 256 ^ cs.length := by exact_mod_cast unsigned_lt cs
  have hpow : (0 : ℤ) < 256 ^ cs.length := by positivity
  have hcons : (unsigned (b :: c :: cs) : ℤ) = (b.toNat * 256 + c.toNat) * 256 ^ cs.length + unsigned cs := by
    simp only [unsigned, List.length_cons]; push_cast; ring
  have hc : (c.toNat : ℤ) ≤ 255 := by have := c.toNat_lt; omega
  by_cases hb : b < 128
  · have hge : (128 : ℤ) ≤ b.toNat * 256 + c.toNat := by
      by_cases h0 : b = 0
      · have hc : ¬ c.toNat < 128 := fun hlt => h.1 ⟨h0, hlt⟩
        omega
      · have : b.toNat ≠ 0 := fun hz => h0 (by rwa [← UInt8.toNat_inj])
        omega
    have hmul := mul_le_mul_of_nonneg_right hge hpow.le
    rw [signed_eq_unsigned hb, hcons]
    exact .inr (by linarith [Int.natCast_nonneg (unsigned cs)])
  · have hle : (b.toNat * 256 + c.toNat : ℤ) + 1 ≤ 256 * 256 - 128 := by
      by_cases h1 : b = 255
      · have hc : ¬ 128 ≤ c.toNat := fun hle => h.2 ⟨h1, hle⟩
        rw [h1]
        simp only [UInt8.reduceToNat]
        omega
      · have hlt := b.toNat_lt
        have : b.toNat ≠ 255 := fun hz => h1 (by rw [← UInt8.toNat_inj, hz]; rfl)
        omega
    have hmul := mul_le_mul_of_nonneg_right hle hpow.le
    rw [signed, if_neg hb, hcons, List.length_cons, pow_succ, pow_succ]
    exact .inl (by linarith)

/-- **Minimal contents are the shortest** of their number. -/
theorem shortest_of_minimal (h : Minimal bs) (hcs : cs ≠ []) (heq : signed cs = signed bs) :
    bs.length ≤ cs.length := by
  match bs, cs, h, hcs with
  | [_], _ :: _, _, _ => simp
  | b :: c :: bs, d :: cs, h, _ =>
    by_contra hlt
    have hle : (256 : ℤ) ^ cs.length ≤ 256 ^ bs.length :=
      pow_le_pow_right₀ (by norm_num) (by simp only [List.length_cons] at hlt; omega)
    have hrange := signed_range d cs
    rcases signed_out_of_range h with hout | hout
    · linarith [hrange.1]
    · linarith [hrange.2]

/-! ### Elements -/

/-- The length octets at the head of a string, and what follows them. -/
def readLength : List UInt8 → Option (ℕ × List UInt8)
  | [] => none
  | l :: rest =>
    if l < 128 then some (l.toNat, rest)
    else
      let k := l.toNat - 128
      let ls := rest.take k
      -- `0x80` opens an indefinite length and `0xff` is reserved
      if k = 0 ∨ k = 127 ∨ rest.length < k ∨ ls.head? = some 0 ∨ unsigned ls < 128 then none
      else some (unsigned ls, rest.drop k)

/-- The element at the head of a string: its identifier and contents, and what follows it. -/
def readElement : List UInt8 → Option (UInt8 × List UInt8 × List UInt8)
  | [] => none
  | tag :: s =>
    if tag.toNat % 32 = 31 then none
    else do
      let (len, rest) ← readLength s
      if rest.length < len then none
      else pure (tag, rest.take len, rest.drop len)

/-- The contents of an element that must be there. -/
def expect (tag : UInt8) (s : List UInt8) : Option (List UInt8 × List UInt8) := do
  let (t, content, rest) ← readElement s
  if t = tag then pure (content, rest) else none

/-- The contents of an element that may be left out. -/
def optional (tag : UInt8) (s : List UInt8) : Option (Option (List UInt8) × List UInt8) :=
  if s.head? = some tag then (expect tag s).map fun (content, rest) => (some content, rest)
  else some (none, s)

/-- `INTEGER`. -/
def integer (content : List UInt8) : Option ℤ := if Minimal content then some (signed content) else none

/-- `BOOLEAN`. -/
def boolean : List UInt8 → Option Bool
  | [0x00] => some false
  | [0xff] => some true
  | _ => none

/-- The numbers of a string of octets in base 128, each without a leading zero digit. -/
def base128 : Option ℕ → List UInt8 → Option (List ℕ)
  | none, [] => some []
  | some _, [] => none
  | acc, b :: bs =>
    if acc = none ∧ b = 0x80 then none
    else
      let n := acc.getD 0 * 128 + b.toNat % 128
      if b < 128 then (base128 none bs).map (n :: ·) else base128 (some n) bs

/-- `OBJECT IDENTIFIER`: the first number holds the first two arcs. -/
def objectIdentifier (content : List UInt8) : Option (List ℕ) := do
  match ← base128 none content with
  | [] => none
  | n :: arcs => pure (min 2 (n / 40) :: (n - 40 * min 2 (n / 40)) :: arcs)

/-- A string of elements whose lengths are single octets, those of a constructed element being such a string too. -/
inductive ShortForm : List UInt8 → Prop
  | nil : ShortForm []
  | primitive {tag len : UInt8} {content rest : List UInt8} (htag : tag.toNat / 32 % 2 = 0) (hshort : len < 128)
      (hlen : len.toNat = content.length) (hrest : ShortForm rest) : ShortForm (tag :: len :: (content ++ rest))
  | constructed {tag len : UInt8} {content rest : List UInt8} (htag : tag.toNat / 32 % 2 = 1) (hshort : len < 128)
      (hlen : len.toNat = content.length) (hcontent : ShortForm content) (hrest : ShortForm rest) :
      ShortForm (tag :: len :: (content ++ rest))

variable {tag : UInt8} {content rest : List UInt8}

/-- An element with a length below 128 is read back. -/
theorem readElement_short (htag : tag.toNat % 32 ≠ 31) (h : content.length < 128) :
    readElement (tag :: UInt8.ofNat content.length :: (content ++ rest)) = some (tag, content, rest) := by
  have hlen : (UInt8.ofNat content.length).toNat = content.length := by rw [UInt8.toNat_ofNat']; omega
  have hlt : UInt8.ofNat content.length < 128 := by rw [UInt8.lt_iff_toNat_lt, hlen]; exact h
  simp [readElement, htag, readLength, hlt, hlen]

theorem expect_short (htag : tag.toNat % 32 ≠ 31) (h : content.length < 128) :
    expect tag (tag :: UInt8.ofNat content.length :: (content ++ rest)) = some (content, rest) := by
  simp [expect, readElement_short htag h]

theorem optional_short (htag : tag.toNat % 32 ≠ 31) (h : content.length < 128) :
    optional tag (tag :: UInt8.ofNat content.length :: (content ++ rest)) = some (some content, rest) := by
  simp [optional, expect_short htag h]

theorem optional_absent (h : rest.head? ≠ some tag) : optional tag rest = some (none, rest) := by
  simp [optional, h]

theorem ShortForm.primitive_ofNat (htag : tag.toNat / 32 % 2 = 0) (h : content.length < 128) (hrest : ShortForm rest) :
    ShortForm (tag :: UInt8.ofNat content.length :: (content ++ rest)) := by
  have hlen : (UInt8.ofNat content.length).toNat = content.length := by rw [UInt8.toNat_ofNat']; omega
  exact .primitive htag (by rw [UInt8.lt_iff_toNat_lt, hlen]; exact h) hlen hrest

theorem ShortForm.constructed_ofNat (htag : tag.toNat / 32 % 2 = 1) (h : content.length < 128)
    (hcontent : ShortForm content) (hrest : ShortForm rest) :
    ShortForm (tag :: UInt8.ofNat content.length :: (content ++ rest)) := by
  have hlen : (UInt8.ofNat content.length).toNat = content.length := by rw [UInt8.toNat_ofNat']; omega
  exact .constructed htag (by rw [UInt8.lt_iff_toNat_lt, hlen]; exact h) hlen hcontent hrest

end Der
end ProvableAi
