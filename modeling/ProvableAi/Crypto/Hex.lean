/-
# Bytes, UTF-8 and hexadecimal

Byte strings, `str.encode("utf-8")`, `bytes.hex` and `bytes.fromhex`, and what
`int(v, 16)` accepts.

`bytes.fromhex` takes digits of either case and skips ASCII white space between
bytes.  `int(v, 16)` takes more than digits: white space around the number, a
sign, the prefix `0x`, single underscores between digits, and the decimal
digits of every script (CPython's `PyLong_FromString` after
`_PyUnicode_TransformDecimalAndSpaceToASCII`), so it is not a test for a
hexadecimal string.

`fromHex_toHex` undoes the one with the other, `toHex_inj` and `utf8_inj` say
that neither encoding loses anything, and `flatten_inj_of_length` that texts of
one length can be told apart again after they are joined.
-/

import ProvableAi.Json.Text

namespace ProvableAi

/-- A byte string. -/
abbrev Bytes := List UInt8

/-- `s.encode("utf-8")`. -/
def utf8 (s : String) : Bytes := s.toByteArray.data.toList

theorem utf8_ofList (cs : List Char) : utf8 (String.ofList cs) = cs.flatMap String.utf8EncodeChar := by
  rw [utf8, String.toByteArray_ofList, List.utf8Encode, List.data_toByteArray, List.toList_toArray]

/-- Two strings with one encoding are one string. -/
theorem utf8_inj {s t : String} : utf8 s = utf8 t ↔ s = t := by
  constructor
  · intro h
    have hb : s.toByteArray = t.toByteArray := ByteArray.ext (Array.toList_inj.1 h)
    exact String.toByteArray_inj.1 hb
  · rintro rfl; rfl

/-- The two hexadecimal digits of a byte. -/
def hexByte (b : UInt8) : List Char := [hexDigit (b.toNat / 16), hexDigit (b.toNat % 16)]

/-- `bs.hex()`. -/
def toHex (bs : Bytes) : String := String.ofList (bs.flatMap hexByte)

/-- ASCII white space, as C's `isspace` has it. -/
def isAsciiSpace (c : Char) : Bool := c == ' ' || (9 ≤ c.toNat && c.toNat ≤ 13)

/-- The bytes of a text of hexadecimal digit pairs, white space between pairs. -/
def hexPairs : List Char → Option Bytes
  | [] => some []
  | a :: r =>
    if isAsciiSpace a then hexPairs r
    else match r with
      | [] => none
      | b :: r => do
        let x ← hexVal a
        let y ← hexVal b
        let bs ← hexPairs r
        pure (UInt8.ofNat (16 * x + y) :: bs)

/-- `bytes.fromhex(s)`; `none` where it raises `ValueError`. -/
def fromHex (s : String) : Option Bytes := hexPairs s.toList

theorem hexDigit_not_space : ∀ n < 16, isAsciiSpace (hexDigit n) = false := by decide

theorem hexPairs_flatMap (bs : Bytes) : hexPairs (bs.flatMap hexByte) = some bs := by
  induction bs with
  | nil => rfl
  | cons b bs ih =>
    have hb := UInt8.toNat_lt b
    have hv : 16 * (b.toNat / 16) + b.toNat % 16 = b.toNat := by omega
    simp only [List.flatMap_cons, hexByte, List.cons_append, List.nil_append, hexPairs,
      hexDigit_not_space _ (show b.toNat / 16 < 16 by omega), Bool.false_eq_true, if_false,
      hexVal_hexDigit _ (show b.toNat / 16 < 16 by omega),
      hexVal_hexDigit _ (show b.toNat % 16 < 16 by omega), Option.bind_eq_bind, Option.bind_some, ih, hv,
      UInt8.ofNat_toNat, Option.pure_def]

/-- **Decoding undoes encoding.** -/
@[simp] theorem fromHex_toHex (bs : Bytes) : fromHex (toHex bs) = some bs := by
  simp [fromHex, toHex, hexPairs_flatMap]

theorem toHex_inj {a b : Bytes} : toHex a = toHex b ↔ a = b := by
  constructor
  · intro h
    have := fromHex_toHex a
    rw [h, fromHex_toHex] at this
    exact (Option.some.inj this).symm
  · rintro rfl; rfl

@[simp] theorem toHex_length (bs : Bytes) : (toHex bs).length = 2 * bs.length := by
  rw [toHex, String.length_ofList]
  induction bs with
  | nil => rfl
  | cons b bs ih => simp [hexByte, ih]; omega

/-- A lower-case hexadecimal digit. -/
def isLowerHex (c : Char) : Bool := ('0' ≤ c && c ≤ '9') || ('a' ≤ c && c ≤ 'f')

theorem hexDigit_lower : ∀ n < 16, isLowerHex (hexDigit n) = true := by decide

theorem toHex_lower (bs : Bytes) : (toHex bs).toList.all isLowerHex = true := by
  rw [toHex, String.toList_ofList, List.all_eq_true]
  intro c hc
  obtain ⟨b, -, hb⟩ := List.mem_flatMap.1 hc
  have hlt := UInt8.toNat_lt b
  rcases List.mem_cons.1 hb with rfl | hb
  · exact hexDigit_lower _ (by omega)
  · obtain rfl := List.mem_singleton.1 hb
    exact hexDigit_lower _ (by omega)

/-- `s.lower()`, on the ASCII letters. -/
def lower (s : String) : String := String.ofList (s.toList.map Char.toLower)

theorem toLower_lowerHex {c : Char} (h : isLowerHex c = true) : c.toLower = c := by
  have hr : ¬ (c.val ≥ 65 ∧ c.val ≤ 90) := by
    simp only [isLowerHex, Bool.or_eq_true, Bool.and_eq_true, decide_eq_true_eq, Char.le_def] at h
    intro hc
    rcases h with h | h
    · have := UInt32.le_iff_toNat_le.1 h.2
      have := UInt32.le_iff_toNat_le.1 hc.1
      simp at *
      omega
    · have := UInt32.le_iff_toNat_le.1 h.1
      have := UInt32.le_iff_toNat_le.1 hc.2
      simp at *
      omega
  exact dif_neg hr

@[simp] theorem lower_toHex (bs : Bytes) : lower (toHex bs) = toHex bs := by
  have h : (toHex bs).toList.map Char.toLower = (toHex bs).toList := by
    refine (List.map_congr_left fun c hc => ?_).trans (List.map_id _)
    exact toLower_lowerHex (List.all_eq_true.1 (toHex_lower bs) c hc)
  rw [lower, h, String.ofList_toList]

/-! ### What `int(v, 16)` accepts -/

/-- The digit zero of every script whose digits `unicodedata` calls decimal;
each is followed by the nine others. -/
def decimalZeros : List ℕ :=
  [0x0030, 0x0660, 0x06F0, 0x07C0, 0x0966, 0x09E6, 0x0A66, 0x0AE6, 0x0B66, 0x0BE6, 0x0C66, 0x0CE6,
   0x0D66, 0x0DE6, 0x0E50, 0x0ED0, 0x0F20, 0x1040, 0x1090, 0x17E0, 0x1810, 0x1946, 0x19D0, 0x1A80,
   0x1A90, 0x1B50, 0x1BB0, 0x1C40, 0x1C50, 0xA620, 0xA8D0, 0xA900, 0xA9D0, 0xA9F0, 0xAA50, 0xABF0,
   0xFF10, 0x104A0, 0x10D30, 0x11066, 0x110F0, 0x11136, 0x111D0, 0x112F0, 0x11450, 0x114D0, 0x11650,
   0x116C0, 0x11730, 0x118E0, 0x11950, 0x11C50, 0x11D50, 0x11DA0, 0x11F50, 0x16A60, 0x16AC0, 0x16B50,
   0x1D7CE, 0x1D7D8, 0x1D7E2, 0x1D7EC, 0x1D7F6, 0x1E140, 0x1E2F0, 0x1E4F0, 0x1E950, 0x1FBF0]

/-- The digit that a character is in some script. -/
def decimal? (c : Char) : Option ℕ :=
  (decimalZeros.find? fun z => z ≤ c.toNat && c.toNat ≤ z + 9).map fun z => c.toNat - z

/-- `c.isspace()`. -/
def isSpace (c : Char) : Bool :=
  (9 ≤ c.toNat && c.toNat ≤ 13) || (28 ≤ c.toNat && c.toNat ≤ 32) || c.toNat == 0x85 || c.toNat == 0xA0 ||
    c.toNat == 0x1680 || (0x2000 ≤ c.toNat && c.toNat ≤ 0x200A) || c.toNat == 0x2028 ||
    c.toNat == 0x2029 || c.toNat == 0x202F || c.toNat == 0x205F || c.toNat == 0x3000

/-- `_PyUnicode_TransformDecimalAndSpaceToASCII`. -/
def toAscii (c : Char) : Char :=
  if c.toNat < 127 then c else if isSpace c then ' ' else ((decimal? c).map hexDigit).getD '?'

/-- A digit of base 16, of either case. -/
def isHexDigit (c : Char) : Bool := (hexVal c).isSome

/-- Digits with single underscores between them. -/
def hexRun : List Char → Bool
  | [] => false
  | [c] => isHexDigit c
  | c :: '_' :: r => isHexDigit c && hexRun r
  | c :: r => isHexDigit c && hexRun r

/-- The number after an optional sign. -/
def unsignedHex : List Char → List Char
  | '+' :: r => r
  | '-' :: r => r
  | r => r

/-- The digits after an optional `0x`, which one underscore may follow. -/
def unprefixedHex : List Char → List Char
  | '0' :: 'x' :: '_' :: r => r
  | '0' :: 'X' :: '_' :: r => r
  | '0' :: 'x' :: r => r
  | '0' :: 'X' :: r => r
  | r => r

/-- The text without the white space after it. -/
def stripRight (cs : List Char) : List Char := (cs.reverse.dropWhile isAsciiSpace).reverse

/-- `int(v, 16)` does not raise `ValueError`. -/
def intBase16 (v : String) : Bool :=
  hexRun (unprefixedHex (unsignedHex (stripRight ((v.toList.map toAscii).dropWhile isAsciiSpace))))

/-- `not v.strip()`: nothing but white space. -/
def isBlank (v : String) : Bool := v.toList.all isSpace

/-- `v[:n]`. -/
def slice (n : ℕ) (v : String) : String := String.ofList (v.toList.take n)

theorem lowerHex_bounds {c : Char} (h : isLowerHex c = true) :
    (48 ≤ c.toNat ∧ c.toNat ≤ 57) ∨ (97 ≤ c.toNat ∧ c.toNat ≤ 102) := by
  simp only [isLowerHex, Bool.or_eq_true, Bool.and_eq_true, decide_eq_true_eq, Char.le_def,
    UInt32.le_iff_toNat_le] at h
  exact h

theorem lowerHex_ne {c d : Char} (h : isLowerHex c = true) (hd : isLowerHex d = false) : c ≠ d := by
  rintro rfl
  rw [h] at hd
  exact absurd hd (by decide)

theorem lowerHex_isHexDigit {c : Char} (h : isLowerHex c = true) : isHexDigit c = true := by
  simp only [isLowerHex, Bool.or_eq_true, Bool.and_eq_true, decide_eq_true_eq] at h
  unfold isHexDigit hexVal
  split_ifs with h₁ h₂
  · rfl
  · rfl
  · rfl
  · exact absurd (h.resolve_left h₁) h₂

theorem hexRun_lower {cs : List Char} (h : ∀ c ∈ cs, isLowerHex c = true) (hne : cs ≠ []) :
    hexRun cs = true := by
  induction cs with
  | nil => exact absurd rfl hne
  | cons c cs ih =>
    have hc := lowerHex_isHexDigit (h c (by simp))
    cases cs with
    | nil => exact hc
    | cons d cs =>
      have hd : d ≠ '_' := lowerHex_ne (h d (by simp)) (by decide)
      rw [hexRun.eq_4 c (d :: cs) (by simp) (by simp [hd]), hc,
        ih (fun x hx => h x (List.mem_cons_of_mem _ hx)) (by simp)]
      rfl

/-- Lower-case hexadecimal digits pass `int(v, 16)`. -/
theorem intBase16_lower {v : String} (h : v.toList.all isLowerHex = true) (hne : v.toList ≠ []) :
    intBase16 v = true := by
  have hall : ∀ c ∈ v.toList, isLowerHex c = true := List.all_eq_true.1 h
  have hspace : ∀ c ∈ v.toList, isAsciiSpace c = false := by
    intro c hc
    have := lowerHex_bounds (hall c hc)
    have hne : c ≠ ' ' := lowerHex_ne (hall c hc) (by decide)
    simp [isAsciiSpace, hne]
    omega
  have hmap : v.toList.map toAscii = v.toList := by
    refine (List.map_congr_left fun c hc => ?_).trans (List.map_id _)
    have := lowerHex_bounds (hall c hc)
    simp [toAscii]
    omega
  have hdrop : ∀ cs : List Char, (∀ c ∈ cs, isAsciiSpace c = false) → cs.dropWhile isAsciiSpace = cs := by
    intro cs hcs
    cases cs with
    | nil => rfl
    | cons c cs => simp [hcs c (by simp)]
  have hstrip : stripRight v.toList = v.toList := by
    rw [stripRight, hdrop _ (fun c hc => hspace c (List.mem_reverse.1 hc)), List.reverse_reverse]
  obtain ⟨c, cs, hcs⟩ := List.exists_cons_of_ne_nil hne
  rw [hcs] at hall
  have hsign : unsignedHex v.toList = v.toList := by
    rw [hcs, unsignedHex.eq_3 _ (fun r hr => lowerHex_ne (hall c (by simp)) (by decide) (List.cons.inj hr).1)
      (fun r hr => lowerHex_ne (hall c (by simp)) (by decide) (List.cons.inj hr).1)]
  have hpre : unprefixedHex v.toList = v.toList := by
    have hx : ∀ {x : Char} {r : List Char}, isLowerHex x = false → v.toList ≠ '0' :: x :: r := by
      intro x r hx hr
      rw [hcs] at hr
      rw [hr] at hall
      exact lowerHex_ne (hall x (by simp)) hx rfl
    unfold unprefixedHex
    split
    · rename_i heq; exact absurd heq (hx (by decide))
    · rename_i heq; exact absurd heq (hx (by decide))
    · rename_i heq; exact absurd heq (hx (by decide))
    · rename_i heq; exact absurd heq (hx (by decide))
    · rfl
  rw [intBase16, hmap, hdrop _ hspace, hstrip, hsign, hpre, hcs]
  exact hexRun_lower hall (by simp)

theorem intBase16_toHex {bs : Bytes} (h : bs ≠ []) : intBase16 (toHex bs) = true := by
  refine intBase16_lower (toHex_lower bs) fun hn => h ?_
  have hlen := toHex_length bs
  rw [← String.length_toList, hn, List.length_nil] at hlen
  exact List.length_eq_zero_iff.1 (by omega)

/-! Lowering the case of a text that `int(v, 16)` takes. -/

theorem toNat_toLower (c : Char) :
    c.toLower.toNat = if 65 ≤ c.toNat ∧ c.toNat ≤ 90 then c.toNat + 32 else c.toNat := by
  have h : (c.val ≥ 65 ∧ c.val ≤ 90) ↔ (65 ≤ c.toNat ∧ c.toNat ≤ 90) := by
    simp only [ge_iff_le, UInt32.le_iff_toNat_le]
    exact Iff.rfl
  delta Char.toLower
  split
  · rename_i hc
    have hb := h.1 hc
    rw [if_pos hb]
    have hadd : (c.val + 32).toNat = c.toNat + 32 := by
      rw [UInt32.toNat_add, Char.toNat_val]
      exact Nat.mod_eq_of_lt (by have : UInt32.toNat 32 = 32 := rfl; omega)
    exact hadd
  · rename_i hc
    rw [if_neg (fun hb => hc (h.2 hb))]

theorem char_eq_iff {c d : Char} : c = d ↔ c.toNat = d.toNat :=
  ⟨congrArg _, fun h => Char.ext (UInt32.toNat_inj.1 h)⟩

theorem isHexDigit_iff (c : Char) : isHexDigit c = true ↔
    (48 ≤ c.toNat ∧ c.toNat ≤ 57) ∨ (97 ≤ c.toNat ∧ c.toNat ≤ 102) ∨ (65 ≤ c.toNat ∧ c.toNat ≤ 70) := by
  have hle : ∀ a b : Char, a ≤ b ↔ a.toNat ≤ b.toNat := fun a b => UInt32.le_iff_toNat_le
  rw [isHexDigit, hexVal]
  simp only [hle]
  split_ifs with h₁ h₂ h₃ <;> simp at * <;> omega

theorem isHexDigit_toLower (c : Char) : isHexDigit c.toLower = isHexDigit c := by
  rw [Bool.eq_iff_iff, isHexDigit_iff, isHexDigit_iff, toNat_toLower]
  split <;> omega

theorem isAsciiSpace_toLower (c : Char) : isAsciiSpace c.toLower = isAsciiSpace c := by
  rw [Bool.eq_iff_iff]
  simp only [isAsciiSpace, Bool.or_eq_true, beq_iff_eq, Bool.and_eq_true, decide_eq_true_eq,
    char_eq_iff, toNat_toLower]
  have : ' '.toNat = 32 := rfl
  split <;> omega

/-- A character below the letters is the lower case of itself only. -/
theorem toLower_eq_iff {c d : Char} (h : d.toNat < 65 ∨ d.toNat = 95) : c.toLower = d ↔ c = d := by
  rw [char_eq_iff, char_eq_iff, toNat_toLower]
  split <;> omega

theorem decimal?_lt {c : Char} {d : ℕ} (h : decimal? c = some d) : d < 10 := by
  obtain ⟨z, hz, rfl⟩ := Option.map_eq_some_iff.1 h
  have := List.find?_some hz
  simp only [Bool.and_eq_true, decide_eq_true_eq] at this
  omega

theorem hexDigit_toLower : ∀ n < 16, (hexDigit n).toLower = hexDigit n := by decide

theorem toAscii_toLower (c : Char) : toAscii c.toLower = (toAscii c).toLower := by
  have hc := toNat_toLower c
  rw [toAscii, toAscii]
  by_cases h : c.toNat < 127
  · have h' : c.toLower.toNat < 127 := by rw [hc]; split <;> omega
    rw [if_pos h, if_pos h']
  · have h' : c.toLower = c := by
      rw [char_eq_iff, hc, if_neg (by omega)]
    rw [h', if_neg h]
    split
    · rfl
    · cases hd : decimal? c with
      | none => rfl
      | some d => exact (hexDigit_toLower d (by have := decimal?_lt hd; omega)).symm

theorem stripRight_toLower (cs : List Char) :
    stripRight (cs.map Char.toLower) = (stripRight cs).map Char.toLower := by
  have hp : isAsciiSpace ∘ Char.toLower = isAsciiSpace := funext isAsciiSpace_toLower
  rw [stripRight, stripRight, ← List.map_reverse, List.dropWhile_map, hp, List.map_reverse]

theorem unsignedHex_toLower (cs : List Char) :
    unsignedHex (cs.map Char.toLower) = (unsignedHex cs).map Char.toLower := by
  have hplus : ∀ c : Char, c.toLower = '+' ↔ c = '+' := fun c => toLower_eq_iff (by decide)
  have hminus : ∀ c : Char, c.toLower = '-' ↔ c = '-' := fun c => toLower_eq_iff (by decide)
  cases cs with
  | nil => rfl
  | cons c cs =>
    by_cases h₁ : c = '+'
    · subst h₁; rfl
    · by_cases h₂ : c = '-'
      · subst h₂; rfl
      · rw [unsignedHex.eq_3 (c :: cs) (by simp [h₁]) (by simp [h₂]), List.map_cons,
          unsignedHex.eq_3 _ (by simp [hplus, h₁]) (by simp [hminus, h₂])]

theorem toLower_eq_x {c : Char} : c.toLower = 'x' ↔ c = 'x' ∨ c = 'X' := by
  have hx : 'x'.toNat = 120 := rfl
  have hX : 'X'.toNat = 88 := rfl
  rw [char_eq_iff, char_eq_iff, char_eq_iff, toNat_toLower]
  split <;> omega

theorem toLower_ne_X (c : Char) : c.toLower ≠ 'X' := by
  have hX : 'X'.toNat = 88 := rfl
  rw [Ne, char_eq_iff, toNat_toLower]
  split <;> omega

theorem unprefixedHex_toLower (cs : List Char) :
    unprefixedHex (cs.map Char.toLower) = (unprefixedHex cs).map Char.toLower := by
  have h0 : ∀ c : Char, c.toLower = '0' ↔ c = '0' := fun c => toLower_eq_iff (by decide)
  have h_ : ∀ c : Char, c.toLower = '_' ↔ c = '_' := fun c => toLower_eq_iff (by decide)
  have htail : ∀ r : List Char, (∀ s, r = '_' :: s → False) →
      unprefixedHex ('0' :: 'x' :: r.map Char.toLower) = r.map Char.toLower := by
    intro r hr
    refine unprefixedHex.eq_3 _ fun s hs => ?_
    obtain ⟨c, t, rfl, hc, -⟩ := List.map_eq_cons_iff.1 hs
    exact hr t (by rw [(h_ c).1 hc])
  conv_rhs => unfold unprefixedHex
  split
  · rfl
  · rfl
  · rename_i r hr; exact htail r hr
  · rename_i r hr; exact htail r hr
  · rename_i hx_ hX_ hx hX
    have hne : ∀ a r, cs.map Char.toLower = '0' :: a :: r → a ≠ 'x' ∧ a ≠ 'X' := by
      intro a r hcs
      obtain ⟨c, t, rfl, hc, ht⟩ := List.map_eq_cons_iff.1 hcs
      obtain ⟨d, u, rfl, rfl, -⟩ := List.map_eq_cons_iff.1 ht
      obtain rfl := (h0 c).1 hc
      refine ⟨fun h => ?_, toLower_ne_X d⟩
      rcases toLower_eq_x.1 h with rfl | rfl
      · exact hx u rfl
      · exact hX u rfl
    refine unprefixedHex.eq_5 _ ?_ ?_ ?_ ?_
    · exact fun r hr => (hne _ _ hr).1 rfl
    · exact fun r hr => (hne _ _ hr).2 rfl
    · exact fun r hr => (hne _ _ hr).1 rfl
    · exact fun r hr => (hne _ _ hr).2 rfl

theorem hexRun_toLower (cs : List Char) : hexRun (cs.map Char.toLower) = hexRun cs := by
  have h_ : ∀ c : Char, c.toLower = '_' ↔ c = '_' := fun c => toLower_eq_iff (by decide)
  induction cs using hexRun.induct with
  | case1 => rfl
  | case2 c => simp [hexRun, isHexDigit_toLower]
  | case3 c r ih =>
    have hu : Char.toLower '_' = '_' := by decide
    rw [List.map_cons, List.map_cons, hu, hexRun, hexRun, ih, isHexDigit_toLower]
  | case4 c r hn hr ih =>
    rw [List.map_cons, hexRun.eq_4 c r hn hr, hexRun.eq_4, ih, isHexDigit_toLower]
    · simpa using hn
    · intro s hs
      obtain ⟨d, t, rfl, hd, -⟩ := List.map_eq_cons_iff.1 hs
      exact hr t (by rw [(h_ d).1 hd])

/-- Lowering the case changes nothing for `int(v, 16)`. -/
theorem intBase16_lower_eq (v : String) : intBase16 (lower v) = intBase16 v := by
  have hp : isAsciiSpace ∘ Char.toLower = isAsciiSpace := funext isAsciiSpace_toLower
  have hm : (v.toList.map Char.toLower).map toAscii = (v.toList.map toAscii).map Char.toLower := by
    simp [Function.comp_def, toAscii_toLower]
  rw [intBase16, intBase16, lower, String.toList_ofList, hm, List.dropWhile_map, hp, stripRight_toLower,
    unsignedHex_toLower, unprefixedHex_toLower, hexRun_toLower]

theorem lower_lower (v : String) : lower (lower v) = lower v := by
  have hc : ∀ c : Char, c.toLower.toLower = c.toLower := by
    intro c
    rw [char_eq_iff, toNat_toLower, if_neg]
    rw [toNat_toLower]
    split <;> omega
  simp [lower, Function.comp_def, hc]

theorem lower_length (v : String) : (lower v).length = v.length := by
  rw [← String.length_toList, ← String.length_toList]
  simp [lower]

/-- Two characters at most for a byte, and no white space where it is two. -/
theorem hexPairs_digits {cs : List Char} : ∀ {bs : Bytes}, hexPairs cs = some bs →
    2 * bs.length ≤ cs.length ∧ (2 * bs.length = cs.length → ∀ c ∈ cs, isHexDigit c = true) := by
  fun_induction hexPairs cs with
  | case1 => intro bs h; obtain rfl := Option.some.inj h; simp
  | case2 a r ha ih =>
    intro bs h
    have := (ih h).1
    refine ⟨?_, fun hlen => ?_⟩
    · rw [List.length_cons]; omega
    · rw [List.length_cons] at hlen; omega
  | case3 a ha => intro bs h; cases h
  | case4 a ha b r ih =>
    intro bs h
    simp only [Option.bind_eq_bind, Option.bind_eq_some_iff] at h
    obtain ⟨x, hx, y, hy, cs, hcs, h⟩ := h
    obtain rfl := Option.some.inj h
    obtain ⟨hle, hall⟩ := ih hcs
    simp only [List.length_cons, List.forall_mem_cons]
    refine ⟨by omega, fun hlen => ⟨by rw [isHexDigit, hx]; rfl, by rw [isHexDigit, hy]; rfl, hall (by omega)⟩⟩

theorem fromHex_digits {s : String} {bs : Bytes} (h : fromHex s = some bs) (hlen : s.length = 2 * bs.length) :
    s.toList.all isHexDigit = true := by
  rw [List.all_eq_true]
  exact (hexPairs_digits h).2 (by rw [String.length_toList]; exact hlen.symm)

theorem all_isHexDigit_lower (s : String) : (lower s).toList.all isHexDigit = s.toList.all isHexDigit := by
  rw [lower, String.toList_ofList, List.all_map]
  exact congrArg (List.all s.toList) (funext isHexDigit_toLower)

/-- What `int(v, 16)` takes beyond hexadecimal digits. -/
example : intBase16 " -0x_1_f " = true ∧ intBase16 "AB" = true ∧ intBase16 "٣" = true ∧
    intBase16 "٣x1" = false ∧ intBase16 "1__f" = false ∧ intBase16 "0x" = false ∧ intBase16 "" = false := by decide

/-! ### Joining texts of one length -/

/-- Texts of one positive length are determined by their concatenation. -/
theorem flatten_inj_of_length {α : Type*} {n : ℕ} (hn : 0 < n) :
    ∀ {xs ys : List (List α)}, (∀ x ∈ xs, x.length = n) → (∀ y ∈ ys, y.length = n) →
      xs.flatten = ys.flatten → xs = ys
  | [], [], _, _, _ => rfl
  | [], y :: ys, _, hy, h => by
    have hy := hy y (by simp)
    have hl := congrArg List.length h
    simp only [List.flatten_nil, List.length_nil, List.flatten_cons, List.length_append] at hl
    omega
  | x :: xs, [], hx, _, h => by
    have hx := hx x (by simp)
    have hl := congrArg List.length h
    simp only [List.flatten_nil, List.length_nil, List.flatten_cons, List.length_append] at hl
    omega
  | x :: xs, y :: ys, hx, hy, h => by
    have hlen : x.length = y.length := (hx x (by simp)).trans (hy y (by simp)).symm
    obtain ⟨rfl, ht⟩ := List.append_inj (by simpa using h) hlen
    rw [flatten_inj_of_length hn (fun z hz => hx z (List.mem_cons_of_mem _ hz))
      (fun z hz => hy z (List.mem_cons_of_mem _ hz)) ht]

end ProvableAi
