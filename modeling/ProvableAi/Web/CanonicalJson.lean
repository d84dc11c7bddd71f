/-
# Canonical JSON in TypeScript

`canonicalJson` of `web/verifier.ts`, next to `canonical_encode`.  Both sort the
members of every object and write no white space.  A text goes through
`JSON.stringify`, which escapes what `json.dumps` escapes, and then through a
replacement that puts for every `\uXXXX` the code unit it names: a control
character that Python leaves escaped is unescaped, and so is a text that only
looks like an escape (`\` and `u0041` in the text itself).  Keys are compared by
code units.

Texts of JavaScript are lists of UTF-16 code units; `TextEncoder` writes the
replacement character for a surrogate without its partner.

The bytes of the two languages are the same exactly for the values without such
texts in whose objects code units and code points sort the keys alike
(`canonicalJson_agrees_iff`).  One direction is a count of bytes: a replacement
puts at most three bytes for six, while the order of keys changes no length.
-/

import ProvableAi.Audit.Body
import ProvableAi.Canonical.Equality
import ProvableAi.Package.Browser
import Mathlib.Data.List.Pairwise

namespace ProvableAi

/-! ### Payloads for both languages -/

/-- A control character that has no letter among the escapes of JSON. -/
def isBareControl (c : Char) : Bool :=
  c.toNat < 32 && !(c = '\n' || c = '\r' || c = '\t' || c = Char.ofNat 12 || c = Char.ofNat 8)

/-- `u` and four hexadecimal digits. -/
def looksEscaped : List Char → Bool
  | 'u' :: a :: b :: c :: d :: _ => isHexDigit a && isHexDigit b && isHexDigit c && isHexDigit d
  | _ => false

/-- A text without bare control characters in which no `\` stands before `u` and
four hexadecimal digits. -/
def plainChars : List Char → Bool
  | [] => true
  | c :: cs => !isBareControl c && !(c = '\\' && looksEscaped cs) && plainChars cs

namespace Json

mutual
/-- No float, and no integer beyond `2^53 - 1`. -/
def safe : Json → Bool
  | .float _ => false
  | .int n => decide (n.natAbs ≤ 9007199254740991)
  | .arr xs => safeItems xs
  | .obj kvs => safeMembers kvs
  | _ => true

/-- `safe` of every item. -/
def safeItems : List Json → Bool
  | [] => true
  | x :: xs => x.safe && safeItems xs

/-- `safe` of every member's value. -/
def safeMembers : List (String × Json) → Bool
  | [] => true
  | (_, x) :: kvs => x.safe && safeMembers kvs
end

mutual
/-- Every text and every key is plain. -/
def plain : Json → Bool
  | .str s => plainChars s.toList
  | .arr xs => plainItems xs
  | .obj kvs => plainMembers kvs
  | _ => true

/-- `plain` of every item. -/
def plainItems : List Json → Bool
  | [] => true
  | x :: xs => x.plain && plainItems xs

/-- `plain` of every key and value. -/
def plainMembers : List (String × Json) → Bool
  | [] => true
  | (k, x) :: kvs => plainChars k.toList && x.plain && plainMembers kvs
end

/-- Code units and code points sort these keys alike. -/
def keysAlike (ks : List String) : Bool :=
  ks.all fun k => ks.all fun l => decide (Browser.utf16 k ≤ Browser.utf16 l) == decide (k ≤ l)

mutual
/-- The keys of every object sort alike. -/
def sortsAlike : Json → Bool
  | .arr xs => sortsAlikeItems xs
  | .obj kvs => keysAlike (kvs.map Prod.fst) && sortsAlikeMembers kvs
  | _ => true

/-- `sortsAlike` of every item. -/
def sortsAlikeItems : List Json → Bool
  | [] => true
  | x :: xs => x.sortsAlike && sortsAlikeItems xs

/-- `sortsAlike` of every member's value. -/
def sortsAlikeMembers : List (String × Json) → Bool
  | [] => true
  | (_, x) :: kvs => x.sortsAlike && sortsAlikeMembers kvs
end

theorem safe_arr (xs : List Json) : (arr xs).safe = true ↔ ∀ x ∈ xs, x.safe = true := by
  rw [safe]
  induction xs with
  | nil => simp [safeItems]
  | cons x xs ih => simp [safeItems, ih]

theorem safe_obj (kvs : List (String × Json)) : (obj kvs).safe = true ↔ ∀ kv ∈ kvs, kv.2.safe = true := by
  rw [safe]
  induction kvs with
  | nil => simp [safeMembers]
  | cons kv kvs ih => obtain ⟨k, x⟩ := kv; simp [safeMembers, ih]

theorem plain_arr (xs : List Json) : (arr xs).plain = true ↔ ∀ x ∈ xs, x.plain = true := by
  rw [plain]
  induction xs with
  | nil => simp [plainItems]
  | cons x xs ih => simp [plainItems, ih]

theorem plain_obj (kvs : List (String × Json)) :
    (obj kvs).plain = true ↔ ∀ kv ∈ kvs, plainChars kv.1.toList = true ∧ kv.2.plain = true := by
  rw [plain]
  induction kvs with
  | nil => simp [plainMembers]
  | cons kv kvs ih => obtain ⟨k, x⟩ := kv; simp [plainMembers, ih]

theorem sortsAlike_arr (xs : List Json) : (arr xs).sortsAlike = true ↔ ∀ x ∈ xs, x.sortsAlike = true := by
  rw [sortsAlike]
  induction xs with
  | nil => simp [sortsAlikeItems]
  | cons x xs ih => simp [sortsAlikeItems, ih]

theorem sortsAlike_obj (kvs : List (String × Json)) : (obj kvs).sortsAlike = true ↔
    keysAlike (kvs.map Prod.fst) = true ∧ ∀ kv ∈ kvs, kv.2.sortsAlike = true := by
  have hmembers : ∀ lvs : List (String × Json),
      sortsAlikeMembers lvs = true ↔ ∀ kv ∈ lvs, kv.2.sortsAlike = true := by
    intro lvs
    induction lvs with
    | nil => simp [sortsAlikeMembers]
    | cons kv lvs ih => obtain ⟨k, x⟩ := kv; simp [sortsAlikeMembers, ih]
  rw [sortsAlike, Bool.and_eq_true, hmembers]

end Json

namespace Web

/-! ### Numbers -/

/-- A number of JavaScript, as far as `canonicalJson` tells it apart. -/
inductive Number where
  | infinite
  | fraction
  | integer (n : ℤ)
  deriving DecidableEq

/-- The significand and the exponent of the double nearest to `a / b`. -/
def nearest (a b : ℕ) : ℕ × ℤ :=
  let guess : ℤ := (Nat.log2 a : ℤ) - Nat.log2 b
  -- `2 ^ exponent ≤ a / b < 2 ^ (exponent + 1)`
  let exponent := if b * 2 ^ guess.toNat ≤ a * 2 ^ (-guess).toNat then guess else guess - 1
  let q := if exponent - 52 < -1074 then -1074 else exponent - 52
  (Body.roundHalfEven (a * 2 ^ (-q).toNat) (b * 2 ^ q.toNat), q)

/-- The double nearest to `a / b`, with a sign. -/
def number (negative : Bool) (a b : ℕ) : Number :=
  let (m, q) := nearest a b
  if 2 ^ 1024 ≤ m * 2 ^ q.toNat then .infinite
  else if m % 2 ^ (-q).toNat ≠ 0 then .fraction
  else .integer (if negative then -(m * 2 ^ q.toNat / 2 ^ (-q).toNat : ℕ) else (m * 2 ^ q.toNat / 2 ^ (-q).toNat : ℕ))

/-- What `JSON.parse` reads for an integer. -/
def parseInt (n : ℤ) : Number := number (decide (n < 0)) n.natAbs 1

/-- What `JSON.parse` reads for a number with a fraction or an exponent. -/
def parseFloat (x : FloatLit) : Number :=
  let (n, e) := x.scaled
  number (x.text.head? = some '-') (n * 10 ^ e.toNat) (10 ^ (-e).toNat)

/-- The fewest digits that are read back as the integer `v`, filled up with zeros. -/
def shortest (v : ℕ) : ℕ :=
  let size := (Nat.toDigits 10 v).length
  let candidate (p s : ℕ) : Option ℕ := if number false (s * p) 1 = .integer v then some (s * p) else none
  let digits (k : ℕ) : Option ℕ :=
    let p := 10 ^ (size - (k + 1))
    -- the nearer one first, of two the even one
    if 2 * (v % p) < p ∨ (2 * (v % p) = p ∧ v / p % 2 = 0) then candidate p (v / p) <|> candidate p (v / p + 1)
    else candidate p (v / p + 1) <|> candidate p (v / p)
  ((List.range size).findSome? digits).getD v

/-- A number of at least 22 digits, in the notation with an exponent. -/
def exponential (v : ℕ) : List Char :=
  let digits := Nat.toDigits 10 (shortest v)
  let exponent := Nat.toDigits 10 (digits.length - 1)
  match (digits.reverse.dropWhile (· = '0')).reverse with
  | [] => []
  | [d] => d :: 'e' :: '+' :: exponent
  | d :: ds => d :: '.' :: (ds ++ 'e' :: '+' :: exponent)

/-- `String(n)` of an integer. -/
def integerText (n : ℤ) : List Char :=
  if n.natAbs < 10 ^ 21 then renderInt n
  else if n < 0 then '-' :: exponential n.natAbs
  else exponential n.natAbs

/-! ### Texts -/

/-- The code units of a character. -/
def unitsOf (c : Char) : List ℕ :=
  if c.toNat < 65536 then [c.toNat]
  else [55296 + (c.toNat - 65536) / 1024, 56320 + (c.toNat - 65536) % 1024]

/-- The code units of a text. -/
def units (cs : List Char) : List ℕ := cs.flatMap unitsOf

/-- The value of a hexadecimal digit. -/
def hexUnit (u : ℕ) : Option ℕ :=
  if 48 ≤ u ∧ u ≤ 57 then some (u - 48)
  else if 65 ≤ u ∧ u ≤ 70 then some (u - 55)
  else if 97 ≤ u ∧ u ≤ 102 then some (u - 87)
  else none

/-- The code unit named by a match of `\\u([0-9a-fA-F]{4})` at the beginning. -/
def escapeAt : List ℕ → Option ℕ
  | 92 :: 117 :: a :: b :: c :: d :: _ => do
    let a ← hexUnit a
    let b ← hexUnit b
    let c ← hexUnit c
    let d ← hexUnit d
    pure (((a * 16 + b) * 16 + c) * 16 + d)
  | _ => none

/-- `replace` of every match from the left, after the rest of one that has begun. -/
def unescapeFrom : ℕ → List ℕ → List ℕ
  | _, [] => []
  | k + 1, _ :: us => unescapeFrom k us
  | 0, u :: us =>
    match escapeAt (u :: us) with
    | some v => v :: unescapeFrom 5 us
    | none => u :: unescapeFrom 0 us

/-- `s.replace(/\\u([0-9a-fA-F]{4})/g, (_, hex) => String.fromCodePoint(parseInt(hex, 16)))`. -/
def unescape (us : List ℕ) : List ℕ := unescapeFrom 0 us

/-- `canonicalJson` of a text: `JSON.stringify` escapes what Python escapes. -/
def canonicalText (s : String) : List ℕ := unescape (units (renderStr s))

/-- `canonicalJson` of a number, if it does not throw. -/
def canonicalNumber : Number → Option (List ℕ)
  | .integer n => some (units (integerText n))
  | .infinite | .fraction => none

mutual
/-- `canonicalJson`; `none` where it throws. -/
def canonicalJson : Json → Option (List ℕ)
  | .null => some (units ['n', 'u', 'l', 'l'])
  | .bool true => some (units ['t', 'r', 'u', 'e'])
  | .bool false => some (units ['f', 'a', 'l', 's', 'e'])
  | .int n => canonicalNumber (parseInt n)
  | .float x => canonicalNumber (parseFloat x)
  | .str s => some (canonicalText s)
  | .arr xs => (canonicalItems xs).map fun ts => units ['['] ++ (units [',']).intercalate ts ++ units [']']
  | .obj kvs => (canonicalMembers kvs).map fun kts =>
    units ['{'] ++
      (units [',']).intercalate ((Browser.sortKeys kts).map fun kt => canonicalText kt.1 ++ units [':'] ++ kt.2) ++
      units ['}']

/-- `canonicalJson` of every item. -/
def canonicalItems : List Json → Option (List (List ℕ))
  | [] => some []
  | x :: xs => do
    let t ← canonicalJson x
    let ts ← canonicalItems xs
    pure (t :: ts)

/-- `canonicalJson` of every member's value. -/
def canonicalMembers : List (String × Json) → Option (List (String × List ℕ))
  | [] => some []
  | (k, x) :: kvs => do
    let t ← canonicalJson x
    let ts ← canonicalMembers kvs
    pure ((k, t) :: ts)
end

/-- The character a code point stands for; a surrogate is replaced. -/
def scalar (n : ℕ) : Char := if n.isValidChar then Char.ofNat n else Char.ofNat 65533

/-- A code unit that opens a pair. -/
def isHigh (u : ℕ) : Bool := 55296 ≤ u && u < 56320

/-- A code unit that closes a pair. -/
def isLow (u : ℕ) : Bool := 56320 ≤ u && u < 57344

/-- `new TextEncoder().encode(s)`. -/
def textEncode : List ℕ → Bytes
  | [] => []
  | [u] => String.utf8EncodeChar (scalar u)
  | u :: v :: us =>
    if isHigh u && isLow v then
      String.utf8EncodeChar (scalar (65536 + (u - 55296) * 1024 + (v - 56320))) ++ textEncode us
    else String.utf8EncodeChar (scalar u) ++ textEncode (v :: us)

/-! ### Encoding -/

theorem units_append (xs ys : List Char) : units (xs ++ ys) = units xs ++ units ys := List.flatMap_append

theorem scalar_toNat (c : Char) : scalar c.toNat = c := by
  rw [scalar, if_pos (show c.toNat.isValidChar from c.valid), Char.ofNat_toNat]

theorem isHigh_toNat (c : Char) : isHigh c.toNat = false := by
  have h := c.valid
  have hv : c.toNat = c.val.toNat := rfl
  simp only [isHigh, Bool.and_eq_false_iff, decide_eq_false_iff_not, UInt32.isValidChar, Nat.isValidChar] at h ⊢
  omega

/-- A unit that opens no pair is encoded by itself. -/
theorem textEncode_cons {u : ℕ} (h : isHigh u = false) (us : List ℕ) :
    textEncode (u :: us) = String.utf8EncodeChar (scalar u) ++ textEncode us := by
  cases us with
  | nil => simp [textEncode]
  | cons v us => simp [textEncode, h]

/-- A unit that opens a pair is encoded by itself if no partner follows. -/
theorem textEncode_lone {u : ℕ} {us : List ℕ} (h : ∀ v ∈ us.head?, isLow v = false) :
    textEncode (u :: us) = String.utf8EncodeChar (scalar u) ++ textEncode us := by
  cases us with
  | nil => simp [textEncode]
  | cons v us => simp [textEncode, h v rfl]

/-- The encoder reads the units of a character back. -/
theorem textEncode_unitsOf (c : Char) (us : List ℕ) :
    textEncode (unitsOf c ++ us) = String.utf8EncodeChar c ++ textEncode us := by
  unfold unitsOf
  split
  · rw [List.singleton_append, textEncode_cons (isHigh_toNat c), scalar_toNat]
  · have hc := c.valid
    have hv : c.toNat = c.val.toNat := rfl
    simp only [UInt32.isValidChar, Nat.isValidChar] at hc
    have hpair : (isHigh (55296 + (c.toNat - 65536) / 1024) && isLow (56320 + (c.toNat - 65536) % 1024)) = true := by
      simp only [isHigh, isLow, Bool.and_eq_true, decide_eq_true_eq]
      omega
    have hsum : 65536 + (55296 + (c.toNat - 65536) / 1024 - 55296) * 1024 +
        (56320 + (c.toNat - 65536) % 1024 - 56320) = c.toNat := by omega
    rw [List.cons_append, List.cons_append, List.nil_append, textEncode, if_pos hpair, hsum, scalar_toNat]

/-- **`TextEncoder` and `str.encode` agree** on a text of characters. -/
theorem textEncode_units (cs : List Char) : textEncode (units cs) = utf8 (String.ofList cs) := by
  rw [utf8_ofList]
  induction cs with
  | nil => rfl
  | cons c cs ih =>
    rw [units, List.flatMap_cons, textEncode_unitsOf, List.flatMap_cons]
    exact congrArg _ ih

/-! ### Replacements and lengths -/

theorem toNat_scalar {u : ℕ} (h : u.isValidChar) : (scalar u).toNat = u := by
  rw [scalar, if_pos h, Char.ofNat, dif_pos h]
  rfl

theorem utf8_replacement : (String.utf8EncodeChar (Char.ofNat 65533)).length = 3 := rfl

/-- A code unit takes at most three bytes. -/
theorem utf8_scalar_le {u : ℕ} (h : u < 65536) : (String.utf8EncodeChar (scalar u)).length ≤ 3 := by
  by_cases hu : u.isValidChar
  · have hv : (scalar u).val.toNat = u := toNat_scalar hu
    have hle : (scalar u).val ≤ 0xFFFF := UInt32.le_iff_toNat_le.2 (by rw [hv]; exact Nat.le_of_lt_succ h)
    rw [String.length_utf8EncodeChar, Char.utf8Size]
    split_ifs <;> first | omega | exact absurd hle ‹_›
  · rw [scalar, if_neg hu, utf8_replacement]

/-- A surrogate without its partner takes three. -/
theorem utf8_surrogate {u : ℕ} (h : (isHigh u || isLow u) = true) :
    (String.utf8EncodeChar (scalar u)).length = 3 := by
  rw [scalar, if_neg, utf8_replacement]
  simp only [isHigh, isLow, Bool.or_eq_true, Bool.and_eq_true, decide_eq_true_eq] at h
  unfold Nat.isValidChar
  omega

theorem isHigh_of_isLow {u : ℕ} (h : isLow u = true) : isHigh u = false := by
  simp only [isHigh, isLow, Bool.and_eq_true, decide_eq_true_eq, Bool.and_eq_false_iff,
    decide_eq_false_iff_not] at h ⊢
  omega

/-- A code unit adds at most three bytes, also where it completes a pair. -/
theorem textEncode_cons_le {u : ℕ} (h : u < 65536) (us : List ℕ) :
    (textEncode (u :: us)).length ≤ 3 + (textEncode us).length := by
  have hu := utf8_scalar_le h
  cases us with
  | nil => simpa [textEncode] using hu
  | cons v us =>
    rw [textEncode]
    split
    · rename_i hpair
      have hlow : isLow v = true := (Bool.and_eq_true_iff.1 hpair).2
      have hfour := Char.utf8Size_le_four (scalar (65536 + (u - 55296) * 1024 + (v - 56320)))
      rw [textEncode_cons (isHigh_of_isLow hlow), List.length_append, List.length_append, utf8_surrogate (u := v) (by simp [hlow]),
        String.length_utf8EncodeChar]
      omega
    · rw [List.length_append]
      omega

theorem hexUnit_lt {u a : ℕ} (h : hexUnit u = some a) : a < 16 := by
  unfold hexUnit at h
  split_ifs at h <;> cases h <;> omega

/-- An escape is six units, and names one. -/
theorem escapeAt_eq_some {us : List ℕ} {v : ℕ} (h : escapeAt us = some v) :
    v < 65536 ∧ ∃ a b c d r, us = 92 :: 117 :: a :: b :: c :: d :: r ∧
      (hexUnit a).isSome = true ∧ (hexUnit b).isSome = true ∧ (hexUnit c).isSome = true ∧ (hexUnit d).isSome = true := by
  unfold escapeAt at h
  split at h
  · rename_i a b c d r
    simp only [Option.bind_eq_bind, Option.bind_eq_some_iff, Option.pure_def, Option.some.injEq] at h
    obtain ⟨x, hx, y, hy, z, hz, w, hw, rfl⟩ := h
    have := hexUnit_lt hx
    have := hexUnit_lt hy
    have := hexUnit_lt hz
    have := hexUnit_lt hw
    exact ⟨by omega, a, b, c, d, r, rfl, by simp [hx], by simp [hy], by simp [hz], by simp [hw]⟩
  · cases h

theorem unescapeFrom_eq (k : ℕ) (us : List ℕ) : unescapeFrom k us = unescape (us.drop k) := by
  induction us generalizing k with
  | nil => cases k <;> simp [unescapeFrom, unescape]
  | cons u us ih =>
    cases k with
    | zero => rfl
    | succ k => rw [unescapeFrom, ih, List.drop_succ_cons]

@[simp] theorem unescape_nil : unescape [] = [] := rfl

theorem unescape_cons_none {u : ℕ} {us : List ℕ} (h : escapeAt (u :: us) = none) :
    unescape (u :: us) = u :: unescape us := by
  rw [unescape, unescapeFrom, h]
  rfl

theorem unescape_cons_some {u v : ℕ} {us : List ℕ} (h : escapeAt (u :: us) = some v) :
    unescape (u :: us) = v :: unescape (us.drop 5) := by
  rw [unescape, unescapeFrom, h]
  exact congrArg _ (unescapeFrom_eq 5 us)

/-- Only a backslash begins an escape. -/
theorem escapeAt_cons_ne {u : ℕ} (h : u ≠ 92) (us : List ℕ) : escapeAt (u :: us) = none := by
  unfold escapeAt
  split
  · rename_i heq
    exact absurd (List.cons.inj heq).1 h
  · rfl

/-- An escape is ASCII: it takes six bytes. -/
theorem textEncode_escape {us : List ℕ} {v : ℕ} (h : escapeAt us = some v) :
    (textEncode us).length = 6 + (textEncode (us.drop 6)).length := by
  obtain ⟨-, a, b, c, d, r, rfl, ha, hb, hc, hd⟩ := escapeAt_eq_some h
  have hone : ∀ {x : ℕ} (us : List ℕ), x < 128 → (textEncode (x :: us)).length = 1 + (textEncode us).length := by
    intro x us hx
    have hhigh : isHigh x = false := by
      simp only [isHigh, Bool.and_eq_false_iff, decide_eq_false_iff_not]
      omega
    have hv : (scalar x).val.toNat = x := toNat_scalar (by unfold Nat.isValidChar; omega)
    have hle : (scalar x).val ≤ 0x7F := UInt32.le_iff_toNat_le.2 (by rw [hv]; exact Nat.le_of_lt_succ hx)
    rw [textEncode_cons hhigh, List.length_append, String.length_utf8EncodeChar, Char.utf8Size_eq_one_iff.2 hle]
  have hdigit : ∀ {x : ℕ}, (hexUnit x).isSome = true → x < 128 := by
    intro x hx
    unfold hexUnit at hx
    split_ifs at hx <;> first | omega | cases hx
  rw [hone _ (by omega), hone _ (by omega), hone _ (hdigit ha), hone _ (hdigit hb), hone _ (hdigit hc),
    hone _ (hdigit hd)]
  simp only [List.drop_succ_cons, List.drop_zero]
  omega

/-- **A replacement loses bytes.** -/
theorem unescape_eq_or_lt (us : List ℕ) :
    unescape us = us ∨ (textEncode (unescape us)).length < (textEncode us).length := by
  induction h : us.length using Nat.strong_induction_on generalizing us with
  | _ n ih =>
    subst h
    cases us with
    | nil => exact .inl rfl
    | cons u us =>
      have hle : ∀ ws : List ℕ, ws.length < (u :: us).length →
          (textEncode (unescape ws)).length ≤ (textEncode ws).length := by
        intro ws hws
        rcases ih _ hws ws rfl with h | h
        · rw [h]
        · exact h.le
      cases hesc : escapeAt (u :: us) with
      | some v =>
        have hv := textEncode_cons_le (escapeAt_eq_some hesc).1 (unescape (us.drop 5))
        have hrest := hle (us.drop 5) (by simp only [List.length_drop, List.length_cons]; omega)
        have hsix := textEncode_escape hesc
        rw [List.drop_succ_cons] at hsix
        rw [unescape_cons_some hesc]
        exact .inr (by omega)
      | none =>
        rw [unescape_cons_none hesc]
        by_cases hpair : ∃ v vs, us = v :: vs ∧ isHigh u = true ∧ isLow v = true
        · -- a pair stays a pair
          obtain ⟨v, vs, rfl, hhigh, hlow⟩ := hpair
          have hv : v ≠ 92 := by
            rintro rfl
            cases hlow
          rw [unescape_cons_none (escapeAt_cons_ne hv vs)]
          rcases ih vs.length (by simp only [List.length_cons]; omega) vs rfl with h | h
          · exact .inl (by rw [h])
          · refine .inr ?_
            rw [textEncode, textEncode, if_pos (by simp [hhigh, hlow]), if_pos (by simp [hhigh, hlow]),
              List.length_append, List.length_append]
            omega
        · have hstep : textEncode (u :: us) = String.utf8EncodeChar (scalar u) ++ textEncode us := by
            cases hhigh : isHigh u with
            | false => exact textEncode_cons hhigh us
            | true =>
              refine textEncode_lone fun v hv => ?_
              cases us with
              | nil => cases hv
              | cons w vs =>
                obtain rfl : w = v := Option.some.inj hv
                by_contra hlow
                exact hpair ⟨w, vs, rfl, hhigh, by simpa using hlow⟩
          rcases ih us.length (by simp) us rfl with h | h
          · exact .inl (by rw [h])
          · refine .inr ?_
            rw [hstep, List.length_append]
            cases hhigh : isHigh u with
            | false =>
              rw [textEncode_cons hhigh, List.length_append]
              omega
            | true =>
              have hlt : u < 65536 := by
                simp only [isHigh, Bool.and_eq_true, decide_eq_true_eq] at hhigh
                omega
              have hthree := utf8_surrogate (u := u) (by simp [hhigh])
              have hcons := textEncode_cons_le hlt (unescape us)
              omega

/-! ### Replacements in a whole document -/

theorem unescape_length_le (us : List ℕ) : (unescape us).length ≤ us.length := by
  induction h : us.length using Nat.strong_induction_on generalizing us with
  | _ n ih =>
    subst h
    cases us with
    | nil => simp
    | cons u us =>
      cases hesc : escapeAt (u :: us) with
      | some v =>
        have hrest := ih (us.drop 5).length (by simp only [List.length_drop, List.length_cons]; omega) _ rfl
        rw [unescape_cons_some hesc]
        simp only [List.length_cons, List.length_drop] at hrest ⊢
        omega
      | none =>
        have hrest := ih us.length (by simp) us rfl
        rw [unescape_cons_none hesc]
        simpa using hrest

theorem escapeAt_append {us : List ℕ} {v : ℕ} (h : escapeAt us = some v) (vs : List ℕ) :
    escapeAt (us ++ vs) = some v := by
  obtain ⟨-, a, b, c, d, r, rfl, -⟩ := escapeAt_eq_some h
  exact h

/-- No escape goes on beyond a quotation mark. -/
theorem escapeAt_of_append_quote {us vs : List ℕ} {v : ℕ} (h : escapeAt (us ++ 34 :: vs) = some v) :
    escapeAt us = some v := by
  obtain ⟨-, a, b, c, d, r, heq, ha, hb, hc, hd⟩ := escapeAt_eq_some h
  have hquote : hexUnit 34 = none := by decide
  rcases us with _ | ⟨x₁, _ | ⟨x₂, _ | ⟨x₃, _ | ⟨x₄, _ | ⟨x₅, _ | ⟨x₆, us⟩⟩⟩⟩⟩⟩
  · simp at heq
  · simp at heq
  · obtain ⟨-, -, rfl, -⟩ : x₁ = 92 ∧ x₂ = 117 ∧ 34 = a ∧ vs = b :: c :: d :: r := by simpa using heq
    rw [hquote] at ha
    cases ha
  · obtain ⟨-, -, -, rfl, -⟩ : x₁ = 92 ∧ x₂ = 117 ∧ x₃ = a ∧ 34 = b ∧ vs = c :: d :: r := by simpa using heq
    rw [hquote] at hb
    cases hb
  · obtain ⟨-, -, -, -, rfl, -⟩ : x₁ = 92 ∧ x₂ = 117 ∧ x₃ = a ∧ x₄ = b ∧ 34 = c ∧ vs = d :: r := by
      simpa using heq
    rw [hquote] at hc
    cases hc
  · obtain ⟨-, -, -, -, -, rfl, -⟩ : x₁ = 92 ∧ x₂ = 117 ∧ x₃ = a ∧ x₄ = b ∧ x₅ = c ∧ 34 = d ∧ vs = r := by
      simpa using heq
    rw [hquote] at hd
    cases hd
  · obtain ⟨rfl, rfl, -⟩ : x₁ = 92 ∧ x₂ = 117 ∧ _ := by simpa using heq
    exact h

/-- The texts at whose end no escape is under way. -/
def Closed (us : List ℕ) : Prop := ∀ vs, unescape (us ++ vs) = unescape us ++ unescape vs

theorem Closed.append {us vs : List ℕ} (hu : Closed us) (hv : Closed vs) : Closed (us ++ vs) := by
  intro ws
  rw [List.append_assoc, hu, hv, hu, List.append_assoc]

theorem Closed.nil : Closed [] := fun _ => rfl

/-- A text without a backslash. -/
theorem unescape_append_of_notMem {us : List ℕ} (h : 92 ∉ us) (vs : List ℕ) : unescape (us ++ vs) = us ++ unescape vs := by
  induction us with
  | nil => rfl
  | cons u us ih =>
    rw [List.mem_cons, not_or] at h
    rw [List.cons_append, unescape_cons_none (escapeAt_cons_ne (Ne.symm h.1) _), ih h.2, List.cons_append]

theorem unescape_of_notMem {us : List ℕ} (h : 92 ∉ us) : unescape us = us := by
  simpa using unescape_append_of_notMem h []

theorem Closed.of_notMem {us : List ℕ} (h : 92 ∉ us) : Closed us := by
  intro vs
  rw [unescape_append_of_notMem h, unescape_of_notMem h]

/-- A text that ends with a quotation mark. -/
theorem unescape_append_quote (us vs : List ℕ) : unescape (us ++ 34 :: vs) = unescape us ++ 34 :: unescape vs := by
  induction h : us.length using Nat.strong_induction_on generalizing us with
  | _ n ih =>
    subst h
    cases us with
    | nil => exact unescape_cons_none (escapeAt_cons_ne (by decide) vs)
    | cons u us =>
      cases hesc : escapeAt (u :: us) with
      | some v =>
        obtain ⟨-, a, b, c, d, r, heq, -⟩ := escapeAt_eq_some hesc
        obtain rfl : us = 117 :: a :: b :: c :: d :: r := (List.cons.inj heq).2
        have happ : escapeAt (u :: (117 :: a :: b :: c :: d :: r ++ 34 :: vs)) = some v := escapeAt_append hesc _
        rw [List.cons_append, unescape_cons_some happ, unescape_cons_some hesc]
        exact congrArg (v :: ·) (ih r.length (by simp; omega) r rfl)
      | none =>
        have hnone : escapeAt (u :: (us ++ 34 :: vs)) = none := by
          by_contra hne
          obtain ⟨v, hv⟩ := Option.ne_none_iff_exists'.1 hne
          rw [escapeAt_of_append_quote hv] at hesc
          cases hesc
        rw [List.cons_append, unescape_cons_none hnone, unescape_cons_none hesc, ih us.length (by simp) us rfl,
          List.cons_append]

theorem Closed.quoted (us : List ℕ) : Closed (us ++ [34]) := by
  intro vs
  rw [List.append_assoc, List.singleton_append, unescape_append_quote, unescape_append_quote]
  simp

/-- A closed text and what follows it are unchanged separately. -/
theorem Closed.fixed_append {us : List ℕ} (h : Closed us) (vs : List ℕ) :
    unescape (us ++ vs) = us ++ vs ↔ unescape us = us ∧ unescape vs = vs := by
  rw [h vs]
  constructor
  · intro heq
    have hlen := congrArg List.length heq
    have hu := unescape_length_le us
    have hv := unescape_length_le vs
    simp only [List.length_append] at hlen
    exact List.append_inj heq (by omega)
  · rintro ⟨hu, hv⟩
    rw [hu, hv]

/-! ### The text of a document -/

/-- A member of an object. -/
def renderMember (kv : String × Json) : List Char := renderStr kv.1 ++ ':' :: render kv.2

theorem renderItems_eq (xs : List Json) : renderItems xs = (xs.flatMap fun x => ',' :: render x) ++ [']'] := by
  induction xs with
  | nil => rfl
  | cons x xs ih => simp [renderItems, ih]

theorem renderMembers_eq (kvs : List (String × Json)) :
    renderMembers kvs = (kvs.flatMap fun kv => ',' :: renderMember kv) ++ ['}'] := by
  induction kvs with
  | nil => rfl
  | cons kv kvs ih => simp [renderMembers, renderMember, ih]

/-- A list with commas between its items. -/
theorem intercalate_comma {α β : Type*} (c : β) (f : α → List β) (x : α) (xs : List α) :
    [c].intercalate ((x :: xs).map f) = f x ++ xs.flatMap fun y => c :: f y := by
  induction xs generalizing x with
  | nil => simp
  | cons y xs ih =>
    rw [List.map_cons, List.map_cons, List.intercalate_cons_cons, ← List.map_cons, ih]
    simp

theorem render_arr (xs : List Json) : render (.arr xs) = '[' :: ([','].intercalate (xs.map render) ++ [']']) := by
  cases xs with
  | nil => rfl
  | cons x xs => rw [render, renderItems_eq, intercalate_comma, List.append_assoc]

theorem render_obj (kvs : List (String × Json)) :
    render (.obj kvs) = '{' :: ([','].intercalate (kvs.map renderMember) ++ ['}']) := by
  cases kvs with
  | nil => rfl
  | cons kv kvs =>
    rw [render, renderMembers_eq, intercalate_comma]
    simp [renderMember]

theorem units_intercalate (sep : List Char) (ts : List (List Char)) :
    units (sep.intercalate ts) = (units sep).intercalate (ts.map units) := by
  induction ts with
  | nil => rfl
  | cons t ts ih =>
    cases ts with
    | nil => simp
    | cons u ts =>
      rw [List.intercalate_cons_cons, units_append, units_append, ih]
      simp [List.intercalate_cons_cons]

section Pieces

variable {sep : List ℕ} {ts : List (List ℕ)}

/-- Closed pieces are closed together. -/
theorem Closed.intercalate (hs : Closed sep) (h : ∀ t ∈ ts, Closed t) : Closed (sep.intercalate ts) := by
  induction ts with
  | nil => exact .nil
  | cons t ts ih =>
    rw [List.forall_mem_cons] at h
    cases ts with
    | nil => simpa using h.1
    | cons u ts =>
      rw [List.intercalate_cons_cons]
      exact (h.1.append hs).append (ih h.2)

/-- Replacements in closed pieces are made piece by piece. -/
theorem unescape_intercalate (hs : Closed sep) (hsep : unescape sep = sep) (h : ∀ t ∈ ts, Closed t) :
    unescape (sep.intercalate ts) = sep.intercalate (ts.map unescape) := by
  induction ts with
  | nil => rfl
  | cons t ts ih =>
    rw [List.forall_mem_cons] at h
    cases ts with
    | nil => simp
    | cons u ts =>
      rw [List.intercalate_cons_cons, List.append_assoc, h.1, hs, hsep, ih h.2]
      simp [List.intercalate_cons_cons]

/-- Closed pieces are unchanged one by one. -/
theorem fixed_intercalate (hs : Closed sep) (hsep : unescape sep = sep) (h : ∀ t ∈ ts, Closed t) :
    unescape (sep.intercalate ts) = sep.intercalate ts ↔ ∀ t ∈ ts, unescape t = t := by
  induction ts with
  | nil => simp
  | cons t ts ih =>
    rw [List.forall_mem_cons] at h ⊢
    cases ts with
    | nil => simp
    | cons u ts =>
      rw [List.intercalate_cons_cons, List.append_assoc, h.1.fixed_append, hs.fixed_append, ih h.2]
      simp [hsep]

end Pieces

/-- A character other than the backslash has other units. -/
theorem notMem_unitsOf {c : Char} (h : c ≠ '\\') : 92 ∉ unitsOf c := by
  unfold unitsOf
  split
  · intro hmem
    exact h (char_eq_iff.2 (List.mem_singleton.1 hmem).symm)
  · simp
    omega

theorem notMem_units {cs : List Char} (h : '\\' ∉ cs) : 92 ∉ units cs := by
  intro hmem
  obtain ⟨c, hc, hmem⟩ := List.mem_flatMap.1 hmem
  exact notMem_unitsOf (fun heq => h (heq ▸ hc)) hmem

theorem renderInt_notMem (n : ℤ) : '\\' ∉ renderInt n := fun h =>
  absurd (List.all_eq_true.1 (renderInt_numeric n) _ h) (by decide)

theorem renderChars_eq (cs : List Char) : renderChars cs = cs.flatMap escapeChar ++ ['"'] := by
  induction cs with
  | nil => rfl
  | cons c cs ih => rw [renderChars, ih, List.flatMap_cons, List.append_assoc]

theorem closed_renderChars (cs : List Char) : Closed (units (renderChars cs)) := by
  rw [renderChars_eq, units_append]
  exact .quoted _

theorem closed_renderStr (s : String) : Closed (units (renderStr s)) := by
  have h : units (renderStr s) = units ['"'] ++ units (renderChars s.toList) := units_append ['"'] _
  rw [h]
  exact (Closed.of_notMem (by decide)).append (closed_renderChars _)

theorem units_renderMember (kv : String × Json) :
    units (renderMember kv) = units (renderStr kv.1) ++ (units [':'] ++ units (render kv.2)) := by
  rw [renderMember, units_append, ← units_append [':']]
  rfl

theorem units_render_arr (xs : List Json) : units (render (.arr xs)) =
    units ['['] ++ ((units [',']).intercalate (xs.map fun x => units (render x)) ++ units [']']) := by
  rw [render_arr, ← List.singleton_append, units_append, units_append, units_intercalate, List.map_map]
  rfl

theorem units_render_obj (kvs : List (String × Json)) : units (render (.obj kvs)) =
    units ['{'] ++ ((units [',']).intercalate (kvs.map fun kv => units (renderMember kv)) ++ units ['}']) := by
  rw [render_obj, ← List.singleton_append, units_append, units_append, units_intercalate, List.map_map]
  rfl

theorem closed_comma : Closed (units [',']) := .of_notMem (by decide)

/-- **No escape goes from one token of a document into another.** -/
theorem closed_render (j : Json) : Closed (units (render j)) := by
  induction j using Json.induct with
  | null => exact .of_notMem (by decide)
  | bool b => cases b <;> exact .of_notMem (by decide)
  | int n => exact .of_notMem (notMem_units (renderInt_notMem n))
  | float x =>
    refine .of_notMem (notMem_units fun h => ?_)
    exact absurd (List.all_eq_true.1 x.numeric _ h) (by decide)
  | str s => exact closed_renderStr s
  | arr xs ih =>
    rw [units_render_arr]
    refine (Closed.of_notMem (by decide)).append ((closed_comma.intercalate fun t ht => ?_).append (.of_notMem (by decide)))
    obtain ⟨x, hx, rfl⟩ := List.mem_map.1 ht
    exact ih x hx
  | obj kvs ih =>
    rw [units_render_obj]
    refine (Closed.of_notMem (by decide)).append ((closed_comma.intercalate fun t ht => ?_).append (.of_notMem (by decide)))
    obtain ⟨kv, hkv, rfl⟩ := List.mem_map.1 ht
    rw [units_renderMember]
    exact (closed_renderStr _).append ((Closed.of_notMem (by decide)).append (ih kv hkv))

theorem closed_renderMember (kv : String × Json) : Closed (units (renderMember kv)) := by
  rw [units_renderMember]
  exact (closed_renderStr _).append ((Closed.of_notMem (by decide)).append (closed_render _))

/-! ### Integers -/

theorem roundHalfEven_one (a : ℕ) : Body.roundHalfEven a 1 = a := by
  rw [Body.roundHalfEven, Nat.mod_one, if_pos (by omega), Nat.div_one]

/-- The double nearest to an integer of at most 53 bits is the integer. -/
theorem nearest_one {a : ℕ} (h : a < 2 ^ 53) : ∃ k : ℕ, k ≤ 53 ∧ nearest a 1 = (a * 2 ^ k, -(k : ℤ)) := by
  have hlog : Nat.log2 a < 53 := by
    by_cases ha : a = 0
    · rw [ha, Nat.log2_zero]
      omega
    · exact (Nat.log2_lt ha).2 h
  have hround : ∀ e : ℤ, -1 ≤ e → e ≤ 52 →
      (Body.roundHalfEven (a * 2 ^ (-(e - 52)).toNat) (1 * 2 ^ (e - 52).toNat), e - 52) =
        (a * 2 ^ (52 - e).toNat, -((52 - e).toNat : ℤ)) := by
    intro e h₁ h₂
    rw [show (e - 52).toNat = 0 by omega, pow_zero, one_mul, roundHalfEven_one,
      show (-(e - 52)).toNat = (52 - e).toNat by omega, Prod.mk.injEq]
    exact ⟨rfl, by omega⟩
  rw [nearest]
  simp only [show Nat.log2 1 = 0 from rfl, Nat.cast_zero, sub_zero]
  split_ifs with hexp hlow hlow
  · omega
  · exact ⟨(52 - (Nat.log2 a : ℤ)).toNat, by omega, hround (Nat.log2 a) (by omega) (by omega)⟩
  · omega
  · exact ⟨(52 - ((Nat.log2 a : ℤ) - 1)).toNat, by omega, hround (Nat.log2 a - 1) (by omega) (by omega)⟩

/-- An integer of at most 53 bits is read as it is. -/
theorem parseInt_of_safe {n : ℤ} (h : n.natAbs ≤ 9007199254740991) : parseInt n = .integer n := by
  obtain ⟨k, hk, hnear⟩ := nearest_one (a := n.natAbs) (by omega)
  have hlt : n.natAbs * 2 ^ k < 2 ^ 1024 := by
    calc n.natAbs * 2 ^ k ≤ n.natAbs * 2 ^ 53 := Nat.mul_le_mul_left _ (Nat.pow_le_pow_right (by decide) hk)
      _ < 2 ^ 53 * 2 ^ 53 := Nat.mul_lt_mul_of_pos_right (by omega) (by decide)
      _ = 2 ^ 106 := by rw [← pow_add]
      _ < 2 ^ 1024 := Nat.pow_lt_pow_right Nat.one_lt_two (by decide)
  rw [parseInt, number, hnear]
  simp only [Int.toNat_neg_natCast, pow_zero, mul_one, neg_neg, Int.toNat_natCast]
  rw [if_neg (by omega), if_neg (by simp), Nat.mul_div_cancel _ (Nat.two_pow_pos k)]
  by_cases hn : n < 0
  · rw [if_pos (by simpa using hn)]
    congr 1
    omega
  · rw [if_neg (by simpa using hn)]
    congr 1
    omega

/-- `String(n)` of such an integer. -/
theorem canonicalNumber_of_safe {n : ℤ} (h : n.natAbs ≤ 9007199254740991) :
    canonicalNumber (parseInt n) = some (units (renderInt n)) := by
  rw [parseInt_of_safe h, canonicalNumber, integerText, if_pos (by omega)]

/-! ### The program as one replacement -/

/-- The document that `canonicalJson` writes, before its replacements. -/
def document (j : Json) : List ℕ := units (render (Browser.canon j))

theorem canon_arr (xs : List Json) : Browser.canon (.arr xs) = .arr (xs.map Browser.canon) := by
  rw [Browser.canon, Browser.canonItems_eq]

theorem sortKeys_map {α β : Type*} (f : α → β) (kvs : List (String × α)) :
    Browser.sortKeys (kvs.map fun kv => (kv.1, f kv.2)) = (Browser.sortKeys kvs).map fun kv => (kv.1, f kv.2) :=
  (List.map_insertionSort _ _ (fun kv : String × α => (kv.1, f kv.2)) kvs fun _ _ _ _ => Iff.rfl).symm

theorem canon_obj (kvs : List (String × Json)) : Browser.canon (.obj kvs) =
    .obj ((Browser.sortKeys kvs).map fun kv => (kv.1, Browser.canon kv.2)) := by
  rw [Browser.canon, Browser.canonMembers_eq, sortKeys_map]

theorem unescape_units {c : Char} (h : c ≠ '\\') : unescape (units [c]) = units [c] :=
  unescape_of_notMem (notMem_units (by simpa using h.symm))

/-- Replacements in an array. -/
theorem unescape_brackets {ts : List (List ℕ)} (h : ∀ t ∈ ts, Closed t) {a b : Char} (ha : a ≠ '\\') (hb : b ≠ '\\') :
    unescape (units [a] ++ ((units [',']).intercalate ts ++ units [b])) =
      units [a] ++ (units [',']).intercalate (ts.map unescape) ++ units [b] := by
  rw [unescape_append_of_notMem (notMem_units (by simpa using ha.symm)), closed_comma.intercalate h,
    unescape_intercalate closed_comma (unescape_units (by decide)) h, unescape_units hb, List.append_assoc]

theorem unescape_renderMember (kv : String × Json) : unescape (units (renderMember kv)) =
    canonicalText kv.1 ++ units [':'] ++ unescape (units (render kv.2)) := by
  rw [units_renderMember, closed_renderStr, unescape_append_of_notMem (by decide), ← List.append_assoc]
  rfl

/-- **`canonicalJson` is one replacement in the whole document.** -/
theorem canonicalJson_eq {j : Json} (h : j.safe = true) : canonicalJson j = some (unescape (document j)) := by
  induction j using Json.induct with
  | null => exact congrArg some (unescape_of_notMem (by decide)).symm
  | bool b => cases b <;> exact congrArg some (unescape_of_notMem (by decide)).symm
  | int n =>
    have hn : unescape (document (.int n)) = units (renderInt n) :=
      unescape_of_notMem (notMem_units (renderInt_notMem n))
    rw [hn, canonicalJson]
    exact canonicalNumber_of_safe (by simpa [Json.safe] using h)
  | float x => cases h
  | str s => rfl
  | arr xs ih =>
    have hitems : ∀ ys ⊆ xs, canonicalItems ys = some (ys.map fun y => unescape (document y)) := by
      intro ys
      induction ys with
      | nil => intro _; rfl
      | cons y ys ihy =>
        intro hsub
        rw [List.cons_subset] at hsub
        rw [canonicalItems, ih y hsub.1 ((Json.safe_arr xs).1 h y hsub.1), ihy hsub.2]
        rfl
    rw [canonicalJson, hitems xs (List.Subset.refl xs), document, canon_arr, units_render_arr,
      unescape_brackets ?_ (by decide) (by decide), List.map_map, List.map_map]
    · rfl
    · intro t ht
      obtain ⟨x, -, rfl⟩ := List.mem_map.1 ht
      exact closed_render x
  | obj kvs ih =>
    have hmembers : ∀ lvs ⊆ kvs, canonicalMembers lvs =
        some (lvs.map fun kv => (kv.1, unescape (document kv.2))) := by
      intro lvs
      induction lvs with
      | nil => intro _; rfl
      | cons kv lvs ihl =>
        intro hsub
        obtain ⟨k, x⟩ := kv
        rw [List.cons_subset] at hsub
        rw [canonicalMembers, ih _ hsub.1 ((Json.safe_obj kvs).1 h _ hsub.1), ihl hsub.2]
        rfl
    rw [canonicalJson, hmembers kvs (List.Subset.refl kvs), Option.map_some,
      sortKeys_map (fun x => unescape (document x)), document, canon_obj, units_render_obj,
      unescape_brackets ?_ (by decide) (by decide), List.map_map, List.map_map, List.map_map]
    · simp only [Function.comp_def, unescape_renderMember]
      rfl
    · intro t ht
      obtain ⟨kv, -, rfl⟩ := List.mem_map.1 ht
      exact closed_renderMember kv

/-! ### What no replacement touches -/

theorem fixed_cons_none {u : ℕ} {us : List ℕ} (h : escapeAt (u :: us) = none) :
    unescape (u :: us) = u :: us ↔ unescape us = us := by
  rw [unescape_cons_none h, List.cons_inj_right]

theorem not_fixed_cons_some {u v : ℕ} {us : List ℕ} (h : escapeAt (u :: us) = some v) :
    unescape (u :: us) ≠ u :: us := by
  intro heq
  obtain ⟨-, a, b, c, d, r, hus, -⟩ := escapeAt_eq_some h
  have hlen := congrArg List.length heq
  have hle := unescape_length_le (us.drop 5)
  rw [unescape_cons_some h] at hlen
  obtain rfl := (List.cons.inj hus).2
  simp only [List.length_cons, List.length_drop] at hlen hle
  omega

theorem escapeChar_self {c : Char} (hq : c ≠ '"') (hb : c ≠ '\\') (h : 32 ≤ c.toNat) : escapeChar c = [c] := by
  have hne : ∀ d : Char, d.toNat < 32 → c ≠ d := fun d hd heq => by
    rw [heq] at h
    omega
  rw [escapeChar, if_neg hq, if_neg hb, if_neg (hne _ (by decide)), if_neg (hne _ (by decide)),
    if_neg (hne _ (by decide)), if_neg (hne _ (by decide)), if_neg (hne _ (by decide)), if_neg (by omega)]

/-- What is escaped begins with a backslash. -/
theorem escapeChar_eq_or (c : Char) : escapeChar c = [c] ∨ ∃ t, escapeChar c = '\\' :: t := by
  unfold escapeChar
  iterate 8 refine iteInduction (motive := fun l => l = [c] ∨ ∃ t, l = '\\' :: t) (fun _ => .inr ⟨_, rfl⟩) fun _ => ?_
  exact .inl rfl

/-- A written character that is none of JSON's own stands for itself. -/
theorem units_renderChars_eq_cons {cs : List Char} {u : ℕ} {us : List ℕ} (hq : u ≠ 34) (hb : u ≠ 92)
    (hlt : u < 55296) (h : units (renderChars cs) = u :: us) :
    ∃ c ds, cs = c :: ds ∧ c.toNat = u ∧ us = units (renderChars ds) := by
  cases cs with
  | nil => exact absurd (List.cons.inj h).1.symm hq
  | cons c ds =>
    rw [renderChars, units_append] at h
    by_cases hc : escapeChar c = [c]
    · rw [hc] at h
      by_cases hbmp : c.toNat < 65536
      · have hunit : units [c] = [c.toNat] := by simp [units, unitsOf, hbmp]
        rw [hunit] at h
        exact ⟨c, ds, rfl, (List.cons.inj h).1, (List.cons.inj h).2.symm⟩
      · have hunit : units [c] = [55296 + (c.toNat - 65536) / 1024, 56320 + (c.toNat - 65536) % 1024] := by
          simp [units, unitsOf, hbmp]
        rw [hunit] at h
        have := (List.cons.inj h).1
        omega
    · obtain ⟨t, ht⟩ := (escapeChar_eq_or c).resolve_left hc
      rw [ht] at h
      exact absurd (List.cons.inj h).1.symm hb

theorem hexUnit_isSome_iff {u : ℕ} : (hexUnit u).isSome = true ↔
    (48 ≤ u ∧ u ≤ 57) ∨ (97 ≤ u ∧ u ≤ 102) ∨ (65 ≤ u ∧ u ≤ 70) := by
  unfold hexUnit
  split_ifs <;> simp <;> omega

theorem isHexDigit_iff_hexUnit (c : Char) : isHexDigit c = true ↔ (hexUnit c.toNat).isSome = true := by
  rw [isHexDigit_iff, hexUnit_isSome_iff]

/-- A hexadecimal digit is written as it is. -/
theorem units_renderChars_hex {c : Char} (h : isHexDigit c = true ∨ c = 'u') (cs : List Char) :
    units (renderChars (c :: cs)) = c.toNat :: units (renderChars cs) := by
  have hrange : (48 ≤ c.toNat ∧ c.toNat ≤ 57) ∨ (97 ≤ c.toNat ∧ c.toNat ≤ 102) ∨ (65 ≤ c.toNat ∧ c.toNat ≤ 70) ∨
      c.toNat = 117 := by
    rcases h with h | rfl
    · have := (isHexDigit_iff c).1 h
      omega
    · exact .inr (.inr (.inr rfl))
  have hself : escapeChar c = [c] := by
    refine escapeChar_self (fun heq => ?_) (fun heq => ?_) (by omega)
    · rw [heq] at hrange
      revert hrange
      decide
    · rw [heq] at hrange
      revert hrange
      decide
  have hunit : units [c] = [c.toNat] := by simp [units, unitsOf, show c.toNat < 65536 by omega]
  rw [renderChars, units_append, hself, hunit, List.singleton_append]

theorem escapeAt_eq_none_iff {us : List ℕ} : escapeAt us = none ↔ ¬ ∃ a b c d r,
    us = 92 :: 117 :: a :: b :: c :: d :: r ∧ (hexUnit a).isSome = true ∧ (hexUnit b).isSome = true ∧
      (hexUnit c).isSome = true ∧ (hexUnit d).isSome = true := by
  constructor
  · rintro h ⟨a, b, c, d, r, rfl, ha, hb, hc, hd⟩
    obtain ⟨a', ha⟩ := Option.isSome_iff_exists.1 ha
    obtain ⟨b', hb⟩ := Option.isSome_iff_exists.1 hb
    obtain ⟨c', hc⟩ := Option.isSome_iff_exists.1 hc
    obtain ⟨d', hd⟩ := Option.isSome_iff_exists.1 hd
    simp [escapeAt, ha, hb, hc, hd] at h
  · intro h
    by_contra hne
    obtain ⟨v, hv⟩ := Option.ne_none_iff_exists'.1 hne
    exact h (escapeAt_eq_some hv).2

/-- A backslash of a text begins an escape exactly if `u` and four hexadecimal
digits follow in the text. -/
theorem escapeAt_backslash (cs : List Char) :
    escapeAt (92 :: units (renderChars cs)) = none ↔ looksEscaped cs = false := by
  rw [escapeAt_eq_none_iff, ← Bool.not_eq_true, not_iff_not]
  constructor
  · rintro ⟨a, b, c, d, r, heq, ha, hb, hc, hd⟩
    have hone : ∀ {cs : List Char} {u : ℕ} {us : List ℕ}, (hexUnit u).isSome = true →
        units (renderChars cs) = u :: us →
        ∃ c ds, cs = c :: ds ∧ isHexDigit c = true ∧ us = units (renderChars ds) := by
      intro cs u us hu h
      have hr := hexUnit_isSome_iff.1 hu
      obtain ⟨c, ds, rfl, rfl, hus⟩ := units_renderChars_eq_cons (by omega) (by omega) (by omega) h
      exact ⟨c, ds, rfl, (isHexDigit_iff_hexUnit c).2 hu, hus⟩
    obtain ⟨x, ds, rfl, hx, h₁⟩ := units_renderChars_eq_cons (by decide) (by decide) (by decide) (List.cons.inj heq).2
    obtain rfl : x = 'u' := char_eq_iff.2 hx
    obtain ⟨a', ds, rfl, ha', h₂⟩ := hone ha h₁.symm
    obtain ⟨b', ds, rfl, hb', h₃⟩ := hone hb h₂.symm
    obtain ⟨c', ds, rfl, hc', h₄⟩ := hone hc h₃.symm
    obtain ⟨d', ds, rfl, hd', -⟩ := hone hd h₄.symm
    rw [looksEscaped, ha', hb', hc', hd']
    rfl
  · intro h
    unfold looksEscaped at h
    split at h
    · rename_i a b c d r
      simp only [Bool.and_eq_true] at h
      obtain ⟨⟨⟨ha, hb⟩, hc⟩, hd⟩ := h
      refine ⟨a.toNat, b.toNat, c.toNat, d.toNat, units (renderChars r), ?_, (isHexDigit_iff_hexUnit a).1 ha,
        (isHexDigit_iff_hexUnit b).1 hb, (isHexDigit_iff_hexUnit c).1 hc, (isHexDigit_iff_hexUnit d).1 hd⟩
      rw [units_renderChars_hex (.inr rfl), units_renderChars_hex (.inl ha), units_renderChars_hex (.inl hb),
        units_renderChars_hex (.inl hc), units_renderChars_hex (.inl hd)]
      rfl
    · cases h

/-- An escape with a letter of its own is not touched. -/
theorem fixed_letter {x : ℕ} (hx : x ≠ 117) (hb : x ≠ 92) (us : List ℕ) :
    unescape (92 :: x :: us) = 92 :: x :: us ↔ unescape us = us := by
  have hnone : escapeAt (92 :: x :: us) = none := by
    rw [escapeAt_eq_none_iff]
    rintro ⟨a, b, c, d, r, heq, -⟩
    exact hx (List.cons.inj (List.cons.inj heq).2).1
  rw [fixed_cons_none hnone, fixed_cons_none (escapeAt_cons_ne hb us)]

/-- The escape of a bare control character is one that is replaced. -/
theorem units_bareControl {c : Char} (h : isBareControl c = true) : units (escapeChar c) =
    [92, 117, 48, 48, (hexDigit (c.toNat / 16)).toNat, (hexDigit (c.toNat % 16)).toNat] := by
  simp only [isBareControl, Bool.and_eq_true, decide_eq_true_eq, Bool.not_eq_true', Bool.or_eq_false_iff,
    decide_eq_false_iff_not] at h
  obtain ⟨hlt, ⟨⟨⟨hn, hr⟩, ht⟩, hf⟩, hb⟩ := h
  have hbmp : ∀ n < 16, (hexDigit n).toNat < 65536 := by decide
  have hq : c ≠ '"' := fun heq => absurd (heq ▸ hlt) (by decide)
  have hs : c ≠ '\\' := fun heq => absurd (heq ▸ hlt) (by decide)
  rw [escapeChar, if_neg hq, if_neg hs, if_neg hn, if_neg hr, if_neg ht, if_neg hf, if_neg hb, if_pos hlt]
  simp [units, unitsOf, hbmp (c.toNat / 16) (by omega), hbmp (c.toNat % 16) (by omega)]

theorem escapeAt_bareControl {c : Char} (h : isBareControl c = true) (us : List ℕ) : ∃ v, escapeAt (92 :: ([117, 48, 48,
    (hexDigit (c.toNat / 16)).toNat, (hexDigit (c.toNat % 16)).toNat] ++ us)) = some v := by
  have hlt : c.toNat < 32 := by
    simp only [isBareControl, Bool.and_eq_true, decide_eq_true_eq] at h
    exact h.1
  have hhex : ∀ n < 16, (hexUnit (hexDigit n).toNat).isSome = true := by decide
  by_contra hnone
  have hnone : escapeAt _ = none := Option.eq_none_iff_forall_ne_some.2 fun v hv => hnone ⟨v, hv⟩
  exact escapeAt_eq_none_iff.1 hnone ⟨48, 48, _, _, us, rfl, by decide, by decide, hhex _ (by omega), hhex _ (by omega)⟩

/-- A character written as itself, or as a letter after a backslash. -/
inductive Written (c : Char) : List Char → Prop
  | plain : Written c [c]
  | letter (x : Char) (hx : x.toNat < 65536 ∧ x.toNat ≠ 117 ∧ x.toNat ≠ 92) : Written c ['\\', x]

/-- Any other character but the backslash stands for itself or has a letter. -/
theorem escapeChar_cases {c : Char} (hs : c ≠ '\\') (hc : ¬ isBareControl c = true) : Written c (escapeChar c) := by
  have hstep : ∀ {p : Prop} [Decidable p] (x : Char) {l : List Char}, x.toNat < 65536 ∧ x.toNat ≠ 117 ∧ x.toNat ≠ 92 →
      (¬ p → Written c l) → Written c (if p then ['\\', x] else l) := fun x _ hx h =>
    iteInduction (fun _ => .letter x hx) h
  unfold escapeChar
  refine hstep '"' (by decide) fun hq => ?_
  rw [if_neg hs]
  refine hstep 'n' (by decide) fun hn => hstep 'r' (by decide) fun hr => hstep 't' (by decide) fun ht => ?_
  refine hstep 'f' (by decide) fun hf => hstep 'b' (by decide) fun hb => ?_
  rw [if_neg fun hctl => hc (by simp [isBareControl, hctl, hn, hr, ht, hf, hb])]
  exact .plain

/-- **The plain texts are those that no replacement touches.** -/
theorem fixed_renderChars_iff (cs : List Char) :
    unescape (units (renderChars cs)) = units (renderChars cs) ↔ plainChars cs = true := by
  induction cs with
  | nil => exact iff_of_true (unescape_of_notMem (by decide)) rfl
  | cons c cs ih =>
    rw [renderChars, units_append, plainChars, Bool.and_eq_true, Bool.and_eq_true, ← ih]
    by_cases hslash : c = '\\'
    · subst hslash
      have hnone : escapeAt (92 :: 92 :: units (renderChars cs)) = none := by
        rw [escapeAt_eq_none_iff]
        rintro ⟨a, b, c, d, r, heq, -⟩
        exact absurd (List.cons.inj (List.cons.inj heq).2).1 (by decide)
      have hunits : units (escapeChar '\\') ++ units (renderChars cs) = 92 :: 92 :: units (renderChars cs) := rfl
      rw [hunits, fixed_cons_none hnone]
      cases hesc : escapeAt (92 :: units (renderChars cs)) with
      | none =>
        rw [fixed_cons_none hesc, (escapeAt_backslash cs).1 hesc]
        simp [isBareControl]
      | some v =>
        have hlooks : looksEscaped cs = true := by
          by_contra hne
          rw [(escapeAt_backslash cs).2 (by simpa using hne)] at hesc
          cases hesc
        simp [not_fixed_cons_some hesc, hlooks]
    · by_cases hctl : isBareControl c = true
      · obtain ⟨v, hv⟩ := escapeAt_bareControl hctl (units (renderChars cs))
        rw [units_bareControl hctl]
        exact iff_of_false (not_fixed_cons_some hv) (by simp [hctl])
      · have hfixed : unescape (units (escapeChar c) ++ units (renderChars cs)) =
            units (escapeChar c) ++ units (renderChars cs) ↔
              unescape (units (renderChars cs)) = units (renderChars cs) := by
          have hwritten := escapeChar_cases hslash hctl
          generalize escapeChar c = l at hwritten ⊢
          cases hwritten with
          | plain =>
            have hmem : 92 ∉ units [c] := notMem_units (by simpa using Ne.symm hslash)
            rw [unescape_append_of_notMem hmem, List.append_cancel_left_eq]
          | letter x hx =>
            have hunits : units ['\\', x] = [92, x.toNat] := by simp [units, unitsOf, hx.1]
            rw [hunits]
            exact fixed_letter hx.2.1 hx.2.2 _
        rw [hfixed]
        simp [hctl, hslash]

theorem fixed_renderStr_iff (s : String) :
    unescape (units (renderStr s)) = units (renderStr s) ↔ plainChars s.toList = true := by
  have h : units (renderStr s) = units ['"'] ++ units (renderChars s.toList) := units_append ['"'] _
  rw [h, (Closed.of_notMem (by decide)).fixed_append, fixed_renderChars_iff]
  exact and_iff_right (unescape_of_notMem (by decide))

/-- Brackets, commas and colons are not touched. -/
theorem fixed_brackets {ts : List (List ℕ)} (h : ∀ t ∈ ts, Closed t) {a b : Char} (ha : a ≠ '\\') (hb : b ≠ '\\') :
    unescape (units [a] ++ ((units [',']).intercalate ts ++ units [b])) =
      units [a] ++ ((units [',']).intercalate ts ++ units [b]) ↔ ∀ t ∈ ts, unescape t = t := by
  rw [(Closed.of_notMem (notMem_units (by simpa using ha.symm))).fixed_append,
    (closed_comma.intercalate h).fixed_append, fixed_intercalate closed_comma (unescape_units (by decide)) h]
  simp [unescape_units ha, unescape_units hb]

/-- **The plain values are those that no replacement touches.** -/
theorem fixed_render_iff (j : Json) : unescape (units (render j)) = units (render j) ↔ j.plain = true := by
  induction j using Json.induct with
  | null => exact iff_of_true (unescape_of_notMem (by decide)) rfl
  | bool b => cases b <;> exact iff_of_true (unescape_of_notMem (by decide)) rfl
  | int n => exact iff_of_true (unescape_of_notMem (notMem_units (renderInt_notMem n))) rfl
  | float x =>
    refine iff_of_true (unescape_of_notMem (notMem_units fun h => ?_)) rfl
    exact absurd (List.all_eq_true.1 x.numeric _ h) (by decide)
  | str s => exact fixed_renderStr_iff s
  | arr xs ih =>
    rw [units_render_arr, fixed_brackets ?_ (by decide) (by decide), Json.plain_arr, List.forall_mem_map]
    · exact forall₂_congr ih
    · exact List.forall_mem_map.2 fun x _ => closed_render x
  | obj kvs ih =>
    rw [units_render_obj, fixed_brackets ?_ (by decide) (by decide), Json.plain_obj, List.forall_mem_map]
    · refine forall₂_congr fun kv hkv => ?_
      rw [units_renderMember, (closed_renderStr _).fixed_append, (Closed.of_notMem (by decide)).fixed_append,
        fixed_renderStr_iff, ih kv hkv, unescape_units (by decide)]
      simp
    · exact List.forall_mem_map.2 fun kv _ => closed_renderMember kv

/-! ### The order of keys -/

/-- The number of bytes of a text. -/
def size (cs : List Char) : ℕ := (utf8 (String.ofList cs)).length

theorem size_append (xs ys : List Char) : size (xs ++ ys) = size xs + size ys := by
  rw [size, utf8_ofList, List.flatMap_append, List.length_append, ← utf8_ofList, ← utf8_ofList, size, size]

theorem size_cons (c : Char) (cs : List Char) : size (c :: cs) = size [c] + size cs := size_append [c] cs

theorem size_intercalate (ts : List (List Char)) :
    size ([','].intercalate ts) = (ts.map size).sum + (ts.length - 1) := by
  induction ts with
  | nil => rfl
  | cons t ts ih =>
    cases ts with
    | nil => simp
    | cons u ts =>
      rw [List.intercalate_cons_cons, size_append, size_append, ih]
      have hone : size [','] = 1 := rfl
      simp only [List.map_cons, List.sum_cons, List.length_cons]
      omega

theorem size_render_arr (xs : List Json) : size (render (.arr xs)) =
    size ['['] + (((xs.map fun x => size (render x)).sum + (xs.length - 1)) + size [']']) := by
  rw [render_arr, size_cons, size_append, size_intercalate, List.map_map, List.length_map]
  rfl

theorem size_render_obj (kvs : List (String × Json)) : size (render (.obj kvs)) =
    size ['{'] + (((kvs.map fun kv => size (renderMember kv)).sum + (kvs.length - 1)) + size ['}']) := by
  rw [render_obj, size_cons, size_append, size_intercalate, List.map_map, List.length_map]
  rfl

/-- Sorting the members of an object changes no length. -/
theorem size_render_obj_perm {kvs lvs : List (String × Json)} (h : kvs.Perm lvs) :
    size (render (.obj kvs)) = size (render (.obj lvs)) := by
  rw [size_render_obj, size_render_obj, (h.map _).sum_nat, h.length_eq]

/-- Neither does a change of the values that changes no length. -/
theorem size_render_obj_map {kvs : List (String × Json)} {f : Json → Json}
    (h : ∀ kv ∈ kvs, size (render (f kv.2)) = size (render kv.2)) :
    size (render (.obj (kvs.map fun kv => (kv.1, f kv.2)))) = size (render (.obj kvs)) := by
  have hmap : (kvs.map fun kv => size (renderMember (kv.1, f kv.2))) = kvs.map fun kv => size (renderMember kv) := by
    refine List.map_congr_left fun kv hkv => ?_
    rw [renderMember, renderMember, size_append, size_append, size_cons, size_cons ':' (render kv.2), h kv hkv]
  rw [size_render_obj, size_render_obj, List.map_map, List.length_map, ← hmap]
  rfl

theorem size_render_arr_map {xs : List Json} {f : Json → Json} (h : ∀ x ∈ xs, size (render (f x)) = size (render x)) :
    size (render (.arr (xs.map f))) = size (render (.arr xs)) := by
  rw [size_render_arr, size_render_arr, List.map_map, List.length_map, ← List.map_congr_left h]
  rfl

theorem size_canon (j : Json) : size (render j.canon) = size (render j) := by
  induction j using Json.induct with
  | arr xs ih => rw [Json.canon_arr, size_render_arr_map ih]
  | obj kvs ih => rw [Json.canon_obj, size_render_obj_perm (Json.sortKeys_perm _), size_render_obj_map ih]
  | _ => rfl

theorem sortKeys_perm {α : Type*} (kvs : List (String × α)) : (Browser.sortKeys kvs).Perm kvs :=
  List.perm_insertionSort _ _

theorem size_browser_canon (j : Json) : size (render (Browser.canon j)) = size (render j) := by
  induction j using Json.induct with
  | arr xs ih => rw [canon_arr, size_render_arr_map ih]
  | obj kvs ih =>
    rw [canon_obj, ← sortKeys_map, size_render_obj_perm (sortKeys_perm _), size_render_obj_map ih]
  | _ => rfl

theorem utf16_inj {s t : String} (h : Browser.utf16 s = Browser.utf16 t) : s = t := by
  have hbytes : utf8 s = utf8 t := by
    rw [← String.ofList_toList (s := s), ← String.ofList_toList (s := t), ← textEncode_units, ← textEncode_units]
    exact congrArg textEncode h
  exact utf8_inj.1 hbytes

theorem keysAlike_iff {ks : List String} : Json.keysAlike ks = true ↔
    ∀ k ∈ ks, ∀ l ∈ ks, (Browser.utf16 k ≤ Browser.utf16 l ↔ k ≤ l) := by
  simp [Json.keysAlike]

theorem sortKeys_sorted {α : Type*} (kvs : List (String × α)) :
    (Browser.sortKeys kvs).Pairwise fun a b => Browser.utf16 a.1 ≤ Browser.utf16 b.1 :=
  List.pairwise_insertionSort (fun a b : String × α => Browser.utf16 a.1 ≤ Browser.utf16 b.1) kvs

/-- Keys that are sorted both ways sort alike. -/
theorem keysAlike_of_sorted {ks : List String} (h : ks.Pairwise (· ≤ ·))
    (h' : ks.Pairwise fun k l => Browser.utf16 k ≤ Browser.utf16 l) : Json.keysAlike ks = true := by
  rw [keysAlike_iff]
  have hsymm : Std.Symm fun k l : String => (Browser.utf16 k ≤ Browser.utf16 l ↔ k ≤ l) ∧
      (Browser.utf16 l ≤ Browser.utf16 k ↔ l ≤ k) := ⟨fun _ _ h => h.symm⟩
  have hboth : ks.Pairwise fun k l => (Browser.utf16 k ≤ Browser.utf16 l ↔ k ≤ l) ∧
      (Browser.utf16 l ≤ Browser.utf16 k ↔ l ≤ k) := by
    refine (h.and h').imp fun ⟨hle, hle'⟩ => ⟨iff_of_true hle' hle, fun hge => ?_, fun hge => ?_⟩
    · exact (utf16_inj (le_antisymm hle' hge)).ge
    · rw [le_antisymm hle hge]
  intro k hk l hl
  exact (hboth.forall_of_forall (fun k _ => ⟨iff_of_true le_rfl le_rfl, iff_of_true le_rfl le_rfl⟩) hk hl).1

/-- **Where the two orders of keys give the same document.** -/
theorem canon_eq_iff {j : Json} (h : j.wf = true) : Browser.canon j = j.canon ↔ j.sortsAlike = true := by
  induction j using Json.induct with
  | arr xs ih =>
    rw [canon_arr, Json.canon_arr, Json.sortsAlike_arr, Json.arr.injEq, List.map_inj_left]
    exact forall₂_congr fun x hx => ih x hx ((Json.wf_arr xs).1 h x hx)
  | obj kvs ih =>
    obtain ⟨hn, hwf⟩ := (Json.wf_obj kvs).1 h
    rw [canon_obj, Json.canon_obj, Json.sortKeys_map, Json.sortsAlike_obj, Json.obj.injEq]
    constructor
    · intro heq
      have hkeys : (Browser.sortKeys kvs).map Prod.fst = (Json.sortKeys kvs).map Prod.fst := by
        have hfst := congrArg (List.map Prod.fst) heq
        rwa [List.map_map, List.map_map] at hfst
      refine ⟨?_, fun kv hkv => (ih kv hkv (hwf kv hkv)).1 ?_⟩
      · have hmem : ∀ k, k ∈ kvs.map Prod.fst ↔ k ∈ (Json.sortKeys kvs).map Prod.fst := fun k =>
          ((Json.sortKeys_perm kvs).map Prod.fst).mem_iff.symm
        have halike := keysAlike_of_sorted (List.pairwise_map.2 (Json.sortKeys_sorted kvs))
          (hkeys ▸ List.pairwise_map.2 (sortKeys_sorted kvs))
        rw [keysAlike_iff] at halike ⊢
        exact fun k hk l hl => halike k ((hmem k).1 hk) l ((hmem l).1 hl)
      · have hmem : (kv.1, Browser.canon kv.2) ∈ (Json.sortKeys kvs).map fun kv => (kv.1, kv.2.canon) :=
          heq ▸ List.mem_map.2 ⟨kv, (sortKeys_perm kvs).mem_iff.2 hkv, rfl⟩
        obtain ⟨lv, hlv, hpair⟩ := List.mem_map.1 hmem
        -- a key has one value
        have hsame : lv = kv :=
          List.inj_on_of_nodup_map hn ((Json.sortKeys_perm kvs).mem_iff.1 hlv) hkv (Prod.ext_iff.1 hpair).1
        rw [← hsame]
        exact hsame ▸ (Prod.ext_iff.1 hpair).2.symm
    · rintro ⟨halike, hvals⟩
      rw [keysAlike_iff] at halike
      have hsort : Browser.sortKeys kvs = Json.sortKeys kvs := by
        have hm := List.map_insertionSort (fun a b : String × Json => Browser.utf16 a.1 ≤ Browser.utf16 b.1)
          (fun a b => a.1 ≤ b.1) id kvs fun a ha b hb =>
            halike a.1 (List.mem_map.2 ⟨a, ha, rfl⟩) b.1 (List.mem_map.2 ⟨b, hb, rfl⟩)
        simpa [Browser.sortKeys, Json.sortKeys] using hm
      rw [hsort]
      refine List.map_congr_left fun kv hkv => ?_
      have hmem : kv ∈ kvs := (Json.sortKeys_perm kvs).mem_iff.1 hkv
      rw [(ih kv hmem (hwf kv hmem)).2 (hvals kv hmem)]
  | _ => exact iff_of_true rfl rfl

theorem plain_browser_canon (j : Json) : (Browser.canon j).plain = true ↔ j.plain = true := by
  induction j using Json.induct with
  | arr xs ih =>
    rw [canon_arr, Json.plain_arr, Json.plain_arr, List.forall_mem_map]
    exact forall₂_congr ih
  | obj kvs ih =>
    rw [canon_obj, Json.plain_obj, Json.plain_obj, List.forall_mem_map]
    simp only [(sortKeys_perm kvs).mem_iff]
    exact forall₂_congr fun kv hkv => and_congr_right fun _ => ih kv hkv
  | _ => exact Iff.rfl

theorem canon_wf {j : Json} (h : j.wf = true) : (Browser.canon j).wf = true := by
  induction j using Json.induct with
  | arr xs ih =>
    rw [canon_arr, Json.wf_arr, List.forall_mem_map]
    exact fun x hx => ih x hx ((Json.wf_arr xs).1 h x hx)
  | obj kvs ih =>
    obtain ⟨hn, hwf⟩ := (Json.wf_obj kvs).1 h
    rw [canon_obj, Json.wf_obj, List.map_map, List.forall_mem_map]
    refine ⟨(((sortKeys_perm kvs).map Prod.fst).nodup_iff).2 hn, fun kv hkv => ?_⟩
    have hmem := (sortKeys_perm kvs).mem_iff.1 hkv
    exact ih kv hmem (hwf kv hmem)
  | _ => exact h

theorem render_inj {a b : Json} (ha : a.wf = true) (hb : b.wf = true) (h : render a = render b) : a = b := by
  have hload := loads_render ha
  rw [h, loads_render hb] at hload
  exact (Option.some.inj hload).symm

/-- When `canonicalJson` writes the bytes of `json.dumps`. -/
theorem textEncode_canonicalJson_iff {j : Json} (hwf : j.wf = true) (hs : j.safe = true) :
    (∃ t, canonicalJson j = some t ∧ textEncode t = utf8 (dumps j)) ↔ j.plain = true ∧ j.sortsAlike = true := by
  have hfixed : unescape (document j) = document j ↔ j.plain = true :=
    (fixed_render_iff (Browser.canon j)).trans (plain_browser_canon j)
  rw [← hfixed, ← canon_eq_iff hwf]
  constructor
  · rintro ⟨t, ht, heq⟩
    obtain rfl : unescape (document j) = t := Option.some.inj ((canonicalJson_eq hs).symm.trans ht)
    -- the document is as long as Python's, so nothing was replaced
    have hlen : (textEncode (document j)).length = (utf8 (dumps j)).length := by
      rw [document, textEncode_units, dumps]
      exact (size_browser_canon j).trans (size_canon j).symm
    have hsame : unescape (document j) = document j := by
      rcases unescape_eq_or_lt (document j) with h | h
      · exact h
      · rw [heq] at h
        omega
    refine ⟨hsame, render_inj (canon_wf hwf) (Json.canon_wf j hwf) ?_⟩
    rw [hsame, document, textEncode_units, dumps, utf8_inj] at heq
    exact String.ofList_injective heq
  · rintro ⟨hsame, hcanon⟩
    refine ⟨_, canonicalJson_eq hs, ?_⟩
    rw [hsame, document, textEncode_units, hcanon, dumps]

/-- **Two languages, one encoding.**  For a payload that `_validate_payload`
accepts, with integers up to `2^53 - 1`, `canonicalJson` writes the bytes of
`canonical_encode` exactly if every text and key is plain and the keys of every
object sort alike by code units and by code points. -/
theorem canonicalJson_agrees_iff (p : Payload) {j : Json} (hj : p.val.toJson? = some j) (hs : j.safe = true) :
    (∃ s t, canonicalEncode p.val = .ok s ∧ canonicalJson j = some t ∧ textEncode t = utf8 s) ↔
      j.plain = true ∧ j.sortsAlike = true := by
  obtain ⟨l, hl, hencode⟩ := p.encode
  obtain rfl : l = j := Option.some.inj (hl.symm.trans hj)
  rw [← textEncode_canonicalJson_iff (PyVal.wf_of_toJson? _ p.wf l hl) hs, hencode]
  constructor
  · rintro ⟨s, t, hs', ht, heq⟩
    obtain rfl := Except.ok.inj hs'
    exact ⟨t, ht, heq⟩
  · rintro ⟨t, ht, heq⟩
    exact ⟨_, t, rfl, ht, heq⟩

/-- A decision's reason in two languages. -/
def reasonPayload (reason : String) : PyVal := .dict [(.str "reason", .str reason), (.str "score", .int 742)]

theorem canonicalJson_agrees_naive : ∃ s t, canonicalEncode (reasonPayload "naïve 😀") = .ok s ∧
    canonicalJson (.obj [("reason", .str "naïve 😀"), ("score", .int 742)]) = some t ∧ textEncode t = utf8 s :=
  (canonicalJson_agrees_iff ⟨reasonPayload "naïve 😀", rfl, rfl⟩ rfl rfl).2 ⟨by decide, by decide⟩

/-- A text that looks like an escape: the other language drops it. -/
theorem canonicalJson_unescapes : ¬ ∃ s t, canonicalEncode (reasonPayload "C:\\u0041") = .ok s ∧
    canonicalJson (.obj [("reason", .str "C:\\u0041"), ("score", .int 742)]) = some t ∧ textEncode t = utf8 s := by
  rintro ⟨s, t, hs, ht, heq⟩
  obtain rfl : dumps (.obj [("reason", .str "C:\\u0041"), ("score", .int 742)]) = s := Except.ok.inj hs
  exact absurd ((textEncode_canonicalJson_iff rfl rfl).1 ⟨t, ht, heq⟩).1 (by decide)

end Web
end ProvableAi
