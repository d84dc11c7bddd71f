/-
# SHA-256

`hashlib.sha256(data).digest()` and `.hexdigest()`, by FIPS 180-4: the message
padded to blocks of sixteen 32-bit words, sixty-four rounds for each block on
eight working words, the words added to the state after it.

Words are natural numbers below `2^32`, so that the kernel computes a digest
with its own arithmetic.  `sha256_length` is all the development uses of the
inside.  A digest has 32 bytes and there are infinitely many byte strings, so
no statement here assumes the function injective: where the source relies on
the absence of collisions, the statement names the finitely many byte strings
among which there is none (`CollisionFree`).
-/

import ProvableAi.Crypto.Hex
import Mathlib.Data.Set.Function

namespace ProvableAi
namespace Sha256

/-- The number of values of a word. -/
def word : ℕ := 4294967296

/-- Rotate a word right. -/
def rotr (n x : ℕ) : ℕ := (x >>> n ||| x <<< (32 - n)) % word

/-- The round constants. -/
def constants : List ℕ :=
  [0x428a2f98, 0x71374491, 0xb5c0fbcf, 0xe9b5dba5, 0x3956c25b, 0x59f111f1, 0x923f82a4, 0xab1c5ed5,
   0xd807aa98, 0x12835b01, 0x243185be, 0x550c7dc3, 0x72be5d74, 0x80deb1fe, 0x9bdc06a7, 0xc19bf174,
   0xe49b69c1, 0xefbe4786, 0x0fc19dc6, 0x240ca1cc, 0x2de92c6f, 0x4a7484aa, 0x5cb0a9dc, 0x76f988da,
   0x983e5152, 0xa831c66d, 0xb00327c8, 0xbf597fc7, 0xc6e00bf3, 0xd5a79147, 0x06ca6351, 0x14292967,
   0x27b70a85, 0x2e1b2138, 0x4d2c6dfc, 0x53380d13, 0x650a7354, 0x766a0abb, 0x81c2c92e, 0x92722c85,
   0xa2bfe8a1, 0xa81a664b, 0xc24b8b70, 0xc76c51a3, 0xd192e819, 0xd6990624, 0xf40e3585, 0x106aa070,
   0x19a4c116, 0x1e376c08, 0x2748774c, 0x34b0bcb5, 0x391c0cb3, 0x4ed8aa4a, 0x5b9cca4f, 0x682e6ff3,
   0x748f82ee, 0x78a5636f, 0x84c87814, 0x8cc70208, 0x90befffa, 0xa4506ceb, 0xbef9a3f7, 0xc67178f2]

/-- The eight words of the state. -/
structure State where
  (a b c d e f g h : ℕ)

/-- The initial state. -/
def initial : State :=
  ⟨0x6a09e667, 0xbb67ae85, 0x3c6ef372, 0xa54ff53a, 0x510e527f, 0x9b05688c, 0x1f83d9ab, 0x5be0cd19⟩

/-- One round, `kw` the round constant plus the word of the schedule. -/
def round (s : State) (kw : ℕ) : State :=
  let ch := (s.e &&& s.f) ^^^ ((word - 1 - s.e) &&& s.g)
  let maj := (s.a &&& s.b) ^^^ (s.a &&& s.c) ^^^ (s.b &&& s.c)
  let t₁ := s.h + (rotr 6 s.e ^^^ rotr 11 s.e ^^^ rotr 25 s.e) + ch + kw
  let t₂ := (rotr 2 s.a ^^^ rotr 13 s.a ^^^ rotr 22 s.a) + maj
  ⟨(t₁ + t₂) % word, s.a, s.b, s.c, (s.d + t₁) % word, s.e, s.f, s.g⟩

/-- The rounds of a block: one for each constant, over a window of sixteen
words of the schedule that moves by one word a round. -/
def rounds : List ℕ → List ℕ → State → State
  | k :: ks, w₀ :: w₁ :: w₂ :: w₃ :: w₄ :: w₅ :: w₆ :: w₇ :: w₈ :: w₉ :: w₁₀ :: w₁₁ :: w₁₂ :: w₁₃ :: w₁₄ :: w₁₅ :: _, s =>
    let σ₀ := rotr 7 w₁ ^^^ rotr 18 w₁ ^^^ (w₁ >>> 3)
    let σ₁ := rotr 17 w₁₄ ^^^ rotr 19 w₁₄ ^^^ (w₁₄ >>> 10)
    rounds ks [w₁, w₂, w₃, w₄, w₅, w₆, w₇, w₈, w₉, w₁₀, w₁₁, w₁₂, w₁₃, w₁₄, w₁₅, (σ₁ + w₉ + σ₀ + w₀) % word]
      (round s (k + w₀))
  | _, _, s => s

/-- The sum of two states, word by word. -/
def State.add (s t : State) : State :=
  ⟨(s.a + t.a) % word, (s.b + t.b) % word, (s.c + t.c) % word, (s.d + t.d) % word,
    (s.e + t.e) % word, (s.f + t.f) % word, (s.g + t.g) % word, (s.h + t.h) % word⟩

/-- The state after `n` blocks. -/
def blocks : ℕ → List ℕ → State → State
  | 0, _, s => s
  | n + 1, ws, s => blocks n (ws.drop 16) (s.add (rounds constants (ws.take 16) s))

/-- The four bytes of a word, the highest first. -/
def wordBytes (w : ℕ) : Bytes :=
  [UInt8.ofNat (w / 16777216), UInt8.ofNat (w / 65536), UInt8.ofNat (w / 256), UInt8.ofNat w]

/-- The words of a byte string, the highest byte first. -/
def words : Bytes → List ℕ
  | a :: b :: c :: d :: r =>
    (a.toNat * 16777216 + b.toNat * 65536 + c.toNat * 256 + d.toNat) :: words r
  | _ => []

/-- The message, a one bit, zeros, and the length in bits as 64 bits. -/
def pad (m : Bytes) : Bytes :=
  m ++ 128 :: List.replicate ((119 - m.length % 64) % 64) 0 ++
    (wordBytes (8 * m.length / word) ++ wordBytes (8 * m.length))

/-- The bytes of the state. -/
def State.bytes (s : State) : Bytes :=
  wordBytes s.a ++ wordBytes s.b ++ wordBytes s.c ++ wordBytes s.d ++ wordBytes s.e ++ wordBytes s.f ++
    wordBytes s.g ++ wordBytes s.h

end Sha256

open Sha256

/-- `hashlib.sha256(m).digest()`. -/
def sha256 (m : Bytes) : Bytes := (blocks ((pad m).length / 64) (words (pad m)) initial).bytes

@[simp] theorem sha256_length (m : Bytes) : (sha256 m).length = 32 := by
  simp [sha256, State.bytes, wordBytes]

/-- The test vector of FIPS 180-4. -/
example : toHex (sha256 (utf8 "abc")) =
    "ba7816bf8f01cfea414140de5dae2223b00361a396177a9cb410ff61f20015ad" := by decide +kernel

attribute [irreducible] sha256

/-- `hashlib.sha256(s.encode("utf-8")).hexdigest()`. -/
def sha256Hex (s : String) : String := toHex (sha256 (utf8 s))

@[simp] theorem sha256Hex_length (s : String) : (sha256Hex s).length = 64 := by simp [sha256Hex]

@[simp] theorem lower_sha256Hex (s : String) : lower (sha256Hex s) = sha256Hex s := lower_toHex _

theorem sha256Hex_lower (s : String) : (sha256Hex s).toList.all isLowerHex = true := toHex_lower _

@[simp] theorem intBase16_sha256Hex (s : String) : intBase16 (sha256Hex s) = true :=
  intBase16_toHex fun h => by simpa [h] using sha256_length (utf8 s)

@[simp] theorem fromHex_sha256Hex (s : String) : fromHex (sha256Hex s) = some (sha256 (utf8 s)) :=
  fromHex_toHex _

/-- No two of the texts have one digest. -/
def CollisionFree (texts : Set String) : Prop := Set.InjOn sha256Hex texts

theorem CollisionFree.mono {s t : Set String} (h : CollisionFree t) (hst : s ⊆ t) : CollisionFree s :=
  Set.InjOn.mono hst h

/-! ### The bytes of a canonical text -/

/-- A byte that is a character by itself, which JSON writes as it is. -/
def plainByte (b : UInt8) : Bool := 32 ≤ b.toNat && b.toNat < 127 && b.toNat != 34 && b.toNat != 92

/-- The bytes of a text up to and with its closing quotation mark, if all are plain. -/
def plainRun : Bytes → Option Bytes
  | [] => some [34]
  | b :: bs => if plainByte b then (plainRun bs).map (b :: ·) else none

/-- A text between quotation marks, in UTF-8, if all its bytes are plain. -/
def plainStr (s : String) : Option Bytes := (plainRun (utf8 s)).map (34 :: ·)

mutual
/-- A value as compact JSON text, in UTF-8, if all its texts are plain.  The texts are not
decoded, so a digest is computed from it faster than from `render`. -/
def plainBytes : Json → Option Bytes
  | .str s => plainStr s
  | .arr [] => some [91, 93]
  | .arr (x :: xs) => (plainBytes x).bind fun b => (plainItems xs).map fun bs => 91 :: (b ++ bs)
  | .obj [] => some [123, 125]
  | .obj ((k, x) :: kvs) => (plainStr k).bind fun l => (plainBytes x).bind fun b =>
      (plainMembers kvs).map fun bs => 123 :: (l ++ 58 :: (b ++ bs))
  | j => some ((render j).flatMap String.utf8EncodeChar)

/-- `plainBytes` of the items after the first. -/
def plainItems : List Json → Option Bytes
  | [] => some [93]
  | x :: xs => (plainBytes x).bind fun b => (plainItems xs).map fun bs => 44 :: (b ++ bs)

/-- `plainBytes` of the members after the first. -/
def plainMembers : List (String × Json) → Option Bytes
  | [] => some [125]
  | (k, x) :: kvs => (plainStr k).bind fun l => (plainBytes x).bind fun b =>
      (plainMembers kvs).map fun bs => 44 :: (l ++ 58 :: (b ++ bs))
end

theorem plainByte_ofNat {n : ℕ} (hn : n < 256) (h : plainByte (UInt8.ofNat n) = true) :
    32 ≤ n ∧ n < 127 ∧ n ≠ 34 ∧ n ≠ 92 := by
  simpa [plainByte, Nat.mod_eq_of_lt hn, and_assoc] using h

theorem escapeChar_of_plain {c : Char} (h : ∀ b ∈ String.utf8EncodeChar c, plainByte b = true) : escapeChar c = [c] := by
  have hc : 32 ≤ c.toNat ∧ c.toNat < 127 ∧ c.toNat ≠ 34 ∧ c.toNat ≠ 92 := by
    have hv : c.val.toNat = c.toNat := rfl
    -- the first byte of two or more is not below 128
    revert h
    fun_cases String.utf8EncodeChar c with
    | case1 v hle => exact fun h => plainByte_ofNat (by omega) (h _ (List.mem_singleton_self _))
    | case2 v _ hle =>
      intro h
      have := plainByte_ofNat (by omega) (h _ (List.mem_cons_self ..))
      omega
    | case3 v _ _ hle =>
      intro h
      have := plainByte_ofNat (by omega) (h _ (List.mem_cons_self ..))
      omega
    | case4 v _ _ _ =>
      intro h
      have := plainByte_ofNat (by omega) (h _ (List.mem_cons_self ..))
      omega
  have hne : ∀ d : Char, d.toNat < 32 ∨ d.toNat = 34 ∨ d.toNat = 92 → c ≠ d := by
    rintro d hd rfl
    omega
  rw [escapeChar, if_neg (hne _ (by decide)), if_neg (hne _ (by decide)), if_neg (hne _ (by decide)),
    if_neg (hne _ (by decide)), if_neg (hne _ (by decide)), if_neg (hne _ (by decide)), if_neg (hne _ (by decide)),
    if_neg (by omega)]

theorem plainRun_eq_some {bs out : Bytes} (h : plainRun bs = some out) : bs.all plainByte = true ∧ out = bs ++ [34] := by
  induction bs generalizing out with
  | nil => exact ⟨rfl, (Option.some.inj h).symm⟩
  | cons b bs ih =>
    rw [plainRun] at h
    split_ifs at h with hb
    obtain ⟨rest, hrest, rfl⟩ := Option.map_eq_some_iff.1 h
    obtain ⟨hall, rfl⟩ := ih hrest
    exact ⟨by rw [List.all_cons, hb, hall]; rfl, rfl⟩

theorem flatMap_renderStr {s : String} {bs : Bytes} (h : plainStr s = some bs) :
    (renderStr s).flatMap String.utf8EncodeChar = bs := by
  obtain ⟨run, hrun, rfl⟩ := Option.map_eq_some_iff.1 h
  obtain ⟨hall, rfl⟩ := plainRun_eq_some hrun
  have hs : utf8 s = s.toList.flatMap String.utf8EncodeChar := by rw [← utf8_ofList, String.ofList_toList]
  rw [hs, List.all_flatMap, List.all_eq_true] at hall
  have hchars : ∀ cs : List Char, (∀ c ∈ cs, (String.utf8EncodeChar c).all plainByte = true) →
      (renderChars cs).flatMap String.utf8EncodeChar = cs.flatMap String.utf8EncodeChar ++ [34] := by
    intro cs hcs
    induction cs with
    | nil => rfl
    | cons c cs ih =>
      rw [renderChars, escapeChar_of_plain (List.all_eq_true.1 (hcs c (by simp))), List.singleton_append,
        List.flatMap_cons, List.flatMap_cons, ih fun d hd => hcs d (by simp [hd]), List.append_assoc]
  rw [renderStr, List.flatMap_cons, hchars _ hall, hs]
  rfl

theorem flatMap_render {j : Json} : ∀ {bs : Bytes}, plainBytes j = some bs →
    (render j).flatMap String.utf8EncodeChar = bs := by
  induction j using Json.induct with
  | str s => exact flatMap_renderStr
  | arr xs ih =>
    have hitems : ∀ ys : List Json, (∀ y ∈ ys, y ∈ xs) → ∀ {bs : Bytes}, plainItems ys = some bs →
        (renderItems ys).flatMap String.utf8EncodeChar = bs := by
      intro ys hys
      induction ys with
      | nil => rintro _ ⟨⟩; rfl
      | cons y ys ihy =>
        intro bs h
        rw [plainItems] at h
        obtain ⟨b, hb, h⟩ := Option.bind_eq_some_iff.1 h
        obtain ⟨rest, hrest, rfl⟩ := Option.map_eq_some_iff.1 h
        rw [renderItems, List.flatMap_cons, List.flatMap_append, ih y (hys y (by simp)) hb,
          ihy (fun z hz => hys z (by simp [hz])) hrest]
        rfl
    cases xs with
    | nil => rintro _ ⟨⟩; rfl
    | cons x xs =>
      intro bs h
      rw [plainBytes] at h
      obtain ⟨b, hb, h⟩ := Option.bind_eq_some_iff.1 h
      obtain ⟨rest, hrest, rfl⟩ := Option.map_eq_some_iff.1 h
      rw [render, List.flatMap_cons, List.flatMap_append, ih x (by simp) hb,
        hitems xs (fun y hy => by simp [hy]) hrest]
      rfl
  | obj kvs ih =>
    have hmembers : ∀ ms : List (String × Json), (∀ m ∈ ms, m ∈ kvs) → ∀ {bs : Bytes}, plainMembers ms = some bs →
        (renderMembers ms).flatMap String.utf8EncodeChar = bs := by
      intro ms hms
      induction ms with
      | nil => rintro _ ⟨⟩; rfl
      | cons m ms ihm =>
        obtain ⟨k, x⟩ := m
        intro bs h
        rw [plainMembers] at h
        obtain ⟨l, hl, h⟩ := Option.bind_eq_some_iff.1 h
        obtain ⟨b, hb, h⟩ := Option.bind_eq_some_iff.1 h
        obtain ⟨rest, hrest, rfl⟩ := Option.map_eq_some_iff.1 h
        rw [renderMembers, List.flatMap_cons, List.flatMap_append, flatMap_renderStr hl, List.flatMap_cons,
          List.flatMap_append, ih (k, x) (hms _ (by simp)) hb, ihm (fun z hz => hms z (by simp [hz])) hrest]
        rfl
    cases kvs with
    | nil => rintro _ ⟨⟩; rfl
    | cons m kvs =>
      obtain ⟨k, x⟩ := m
      intro bs h
      rw [plainBytes] at h
      obtain ⟨l, hl, h⟩ := Option.bind_eq_some_iff.1 h
      obtain ⟨b, hb, h⟩ := Option.bind_eq_some_iff.1 h
      obtain ⟨rest, hrest, rfl⟩ := Option.map_eq_some_iff.1 h
      rw [render, List.flatMap_cons, List.flatMap_append, flatMap_renderStr hl, List.flatMap_cons,
        List.flatMap_append, ih (k, x) (by simp) hb, hmembers kvs (fun y hy => by simp [hy]) hrest]
      rfl
  | _ =>
    intro bs h
    rw [plainBytes] at h
    exact Option.some.inj h
    all_goals simp

/-- **The digest of a canonical text**, computed from the bytes of its texts. -/
theorem sha256_dumps {j : Json} {d : Bytes} (h : (plainBytes j.canon).map sha256 = some d) :
    sha256 (utf8 (dumps j)) = d := by
  obtain ⟨bs, hbs, rfl⟩ := Option.map_eq_some_iff.1 h
  rw [dumps, utf8_ofList, flatMap_render hbs]

/-- Its first byte, which tells two digests apart. -/
theorem sha256_dumps_head {j : Json} {b : UInt8} (h : (plainBytes j.canon).bind (sha256 · |>.head?) = some b) :
    (sha256 (utf8 (dumps j))).head? = some b := by
  obtain ⟨bs, hbs, hb⟩ := Option.bind_eq_some_iff.1 h
  rw [dumps, utf8_ofList, flatMap_render hbs, hb]

end ProvableAi
