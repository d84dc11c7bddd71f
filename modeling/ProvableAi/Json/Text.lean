/-
# Writing and reading JSON

`json.dumps(…, sort_keys=True, separators=(",", ":"), ensure_ascii=False)` and
`json.loads`, on lists of characters.

The writer (`render`) puts no white space anywhere, escapes in a string only
the quotation mark, the backslash and the control characters below `U+0020`
(`\n`, `\r`, `\t`, `\f`, `\b`, else `\u00XX`), and writes an integer in decimal.
`dumps` sorts the members of every object first.

The reader (`loads`) takes any JSON text: white space between tokens, all the
escapes, surrogate pairs.  Its recursion is on a fuel that the length of the
text bounds.  An object that repeats a key keeps the last value, as `dict`
does.  A lone surrogate, which a Lean string cannot hold, is refused.

`loads_render` is the round trip: reading what was written gives the value
back, member order included.  `dumps_inj` is what the hashes rest on: two
values are written alike by `dumps` exactly when they are equal as JSON.
-/

import ProvableAi.Json.Value
import Mathlib.Data.List.TakeWhile

namespace ProvableAi

/-! ### Writing -/

/-- The lower-case hexadecimal digit of `n < 16`. -/
def hexDigit (n : ℕ) : Char := Nat.digitChar n

/-- How a character stands inside a JSON string under `ensure_ascii=False`. -/
def escapeChar (c : Char) : List Char :=
  if c = '"' then ['\\', '"']
  else if c = '\\' then ['\\', '\\']
  else if c = '\n' then ['\\', 'n']
  else if c = '\r' then ['\\', 'r']
  else if c = '\t' then ['\\', 't']
  else if c = Char.ofNat 12 then ['\\', 'f']
  else if c = Char.ofNat 8 then ['\\', 'b']
  else if c.toNat < 32 then ['\\', 'u', '0', '0', hexDigit (c.toNat / 16), hexDigit (c.toNat % 16)]
  else [c]

/-- The characters of a string up to and with its closing quotation mark. -/
def renderChars : List Char → List Char
  | [] => ['"']
  | c :: cs => escapeChar c ++ renderChars cs

/-- A string between quotation marks. -/
def renderStr (s : String) : List Char := '"' :: renderChars s.toList

/-- An integer in decimal. -/
def renderInt (n : ℤ) : List Char :=
  if n < 0 then '-' :: Nat.toDigits 10 n.natAbs else Nat.toDigits 10 n.natAbs

mutual
/-- A value as compact JSON text, the members of an object in their order. -/
def render : Json → List Char
  | .null => ['n', 'u', 'l', 'l']
  | .bool true => ['t', 'r', 'u', 'e']
  | .bool false => ['f', 'a', 'l', 's', 'e']
  | .int n => renderInt n
  | .float x => x.text
  | .str s => renderStr s
  | .arr [] => ['[', ']']
  | .arr (x :: xs) => '[' :: (render x ++ renderItems xs)
  | .obj [] => ['{', '}']
  | .obj ((k, x) :: kvs) => '{' :: (renderStr k ++ ':' :: (render x ++ renderMembers kvs))

/-- The items after the first, each with the comma before it, and the bracket. -/
def renderItems : List Json → List Char
  | [] => [']']
  | x :: xs => ',' :: (render x ++ renderItems xs)

/-- The members after the first, each with the comma before it, and the brace. -/
def renderMembers : List (String × Json) → List Char
  | [] => ['}']
  | (k, x) :: kvs => ',' :: (renderStr k ++ ':' :: (render x ++ renderMembers kvs))
end

/-- `json.dumps(v, sort_keys=True, separators=(",", ":"), ensure_ascii=False)`. -/
def dumps (v : Json) : String := String.ofList (render v.canon)

/-! ### Reading -/

/-- JSON white space. -/
def isWs (c : Char) : Bool := c == ' ' || c == '\n' || c == '\r' || c == '\t'

/-- What follows the white space. -/
def skipWs (cs : List Char) : List Char := cs.dropWhile isWs

/-- The value of a hexadecimal digit of either case. -/
def hexVal (c : Char) : Option ℕ :=
  if '0' ≤ c ∧ c ≤ '9' then some (c.toNat - 48)
  else if 'a' ≤ c ∧ c ≤ 'f' then some (c.toNat - 87)
  else if 'A' ≤ c ∧ c ≤ 'F' then some (c.toNat - 55)
  else none

/-- Four hexadecimal digits. -/
def hex4 (a b c d : Char) : Option ℕ := do
  let a ← hexVal a
  let b ← hexVal b
  let c ← hexVal c
  let d ← hexVal d
  pure (4096 * a + 256 * b + 16 * c + d)

/-- The character a one-letter escape stands for. -/
def unescape1 (e : Char) : Option Char :=
  if e = '"' then some '"'
  else if e = '\\' then some '\\'
  else if e = '/' then some '/'
  else if e = 'n' then some '\n'
  else if e = 'r' then some '\r'
  else if e = 't' then some '\t'
  else if e = 'f' then some (Char.ofNat 12)
  else if e = 'b' then some (Char.ofNat 8)
  else none


/-- The character an escape stands for, after its backslash, and what follows;
two escaped surrogates make one character. -/
def loadEscape : List Char → Option (Char × List Char)
  | 'u' :: a :: b :: c :: d :: r => do
    let hi ← hex4 a b c d
    if 55296 ≤ hi ∧ hi ≤ 56319 then
      match r with
      | '\\' :: 'u' :: e :: f :: g :: h :: r => do
        let lo ← hex4 e f g h
        if 56320 ≤ lo ∧ lo ≤ 57343 then
          pure (Char.ofNat (65536 + 1024 * (hi - 55296) + (lo - 56320)), r)
        else none
      | _ => none
    else if 56320 ≤ hi ∧ hi ≤ 57343 then none
    else pure (Char.ofNat hi, r)
  | e :: r => (unescape1 e).map fun x => (x, r)
  | [] => none

/-- The characters of a string after its opening quotation mark, and what
follows the closing one. -/
def loadChars : ℕ → List Char → Option (List Char × List Char)
  | 0, _ => none
  | _ + 1, [] => none
  | n + 1, c :: r =>
    if c = '"' then some ([], r)
    else if c = '\\' then do
      let (x, r) ← loadEscape r
      let (cs, r) ← loadChars n r
      pure (x :: cs, r)
    else if c.toNat < 32 then none
    else do
      let (cs, r) ← loadChars n r
      pure (c :: cs, r)

/-- An integer literal. -/
def loadInt : List Char → Option ℤ
  | '-' :: ds => if natTok ds then some (-(Nat.ofDigitChars 10 ds 0 : ℤ)) else none
  | ds => if natTok ds then some (Nat.ofDigitChars 10 ds 0 : ℤ) else none

/-- A number literal: a float if it has a fraction or an exponent. -/
def loadNum (t : List Char) : Option Json :=
  if h : t.all isNumChar = true ∧ floatTok t = true then some (.float ⟨t, h.1, h.2⟩)
  else (loadInt t).map .int

/-- `kvs` with the value of `k` set to `v`, as `d[k] = v` does. -/
def setKey (k : String) (v : Json) : List (String × Json) → List (String × Json)
  | [] => [(k, v)]
  | (l, w) :: kvs => if k = l then (l, v) :: kvs else (l, w) :: setKey k v kvs

/-- The object a list of members makes: of two values for a key the last. -/
def ofMembers (kvs : List (String × Json)) : List (String × Json) :=
  kvs.foldl (fun d kv => setKey kv.1 kv.2 d) []

/-- The rest of the text after the literal `w`. -/
def expect (w cs : List Char) : Option (List Char) := if w <+: cs then some (cs.drop w.length) else none

mutual
/-- A value at the head of the text, and what follows it. -/
def loadValue : ℕ → List Char → Option (Json × List Char)
  | 0, _ => none
  | n + 1, cs =>
    match skipWs cs with
    | [] => none
    | c :: r =>
      if c = '"' then (loadChars (r.length + 1) r).map fun (s, r) => (.str (String.ofList s), r)
      else if c = '[' then
        match skipWs r with
        | ']' :: r => some (.arr [], r)
        | r => do
          let (x, r) ← loadValue n r
          let (xs, r) ← loadItems n r
          pure (.arr (x :: xs), r)
      else if c = '{' then
        match skipWs r with
        | '}' :: r => some (.obj [], r)
        | r => do
          let (kv, r) ← loadMember n r
          let (kvs, r) ← loadMembers n r
          pure (.obj (ofMembers (kv :: kvs)), r)
      else if c = 'n' then (expect ['u', 'l', 'l'] r).map fun r => (.null, r)
      else if c = 't' then (expect ['r', 'u', 'e'] r).map fun r => (.bool true, r)
      else if c = 'f' then (expect ['a', 'l', 's', 'e'] r).map fun r => (.bool false, r)
      else (loadNum ((c :: r).takeWhile isNumChar)).map fun v => (v, (c :: r).dropWhile isNumChar)

/-- The items after the first, up to and with the closing bracket. -/
def loadItems : ℕ → List Char → Option (List Json × List Char)
  | 0, _ => none
  | n + 1, cs =>
    match skipWs cs with
    | ']' :: r => some ([], r)
    | ',' :: r => do
      let (x, r) ← loadValue n r
      let (xs, r) ← loadItems n r
      pure (x :: xs, r)
    | _ => none

/-- A key, a colon and a value. -/
def loadMember : ℕ → List Char → Option ((String × Json) × List Char)
  | 0, _ => none
  | n + 1, cs =>
    match skipWs cs with
    | '"' :: r => do
      let (k, r) ← loadChars (r.length + 1) r
      match skipWs r with
      | ':' :: r => do
        let (x, r) ← loadValue n r
        pure ((String.ofList k, x), r)
      | _ => none
    | _ => none

/-- The members after the first, up to and with the closing brace. -/
def loadMembers : ℕ → List Char → Option (List (String × Json) × List Char)
  | 0, _ => none
  | n + 1, cs =>
    match skipWs cs with
    | '}' :: r => some ([], r)
    | ',' :: r => do
      let (kv, r) ← loadMember n r
      let (kvs, r) ← loadMembers n r
      pure (kv :: kvs, r)
    | _ => none
end

/-- `json.loads`: one value, and nothing but white space around it. -/
def loads (s : String) : Option Json :=
  match loadValue (s.toList.length + 1) s.toList with
  | some (v, r) => if skipWs r = [] then some v else none
  | none => none

/-! ### Strings are read back -/

theorem hexVal_hexDigit : ∀ n < 16, hexVal (hexDigit n) = some n := by decide

theorem loadEscape_control {c : Char} (h : c.toNat < 32) (r : List Char) :
    loadEscape ('u' :: '0' :: '0' :: hexDigit (c.toNat / 16) :: hexDigit (c.toNat % 16) :: r) =
      some (c, r) := by
  have h₁ := hexVal_hexDigit (c.toNat / 16) (by omega)
  have h₂ := hexVal_hexDigit (c.toNat % 16) (by omega)
  have h₀ : hexVal '0' = some 0 := by decide
  have hn : 4096 * 0 + 256 * 0 + 16 * (c.toNat / 16) + c.toNat % 16 = c.toNat := by omega
  simp only [loadEscape, hex4, h₀, h₁, h₂, Option.bind_eq_bind, Option.bind_some, Option.pure_def, hn]
  rw [if_neg (by omega), if_neg (by omega), Char.ofNat_toNat]

/-- One character of a string is read back, whatever its escape. -/
theorem loadChars_escapeChar (c : Char) (n : ℕ) (r : List Char) :
    loadChars (n + 1) (escapeChar c ++ r) =
      (loadChars n r).bind fun p => some (c :: p.1, p.2) := by
  by_cases h₁ : c = '"'
  · subst h₁; simp [escapeChar, loadChars, loadEscape, unescape1]
  by_cases h₂ : c = '\\'
  · subst h₂; simp [escapeChar, loadChars, loadEscape, unescape1]
  by_cases h₃ : c = '\n'
  · subst h₃; simp [escapeChar, loadChars, loadEscape, unescape1]
  by_cases h₄ : c = '\r'
  · subst h₄; simp [escapeChar, loadChars, loadEscape, unescape1]
  by_cases h₅ : c = '\t'
  · subst h₅; simp [escapeChar, loadChars, loadEscape, unescape1]
  by_cases h₆ : c = Char.ofNat 12
  · subst h₆; simp [escapeChar, loadChars, loadEscape, unescape1]
  by_cases h₇ : c = Char.ofNat 8
  · subst h₇; simp [escapeChar, loadChars, loadEscape, unescape1]
  by_cases h₈ : c.toNat < 32
  · have he : escapeChar c = ['\\', 'u', '0', '0', hexDigit (c.toNat / 16), hexDigit (c.toNat % 16)] := by
      simp only [escapeChar, if_neg h₁, if_neg h₂, if_neg h₃, if_neg h₄, if_neg h₅, if_neg h₆,
        if_neg h₇, if_pos h₈]
    simp [he, loadChars, loadEscape_control h₈]
  · have he : escapeChar c = [c] := by
      simp only [escapeChar, if_neg h₁, if_neg h₂, if_neg h₃, if_neg h₄, if_neg h₅, if_neg h₆,
        if_neg h₇, if_neg h₈]
    simp only [he, List.singleton_append, loadChars, if_neg h₁, if_neg h₂, if_neg h₈]
    rfl

theorem escapeChar_length (c : Char) : 1 ≤ (escapeChar c).length := by
  unfold escapeChar; split_ifs <;> simp

/-- **A string is read back.** -/
theorem loadChars_renderChars (cs r : List Char) :
    ∀ n, (renderChars cs).length ≤ n → loadChars n (renderChars cs ++ r) = some (cs, r) := by
  induction cs with
  | nil =>
    intro n hn
    obtain ⟨m, rfl⟩ := Nat.exists_eq_add_of_le' hn
    simp [renderChars, loadChars]
  | cons c cs ih =>
    intro n hn
    have h₁ := escapeChar_length c
    rw [renderChars, List.length_append] at hn
    obtain ⟨m, rfl⟩ := Nat.exists_eq_add_of_le' (show 1 ≤ n by omega)
    rw [renderChars, List.append_assoc, loadChars_escapeChar, ih m (by omega)]
    rfl

/-! ### Numbers are read back -/

theorem isDigit_isNumChar {c : Char} (h : c.isDigit = true) : isNumChar c = true := by
  simp [isNumChar, h]

/-- A positive number is written without a leading zero. -/
theorem toDigits_pos {n : ℕ} (h : 0 < n) : ∃ c cs, Nat.toDigits 10 n = c :: cs ∧ c.isDigit = true ∧
    c ≠ '0' ∧ cs.all Char.isDigit = true := by
  induction n using Nat.strong_induction_on with
  | _ n ih =>
    by_cases hn : n < 10
    · have hdig : ∀ m < 10, 0 < m → m.digitChar.isDigit = true ∧ m.digitChar ≠ '0' := by decide
      exact ⟨n.digitChar, [], Nat.toDigits_of_lt_base hn, (hdig n hn h).1, (hdig n hn h).2, rfl⟩
    · obtain ⟨c, cs, he, hd, h0, hall⟩ := ih (n / 10) (by omega) (by omega)
      have hm : (n % 10).digitChar.isDigit = true :=
        Nat.isDigit_of_mem_toDigits (b := 10) (n := n % 10) (by omega) (by omega)
          (by rw [Nat.toDigits_of_lt_base (by omega)]; simp)
      refine ⟨c, cs ++ [(n % 10).digitChar], ?_, hd, h0, by simp [hall, hm]⟩
      rw [Nat.toDigits_of_base_le (by omega) (by omega), he, List.cons_append]

theorem toDigits_all (n : ℕ) : (Nat.toDigits 10 n).all Char.isDigit = true :=
  List.all_eq_true.2 fun _ hc => Nat.isDigit_of_mem_toDigits (by omega) (by omega) hc

theorem natTok_toDigits (n : ℕ) : natTok (Nat.toDigits 10 n) = true := by
  rcases Nat.eq_zero_or_pos n with rfl | h
  · simp [natTok]
  · obtain ⟨c, cs, he, hd, h0, hall⟩ := toDigits_pos h
    rw [he, natTok.eq_3 c cs (fun hc _ => h0 hc)]
    simp [hd, h0, hall]

/-- Digits alone are not a float. -/
theorem floatTok_digits {ds : List Char} (h : ds.all Char.isDigit = true) : floatTok ds = false := by
  have hu : unsigned ds = ds := by
    unfold unsigned
    split
    · simp at h
    · rfl
  have hd : ds.dropWhile Char.isDigit = [] := List.dropWhile_eq_nil_iff.2 (List.all_eq_true.1 h)
  simp [floatTok, hu, hd, expTok]

theorem floatTok_neg {ds : List Char} (h : ds.all Char.isDigit = true) :
    floatTok ('-' :: ds) = false := by
  have hd : ds.dropWhile Char.isDigit = [] := List.dropWhile_eq_nil_iff.2 (List.all_eq_true.1 h)
  simp [floatTok, unsigned, hd, expTok]

theorem loadInt_toDigits (n : ℕ) : loadInt (Nat.toDigits 10 n) = some (n : ℤ) := by
  have hne : ∀ r, Nat.toDigits 10 n ≠ '-' :: r := by
    intro r hr
    have := toDigits_all n
    rw [hr] at this
    simp at this
  unfold loadInt
  split
  · rename_i ds heq; exact absurd heq (hne ds)
  · rw [if_pos (natTok_toDigits n), Nat.ofDigitChars_toDigits (by omega) (by omega)]

/-- **An integer is read back.** -/
theorem loadNum_renderInt (n : ℤ) : loadNum (renderInt n) = some (.int n) := by
  have hall := toDigits_all n.natAbs
  unfold loadNum renderInt
  split_ifs with hn h h
  · rw [floatTok_neg hall] at h; simp at h
  · simp only [loadInt, natTok_toDigits, if_true, Nat.ofDigitChars_toDigits (b := 10) (by omega) (by omega),
      Option.map_some]
    congr 2; omega
  · rw [floatTok_digits hall] at h; simp at h
  · rw [loadInt_toDigits, Option.map_some]
    congr 2; omega

theorem renderInt_ne_nil (n : ℤ) : renderInt n ≠ [] := by
  unfold renderInt
  split_ifs
  · simp
  · exact Nat.toDigits_ne_nil

theorem renderInt_numeric (n : ℤ) : (renderInt n).all isNumChar = true := by
  have h : (Nat.toDigits 10 n.natAbs).all isNumChar = true :=
    List.all_eq_true.2 fun c hc => isDigit_isNumChar (List.all_eq_true.1 (toDigits_all _) c hc)
  unfold renderInt
  split_ifs
  · simpa using ⟨by decide, by simpa using h⟩
  · exact h

theorem FloatLit.text_ne_nil (x : FloatLit) : x.text ≠ [] := by
  intro h
  have := x.float
  rw [h] at this
  exact absurd this (by decide)

theorem loadNum_float (x : FloatLit) : loadNum x.text = some (.float x) := by
  rw [loadNum, dif_pos ⟨x.numeric, x.float⟩]

/-! ### Values are read back -/

/-- The text does not go on with a character of a number. -/
def Delim (r : List Char) : Prop := ∀ c ∈ r.head?, isNumChar c = false

/-- A number token ends where its characters end. -/
theorem takeWhile_num {t r : List Char} (ht : t.all isNumChar = true) (hr : Delim r) :
    (t ++ r).takeWhile isNumChar = t ∧ (t ++ r).dropWhile isNumChar = r := by
  have hall : ∀ c ∈ t, isNumChar c = true := List.all_eq_true.1 ht
  have hr' : r.takeWhile isNumChar = [] ∧ r.dropWhile isNumChar = r := by
    cases r with
    | nil => simp
    | cons c r => have := hr c (by simp); simp [this]
  rw [List.takeWhile_append_of_pos hall, List.dropWhile_append_of_pos hall, hr'.1, hr'.2]
  simp

theorem numChar_ne {c d : Char} (hc : isNumChar c = true) (hd : isNumChar d = false) : c ≠ d := by
  rintro rfl
  rw [hc] at hd
  exact absurd hd (by decide)

theorem skipWs_cons {c : Char} (h : isWs c = false) (r : List Char) : skipWs (c :: r) = c :: r := by
  simp [skipWs, h]

theorem numChar_not_ws {c : Char} (hc : isNumChar c = true) : isWs c = false := by
  have h₁ := numChar_ne hc (d := ' ') (by decide)
  have h₂ := numChar_ne hc (d := '\n') (by decide)
  have h₃ := numChar_ne hc (d := '\r') (by decide)
  have h₄ := numChar_ne hc (d := '\t') (by decide)
  simp [isWs, h₁, h₂, h₃, h₄]

/-- A number is read back where the text does not go on with it. -/
theorem loadValue_num {t r : List Char} {v : Json} (ht : t.all isNumChar = true) (hne : t ≠ [])
    (hv : loadNum t = some v) (hr : Delim r) (n : ℕ) : loadValue (n + 1) (t ++ r) = some (v, r) := by
  obtain ⟨h₁, h₂⟩ := takeWhile_num ht hr
  obtain ⟨c, t, rfl⟩ := List.exists_cons_of_ne_nil hne
  have hc : isNumChar c = true := List.all_eq_true.1 ht c (by simp)
  rw [loadValue, List.cons_append, skipWs_cons (numChar_not_ws hc)]
  rw [List.cons_append] at h₁ h₂
  simp only [if_neg (numChar_ne hc (d := '"') (by decide)), if_neg (numChar_ne hc (d := '[') (by decide)),
    if_neg (numChar_ne hc (d := '{') (by decide)), if_neg (numChar_ne hc (d := 'n') (by decide)),
    if_neg (numChar_ne hc (d := 't') (by decide)), if_neg (numChar_ne hc (d := 'f') (by decide)),
    h₁, h₂, hv, Option.map_some]

/-- The first character of a value: no white space, and none that ends an array
or an object. -/
theorem render_head (j : Json) : ∃ c t, render j = c :: t ∧ isWs c = false ∧ c ≠ ']' ∧ c ≠ '}' := by
  have num : ∀ {t : List Char}, t.all isNumChar = true → t ≠ [] →
      ∃ c t', t = c :: t' ∧ isWs c = false ∧ c ≠ ']' ∧ c ≠ '}' := by
    intro t ht hne
    obtain ⟨c, t, rfl⟩ := List.exists_cons_of_ne_nil hne
    have hc : isNumChar c = true := List.all_eq_true.1 ht c (by simp)
    exact ⟨c, t, rfl, numChar_not_ws hc, numChar_ne hc (by decide), numChar_ne hc (by decide)⟩
  cases j with
  | null => exact ⟨'n', _, by rw [render], by decide⟩
  | bool b => cases b <;> exact ⟨_, _, by rw [render], by decide⟩
  | int n => rw [render]; exact num (renderInt_numeric n) (renderInt_ne_nil n)
  | float x => rw [render]; exact num x.numeric x.text_ne_nil
  | str s => exact ⟨'"', _, by rw [render, renderStr], by decide⟩
  | arr xs => cases xs <;> exact ⟨'[', _, by rw [render], by decide⟩
  | obj kvs => cases kvs <;> exact ⟨'{', _, by rw [render], by decide⟩

theorem setKey_new {k : String} {v : Json} {kvs : List (String × Json)}
    (h : k ∉ kvs.map Prod.fst) : setKey k v kvs = kvs ++ [(k, v)] := by
  induction kvs with
  | nil => rfl
  | cons kv kvs ih =>
    obtain ⟨l, w⟩ := kv
    simp only [List.map_cons, List.mem_cons, not_or] at h
    simp [setKey, h.1, ih h.2]

/-- Members without a repeated key are the object they make. -/
theorem ofMembers_eq {kvs : List (String × Json)} (h : (kvs.map Prod.fst).Nodup) :
    ofMembers kvs = kvs := by
  have go : ∀ (kvs d : List (String × Json)), ((d ++ kvs).map Prod.fst).Nodup →
      kvs.foldl (fun d kv => setKey kv.1 kv.2 d) d = d ++ kvs := by
    intro kvs
    induction kvs with
    | nil => simp
    | cons kv kvs ih =>
      intro d hd
      have hk : kv.1 ∉ d.map Prod.fst := by
        rw [List.map_append, List.map_cons] at hd
        intro hm
        exact (List.nodup_append.1 hd).2.2 _ hm _ (by simp) rfl
      rw [List.foldl_cons, setKey_new hk, ih _ (by simpa using hd)]
      simp
  exact (go kvs [] (by simpa using h)).trans (List.nil_append _)

theorem delim_of_head {c : Char} {r : List Char} (h : isNumChar c = false) : Delim (c :: r) := by
  intro d hd
  obtain rfl := Option.some.inj hd
  exact h

/-- What `loadValue` owes for one value, at every fuel and before every text. -/
def ReadsBack (j : Json) : Prop :=
  ∀ n r, (render j).length ≤ n → Delim r → loadValue n (render j ++ r) = some (j, r)

theorem renderItems_head (xs : List Json) (r : List Char) : Delim (renderItems xs ++ r) := by
  cases xs <;> exact delim_of_head (by decide)

theorem renderMembers_head (kvs : List (String × Json)) (r : List Char) :
    Delim (renderMembers kvs ++ r) := by
  cases kvs with
  | nil => exact delim_of_head (by decide)
  | cons kv kvs => obtain ⟨k, v⟩ := kv; exact delim_of_head (by decide)

theorem loadItems_renderItems {xs : List Json} (h : ∀ x ∈ xs, ReadsBack x) :
    ∀ n r, (renderItems xs).length ≤ n → loadItems n (renderItems xs ++ r) = some (xs, r) := by
  induction xs with
  | nil =>
    intro n r hn
    obtain ⟨m, rfl⟩ := Nat.exists_eq_add_of_le' (show 1 ≤ n from hn)
    rw [renderItems, List.cons_append, loadItems, skipWs_cons (by decide)]
    rfl
  | cons x xs ih =>
    intro n r hn
    rw [renderItems, List.length_cons, List.length_append] at hn
    obtain ⟨m, rfl⟩ := Nat.exists_eq_add_of_le' (show 1 ≤ n by omega)
    rw [renderItems, List.cons_append, List.append_assoc, loadItems, skipWs_cons (by decide)]
    simp only [h x (by simp) m _ (by omega) (renderItems_head xs r), Option.bind_eq_bind, Option.bind_some,
      ih (fun y hy => h y (List.mem_cons_of_mem _ hy)) m r (by omega), Option.pure_def]

theorem renderStr_append (k : String) (r : List Char) :
    renderStr k ++ r = '"' :: (renderChars k.toList ++ r) := rfl

theorem loadMember_render {k : String} {x : Json} (hx : ReadsBack x) {n : ℕ} {r : List Char}
    (hn : (render x).length + 1 ≤ n) (hr : Delim r) :
    loadMember n (renderStr k ++ ':' :: (render x ++ r)) = some ((k, x), r) := by
  obtain ⟨m, rfl⟩ := Nat.exists_eq_add_of_le' (show 1 ≤ n by omega)
  rw [renderStr_append, loadMember, skipWs_cons (by decide)]
  simp only [loadChars_renderChars k.toList (':' :: (render x ++ r)) _
      (show (renderChars k.toList).length ≤ (renderChars k.toList ++ ':' :: (render x ++ r)).length + 1 by
        rw [List.length_append]; omega),
    Option.bind_eq_bind, Option.bind_some, skipWs_cons (show isWs ':' = false by decide),
    hx m r (by omega) hr, Option.pure_def, String.ofList_toList]

theorem loadMembers_renderMembers {kvs : List (String × Json)} (h : ∀ kv ∈ kvs, ReadsBack kv.2) :
    ∀ n r, (renderMembers kvs).length ≤ n → loadMembers n (renderMembers kvs ++ r) = some (kvs, r) := by
  induction kvs with
  | nil =>
    intro n r hn
    obtain ⟨m, rfl⟩ := Nat.exists_eq_add_of_le' (show 1 ≤ n from hn)
    rw [renderMembers, List.cons_append, loadMembers, skipWs_cons (by decide)]
    rfl
  | cons kv kvs ih =>
    obtain ⟨k, x⟩ := kv
    intro n r hn
    simp only [renderMembers, List.length_cons, List.length_append] at hn
    obtain ⟨m, rfl⟩ := Nat.exists_eq_add_of_le' (show 1 ≤ n by omega)
    rw [renderMembers, List.cons_append, List.append_assoc, List.cons_append, List.append_assoc,
      loadMembers, skipWs_cons (by decide)]
    simp only [loadMember_render (h (k, x) (by simp)) (show (render x).length + 1 ≤ m by omega)
        (renderMembers_head kvs r), Option.bind_eq_bind, Option.bind_some,
      ih (fun y hy => h y (List.mem_cons_of_mem _ hy)) m r (by omega), Option.pure_def]

theorem loadValue_str (s : String) (n : ℕ) (r : List Char) :
    loadValue (n + 1) (renderStr s ++ r) = some (.str s, r) := by
  rw [renderStr_append, loadValue, skipWs_cons (by decide)]
  simp only [if_true, loadChars_renderChars s.toList r _
      (show (renderChars s.toList).length ≤ (renderChars s.toList ++ r).length + 1 by
        rw [List.length_append]; omega),
    Option.map_some, String.ofList_toList]

theorem loadValue_arr {xs : List Json} (h : ∀ x ∈ xs, ReadsBack x) : ReadsBack (.arr xs) := by
  intro n r hn _
  cases xs with
  | nil =>
    obtain ⟨m, rfl⟩ := Nat.exists_eq_add_of_le' (show 1 ≤ n from (by simpa [render] using hn : 2 ≤ n).trans' (by omega))
    rw [render, loadValue, List.cons_append, skipWs_cons (by decide)]
    simp only [Char.reduceEq, if_false, if_true, List.cons_append, skipWs_cons (show isWs ']' = false by decide)]
    rfl
  | cons x xs =>
    rw [render, List.length_cons, List.length_append] at hn
    obtain ⟨m, rfl⟩ := Nat.exists_eq_add_of_le' (show 1 ≤ n by omega)
    obtain ⟨c, t, hc, hws, hb, -⟩ := render_head x
    have hx := h x (by simp) m _ (by omega) (renderItems_head xs r)
    rw [hc, List.cons_append] at hx
    rw [render, loadValue, List.cons_append, List.append_assoc, skipWs_cons (by decide), hc, List.cons_append]
    simp only [Char.reduceEq, if_false, if_true, skipWs_cons hws]
    split
    · rename_i heq; exact absurd (List.cons.inj heq).1 hb
    · simp only [hx, Option.bind_eq_bind, Option.bind_some, Option.pure_def,
        loadItems_renderItems (fun y hy => h y (List.mem_cons_of_mem _ hy)) m r (by omega)]

theorem loadValue_obj {kvs : List (String × Json)} (hn : (kvs.map Prod.fst).Nodup)
    (h : ∀ kv ∈ kvs, ReadsBack kv.2) : ReadsBack (.obj kvs) := by
  intro n r hlen _
  cases kvs with
  | nil =>
    obtain ⟨m, rfl⟩ := Nat.exists_eq_add_of_le' (show 1 ≤ n from (by simpa [render] using hlen : 2 ≤ n).trans' (by omega))
    rw [render, loadValue, List.cons_append, skipWs_cons (by decide)]
    simp only [Char.reduceEq, if_false, if_true, List.cons_append, skipWs_cons (show isWs '}' = false by decide)]
    rfl
  | cons kv kvs =>
    obtain ⟨k, x⟩ := kv
    simp only [render, List.length_cons, List.length_append] at hlen
    obtain ⟨m, rfl⟩ := Nat.exists_eq_add_of_le' (show 1 ≤ n by omega)
    have hx : loadMember m (renderStr k ++ ':' :: (render x ++ (renderMembers kvs ++ r))) =
        some ((k, x), renderMembers kvs ++ r) :=
      loadMember_render (x := x) (h (k, x) (by simp)) (by omega) (renderMembers_head kvs r)
    rw [renderStr_append] at hx
    rw [render, loadValue, List.cons_append, List.append_assoc, List.cons_append, List.append_assoc,
      skipWs_cons (by decide), renderStr_append]
    simp only [Char.reduceEq, if_false, if_true, skipWs_cons (show isWs '"' = false by decide)]
    split
    · rename_i heq; exact absurd (List.cons.inj heq).1 (by decide)
    · simp only [hx, Option.bind_eq_bind, Option.bind_some, Option.pure_def, ofMembers_eq hn,
        loadMembers_renderMembers (fun y hy => h y (List.mem_cons_of_mem _ hy)) m r (by omega)]

/-- **Every value is read back** where the text does not go on with it. -/
theorem loadValue_render {j : Json} (hj : j.wf = true) : ReadsBack j := by
  induction j using Json.induct with
  | null =>
    intro n r hn _
    obtain ⟨m, rfl⟩ := Nat.exists_eq_add_of_le' (show 1 ≤ n from (by simpa [render] using hn : 4 ≤ n).trans' (by omega))
    rw [render, loadValue, List.cons_append, skipWs_cons (by decide)]
    simp [expect]
  | bool b =>
    intro n r hn _
    have hpos : 1 ≤ n := by cases b <;> simp [render] at hn <;> omega
    obtain ⟨m, rfl⟩ := Nat.exists_eq_add_of_le' hpos
    cases b <;>
      · rw [render, loadValue, List.cons_append, skipWs_cons (by decide)]
        simp [expect]
  | int i =>
    intro n r hn hr
    rw [render] at hn ⊢
    have hpos := List.length_pos_iff.2 (renderInt_ne_nil i)
    obtain ⟨m, rfl⟩ := Nat.exists_eq_add_of_le' (show 1 ≤ n by omega)
    exact loadValue_num (renderInt_numeric i) (renderInt_ne_nil i) (loadNum_renderInt i) hr m
  | float x =>
    intro n r hn hr
    rw [render] at hn ⊢
    have hpos := List.length_pos_iff.2 x.text_ne_nil
    obtain ⟨m, rfl⟩ := Nat.exists_eq_add_of_le' (show 1 ≤ n by omega)
    exact loadValue_num x.numeric x.text_ne_nil (loadNum_float x) hr m
  | str s =>
    intro n r hn _
    rw [render] at hn ⊢
    obtain ⟨m, rfl⟩ := Nat.exists_eq_add_of_le' (show 1 ≤ n from (Nat.le_add_left 1 _).trans hn)
    exact loadValue_str s m r
  | arr xs ih => exact loadValue_arr fun x hx => ih x hx ((Json.wf_arr xs).1 hj x hx)
  | obj kvs ih =>
    obtain ⟨hn, hw⟩ := (Json.wf_obj kvs).1 hj
    exact loadValue_obj hn fun kv hkv => ih kv hkv (hw kv hkv)

/-- **The round trip.**  Reading what `render` wrote gives the value back. -/
theorem loads_render {j : Json} (hj : j.wf = true) : loads (String.ofList (render j)) = some j := by
  have h := loadValue_render hj ((render j).length + 1) [] (Nat.le_succ _) (by simp [Delim])
  rw [List.append_nil] at h
  simp [loads, h, skipWs]

/-- Reading what `dumps` wrote gives the value back, its members sorted. -/
theorem loads_dumps {j : Json} (hj : j.wf = true) : loads (dumps j) = some j.canon :=
  loads_render (Json.canon_wf j hj)

/-- **`dumps` writes two values alike exactly when they are equal as JSON.** -/
theorem dumps_inj {v w : Json} (hv : v.wf = true) (hw : w.wf = true) :
    dumps v = dumps w ↔ v.canon = w.canon := by
  constructor
  · intro h
    have := loads_dumps hv
    rw [h, loads_dumps hw] at this
    exact (Option.some.inj this).symm
  · intro h
    rw [dumps, dumps, h]

theorem dumps_canon (v : Json) : dumps v.canon = dumps v := by
  rw [dumps, Json.canon_canon, dumps]

theorem mem_keys_setKey {k l : String} {v : Json} {kvs : List (String × Json)} :
    l ∈ (setKey k v kvs).map Prod.fst ↔ l = k ∨ l ∈ kvs.map Prod.fst := by
  induction kvs with
  | nil => simp [setKey]
  | cons kv kvs ih =>
    rw [setKey]
    split_ifs with h
    · simp [h]
    · rw [List.map_cons, List.map_cons, List.mem_cons, List.mem_cons, ih]
      tauto

/-- Setting a key keeps an object without repeated keys. -/
theorem setKey_wf {k : String} {v : Json} (hv : v.wf = true) {kvs : List (String × Json)}
    (h : (Json.obj kvs).wf = true) : (Json.obj (setKey k v kvs)).wf = true := by
  induction kvs with
  | nil => simpa [setKey] using hv
  | cons kv kvs ih =>
    rw [Json.wf_obj, List.map_cons, List.nodup_cons, List.forall_mem_cons] at h
    obtain ⟨⟨hk, hn⟩, hw, hws⟩ := h
    rw [setKey]
    split_ifs with he
    · rw [Json.wf_obj, List.map_cons, List.nodup_cons, List.forall_mem_cons]
      exact ⟨⟨hk, hn⟩, hv, hws⟩
    · have hrest := ih ((Json.wf_obj _).2 ⟨hn, hws⟩)
      rw [Json.wf_obj] at hrest
      rw [Json.wf_obj, List.map_cons, List.nodup_cons, List.forall_mem_cons, mem_keys_setKey]
      exact ⟨⟨fun h => h.elim (fun h => he h.symm) hk, hrest.1⟩, hw, hrest.2⟩

theorem ofMembers_wf {kvs : List (String × Json)} (h : ∀ kv ∈ kvs, kv.2.wf = true) :
    (Json.obj (ofMembers kvs)).wf = true := by
  have go : ∀ (kvs d : List (String × Json)), (∀ kv ∈ kvs, kv.2.wf = true) → (Json.obj d).wf = true →
      (Json.obj (kvs.foldl (fun d kv => setKey kv.1 kv.2 d) d)).wf = true := by
    intro kvs
    induction kvs with
    | nil => intro d _ hd; exact hd
    | cons kv kvs ih =>
      intro d hk hd
      exact ih _ (fun x hx => hk x (List.mem_cons_of_mem _ hx)) (setKey_wf (hk kv (by simp)) hd)
  exact go kvs [] h rfl

/-- Every value that is read is without repeated keys, at every fuel. -/
theorem load_wf (n : ℕ) :
    (∀ cs v r, loadValue n cs = some (v, r) → v.wf = true) ∧
    (∀ cs vs r, loadItems n cs = some (vs, r) → ∀ v ∈ vs, v.wf = true) ∧
    (∀ cs kv r, loadMember n cs = some (kv, r) → kv.2.wf = true) ∧
    ∀ cs kvs r, loadMembers n cs = some (kvs, r) → ∀ kv ∈ kvs, kv.2.wf = true := by
  induction n with
  | zero => simp [loadValue, loadItems, loadMember, loadMembers]
  | succ n ih =>
    obtain ⟨hvalue, hitems, hmember, hmembers⟩ := ih
    refine ⟨?_, ?_, ?_, ?_⟩
    · intro cs v r h
      rw [loadValue] at h
      split at h
      · cases h
      · split_ifs at h
        · obtain ⟨s, -, hs⟩ := Option.map_eq_some_iff.1 h
          obtain ⟨rfl, -⟩ := Prod.mk.inj hs
          rfl
        · split at h
          · obtain ⟨rfl, -⟩ := Prod.mk.inj (Option.some.inj h)
            rfl
          · obtain ⟨⟨x, r₁⟩, hx, h⟩ := Option.bind_eq_some_iff.1 h
            obtain ⟨⟨xs, r₂⟩, hxs, h⟩ := Option.bind_eq_some_iff.1 h
            obtain ⟨rfl, -⟩ := Prod.mk.inj (Option.some.inj h)
            exact (Json.wf_arr _).2 (List.forall_mem_cons.2 ⟨hvalue _ _ _ hx, hitems _ _ _ hxs⟩)
        · split at h
          · obtain ⟨rfl, -⟩ := Prod.mk.inj (Option.some.inj h)
            rfl
          · obtain ⟨⟨kv, r₁⟩, hk, h⟩ := Option.bind_eq_some_iff.1 h
            obtain ⟨⟨kvs, r₂⟩, hks, h⟩ := Option.bind_eq_some_iff.1 h
            obtain ⟨rfl, -⟩ := Prod.mk.inj (Option.some.inj h)
            exact ofMembers_wf (List.forall_mem_cons.2 ⟨hmember _ _ _ hk, hmembers _ _ _ hks⟩)
        · obtain ⟨s, -, hs⟩ := Option.map_eq_some_iff.1 h
          obtain ⟨rfl, -⟩ := Prod.mk.inj hs
          rfl
        · obtain ⟨s, -, hs⟩ := Option.map_eq_some_iff.1 h
          obtain ⟨rfl, -⟩ := Prod.mk.inj hs
          rfl
        · obtain ⟨s, -, hs⟩ := Option.map_eq_some_iff.1 h
          obtain ⟨rfl, -⟩ := Prod.mk.inj hs
          rfl
        · obtain ⟨w, hw, hs⟩ := Option.map_eq_some_iff.1 h
          obtain ⟨rfl, -⟩ := Prod.mk.inj hs
          rw [loadNum] at hw
          split_ifs at hw
          · rw [← Option.some.inj hw]
            rfl
          · obtain ⟨z, -, rfl⟩ := Option.map_eq_some_iff.1 hw
            rfl
    · intro cs vs r h
      rw [loadItems] at h
      split at h
      · obtain ⟨rfl, -⟩ := Prod.mk.inj (Option.some.inj h)
        simp
      · obtain ⟨⟨x, r₁⟩, hx, h⟩ := Option.bind_eq_some_iff.1 h
        obtain ⟨⟨xs, r₂⟩, hxs, h⟩ := Option.bind_eq_some_iff.1 h
        obtain ⟨rfl, -⟩ := Prod.mk.inj (Option.some.inj h)
        exact List.forall_mem_cons.2 ⟨hvalue _ _ _ hx, hitems _ _ _ hxs⟩
      · cases h
    · intro cs kv r h
      rw [loadMember] at h
      split at h
      · obtain ⟨⟨k, r₁⟩, -, h⟩ := Option.bind_eq_some_iff.1 h
        dsimp only at h
        split at h
        · obtain ⟨⟨x, r₂⟩, hx, h⟩ := Option.bind_eq_some_iff.1 h
          obtain ⟨rfl, -⟩ := Prod.mk.inj (Option.some.inj h)
          exact hvalue _ _ _ hx
        · cases h
      · cases h
    · intro cs kvs r h
      rw [loadMembers] at h
      split at h
      · obtain ⟨rfl, -⟩ := Prod.mk.inj (Option.some.inj h)
        simp
      · obtain ⟨⟨kv, r₁⟩, hk, h⟩ := Option.bind_eq_some_iff.1 h
        obtain ⟨⟨kvs, r₂⟩, hks, h⟩ := Option.bind_eq_some_iff.1 h
        obtain ⟨rfl, -⟩ := Prod.mk.inj (Option.some.inj h)
        exact List.forall_mem_cons.2 ⟨hmember _ _ _ hk, hmembers _ _ _ hks⟩
      · cases h

/-- **What is read is a `dict`**: `json.loads` returns no repeated keys. -/
theorem loads_wf {s : String} {j : Json} (h : loads s = some j) : j.wf = true := by
  rw [loads] at h
  cases hv : loadValue (s.toList.length + 1) s.toList with
  | none => rw [hv] at h; cases h
  | some vr =>
    rw [hv] at h
    simp only at h
    split_ifs at h with hr
    rw [← Option.some.inj h]
    exact (load_wf _).1 _ _ _ hv

/-- Members in another order are written alike; a boolean is not the integer. -/
example : dumps (.obj [("b", .int 1), ("a", .bool true)]) = dumps (.obj [("a", .bool true), ("b", .int 1)]) ∧
    dumps (.arr [.bool true]) ≠ dumps (.arr [.int 1]) := by decide

end ProvableAi
