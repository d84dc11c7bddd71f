/-
# Which texts `json.loads` accepts

`loads` reads the texts that stand for a `Json` value.  Python's decoder takes
more: the words `NaN`, `Infinity` and `-Infinity`, and an escape `\uXXXX` for
half of a surrogate pair.  `acceptsJson` is the decoder without the values it
builds, rule by rule as its scanner has them; its fuel is bounded by the length
of the text.

`PyData` is what `json.dumps` writes with the default options, the three words
included.  `acceptsJson_dump`: what it writes is accepted.
-/

import ProvableAi.Json.Text

namespace ProvableAi

/-! ### What `json.dumps` writes -/

/-- A `float`, as the literal `float.__repr__` writes or as one of the three
values that have none. -/
inductive PyFloat where
  | finite (x : FloatLit)
  | nan
  | infinity
  | negInfinity
  deriving DecidableEq

/-- The text of a `float` under `allow_nan=True`. -/
def PyFloat.text : PyFloat → List Char
  | finite x => x.text
  | nan => ['N', 'a', 'N']
  | infinity => ['I', 'n', 'f', 'i', 'n', 'i', 't', 'y']
  | negInfinity => ['-', 'I', 'n', 'f', 'i', 'n', 'i', 't', 'y']

/-- A value `json.dumps` writes; the keys of a `dict` are texts. -/
inductive PyData where
  | none
  | bool (b : Bool)
  | int (n : ℤ)
  | float (x : PyFloat)
  | str (s : String)
  | list (xs : List PyData)
  | dict (kvs : List (String × PyData))

/-- Texts with a comma between them. -/
def commaSep : List (List Char) → List Char
  | [] => []
  | t :: ts => t ++ ts.flatMap (',' :: ·)

mutual
/-- `json.dumps(v, sort_keys=True, separators=(",", ":"), ensure_ascii=False)`,
as characters. -/
def PyData.dump : PyData → List Char
  | .none => ['n', 'u', 'l', 'l']
  | .bool true => ['t', 'r', 'u', 'e']
  | .bool false => ['f', 'a', 'l', 's', 'e']
  | .int n => renderInt n
  | .float x => x.text
  | .str s => renderStr s
  | .list xs => '[' :: (commaSep (dumpItems xs) ++ [']'])
  | .dict kvs => '{' :: (commaSep ((Json.sortKeys (dumpMembers kvs)).map fun m => renderStr m.1 ++ ':' :: m.2) ++ ['}'])

/-- The text of every item. -/
def PyData.dumpItems : List PyData → List (List Char)
  | [] => []
  | x :: xs => x.dump :: dumpItems xs

/-- The text of every member's value, with its key. -/
def PyData.dumpMembers : List (String × PyData) → List (String × List Char)
  | [] => []
  | (k, x) :: kvs => (k, x.dump) :: dumpMembers kvs
end

/-! ### What `json.loads` accepts -/

/-- What follows the string of which the opening quotation mark is read; `scanstring`. -/
def scanString : List Char → Option (List Char)
  | [] => none
  | '"' :: r => some r
  | '\\' :: 'u' :: a :: b :: c :: d :: r => if (hex4 a b c d).isSome then scanString r else none
  | '\\' :: e :: r => if (unescape1 e).isSome then scanString r else none
  | c :: r => if c = '\\' ∨ c.toNat < 32 then none else scanString r

/-- The words of the decoder. -/
def jsonWords : List (List Char) :=
  [['n', 'u', 'l', 'l'], ['t', 'r', 'u', 'e'], ['f', 'a', 'l', 's', 'e'], ['N', 'a', 'N'],
   ['I', 'n', 'f', 'i', 'n', 'i', 't', 'y'], ['-', 'I', 'n', 'f', 'i', 'n', 'i', 't', 'y']]

/-- What follows the number at the head of the text; `_match_number`.  The decoder
stops before a character that no longer fits, which nothing after a value allows. -/
def scanNumber (cs : List Char) : Option (List Char) :=
  if (loadNum (cs.takeWhile isNumChar)).isSome then some (cs.dropWhile isNumChar) else none

/-- What follows the word or the number at the head of the text. -/
def scanAtom (cs : List Char) : Option (List Char) := (jsonWords.findSome? fun w => expect w cs).or (scanNumber cs)

mutual
/-- What follows the value at the head of the text; `scan_once`. -/
def scanOnce : ℕ → List Char → Option (List Char)
  | 0, _ => none
  | n + 1, cs =>
    match cs with
    | '"' :: r => scanString r
    | '[' :: r =>
      match skipWs r with
      | ']' :: r => some r
      | r => (scanOnce n r).bind (scanItems n)
    | '{' :: r =>
      match skipWs r with
      | '}' :: r => some r
      | r => (scanPair n r).bind (scanPairs n)
    | cs => scanAtom cs

/-- What follows the items after the first and the bracket; `_parse_array`. -/
def scanItems : ℕ → List Char → Option (List Char)
  | 0, _ => none
  | n + 1, cs =>
    match skipWs cs with
    | ']' :: r => some r
    | ',' :: r => (scanOnce n (skipWs r)).bind (scanItems n)
    | _ => none

/-- What follows a key, a colon and a value. -/
def scanPair : ℕ → List Char → Option (List Char)
  | 0, _ => none
  | n + 1, cs =>
    match cs with
    | '"' :: r => (scanString r).bind fun r =>
      match skipWs r with
      | ':' :: r => scanOnce n (skipWs r)
      | _ => none
    | _ => none

/-- What follows the pairs after the first and the brace; `_parse_object`. -/
def scanPairs : ℕ → List Char → Option (List Char)
  | 0, _ => none
  | n + 1, cs =>
    match skipWs cs with
    | '}' :: r => some r
    | ',' :: r => (scanPair n (skipWs r)).bind (scanPairs n)
    | _ => none
end

/-- `json.loads(s)` does not raise `JSONDecodeError`: one value, and nothing but
white space around it. -/
def acceptsJson (s : String) : Bool :=
  match scanOnce (s.toList.length + 1) (skipWs s.toList) with
  | some r => (skipWs r).isEmpty
  | none => false

/-! ### What is written is accepted -/

/-- Induction on a value: a list from its items, a `dict` from the values of its members. -/
theorem PyData.induct {P : PyData → Prop} (none : P .none) (bool : ∀ b, P (.bool b)) (int : ∀ n, P (.int n))
    (float : ∀ x, P (.float x)) (str : ∀ s, P (.str s)) (list : ∀ xs, (∀ x ∈ xs, P x) → P (.list xs))
    (dict : ∀ kvs, (∀ kv ∈ kvs, P kv.2) → P (.dict kvs)) (d : PyData) : P d := by
  refine @PyData.rec P (fun xs => ∀ x ∈ xs, P x) (fun kvs => ∀ kv ∈ kvs, P kv.2) (fun kv => P kv.2)
    none bool int float str (fun xs h => list xs h) (fun kvs h => dict kvs h)
    (by simp) ?_ (by simp) ?_ (fun _ _ h => h) d
  · intro x xs hx hxs y hy
    rcases List.mem_cons.1 hy with rfl | hy
    · exact hx
    · exact hxs y hy
  · intro kv kvs hkv hkvs y hy
    rcases List.mem_cons.1 hy with rfl | hy
    · exact hkv
    · exact hkvs y hy

namespace PyData

@[simp] theorem dumpItems_eq (xs : List PyData) : dumpItems xs = xs.map dump := by
  induction xs with
  | nil => rfl
  | cons x xs ih => simp [dumpItems, ih]

@[simp] theorem dumpMembers_eq (kvs : List (String × PyData)) :
    dumpMembers kvs = kvs.map fun kv => (kv.1, kv.2.dump) := by
  induction kvs with
  | nil => rfl
  | cons kv kvs ih => obtain ⟨k, x⟩ := kv; simp [dumpMembers, ih]

/-- The text of a member. -/
def memberText (m : String × List Char) : List Char := renderStr m.1 ++ ':' :: m.2

theorem dump_list (xs : List PyData) : (list xs).dump = '[' :: (commaSep (xs.map dump) ++ [']']) := by
  rw [dump, dumpItems_eq]

theorem dump_dict (kvs : List (String × PyData)) : (dict kvs).dump =
    '{' :: (commaSep ((Json.sortKeys (kvs.map fun kv => (kv.1, kv.2.dump))).map memberText) ++ ['}']) := by
  rw [dump, dumpMembers_eq]
  rfl

/-- What holds of the texts of the members holds of the sorted ones. -/
theorem forall_memberText {kvs : List (String × PyData)} {P : List Char → Prop}
    (h : ∀ kv ∈ kvs, P (memberText (kv.1, kv.2.dump))) :
    ∀ t ∈ (Json.sortKeys (kvs.map fun kv => (kv.1, kv.2.dump))).map memberText, P t := by
  intro t ht
  obtain ⟨m, hm, rfl⟩ := List.mem_map.1 ht
  obtain ⟨kv, hkv, rfl⟩ := List.mem_map.1 ((Json.sortKeys_perm _).mem_iff.1 hm)
  exact h kv hkv

end PyData

theorem scanString_escapeChar (c : Char) (r : List Char) : scanString (escapeChar c ++ r) = scanString r := by
  by_cases h₁ : c = '"'
  · subst h₁; simp [escapeChar, scanString, unescape1]
  by_cases h₂ : c = '\\'
  · subst h₂; simp [escapeChar, scanString, unescape1]
  by_cases h₃ : c = '\n'
  · subst h₃; simp [escapeChar, scanString, unescape1]
  by_cases h₄ : c = '\r'
  · subst h₄; simp [escapeChar, scanString, unescape1]
  by_cases h₅ : c = '\t'
  · subst h₅; simp [escapeChar, scanString, unescape1]
  by_cases h₆ : c = Char.ofNat 12
  · subst h₆; simp [escapeChar, scanString, unescape1]
  by_cases h₇ : c = Char.ofNat 8
  · subst h₇; simp [escapeChar, scanString, unescape1]
  by_cases h₈ : c.toNat < 32
  · have he : escapeChar c = ['\\', 'u', '0', '0', hexDigit (c.toNat / 16), hexDigit (c.toNat % 16)] := by
      simp only [escapeChar, if_neg h₁, if_neg h₂, if_neg h₃, if_neg h₄, if_neg h₅, if_neg h₆,
        if_neg h₇, if_pos h₈]
    have h0 : hexVal '0' = some 0 := by decide
    simp [he, scanString, hex4, h0, hexVal_hexDigit (c.toNat / 16) (by omega),
      hexVal_hexDigit (c.toNat % 16) (by omega)]
  · have he : escapeChar c = [c] := by
      simp only [escapeChar, if_neg h₁, if_neg h₂, if_neg h₃, if_neg h₄, if_neg h₅, if_neg h₆,
        if_neg h₇, if_neg h₈]
    rw [he, List.singleton_append, scanString.eq_5 c r h₁ (fun _ _ _ _ _ h _ => h₂ h) (fun _ _ h _ => h₂ h),
      if_neg (by simp [h₂, h₈])]

theorem scanString_renderChars (cs r : List Char) : scanString (renderChars cs ++ r) = some r := by
  induction cs with
  | nil => rfl
  | cons c cs ih => rw [renderChars, List.append_assoc, scanString_escapeChar, ih]

/-- A text that is scanned as one value wherever it stands, and that no bracket
and no white space begins. -/
structure Scanned (t : List Char) : Prop where
  head : ∃ c t', t = c :: t' ∧ isWs c = false ∧ c ≠ ']'
  scan : ∀ n r, t.length ≤ n → Delim r → scanOnce n (t ++ r) = some r

/-- The same of a key, a colon and a value. -/
structure ScannedPair (t : List Char) : Prop where
  head : ∃ t', t = '"' :: t'
  scan : ∀ n r, t.length ≤ n → Delim r → scanPair n (t ++ r) = some r

theorem Scanned.ne_nil {t : List Char} (h : Scanned t) : 1 ≤ t.length := by
  obtain ⟨c, t', rfl, -⟩ := h.head
  simp

theorem Scanned.skipWs {t : List Char} (h : Scanned t) (r : List Char) : skipWs (t ++ r) = t ++ r := by
  obtain ⟨c, t', rfl, hc, -⟩ := h.head
  exact skipWs_cons hc _

theorem delim_cons {c : Char} (h : isNumChar c = false) (r : List Char) : Delim (c :: r) := by
  intro d hd
  obtain rfl := Option.some.inj hd
  exact h

theorem delim_commas (ts : List (List Char)) {c : Char} (h : isNumChar c = false) (r : List Char) :
    Delim (ts.flatMap (',' :: ·) ++ c :: r) := by
  cases ts with
  | nil => exact delim_cons h r
  | cons t ts => exact delim_cons (by decide) _

theorem scanItems_commas {ts : List (List Char)} (h : ∀ t ∈ ts, Scanned t) (r : List Char) :
    ∀ n, (ts.flatMap (',' :: ·)).length + 1 ≤ n → scanItems n (ts.flatMap (',' :: ·) ++ ']' :: r) = some r := by
  induction ts with
  | nil =>
    intro n hn
    obtain ⟨m, rfl⟩ := Nat.exists_eq_add_of_le' (show 1 ≤ n by omega)
    simp [scanItems, skipWs_cons (show isWs ']' = false by decide)]
  | cons t ts ih =>
    intro n hn
    have ht := h t (by simp)
    rw [List.flatMap_cons, List.length_append, List.length_cons] at hn
    obtain ⟨m, rfl⟩ := Nat.exists_eq_add_of_le' (show 1 ≤ n by omega)
    rw [List.flatMap_cons, List.append_assoc, List.cons_append, scanItems, skipWs_cons (by decide)]
    have hnext := ht.scan m (ts.flatMap (',' :: ·) ++ ']' :: r) (by omega) (delim_commas ts (by decide) r)
    simp only [ht.skipWs, hnext, Option.bind_some]
    exact ih (fun u hu => h u (List.mem_cons_of_mem _ hu)) m (by have := ht.ne_nil; omega)

theorem scanPairs_commas {ts : List (List Char)} (h : ∀ t ∈ ts, ScannedPair t) (r : List Char) :
    ∀ n, (ts.flatMap (',' :: ·)).length + 1 ≤ n → scanPairs n (ts.flatMap (',' :: ·) ++ '}' :: r) = some r := by
  induction ts with
  | nil =>
    intro n hn
    obtain ⟨m, rfl⟩ := Nat.exists_eq_add_of_le' (show 1 ≤ n by omega)
    simp [scanPairs, skipWs_cons (show isWs '}' = false by decide)]
  | cons t ts ih =>
    intro n hn
    have ht := h t (by simp)
    obtain ⟨t', he⟩ := ht.head
    rw [List.flatMap_cons, List.length_append, List.length_cons] at hn
    obtain ⟨m, rfl⟩ := Nat.exists_eq_add_of_le' (show 1 ≤ n by omega)
    have hws : skipWs (t ++ (ts.flatMap (',' :: ·) ++ '}' :: r)) = t ++ (ts.flatMap (',' :: ·) ++ '}' :: r) := by
      rw [he]
      exact skipWs_cons (by decide) _
    rw [List.flatMap_cons, List.append_assoc, List.cons_append, scanPairs, skipWs_cons (by decide)]
    have hnext := ht.scan m (ts.flatMap (',' :: ·) ++ '}' :: r) (by omega) (delim_commas ts (by decide) r)
    simp only [hws, hnext, Option.bind_some]
    refine ih (fun u hu => h u (List.mem_cons_of_mem _ hu)) m ?_
    rw [he, List.length_cons] at hn
    omega

/-- A number or a word is scanned. -/
theorem scanned_atom {t : List Char} (hhead : ∃ c t', t = c :: t' ∧ isWs c = false ∧ c ≠ ']' ∧ c ≠ '"' ∧ c ≠ '[' ∧ c ≠ '{')
    (hscan : ∀ r, Delim r → scanAtom (t ++ r) = some r) : Scanned t := by
  obtain ⟨c, t', rfl, hws, h₁, h₂, h₃, h₄⟩ := hhead
  refine ⟨⟨c, t', rfl, hws, h₁⟩, fun n r hn hr => ?_⟩
  obtain ⟨m, rfl⟩ := Nat.exists_eq_add_of_le' (show 1 ≤ n from (Nat.le_add_left 1 _).trans hn)
  have hr := hscan r hr
  rw [List.cons_append] at hr ⊢
  rw [scanOnce]
  · exact hr
  · exact fun r h => h₂ (List.cons.inj h).1
  · exact fun r h => h₃ (List.cons.inj h).1
  · exact fun r h => h₄ (List.cons.inj h).1

theorem scanAtom_word {w : List Char} (h : w ∈ jsonWords) (r : List Char) : scanAtom (w ++ r) = some r := by
  have hfind : (jsonWords.findSome? fun v => expect v (w ++ r)) = some r := by
    simp only [jsonWords, List.mem_cons, List.not_mem_nil, or_false] at h
    rcases h with rfl | rfl | rfl | rfl | rfl | rfl <;> simp [jsonWords, expect]
  rw [scanAtom, hfind]
  rfl

theorem scanned_word {w : List Char} (h : w ∈ jsonWords) : Scanned w := by
  refine scanned_atom ?_ fun r _ => scanAtom_word h r
  have hhead : ∀ w ∈ jsonWords, ∃ c, w.head? = some c ∧ isWs c = false ∧ c ≠ ']' ∧ c ≠ '"' ∧ c ≠ '[' ∧ c ≠ '{' := by
    simp only [jsonWords, List.forall_mem_cons, List.head?_cons, Option.some.injEq, exists_eq_left']
    decide
  obtain ⟨c, hc, hplain⟩ := hhead w h
  obtain ⟨t, rfl⟩ := List.head?_eq_some_iff.1 hc
  exact ⟨c, t, rfl, hplain⟩

/-- No word begins like a number, but for the one that has its own. -/
theorem expect_num {t w r : List Char} (ht : (loadNum t).isSome = true) (hnum : t.all isNumChar = true) (hr : Delim r)
    (hw : w ∈ jsonWords) : expect w (t ++ r) = none := by
  rw [expect, if_neg]
  rintro ⟨u, hu⟩
  have hwords : ∀ w ∈ jsonWords, ∃ v c x, w = v ++ c :: x ∧ isNumChar c = false ∧ loadNum v = none ∧
      ∀ d ∈ v, isNumChar d = true := by
    intro w hw
    simp only [jsonWords, List.mem_cons, List.not_mem_nil, or_false] at hw
    rcases hw with rfl | rfl | rfl | rfl | rfl | rfl
    · exact ⟨[], 'n', ['u', 'l', 'l'], rfl, by decide, by decide, by simp⟩
    · exact ⟨[], 't', ['r', 'u', 'e'], rfl, by decide, by decide, by simp⟩
    · exact ⟨[], 'f', ['a', 'l', 's', 'e'], rfl, by decide, by decide, by simp⟩
    · exact ⟨[], 'N', ['a', 'N'], rfl, by decide, by decide, by simp⟩
    · exact ⟨[], 'I', ['n', 'f', 'i', 'n', 'i', 't', 'y'], rfl, by decide, by decide, by simp⟩
    · exact ⟨['-'], 'I', ['n', 'f', 'i', 'n', 'i', 't', 'y'], rfl, by decide, by decide, by simp [isNumChar]⟩
  -- the characters of numbers at the head of the text are the token and nothing else
  obtain ⟨v, c, x, rfl, hc, hv, hvn⟩ := hwords w hw
  have htoken := (takeWhile_num hnum hr).1
  have hword : (v ++ (c :: x ++ u)).takeWhile isNumChar = v :=
    (takeWhile_num (List.all_eq_true.2 hvn) (delim_cons hc (x ++ u))).1
  rw [← hu, List.append_assoc, hword] at htoken
  rw [← htoken, hv] at ht
  cases ht

theorem scanAtom_num {t r : List Char} (ht : (loadNum t).isSome = true) (hnum : t.all isNumChar = true) (hr : Delim r) :
    scanAtom (t ++ r) = some r := by
  have hfind : (jsonWords.findSome? fun w => expect w (t ++ r)) = none :=
    List.findSome?_eq_none_iff.2 fun w hw => expect_num ht hnum hr hw
  obtain ⟨h₁, h₂⟩ := takeWhile_num hnum hr
  rw [scanAtom, hfind, Option.none_or, scanNumber, h₁, h₂, if_pos ht]

theorem scanned_num {t : List Char} (ht : (loadNum t).isSome = true) (hnum : t.all isNumChar = true) (hne : t ≠ []) :
    Scanned t := by
  refine scanned_atom ?_ fun r hr => scanAtom_num ht hnum hr
  obtain ⟨c, t, rfl⟩ := List.exists_cons_of_ne_nil hne
  have hc : isNumChar c = true := List.all_eq_true.1 hnum c (by simp)
  exact ⟨c, t, rfl, numChar_not_ws hc, numChar_ne hc (by decide), numChar_ne hc (by decide),
    numChar_ne hc (by decide), numChar_ne hc (by decide)⟩

theorem scanned_str (s : String) : Scanned (renderStr s) := by
  refine ⟨⟨'"', _, rfl, by decide, by decide⟩, fun n r hn _ => ?_⟩
  obtain ⟨m, rfl⟩ := Nat.exists_eq_add_of_le' (show 1 ≤ n from (Nat.le_add_left 1 _).trans hn)
  rw [renderStr, List.cons_append, scanOnce]
  exact scanString_renderChars _ r

/-- A member is scanned if its value is. -/
theorem scannedPair_memberText {m : String × List Char} (h : Scanned m.2) : ScannedPair (PyData.memberText m) := by
  refine ⟨⟨renderChars m.1.toList ++ ':' :: m.2, rfl⟩, fun n r hn hr => ?_⟩
  rw [PyData.memberText, renderStr, List.length_append, List.length_cons, List.length_cons] at hn
  obtain ⟨k, rfl⟩ := Nat.exists_eq_add_of_le' (show 1 ≤ n by omega)
  rw [PyData.memberText, renderStr, List.append_assoc, List.cons_append, List.cons_append, scanPair,
    scanString_renderChars]
  simp only [Option.bind_some, skipWs_cons (show isWs ':' = false by decide), h.skipWs]
  exact h.scan k r (by omega) hr

theorem scanned_list {ts : List (List Char)} (h : ∀ t ∈ ts, Scanned t) : Scanned ('[' :: (commaSep ts ++ [']'])) := by
  refine ⟨⟨'[', _, rfl, by decide, by decide⟩, fun n r hn _ => ?_⟩
  obtain ⟨m, rfl⟩ := Nat.exists_eq_add_of_le' (show 1 ≤ n from (Nat.le_add_left 1 _).trans hn)
  rw [List.cons_append, List.append_assoc, List.singleton_append, scanOnce]
  cases ts with
  | nil => simp [commaSep, skipWs_cons (show isWs ']' = false by decide)]
  | cons t ts =>
    have ht := h t (by simp)
    obtain ⟨c, t', he, -, hc⟩ := ht.head
    rw [commaSep, List.length_cons, List.length_append, List.length_append, List.length_singleton] at hn
    have hnext := ht.scan m (ts.flatMap (',' :: ·) ++ ']' :: r) (by omega) (delim_commas ts (by decide) r)
    rw [commaSep, List.append_assoc, ht.skipWs]
    split
    · rename_i heq
      rw [he] at heq
      exact absurd (List.cons.inj heq).1 hc
    · rw [hnext]
      exact scanItems_commas (fun u hu => h u (List.mem_cons_of_mem _ hu)) r m (by have := ht.ne_nil; omega)

theorem scanned_dict {ts : List (List Char)} (h : ∀ t ∈ ts, ScannedPair t) :
    Scanned ('{' :: (commaSep ts ++ ['}'])) := by
  refine ⟨⟨'{', _, rfl, by decide, by decide⟩, fun n r hn _ => ?_⟩
  obtain ⟨m, rfl⟩ := Nat.exists_eq_add_of_le' (show 1 ≤ n from (Nat.le_add_left 1 _).trans hn)
  rw [List.cons_append, List.append_assoc, List.singleton_append, scanOnce]
  cases ts with
  | nil => simp [commaSep, skipWs_cons (show isWs '}' = false by decide)]
  | cons t ts =>
    have ht := h t (by simp)
    obtain ⟨t', he⟩ := ht.head
    rw [commaSep, List.length_cons, List.length_append, List.length_append, List.length_singleton] at hn
    have hnext := ht.scan m (ts.flatMap (',' :: ·) ++ '}' :: r) (by omega) (delim_commas ts (by decide) r)
    rw [commaSep, List.append_assoc]
    have hws : skipWs (t ++ (ts.flatMap (',' :: ·) ++ '}' :: r)) = t ++ (ts.flatMap (',' :: ·) ++ '}' :: r) := by
      rw [he]
      exact skipWs_cons (by decide) _
    rw [hws]
    split
    · rename_i heq
      rw [he] at heq
      exact absurd (List.cons.inj heq).1 (by decide)
    · rw [hnext]
      refine scanPairs_commas (fun u hu => h u (List.mem_cons_of_mem _ hu)) r m ?_
      rw [he, List.length_cons] at hn
      omega

/-- **Every value that is written is scanned.** -/
theorem PyData.scanned_dump (d : PyData) : Scanned d.dump := by
  induction d using PyData.induct with
  | none => exact scanned_word (by decide)
  | bool b => cases b <;> exact scanned_word (by decide)
  | int n => exact scanned_num (by rw [dump, loadNum_renderInt]; rfl) (renderInt_numeric n) (renderInt_ne_nil n)
  | float x =>
    cases x with
    | finite x => exact scanned_num (by rw [dump, PyFloat.text, loadNum_float]; rfl) x.numeric x.text_ne_nil
    | nan => exact scanned_word (by decide)
    | infinity => exact scanned_word (by decide)
    | negInfinity => exact scanned_word (by decide)
  | str s => exact scanned_str s
  | list xs ih =>
    rw [dump_list]
    exact scanned_list (List.forall_mem_map.2 ih)
  | dict kvs ih =>
    rw [dump_dict]
    exact scanned_dict (forall_memberText fun kv hkv => scannedPair_memberText (ih kv hkv))

/-- **What `json.dumps` writes is accepted.** -/
theorem acceptsJson_dump (d : PyData) : acceptsJson (String.ofList d.dump) = true := by
  have h := d.scanned_dump
  have hws := h.skipWs []
  have hscan := h.scan (d.dump.length + 1) [] (Nat.le_succ _) (by simp [Delim])
  rw [List.append_nil] at hws hscan
  rw [acceptsJson, String.toList_ofList, hws, hscan]
  rfl

/-- What `loads` refuses. -/
example : acceptsJson "[NaN, -Infinity, \"\\ud800\"]" = true ∧ acceptsJson "\x7b\"a\": 1.5e-3\x7d" = true ∧
    acceptsJson "[1.]" = false ∧ acceptsJson "\x7b\"a\" 1\x7d" = false ∧ acceptsJson "[1]]" = false := by decide +kernel

end ProvableAi
