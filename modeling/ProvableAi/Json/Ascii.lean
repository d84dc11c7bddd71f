/-
# JSON in ASCII is read back

What `json.dumps` writes with `ensure_ascii=True` in place of a character: `\uXXXX`,
or two of them for a surrogate pair.  `json.loads` reads both back, so a string, a
number or `null` in such a text is determined by it, and so is what follows
(`asciiText_append_inj`), and any value is read back (`loads_asciiText`).  No control
character is written, with or without the option (`printed_render`).
-/

import ProvableAi.Audit.KeyRegistry

namespace ProvableAi
namespace KeyRegistry

/-- The text of a value as `ensure_ascii=True` leaves it. -/
def asciiText (v : Json) : List Char := (render v).flatMap toAscii

/-- Where all is ASCII, the option makes no difference. -/
theorem dumpsAscii_eq_dumps {v : Json} (h : (render v.canon).all (fun c => c.toNat < 127) = true) :
    dumpsAscii v = dumps v := by
  rw [dumpsAscii, dumps]
  congr 1
  generalize render v.canon = t at h
  induction t with
  | nil => rfl
  | cons c t ih =>
    rw [List.all_cons, Bool.and_eq_true, decide_eq_true_eq] at h
    rw [List.flatMap_cons, toAscii, if_pos h.1, ih h.2]
    rfl

/-! ### Characters -/

theorem hex4_hexDigits {n : ℕ} (h : n < 65536) :
    hex4 (hexDigit (n / 4096 % 16)) (hexDigit (n / 256 % 16)) (hexDigit (n / 16 % 16)) (hexDigit (n % 16)) = some n := by
  have hd := fun k => hexVal_hexDigit (k % 16) (Nat.mod_lt k (by decide))
  simp only [hex4, hd, Option.bind_eq_bind, Option.bind_some, Option.pure_def, Option.some.injEq]
  omega

theorem toAscii_of_lt {c : Char} (h : c.toNat < 127) : toAscii c = [c] := if_pos h

/-- The escapes of ASCII characters are ASCII. -/
theorem flatMap_toAscii_escapeChar {c : Char} (h : c.toNat < 127) : (escapeChar c).flatMap toAscii = escapeChar c := by
  have hhex : ∀ n < 16, toAscii (hexDigit n) = [hexDigit n] := by decide
  unfold escapeChar
  split_ifs with _ _ _ _ _ _ _ hcontrol
  · rfl
  · rfl
  · rfl
  · rfl
  · rfl
  · rfl
  · rfl
  · have h₁ := hhex (c.toNat / 16) (by omega)
    have h₂ := hhex (c.toNat % 16) (by omega)
    simp only [List.flatMap_cons, List.flatMap_nil, h₁, h₂]
    rfl
  · simp [toAscii_of_lt h]

theorem loadEscape_unit {n : ℕ} (h : n < 65536) (r : List Char) (hlow : n < 0xd800 ∨ 0xdfff < n) :
    ∃ t, Postgres.escapeUnit n = '\\' :: t ∧ loadEscape (t ++ r) = some (Char.ofNat n, r) := by
  refine ⟨_, rfl, ?_⟩
  simp only [List.cons_append, List.nil_append, loadEscape, hex4_hexDigits h, Option.bind_eq_bind, Option.bind_some]
  rw [if_neg (by omega), if_neg (by omega), Option.pure_def]

/-- A character that is escaped is read back. -/
theorem loadEscape_asciiChar {c : Char} (h : ¬ c.toNat < 127) (r : List Char) :
    ∃ t, Postgres.asciiChar c = '\\' :: t ∧ loadEscape (t ++ r) = some (c, r) := by
  have hvalid : c.toNat < 0xd800 ∨ 0xdfff < c.toNat ∧ c.toNat < 0x110000 := c.valid
  rw [Postgres.asciiChar, if_neg h]
  by_cases hbmp : c.toNat < 0x10000
  · rw [if_pos hbmp]
    obtain ⟨t, ht, hload⟩ := loadEscape_unit hbmp r (by omega)
    exact ⟨t, ht, by rw [hload, Char.ofNat_toNat]⟩
  · rw [if_neg hbmp]
    -- a surrogate pair
    obtain ⟨hi, hhi⟩ : ∃ hi, hi = 0xd800 + (c.toNat - 0x10000) / 1024 := ⟨_, rfl⟩
    obtain ⟨lo, hlo⟩ : ∃ lo, lo = 0xdc00 + (c.toNat - 0x10000) % 1024 := ⟨_, rfl⟩
    rw [← hhi, ← hlo]
    simp only [Postgres.escapeUnit, List.cons_append, List.nil_append]
    refine ⟨_, rfl, ?_⟩
    simp only [List.cons_append, List.nil_append, loadEscape, hex4_hexDigits (show hi < 65536 by omega),
      hex4_hexDigits (show lo < 65536 by omega), Option.bind_eq_bind, Option.bind_some]
    rw [if_pos (by omega), if_pos (by omega), Option.pure_def]
    have hn : 65536 + 1024 * (hi - 55296) + (lo - 56320) = c.toNat := by omega
    rw [hn, Char.ofNat_toNat]

/-! ### Strings -/

theorem escapeChar_of_ge {c : Char} (h : ¬ c.toNat < 127) : escapeChar c = [c] := by
  have hne : ∀ d : Char, d.toNat < 127 → c ≠ d := fun d hd hc => h (hc ▸ hd)
  unfold escapeChar
  rw [if_neg (hne _ (by decide)), if_neg (hne _ (by decide)), if_neg (hne _ (by decide)), if_neg (hne _ (by decide)),
    if_neg (hne _ (by decide)), if_neg (hne _ (by decide)), if_neg (hne _ (by decide)), if_neg (by omega)]

/-- One character of a string is read back. -/
theorem loadChars_ascii (c : Char) (n : ℕ) (r : List Char) :
    loadChars (n + 1) ((escapeChar c).flatMap toAscii ++ r) = (loadChars n r).bind fun p => some (c :: p.1, p.2) := by
  by_cases h : c.toNat < 127
  · rw [flatMap_toAscii_escapeChar h, loadChars_escapeChar]
  · obtain ⟨t, ht, hload⟩ := loadEscape_asciiChar h r
    rw [escapeChar_of_ge h, List.flatMap_singleton, toAscii, if_neg h, ht, List.cons_append, loadChars]
    simp only [Char.reduceEq, if_false, if_true, hload, Option.bind_eq_bind, Option.bind_some, Option.pure_def]

theorem ascii_length (c : Char) : 1 ≤ ((escapeChar c).flatMap toAscii).length := by
  by_cases h : c.toNat < 127
  · rw [flatMap_toAscii_escapeChar h]
    exact escapeChar_length c
  · obtain ⟨t, ht, -⟩ := loadEscape_asciiChar h []
    rw [escapeChar_of_ge h, List.flatMap_singleton, toAscii, if_neg h, ht, List.length_cons]
    exact Nat.le_add_left 1 _

/-- **A string is read back**, up to its closing quotation mark. -/
theorem loadChars_asciiChars (cs r : List Char) : ∀ n, ((renderChars cs).flatMap toAscii).length ≤ n →
    loadChars n ((renderChars cs).flatMap toAscii ++ r) = some (cs, r) := by
  induction cs with
  | nil =>
    intro n hn
    obtain ⟨m, rfl⟩ := Nat.exists_eq_add_of_le' (show 1 ≤ n from hn)
    rfl
  | cons c cs ih =>
    intro n hn
    rw [renderChars, List.flatMap_append, List.length_append] at hn
    have h := ascii_length c
    obtain ⟨m, rfl⟩ := Nat.exists_eq_add_of_le' (show 1 ≤ n by omega)
    rw [renderChars, List.flatMap_append, List.append_assoc, loadChars_ascii, ih m (by omega)]
    rfl

/-! ### Single values -/

/-- A value that is neither a list nor an object. -/
def IsAtom : Json → Prop
  | .arr _ => False
  | .obj _ => False
  | _ => True

theorem flatMap_toAscii_num {t : List Char} (h : t.all isNumChar = true) : t.flatMap toAscii = t := by
  have hnum : ∀ c : Char, isNumChar c = true → toAscii c = [c] := by
    intro c hc
    refine toAscii_of_lt ?_
    simp only [isNumChar, Bool.or_eq_true, beq_iff_eq, Char.isDigit, Bool.and_eq_true, decide_eq_true_eq] at hc
    rcases hc with ((((⟨-, hc⟩ | rfl) | rfl) | rfl) | rfl) | rfl
    · have hle : c.toNat ≤ 57 := hc
      omega
    all_goals decide
  induction t with
  | nil => rfl
  | cons c t ih =>
    rw [List.all_cons, Bool.and_eq_true] at h
    rw [List.flatMap_cons, hnum c h.1, ih h.2]
    rfl

/-- **A single value is read back** where the text does not go on with it. -/
theorem loadValue_asciiText {j : Json} (hj : IsAtom j) {r : List Char} (hr : Delim r) (n : ℕ) :
    loadValue (n + 1) (asciiText j ++ r) = some (j, r) := by
  cases j with
  | null =>
    rw [asciiText, render]
    simp [loadValue, toAscii, skipWs, isWs, expect]
  | bool b =>
    cases b <;>
      · rw [asciiText, render]
        simp [loadValue, toAscii, skipWs, isWs, expect]
  | int i =>
    rw [asciiText, render, flatMap_toAscii_num (renderInt_numeric i)]
    exact loadValue_num (renderInt_numeric i) (renderInt_ne_nil i) (loadNum_renderInt i) hr n
  | float x =>
    rw [asciiText, render, flatMap_toAscii_num x.numeric]
    exact loadValue_num x.numeric x.text_ne_nil (loadNum_float x) hr _
  | str s =>
    have htext : asciiText (.str s) ++ r = '"' :: ((renderChars s.toList).flatMap toAscii ++ r) := by
      rw [asciiText, render, renderStr, List.flatMap_cons]
      rfl
    rw [htext, loadValue, skipWs_cons (by decide)]
    simp only [if_true, loadChars_asciiChars s.toList r _
        (show ((renderChars s.toList).flatMap toAscii).length ≤ ((renderChars s.toList).flatMap toAscii ++ r).length + 1 by
          rw [List.length_append]; omega),
      Option.map_some, String.ofList_toList]
  | arr xs => exact absurd hj id
  | obj kvs => exact absurd hj id

/-- **A single value is determined by its text**, and so is what follows. -/
theorem asciiText_append_inj {v w : Json} (hv : IsAtom v) (hw : IsAtom w) {r s : List Char} (hr : Delim r) (hs : Delim s)
    (h : asciiText v ++ r = asciiText w ++ s) : v = w ∧ r = s := by
  have hread := loadValue_asciiText hv hr 0
  rw [h, loadValue_asciiText hw hs 0] at hread
  exact (Prod.mk.inj (Option.some.inj hread)).imp Eq.symm Eq.symm

/-! ### Objects of single values -/

/-- The members after the first one, and the brace. -/
def asciiMembers (kvs : List (String × Json)) : List Char := (renderMembers kvs).flatMap toAscii

theorem asciiMembers_cons (k : String) (v : Json) (kvs : List (String × Json)) :
    asciiMembers ((k, v) :: kvs) = ',' :: (asciiText (.str k) ++ ':' :: (asciiText v ++ asciiMembers kvs)) := by
  simp only [asciiMembers, asciiText, renderMembers, render, List.flatMap_cons, List.flatMap_append]
  rfl

theorem asciiText_obj_cons (k : String) (v : Json) (kvs : List (String × Json)) :
    asciiText (.obj ((k, v) :: kvs)) = '{' :: (asciiText (.str k) ++ ':' :: (asciiText v ++ asciiMembers kvs)) := by
  simp only [asciiMembers, asciiText, render, List.flatMap_cons, List.flatMap_append]
  rfl

theorem asciiMembers_delim (kvs : List (String × Json)) : Delim (asciiMembers kvs) := by
  cases kvs with
  | nil => exact delim_of_head (by decide)
  | cons kv kvs =>
    obtain ⟨k, v⟩ := kv
    rw [asciiMembers_cons]
    exact delim_of_head (by decide)

/-- One member is determined by its text. -/
theorem member_inj {k l : String} {v w : Json} {kvs lvs : List (String × Json)} (hv : IsAtom v) (hw : IsAtom w)
    (h : asciiText (.str k) ++ ':' :: (asciiText v ++ asciiMembers kvs) =
      asciiText (.str l) ++ ':' :: (asciiText w ++ asciiMembers lvs)) :
    (k, v) = (l, w) ∧ asciiMembers kvs = asciiMembers lvs := by
  have hcolon : ∀ r, Delim (':' :: r) := fun r => delim_of_head (by decide)
  obtain ⟨hkey, hrest⟩ := asciiText_append_inj (v := .str k) (w := .str l) trivial trivial (hcolon _) (hcolon _) h
  obtain ⟨hvalue, hrest⟩ := asciiText_append_inj hv hw (asciiMembers_delim kvs) (asciiMembers_delim lvs) (List.cons.inj hrest).2
  exact ⟨Prod.ext (Json.str.inj hkey) hvalue, hrest⟩

theorem asciiMembers_inj {kvs : List (String × Json)} : ∀ {lvs : List (String × Json)}, (∀ kv ∈ kvs, IsAtom kv.2) →
    (∀ lv ∈ lvs, IsAtom lv.2) → asciiMembers kvs = asciiMembers lvs → kvs = lvs := by
  induction kvs with
  | nil =>
    intro lvs _ _ h
    cases lvs with
    | nil => rfl
    | cons lw lvs =>
      rw [asciiMembers_cons] at h
      exact absurd (List.cons.inj h).1 (by decide)
  | cons kv kvs ih =>
    intro lvs hk hl h
    cases lvs with
    | nil =>
      rw [asciiMembers_cons] at h
      exact absurd (List.cons.inj h).1 (by decide)
    | cons lw lvs =>
      rw [asciiMembers_cons, asciiMembers_cons] at h
      obtain ⟨hone, hrest⟩ := member_inj (hk kv (by simp)) (hl lw (by simp)) (List.cons.inj h).2
      rw [show kv = lw from hone, ih (fun x hx => hk x (by simp [hx])) (fun x hx => hl x (by simp [hx])) hrest]

/-- **An object of single values is determined by its text.** -/
theorem asciiText_obj_inj {kvs lvs : List (String × Json)} (hk : ∀ kv ∈ kvs, IsAtom kv.2) (hl : ∀ lv ∈ lvs, IsAtom lv.2)
    (h : asciiText (.obj kvs) = asciiText (.obj lvs)) : kvs = lvs := by
  cases kvs with
  | nil =>
    cases lvs with
    | nil => rfl
    | cons lw lvs =>
      rw [asciiText_obj_cons] at h
      exact absurd (congrArg (fun t => t[1]?) h) (by simp [asciiText, render, renderStr, toAscii])
  | cons kv kvs =>
    cases lvs with
    | nil =>
      rw [asciiText_obj_cons] at h
      exact absurd (congrArg (fun t => t[1]?) h) (by simp [asciiText, render, renderStr, toAscii])
    | cons lw lvs =>
      rw [asciiText_obj_cons, asciiText_obj_cons] at h
      obtain ⟨hone, hrest⟩ := member_inj (hk kv (by simp)) (hl lw (by simp)) (List.cons.inj h).2
      rw [show kv = lw from hone,
        asciiMembers_inj (fun x hx => hk x (by simp [hx])) (fun x hx => hl x (by simp [hx])) hrest]

theorem IsAtom.canon {v : Json} (h : IsAtom v) : v.canon = v := by
  cases v with
  | arr xs => exact absurd h id
  | obj kvs => exact absurd h id
  | _ => rfl

/-- **What `json.dumps` writes in ASCII** of two objects of single values is the same exactly if they are equal as JSON. -/
theorem dumpsAscii_obj_inj {kvs lvs : List (String × Json)} (hk : ∀ kv ∈ kvs, IsAtom kv.2) (hl : ∀ lv ∈ lvs, IsAtom lv.2) :
    dumpsAscii (.obj kvs) = dumpsAscii (.obj lvs) ↔ (Json.obj kvs).canon = (Json.obj lvs).canon := by
  have hatoms : ∀ {xs : List (String × Json)}, (∀ kv ∈ xs, IsAtom kv.2) →
      ∀ kv ∈ Json.sortKeys (xs.map fun kv => (kv.1, kv.2.canon)), IsAtom kv.2 := by
    intro xs h kv hkv
    obtain ⟨x, hx, rfl⟩ := List.mem_map.1 ((Json.sortKeys_perm _).mem_iff.1 hkv)
    rw [(h x hx).canon]
    exact h x hx
  constructor
  · intro h
    have htext := String.ofList_inj.1 h
    rw [Json.canon_obj, Json.canon_obj] at htext ⊢
    exact congrArg Json.obj (asciiText_obj_inj (hatoms hk) (hatoms hl) htext)
  · intro h
    rw [dumpsAscii, dumpsAscii, h]

/-! ### Any value -/

/-- The items after the first one, and the bracket. -/
def asciiItems (xs : List Json) : List Char := (renderItems xs).flatMap toAscii

theorem asciiItems_cons (x : Json) (xs : List Json) : asciiItems (x :: xs) = ',' :: (asciiText x ++ asciiItems xs) := by
  simp only [asciiItems, asciiText, renderItems, List.flatMap_cons, List.flatMap_append]
  rfl

theorem asciiText_arr_cons (x : Json) (xs : List Json) :
    asciiText (.arr (x :: xs)) = '[' :: (asciiText x ++ asciiItems xs) := by
  simp only [asciiItems, asciiText, render, List.flatMap_cons, List.flatMap_append]
  rfl

theorem asciiText_head (j : Json) : ∃ c t, asciiText j = c :: t ∧ isWs c = false ∧ c ≠ ']' ∧ c ≠ '}' := by
  cases j with
  | int i =>
    rw [asciiText, render, flatMap_toAscii_num (renderInt_numeric i)]
    exact render_head (.int i)
  | float x =>
    rw [asciiText, render, flatMap_toAscii_num x.numeric]
    exact render_head (.float x)
  | null => exact ⟨_, _, rfl, by decide, by decide, by decide⟩
  | bool b => cases b <;> exact ⟨_, _, rfl, by decide, by decide, by decide⟩
  | str s => exact ⟨_, _, rfl, by decide, by decide, by decide⟩
  | arr xs => cases xs <;> exact ⟨_, _, rfl, by decide, by decide, by decide⟩
  | obj kvs => cases kvs <;> exact ⟨_, _, rfl, by decide, by decide, by decide⟩

/-- What `loadValue` owes for the ASCII text of one value. -/
def AsciiReadsBack (j : Json) : Prop :=
  ∀ n r, (asciiText j).length ≤ n → Delim r → loadValue n (asciiText j ++ r) = some (j, r)

theorem loadItems_asciiItems {xs : List Json} (h : ∀ x ∈ xs, AsciiReadsBack x) :
    ∀ n r, (asciiItems xs).length ≤ n → loadItems n (asciiItems xs ++ r) = some (xs, r) := by
  induction xs with
  | nil =>
    intro n r hn
    obtain ⟨m, rfl⟩ := Nat.exists_eq_add_of_le' (show 1 ≤ n from hn)
    rfl
  | cons x xs ih =>
    intro n r hn
    rw [asciiItems_cons, List.length_cons, List.length_append] at hn
    obtain ⟨m, rfl⟩ := Nat.exists_eq_add_of_le' (show 1 ≤ n by omega)
    have hdelim : Delim (asciiItems xs ++ r) := by
      cases xs with
      | nil => exact delim_of_head (by decide)
      | cons y ys =>
        rw [asciiItems_cons]
        exact delim_of_head (by decide)
    rw [asciiItems_cons, List.cons_append, List.append_assoc, loadItems, skipWs_cons (by decide)]
    simp only [h x (by simp) m _ (by omega) hdelim, Option.bind_eq_bind, Option.bind_some,
      ih (fun y hy => h y (List.mem_cons_of_mem _ hy)) m r (by omega), Option.pure_def]

theorem asciiMembers_append_delim (kvs : List (String × Json)) (r : List Char) : Delim (asciiMembers kvs ++ r) := by
  cases kvs with
  | nil => exact delim_of_head (by decide)
  | cons kv kvs =>
    obtain ⟨k, v⟩ := kv
    rw [asciiMembers_cons]
    exact delim_of_head (by decide)

theorem asciiText_str_append (k : String) (r : List Char) :
    asciiText (.str k) ++ r = '"' :: ((renderChars k.toList).flatMap toAscii ++ r) := by
  rw [asciiText, render, renderStr, List.flatMap_cons]
  rfl

theorem loadMember_ascii {k : String} {x : Json} (hx : AsciiReadsBack x) {n : ℕ} {r : List Char}
    (hn : (asciiText x).length + 1 ≤ n) (hr : Delim r) :
    loadMember n (asciiText (.str k) ++ ':' :: (asciiText x ++ r)) = some ((k, x), r) := by
  obtain ⟨m, rfl⟩ := Nat.exists_eq_add_of_le' (show 1 ≤ n by omega)
  rw [asciiText_str_append, loadMember, skipWs_cons (by decide)]
  simp only [loadChars_asciiChars k.toList (':' :: (asciiText x ++ r)) _
      (show ((renderChars k.toList).flatMap toAscii).length ≤
          ((renderChars k.toList).flatMap toAscii ++ ':' :: (asciiText x ++ r)).length + 1 by
        rw [List.length_append]; omega),
    Option.bind_eq_bind, Option.bind_some, skipWs_cons (show isWs ':' = false by decide),
    hx m r (by omega) hr, Option.pure_def, String.ofList_toList]

theorem loadMembers_asciiMembers {kvs : List (String × Json)} (h : ∀ kv ∈ kvs, AsciiReadsBack kv.2) :
    ∀ n r, (asciiMembers kvs).length ≤ n → loadMembers n (asciiMembers kvs ++ r) = some (kvs, r) := by
  induction kvs with
  | nil =>
    intro n r hn
    obtain ⟨m, rfl⟩ := Nat.exists_eq_add_of_le' (show 1 ≤ n from hn)
    rfl
  | cons kv kvs ih =>
    obtain ⟨k, x⟩ := kv
    intro n r hn
    simp only [asciiMembers_cons, List.length_cons, List.length_append] at hn
    obtain ⟨m, rfl⟩ := Nat.exists_eq_add_of_le' (show 1 ≤ n by omega)
    rw [asciiMembers_cons, List.cons_append, List.append_assoc, List.cons_append, List.append_assoc,
      loadMembers, skipWs_cons (by decide)]
    simp only [loadMember_ascii (h (k, x) (by simp)) (show (asciiText x).length + 1 ≤ m by omega)
        (asciiMembers_append_delim kvs r), Option.bind_eq_bind, Option.bind_some,
      ih (fun y hy => h y (List.mem_cons_of_mem _ hy)) m r (by omega), Option.pure_def]

theorem asciiReadsBack_arr {xs : List Json} (h : ∀ x ∈ xs, AsciiReadsBack x) : AsciiReadsBack (.arr xs) := by
  intro n r hn _
  cases xs with
  | nil =>
    obtain ⟨m, rfl⟩ := Nat.exists_eq_add_of_le' (show 1 ≤ n from (show 2 ≤ n from hn).trans' (by omega))
    rfl
  | cons x xs =>
    rw [asciiText_arr_cons, List.length_cons, List.length_append] at hn
    obtain ⟨m, rfl⟩ := Nat.exists_eq_add_of_le' (show 1 ≤ n by omega)
    have hdelim : Delim (asciiItems xs ++ r) := by
      cases xs with
      | nil => exact delim_of_head (by decide)
      | cons y ys =>
        rw [asciiItems_cons]
        exact delim_of_head (by decide)
    obtain ⟨c, t, hc, hws, hb, -⟩ := asciiText_head x
    have hx := h x (by simp) m _ (by omega) hdelim
    rw [hc, List.cons_append] at hx
    rw [asciiText_arr_cons, loadValue, List.cons_append, List.append_assoc, skipWs_cons (by decide), hc, List.cons_append]
    simp only [Char.reduceEq, if_false, if_true, skipWs_cons hws]
    split
    · rename_i heq; exact absurd (List.cons.inj heq).1 hb
    · simp only [hx, Option.bind_eq_bind, Option.bind_some, Option.pure_def,
        loadItems_asciiItems (fun y hy => h y (List.mem_cons_of_mem _ hy)) m r (by omega)]

theorem asciiReadsBack_obj {kvs : List (String × Json)} (hn : (kvs.map Prod.fst).Nodup)
    (h : ∀ kv ∈ kvs, AsciiReadsBack kv.2) : AsciiReadsBack (.obj kvs) := by
  intro n r hlen _
  cases kvs with
  | nil =>
    obtain ⟨m, rfl⟩ := Nat.exists_eq_add_of_le' (show 1 ≤ n from (show 2 ≤ n from hlen).trans' (by omega))
    rfl
  | cons kv kvs =>
    obtain ⟨k, x⟩ := kv
    simp only [asciiText_obj_cons, List.length_cons, List.length_append] at hlen
    obtain ⟨m, rfl⟩ := Nat.exists_eq_add_of_le' (show 1 ≤ n by omega)
    have hx : loadMember m (asciiText (.str k) ++ ':' :: (asciiText x ++ (asciiMembers kvs ++ r))) =
        some ((k, x), asciiMembers kvs ++ r) :=
      loadMember_ascii (x := x) (h (k, x) (by simp)) (by omega) (asciiMembers_append_delim kvs r)
    rw [asciiText_str_append] at hx
    rw [asciiText_obj_cons, loadValue, List.cons_append, List.append_assoc, List.cons_append, List.append_assoc,
      skipWs_cons (by decide), asciiText_str_append]
    simp only [Char.reduceEq, if_false, if_true, skipWs_cons (show isWs '"' = false by decide)]
    split
    · rename_i heq; exact absurd (List.cons.inj heq).1 (by decide)
    · simp only [hx, Option.bind_eq_bind, Option.bind_some, Option.pure_def, ofMembers_eq hn,
        loadMembers_asciiMembers (fun y hy => h y (List.mem_cons_of_mem _ hy)) m r (by omega)]

theorem asciiReadsBack_atom {j : Json} (hj : IsAtom j) : AsciiReadsBack j := by
  intro n r hlen hr
  obtain ⟨c, t, hc, -⟩ := asciiText_head j
  rw [hc, List.length_cons] at hlen
  obtain ⟨m, rfl⟩ := Nat.exists_eq_add_of_le' (show 1 ≤ n by omega)
  exact loadValue_asciiText hj hr m

/-- **Every value is read back** from its ASCII text. -/
theorem asciiReadsBack {j : Json} (hj : j.wf = true) : AsciiReadsBack j := by
  induction j using Json.induct with
  | null => exact asciiReadsBack_atom trivial
  | bool b => exact asciiReadsBack_atom trivial
  | int i => exact asciiReadsBack_atom trivial
  | float x => exact asciiReadsBack_atom trivial
  | str s => exact asciiReadsBack_atom trivial
  | arr xs ih => exact asciiReadsBack_arr fun x hx => ih x hx ((Json.wf_arr xs).1 hj x hx)
  | obj kvs ih =>
    obtain ⟨hn, hw⟩ := (Json.wf_obj kvs).1 hj
    exact asciiReadsBack_obj hn fun kv hkv => ih kv hkv (hw kv hkv)

/-- **The round trip**: `json.loads` of what `json.dumps` wrote with its defaults, the separators
apart. -/
theorem loads_asciiText {j : Json} (hj : j.wf = true) : loads (String.ofList (asciiText j)) = some j := by
  have h := asciiReadsBack hj ((asciiText j).length + 1) [] (Nat.le_succ _) (by simp [Delim])
  rw [List.append_nil] at h
  simp [loads, h, skipWs]

/-! ### No control characters -/

/-- No character before the blank. -/
def Printed (t : List Char) : Prop := ∀ c ∈ t, 32 ≤ c.toNat

instance (t : List Char) : Decidable (Printed t) := List.decidableBAll (fun c : Char => 32 ≤ c.toNat) t

theorem Printed.nil : Printed [] := by simp [Printed]

theorem Printed.cons {c : Char} {t : List Char} (hc : 32 ≤ c.toNat) (ht : Printed t) : Printed (c :: t) :=
  List.forall_mem_cons.2 ⟨hc, ht⟩

theorem Printed.append {t u : List Char} (ht : Printed t) (hu : Printed u) : Printed (t ++ u) :=
  List.forall_mem_append.2 ⟨ht, hu⟩

theorem Printed.newline {t : List Char} (ht : Printed t) : '\n' ∉ t := fun h => absurd (ht _ h) (by decide)

theorem printed_hexDigit : ∀ n < 16, 32 ≤ (hexDigit n).toNat := by decide

theorem printed_escapeChar (c : Char) : Printed (escapeChar c) := by
  unfold escapeChar
  split_ifs with _ _ _ _ _ _ _ hcontrol
  iterate 7 exact .cons (by decide) (.cons (by decide) .nil)
  · have h₁ := printed_hexDigit (c.toNat / 16) (by omega)
    have h₂ := printed_hexDigit (c.toNat % 16) (by omega)
    exact .cons (by decide) (.cons (by decide) (.cons (by decide) (.cons (by decide) (.cons h₁ (.cons h₂ .nil)))))
  · exact .cons (by omega) .nil

theorem printed_renderStr (s : String) : Printed (renderStr s) := by
  have hchars : ∀ cs, Printed (renderChars cs) := by
    intro cs
    induction cs with
    | nil => exact .cons (by decide) .nil
    | cons c cs ih => exact (printed_escapeChar c).append ih
  exact .cons (by decide) (hchars s.toList)

theorem printed_num {t : List Char} (h : t.all isNumChar = true) : Printed t := by
  intro c hc
  have hnum := List.all_eq_true.1 h c hc
  simp only [isNumChar, Bool.or_eq_true, beq_iff_eq, Char.isDigit, Bool.and_eq_true, decide_eq_true_eq] at hnum
  rcases hnum with ((((⟨hlow, -⟩ | rfl) | rfl) | rfl) | rfl) | rfl
  · have hle : 48 ≤ c.toNat := hlow
    omega
  all_goals decide

theorem printed_renderItems {xs : List Json} (h : ∀ x ∈ xs, Printed (render x)) : Printed (renderItems xs) := by
  induction xs with
  | nil => exact .cons (by decide) .nil
  | cons x xs ih =>
    rw [renderItems]
    exact .cons (by decide) ((h x (by simp)).append (ih fun y hy => h y (List.mem_cons_of_mem _ hy)))

theorem printed_renderMembers {kvs : List (String × Json)} (h : ∀ kv ∈ kvs, Printed (render kv.2)) :
    Printed (renderMembers kvs) := by
  induction kvs with
  | nil => exact .cons (by decide) .nil
  | cons kv kvs ih =>
    obtain ⟨k, v⟩ := kv
    have hrest := (h (k, v) (by simp)).append (ih fun y hy => h y (List.mem_cons_of_mem _ hy))
    rw [renderMembers]
    exact .cons (by decide) ((printed_renderStr k).append (.cons (by decide) hrest))

/-- **`json.dumps` writes no control character.** -/
theorem printed_render (j : Json) : Printed (render j) := by
  induction j using Json.induct with
  | null => rw [render]; decide
  | bool b => cases b <;> rw [render] <;> decide
  | int i => rw [render]; exact printed_num (renderInt_numeric i)
  | float x => rw [render]; exact printed_num x.numeric
  | str s => rw [render]; exact printed_renderStr s
  | arr xs ih =>
    cases xs with
    | nil => rw [render]; decide
    | cons x xs =>
      rw [render]
      exact .cons (by decide) ((ih x (by simp)).append (printed_renderItems fun y hy => ih y (List.mem_cons_of_mem _ hy)))
  | obj kvs ih =>
    cases kvs with
    | nil => rw [render]; decide
    | cons kv kvs =>
      obtain ⟨k, v⟩ := kv
      have hrest := (ih (k, v) (by simp)).append (printed_renderMembers fun y hy => ih y (List.mem_cons_of_mem _ hy))
      rw [render]
      exact .cons (by decide) ((printed_renderStr k).append (.cons (by decide) hrest))

theorem printed_escapeUnit (n : ℕ) : Printed (Postgres.escapeUnit n) := by
  have hd : ∀ k, 32 ≤ (hexDigit (k % 16)).toNat := fun k => printed_hexDigit _ (Nat.mod_lt k (by decide))
  exact .cons (by decide) (.cons (by decide) (.cons (hd _) (.cons (hd _) (.cons (hd _) (.cons (hd _) .nil)))))

theorem Printed.flatMap_toAscii {t : List Char} (h : Printed t) : Printed (t.flatMap toAscii) := by
  intro d hd
  obtain ⟨c, hc, hdc⟩ := List.mem_flatMap.1 hd
  have hchar : Printed (toAscii c) := by
    unfold toAscii Postgres.asciiChar
    split_ifs
    · exact .cons (h c hc) .nil
    · exact printed_escapeUnit _
    · exact (printed_escapeUnit _).append (printed_escapeUnit _)
  exact hchar d hdc

theorem printed_asciiText (j : Json) : Printed (asciiText j) := (printed_render j).flatMap_toAscii

end KeyRegistry
end ProvableAi
