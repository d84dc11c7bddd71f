/-
# What passes for a hash

`is_valid_hash` and the validators of `schema.py` test a text by its length and
by `int(v, 16)`, and that reads more than digits.  A `Spelling` is a literal it
reads, piece by piece: white space, a sign, `0x`, groups of digits with an
underscore between them, white space; a digit is of either case or a decimal of
any script.  `intBase16_iff` says that these are all it reads.

So `is_valid_hash` is the test for 64 characters of `0-9a-f` on exactly the texts
of which no other spelling has 64 characters, and a document's hash and key
decode to their bytes exactly if the texts in the document are spelled with
digits alone.  `inputs_hash`, `previous_hash` and `current_hash` of an accepted
proof pass `is_valid_hash` always (`hexDiscipline_iff`).
-/

import ProvableAi.Audit.Body
import ProvableAi.Verifier

namespace ProvableAi
namespace HashText

/-! ### Spellings -/

/-- The ASCII character that `int` reads for one of a text. -/
abbrev ascii : CodePoint → Char := Body.toAsciiDecimal

/-- `int(v, 16)` does not raise `ValueError`, on any text. -/
def intBase16 (v : PyStr) : Bool :=
  hexRun (unprefixedHex (unsignedHex (stripRight ((v.map ascii).dropWhile isAsciiSpace))))

/-- `is_valid_hash`, on any text. -/
def isValidHash (v : PyStr) : Bool := v.length == 64 && intBase16 v

theorem intBase16_ofString (s : String) : intBase16 (.ofString s) = ProvableAi.intBase16 s := by
  have h : (PyStr.ofString s).map ascii = s.toList.map toAscii := by
    rw [PyStr.ofString, List.map_map]
    rfl
  rw [intBase16, h]
  rfl

/-- What `int(v, 16)` reads, piece by piece. -/
structure Spelling where
  left : PyStr
  sign : PyStr
  zeroX : PyStr
  groups : List PyStr
  right : PyStr
  left_space : ∀ c ∈ left, isAsciiSpace (ascii c) = true
  sign_eq : sign.map ascii ∈ [[], ['+'], ['-']]
  zeroX_eq : zeroX.map ascii ∈ [[], ['0', 'x'], ['0', 'X'], ['0', 'x', '_'], ['0', 'X', '_']]
  groups_ne : groups ≠ []
  group_ne : ∀ g ∈ groups, g ≠ []
  group_hex : ∀ g ∈ groups, ∀ c ∈ g, isHexDigit (ascii c) = true
  right_space : ∀ c ∈ right, isAsciiSpace (ascii c) = true

/-- The groups with an underscore between each two. -/
def joinGroups (groups : List PyStr) : PyStr := [.char '_'].intercalate groups

namespace Spelling

/-- The text. -/
def text (s : Spelling) : PyStr := s.left ++ (s.sign ++ (s.zeroX ++ joinGroups s.groups)) ++ s.right

/-- Nothing but one group of characters that pass `p`. -/
def Only (p : Char → Bool) (s : Spelling) : Prop :=
  s.left = [] ∧ s.sign = [] ∧ s.zeroX = [] ∧ s.right = [] ∧
    ∃ g, s.groups = [g] ∧ ∀ c ∈ g, ∃ d, c = .char d ∧ p d = true

/-- ASCII digits alone: no white space, sign, `0x`, underscore or digit of
another script. -/
def Bare (s : Spelling) : Prop := s.Only isHexDigit

/-- ASCII digits alone, none a capital. -/
def Plain (s : Spelling) : Prop := s.Only isLowerHex

end Spelling

/-! ### Every text read is spelled -/

theorem exists_left (v : PyStr) : ∃ l r : PyStr, v = l ++ r ∧ (∀ c ∈ l, isAsciiSpace (ascii c) = true) ∧
    (v.map ascii).dropWhile isAsciiSpace = r.map ascii := by
  refine ⟨v.takeWhile (isAsciiSpace ∘ ascii), v.dropWhile (isAsciiSpace ∘ ascii),
    List.takeWhile_append_dropWhile.symm, fun c hc => ?_, List.dropWhile_map ..⟩
  exact List.all_eq_true.1 List.all_takeWhile c hc

theorem exists_right (v : PyStr) : ∃ l r : PyStr, v = l ++ r ∧ (∀ c ∈ r, isAsciiSpace (ascii c) = true) ∧
    stripRight (v.map ascii) = l.map ascii := by
  obtain ⟨l, r, hv, hl, hr⟩ := exists_left v.reverse
  refine ⟨r.reverse, l.reverse, ?_, fun c hc => hl c (List.mem_reverse.1 hc), ?_⟩
  · rw [← List.reverse_append, ← hv, List.reverse_reverse]
  · rw [stripRight, ← List.map_reverse, hr, List.map_reverse]

theorem exists_sign (v : PyStr) : ∃ s r : PyStr, v = s ++ r ∧ s.map ascii ∈ [[], ['+'], ['-']] ∧
    unsignedHex (v.map ascii) = r.map ascii := by
  cases v with
  | nil => exact ⟨[], [], rfl, by simp, rfl⟩
  | cons c v =>
    by_cases hp : ascii c = '+'
    · exact ⟨[c], v, rfl, by simp [hp], by rw [List.map_cons, hp]; rfl⟩
    · by_cases hm : ascii c = '-'
      · exact ⟨[c], v, rfl, by simp [hm], by rw [List.map_cons, hm]; rfl⟩
      · exact ⟨[], c :: v, rfl, by simp, unsignedHex.eq_3 _ (by simp [hp]) (by simp [hm])⟩

theorem exists_zeroX (v : PyStr) : ∃ p r : PyStr, v = p ++ r ∧
    p.map ascii ∈ [[], ['0', 'x'], ['0', 'X'], ['0', 'x', '_'], ['0', 'X', '_']] ∧
      unprefixedHex (v.map ascii) = r.map ascii := by
  have h3 : ∀ {a b c r'}, v.map ascii = a :: b :: c :: r' →
      ∃ p r : PyStr, v = p ++ r ∧ p.map ascii = [a, b, c] ∧ r' = r.map ascii := by
    intro a b c r' h
    obtain ⟨x, u, rfl, hx, h⟩ := List.map_eq_cons_iff.1 h
    obtain ⟨y, u, rfl, hy, h⟩ := List.map_eq_cons_iff.1 h
    obtain ⟨z, u, rfl, hz, h⟩ := List.map_eq_cons_iff.1 h
    exact ⟨[x, y, z], u, rfl, by simp [hx, hy, hz], h.symm⟩
  have h2 : ∀ {a b r'}, v.map ascii = a :: b :: r' →
      ∃ p r : PyStr, v = p ++ r ∧ p.map ascii = [a, b] ∧ r' = r.map ascii := by
    intro a b r' h
    obtain ⟨x, u, rfl, hx, h⟩ := List.map_eq_cons_iff.1 h
    obtain ⟨y, u, rfl, hy, h⟩ := List.map_eq_cons_iff.1 h
    exact ⟨[x, y], u, rfl, by simp [hx, hy], h.symm⟩
  unfold unprefixedHex
  split
  · rename_i heq
    obtain ⟨p, r, hv, hp, hr⟩ := h3 heq
    exact ⟨p, r, hv, by simp [hp], hr⟩
  · rename_i heq
    obtain ⟨p, r, hv, hp, hr⟩ := h3 heq
    exact ⟨p, r, hv, by simp [hp], hr⟩
  · rename_i heq
    obtain ⟨p, r, hv, hp, hr⟩ := h2 heq
    exact ⟨p, r, hv, by simp [hp], hr⟩
  · rename_i heq
    obtain ⟨p, r, hv, hp, hr⟩ := h2 heq
    exact ⟨p, r, hv, by simp [hp], hr⟩
  · exact ⟨[], v, rfl, by simp, rfl⟩

theorem ascii_char {c : Char} (h : c.toNat < 127) : ascii (.char c) = c := if_pos h

/-- Only an underscore is read as one, and only an ASCII letter as one: what is
read for another character is a blank, a decimal digit or `?`. -/
theorem char_of_ascii {c : CodePoint} {d : Char} (h : ascii c = d) (hs : d ≠ ' ')
    (hq : d ≠ '?') (hd : ¬ (48 ≤ d.toNat ∧ d.toNat ≤ 57)) : c = .char d := by
  cases c with
  | surrogate n => exact absurd h.symm hq
  | char c =>
    rw [ascii, Body.toAsciiDecimal, toAscii] at h
    split at h
    · rw [h]
    · split at h
      · exact absurd h.symm hs
      · cases hc : decimal? c with
        | none =>
          rw [hc] at h
          exact absurd h.symm hq
        | some n =>
          rw [hc] at h
          have hn : ∀ n < 10, 48 ≤ (hexDigit n).toNat ∧ (hexDigit n).toNat ≤ 57 := by decide
          exact absurd (h ▸ hn n (decimal?_lt hc)) hd

/-- Digits with single underscores between them are groups joined by them. -/
theorem exists_groups (v : PyStr) (h : hexRun (v.map ascii) = true) :
    ∃ gs : List PyStr, gs ≠ [] ∧ (∀ g ∈ gs, g ≠ []) ∧ (∀ g ∈ gs, ∀ c ∈ g, isHexDigit (ascii c) = true) ∧
      joinGroups gs = v := by
  generalize hcs : v.map ascii = cs at h
  induction cs using hexRun.induct generalizing v with
  | case1 => simp [hexRun] at h
  | case2 c =>
    obtain ⟨x, rfl, hx⟩ := List.map_eq_singleton_iff.1 hcs
    refine ⟨[[x]], by simp, by simp, ?_, rfl⟩
    simpa [hexRun, hx] using h
  | case3 c r ih =>
    obtain ⟨x, v, rfl, hx, hv⟩ := List.map_eq_cons_iff.1 hcs
    obtain ⟨u, v, rfl, hu, hv⟩ := List.map_eq_cons_iff.1 hv
    rw [hexRun, Bool.and_eq_true] at h
    obtain ⟨gs, hne, hg, hh, rfl⟩ := ih v hv h.2
    refine ⟨[x] :: gs, by simp, by simpa using hg, ?_, ?_⟩
    · simpa [hx, h.1] using hh
    · obtain rfl := char_of_ascii hu (by decide) (by decide) (by decide)
      obtain ⟨g, gs, rfl⟩ := List.exists_cons_of_ne_nil hne
      rw [joinGroups, List.intercalate_cons_cons]
      rfl
  | case4 c r hn hr ih =>
    obtain ⟨x, v, rfl, hx, hv⟩ := List.map_eq_cons_iff.1 hcs
    rw [hexRun.eq_4 c r hn hr, Bool.and_eq_true] at h
    obtain ⟨gs, hne, hg, hh, rfl⟩ := ih v hv h.2
    obtain ⟨g, gs, rfl⟩ := List.exists_cons_of_ne_nil hne
    refine ⟨(x :: g) :: gs, by simp, ?_, ?_, ?_⟩
    · simpa using fun y hy => hg y (List.mem_cons_of_mem _ hy)
    · have h1 := hh g (List.mem_cons_self ..)
      have h2 := fun y hy => hh y (List.mem_cons_of_mem _ hy)
      simpa [hx, h.1] using ⟨h1, h2⟩
    · cases gs with
      | nil => rfl
      | cons g' gs => rw [joinGroups, joinGroups, List.intercalate_cons_cons, List.intercalate_cons_cons]; rfl

/-- `int(v, 16)` reads nothing but spellings. -/
theorem exists_spelling {v : PyStr} (h : intBase16 v = true) : ∃ s : Spelling, s.text = v := by
  rw [intBase16] at h
  obtain ⟨l, v, rfl, hl, hv⟩ := exists_left v
  rw [hv] at h
  obtain ⟨v, r, rfl, hr, hv⟩ := exists_right v
  rw [hv] at h
  obtain ⟨s, v, rfl, hs, hv⟩ := exists_sign v
  rw [hv] at h
  obtain ⟨p, v, rfl, hp, hv⟩ := exists_zeroX v
  rw [hv] at h
  obtain ⟨gs, hne, hg, hh, rfl⟩ := exists_groups v h
  exact ⟨⟨l, s, p, gs, r, hl, hs, hp, hne, hg, hh, hr⟩, by simp [Spelling.text]⟩

/-! ### Every spelling is read -/

theorem isHexDigit_ne {c d : Char} (h : isHexDigit c = true) (hd : isHexDigit d = false) : c ≠ d := by
  rintro rfl
  rw [h] at hd
  cases hd

theorem not_space_of_isHexDigit {c : Char} (h : isHexDigit c = true) : isAsciiSpace c = false := by
  have hb := (isHexDigit_iff c).1 h
  have hs : c ≠ ' ' := isHexDigit_ne h (by decide)
  simp [isAsciiSpace, hs]
  omega

/-- A group of digits is a number, alone or before another. -/
theorem hexRun_group {g : List Char} (hne : g ≠ []) (hh : ∀ c ∈ g, isHexDigit c = true) :
    hexRun g = true ∧ ∀ r, hexRun (g ++ '_' :: r) = hexRun r := by
  induction g with
  | nil => exact absurd rfl hne
  | cons c g ih =>
    have hc := hh c (List.mem_cons_self ..)
    cases g with
    | nil =>
      refine ⟨hc, fun r => ?_⟩
      rw [List.singleton_append, hexRun, hc, Bool.true_and]
    | cons d g =>
      have hd : d ≠ '_' := isHexDigit_ne (hh d (by simp)) (by decide)
      obtain ⟨h1, h2⟩ := ih (by simp) fun x hx => hh x (List.mem_cons_of_mem _ hx)
      refine ⟨?_, fun r => ?_⟩
      · rw [hexRun.eq_4 c (d :: g) (by simp) (by simp [hd]), hc, h1, Bool.true_and]
      · rw [List.cons_append, hexRun.eq_4 c _ (by simp) (by simp [hd]), hc, Bool.true_and, h2]

/-- Groups joined by underscores are a number, which starts and ends with a digit
and has a digit or an underscore in between. -/
theorem joinGroups_spec {gs : List PyStr} (hne : gs ≠ []) (hg : ∀ g ∈ gs, g ≠ [])
    (hh : ∀ g ∈ gs, ∀ c ∈ g, isHexDigit (ascii c) = true) :
    hexRun ((joinGroups gs).map ascii) = true ∧
      (∃ d ds, (joinGroups gs).map ascii = d :: ds ∧ isHexDigit d = true) ∧
      (∃ d, ((joinGroups gs).map ascii).getLast? = some d ∧ isHexDigit d = true) ∧
      ∀ c ∈ (joinGroups gs).map ascii, isHexDigit c = true ∨ c = '_' := by
  induction gs with
  | nil => exact absurd rfl hne
  | cons g gs ih =>
    have hgne := hg g (List.mem_cons_self ..)
    have hgh : ∀ c ∈ g.map ascii, isHexDigit c = true := by
      intro c hc
      obtain ⟨x, hx, rfl⟩ := List.mem_map.1 hc
      exact hh g (List.mem_cons_self ..) x hx
    obtain ⟨h1, h2⟩ := hexRun_group (by simpa using hgne) hgh
    obtain ⟨x, g', hx⟩ := List.exists_cons_of_ne_nil hgne
    cases gs with
    | nil =>
      have hj : joinGroups [g] = g := by simp [joinGroups]
      rw [hj]
      refine ⟨h1, ⟨ascii x, g'.map ascii, by rw [hx]; rfl, hgh _ (by simp [hx])⟩, ?_, fun c hc => .inl (hgh c hc)⟩
      have hlast := List.getLast?_eq_some_getLast (show g.map ascii ≠ [] by simpa using hgne)
      exact ⟨_, hlast, hgh _ (List.getLast_mem _)⟩
    | cons g₂ gs =>
      obtain ⟨r1, -, ⟨d, r3, hd⟩, r4⟩ := ih (by simp) (fun y hy => hg y (List.mem_cons_of_mem _ hy))
        fun y hy => hh y (List.mem_cons_of_mem _ hy)
      have hj : (joinGroups (g :: g₂ :: gs)).map ascii = g.map ascii ++ '_' :: (joinGroups (g₂ :: gs)).map ascii := by
        rw [joinGroups, List.intercalate_cons_cons, joinGroups]
        simp [ascii_char (show '_'.toNat < 127 by decide)]
      rw [hj]
      refine ⟨by rw [h2, r1], ⟨ascii x, g'.map ascii ++ '_' :: (joinGroups (g₂ :: gs)).map ascii, ?_, ?_⟩, ?_, ?_⟩
      · rw [hx]; rfl
      · exact hgh _ (by simp [hx])
      · refine ⟨d, ?_, hd⟩
        rw [List.getLast?_append, List.getLast?_cons, r3]
        rfl
      · intro c hc
        rcases List.mem_append.1 hc with hc | hc
        · exact .inl (hgh c hc)
        · rcases List.mem_cons.1 hc with rfl | hc
          · exact .inr rfl
          · exact r4 c hc

theorem dropWhile_space_append {l r : List Char} (hl : ∀ c ∈ l, isAsciiSpace c = true) {c : Char}
    (hr : r.head? = some c) (hc : isAsciiSpace c = false) : (l ++ r).dropWhile isAsciiSpace = r := by
  rw [List.dropWhile_append_of_pos hl]
  cases r with
  | nil => cases hr
  | cons d r =>
    obtain rfl := Option.some.inj hr
    rw [List.dropWhile_cons_of_neg (by simp [hc])]

theorem stripRight_append {l r : List Char} (hr : ∀ c ∈ r, isAsciiSpace c = true) {c : Char}
    (hl : l.getLast? = some c) (hc : isAsciiSpace c = false) : stripRight (l ++ r) = l := by
  rw [stripRight, List.reverse_append, dropWhile_space_append (by simpa using hr)
    (by rw [List.head?_reverse, hl]) hc, List.reverse_reverse]

theorem unsignedHex_append {s r : List Char} (hs : s ∈ [[], ['+'], ['-']]) {c : Char} (hr : r.head? = some c)
    (hc : isHexDigit c = true) : unsignedHex (s ++ r) = r := by
  have hplus : c ≠ '+' := isHexDigit_ne hc (by decide)
  have hminus : c ≠ '-' := isHexDigit_ne hc (by decide)
  cases r with
  | nil => cases hr
  | cons d r =>
    obtain rfl := Option.some.inj hr
    simp only [List.mem_cons, List.not_mem_nil, or_false] at hs
    rcases hs with rfl | rfl | rfl
    · exact unsignedHex.eq_3 _ (by simp [hplus]) (by simp [hminus])
    · rfl
    · rfl

theorem unprefixedHex_append {p r : List Char}
    (hp : p ∈ [[], ['0', 'x'], ['0', 'X'], ['0', 'x', '_'], ['0', 'X', '_']]) {c : Char}
    (hr : r.head? = some c) (hc : isHexDigit c = true) (hall : ∀ c ∈ r, isHexDigit c = true ∨ c = '_') :
    unprefixedHex (p ++ r) = r := by
  have hx : 'x' ∉ r := fun h => absurd (hall _ h) (by decide)
  have hX : 'X' ∉ r := fun h => absurd (hall _ h) (by decide)
  have hu : ∀ t, r ≠ '_' :: t := by
    rintro t rfl
    obtain rfl := Option.some.inj hr
    exact absurd hc (by decide)
  simp only [List.mem_cons, List.not_mem_nil, or_false] at hp
  rcases hp with rfl | rfl | rfl | rfl | rfl
  · refine unprefixedHex.eq_5 _ ?_ ?_ ?_ ?_
    · rintro t rfl; exact hx (by simp)
    · rintro t rfl; exact hX (by simp)
    · rintro t rfl; exact hx (by simp)
    · rintro t rfl; exact hX (by simp)
  · exact unprefixedHex.eq_3 _ hu
  · exact unprefixedHex.eq_4 _ hu
  · rfl
  · rfl

/-- `int(v, 16)` reads every spelling. -/
theorem intBase16_text (s : Spelling) : intBase16 s.text = true := by
  obtain ⟨hrun, ⟨d, ds, hds, hd⟩, ⟨e, he, hee⟩, hall⟩ := joinGroups_spec s.groups_ne s.group_ne s.group_hex
  obtain ⟨y, hy, hyd⟩ : ∃ y, (s.zeroX.map ascii ++ (joinGroups s.groups).map ascii).head? = some y ∧
      isHexDigit y = true := by
    have hz := s.zeroX_eq
    simp only [List.mem_cons, List.not_mem_nil, or_false] at hz
    rw [hds]
    rcases hz with hz | hz | hz | hz | hz <;> rw [hz]
    · exact ⟨d, rfl, hd⟩
    all_goals exact ⟨'0', rfl, by decide⟩
  have hhead : ∃ x, (s.sign.map ascii ++ (s.zeroX.map ascii ++ (joinGroups s.groups).map ascii)).head? =
      some x ∧ isAsciiSpace x = false := by
    have hsign := s.sign_eq
    simp only [List.mem_cons, List.not_mem_nil, or_false] at hsign
    rcases hsign with hs | hs | hs <;> rw [hs]
    · exact ⟨y, hy, not_space_of_isHexDigit hyd⟩
    · exact ⟨'+', rfl, by decide⟩
    · exact ⟨'-', rfl, by decide⟩
  obtain ⟨x, hx, hxs⟩ := hhead
  have hlast : (s.sign.map ascii ++ (s.zeroX.map ascii ++ (joinGroups s.groups).map ascii)).getLast? = some e := by
    rw [List.getLast?_append, List.getLast?_append, he]
    rfl
  have hleft : ∀ c ∈ s.left.map ascii, isAsciiSpace c = true := by
    simpa using s.left_space
  have hright : ∀ c ∈ s.right.map ascii, isAsciiSpace c = true := by
    simpa using s.right_space
  rw [intBase16, Spelling.text, List.map_append, List.map_append, List.map_append, List.map_append,
    List.append_assoc, dropWhile_space_append hleft (by rw [List.head?_append, hx]; rfl) hxs,
    stripRight_append hright hlast (not_space_of_isHexDigit hee), unsignedHex_append s.sign_eq hy hyd,
    unprefixedHex_append s.zeroX_eq (by rw [hds]; rfl) hd hall]
  exact hrun

/-- **What `int(v, 16)` reads**: the spellings of a number in base 16. -/
theorem intBase16_iff {v : PyStr} : intBase16 v = true ↔ ∃ s : Spelling, s.text = v := by
  constructor
  · exact exists_spelling
  · rintro ⟨s, rfl⟩
    exact intBase16_text s

/-! ### Texts of digits alone -/

/-- Every character is an ASCII one that passes `p`. -/
def AllChars (p : Char → Bool) (v : PyStr) : Prop := ∀ c ∈ v, ∃ d, c = .char d ∧ p d = true

/-- A spelling is of digits alone exactly if its text is. -/
theorem Spelling.only_iff {p : Char → Bool} (hp : ∀ d, p d = true → isHexDigit d = true) {s : Spelling} :
    s.Only p ↔ AllChars p s.text := by
  constructor
  · rintro ⟨hl, hs, hz, hr, g, hg, hall⟩
    have ht : s.text = g := by simp [text, hl, hs, hz, hr, hg, joinGroups]
    rw [ht]
    exact hall
  · intro h
    have hmem : ∀ c ∈ s.text, isHexDigit (ascii c) = true := by
      intro c hc
      obtain ⟨d, rfl, hd⟩ := h c hc
      have hb := (isHexDigit_iff d).1 (hp d hd)
      rw [ascii_char (by omega)]
      exact hp d hd
    have hleft : s.left = [] := by
      refine List.eq_nil_iff_forall_not_mem.2 fun c hc => ?_
      have := not_space_of_isHexDigit (hmem c (by simp [text, hc]))
      rw [s.left_space c hc] at this
      cases this
    have hright : s.right = [] := by
      refine List.eq_nil_iff_forall_not_mem.2 fun c hc => ?_
      have := not_space_of_isHexDigit (hmem c (by simp [text, hc]))
      rw [s.right_space c hc] at this
      cases this
    have hsign : s.sign = [] := by
      have hs := s.sign_eq
      simp only [List.mem_cons, List.not_mem_nil, or_false, List.map_eq_nil_iff] at hs
      rcases hs with hs | hs | hs
      · exact hs
      all_goals
        obtain ⟨c, hc, hx⟩ := List.map_eq_singleton_iff.1 hs
        have := hmem c (by simp [text, hc])
        rw [hx] at this
        exact absurd this (by decide)
    have hzero : s.zeroX = [] := by
      have hx : ∀ x, isHexDigit x = false → x ∉ s.zeroX.map ascii := by
        intro x hx hm
        obtain ⟨c, hc, rfl⟩ := List.mem_map.1 hm
        have := hmem c (by simp [text, hc])
        rw [hx] at this
        cases this
      have hz := s.zeroX_eq
      have h1 := hx 'x' (by decide)
      have h2 := hx 'X' (by decide)
      simp only [List.mem_cons, List.not_mem_nil, or_false] at hz
      rcases hz with hz | hz | hz | hz | hz
      · exact List.map_eq_nil_iff.1 hz
      all_goals
        rw [hz] at h1 h2
        simp at h1 h2
    refine ⟨hleft, hsign, hzero, hright, ?_⟩
    have htext : s.text = joinGroups s.groups := by simp [text, hleft, hright, hsign, hzero]
    obtain ⟨g, gs, hg⟩ := List.exists_cons_of_ne_nil s.groups_ne
    cases gs with
    | nil =>
      refine ⟨g, hg, fun c hc => h c ?_⟩
      rw [htext, hg]
      simpa [joinGroups] using hc
    | cons g₂ gs =>
      obtain ⟨d, hd, hpd⟩ := h (.char '_') (by rw [htext, hg, joinGroups, List.intercalate_cons_cons]; simp)
      obtain rfl := CodePoint.char.inj hd
      exact absurd (hp _ hpd) (by decide)

/-- Digits alone are read. -/
theorem intBase16_of_allChars {v : PyStr} (h : AllChars isHexDigit v) (hne : v ≠ []) : intBase16 v = true := by
  have hhex : ∀ c ∈ v, isHexDigit (ascii c) = true := by
    intro c hc
    obtain ⟨d, rfl, hd⟩ := h c hc
    rwa [ascii_char (by have := (isHexDigit_iff d).1 hd; omega)]
  have ht := intBase16_text ⟨[], [], [], [v], [], by simp, by simp, by simp, by simp, by simpa using hne,
    by simpa using hhex, by simp⟩
  simpa [Spelling.text, joinGroups] using ht

theorem AllChars.mono {p q : Char → Bool} (hpq : ∀ d, p d = true → q d = true) {v : PyStr}
    (h : AllChars p v) : AllChars q v := by
  intro c hc
  obtain ⟨d, hd, hp⟩ := h c hc
  exact ⟨d, hd, hpq d hp⟩

/-- **Which texts pass.**  `is_valid_hash` is the test for 64 characters of
`0-9a-f` on a text exactly if no spelling of it that has 64 characters is of
anything but these digits. -/
theorem isValidHash_strict_iff (v : PyStr) :
    (isValidHash v = true ↔ v.length = 64 ∧ AllChars isLowerHex v) ↔
      ∀ s : Spelling, s.text = v → v.length = 64 → s.Plain := by
  have hlower : ∀ d, isLowerHex d = true → isHexDigit d = true := fun d => lowerHex_isHexDigit
  rw [isValidHash, Bool.and_eq_true, beq_iff_eq]
  constructor
  · rintro h s rfl hlen
    exact (Spelling.only_iff hlower).2 (h.1 ⟨hlen, intBase16_text s⟩).2
  · intro h
    refine ⟨fun ⟨hlen, hv⟩ => ?_, fun ⟨hlen, hv⟩ => ⟨hlen, ?_⟩⟩
    · obtain ⟨s, rfl⟩ := intBase16_iff.1 hv
      exact ⟨hlen, (Spelling.only_iff hlower).1 (h s rfl hlen)⟩
    · exact intBase16_of_allChars (hv.mono hlower) (by rintro rfl; cases hlen)

/-! ### The texts of a document -/

/-- `bytes.fromhex(t)` is `n` bytes. -/
def DecodesTo (n : ℕ) (t : String) : Prop := ∃ bs, fromHex t = some bs ∧ bs.length = n

theorem hexPairs_of_digits : ∀ (n : ℕ) {cs : List Char}, (∀ c ∈ cs, isHexDigit c = true) → cs.length = 2 * n →
    ∃ bs, hexPairs cs = some bs ∧ bs.length = n
  | 0, cs, _, hlen => ⟨[], by obtain rfl := List.length_eq_zero_iff.1 hlen; rfl, rfl⟩
  | n + 1, [], _, hlen => by simp at hlen
  | n + 1, [a], _, hlen => by simp at hlen; omega
  | n + 1, a :: b :: cs, h, hlen => by
    obtain ⟨x, hx⟩ := Option.isSome_iff_exists.1 (h a (by simp))
    obtain ⟨y, hy⟩ := Option.isSome_iff_exists.1 (h b (by simp))
    have hrest : cs.length = 2 * n := by simp only [List.length_cons] at hlen; omega
    obtain ⟨bs, hbs, hl⟩ := hexPairs_of_digits n (fun c hc => h c (by simp [hc])) hrest
    refine ⟨UInt8.ofNat (16 * x + y) :: bs, ?_, by simp [hl]⟩
    rw [hexPairs, not_space_of_isHexDigit (h a (by simp))]
    simp [hx, hy, hbs]

/-- A checked field decodes to its bytes exactly if it is of digits alone. -/
theorem decodesTo_iff {n : ℕ} (t : HexText (2 * n)) :
    DecodesTo n t.text ↔ t.text.toList.all isHexDigit = true := by
  have hlen := t.text_length
  constructor
  · rintro ⟨bs, hbs, rfl⟩
    exact fromHex_digits hbs hlen
  · intro h
    exact hexPairs_of_digits n (List.all_eq_true.1 h) (by rw [String.length_toList, hlen])

theorem allChars_ofString {p : Char → Bool} {s : String} :
    AllChars p (.ofString s) ↔ s.toList.all p = true := by
  rw [List.all_eq_true]
  constructor
  · intro h c hc
    obtain ⟨d, hd, hp⟩ := h (.char c) (List.mem_map_of_mem hc)
    obtain rfl := CodePoint.char.inj hd
    exact hp
  · intro h c hc
    obtain ⟨d, hd, rfl⟩ := List.mem_map.1 hc
    exact ⟨d, rfl, h d hd⟩

/-- **A field of an accepted document decodes** exactly if the text in the
document is spelled with digits alone. -/
theorem make_decodesTo_iff {n : ℕ} {raw : String} {t : HexText (2 * n)} (h : HexText.make (2 * n) raw = some t) :
    DecodesTo n t.text ↔ ∀ s : Spelling, s.text = .ofString raw → s.Bare := by
  rw [HexText.make] at h
  split at h
  · rename_i hraw
    obtain rfl := Option.some.inj h
    obtain ⟨s, hs⟩ := intBase16_iff.1 ((intBase16_ofString raw).trans hraw.2)
    rw [decodesTo_iff, all_isHexDigit_lower, ← allChars_ofString]
    constructor
    · intro hall r hr
      exact (Spelling.only_iff fun _ h => h).2 (hr ▸ hall)
    · intro hbare
      exact hs ▸ (Spelling.only_iff fun _ h => h).1 (hbare s hs)
  · cases h

/-- A text in a section of a document. -/
def rawText (j : Json) (section_ field : String) : Option String :=
  (j.get? section_).bind fun v => v.strField field

/-- The hash and the key and the signature of a document. -/
def decodedTexts (j : Json) : List (Option String) :=
  [rawText j "ledger" "current_hash", rawText j "signature" "public_key", rawText j "signature" "value"]

/-- The checked fields of an accepted document are made from its texts. -/
theorem rawText_of_parse {py : Pydantic} {j : Json} {p : ProofV1} (h : ProofV1.parse py j = some p) :
    ∃ cur pub val, decodedTexts j = [some cur, some pub, some val] ∧
      HexText.make 64 cur = some p.ledger.currentHash ∧
      HexText.make 64 pub = some p.signature.publicKey ∧ HexText.make 128 val = some p.signature.value := by
  simp only [ProofV1.parse, Option.bind_eq_bind, Option.bind_eq_some_iff] at h
  obtain ⟨-, -, i, -, d, -, c, -, g, -, t, -, l, hl, s, hs, hm⟩ := h
  obtain ⟨-, -, -, -, -, rfl, rfl⟩ := ProofV1.make_eq_some.1 hm
  obtain ⟨v, hv, hl⟩ := Option.bind_eq_some_iff.1 hl
  obtain ⟨w, hw, hs⟩ := Option.bind_eq_some_iff.1 hs
  simp only [Ledger.parse, Option.bind_eq_bind, Option.bind_eq_some_iff] at hl
  obtain ⟨n, -, prev, -, cur, hcur, ts, -, hl⟩ := hl
  simp only [Signature.parse, Option.bind_eq_bind, Option.bind_eq_some_iff] at hs
  obtain ⟨a, -, k, -, pub, hpub, val, hval, hs⟩ := hs
  obtain ⟨-, -, hcur', -⟩ := Ledger.make_eq_some.1 hl
  obtain ⟨-, hpub', hval'⟩ := Signature.make_eq_some.1 hs
  refine ⟨cur, pub, val, ?_, hcur', hpub', hval'⟩
  simp only [decodedTexts, rawText, hv, hw, Option.bind_some, hcur, hpub, hval]

theorem isValidHash_text (t : HexText 64) : isValidHash (.ofString t.text) = true := by
  rw [isValidHash, intBase16_ofString, t.text_hex, PyStr.ofString, List.length_map, String.length_toList,
    t.text_length]
  rfl

/-- **The hex discipline.**  `is_valid_hash` is the strict test on exactly the
texts no other spelling of which has 64 characters; the hashes of an accepted
document pass it always, and its hash, key and signature decode to their bytes
exactly if the document spells them with digits alone. -/
theorem hexDiscipline_iff (py : Pydantic) :
    (∀ v, (isValidHash v = true ↔ v.length = 64 ∧ AllChars isLowerHex v) ↔
      ∀ s : Spelling, s.text = v → v.length = 64 → s.Plain) ∧
    ∀ j p, ProofV1.parse py j = some p →
      (isValidHash (.ofString p.decisionContext.inputsHash.text) = true ∧
        isValidHash (.ofString p.ledger.previousHash.text) = true ∧
        isValidHash (.ofString p.ledger.currentHash.text) = true) ∧
      ((DecodesTo 32 p.ledger.currentHash.text ∧ DecodesTo 32 p.signature.publicKey.text ∧
          DecodesTo 64 p.signature.value.text) ↔
        ∀ raw, some raw ∈ decodedTexts j → ∀ s : Spelling, s.text = .ofString raw → s.Bare) := by
  refine ⟨isValidHash_strict_iff, fun j p h => ⟨⟨isValidHash_text _, isValidHash_text _, isValidHash_text _⟩, ?_⟩⟩
  obtain ⟨cur, pub, val, hraw, hcur, hpub, hval⟩ := rawText_of_parse h
  have hc := make_decodesTo_iff (n := 32) hcur
  have hp := make_decodesTo_iff (n := 32) hpub
  have hv := make_decodesTo_iff (n := 64) hval
  rw [hc, hp, hv, hraw]
  simp only [List.mem_cons, List.not_mem_nil, or_false, Option.some.injEq]
  constructor
  · rintro ⟨h1, h2, h3⟩ raw (rfl | rfl | rfl)
    exacts [h1, h2, h3]
  · intro h
    exact ⟨h cur (.inl rfl), h pub (.inr (.inl rfl)), h val (.inr (.inr rfl))⟩

/-! A prefix that passes. -/

/-- `0x` and 62 zeros. -/
def prefixedHash : HexText 64 :=
  ⟨String.ofList ('0' :: 'x' :: List.replicate 62 '0'), by decide, by decide, by decide⟩

/-- The proof of a loan with this for a hash. -/
def prefixedLoan : ProofV1 :=
  { loanProofs.1 with ledger := { loanProofs.1.ledger with currentHash := prefixedHash } }

theorem prefixedHash_not_decoded : ¬ DecodesTo 32 prefixedHash.text := by
  rw [decodesTo_iff (n := 32) prefixedHash]
  decide

theorem prefixedLoan_not_decoded : ¬ DecodesTo 32 prefixedLoan.ledger.currentHash.text := by
  have h : prefixedLoan.ledger.currentHash = prefixedHash := rfl
  rw [h]
  exact prefixedHash_not_decoded

/-- The hash of an accepted document need not be one: no bytes are read of it. -/
theorem prefixedLoan_spelled :
    ∃ raw, some raw ∈ decodedTexts prefixedLoan.dump ∧ ∃ s : Spelling, s.text = .ofString raw ∧ ¬ s.Bare := by
  have h := (hexDiscipline_iff plainPydantic).2 _ _ (prefixedLoan.parse_dump plainPydantic)
  by_contra hn
  have hbare : ∀ raw, some raw ∈ decodedTexts prefixedLoan.dump →
      ∀ s : Spelling, s.text = .ofString raw → s.Bare := by
    intro raw hr s hs
    by_contra hb
    exact hn ⟨raw, hr, s, hs, hb⟩
  exact prefixedLoan_not_decoded (h.2.2 hbare).1

/-- A text that is no hash passes, and so does a document whose hash is this text. -/
theorem hexDiscipline_fails : ¬ (∀ v, isValidHash v = true ↔ v.length = 64 ∧ AllChars isLowerHex v) ∧
    ¬ ∀ j p, ProofV1.parse plainPydantic j = some p → DecodesTo 32 p.ledger.currentHash.text := by
  constructor
  · intro h
    have hall := ((h _).1 (isValidHash_text prefixedHash)).2
    rw [allChars_ofString] at hall
    exact absurd hall (by decide)
  · intro h
    exact prefixedLoan_not_decoded (h _ _ (prefixedLoan.parse_dump plainPydantic))

end HashText
end ProvableAi
