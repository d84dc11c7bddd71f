/-
# Inside and outside the strings of a JSON text

A reader with four states only: outside the strings, after a full stop there,
inside a string, after a backslash there.  A text that `json.loads` accepts is
read from outside to outside (`closed_of_acceptsJson`), and so is what
`json.dumps` writes (`closed_dump`).

Two readers of one text of which one is inside a string where the other is
outside stay so (`Crossed.run`): a quotation mark lets them change places, and
no text of the outside has a backslash.  What follows a full stop of a written
text is read either with such a partner or from within a number, so it is no
JSON where the text ends in a quoted word that is none (`not_acceptsJson_suffix`).
-/

import ProvableAi.Json.Scanner

namespace ProvableAi

/-! ### Inside and outside the strings -/

/-- Where a reader of JSON text is. -/
inductive LexState where
  /-- outside the strings -/
  | out
  /-- after a full stop outside the strings -/
  | dot
  /-- inside a string -/
  | inStr
  /-- after a backslash inside a string -/
  | esc
  deriving DecidableEq

/-- A character that stands outside the strings of a JSON text, but for the
quotation mark and the full stop. -/
def isOutChar (c : Char) : Bool :=
  isWs c || c.isDigit || ['{', '}', '[', ']', ',', ':', '-', '+', 'e', 'E', 'n', 'u', 'l', 't', 'r', 'f', 'a', 's',
    'N', 'I', 'i', 'y'].contains c

namespace LexState

/-- Where the reader is after one more character; `none` where no JSON text has it. -/
def step : LexState → Char → Option LexState
  | out, c => if c = '"' then some inStr else if c = '.' then some dot else if isOutChar c then some out else none
  | dot, c => if c.isDigit then some out else none
  | inStr, c => if c = '"' then some out else if c = '\\' then some esc else some inStr
  | esc, _ => some inStr

/-- Where the reader is after a text. -/
def run : LexState → List Char → Option LexState
  | s, [] => some s
  | s, c :: cs => (s.step c).bind fun s => s.run cs

theorem run_append (s : LexState) (xs ys : List Char) : s.run (xs ++ ys) = (s.run xs).bind fun s => s.run ys := by
  induction xs generalizing s with
  | nil => rfl
  | cons c xs ih =>
    rw [List.cons_append, run, run]
    cases s.step c with
    | none => rfl
    | some s => exact ih s

/-- A text that begins and ends outside the strings. -/
def Closed (w : List Char) : Prop := out.run w = some out

theorem Closed.nil : Closed [] := rfl

theorem Closed.append {v w : List Char} (hv : Closed v) (hw : Closed w) : Closed (v ++ w) := by
  rw [Closed, run_append, hv]
  exact hw

theorem isOutChar_ne {c d : Char} (hc : isOutChar c = true) (hd : isOutChar d = false) : c ≠ d := by
  rintro rfl
  rw [hc] at hd
  exact absurd hd (by decide)

theorem step_out {c : Char} (h : isOutChar c = true) : out.step c = some out := by
  rw [step, if_neg (isOutChar_ne h (by decide)), if_neg (isOutChar_ne h (by decide)), if_pos h]

theorem Closed.cons {c : Char} {w : List Char} (hc : isOutChar c = true) (hw : Closed w) : Closed (c :: w) := by
  rw [Closed, run, step_out hc]
  exact hw

/-- Characters of the outside only. -/
theorem closed_of_all {w : List Char} (h : ∀ c ∈ w, isOutChar c = true) : Closed w := by
  induction w with
  | nil => exact .nil
  | cons c w ih => exact .cons (h c (by simp)) (ih fun d hd => h d (List.mem_cons_of_mem _ hd))

theorem isOutChar_of_ws {c : Char} (h : isWs c = true) : isOutChar c = true := by simp [isOutChar, h]

theorem isOutChar_of_digit {c : Char} (h : c.isDigit = true) : isOutChar c = true := by simp [isOutChar, h]

/-- The white space that is skipped. -/
theorem exists_skipWs (cs : List Char) : ∃ w, cs = w ++ skipWs cs ∧ Closed w :=
  ⟨cs.takeWhile isWs, (List.takeWhile_append_dropWhile).symm,
    closed_of_all fun _ hc => isOutChar_of_ws (List.mem_takeWhile_imp hc)⟩

/-! Numbers. -/

theorem closed_of_digits {w : List Char} (h : w.all Char.isDigit = true) : Closed w :=
  closed_of_all fun c hc => isOutChar_of_digit (List.all_eq_true.1 h c hc)

theorem closed_takeWhile_digit (w : List Char) : Closed (w.takeWhile Char.isDigit) :=
  closed_of_all fun _ hc => isOutChar_of_digit (List.mem_takeWhile_imp hc)

theorem closed_of_expTok {w : List Char} (h : expTok w = true) : Closed w := by
  cases w with
  | nil => exact .nil
  | cons e r =>
    simp only [expTok, Bool.and_eq_true, Bool.or_eq_true, beq_iff_eq] at h
    obtain ⟨⟨he, -⟩, hds⟩ := h
    refine .cons (by rcases he with rfl | rfl <;> decide) ?_
    revert hds
    unfold expDigits
    split
    · exact fun hds => .cons (by decide) (closed_of_digits hds)
    · exact fun hds => .cons (by decide) (closed_of_digits hds)
    · exact closed_of_digits

/-- A full stop with a digit after it. -/
theorem closed_dot {w : List Char} (hne : w.takeWhile Char.isDigit ≠ []) (hrest : Closed (w.dropWhile Char.isDigit)) :
    Closed ('.' :: w) := by
  cases w with
  | nil => exact absurd rfl hne
  | cons d w =>
    have hd : d.isDigit = true := by
      by_contra hd
      exact hne (by simp [hd])
    have hw : Closed w := by
      rw [← List.takeWhile_append_dropWhile (p := Char.isDigit) (l := w)]
      rw [List.dropWhile_cons_of_pos hd] at hrest
      exact (closed_takeWhile_digit w).append hrest
    have hstep : dot.step d = some out := if_pos hd
    rw [Closed, run, show out.step '.' = some dot from rfl, Option.bind_some, run, hstep]
    exact hw

theorem closed_of_unsigned {w : List Char} (h : Closed (unsigned w)) : Closed w := by
  revert h
  unfold unsigned
  split
  · exact fun h => .cons (by decide) h
  · exact id

theorem closed_of_floatTok {t : List Char} (h : floatTok t = true) : Closed t := by
  refine closed_of_unsigned ?_
  rw [floatTok, Bool.and_eq_true] at h
  rw [← List.takeWhile_append_dropWhile (p := Char.isDigit) (l := unsigned t)]
  refine (closed_takeWhile_digit _).append ?_
  obtain ⟨-, h⟩ := h
  split at h
  · rename_i r heq
    rw [heq]
    rw [Bool.and_eq_true, Bool.or_eq_true, List.isEmpty_iff] at h
    refine closed_dot (by simpa using h.1) ?_
    rcases h.2 with hnil | hexp
    · rw [hnil]
      exact .nil
    · exact closed_of_expTok hexp
  · exact closed_of_expTok h

theorem closed_of_natTok {t : List Char} (h : natTok t = true) : Closed t := by
  refine closed_of_digits ?_
  unfold natTok at h
  split at h
  · cases h
  · rfl
  · rename_i c cs _
    rw [Bool.and_eq_true, Bool.and_eq_true] at h
    rw [List.all_cons, h.1.1, h.2]
    rfl

theorem closed_of_loadInt {t : List Char} {n : ℤ} (h : loadInt t = some n) : Closed t := by
  unfold loadInt at h
  split at h
  · split_ifs at h with hn
    exact .cons (by decide) (closed_of_natTok hn)
  · split_ifs at h with hn
    exact closed_of_natTok hn

theorem closed_of_loadNum {t : List Char} (h : (loadNum t).isSome = true) : Closed t := by
  rw [loadNum] at h
  split_ifs at h with hf
  · exact closed_of_floatTok hf.2
  · rw [Option.isSome_map, Option.isSome_iff_exists] at h
    obtain ⟨n, hn⟩ := h
    exact closed_of_loadInt hn

/-! Strings. -/

/-- Inside a string: from here to the closing quotation mark. -/
def Closes (w : List Char) : Prop := inStr.run w = some out

theorem Closes.closed {w : List Char} (h : Closes w) : Closed ('"' :: w) := h

theorem Closes.cons {c : Char} {w : List Char} (hq : c ≠ '"') (hb : c ≠ '\\') (h : Closes w) : Closes (c :: w) := by
  rw [Closes, run, show inStr.step c = some inStr by rw [step, if_neg hq, if_neg hb]]
  exact h

theorem Closes.escape (e : Char) {w : List Char} (h : Closes w) : Closes ('\\' :: e :: w) := h

theorem hexVal_plain {c : Char} (h : (hexVal c).isSome = true) : c ≠ '"' ∧ c ≠ '\\' := by
  constructor
  · rintro rfl
    exact absurd h (by decide)
  · rintro rfl
    exact absurd h (by decide)

theorem hex4_isSome {a b c d : Char} (h : (hex4 a b c d).isSome = true) :
    (hexVal a).isSome = true ∧ (hexVal b).isSome = true ∧ (hexVal c).isSome = true ∧ (hexVal d).isSome = true := by
  obtain ⟨n, hn⟩ := Option.isSome_iff_exists.1 h
  simp only [hex4, Option.bind_eq_bind, Option.bind_eq_some_iff] at hn
  obtain ⟨x, hx, y, hy, z, hz, w, hw, -⟩ := hn
  simp [hx, hy, hz, hw]

/-- A string that is scanned is closed by what was read. -/
theorem closes_of_scanString {cs r : List Char} (h : scanString cs = some r) : ∃ w, cs = w ++ r ∧ Closes w := by
  fun_induction scanString cs with
  | case1 => cases h
  | case2 r' =>
    obtain rfl := Option.some.inj h
    exact ⟨['"'], rfl, rfl⟩
  | case3 a b c d r' hhex ih =>
    obtain ⟨w, rfl, hw⟩ := ih h
    obtain ⟨ha, hb, hc, hd⟩ := hex4_isSome hhex
    have ha := hexVal_plain ha
    have hb := hexVal_plain hb
    have hc := hexVal_plain hc
    have hd := hexVal_plain hd
    exact ⟨'\\' :: 'u' :: a :: b :: c :: d :: w, rfl,
      .escape _ (.cons ha.1 ha.2 (.cons hb.1 hb.2 (.cons hc.1 hc.2 (.cons hd.1 hd.2 hw))))⟩
  | case4 => cases h
  | case5 e r' _ _ ih =>
    obtain ⟨w, rfl, hw⟩ := ih h
    exact ⟨'\\' :: e :: w, rfl, .escape e hw⟩
  | case6 => cases h
  | case7 => cases h
  | case8 c r' hq _ _ hc ih =>
    obtain ⟨w, rfl, hw⟩ := ih h
    rw [not_or] at hc
    exact ⟨c :: w, rfl, .cons hq hc.1 hw⟩

/-! Values. -/

theorem expect_eq_some {w cs r : List Char} (h : expect w cs = some r) : cs = w ++ r := by
  rw [expect] at h
  split_ifs at h with hp
  obtain ⟨t, rfl⟩ := hp
  rw [List.drop_left] at h
  rw [Option.some.inj h]

theorem closed_of_word {w : List Char} (h : w ∈ jsonWords) : Closed w := by
  have hwords : ∀ w ∈ jsonWords, ∀ c ∈ w, isOutChar c = true := by simp [jsonWords, isOutChar]
  exact closed_of_all (hwords w h)

theorem closed_of_scanAtom {cs r : List Char} (h : scanAtom cs = some r) : ∃ w, cs = w ++ r ∧ Closed w := by
  rw [scanAtom, Option.or_eq_some_iff] at h
  rcases h with h | ⟨-, h⟩
  · obtain ⟨w, hw, he⟩ := List.exists_of_findSome?_eq_some h
    exact ⟨w, expect_eq_some he, closed_of_word hw⟩
  · rw [scanNumber] at h
    split_ifs at h with hn
    obtain rfl := Option.some.inj h
    exact ⟨cs.takeWhile isNumChar, (List.takeWhile_append_dropWhile).symm, closed_of_loadNum hn⟩

/-- What is read between the two ends, with the white space before it. -/
theorem closed_skip {cs r : List Char} (h : ∃ w, skipWs cs = w ++ r ∧ Closed w) : ∃ w, cs = w ++ r ∧ Closed w := by
  obtain ⟨v, hv, hvc⟩ := exists_skipWs cs
  obtain ⟨w, hw, hwc⟩ := h
  exact ⟨v ++ w, by rw [hv, hw, List.append_assoc], hvc.append hwc⟩

theorem closed_cons {c : Char} (hc : isOutChar c = true) {cs r : List Char} (h : ∃ w, cs = w ++ r ∧ Closed w) :
    ∃ w, c :: cs = w ++ r ∧ Closed w := by
  obtain ⟨w, rfl, hw⟩ := h
  exact ⟨c :: w, rfl, .cons hc hw⟩

theorem closed_trans {cs m r : List Char} (h : ∃ w, cs = w ++ m ∧ Closed w) (h' : ∃ w, m = w ++ r ∧ Closed w) :
    ∃ w, cs = w ++ r ∧ Closed w := by
  obtain ⟨v, rfl, hv⟩ := h
  obtain ⟨w, rfl, hw⟩ := h'
  exact ⟨v ++ w, by rw [List.append_assoc], hv.append hw⟩

theorem closed_end {c : Char} (hc : isOutChar c = true) (r : List Char) : ∃ w, c :: r = w ++ r ∧ Closed w :=
  ⟨[c], rfl, .cons hc .nil⟩

/-- **What the scanner reads begins and ends outside the strings**, at every fuel. -/
theorem closed_of_scan (n : ℕ) :
    (∀ cs r, scanOnce n cs = some r → ∃ w, cs = w ++ r ∧ Closed w) ∧
    (∀ cs r, scanItems n cs = some r → ∃ w, cs = w ++ r ∧ Closed w) ∧
    (∀ cs r, scanPair n cs = some r → ∃ w, cs = w ++ r ∧ Closed w) ∧
    ∀ cs r, scanPairs n cs = some r → ∃ w, cs = w ++ r ∧ Closed w := by
  induction n with
  | zero => simp [scanOnce, scanItems, scanPair, scanPairs]
  | succ n ih =>
    obtain ⟨honce, hitems, hpair, hpairs⟩ := ih
    refine ⟨fun cs r h => ?_, fun cs r h => ?_, fun cs r h => ?_, fun cs r h => ?_⟩
    · unfold scanOnce at h
      split at h
      · obtain ⟨w, rfl, hw⟩ := closes_of_scanString h
        exact ⟨'"' :: w, rfl, hw.closed⟩
      · refine closed_cons (by decide) (closed_skip ?_)
        split at h
        · rename_i heq
          obtain rfl := Option.some.inj h
          rw [heq]
          exact closed_end (by decide) _
        · obtain ⟨m, hm, h⟩ := Option.bind_eq_some_iff.1 h
          exact closed_trans (honce _ _ hm) (hitems _ _ h)
      · refine closed_cons (by decide) (closed_skip ?_)
        split at h
        · rename_i heq
          obtain rfl := Option.some.inj h
          rw [heq]
          exact closed_end (by decide) _
        · obtain ⟨m, hm, h⟩ := Option.bind_eq_some_iff.1 h
          exact closed_trans (hpair _ _ hm) (hpairs _ _ h)
      · exact closed_of_scanAtom h
    · unfold scanItems at h
      refine closed_skip ?_
      split at h
      · rename_i heq
        obtain rfl := Option.some.inj h
        rw [heq]
        exact closed_end (by decide) _
      · rename_i heq
        obtain ⟨m, hm, h⟩ := Option.bind_eq_some_iff.1 h
        rw [heq]
        exact closed_cons (by decide) (closed_trans (closed_skip (honce _ _ hm)) (hitems _ _ h))
      · cases h
    · unfold scanPair at h
      split at h
      · obtain ⟨m, hm, hr⟩ := Option.bind_eq_some_iff.1 h
        obtain ⟨w, hw, hwc⟩ := closes_of_scanString hm
        refine closed_trans ⟨'"' :: w, congrArg _ hw, hwc.closed⟩ (closed_skip ?_)
        split at hr
        · rename_i heq
          rw [heq]
          exact closed_cons (by decide) (closed_skip (honce _ _ hr))
        · cases hr
      · cases h
    · unfold scanPairs at h
      refine closed_skip ?_
      split at h
      · rename_i heq
        obtain rfl := Option.some.inj h
        rw [heq]
        exact closed_end (by decide) _
      · rename_i heq
        obtain ⟨m, hm, h⟩ := Option.bind_eq_some_iff.1 h
        rw [heq]
        exact closed_cons (by decide) (closed_trans (closed_skip (hpair _ _ hm)) (hpairs _ _ h))
      · cases h

/-- **An accepted text is read from outside to outside.** -/
theorem closed_of_acceptsJson {s : String} (h : acceptsJson s = true) : Closed s.toList := by
  rw [acceptsJson] at h
  split at h
  · rename_i r heq
    obtain ⟨w, hw, hwc⟩ := closed_skip ((closed_of_scan _).1 _ _ heq)
    obtain ⟨v, hv, hvc⟩ := exists_skipWs r
    rw [List.isEmpty_iff.1 h, List.append_nil] at hv
    rw [hw, hv]
    exact hwc.append hvc
  · cases h

/-! What is written. -/

theorem closes_escapeChar (c : Char) {w : List Char} (h : Closes w) : Closes (escapeChar c ++ w) := by
  unfold escapeChar
  split_ifs with h₁ h₂ h₃ h₄ h₅ h₆ h₇ h₈
  · exact h.escape _
  · exact h.escape _
  · exact h.escape _
  · exact h.escape _
  · exact h.escape _
  · exact h.escape _
  · exact h.escape _
  · have hd : ∀ n < 16, hexDigit n ≠ '"' ∧ hexDigit n ≠ '\\' := by decide
    have h₁ := hd (c.toNat / 16) (by omega)
    have h₂ := hd (c.toNat % 16) (by omega)
    exact .escape _ (.cons (by decide) (by decide) (.cons (by decide) (by decide) (.cons h₁.1 h₁.2 (.cons h₂.1 h₂.2 h))))
  · exact .cons h₁ h₂ h

theorem closes_renderChars (cs : List Char) : Closes (renderChars cs) := by
  induction cs with
  | nil => rfl
  | cons c cs ih => exact closes_escapeChar c ih

theorem closed_renderStr (s : String) : Closed (renderStr s) := (closes_renderChars s.toList).closed

theorem closed_commas {ts : List (List Char)} (h : ∀ t ∈ ts, Closed t) : Closed (ts.flatMap (',' :: ·)) := by
  induction ts with
  | nil => exact .nil
  | cons t ts ih =>
    rw [List.flatMap_cons]
    exact (Closed.cons (by decide) (h t (by simp))).append (ih fun u hu => h u (List.mem_cons_of_mem _ hu))

theorem closed_commaSep {ts : List (List Char)} (h : ∀ t ∈ ts, Closed t) : Closed (commaSep ts) := by
  cases ts with
  | nil => exact .nil
  | cons t ts => exact (h t (by simp)).append (closed_commas fun u hu => h u (List.mem_cons_of_mem _ hu))

theorem closed_memberText {m : String × List Char} (h : Closed m.2) : Closed (PyData.memberText m) :=
  (closed_renderStr m.1).append (.cons (by decide) h)

/-- **What is written begins and ends outside the strings.** -/
theorem closed_dump (d : PyData) : Closed d.dump := by
  induction d using PyData.induct with
  | none => exact closed_of_word (by decide)
  | bool b => cases b <;> exact closed_of_word (by decide)
  | int n => exact closed_of_loadNum (by rw [PyData.dump, loadNum_renderInt]; rfl)
  | float x =>
    cases x with
    | finite x => exact closed_of_floatTok x.float
    | nan => exact closed_of_word (by decide)
    | infinity => exact closed_of_word (by decide)
    | negInfinity => exact closed_of_word (by decide)
  | str s => exact closed_renderStr s
  | list xs ih =>
    rw [PyData.dump_list]
    exact .cons (by decide) ((closed_commaSep (List.forall_mem_map.2 ih)).append (.cons (by decide) .nil))
  | dict kvs ih =>
    rw [PyData.dump_dict]
    have htexts := PyData.forall_memberText fun kv hkv => closed_memberText (m := (kv.1, kv.2.dump)) (ih kv hkv)
    exact .cons (by decide) ((closed_commaSep htexts).append (.cons (by decide) .nil))

/-! ### Two readings of one text -/

/-- One reader is inside a string where the other is outside. -/
inductive Crossed : LexState → LexState → Prop where
  | inside {s : LexState} (h : s = out ∨ s = dot) : Crossed inStr s
  | outside {s : LexState} (h : s = out ∨ s = dot) : Crossed s inStr

theorem Crossed.symm {s s' : LexState} (h : Crossed s s') : Crossed s' s := by
  cases h with
  | inside h => exact .outside h
  | outside h => exact .inside h

/-- What a reader outside does with one character: a quotation mark takes it inside, and
no character keeps it outside that ends or escapes a string. -/
theorem step_outside {s t : LexState} {c : Char} (hs : s = out ∨ s = dot) (h : s.step c = some t) :
    s = out ∧ c = '"' ∧ t = inStr ∨ c ≠ '"' ∧ c ≠ '\\' ∧ (t = out ∨ t = dot) := by
  rcases hs with rfl | rfl
  · rw [step] at h
    split_ifs at h with h₁ h₂ h₃
    · exact .inl ⟨rfl, h₁, (Option.some.inj h).symm⟩
    · refine .inr ⟨h₁, ?_, .inr (Option.some.inj h).symm⟩
      rw [h₂]
      decide
    · exact .inr ⟨h₁, isOutChar_ne h₃ (by decide), .inl (Option.some.inj h).symm⟩
  · rw [step] at h
    split_ifs at h with hd
    have hout := isOutChar_of_digit hd
    exact .inr ⟨isOutChar_ne hout (by decide), isOutChar_ne hout (by decide), .inl (Option.some.inj h).symm⟩

/-- **Crossed readers stay crossed.** -/
theorem Crossed.step {s s' t t' : LexState} {c : Char} (h : Crossed s s') (hs : s.step c = some t)
    (hs' : s'.step c = some t') : Crossed t t' := by
  have inside : ∀ {s t t' : LexState}, s = out ∨ s = dot → inStr.step c = some t → s.step c = some t' →
      Crossed t t' := by
    intro s t t' hout ht ht'
    rcases step_outside hout ht' with ⟨-, rfl, rfl⟩ | ⟨hq, hb, hout'⟩
    · obtain rfl := Option.some.inj ht
      exact .outside (.inl rfl)
    · rw [LexState.step, if_neg hq, if_neg hb] at ht
      obtain rfl := Option.some.inj ht
      exact .inside hout'
  cases h with
  | inside h => exact inside h hs hs'
  | outside h => exact (inside h hs' hs).symm

theorem Crossed.run {s s' t t' : LexState} {w : List Char} (h : Crossed s s') (hs : s.run w = some t)
    (hs' : s'.run w = some t') : Crossed t t' := by
  induction w generalizing s s' with
  | nil =>
    obtain rfl := Option.some.inj hs
    obtain rfl := Option.some.inj hs'
    exact h
  | cons c w ih =>
    obtain ⟨u, hu, hs⟩ := Option.bind_eq_some_iff.1 hs
    obtain ⟨u', hu', hs'⟩ := Option.bind_eq_some_iff.1 hs'
    exact ih (h.step hu hu') hs hs'

/-! ### What follows a full stop -/

/-- A text that is accepted and begins with a digit is a number. -/
theorem number_of_acceptsJson {d : Char} {r : List Char} (hd : d.isDigit = true)
    (h : acceptsJson (String.ofList (d :: r)) = true) : ∀ c ∈ d :: r, isNumChar c = true ∨ isWs c = true := by
  have hnum := isDigit_isNumChar hd
  have hword : (jsonWords.findSome? fun w => expect w (d :: r)) = none := by
    have hwords : ∀ w ∈ jsonWords, ∃ c t, w = c :: t ∧ c.isDigit = false := by
      intro w hw
      simp only [jsonWords, List.mem_cons, List.not_mem_nil, or_false] at hw
      rcases hw with rfl | rfl | rfl | rfl | rfl | rfl <;> exact ⟨_, _, rfl, by decide⟩
    refine List.findSome?_eq_none_iff.2 fun w hw => ?_
    obtain ⟨c, t, rfl, hc⟩ := hwords w hw
    rw [expect, if_neg]
    rintro ⟨u, hu⟩
    rw [(List.cons.inj hu).1, hd] at hc
    cases hc
  have hscan : scanOnce ((d :: r).length + 1) (d :: r) = scanNumber (d :: r) := by
    rw [scanOnce, scanAtom, hword, Option.none_or]
    · exact fun r h => numChar_ne hnum (by decide) (List.cons.inj h).1
    · exact fun r h => numChar_ne hnum (by decide) (List.cons.inj h).1
    · exact fun r h => numChar_ne hnum (by decide) (List.cons.inj h).1
  rw [acceptsJson, String.toList_ofList, skipWs_cons (numChar_not_ws hnum), hscan, scanNumber] at h
  split_ifs at h with hn
  simp only [List.isEmpty_iff, skipWs, List.dropWhile_eq_nil_iff] at h
  intro c hc
  rw [← List.takeWhile_append_dropWhile (p := isNumChar) (l := d :: r)] at hc
  exact (List.mem_append.1 hc).imp (fun hc => List.mem_takeWhile_imp hc) (h c)

/-- **What follows a full stop of a text is no JSON**, where the text ends in what no
string of JSON is followed by. -/
theorem not_acceptsJson_suffix {head tail x rest : List Char} (hhead : Closed head) (hdot : '.' ∉ tail)
    (hquote : '"' ∈ tail) (htail : inStr.run tail = none) (h : head ++ tail = x ++ '.' :: rest) :
    acceptsJson (String.ofList rest) = false := by
  -- the full stop stands in the head
  obtain ⟨y, rfl, rfl⟩ : ∃ y, head = x ++ '.' :: y ∧ rest = y ++ tail := by
    rcases List.append_eq_append_iff.1 h with ⟨z, -, hz⟩ | ⟨z, hz, hz'⟩
    · exact absurd (by simp [hz]) hdot
    · cases z with
      | nil => exact absurd (by rw [← (by simpa using hz' : '.' :: rest = tail)]; simp) hdot
      | cons c y =>
        obtain ⟨rfl, rfl⟩ := List.cons.inj hz'
        exact ⟨y, hz, rfl⟩
  rw [Bool.eq_false_iff]
  intro hacc
  have hclosed := closed_of_acceptsJson hacc
  rw [String.toList_ofList, Closed, run_append] at hclosed
  obtain ⟨t', ht', htl⟩ := Option.bind_eq_some_iff.1 hclosed
  rw [Closed, run_append] at hhead
  obtain ⟨s, -, hs⟩ := Option.bind_eq_some_iff.1 hhead
  obtain ⟨s₁, hs₁, hy⟩ := Option.bind_eq_some_iff.1 hs
  -- a reader inside a string would be crossed with the one that starts outside
  have crossed : s₁ = inStr → False := by
    rintro rfl
    have hend := (Crossed.inside (.inl rfl) : Crossed inStr out).run hy ht'
    have ht : t' = inStr := by
      cases hend with
      | outside h => rfl
    rw [ht, htail] at htl
    cases htl
  cases s with
  | out =>
    -- a fraction goes on with a digit
    obtain rfl := Option.some.inj hs₁
    cases y with
    | nil => cases hy
    | cons d y =>
      obtain ⟨s₂, hs₂, -⟩ := Option.bind_eq_some_iff.1 hy
      rw [step] at hs₂
      split_ifs at hs₂ with hd
      have hall := number_of_acceptsJson hd hacc '"' (by simp [hquote])
      exact absurd hall (by decide)
  | dot => cases hs₁
  | inStr => exact crossed (Option.some.inj hs₁).symm
  | esc => exact crossed (Option.some.inj hs₁).symm

end LexState

end ProvableAi
