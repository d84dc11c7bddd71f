/-
# The body of a request

What `await request.json()` returns for `POST /verify`, and how the audit log
reads the identity of a proof out of it.

`Json` holds the values that can be written back as JSON in UTF-8.  A request
body may hold more: `json.loads` takes `NaN` and `Infinity`, and it reads the
escape of a lone surrogate (`"\ud800"`) to a text that no UTF-8 stands for.
`Body` has these as well; `Body.toJson?` is the body as a `Json` value where it
is one.

`_safe_get` and `_safe_get_int` catch `KeyError` and `TypeError`, the second one
`ValueError` too.  What `int(v)` raises for an infinity is an `OverflowError`,
which neither catches (`safeGetInt_raises_iff`).
-/

import ProvableAi.Json.Access

namespace ProvableAi

/-- A character of a Python text. -/
inductive CodePoint where
  | char (c : Char)
  /-- `U+D800 + n`. -/
  | surrogate (n : Fin 2048)
  deriving DecidableEq

/-- The character, if it is one that UTF-8 encodes. -/
def CodePoint.scalar? : CodePoint → Option Char
  | .char c => some c
  | .surrogate _ => none

/-- How `repr` writes a character of a text quoted by `q`; a surrogate is never
printable. -/
def CodePoint.repr (q : Char) : CodePoint → List Char
  | .char c => PyErr.reprChar q c
  | .surrogate n => ['\\', 'u', 'd', hexDigit (8 + n / 256), hexDigit (n / 16 % 16), hexDigit (n % 16)]

/-- A Python text. -/
abbrev PyStr := List CodePoint

namespace PyStr

/-- The text without surrogates. -/
def ofString (s : String) : PyStr := s.toList.map .char

/-- The text, if it holds no surrogate: what `s.encode("utf-8")` encodes. -/
def toString? (s : PyStr) : Option String := (s.mapM CodePoint.scalar?).map String.ofList

/-- `repr(s)`. -/
def repr (s : PyStr) : String :=
  let q := if s.contains (.char '\'') && !s.contains (.char '"') then '"' else '\''
  String.ofList (q :: s.flatMap (CodePoint.repr q) ++ [q])

theorem toString?_ofString (s : String) : (PyStr.ofString s).toString? = some s := by
  have hscalar : ∀ cs : List Char, (cs.map CodePoint.char).mapM CodePoint.scalar? = some cs := by
    intro cs
    induction cs with
    | nil => rfl
    | cons c cs ih => rw [List.map_cons, List.mapM_cons, ih]; rfl
  rw [toString?, ofString, hscalar, Option.map_some, String.ofList_toList]

end PyStr

/-- A value that `json.loads` returns. -/
inductive Body where
  | null
  | bool (b : Bool)
  | int (n : ℤ)
  | float (x : FloatLit)
  | nan
  | infinity (negative : Bool)
  | str (s : PyStr)
  | arr (xs : List Body)
  | obj (kvs : List (PyStr × Body))

namespace Body

mutual
/-- The body as a JSON value: no text holds a surrogate, no number is the word
`NaN` or `Infinity`. -/
def toJson? : Body → Option Json
  | .null => some .null
  | .bool b => some (.bool b)
  | .int n => some (.int n)
  | .float x => some (.float x)
  | .nan | .infinity _ => none
  | .str s => s.toString?.map .str
  | .arr xs => (toItems? xs).map .arr
  | .obj kvs => (toMembers? kvs).map .obj

/-- `toJson?` of every item. -/
def toItems? : List Body → Option (List Json)
  | [] => some []
  | x :: xs => x.toJson?.bind fun j => (toItems? xs).map (j :: ·)

/-- `toJson?` of every member. -/
def toMembers? : List (PyStr × Body) → Option (List (String × Json))
  | [] => some []
  | (k, x) :: kvs =>
    k.toString?.bind fun l => x.toJson?.bind fun j => (toMembers? kvs).map ((l, j) :: ·)
end

/-! ### The integer of a float -/

/-- The quotient rounded to the nearest integer, to the even one of two. -/
def roundHalfEven (a b : ℕ) : ℕ :=
  if 2 * (a % b) < b then a / b
  else if b < 2 * (a % b) then a / b + 1
  else a / b + a / b % 2

/-- `int(x)` of the double nearest to `a / b`; `none` where that is infinite.

A double is `m * 2 ^ q` with `m < 2 ^ 53` and `-1074 ≤ q`. -/
def doubleTrunc (a b : ℕ) : Option ℕ :=
  let guess : ℤ := (Nat.log2 a : ℤ) - Nat.log2 b
  -- `2 ^ exponent ≤ a / b < 2 ^ (exponent + 1)`
  let exponent := if b * 2 ^ guess.toNat ≤ a * 2 ^ (-guess).toNat then guess else guess - 1
  let q := if exponent - 52 < -1074 then -1074 else exponent - 52
  let m := roundHalfEven (a * 2 ^ (-q).toNat) (b * 2 ^ q.toNat)
  if 2 ^ 1024 ≤ m * 2 ^ q.toNat then none else some (m * 2 ^ q.toNat / 2 ^ (-q).toNat)

-- its powers of two are not for the elaborator to unfold
attribute [irreducible] doubleTrunc

/-- `int(x)` for the float a literal stands for; `none` where that is infinite. -/
def truncate (x : FloatLit) : Option ℤ :=
  let (n, e) := x.scaled
  (doubleTrunc (n * 10 ^ e.toNat) (10 ^ (-e).toNat)).map fun k =>
    if x.text.head? = some '-' then -(k : ℤ) else k

/-! ### `str(v)` and `int(v)` -/

mutual
/-- `repr(v)`. -/
def repr : Body → String
  | .null => "None"
  | .bool true => "True"
  | .bool false => "False"
  | .int n => toString n
  | .float x =>
    if (truncate x).isSome then String.ofList x.text
    else if x.text.head? = some '-' then "-inf" else "inf"
  | .nan => "nan"
  | .infinity negative => if negative then "-inf" else "inf"
  | .str s => s.repr
  | .arr xs => "[" ++ ", ".intercalate (reprItems xs) ++ "]"
  | .obj kvs => "\x7b" ++ ", ".intercalate (reprMembers kvs) ++ "\x7d"

/-- `repr` of every item. -/
def reprItems : List Body → List String
  | [] => []
  | x :: xs => repr x :: reprItems xs

/-- `repr` of every key and value. -/
def reprMembers : List (PyStr × Body) → List String
  | [] => []
  | (k, x) :: kvs => (k.repr ++ ": " ++ repr x) :: reprMembers kvs
end

/-- `str(v)`. -/
def pyStr : Body → PyStr
  | .str s => s
  | v => .ofString v.repr

/-- `_PyUnicode_TransformDecimalAndSpaceToASCII`; no surrogate is a digit. -/
def toAsciiDecimal (c : CodePoint) : Char :=
  match c with
  | .surrogate _ => '?'
  | .char c => toAscii c

/-- The digits, with single underscores between them left out. -/
def decimalRun : List Char → Option (List Char)
  | [] => none
  | [c] => if c.isDigit then some [c] else none
  | c :: '_' :: r => if c.isDigit then (decimalRun r).map (c :: ·) else none
  | c :: r => if c.isDigit then (decimalRun r).map (c :: ·) else none

/-- `int(s)` for a text; `none` where it raises `ValueError`, which it also does
for more than 4300 digits. -/
def intOfStr (s : PyStr) : Option ℤ :=
  let t := stripRight ((s.map toAsciiDecimal).dropWhile isAsciiSpace)
  (decimalRun (unsignedHex t)).bind fun ds =>
    if 4300 < ds.length then none
    else
      let n : ℤ := ds.foldl (fun n c => n * 10 + (c.toNat - 48 : ℕ)) 0
      some (if t.head? = some '-' then -n else n)

/-- `int(v)`. -/
def pyInt : Body → Except PyErr ℤ
  | .bool b => .ok (if b then 1 else 0)
  | .int n => .ok n
  | .float x =>
    match truncate x with
    | some n => .ok n
    | none => .error .overflowError
  | .nan => .error (.valueError "cannot convert float NaN to integer")
  | .infinity _ => .error .overflowError
  | .str s =>
    match intOfStr s with
    | some n => .ok n
    | none => .error (.valueError ("invalid literal for int() with base 10: " ++ s.repr))
  | .null | .arr _ | .obj _ => .error .typeError

/-! ### The extraction helpers -/

/-- `v[k]`. -/
def subscript (v : Body) (k : String) : Except PyErr Body :=
  match v with
  | .obj kvs =>
    match kvs.lookup (.ofString k) with
    | some x => .ok x
    | none => .error (.keyError k)
  | _ => .error .typeError

/-- The loop `val = val[k]` of the helpers. -/
def path (v : Body) (keys : List String) : Except PyErr Body := keys.foldlM subscript v

/-- `_safe_get`. -/
def safeGet (d : Body) (keys : List String) : Except PyErr (Option PyStr) :=
  match path d keys with
  | .ok .null => .ok none
  | .ok v => .ok (some v.pyStr)
  | .error (.keyError _) | .error .typeError => .ok none
  | .error e => .error e

/-- `int(val) if val is not None else None`. -/
def intOrNone : Body → Except PyErr (Option ℤ)
  | .null => .ok none
  | v => v.pyInt.map some

/-- `_safe_get_int`. -/
def safeGetInt (d : Body) (keys : List String) : Except PyErr (Option ℤ) :=
  match (path d keys).bind intOrNone with
  | .ok n => .ok n
  | .error (.keyError _) | .error .typeError | .error (.valueError _) => .ok none
  | .error e => .error e

theorem subscript_error {v : Body} {k : String} {e : PyErr} (h : v.subscript k = .error e) :
    e = .keyError k ∨ e = .typeError := by
  unfold subscript at h
  split at h
  · split at h
    · cases h
    · exact .inl (Except.error.inj h).symm
  · exact .inr (Except.error.inj h).symm

/-- Following a path raises one of the two classes that the helpers catch. -/
theorem path_error {keys : List String} : ∀ {v : Body} {e : PyErr}, path v keys = .error e →
    (∃ k, e = .keyError k) ∨ e = .typeError := by
  induction keys with
  | nil => intro v e h; cases h
  | cons k keys ih =>
    intro v e h
    rw [path, List.foldlM_cons] at h
    cases hs : v.subscript k with
    | error e' =>
      rw [hs] at h
      obtain rfl : e' = e := Except.error.inj h
      rcases subscript_error hs with rfl | rfl
      · exact .inl ⟨k, rfl⟩
      · exact .inr rfl
    | ok w =>
      rw [hs] at h
      exact ih h

/-- `_safe_get` never raises. -/
theorem safeGet_returns (d : Body) (keys : List String) : ∃ s, safeGet d keys = .ok s := by
  unfold safeGet
  split
  · exact ⟨_, rfl⟩
  · exact ⟨_, rfl⟩
  · exact ⟨_, rfl⟩
  · exact ⟨_, rfl⟩
  · rename_i e hkey htype heq
    rcases path_error heq with ⟨k, rfl⟩ | rfl
    · exact absurd rfl (hkey k)
    · exact absurd rfl htype

/-- The value is the float `inf` or `-inf`. -/
def infinite : Body → Bool
  | .float x => (truncate x).isNone
  | .infinity _ => true
  | _ => false

/-- What `int(v)` raises for a value that is not infinite is caught. -/
theorem pyInt_error {v : Body} {e : PyErr} (h : v.pyInt = .error e) :
    e = .typeError ∨ (∃ m, e = .valueError m) ∨ (e = .overflowError ∧ v.infinite = true) := by
  unfold pyInt at h
  split at h
  · cases h
  · cases h
  · rename_i x
    cases hx : truncate x with
    | some n => rw [hx] at h; cases h
    | none =>
      rw [hx] at h
      exact .inr (.inr ⟨(Except.error.inj h).symm, by rw [infinite, hx]; rfl⟩)
  · exact .inr (.inl ⟨_, (Except.error.inj h).symm⟩)
  · exact .inr (.inr ⟨(Except.error.inj h).symm, rfl⟩)
  · split at h
    · cases h
    · exact .inr (.inl ⟨_, (Except.error.inj h).symm⟩)
  all_goals exact .inl (Except.error.inj h).symm

theorem intOrNone_error {v : Body} {e : PyErr} (h : v.intOrNone = .error e) :
    e = .typeError ∨ (∃ m, e = .valueError m) ∨ (e = .overflowError ∧ v.infinite = true) := by
  unfold intOrNone at h
  split at h
  · cases h
  · refine pyInt_error ?_
    cases hv : v.pyInt with
    | ok n => rw [hv] at h; cases h
    | error e' => rw [hv] at h; exact congrArg _ (Except.error.inj h)

theorem intOrNone_infinite {v : Body} (h : v.infinite = true) : v.intOrNone = .error .overflowError := by
  cases v with
  | float x =>
    have hx : truncate x = none := Option.isNone_iff_eq_none.1 h
    rw [intOrNone, pyInt, hx]
    · rfl
    · exact nofun
  | infinity n => rfl
  | _ => cases h

/-- **`_safe_get_int` raises exactly where the path leads to an infinity.** -/
theorem safeGetInt_raises_iff {d : Body} {keys : List String} :
    (∃ e, safeGetInt d keys = .error e) ↔ ∃ v, path d keys = .ok v ∧ v.infinite = true := by
  unfold safeGetInt
  cases hp : path d keys with
  | error e =>
    simp only [Except.bind]
    rcases path_error hp with ⟨k, rfl⟩ | rfl
    · simp
    · simp
  | ok v =>
    simp only [Except.bind, Except.ok.injEq, exists_eq_left']
    by_cases hv : v.infinite = true
    · simp [intOrNone_infinite hv, hv]
    · cases hint : v.intOrNone with
      | ok n => simp [hv]
      | error e =>
        rcases intOrNone_error hint with rfl | ⟨m, rfl⟩ | ⟨-, hinf⟩
        · simp [hv]
        · simp [hv]
        · exact absurd hinf hv

end Body

end ProvableAi
