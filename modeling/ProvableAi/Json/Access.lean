/-
# Python reads a JSON value

How Python code handles a value that `json.loads` returned and that may be of
any type: `v.get(k, d)`, `bool(v)`, `v[:n]`, `for x in v`, `str(v)`, `repr(v)`
and `"".join(…)`.  What the type does not support raises.

A float is written as in its document.
-/

import ProvableAi.Exceptions

namespace ProvableAi

/-- The digits of the mantissa of a literal, and the exponent of its last one. -/
def FloatLit.scaled (x : FloatLit) : ℕ × ℤ :=
  let t := unsigned x.text
  let fraction := ((t.dropWhile Char.isDigit).drop 1).takeWhile Char.isDigit
  let fraction := if (t.dropWhile Char.isDigit).head? = some '.' then fraction else []
  let digits := t.takeWhile Char.isDigit ++ fraction
  let exponent := (t.dropWhile fun c => c ≠ 'e' ∧ c ≠ 'E').drop 1
  let size : ℤ := (expDigits exponent).foldl (fun n c => n * 10 + (c.toNat - 48 : ℕ)) 0
  (digits.foldl (fun n c => n * 10 + (c.toNat - 48)) 0,
    (if exponent.head? = some '-' then -size else size) - fraction.length)

/-- The double nearest to the literal is zero: the literal is, or it is not above
half of the least positive double. -/
def FloatLit.isZero (x : FloatLit) : Bool :=
  let (n, e) := x.scaled
  n = 0 || (e < 0 && decide (n * 2 ^ 1075 ≤ 10 ^ e.natAbs))

namespace Json

/-- `bool(v)`. -/
def truthy : Json → Bool
  | null => false
  | bool b => b
  | int n => n != 0
  | float x => !x.isZero
  | str s => s != ""
  | arr xs => !xs.isEmpty
  | obj kvs => !kvs.isEmpty

/-- `v.get(k, d)`. -/
def getD (v : Json) (k : String) (d : Json) : Except PyErr Json :=
  match v with
  | obj kvs => .ok ((kvs.lookup k).getD d)
  | _ => .error .attributeError

mutual
/-- `repr(v)`. -/
def repr : Json → String
  | null => "None"
  | bool true => "True"
  | bool false => "False"
  | int n => toString n
  | float x => String.ofList x.text
  | str s => PyErr.reprStr s
  | arr xs => "[" ++ ", ".intercalate (reprItems xs) ++ "]"
  | obj kvs => "\x7b" ++ ", ".intercalate (reprMembers kvs) ++ "\x7d"

/-- `repr` of every item. -/
def reprItems : List Json → List String
  | [] => []
  | x :: xs => repr x :: reprItems xs

/-- `repr` of every key and value. -/
def reprMembers : List (String × Json) → List String
  | [] => []
  | (k, x) :: xs => (PyErr.reprStr k ++ ": " ++ repr x) :: reprMembers xs
end

/-- `str(v)`. -/
def pyStr : Json → String
  | str s => s
  | v => repr v

/-- `str(v[:n])`. -/
def pySlice (n : ℕ) : Json → Except PyErr String
  | str s => .ok (slice n s)
  | arr xs => .ok (repr (arr (xs.take n)))
  | _ => .error .typeError

/-- A text that `"".join` takes. -/
def asStr : Json → Except PyErr String
  | str s => .ok s
  | _ => .error .typeError

theorem asStr_eq_ok {v : Json} {s : String} : v.asStr = .ok s ↔ v = .str s := by
  cases v <;> simp [asStr]

/-- `isinstance(v, dict)`. -/
def isObj : Json → Bool
  | obj _ => true
  | _ => false

/-- The items of `for x in v`: those of a list, the keys of a `dict`, the characters of
a text. -/
def iter : Json → Except PyErr (List Json)
  | arr xs => .ok xs
  | obj kvs => .ok (kvs.map fun kv => str kv.1)
  | str s => .ok (s.toList.map fun c => str (String.singleton c))
  | _ => .error .typeError

/-- `v.get(k, d)` returns exactly on a `dict`. -/
theorem getD_eq_ok {v : Json} {k : String} {d w : Json} :
    v.getD k d = .ok w ↔ v.isObj = true ∧ (v.get? k).getD d = w := by
  cases v <;> simp [getD, get?, isObj]

theorem isObj_of_get? {v w : Json} {k : String} (h : v.get? k = some w) : v.isObj = true := by
  cases v with
  | obj kvs => rfl
  | _ => cases h

/-- A text is read back of a canonical form only where it stood. -/
theorem canon_eq_str {v : Json} {s : String} : v.canon = .str s ↔ v = .str s := by
  cases v <;> simp [canon_obj]

end Json

/-- `"".join(texts)`. -/
def joinStrs (vs : List Json) : Except PyErr String :=
  (vs.mapM Json.asStr).map String.join

/-- A loop that may raise returns exactly if every step does. -/
theorem mapM_eq_ok {ε α β : Type} {f : α → Except ε β} {xs : List α} {ys : List β} :
    xs.mapM f = .ok ys ↔ List.Forall₂ (fun x y => f x = .ok y) xs ys := by
  induction xs generalizing ys with
  | nil => simp [pure, Except.pure, eq_comm]
  | cons x xs ih =>
    rw [List.mapM_cons]
    cases hx : f x with
    | error e => simp [bind, Except.bind, List.forall₂_cons_left_iff, hx]
    | ok y =>
      cases hxs : xs.mapM f with
      | error e =>
        have hno : ∀ zs, ¬ List.Forall₂ (fun x y => f x = .ok y) xs zs := fun zs h => by
          rw [ih.2 h] at hxs
          cases hxs
        simp [bind, Except.bind, List.forall₂_cons_left_iff, hno]
      | ok zs =>
        have hiff : ∀ ws, List.Forall₂ (fun x y => f x = .ok y) xs ws ↔ ws = zs := fun ws => by
          rw [← ih, hxs, Except.ok.injEq, eq_comm]
        simp [bind, Except.bind, pure, Except.pure, List.forall₂_cons_left_iff, hx, hiff, eq_comm]

theorem mapM_ok_map {ε α β : Type} {f : α → Except ε β} {xs : List α} (g : α → β)
    (h : ∀ x ∈ xs, f x = .ok (g x)) : xs.mapM f = .ok (xs.map g) :=
  mapM_eq_ok.2 (List.forall₂_map_right_iff.2 (List.forall₂_same.2 h))

/-- `"".join` returns exactly on texts. -/
theorem joinStrs_eq_ok {vs : List Json} {s : String} :
    joinStrs vs = .ok s ↔ ∃ ts : List String, vs = ts.map .str ∧ s = String.join ts := by
  rw [joinStrs]
  constructor
  · intro h
    cases hm : vs.mapM Json.asStr with
    | error e => rw [hm] at h; cases h
    | ok ts =>
      rw [hm] at h
      refine ⟨ts, ?_, (Except.ok.inj h).symm⟩
      have hall := mapM_eq_ok.1 hm
      simp only [Json.asStr_eq_ok] at hall
      exact List.forall₂_eq_eq_eq ▸ List.forall₂_map_right_iff.2 hall
  · rintro ⟨ts, rfl, rfl⟩
    have hm : (ts.map Json.str).mapM Json.asStr = .ok ts :=
      mapM_eq_ok.2 (List.forall₂_map_left_iff.2 (List.forall₂_same.2 fun t _ => rfl))
    rw [hm]
    rfl

end ProvableAi
