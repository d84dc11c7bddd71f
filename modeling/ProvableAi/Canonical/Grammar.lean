/-
# The canonical grammar

`_validate_payload` over every finite Python value, its `isinstance` tests in
the order of the source.

A class is known to the tests by the built-in class its instances are laid out
as and by whether it derives from `Enum` (`PyType`): no class derives from two
built-in ones unless one derives from the other, and `bool` and `NoneType` have
no subclasses.  `bool` is an `int` and `datetime` a `date`, and a member of an
enumeration may be an `int`, a `str` or a `dict` as well.

An address lists which member or item to descend into, so the lexicographic
order of addresses is the depth-first order of positions.  `validate_grammar`:
the validation returns exactly if all that is reachable is canonical, and
otherwise names the path of the least offending address.
-/

import ProvableAi.Audit.Body
import ProvableAi.Canonical

namespace ProvableAi
namespace Grammar

/-! ### Classes -/

/-- The built-in classes the validation can tell apart, `object` standing for
any other. -/
inductive Builtin where
  | object | noneType | bool | int | str | list | dict
  | float | decimal | datetime | date | uuid | bytes | set | tuple
  deriving DecidableEq

/-- `issubclass(a, b)`. -/
def Builtin.isSubclass (a b : Builtin) : Bool :=
  a = b || b = .object || (a = .bool && b = .int) || (a = .datetime && b = .date)

/-- A class: its name, the built-in class its instances are laid out as, and
whether it derives from `Enum`. -/
structure PyType where
  name : String
  base : Builtin
  isEnum : Bool
  sealed : base = .bool ∨ base = .noneType → isEnum = false

/-- `isinstance` of a built-in class. -/
def PyType.isinstance (t : PyType) (b : Builtin) : Bool := t.base.isSubclass b

theorem PyType.isinstance_bool {t : PyType} : t.isinstance .bool = true ↔ t.base = .bool := by
  rw [PyType.isinstance]
  cases t.base <;> decide

/-- `isinstance` of a class of `_FORBIDDEN`. -/
def PyType.isForbidden (t : PyType) : PyClass → Bool
  | .float => t.isinstance .float
  | .decimal => t.isinstance .decimal
  | .datetime => t.isinstance .datetime
  | .date => t.isinstance .date
  | .uuid => t.isinstance .uuid
  | .enum => t.isEnum
  | .bytes => t.isinstance .bytes
  | .set => t.isinstance .set
  | .tuple => t.isinstance .tuple

/-- `_ALLOWED_TYPES`. -/
def allowedTypes : List Builtin := [.str, .int, .bool, .list, .dict, .noneType]

/-! ### Values -/

/-- A key of a `dict`: its class, what it prints in an f-string, its `repr`. -/
structure Key where
  type : PyType
  text : PyStr
  repr : PyStr

/-- A finite Python value: its class, the items a `list` enumerates and the
members a `dict` has, in order.  Of what is neither, nothing is looked at. -/
inductive PyObj where
  | mk (type : PyType) (items : List PyObj) (members : List (Key × PyObj))

/-- `CanonicalJsonError`. -/
structure Refusal where
  field : PyStr
  valueType : String

mutual
/-- `_validate_payload`. -/
def validate (path : PyStr) : PyObj → Except Refusal Unit
  | .mk type items members =>
    if type.isinstance .bool then .ok ()
    else if type.isinstance .dict then validateMembers path members
    else if type.isinstance .list then validateItems path 0 items
    else match forbidden.find? fun f => type.isForbidden f.1 with
      | some (_, reason) => .error ⟨path, type.name ++ " (" ++ reason ++ ")"⟩
      | none => if allowedTypes.any type.isinstance then .ok () else .error ⟨path, type.name⟩

/-- The loop over the members of a `dict`. -/
def validateMembers (path : PyStr) : List (Key × PyObj) → Except Refusal Unit
  | [] => .ok ()
  | (key, value) :: members =>
    if key.type.isinstance .str then
      match validate (path ++ .ofString "." ++ key.text) value with
      | .ok _ => validateMembers path members
      | .error e => .error e
    else .error ⟨path ++ .ofString "[key=" ++ key.repr ++ .ofString "]", key.type.name⟩

/-- The loop over the items of a `list`, from index `i` on. -/
def validateItems (path : PyStr) (i : ℕ) : List PyObj → Except Refusal Unit
  | [] => .ok ()
  | item :: items =>
    match validate (path ++ .ofString ("[" ++ toString i ++ "]")) item with
    | .ok _ => validateItems path (i + 1) items
    | .error e => .error e
end

namespace PyObj

/-- `type(v)`. -/
def type : PyObj → PyType
  | mk t _ _ => t

/-- The values a list enumerates. -/
def items : PyObj → List PyObj
  | mk _ xs _ => xs

/-- The members of a `dict`. -/
def members : PyObj → List (Key × PyObj)
  | mk _ _ kvs => kvs

/-- `None`, a `bool`, an `int` or a `str` that is no enumeration member, a
`list` or a `dict`. -/
def InGrammar (v : PyObj) : Prop :=
  v.type.base = .noneType ∨ v.type.isinstance .bool ∨ (v.type.isinstance .int ∧ v.type.isEnum = false) ∨
    (v.type.isinstance .str ∧ v.type.isEnum = false) ∨ v.type.isinstance .list ∨
      v.type.isinstance .dict

end PyObj

/-! ### Positions -/

/-- A position comes no later than another in a depth-first walk: the order of
addresses is lexicographic, a value before what it holds. -/
def NoLater (a b : List ℕ) : Prop := a = b ∨ List.Lex (· < ·) a b

theorem NoLater.nil (b : List ℕ) : NoLater [] b := by
  cases b with
  | nil => exact .inl rfl
  | cons i b => exact .inr .nil

theorem NoLater.cons {a b : List ℕ} (i : ℕ) (h : NoLater a b) : NoLater (i :: a) (i :: b) :=
  h.imp (congrArg _) .cons

theorem NoLater.head {i j : ℕ} (a b : List ℕ) (h : i < j) : NoLater (i :: a) (j :: b) := .inr (.rel h)

theorem NoLater.succ {i j : ℕ} {a b : List ℕ} (h : NoLater (i :: a) (j :: b)) :
    NoLater ((i + 1) :: a) ((j + 1) :: b) := by
  rcases h with h | h
  · obtain ⟨rfl, rfl⟩ := List.cons.inj h
    exact .inl rfl
  · cases h with
    | rel h => exact .inr (.rel (Nat.succ_lt_succ h))
    | cons h => exact .inr (.cons h)

/-- How a value is held: as an item or under a key. -/
inductive Label where
  | index (i : ℕ)
  | key (k : Key)

namespace Label

/-- The key is a text. -/
def isStr : Label → Bool
  | index _ => true
  | key k => k.type.isinstance .str

/-- What a path says of the step. -/
def text : Label → PyStr
  | index i => .ofString ("[" ++ toString i ++ "]")
  | key k =>
    if k.type.isinstance .str then .ofString "." ++ k.text
    else .ofString "[key=" ++ k.repr ++ .ofString "]"

end Label

namespace PyObj

/-- What a list or a `dict` holds, in order; any other value holds nothing that
is reached. -/
def children (v : PyObj) : List (Label × PyObj) :=
  if v.type.isinstance .dict then v.members.map fun kv => (.key kv.1, kv.2)
  else if v.type.isinstance .list then v.items.mapIdx fun i x => (.index i, x)
  else []

/-- The values reachable through lists and `dict` values. -/
inductive Reachable : PyObj → PyObj → Prop
  | refl (v : PyObj) : Reachable v v
  | step {v w x : PyObj} {l : Label} (h : (l, w) ∈ v.children) (hx : Reachable w x) : Reachable v x

/-- The value at an address and the steps to it. -/
def walk (v : PyObj) : List ℕ → Option (List Label × PyObj)
  | [] => some ([], v)
  | i :: a => v.children[i]?.bind fun lw => (walk lw.2 a).map fun r => (lw.1 :: r.1, r.2)

/-- The position is the first of its kind to be refused: its value is outside
the grammar, or the key it is under is no text. -/
def Offends (v : PyObj) (a : List ℕ) (path : List Label) : Prop :=
  ∃ w, v.walk a = some (path, w) ∧ (¬ w.InGrammar ∨ ∃ l ∈ path.getLast?, l.isStr = false)


end PyObj

/-! ### One value and what it holds -/

/-- The `value_type` a value is refused with for its own class. -/
def PyObj.refused? (v : PyObj) : Option String :=
  if v.type.isinstance .bool || v.type.isinstance .dict || v.type.isinstance .list then none
  else match forbidden.find? fun f => v.type.isForbidden f.1 with
    | some (_, reason) => some (v.type.name ++ " (" ++ reason ++ ")")
    | none => if allowedTypes.any v.type.isinstance then none else some v.type.name

/-- The class of a key that is no text. -/
def Label.typeName : Label → String
  | .index _ => "int"
  | .key k => k.type.name

/-- Both loops, over what a value holds. -/
def scan (path : PyStr) : List (Label × PyObj) → Except Refusal Unit
  | [] => .ok ()
  | (l, w) :: cs =>
    if l.isStr then
      match validate (path ++ l.text) w with
      | .ok _ => scan path cs
      | .error e => .error e
    else .error ⟨path ++ l.text, l.typeName⟩

theorem validateMembers_eq (path : PyStr) (kvs : List (Key × PyObj)) :
    validateMembers path kvs = scan path (kvs.map fun kv => (.key kv.1, kv.2)) := by
  induction kvs with
  | nil => rfl
  | cons kv kvs ih =>
    obtain ⟨k, w⟩ := kv
    rw [validateMembers, List.map_cons, scan, ih]
    cases hk : k.type.isinstance .str <;> simp [Label.isStr, Label.text, Label.typeName, hk]

theorem validateItems_eq (path : PyStr) (xs : List PyObj) :
    ∀ i, validateItems path i xs = scan path (xs.mapIdx fun j x => (.index (i + j), x)) := by
  induction xs with
  | nil => intro i; rfl
  | cons x xs ih =>
    intro i
    rw [validateItems, List.mapIdx_cons, scan, ih]
    simp only [Label.isStr, Label.text, Nat.add_zero, if_true, Nat.add_assoc, Nat.add_comm 1]

/-- A value is validated by its own class and then by what it holds. -/
theorem validate_eq (path : PyStr) (v : PyObj) : validate path v =
    match v.refused? with
    | some t => .error ⟨path, t⟩
    | none => scan path v.children := by
  obtain ⟨t, xs, kvs⟩ := v
  rw [validate, PyObj.refused?, PyObj.children]
  simp only [PyObj.type, PyObj.items, PyObj.members, validateMembers_eq, validateItems_eq, Nat.zero_add]
  by_cases hb : t.isinstance .bool = true
  · have hbase := PyType.isinstance_bool.1 hb
    have hd : t.isinstance .dict = false := by rw [PyType.isinstance, hbase]; rfl
    have hl : t.isinstance .list = false := by rw [PyType.isinstance, hbase]; rfl
    simp [hb, hd, hl, scan]
  · by_cases hd : t.isinstance .dict = true
    · simp [hb, hd]
    · by_cases hl : t.isinstance .list = true
      · simp [hb, hd, hl]
      · simp only [hb, hd, hl, Bool.or_self, Bool.false_eq_true, if_false]
        cases forbidden.find? fun f => t.isForbidden f.1 with
        | some f => rfl
        | none =>
          by_cases ha : allowedTypes.any t.isinstance = true
          · simp only [ha, if_true, scan]
          · simp only [ha, Bool.false_eq_true, if_false]

/-- **The tests decide the grammar of one value**, whatever its class derives
from. -/
theorem PyObj.refused?_eq_none {v : PyObj} : v.refused? = none ↔ v.InGrammar := by
  obtain ⟨⟨name, base, isEnum, hs⟩, xs, kvs⟩ := v
  rw [PyObj.refused?, PyObj.InGrammar]
  simp only [PyObj.type]
  cases base <;> cases isEnum <;>
    simp [forbidden, allowedTypes, PyType.isForbidden, PyType.isinstance, Builtin.isSubclass] at hs ⊢

/-! ### The first offending position -/

/-- A position below one of the listed values offends, or the key of one does. -/
def OffendsIn (cs : List (Label × PyObj)) (a : List ℕ) (p : List Label) : Prop :=
  ∃ i b l w q, a = i :: b ∧ p = l :: q ∧ cs[i]? = some (l, w) ∧
    (w.Offends b q ∨ (b = [] ∧ q = [] ∧ l.isStr = false))

namespace PyObj

theorem offends_nil {v : PyObj} {p : List Label} : v.Offends [] p ↔ p = [] ∧ ¬ v.InGrammar := by
  constructor
  · rintro ⟨w, hw, h⟩
    obtain ⟨rfl, rfl⟩ := Prod.mk.inj (Option.some.inj hw)
    refine ⟨rfl, h.resolve_right ?_⟩
    rintro ⟨l, hl, -⟩
    cases hl
  · rintro ⟨rfl, h⟩
    exact ⟨v, rfl, .inl h⟩

theorem walk_nil_eq {v w : PyObj} {p : List Label} (h : v.walk [] = some (p, w)) : p = [] ∧ w = v := by
  obtain ⟨rfl, rfl⟩ := Prod.mk.inj (Option.some.inj h)
  exact ⟨rfl, rfl⟩

theorem walk_length {v w : PyObj} {a : List ℕ} {p : List Label} (h : v.walk a = some (p, w)) :
    p.length = a.length := by
  induction a generalizing v p with
  | nil => rw [(walk_nil_eq h).1]; rfl
  | cons i a ih =>
    obtain ⟨lw, -, h⟩ := Option.bind_eq_some_iff.1 h
    obtain ⟨⟨q, x⟩, hq, hp⟩ := Option.map_eq_some_iff.1 h
    obtain ⟨rfl, rfl⟩ := Prod.mk.inj hp
    exact congrArg (· + 1) (ih hq)

theorem offends_cons {v : PyObj} {i : ℕ} {a : List ℕ} {p : List Label} :
    v.Offends (i :: a) p ↔ OffendsIn v.children (i :: a) p := by
  constructor
  · rintro ⟨x, hx, h⟩
    obtain ⟨⟨l, w⟩, hi, hx⟩ := Option.bind_eq_some_iff.1 hx
    obtain ⟨⟨q, y⟩, hq, hp⟩ := Option.map_eq_some_iff.1 hx
    obtain ⟨rfl, rfl⟩ := Prod.mk.inj hp
    refine ⟨i, a, l, w, q, rfl, rfl, hi, ?_⟩
    rcases h with h | ⟨m, hm, hs⟩
    · exact .inl ⟨y, hq, .inl h⟩
    · cases q with
      | nil =>
        obtain rfl := Option.some.inj hm
        exact .inr ⟨List.length_eq_zero_iff.1 (walk_length hq).symm, rfl, hs⟩
      | cons m' q => exact .inl ⟨y, hq, .inr ⟨m, by rwa [List.getLast?_cons_cons] at hm, hs⟩⟩
  · rintro ⟨j, b, l, w, q, ha, rfl, hi, h⟩
    obtain ⟨rfl, rfl⟩ := List.cons.inj ha
    rcases h with ⟨x, hx, h⟩ | ⟨rfl, rfl, hs⟩
    · refine ⟨x, ?_, ?_⟩
      · simp only [walk, hi, Option.bind_some, hx, Option.map_some]
      · rcases h with h | ⟨m, hm, hs⟩
        · exact .inl h
        · refine .inr ⟨m, ?_, hs⟩
          cases q with
          | nil => cases hm
          | cons m' q => rw [List.getLast?_cons_cons]; exact hm
    · exact ⟨w, by simp only [walk, hi, Option.bind_some, Option.map_some], .inr ⟨l, rfl, hs⟩⟩

end PyObj

/-- The text of a path below another. -/
def fieldText (path : PyStr) (p : List Label) : PyStr := path ++ p.flatMap Label.text

theorem fieldText_cons (path : PyStr) (l : Label) (p : List Label) :
    fieldText path (l :: p) = fieldText (path ++ l.text) p := by
  rw [fieldText, fieldText, List.flatMap_cons, List.append_assoc]

/-- The verdict names the first offending position, or there is none. -/
def Decides (r : Except Refusal Unit) (path : PyStr) (offends : List ℕ → List Label → Prop) : Prop :=
  match r with
  | .ok _ => ∀ a p, ¬ offends a p
  | .error e => ∃ a p, e.field = fieldText path p ∧ offends a p ∧
    ∀ b q, offends b q → NoLater a b

/-- What offends in a list of values offends in the first or in the others. -/
theorem offendsIn_cons {l : Label} {w : PyObj} {cs : List (Label × PyObj)} {b : List ℕ} {q : List Label}
    (hl : l.isStr = true) (h : OffendsIn ((l, w) :: cs) b q) :
    (∃ b' q', b = 0 :: b' ∧ q = l :: q' ∧ w.Offends b' q') ∨
      ∃ i b', b = (i + 1) :: b' ∧ OffendsIn cs (i :: b') q := by
  obtain ⟨i, b', m, x, q', rfl, rfl, hi, h⟩ := h
  cases i with
  | zero =>
    obtain ⟨rfl, rfl⟩ := Prod.mk.inj (Option.some.inj hi)
    refine .inl ⟨b', q', rfl, rfl, h.resolve_right ?_⟩
    rintro ⟨-, -, hs⟩
    rw [hl] at hs
    cases hs
  | succ i => exact .inr ⟨i, b', rfl, i, b', m, x, q', rfl, rfl, hi, h⟩

theorem OffendsIn.succ {l : Label} {w : PyObj} {cs : List (Label × PyObj)} {i : ℕ} {b : List ℕ}
    {q : List Label} (h : OffendsIn cs (i :: b) q) : OffendsIn ((l, w) :: cs) ((i + 1) :: b) q := by
  obtain ⟨j, b', m, x, q', hb, rfl, hi, h⟩ := h
  obtain ⟨rfl, rfl⟩ := List.cons.inj hb
  exact ⟨i + 1, b, m, x, q', rfl, rfl, hi, h⟩

theorem scan_decides {cs : List (Label × PyObj)}
    (h : ∀ lw ∈ cs, ∀ path, Decides (validate path lw.2) path lw.2.Offends) (path : PyStr) :
    Decides (scan path cs) path (OffendsIn cs) := by
  induction cs with
  | nil =>
    rintro a p ⟨i, b, l, w, q, -, -, hi, -⟩
    cases hi
  | cons lw cs ih =>
    obtain ⟨l, w⟩ := lw
    have hw := h (l, w) (by simp) (path ++ l.text)
    have hcs := ih fun x hx => h x (List.mem_cons_of_mem _ hx)
    rw [scan]
    cases hl : l.isStr with
    | false =>
      -- the key is looked at before its value, so nothing below it comes first
      refine ⟨[0], [l], by simp [fieldText], ⟨0, [], l, w, [], rfl, rfl, rfl, .inr ⟨rfl, rfl, hl⟩⟩, ?_⟩
      rintro b q ⟨i, b, m, x, q, rfl, -, -, -⟩
      cases i with
      | zero => exact (NoLater.nil b).cons 0
      | succ i => exact .head _ _ (Nat.succ_pos i)
    | true =>
      rw [if_pos rfl]
      cases hv : validate (path ++ l.text) w with
      | error e =>
        rw [hv] at hw
        obtain ⟨a, p, he, hp, hmin⟩ := hw
        refine ⟨0 :: a, l :: p, by rw [he, fieldText_cons], ⟨0, a, l, w, p, rfl, rfl, rfl, .inl hp⟩, ?_⟩
        intro b q hb
        rcases offendsIn_cons hl hb with ⟨b', q', rfl, rfl, hb'⟩ | ⟨i, b', rfl, -⟩
        · exact (hmin b' q' hb').cons 0
        · exact .head _ _ (Nat.succ_pos i)
      | ok u =>
        rw [hv] at hw
        cases hs : scan path cs with
        | ok u =>
          rw [hs] at hcs
          intro b q hb
          rcases offendsIn_cons hl hb with ⟨b', q', rfl, rfl, hb'⟩ | ⟨i, b', rfl, hb'⟩
          · exact hw b' q' hb'
          · exact hcs _ q hb'
        | error e =>
          rw [hs] at hcs
          obtain ⟨a, p, he, hp, hmin⟩ := hcs
          obtain ⟨i, a, -, -, -, rfl, -⟩ := id hp
          refine ⟨(i + 1) :: a, p, he, hp.succ, ?_⟩
          intro b q hb
          rcases offendsIn_cons hl hb with ⟨b', q', rfl, rfl, hb'⟩ | ⟨j, b', rfl, hb'⟩
          · exact absurd hb' (hw b' q')
          · exact (hmin _ q hb').succ

/-- Induction on a value through what it holds. -/
theorem PyObj.induct {P : PyObj → Prop} (h : ∀ v, (∀ lw ∈ v.children, P lw.2) → P v) (v : PyObj) : P v := by
  refine @PyObj.rec P (fun xs => ∀ x ∈ xs, P x) (fun kvs => ∀ kv ∈ kvs, P kv.2) (fun kv => P kv.2)
    ?_ (by simp) ?_ (by simp) ?_ (fun _ _ h => h) v
  · intro t xs kvs hxs hkvs
    refine h _ fun lw hlw => ?_
    rw [PyObj.children] at hlw
    split at hlw
    · obtain ⟨kv, hkv, rfl⟩ := List.mem_map.1 hlw
      exact hkvs kv hkv
    · split at hlw
      · obtain ⟨i, hi, rfl⟩ := List.mem_mapIdx.1 hlw
        exact hxs _ (List.getElem_mem hi)
      · cases hlw
  · intro x xs hx hxs
    exact List.forall_mem_cons.2 ⟨hx, hxs⟩
  · intro kv kvs hkv hkvs
    exact List.forall_mem_cons.2 ⟨hkv, hkvs⟩

/-- **The verdict is about the first offending position.** -/
theorem validate_decides (v : PyObj) : ∀ path, Decides (validate path v) path v.Offends := by
  induction v using PyObj.induct with
  | h v ih =>
    intro path
    rw [validate_eq]
    cases hr : v.refused? with
    | some t =>
      have hg : ¬ v.InGrammar := fun h => by simp [PyObj.refused?_eq_none.2 h] at hr
      exact ⟨[], [], by simp [fieldText], PyObj.offends_nil.2 ⟨rfl, hg⟩, fun b _ _ => .nil b⟩
    | none =>
      have hg := PyObj.refused?_eq_none.1 hr
      have hcs := scan_decides ih path
      have hiff : ∀ a p, v.Offends a p ↔ OffendsIn v.children a p := by
        intro a p
        cases a with
        | nil =>
          refine ⟨fun h => absurd hg (PyObj.offends_nil.1 h).2, ?_⟩
          rintro ⟨i, b, l, w, q, h, -⟩
          cases h
        | cons i a => exact PyObj.offends_cons
      simp only [Decides, hiff]
      exact hcs

/-! ### The decided grammar -/

/-- The value is in the grammar, and so is every key it holds values under. -/
def PyObj.Fine (v : PyObj) : Prop := v.InGrammar ∧ ∀ lw ∈ v.children, lw.1.isStr = true

theorem PyObj.Reachable.offends {v w : PyObj} (h : v.Reachable w) (hw : ¬ w.Fine) :
    ∃ a p, v.Offends a p := by
  induction h with
  | refl v =>
    by_cases hg : v.InGrammar
    · have hk : ¬ ∀ lw ∈ v.children, lw.1.isStr = true := fun hk => hw ⟨hg, hk⟩
      simp only [not_forall, Bool.not_eq_true] at hk
      obtain ⟨⟨l, w⟩, hlw, hs⟩ := hk
      obtain ⟨i, hi⟩ := List.mem_iff_getElem?.1 hlw
      exact ⟨[i], [l], PyObj.offends_cons.2 ⟨i, [], l, w, [], rfl, rfl, hi, .inr ⟨rfl, rfl, hs⟩⟩⟩
    · exact ⟨[], [], PyObj.offends_nil.2 ⟨rfl, hg⟩⟩
  | step hmem _ ih =>
    obtain ⟨a, p, hap⟩ := ih hw
    obtain ⟨i, hi⟩ := List.mem_iff_getElem?.1 hmem
    exact ⟨i :: a, _ :: p, PyObj.offends_cons.2 ⟨i, a, _, _, p, rfl, rfl, hi, .inl hap⟩⟩

theorem PyObj.Offends.reachable {a : List ℕ} : ∀ {v : PyObj} {p : List Label}, v.Offends a p →
    ∃ w, v.Reachable w ∧ ¬ w.Fine := by
  induction a with
  | nil =>
    intro v p h
    exact ⟨v, .refl v, fun hf => (PyObj.offends_nil.1 h).2 hf.1⟩
  | cons i a ih =>
    intro v p h
    obtain ⟨j, b, l, w, q, hb, rfl, hi, h⟩ := PyObj.offends_cons.1 h
    obtain ⟨rfl, rfl⟩ := List.cons.inj hb
    rcases h with h | ⟨-, -, hs⟩
    · obtain ⟨x, hx, hf⟩ := ih h
      exact ⟨x, .step (List.mem_of_getElem? hi) hx, hf⟩
    · refine ⟨v, .refl v, fun hf => ?_⟩
      have := hf.2 _ (List.mem_of_getElem? hi)
      rw [hs] at this
      cases this

/-- **The canonical grammar.**  The validation returns if and only if every
reachable value is in the grammar and every key of a reachable `dict` is a text,
and otherwise the error's field is the path of the first offending position. -/
theorem validate_grammar (v : PyObj) :
    (validate (.ofString "root") v = .ok () ↔ ∀ w, v.Reachable w → w.Fine) ∧
      ∀ e, validate (.ofString "root") v = .error e →
        ∃ a p, e.field = fieldText (.ofString "root") p ∧ v.Offends a p ∧
          ∀ b q, v.Offends b q → NoLater a b := by
  have hd := validate_decides v (.ofString "root")
  cases hv : validate (.ofString "root") v with
  | ok u =>
    rw [hv] at hd
    refine ⟨iff_of_true rfl fun w hw => ?_, fun e he => by cases he⟩
    by_contra hf
    obtain ⟨a, p, h⟩ := hw.offends hf
    exact hd a p h
  | error e =>
    rw [hv] at hd
    refine ⟨iff_of_false (fun h => by cases h) fun h => ?_, ?_⟩
    · obtain ⟨a, p, -, hap, -⟩ := hd
      obtain ⟨w, hw, hf⟩ := hap.reachable
      exact hf (h w hw)
    · rintro e' he
      obtain rfl := Except.error.inj he
      exact hd

/-! ### The validation of the hashed values -/

/-- A key as the hashing code's model has it. -/
def Key.IsA (k : Key) : PyKey → Prop
  | .str s => k.type.isinstance .str = true ∧ k.text = .ofString s
  | .other r n => k.type.isinstance .str = false ∧ k.repr = .ofString r ∧ k.type.name = n

mutual
/-- The object is the value, as the hashing code's model has it. -/
def PyObj.IsA (o : PyObj) : PyVal → Prop
  | .none => o.type.base = .noneType
  | .bool _ => o.type.base = .bool
  | .int _ => o.type.base = .int ∧ o.type.isEnum = false
  | .str _ => o.type.base = .str ∧ o.type.isEnum = false
  | .list xs => o.type.base = .list ∧ itemsAre o.items xs
  | .dict kvs => o.type.base = .dict ∧ membersAre o.members kvs
  | .obj n cs => ¬ o.InGrammar ∧ o.type.name = n ∧ ∀ c, cs.contains c = o.type.isForbidden c

/-- `IsA` item by item. -/
def itemsAre (os : List PyObj) : List PyVal → Prop
  | [] => os = []
  | x :: xs => ∃ o os', os = o :: os' ∧ o.IsA x ∧ itemsAre os' xs

/-- `IsA` member by member. -/
def membersAre (os : List (Key × PyObj)) : List (PyKey × PyVal) → Prop
  | [] => os = []
  | (k, x) :: kvs => ∃ k' o os', os = (k', o) :: os' ∧ k'.IsA k ∧ o.IsA x ∧ membersAre os' kvs
end

/-- The two verdicts are one. -/
def SameVerdict : Except PyErr Unit → Except Refusal Unit → Prop
  | .ok _, r => r = .ok ()
  | .error (.canonicalJsonError f t), r => r = .error ⟨.ofString f, t⟩
  | .error _, _ => False

theorem ofString_append (s t : String) : PyStr.ofString (s ++ t) = .ofString s ++ .ofString t := by
  simp [PyStr.ofString]

theorem refused?_obj {o : PyObj} {n : String} {cs : List PyClass} (h : o.IsA (.obj n cs)) :
    o.refused? = some (valueType n cs) := by
  obtain ⟨hg, rfl, hcs⟩ := h
  have hne : o.refused? ≠ none := fun hn => hg (PyObj.refused?_eq_none.1 hn)
  rw [PyObj.refused?] at hne ⊢
  rw [valueType, funext fun f : PyClass × String => hcs f.1]
  split at hne
  · exact absurd rfl hne
  · rename_i hc
    rw [if_neg hc]
    cases hf : forbidden.find? fun f => o.type.isForbidden f.1 with
    | some f => rfl
    | none =>
      rw [hf] at hne
      simp only at hne ⊢
      split at hne
      · exact absurd rfl hne
      · rename_i ha
        rw [if_neg ha]

theorem itemsAre_verdict {xs : List PyVal}
    (h : ∀ x ∈ xs, ∀ o path, PyObj.IsA o x →
      SameVerdict (validatePayload path x) (validate (.ofString path) o)) (path : String) :
    ∀ i os, itemsAre os xs →
      SameVerdict (ProvableAi.validateItems path i xs) (validateItems (.ofString path) i os) := by
  induction xs with
  | nil => rintro i os rfl; rfl
  | cons x xs ih =>
    rintro i os ⟨o, os, rfl, ho, hos⟩
    have hx := h x (by simp) o (path ++ "[" ++ toString i ++ "]") ho
    have hxs := ih (fun y hy => h y (List.mem_cons_of_mem _ hy)) (i + 1) os hos
    rw [ProvableAi.validateItems, Grammar.validateItems, ← ofString_append]
    have hp : path ++ ("[" ++ toString i ++ "]") = path ++ "[" ++ toString i ++ "]" := by
      simp only [String.append_assoc]
    rw [hp]
    cases hv : validatePayload (path ++ "[" ++ toString i ++ "]") x with
    | ok u =>
      rw [hv] at hx
      rw [show validate _ o = .ok () from hx]
      exact hxs
    | error e =>
      rw [hv] at hx
      cases e with
      | canonicalJsonError f t => rw [show validate _ o = .error _ from hx]; rfl
      | _ => exact hx.elim

theorem membersAre_verdict {kvs : List (PyKey × PyVal)}
    (h : ∀ kv ∈ kvs, ∀ o path, PyObj.IsA o kv.2 →
      SameVerdict (validatePayload path kv.2) (validate (.ofString path) o)) (path : String) :
    ∀ os, membersAre os kvs →
      SameVerdict (ProvableAi.validateMembers path kvs) (validateMembers (.ofString path) os) := by
  induction kvs with
  | nil => rintro os rfl; rfl
  | cons kv kvs ih =>
    obtain ⟨k, x⟩ := kv
    rintro os ⟨k', o, os, rfl, hk, ho, hos⟩
    have hkvs := ih (fun y hy => h y (List.mem_cons_of_mem _ hy)) os hos
    rw [Grammar.validateMembers]
    cases k with
    | other r n =>
      obtain ⟨hs, hr, hn⟩ := hk
      rw [ProvableAi.validateMembers, hs, hr, hn]
      simp [SameVerdict, ofString_append]
    | str s =>
      obtain ⟨hs, ht⟩ := hk
      have hx := h (.str s, x) (by simp) o (path ++ "." ++ s) ho
      rw [ProvableAi.validateMembers, hs, ht, if_pos rfl, ← ofString_append, ← ofString_append]
      cases hv : validatePayload (path ++ "." ++ s) x with
      | ok u =>
        rw [hv] at hx
        rw [show validate _ o = .ok () from hx]
        exact hkvs
      | error e =>
        rw [hv] at hx
        cases e with
        | canonicalJsonError f t => rw [show validate _ o = .error _ from hx]; rfl
        | _ => exact hx.elim

/-- **The hashing code's validation is this one**, on the values it models. -/
theorem validatePayload_eq (v : PyVal) : ∀ o path, PyObj.IsA o v →
    SameVerdict (validatePayload path v) (validate (.ofString path) o) := by
  have hleaf : ∀ (o : PyObj) (path : PyStr), o.InGrammar → o.children = [] → validate path o = .ok () := by
    intro o path hg hc
    rw [validate_eq, PyObj.refused?_eq_none.2 hg, hc]
    rfl
  induction v using PyVal.induct with
  | none =>
    intro o path h
    refine hleaf o _ (.inl h) ?_
    simp [PyObj.children, PyType.isinstance, show o.type.base = _ from h, Builtin.isSubclass]
  | bool b =>
    intro o path h
    refine hleaf o _ (.inr (.inl (PyType.isinstance_bool.2 h))) ?_
    simp [PyObj.children, PyType.isinstance, show o.type.base = _ from h, Builtin.isSubclass]
  | int n =>
    intro o path h
    refine hleaf o _ (.inr (.inr (.inl ⟨by rw [PyType.isinstance, h.1]; rfl, h.2⟩))) ?_
    simp [PyObj.children, PyType.isinstance, h.1, Builtin.isSubclass]
  | str s =>
    intro o path h
    refine hleaf o _ (.inr (.inr (.inr (.inl ⟨by rw [PyType.isinstance, h.1]; rfl, h.2⟩)))) ?_
    simp [PyObj.children, PyType.isinstance, h.1, Builtin.isSubclass]
  | list xs ih =>
    rintro ⟨t, os, ms⟩ path ⟨hb, hos⟩
    have ht : t.base = .list := hb
    rw [validate]
    simpa [PyType.isinstance, ht, Builtin.isSubclass, validatePayload] using
      itemsAre_verdict ih path 0 os hos
  | dict kvs ih =>
    rintro ⟨t, os, ms⟩ path ⟨hb, hms⟩
    have ht : t.base = .dict := hb
    rw [validate]
    simpa [PyType.isinstance, ht, Builtin.isSubclass, validatePayload] using
      membersAre_verdict ih path ms hms
  | obj n cs =>
    intro o path h
    rw [validate_eq, refused?_obj h]
    rfl

end Grammar
end ProvableAi
