/-
# Time stamp requests

`_build_ts_request` of `audit_anchor.py`: a `TimeStampReq` for the SHA-256 of
some bytes, put together octet by octet, with a nonce of eight random bytes and
`certReq` set.

`decodeTimeStampReq` is a reader of that type as the standard has it, with the
optional fields the code leaves out, and refuses what is not DER.  The nonce
loses its leading zero bytes and keeps one when nothing is left; it gets one
back when its first bit is set (`nonceBytes_minimal`, `signed_nonceBytes`).
-/

import ProvableAi.Crypto.Sha256
import ProvableAi.Lib.Der

namespace ProvableAi
namespace TimestampRequest

/-- `SEQUENCE { OID sha256, NULL }`. -/
def sha256OidDer : Bytes :=
  [0x30, 0x0d, 0x06, 0x09, 0x60, 0x86, 0x48, 0x01, 0x65, 0x03, 0x04, 0x02, 0x01, 0x05, 0x00]

example : fromHex "300d06096086480165030402010500" = some sha256OidDer := by decide +kernel

/-- `bs.lstrip(b"\x00")`. -/
def lstrip (bs : Bytes) : Bytes := bs.dropWhile (· == 0)

/-- The contents of the nonce for the bytes that `os.urandom(8)` returned. -/
def nonceBytes (urandom : Vector UInt8 8) : Bytes :=
  let nonceVal := Der.unsigned urandom.toList
  let stripped := lstrip (Der.octets 8 nonceVal)
  let nonceBytes := if stripped = [] then [0] else stripped
  if nonceBytes.headD 0 &&& 0x80 ≠ 0 then 0 :: nonceBytes else nonceBytes

/-- `_build_ts_request(data_bytes)`. -/
def buildTsRequest (dataBytes : Bytes) (urandom : Vector UInt8 8) : Bytes :=
  let sha256Hash := sha256 dataBytes
  let hashedMsgDer := [0x04, UInt8.ofNat sha256Hash.length] ++ sha256Hash
  let msgImprintInner := sha256OidDer ++ hashedMsgDer
  let msgImprintDer := [0x30, UInt8.ofNat msgImprintInner.length] ++ msgImprintInner
  let versionDer := [0x02, 0x01, 0x01]
  let nonceDer := [0x02, UInt8.ofNat (nonceBytes urandom).length] ++ nonceBytes urandom
  let certReqDer := [0x01, 0x01, 0xff]
  let inner := versionDer ++ msgImprintDer ++ nonceDer ++ certReqDer
  [0x30, UInt8.ofNat inner.length] ++ inner

/-! ### The type -/

/-- `AlgorithmIdentifier`: the parameters with their identifier octet. -/
structure AlgorithmIdentifier where
  algorithm : List ℕ
  parameters : Option (UInt8 × Bytes)
  deriving DecidableEq

/-- `MessageImprint`. -/
structure MessageImprint where
  hashAlgorithm : AlgorithmIdentifier
  hashedMessage : Bytes
  deriving DecidableEq

/-- `TimeStampReq`; the extensions are not looked into. -/
structure TimeStampReq where
  version : ℤ
  messageImprint : MessageImprint
  reqPolicy : Option (List ℕ)
  nonce : Option ℤ
  certReq : Bool
  extensions : Option Bytes
  deriving DecidableEq

/-- The reader of an `AlgorithmIdentifier`. -/
def decodeAlgorithmIdentifier (s : Bytes) : Option AlgorithmIdentifier := do
  let (oid, rest) ← Der.expect 0x06 s
  let algorithm ← Der.objectIdentifier oid
  if rest = [] then pure ⟨algorithm, none⟩
  else do
    let (tag, content, rest) ← Der.readElement rest
    if rest = [] then pure ⟨algorithm, some (tag, content)⟩ else none

/-- The reader of a `MessageImprint`. -/
def decodeMessageImprint (s : Bytes) : Option MessageImprint := do
  let (algorithm, rest) ← Der.expect 0x30 s
  let hashAlgorithm ← decodeAlgorithmIdentifier algorithm
  let (hashedMessage, rest) ← Der.expect 0x04 rest
  if rest = [] then pure ⟨hashAlgorithm, hashedMessage⟩ else none

/-- A field that may be left out, read by `f`. -/
def decodeOptional {α : Type} (tag : UInt8) (f : Bytes → Option α) (s : Bytes) : Option (Option α × Bytes) := do
  match ← Der.optional tag s with
  | (none, rest) => pure (none, rest)
  | (some content, rest) => do
    let a ← f content
    pure (some a, rest)

/-- The reader of a `TimeStampReq`: all of the string, and a `certReq` only where it is not the default. -/
def decodeTimeStampReq (s : Bytes) : Option TimeStampReq := do
  let (body, rest) ← Der.expect 0x30 s
  if rest ≠ [] then none
  else do
    let (version, rest) ← Der.expect 0x02 body
    let version ← Der.integer version
    let (imprint, rest) ← Der.expect 0x30 rest
    let messageImprint ← decodeMessageImprint imprint
    let (reqPolicy, rest) ← decodeOptional 0x06 Der.objectIdentifier rest
    let (nonce, rest) ← decodeOptional 0x02 Der.integer rest
    let (certReq, rest) ← decodeOptional 0x01 Der.boolean rest
    let (extensions, rest) ← decodeOptional 0xa0 some rest
    if rest ≠ [] ∨ certReq = some false then none
    else pure ⟨version, messageImprint, reqPolicy, nonce, certReq.getD false, extensions⟩

/-- The algorithm `sha256` without parameters other than `NULL`. -/
def sha256Algorithm : AlgorithmIdentifier := ⟨[2, 16, 840, 1, 101, 3, 4, 2, 1], some (0x05, [])⟩

/-! ### The nonce -/

theorem unsigned_lstrip (bs : Bytes) : Der.unsigned (lstrip bs) = Der.unsigned bs := by
  induction bs with
  | nil => rfl
  | cons b bs ih =>
    by_cases hb : b = 0
    · rw [hb, lstrip, List.dropWhile_cons_of_pos (by simp), Der.unsigned_zero_cons]
      exact ih
    · rw [lstrip, List.dropWhile_cons_of_neg (by simpa using hb)]

theorem lstrip_length_le (bs : Bytes) : (lstrip bs).length ≤ bs.length :=
  (List.dropWhile_sublist _).length_le

/-- What is left does not start with a zero byte. -/
theorem lstrip_head {bs cs : Bytes} {b : UInt8} (h : lstrip bs = b :: cs) : b ≠ 0 := by
  rw [lstrip] at h
  have hne : bs.dropWhile (· == 0) ≠ [] := by rw [h]; exact List.cons_ne_nil _ _
  have hhead := List.head_dropWhile_not (· == 0) hne
  simp only [h, List.head_cons] at hhead
  simpa using hhead

/-- The test on the high bit. -/
theorem and_high_bit (b : UInt8) : b &&& 0x80 = 0 ↔ b < 128 := by
  have h : ∀ n < 256, n &&& 128 = 0 ↔ n < 128 := by decide +kernel
  rw [← UInt8.toNat_inj, UInt8.toNat_and, UInt8.lt_iff_toNat_lt]
  exact h _ b.toNat_lt

variable (urandom : Vector UInt8 8)

/-- The nonce without its leading zero bytes, by its first byte. -/
theorem nonceBytes_cases :
    (Der.unsigned urandom.toList = 0 ∧ nonceBytes urandom = [0]) ∨
    (∃ b bs, lstrip urandom.toList = b :: bs ∧ b ≠ 0 ∧ b < 128 ∧ nonceBytes urandom = b :: bs) ∨
    (∃ b bs, lstrip urandom.toList = b :: bs ∧ ¬ b < 128 ∧ nonceBytes urandom = 0 :: b :: bs) := by
  have hoctets : Der.octets 8 (Der.unsigned urandom.toList) = urandom.toList := by
    have h : Der.octets urandom.toList.length (Der.unsigned urandom.toList) = urandom.toList := Der.octets_unsigned
    rwa [Vector.length_toList] at h
  have hvalue := unsigned_lstrip urandom.toList
  cases hs : lstrip urandom.toList with
  | nil =>
    rw [hs] at hvalue
    exact .inl ⟨hvalue.symm, by simp [nonceBytes, hoctets, hs]⟩
  | cons b bs =>
    by_cases hb : b < 128
    · exact .inr (.inl ⟨b, bs, rfl, lstrip_head hs, hb, by
        simp [nonceBytes, hoctets, hs, (and_high_bit b).2 hb]⟩)
    · have hbit : b &&& 0x80 ≠ 0 := fun h => hb ((and_high_bit b).1 h)
      exact .inr (.inr ⟨b, bs, rfl, hb, by simp [nonceBytes, hoctets, hs, hbit]⟩)

/-- **The nonce is minimal.** -/
theorem nonceBytes_minimal : Der.Minimal (nonceBytes urandom) := by
  rcases nonceBytes_cases urandom with ⟨-, h⟩ | ⟨b, bs, -, h0, hb, h⟩ | ⟨b, bs, -, hb, h⟩
  · rw [h]; trivial
  · rw [h]
    cases bs with
    | nil => trivial
    | cons c bs =>
      exact ⟨fun hz => h0 hz.1, fun hz => by rw [hz.1] at hb; exact absurd hb (by decide)⟩
  · rw [h]
    exact ⟨fun hz => hb hz.2, fun hz => absurd hz.1 (by decide)⟩

/-- **The nonce is read as the number that was drawn.** -/
theorem signed_nonceBytes : Der.signed (nonceBytes urandom) = Der.unsigned urandom.toList := by
  rcases nonceBytes_cases urandom with ⟨hz, h⟩ | ⟨b, bs, hs, -, hb, h⟩ | ⟨b, bs, hs, -, h⟩
  · rw [h, hz]; rfl
  · rw [h, Der.signed_eq_unsigned hb, ← hs, unsigned_lstrip]
  · rw [h, Der.signed_eq_unsigned (by decide), Der.unsigned_zero_cons, ← hs, unsigned_lstrip]

theorem nonceBytes_length_le : (nonceBytes urandom).length ≤ 9 := by
  have hle := lstrip_length_le urandom.toList
  rw [Vector.length_toList] at hle
  rcases nonceBytes_cases urandom with ⟨-, h⟩ | ⟨b, bs, hs, -, -, h⟩ | ⟨b, bs, hs, -, h⟩
  · simp [h]
  · rw [hs] at hle; rw [h]; omega
  · rw [hs] at hle; rw [h, List.length_cons]; omega

/-! ### The request -/

variable (dataBytes : Bytes)

/-- The request, element by element. -/
theorem buildTsRequest_eq :
    let imprint : Bytes := sha256OidDer ++ (0x04 :: UInt8.ofNat (sha256 dataBytes).length :: (sha256 dataBytes ++ []))
    let fields : Bytes :=
      0x02 :: UInt8.ofNat [(0x01 : UInt8)].length :: ([0x01] ++
        (0x30 :: UInt8.ofNat imprint.length :: (imprint ++
          (0x02 :: UInt8.ofNat (nonceBytes urandom).length :: (nonceBytes urandom ++
            (0x01 :: UInt8.ofNat [(0xff : UInt8)].length :: ([0xff] ++ [])))))))
    buildTsRequest dataBytes urandom = 0x30 :: UInt8.ofNat fields.length :: (fields ++ []) ∧
      imprint.length = 49 ∧ fields.length ≤ 68 := by
  have hle := nonceBytes_length_le urandom
  have hlen := sha256_length dataBytes
  simp [buildTsRequest, sha256OidDer]
  omega

/-- Every length octet of the imprint is a single one. -/
theorem imprint_shortForm (digest : Bytes) (h : digest.length = 32) :
    Der.ShortForm (sha256OidDer ++ (0x04 :: UInt8.ofNat digest.length :: (digest ++ []))) := by
  have halg : Der.ShortForm [0x06, 0x09, 0x60, 0x86, 0x48, 0x01, 0x65, 0x03, 0x04, 0x02, 0x01, 0x05, 0x00] :=
    @Der.ShortForm.primitive 0x06 0x09 [0x60, 0x86, 0x48, 0x01, 0x65, 0x03, 0x04, 0x02, 0x01] _ (by decide) (by decide)
      rfl (@Der.ShortForm.primitive 0x05 0x00 [] _ (by decide) (by decide) rfl .nil)
  have hdigest : Der.ShortForm (0x04 :: UInt8.ofNat digest.length :: (digest ++ [])) :=
    .primitive_ofNat (by decide) (by omega) .nil
  exact @Der.ShortForm.constructed 0x30 0x0d
    [0x06, 0x09, 0x60, 0x86, 0x48, 0x01, 0x65, 0x03, 0x04, 0x02, 0x01, 0x05, 0x00] _ (by decide) (by decide) rfl
    halg hdigest

theorem decodeAlgorithmIdentifier_sha256 :
    decodeAlgorithmIdentifier [0x06, 0x09, 0x60, 0x86, 0x48, 0x01, 0x65, 0x03, 0x04, 0x02, 0x01, 0x05, 0x00] =
      some sha256Algorithm := by
  decide +kernel

theorem decodeMessageImprint_sha256 (digest : Bytes) (h : digest.length = 32) :
    decodeMessageImprint (sha256OidDer ++ (0x04 :: UInt8.ofNat digest.length :: (digest ++ []))) =
      some ⟨sha256Algorithm, digest⟩ := by
  have halg : Der.expect 0x30 (sha256OidDer ++ (0x04 :: UInt8.ofNat digest.length :: (digest ++ []))) =
      some ([0x06, 0x09, 0x60, 0x86, 0x48, 0x01, 0x65, 0x03, 0x04, 0x02, 0x01, 0x05, 0x00],
        0x04 :: UInt8.ofNat digest.length :: (digest ++ [])) :=
    @Der.expect_short 0x30 [0x06, 0x09, 0x60, 0x86, 0x48, 0x01, 0x65, 0x03, 0x04, 0x02, 0x01, 0x05, 0x00] _
      (by decide) (by decide)
  have hdigest : Der.expect 0x04 (0x04 :: UInt8.ofNat digest.length :: (digest ++ [])) = some (digest, []) :=
    Der.expect_short (by decide) (by omega)
  simp only [decodeMessageImprint, halg, hdigest, decodeAlgorithmIdentifier_sha256, Option.bind_eq_bind,
    Option.bind_some, if_true, Option.pure_def]

/-- A field that is there is read. -/
theorem decodeOptional_short {α : Type} {tag : UInt8} {f : Bytes → Option α} {content rest : Bytes} {a : α}
    (htag : tag.toNat % 32 ≠ 31) (h : content.length < 128) (ha : f content = some a) :
    decodeOptional tag f (tag :: UInt8.ofNat content.length :: (content ++ rest)) = some (some a, rest) := by
  simp [decodeOptional, Der.optional_short htag h, ha]

theorem decodeOptional_absent {α : Type} {tag : UInt8} {f : Bytes → Option α} {rest : Bytes}
    (h : rest.head? ≠ some tag) : decodeOptional tag f rest = some (none, rest) := by
  simp [decodeOptional, Der.optional_absent h]

theorem integer_nonceBytes :
    Der.integer (nonceBytes urandom) = some (Der.unsigned urandom.toList : ℤ) := by
  rw [Der.integer, if_pos (nonceBytes_minimal urandom), signed_nonceBytes]

/-- **The request is DER**: its length octets are single ones and right, the nonce is encoded as short as it can
be, and a reader finds in the whole string just the version, the imprint, the nonce that was drawn and `certReq`. -/
theorem buildTsRequest_der :
    Der.ShortForm (buildTsRequest dataBytes urandom) ∧
    decodeTimeStampReq (buildTsRequest dataBytes urandom) = some
      { version := 1
        messageImprint := ⟨sha256Algorithm, sha256 dataBytes⟩
        reqPolicy := none
        nonce := some (Der.unsigned urandom.toList)
        certReq := true
        extensions := none } ∧
    Der.Minimal (nonceBytes urandom) ∧
    ∀ content, content ≠ [] → Der.signed content = Der.unsigned urandom.toList →
      (nonceBytes urandom).length ≤ content.length := by
  obtain ⟨heq, himprint, hfields⟩ := buildTsRequest_eq urandom dataBytes
  have hnonce := nonceBytes_length_le urandom
  refine ⟨?_, ?_, nonceBytes_minimal urandom, fun content hne hvalue => ?_⟩
  · rw [heq]
    refine .constructed_ofNat (by decide) (by omega) ?_ .nil
    refine .primitive_ofNat (by decide) (by decide) ?_
    refine .constructed_ofNat (by decide) (by omega) (imprint_shortForm _ (sha256_length _)) ?_
    refine .primitive_ofNat (by decide) (by omega) ?_
    exact .primitive_ofNat (by decide) (by decide) .nil
  · rw [heq, decodeTimeStampReq, Der.expect_short (by decide) (by omega)]
    simp only [Option.bind_eq_bind, Option.bind_some, ne_eq, not_true_eq_false, if_false]
    rw [Der.expect_short (by decide) (by decide), Option.bind_some]
    have hversion : Der.integer [0x01] = some 1 := by decide
    simp only [hversion, Option.bind_some]
    rw [Der.expect_short (by decide) (by omega), Option.bind_some]
    simp only [decodeMessageImprint_sha256 _ (sha256_length _), Option.bind_some]
    rw [decodeOptional_absent (by simp), Option.bind_some]
    rw [decodeOptional_short (by decide) (by omega) (integer_nonceBytes urandom), Option.bind_some]
    rw [decodeOptional_short (a := true) (by decide) (by decide) rfl, Option.bind_some]
    rw [decodeOptional_absent (by simp), Option.bind_some]
    simp
  · exact Der.shortest_of_minimal (nonceBytes_minimal urandom) hne (by rw [hvalue, signed_nonceBytes])

end TimestampRequest
end ProvableAi
