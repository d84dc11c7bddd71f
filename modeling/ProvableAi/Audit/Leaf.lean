/-
# The Merkle leaf of an audit entry

`compute_audit_leaf` in `audit_log.py`: six fields of an entry joined by `|`,
`None` as the empty text, and the digest of the result; `merkle_root_from_entries`
in `audit_batch.py` is the root over the leaves.

The fields are neither escaped nor preceded by their lengths, so a leaf says of
an entry what lies between the separators, in order (`leafPieces`).  Two states
of one entry share a leaf where only `None` and the empty text tell them apart,
or where a separator inside a field makes up for one between two fields
(`leaf_distinguishes_iff`).
-/

import ProvableAi.Audit.Log
import ProvableAi.Batch.Export
import ProvableAi.Lib.Joined

namespace ProvableAi
namespace Audit

/-! ### The leaf -/

/-- The texts that are joined. -/
def leafFields (entry : VerificationAuditEntry) : List String :=
  [entry.tenantId, entry.instanceId.getD "", (entry.sequenceId.map toString).getD "", entry.result, entry.verifiedAt,
    entry.failureCode.getD ""]

/-- The text that is hashed. -/
def leafContent (entry : VerificationAuditEntry) : String := "|".intercalate (leafFields entry)

/-- `compute_audit_leaf`. -/
def computeAuditLeaf (entry : VerificationAuditEntry) : String := sha256Hex (leafContent entry)

/-- The sort key of `merkle_root_from_entries`. -/
def sortsBefore (e f : VerificationAuditEntry) : Prop :=
  e.tenantId < f.tenantId ∨ e.tenantId = f.tenantId ∧
    (e.verifiedAt < f.verifiedAt ∨ e.verifiedAt = f.verifiedAt ∧ e.traceId ≤ f.traceId)

instance (e f : VerificationAuditEntry) : Decidable (sortsBefore e f) := inferInstanceAs (Decidable (_ ∨ _))

/-- `merkle_root_from_entries`. -/
def merkleRootFromEntries (entries : List VerificationAuditEntry) : String :=
  if entries.isEmpty then Batch.emptyRoot
  else Batch.merkleRoot ((entries.insertionSort sortsBefore).map computeAuditLeaf)

/-! ### What a leaf says of its entry -/

/-- The fields that a leaf covers. -/
def leafState (entry : VerificationAuditEntry) :
    String × Option String × Option ℤ × String × String × Option String :=
  (entry.tenantId, entry.instanceId, entry.sequenceId, entry.result, entry.verifiedAt, entry.failureCode)

/-- What lies between the separators. -/
def leafPieces (entry : VerificationAuditEntry) : List (List Char) :=
  Joined.pieces '|' ((leafFields entry).map String.toList)

theorem leafContent_eq_iff {e f : VerificationAuditEntry} : leafContent e = leafContent f ↔ leafPieces e = leafPieces f := by
  have hne : ∀ x : VerificationAuditEntry, (leafFields x).map String.toList ≠ [] := fun x h => by
    simp [leafFields] at h
  rw [leafPieces, leafPieces, ← Joined.intercalate_inj_iff '|' (hne e) (hne f), leafContent, leafContent,
    ← String.toList_inj, String.toList_intercalate, String.toList_intercalate]
  rfl

/-- Where no field has a separator, the pieces are the fields. -/
theorem leafPieces_of_plain {e : VerificationAuditEntry} (h : ∀ t ∈ leafFields e, '|' ∉ t.toList) :
    leafPieces e = (leafFields e).map String.toList :=
  Joined.pieces_of_plain fun t ht => by
    obtain ⟨u, hu, rfl⟩ := List.mem_map.1 ht
    exact h u hu

theorem computeAuditLeaf_eq_iff {e f : VerificationAuditEntry} (hsha : CollisionFree {leafContent e, leafContent f}) :
    computeAuditLeaf e = computeAuditLeaf f ↔ leafPieces e = leafPieces f := by
  rw [← leafContent_eq_iff]
  exact ⟨fun h => hsha (.inl rfl) (.inr rfl) h, fun h => congrArg sha256Hex h⟩

/-- Where no field has a separator a leaf stands for its fields, `None` read as the empty
text. -/
theorem computeAuditLeaf_plain_iff {e f : VerificationAuditEntry} (hsha : CollisionFree {leafContent e, leafContent f})
    (he : ∀ t ∈ leafFields e, '|' ∉ t.toList) (hf : ∀ t ∈ leafFields f, '|' ∉ t.toList) :
    computeAuditLeaf e = computeAuditLeaf f ↔ leafFields e = leafFields f := by
  rw [computeAuditLeaf_eq_iff hsha, leafPieces_of_plain he, leafPieces_of_plain hf]
  exact List.map_inj_right fun _ _ => String.toList_inj.1

/-- **When a leaf tells two states apart**: where SHA-256 does not collide on the two texts,
exactly if the states are one or differ in a piece. -/
theorem leaf_distinguishes_iff {e f : VerificationAuditEntry} (hsha : CollisionFree {leafContent e, leafContent f}) :
    (leafState e ≠ leafState f → computeAuditLeaf e ≠ computeAuditLeaf f) ↔
      leafState e = leafState f ∨ leafPieces e ≠ leafPieces f := by
  rw [ne_eq (leafPieces e), ← computeAuditLeaf_eq_iff hsha, or_iff_not_imp_left]

/-! One entry of the tests. -/

/-- An entry of a tenant, with a failure code. -/
def sampleLeafEntry (tenantId : String) (instanceId failureCode : Option String) : VerificationAuditEntry where
  tenantId := tenantId
  traceId := "trace-001"
  instanceId := instanceId
  sequenceId := some 1
  sequenceNum := 1
  proofId := none
  verifiedAt := "2026-03-15T12:00:00Z"
  result := "invalid"
  failureCode := failureCode
  failureMsg := none
  keyId := none
  governanceJson := none
  recordedAt := "2026-03-15T12:00:00Z"
  rowHash := ""
  prevChainHash := ""
  chainHash := ""

/-- With a failure code and without one: two leaves. -/
theorem leaf_distinguishes_failure :
    computeAuditLeaf (sampleLeafEntry "bank_abc" none (some "SIGNATURE_INVALID")) ≠
      computeAuditLeaf (sampleLeafEntry "bank_abc" none none) := by
  have hne : sha256Hex (leafContent (sampleLeafEntry "bank_abc" none (some "SIGNATURE_INVALID"))) ≠
      sha256Hex (leafContent (sampleLeafEntry "bank_abc" none none)) := by
    decide +kernel
  refine (leaf_distinguishes_iff ?_).2 (.inr (by decide)) (by decide)
  rintro x (rfl | rfl) y (rfl | rfl) hxy <;> first | rfl | exact absurd hxy hne | exact absurd hxy.symm hne

/-- **Two states with one leaf**: an instance that is missing and one without a name, and a
tenant whose name takes in the instance's. -/
theorem leaf_collides :
    (leafState (sampleLeafEntry "bank_abc" none none) ≠ leafState (sampleLeafEntry "bank_abc" (some "") none) ∧
      computeAuditLeaf (sampleLeafEntry "bank_abc" none none) =
        computeAuditLeaf (sampleLeafEntry "bank_abc" (some "") none)) ∧
      leafState (sampleLeafEntry "bank|loan_8821" (some "a") none) ≠
        leafState (sampleLeafEntry "bank" (some "loan_8821|a") none) ∧
      computeAuditLeaf (sampleLeafEntry "bank|loan_8821" (some "a") none) =
        computeAuditLeaf (sampleLeafEntry "bank" (some "loan_8821|a") none) := by
  refine ⟨⟨by decide, congrArg sha256Hex rfl⟩, by decide, congrArg sha256Hex ?_⟩
  exact leafContent_eq_iff.2 (by decide)

end Audit
end ProvableAi
