import Orvex.Audit.Service
import Orvex.Concurrency.Guarantees
import Orvex.Concurrency.Undisturbed
import Orvex.Foundation.HashChain

/-!
# The chain of an entity

The rows of an entity are linear when they form a hash chain in the order of
the table and their times of creation increase along it.  An append that
acts on an up-to-date view, at a later time, keeps them linear.
-/

namespace Orvex
namespace Audit

open ReadCommitted

def chain (rt : Runtime) : HashChain AuditEvent String where
  previous := AuditEvent.previousEventHash
  hash := AuditEvent.eventHash
  Valid row := row.eventHash = computeHash rt (entityOf row) row.eventType
    row.payloadJson row.previousEventHash

theorem verifyFrom_iff {rt : Runtime} {last : String}
    {rows : List AuditEvent} :
    verifyFrom rt last rows = true ↔ (chain rt).Linked last rows := by
  induction rows generalizing last with
  | nil => simp [verifyFrom, HashChain.Linked]
  | cons row rest ih =>
      simp only [verifyFrom, Bool.and_eq_true, decide_eq_true_eq, ih,
        HashChain.Linked, chain, and_assoc]
      constructor
      · rintro ⟨hprevious, hhash, hrest⟩
        refine ⟨hprevious, ?_, hrest⟩
        rw [hprevious]
        exact hhash.symm
      · rintro ⟨hprevious, hvalid, hrest⟩
        refine ⟨hprevious, ?_, hrest⟩
        rw [← hprevious]
        exact hvalid.symm

/-- The digests are never the word that the genesis hash carries. -/
def DigestsDiffer (rt : Runtime) : Prop :=
  ∀ text, rt.sha256Hex text ≠ "audit-genesis"

theorem sha256Json_ne_genesis {rt : Runtime} (h : DigestsDiffer rt)
    (value : Json) : sha256Json rt value ≠ genesis := by
  intro heq
  refine h (canonicalText rt value) ?_
  have hlist := congrArg String.toList heq
  unfold sha256Json genesis at hlist
  have hsplit : "sha256:audit-genesis".toList =
      "sha256:".toList ++ "audit-genesis".toList := by decide
  rw [String.toList_append, hsplit] at hlist
  exact String.toList_inj.mp (List.append_cancel_left hlist)

/-! ## What a hash covers -/

/-- The parts of a row that its hash covers. -/
def covered (row : AuditEvent) : Entity × String × Json :=
  (entityOf row, row.eventType, canonicalize row.payloadJson)

section

variable {rt : Runtime} {a b : AuditEvent}

def hashedKeys : List String :=
  ["companyId", "entityType", "entityId", "eventType", "payload",
    "previousEventHash"]

def hashedValues (row : AuditEvent) : List Json :=
  [.string row.companyId, .string row.entityType, .string row.entityId,
    .string row.eventType, row.payloadJson, .string row.previousEventHash]

/-- The hashes of two rows agree exactly where the values that they cover
do. -/
theorem hash_eq_iff (hfree : rt.CollisionFree) (ha : (chain rt).Valid a)
    (hb : (chain rt).Valid b) :
    a.eventHash = b.eventHash ↔
      (hashedValues a).map canonicalize =
        (hashedValues b).map canonicalize := by
  have hhash : ∀ row, (chain rt).Valid row →
      row.eventHash = sha256Json rt
        (.object (hashedKeys.zip (hashedValues row))) :=
    fun row hvalid => hvalid
  rw [hhash a ha, hhash b hb]
  exact sha256Json_zip_iff hfree (by decide) (by decide) rfl rfl

theorem covered_of_hash (hfree : rt.CollisionFree)
    (ha : (chain rt).Valid a) (hb : (chain rt).Valid b)
    (h : a.eventHash = b.eventHash) :
    a.previousEventHash = b.previousEventHash ∧ covered a = covered b := by
  rw [hash_eq_iff hfree ha hb] at h
  simp only [hashedValues, List.map_cons, List.map_nil, List.cons.injEq,
    and_true] at h
  simp only [canonicalize, JsonText.Value.string.injEq] at h
  obtain ⟨hcompany, htype, hid, hevent, hpayload, hprevious⟩ := h
  refine ⟨hprevious, ?_⟩
  unfold covered entityOf
  rw [hcompany, htype, hid, hevent, hpayload]

end

/-! ## Linear rows -/

structure Linear (rt : Runtime) (rows : List AuditEvent) : Prop where
  linked : (chain rt).Linked genesis rows
  increasing : rows.Pairwise (fun a b => a.createdAt < b.createdAt)
  hashes : (rows.map AuditEvent.eventHash).Nodup

section

variable {rt : Runtime} {order : ByCreatedAt} {rows : List AuditEvent}

theorem linear_nil : Linear rt [] :=
  ⟨trivial, List.Pairwise.nil, List.nodup_nil⟩

theorem Linear.eq_of_createdAt (h : Linear rt rows) {a b : AuditEvent}
    (ha : a ∈ rows) (hb : b ∈ rows) (htime : a.createdAt = b.createdAt) :
    a = b := by
  have hnodup : (rows.map AuditEvent.createdAt).Nodup := by
    unfold List.Nodup
    rw [List.pairwise_map]
    exact h.increasing.imp (fun hlt => hlt.ne)
  exact List.inj_on_of_nodup_map hnodup ha hb htime

/-- Rows whose times increase have one order only. -/
theorem Linear.timeline_eq (h : Linear rt rows) (hsorts : order.Sorts) :
    order.timeline rows = rows := by
  have hle : rows.Pairwise (fun a b => a.createdAt ≤ b.createdAt) :=
    h.increasing.imp (fun hlt => hlt.le)
  have hperm := hsorts.timeline_perm rows
  refine hperm.eq_of_pairwise ?_ (hsorts.timeline_sorted rows) hle
  intro a b ha hb hab hba
  exact h.eq_of_createdAt (hperm.subset ha) hb (le_antisymm hab hba)

/-- The latest row is the last one. -/
theorem Linear.latest_eq (h : Linear rt rows) (hsorts : order.Sorts) :
    order.latest rows = rows.getLast? := by
  cases hlatest : order.latest rows with
  | none => rw [hsorts.latest_none rows hlatest, List.getLast?_nil]
  | some row =>
      have hmem := hsorts.latest_mem rows row hlatest
      have hmax := hsorts.latest_max rows row hlatest
      rcases List.eq_nil_or_concat rows with hnil | ⟨front, last, hrows⟩
      · rw [hnil] at hmem
        exact absurd hmem List.not_mem_nil
      · rw [List.concat_eq_append] at hrows
        subst hrows
        rw [List.getLast?_concat, Option.some.injEq]
        have hlast : last ∈ front ++ [last] :=
          List.mem_append_right _ (List.mem_singleton_self last)
        rcases List.mem_append.mp hmem with hfront | heq
        · have hlt := (List.pairwise_append.mp h.increasing).2.2 row hfront
            last (List.mem_singleton_self last)
          exact absurd (hmax last hlast) (not_le.mpr hlt)
        · exact List.mem_singleton.mp heq

theorem Linear.verified {entity : Entity} {db : Database}
    (h : Linear rt (entityRows entity db)) (hsorts : order.Sorts) :
    verifyChain rt order entity db = true := by
  unfold verifyChain getEntityTimeline
  rw [verifyFrom_iff, h.timeline_eq hsorts]
  exact h.linked

theorem Linear.previousHash_eq {entity : Entity} {db : Database}
    (h : Linear rt (entityRows entity db)) (hsorts : order.Sorts) :
    previousHash order entity db =
      (chain rt).head genesis (entityRows entity db) := by
  unfold previousHash
  rw [h.latest_eq hsorts, HashChain.head_eq_getLastD,
    List.getLastD_eq_getLast?, List.getLast?_map]
  cases (entityRows entity db).getLast? <;> rfl

/-- No two rows follow the same row. -/
theorem Linear.previous_nodup (h : Linear rt rows)
    (hdigests : DigestsDiffer rt) :
    (rows.map AuditEvent.previousEventHash).Nodup := by
  have hprevious : rows.map AuditEvent.previousEventHash =
      (genesis :: rows.map AuditEvent.eventHash).take rows.length :=
    h.linked.previous_eq
  have hgenesis : genesis ∉ rows.map AuditEvent.eventHash := by
    intro hmem
    obtain ⟨row, hrow, heq⟩ := List.mem_map.mp hmem
    have hvalid : row.eventHash = computeHash rt (entityOf row)
        row.eventType row.payloadJson row.previousEventHash :=
      h.linked.valid row hrow
    rw [hvalid] at heq
    exact sha256Json_ne_genesis hdigests _ heq
  rw [hprevious]
  apply List.Nodup.sublist (List.take_sublist _ _)
  rw [List.nodup_cons]
  exact ⟨hgenesis, h.hashes⟩

/-- A later row that follows the last one keeps the rows linear. -/
theorem Linear.append (h : Linear rt rows) {row : AuditEvent}
    (hprevious : row.previousEventHash = (chain rt).head genesis rows)
    (hvalid : (chain rt).Valid row)
    (hlater : ∀ other ∈ rows, other.createdAt < row.createdAt)
    (hnew : row.eventHash ∉ rows.map AuditEvent.eventHash) :
    Linear rt (rows ++ [row]) := by
  constructor
  · rw [HashChain.linked_append_singleton]
    exact ⟨h.linked, hprevious, hvalid⟩
  · rw [List.pairwise_append]
    refine ⟨h.increasing, List.pairwise_singleton _ _, ?_⟩
    intro other hother added hadded
    rw [List.mem_singleton.mp hadded]
    exact hlater other hother
  · rw [List.map_append, List.nodup_append]
    refine ⟨h.hashes, List.nodup_singleton _, ?_⟩
    intro hash hhash added hadded heq
    rw [List.map_singleton, List.mem_singleton] at hadded
    exact hnew (hadded ▸ heq ▸ hhash)

end

end Audit
end Orvex
