import Orvex.Audit.Appends

/-!
# Altered audit rows

The hash of a row covers its event type, its payload and the row before it.
It leaves out who acted and what the event refers to, and nothing outside
the rows says where a chain ends.
-/

namespace Orvex
namespace Audit

open ReadCommitted

/-- What is recorded of a row.  The order of keys in a JSON value is not
recorded. -/
structure Recorded where
  entity : Entity
  eventType : String
  actorType : String
  actorId : String
  agentId : Option String
  correlationId : Option String
  requestId : Option String
  payload : Json

def recorded (row : AuditEvent) : Recorded where
  entity := entityOf row
  eventType := row.eventType
  actorType := row.actorType
  actorId := row.actorId
  agentId := row.agentId
  correlationId := row.correlationId
  requestId := row.requestId
  payload := ordered row.payloadJson

/-- As many rows as before, ending with the hash that the chain ended with. -/
def EndsAlike (before after : List AuditEvent) : Prop :=
  after.length = before.length ∧
    (after.map AuditEvent.eventHash).getLastD genesis =
      (before.map AuditEvent.eventHash).getLastD genesis

/-- The parts of a row that its hash leaves out are as they were. -/
structure UnhashedKept (before after : AuditEvent) : Prop where
  actorType : before.actorType = after.actorType
  actorId : before.actorId = after.actorId
  agentId : before.agentId = after.agentId
  correlationId : before.correlationId = after.correlationId
  requestId : before.requestId = after.requestId
  payload : canonicalize before.payloadJson = canonicalize after.payloadJson →
    ordered before.payloadJson = ordered after.payloadJson

section

variable {rt : Runtime} {a b : AuditEvent}

/-- What a row records determines its hash, after the one before it. -/
theorem hash_of_recorded (hfree : rt.CollisionFree)
    (ha : (chain rt).Valid a) (hb : (chain rt).Valid b)
    (hprevious : a.previousEventHash = b.previousEventHash)
    (h : recorded a = recorded b) : a.eventHash = b.eventHash := by
  rw [hash_eq_iff hfree ha hb]
  simp only [recorded, entityOf, Recorded.mk.injEq, Entity.mk.injEq] at h
  obtain ⟨⟨hcompany, htype, hid⟩, hevent, _, _, _, _, _, hpayload⟩ := h
  simp only [hashedValues, List.map_cons, List.map_nil, hcompany, htype, hid,
    hevent, hprevious, canonicalize_eq_of_ordered hpayload]

theorem recorded_of_covered (hcovered : covered a = covered b)
    (hkept : UnhashedKept a b) : recorded a = recorded b := by
  simp only [covered, Prod.mk.injEq] at hcovered
  obtain ⟨hentity, hevent, hpayload⟩ := hcovered
  unfold recorded
  rw [hentity, hevent, hkept.actorType, hkept.actorId, hkept.agentId,
    hkept.correlationId, hkept.requestId, hkept.payload hpayload]

theorem unhashedKept_of_recorded (h : recorded a = recorded b) :
    UnhashedKept a b := by
  simp only [recorded, Recorded.mk.injEq] at h
  obtain ⟨_, _, htype, hactor, hagent, hcorrelation, hrequest, hpayload⟩ := h
  exact ⟨htype, hactor, hagent, hcorrelation, hrequest, fun _ => hpayload⟩

end

/-! ## Altering the stored rows -/

def altered (db : Database) (rows : List AuditEvent) : Database :=
  { db with auditEvents := rows }

/-- For every chain that verification accepts, as appends leave it, and every
alteration of the stored rows that it still accepts, the rows of the entity
record what was appended exactly if they end alike and keep what no hash
covers. -/
theorem altered_rows_recorded_iff {rt : Runtime} {order : ByCreatedAt}
    (hfree : rt.CollisionFree) {entity : Entity} {db : Database}
    (happended : verifyChain rt order entity db = true)
    {rows : List AuditEvent}
    (hverified : verifyChain rt order entity (altered db rows) = true) :
    (getEntityTimeline order entity (altered db rows)).map recorded =
      (getEntityTimeline order entity db).map recorded ↔
    EndsAlike (getEntityTimeline order entity db)
        (getEntityTimeline order entity (altered db rows)) ∧
      ∀ pair ∈ (getEntityTimeline order entity db).zip
          (getEntityTimeline order entity (altered db rows)),
        UnhashedKept pair.1 pair.2 := by
  have hlast : ∀ rows : List AuditEvent,
      (rows.map AuditEvent.eventHash).getLastD genesis =
        (chain rt).head genesis rows := by
    intro rows
    rw [HashChain.head_eq_getLastD]
    rfl
  unfold EndsAlike
  rw [hlast, hlast]
  exact HashChain.recorded_iff (fun a b ha hb => covered_of_hash hfree ha hb)
    (fun a b ha hb => hash_of_recorded hfree ha hb)
    (fun a b => recorded_of_covered) (fun a b => unhashedKept_of_recorded)
    (verifyFrom_iff.mp happended) (verifyFrom_iff.mp hverified)

/-! ## A chain that loses its end -/

theorem turnResult_timeline :
    getEntityTimeline sampleOrder sampleEntity turnResult =
      [turnRow .first, turnRow .second] := rfl

theorem turnResult_verified :
    verifyChain sampleRuntime sampleOrder sampleEntity turnResult = true := by
  unfold verifyChain
  rw [turnResult_timeline, verifyFrom_iff]
  exact ⟨rfl, rfl, rfl, rfl, trivial⟩

def lostRows : List AuditEvent := turnTables.auditEvents

theorem lostRows_timeline :
    getEntityTimeline sampleOrder sampleEntity
      (altered turnResult lostRows) = [turnRow .first] := rfl

/-- Without its last row the chain is still accepted. -/
theorem lost_row_accepted :
    ∃ middle final,
      turnMachine.run (Script.program Answer.lost) turnsBefore =
        some middle ∧
      middle.run (Script.program Answer.lost) turnsAfter = some final ∧
      verifyChain sampleRuntime sampleOrder sampleEntity final.committed =
        true ∧
      verifyChain sampleRuntime sampleOrder sampleEntity
        (altered final.committed lostRows) = true ∧
      (getEntityTimeline sampleOrder sampleEntity
          (altered final.committed lostRows)).map recorded ≠
        (getEntityTimeline sampleOrder sampleEntity final.committed).map
          recorded := by
  obtain ⟨middle, final, hbefore, hafter, _, hfinal⟩ := turns_sample.runs
  have hresult : final.committed = turnResult := hfinal
  refine ⟨middle, final, hbefore, hafter, ?_⟩
  rw [hresult]
  refine ⟨turnResult_verified, ?_, ?_⟩
  · unfold verifyChain
    rw [lostRows_timeline, verifyFrom_iff]
    exact ⟨rfl, rfl, trivial⟩
  · rw [lostRows_timeline, turnResult_timeline]
    intro heq
    have hlength := congrArg List.length heq
    simp at hlength

/-! ### Rows that are copied -/

/-- A copy of the row, stored later under another id. -/
def copied (row : AuditEvent) : AuditEvent :=
  { row with id := "copy-" ++ row.id, createdAt := row.createdAt + 500 }

/-- Copies in the other order. -/
def copiedRows : List AuditEvent :=
  (turnResult.auditEvents.map copied).reverse

theorem copiedRows_timeline :
    getEntityTimeline sampleOrder sampleEntity
        (altered turnResult copiedRows) =
      [copied (turnRow .first), copied (turnRow .second)] := rfl

theorem copiedRows_verified :
    verifyChain sampleRuntime sampleOrder sampleEntity
      (altered turnResult copiedRows) = true := by
  unfold verifyChain
  rw [copiedRows_timeline, verifyFrom_iff]
  exact ⟨rfl, rfl, rfl, rfl, trivial⟩

/-- Replaced by copies, the rows still record what was appended. -/
theorem sample_rows_recorded_iff :
    ∃ middle final,
      turnMachine.run (Script.program Answer.lost) turnsBefore =
        some middle ∧
      middle.run (Script.program Answer.lost) turnsAfter = some final ∧
      (getEntityTimeline sampleOrder sampleEntity
          (altered final.committed copiedRows)).map recorded =
        (getEntityTimeline sampleOrder sampleEntity final.committed).map
          recorded ∧
      ((getEntityTimeline sampleOrder sampleEntity
          (altered final.committed copiedRows)).map recorded =
        (getEntityTimeline sampleOrder sampleEntity final.committed).map
          recorded ↔
      EndsAlike (getEntityTimeline sampleOrder sampleEntity final.committed)
          (getEntityTimeline sampleOrder sampleEntity
            (altered final.committed copiedRows)) ∧
        ∀ pair ∈ (getEntityTimeline sampleOrder sampleEntity
            final.committed).zip (getEntityTimeline sampleOrder sampleEntity
              (altered final.committed copiedRows)),
          UnhashedKept pair.1 pair.2) := by
  obtain ⟨middle, final, hbefore, hafter, _, hfinal⟩ := turns_sample.runs
  have hresult : final.committed = turnResult := hfinal
  refine ⟨middle, final, hbefore, hafter, ?_⟩
  rw [hresult]
  refine ⟨?_, altered_rows_recorded_iff sampleRuntime_collisionFree
    turnResult_verified copiedRows_verified⟩
  rw [copiedRows_timeline, turnResult_timeline]
  rfl

end Audit
end Orvex
