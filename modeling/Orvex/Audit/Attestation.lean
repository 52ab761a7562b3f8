import Orvex.Concurrency.Awaits
import Orvex.Foundation.KeyedTable

/-!
# Attestations

An attestation record is created pending, its payload is submitted to an
adapter, and the outcome is written when it comes.  A retry reads the record,
submits the payload that it was given and writes the outcome too.  The calls
run side by side, each waiting for its adapter.
-/

namespace Orvex
namespace Attestation

open Awaits

structure AttestationPayload where
  companyId : String
  agentId : String
  executionRequestId : String
  decisionId : String
  traceMerkleRoot : String
  policyHash : String
  decision : String
  transactionHash : Option String
  deriving DecidableEq

inductive AttestationStatus where
  | pending | submitted | confirmed | failed
  deriving DecidableEq

structure AttestationRecord where
  id : String
  companyId : String
  agentId : String
  executionRequestId : String
  decisionId : String
  traceMerkleRoot : String
  policyHash : String
  decision : String
  transactionHash : Option String
  status : AttestationStatus
  registryTxHash : Option String
  confirmedAt : Option ℤ
  deriving DecidableEq

inductive AdapterOutcome where
  | submitted (registryTxHash : String)
  | confirmed (registryTxHash : String)
  | failed (error : String)
  deriving DecidableEq

inductive AttestationCall where
  | attest (payload : AttestationPayload)
  | retry (companyId attestationId : String) (payload : AttestationPayload)

/-- Where a call waits. -/
inductive AttestationPoint where
  /-- The payload was submitted under the record with this identifier. -/
  | submitting (id : String) (payload : AttestationPayload)
  | returned (record : AttestationRecord)
  | thrown

inductive AttestationAnswer where
  /-- The first statement is carried out; a row that it creates gets this
  identifier. -/
  | row (id : String)
  /-- The outcome of the adapter, which is written at this time. -/
  | outcome (outcome : AdapterOutcome) (now : ℤ)
  /-- The adapter or the database raises. -/
  | raised

abbrev Records := List AttestationRecord

abbrev AttestationPool :=
  Pool Records AttestationCall AttestationPoint AttestationAnswer

def lookup (id : String) (records : Records) : Option AttestationRecord :=
  KeyedTable.lookup AttestationRecord.id id records

def pendingRecord (id : String) (payload : AttestationPayload) :
    AttestationRecord where
  id := id
  companyId := payload.companyId
  agentId := payload.agentId
  executionRequestId := payload.executionRequestId
  decisionId := payload.decisionId
  traceMerkleRoot := payload.traceMerkleRoot
  policyHash := payload.policyHash
  decision := payload.decision
  transactionHash := payload.transactionHash
  status := .pending
  registryTxHash := none
  confirmedAt := none

/-- What `attest` writes when the outcome comes. -/
def attestOutcome (outcome : AdapterOutcome) (now : ℤ)
    (record : AttestationRecord) : AttestationRecord :=
  match outcome with
  | .failed _ => { record with status := .failed }
  | .submitted hash =>
      { record with
        status := .submitted
        registryTxHash := some hash
        confirmedAt := none }
  | .confirmed hash =>
      { record with
        status := .confirmed
        registryTxHash := some hash
        confirmedAt := some now }

/-- What `retry` writes when the outcome comes. -/
def retryOutcome (outcome : AdapterOutcome) (now : ℤ)
    (record : AttestationRecord) : AttestationRecord :=
  match outcome with
  | .failed _ => { record with status := .failed }
  | .submitted hash =>
      { record with
        status := .submitted
        registryTxHash := some hash
        confirmedAt := some now }
  | .confirmed hash =>
      { record with
        status := .confirmed
        registryTxHash := some hash
        confirmedAt := some now }

def AttestationCall.write : AttestationCall → AdapterOutcome → ℤ →
    AttestationRecord → AttestationRecord
  | .attest _ => attestOutcome
  | .retry _ _ _ => retryOutcome

/-- `findFirst({ where: { id, companyId } })`. -/
def findRecord (companyId id : String) (records : Records) :
    Option AttestationRecord :=
  records.find? (fun record =>
    decide (record.id = id ∧ record.companyId = companyId))

def enter : AttestationCall → AttestationAnswer → Records →
    Records × AttestationPoint
  | .attest payload, .row id, records =>
      match lookup id records with
      | none => (records ++ [pendingRecord id payload], .submitting id payload)
      | some _ => (records, .thrown)
  | .retry companyId attestationId payload, .row _, records =>
      match findRecord companyId attestationId records with
      | none => (records, .thrown)
      | some record =>
          if record.status = .confirmed then (records, .returned record)
          else (records, .submitting record.id payload)
  | _, _, records => (records, .thrown)

/-- The update of a record by its identifier. -/
def update (id : String) (change : AttestationRecord → AttestationRecord)
    (records : Records) : Records × AttestationPoint :=
  match lookup id records with
  | none => (records, .thrown)
  | some record =>
      (KeyedTable.modify AttestationRecord.id id change records,
        .returned (change record))

def resume (call : AttestationCall) :
    AttestationPoint → AttestationAnswer → Records →
      Option (Records × AttestationPoint)
  | .submitting id _, .outcome outcome now, records =>
      some (update id (call.write outcome now) records)
  | .submitting _ _, .raised, records => some (records, .thrown)
  | _, _, _ => none

/-- The calls on attestations. -/
def service :
    Program Records AttestationCall AttestationPoint AttestationAnswer :=
  ⟨enter, resume⟩

/-- No record exists, and no call was made. -/
def noRecords : AttestationPool := ⟨[], []⟩

/-! ## What records say -/

/-- What the record commits to. -/
def AttestationRecord.commitment (record : AttestationRecord) :
    AttestationPayload where
  companyId := record.companyId
  agentId := record.agentId
  executionRequestId := record.executionRequestId
  decisionId := record.decisionId
  traceMerkleRoot := record.traceMerkleRoot
  policyHash := record.policyHash
  decision := record.decision
  transactionHash := record.transactionHash

@[simp] theorem commitment_pendingRecord (id : String)
    (payload : AttestationPayload) :
    (pendingRecord id payload).commitment = payload := rfl

@[simp] theorem write_id (call : AttestationCall) (outcome : AdapterOutcome)
    (now : ℤ) (record : AttestationRecord) :
    (call.write outcome now record).id = record.id := by
  cases call with
  | attest payload => cases outcome <;> rfl
  | retry companyId id payload => cases outcome <;> rfl

@[simp] theorem commitment_write (call : AttestationCall)
    (outcome : AdapterOutcome) (now : ℤ) (record : AttestationRecord) :
    (call.write outcome now record).commitment = record.commitment := by
  cases call with
  | attest payload => cases outcome <;> rfl
  | retry companyId id payload => cases outcome <;> rfl

/-- `confirmedAt` is set exactly on a confirmed record. -/
def Dated (record : AttestationRecord) : Prop :=
  record.confirmedAt.isSome = true ↔ record.status = .confirmed

/-- What a task has submitted. -/
def AttestationPoint.submission :
    AttestationPoint → Option (String × AttestationPayload)
  | .submitting id payload => some (id, payload)
  | _ => none

def submissions
    (task : Task AttestationCall AttestationPoint AttestationAnswer) :
    List (String × AttestationPayload) :=
  (task.point :: task.past.map Prod.fst).filterMap
    AttestationPoint.submission

/-- In every state that the run reaches, each submission gave the commitment
of its record, a confirmed record is as it was when it was confirmed, and
`confirmedAt` is set exactly on the confirmed records. -/
structure Truthful
    (moves : List (Move AttestationCall AttestationAnswer)) : Prop where
  submitted : ∀ before after, moves = before ++ after →
    ∀ pool, service.run noRecords before = some pool →
      ∀ task ∈ pool.tasks, ∀ submission ∈ submissions task,
        ∃ record ∈ pool.shared, record.id = submission.1 ∧
          record.commitment = submission.2
  confirmed : ∀ before between after, moves = before ++ between ++ after →
    ∀ pool pool', service.run noRecords before = some pool →
      service.run pool between = some pool' →
        ∀ record ∈ pool.shared, record.status = .confirmed →
          record ∈ pool'.shared
  dated : ∀ before after, moves = before ++ after →
    ∀ pool, service.run noRecords before = some pool →
      ∀ record ∈ pool.shared, Dated record

/-- The outcome leaves a record as it is where it is confirmed, and it is not
`SUBMITTED` for a retry. -/
def Fits (call : AttestationCall) (outcome : AdapterOutcome) (now : ℤ)
    (record : AttestationRecord) : Prop :=
  (record.status = .confirmed → ∃ hash, outcome = .confirmed hash ∧
    record.registryTxHash = some hash ∧ record.confirmedAt = some now) ∧
  ∀ companyId id payload hash, call = .retry companyId id payload →
    outcome ≠ .submitted hash

/-- A retry of a record that is not confirmed gives its commitment, and an
outcome fits the record that it is written to. -/
def Careful (pool : AttestationPool) :
    Move AttestationCall AttestationAnswer → Prop
  | .start (.retry companyId attestationId payload) (.row _) =>
      ∀ record ∈ findRecord companyId attestationId pool.shared,
        record.status ≠ .confirmed → record.commitment = payload
  | .resume index (.outcome outcome now) =>
      ∀ task ∈ pool.tasks[index]?, ∀ id payload,
        task.point = .submitting id payload →
          ∀ record ∈ lookup id pool.shared, Fits task.call outcome now record
  | _ => True

end Attestation
end Orvex
