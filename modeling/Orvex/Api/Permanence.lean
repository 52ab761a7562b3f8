import Orvex.Api.Footprints
import Orvex.Gate.History

/-!
# Nothing that was recorded is lost

Every write route adds rows under new keys and changes the columns that are
meant to change: a status, a total, a time stamp or a pointer to what is
active.  So the rows of every table stay, in their order, and what identifies
them is never rewritten, whatever the calls are.
-/

namespace Orvex

open KeyedTable (Grows)
open Fallible (Keeps keeps_pure keeps_query keeps_fail keeps_ofOption
  keeps_change)

/-- The writes of the routes keep the property; those of a revalidation are
left out. -/
structure RecordsKept (inv : Database → Prop) : Prop where
  agents : agentTable.Kept Agent.identity inv
  constitutions : constitutionTable.Kept Constitution.identity inv
  policies : policyTable.Kept Policy.identity inv
  policyVersions : policyVersionTable.Kept PolicyVersion.identity inv
  policyRules : policyRuleTable.Kept id inv
  accounts : accountTable.Blind FinancialAccount.identity inv
  reservations : reservationTable.Blind FinancialReservation.identity inv
  decisions : decisionTable.Kept id inv
  approvalRequests :
    approvalRequestTable.Kept ApprovalRequest.identity inv
  approvalResults : approvalResultTable.Kept id inv
  executionRequests :
    executionRequestTable.Blind ExecutionRequestRecord.identity inv
  executionResults : executionResultTable.Kept id inv
  receiptVerifications : receiptVerificationTable.Kept id inv
  intents : intentTable.Kept id inv
  proposals : proposalTable.Kept id inv
  assessments : securityAssessmentTable.Kept id inv

/-- The rows of the ledger and of its executions. -/
def ledgerRows (db : Database) :=
  (db.financialAccounts, db.financialReservations, db.idempotencyRecords,
    db.executionRequests)

/-- A property of the ledger only has to be blind to its changes. -/
theorem RecordsKept.of_ledger
    {p : List FinancialAccount × List FinancialReservation ×
      List IdempotencyRecord × List ExecutionRequestRecord → Prop}
    (accounts : accountTable.Blind FinancialAccount.identity
      (fun db => p (ledgerRows db)))
    (reservations : reservationTable.Blind FinancialReservation.identity
      (fun db => p (ledgerRows db)))
    (requests : executionRequestTable.Blind ExecutionRequestRecord.identity
      (fun db => p (ledgerRows db))) :
    RecordsKept (fun db => p (ledgerRows db)) where
  agents := Table.kept_of_apart (fun _ _ h => h)
  constitutions := Table.kept_of_apart (fun _ _ h => h)
  policies := Table.kept_of_apart (fun _ _ h => h)
  policyVersions := Table.kept_of_apart (fun _ _ h => h)
  policyRules := Table.kept_of_apart (fun _ _ h => h)
  accounts := accounts
  reservations := reservations
  decisions := Table.kept_of_apart (fun _ _ h => h)
  approvalRequests := Table.kept_of_apart (fun _ _ h => h)
  approvalResults := Table.kept_of_apart (fun _ _ h => h)
  executionRequests := requests
  executionResults := Table.kept_of_apart (fun _ _ h => h)
  receiptVerifications := Table.kept_of_apart (fun _ _ h => h)
  intents := Table.kept_of_apart (fun _ _ h => h)
  proposals := Table.kept_of_apart (fun _ _ h => h)
  assessments := Table.kept_of_apart (fun _ _ h => h)

section

variable {inv : Database → Prop} (h : RecordsKept inv)

include h

/-! ## Agents and constitutions -/

theorem Agents.records_createAgent (input : CreateAgentInput)
    (uuid : String) : Keeps inv (createAgent input uuid) := by
  unfold createAgent
  simp only
  split
  · exact keeps_fail _
  · refine Keeps.bind (keeps_query _) (fun known => ?_)
    split
    · refine (h.agents.create _ _ _).attempt.bind (fun created => ?_)
      cases created with
      | ok agent => exact keeps_pure _
      | error failure => exact keeps_fail _
    · exact keeps_fail _

theorem Agents.records_transition (companyId agentId : String)
    (status : AgentStatus) :
    Keeps inv (transition companyId agentId status) :=
  Keeps.bind (keeps_reading _)
    (fun _ => h.agents.blind.update (fun _ => by rfl) _ _)

theorem Constitutions.records_createConstitution (rt : Runtime)
    (input : CreateConstitutionInput) (uuid : String) :
    Keeps inv (createConstitution rt input uuid) := by
  refine Keeps.bind (keeps_reading _) (fun _ => ?_)
  refine Keeps.bind (keeps_query _) (fun agent => ?_)
  cases agent with
  | none => exact keeps_fail _
  | some row =>
      refine Keeps.bind (keeps_query _) (fun latest => ?_)
      exact Keeps.bind (keeps_ofOption _ _)
        (fun _ => h.constitutions.create _ _ _)

theorem Constitutions.records_activateConstitution
    (companyId constitutionId : String) (now : ℤ) :
    Keeps inv (activateConstitution companyId constitutionId now) := by
  refine Keeps.transaction ?_
  refine Keeps.bind (keeps_query _) (fun found => ?_)
  cases found with
  | none => exact keeps_fail _
  | some target =>
      simp only
      split
      · exact keeps_fail _
      · refine (h.constitutions.blind.updateMany (fun _ => by rfl) _).bind
          (fun _ => ?_)
        refine (h.constitutions.blind.update (fun _ => by rfl) _ _).bind
          (fun activated => ?_)
        exact (h.agents.blind.update (fun _ => by rfl) _ _).bind
          (fun _ => keeps_pure _)

/-! ## Intake -/

theorem Intake.records_createIntent (rt : Runtime) (companyId : String)
    (intent : Intent) (uuid : String) :
    Keeps inv (createIntent rt companyId intent uuid) := by
  refine Keeps.bind (keeps_query _) (fun agent => ?_)
  cases agent with
  | none => exact keeps_fail _
  | some row =>
      refine Keeps.bind (keeps_ofOption _ _) (fun validFrom => ?_)
      refine Keeps.bind (keeps_ofOption _ _) (fun validUntil => ?_)
      exact h.intents.create _ _ _

theorem Intake.records_createProposal (companyId : String)
    (proposal : ActionProposal) (uuid : String) :
    Keeps inv (createProposal companyId proposal uuid) := by
  refine Keeps.bind (keeps_query _) (fun found => ?_)
  cases found with
  | none => exact keeps_fail _
  | some intent =>
      simp only
      split
      · exact keeps_fail _
      · exact h.proposals.create _ _ _

theorem Intake.records_ingestAssessment (rt : Runtime)
    (companyId proposalId : String) (assessment : SecurityAssessment)
    (uuid : String) :
    Keeps inv (ingestAssessment rt companyId proposalId assessment uuid) := by
  refine Keeps.bind (keeps_query _) (fun found => ?_)
  cases found with
  | none => exact keeps_fail _
  | some proposal => exact h.assessments.create _ _ _

/-! ## Policies -/

theorem Policies.records_createRules (versionId : String)
    (uuid : ℕ → String) (rules : List CompiledRule) :
    Keeps inv (createRules versionId uuid rules) := by
  induction rules generalizing uuid with
  | nil => exact keeps_pure _
  | cons rule rest ih =>
      have hrule : Keeps inv (createRule versionId (uuid 0) rule) :=
        Keeps.bind (keeps_ofOption _ _)
          (fun priority => h.policyRules.create _ _ _)
      exact hrule.bind (fun _ => ih _)

theorem Policies.records_createDraft (rt : Runtime) (input : CreateDraftInput)
    (ids : DraftIds) : Keeps inv (createDraft rt input ids) := by
  have hpolicy : ∀ name, Keeps inv
      (findOrCreatePolicy input name ids.policy) := by
    intro name
    refine Keeps.bind (keeps_query _) (fun found => ?_)
    cases found with
    | some policy => exact keeps_pure _
    | none => exact h.policies.create _ _ _
  have hversion : ∀ policyId rules, Keeps inv
      (createVersion rt input policyId ids.version rules) := by
    intro policyId rules
    exact Keeps.bind (keeps_query _)
      (fun latest => h.policyVersions.create _ _ _)
  unfold createDraft
  simp only
  split
  · exact keeps_fail _
  · refine Keeps.bind (keeps_reading _) (fun _ => ?_)
    refine Keeps.bind (keeps_query _) (fun known => ?_)
    split
    · refine Keeps.transaction ?_
      refine (hpolicy _).bind (fun policy => ?_)
      refine Keeps.bind (keeps_ofOption _ _) (fun rules => ?_)
      refine (hversion policy.id rules).bind (fun version => ?_)
      exact (Policies.records_createRules h _ _ _).bind
        (fun _ => keeps_pure _)
    · exact keeps_fail _

theorem Policies.records_transition (companyId policyVersionId : String)
    (target : PolicyVersionStatus) :
    Keeps inv (transition companyId policyVersionId target) := by
  refine Keeps.bind (keeps_reading _) (fun current => ?_)
  refine Keeps.bind (keeps_reading _) (fun _ => ?_)
  exact h.policyVersions.blind.update (fun _ => by rfl) _ _

theorem Policies.records_approve (companyId policyVersionId : String)
    (approvedBy : Option String) :
    Keeps inv (approve companyId policyVersionId approvedBy) := by
  refine Keeps.transaction ?_
  refine Keeps.bind (keeps_reading _) (fun current => ?_)
  refine Keeps.bind (keeps_reading _) (fun _ => ?_)
  exact h.policyVersions.blind.update (fun _ => by rfl) _ _

theorem Policies.records_activate (companyId policyVersionId : String)
    (now : ℤ) : Keeps inv (activate companyId policyVersionId now) := by
  refine Keeps.transaction ?_
  refine Keeps.bind (keeps_reading _) (fun target => ?_)
  refine Keeps.bind (keeps_reading _) (fun _ => ?_)
  refine (h.policyVersions.blind.updateMany (fun _ => by rfl) _).bind
    (fun _ => ?_)
  refine (h.policyVersions.blind.update (fun _ => by rfl) _ _).bind
    (fun activated => ?_)
  exact (h.policies.blind.update (fun _ => by rfl) _ _).bind
    (fun _ => keeps_pure _)

/-! ## Approvals -/

theorem Approvals.records_createRequest (input : CreateApprovalInput)
    (uuid : String) : Keeps inv (createRequest input uuid) := by
  refine Keeps.bind (keeps_query _) (fun decision => ?_)
  cases decision with
  | none => exact keeps_fail _
  | some row => exact h.approvalRequests.create _ _ _

theorem Approvals.records_loadPending (companyId approvalId : String)
    (now : ℤ) : Keeps inv (loadPending companyId approvalId now) := by
  refine Keeps.bind (keeps_query _) (fun found => ?_)
  cases found with
  | none => exact keeps_fail _
  | some request =>
      simp only
      split
      · exact keeps_fail _
      · split
        · exact (h.approvalRequests.blind.update (fun _ => by rfl) _ _).bind
            (fun _ => keeps_fail _)
        · exact keeps_pure _

theorem Approvals.records_approve (companyId approvalId : String)
    (approver : Approver) (contextHash : String) (now : ℤ)
    (uuid : String) :
    Keeps inv
      (approve companyId approvalId approver contextHash now uuid) := by
  refine Keeps.transaction ?_
  refine (Approvals.records_loadPending h _ _ _).bind (fun request => ?_)
  cases approverRefusal request approver with
  | some refusal => exact keeps_fail _
  | none =>
      simp only
      split
      · exact keeps_fail _
      · refine (h.approvalRequests.blind.update (fun _ => by rfl) _ _).bind
          (fun updated => ?_)
        exact (h.approvalResults.create _ _ _).bind (fun _ => keeps_pure _)

theorem Approvals.records_deny (companyId approvalId : String)
    (approver : Approver) (now : ℤ) (uuid : String) :
    Keeps inv (deny companyId approvalId approver now uuid) := by
  refine Keeps.transaction ?_
  refine (Approvals.records_loadPending h _ _ _).bind (fun request => ?_)
  cases approverRefusal request approver with
  | some refusal => exact keeps_fail _
  | none =>
      refine (h.approvalRequests.blind.update (fun _ => by rfl) _ _).bind
        (fun updated => ?_)
      exact (h.approvalResults.create _ _ _).bind (fun _ => keeps_pure _)

/-! ## The ledger -/

theorem Financial.records_writeReservation (id : String)
    {change : FinancialReservation → FinancialReservation}
    (hsame : ∀ res, (change res).identity = res.identity) :
    Keeps inv (writeReservation id change) := by
  refine Keeps.bind (keeps_query _) (fun found => ?_)
  cases found with
  | none => exact keeps_fail _
  | some res =>
      have hwrite : Keeps inv (Fallible.change (updateReservation id change) :
          Service Unit) :=
        keeps_change (fun _ hdb => h.reservations.modify hsame id hdb)
      exact hwrite.bind (fun _ => keeps_pure _)

theorem Financial.records_updateAccount (id : String)
    {change : FinancialAccount → FinancialAccount}
    (hchange : TotalsOnly change) :
    Keeps inv (Fallible.change (updateAccount id change) : Service Unit) :=
  keeps_change (fun _ hdb =>
    h.accounts.modify (totalsOnly_identity hchange) id hdb)

omit h in
theorem Financial.settle_identity (kind : Completion) (now : ℤ)
    (res : FinancialReservation) :
    (kind.settle now res).identity = res.identity := by
  cases kind <;> rfl

theorem Financial.records_completion (rt : Runtime) (kind : Completion)
    (companyId reservationId : String) (now : ℤ) :
    Keeps inv (kind.run rt companyId reservationId now) := by
  refine Keeps.transaction ?_
  refine Keeps.bind (keeps_query _) (fun found => ?_)
  cases found with
  | none => exact keeps_fail _
  | some res =>
      simp only
      split
      · exact keeps_pure _
      · cases kind.refusal reservationId res.status with
        | some refusal => exact keeps_fail _
        | none =>
            refine Keeps.bind (keeps_query _) (fun account => ?_)
            cases account with
            | none => exact keeps_fail _
            | some row =>
                refine Fallible.keeps_ofOption_bind
                  (fun change hchange => ?_)
                refine (Financial.records_updateAccount h _
                  (totalsOnly_accountChange hchange)).bind (fun _ => ?_)
                exact Financial.records_writeReservation h _
                  (settle_identity kind now)

theorem Financial.records_markUnknown (companyId reservationId : String) :
    Keeps inv (markUnknown companyId reservationId) := by
  refine Keeps.bind (keeps_query _) (fun found => ?_)
  cases found with
  | none => exact keeps_fail _
  | some res =>
      simp only
      cases unknownRefusal reservationId res.status with
      | some refusal => exact keeps_fail _
      | none =>
          exact Financial.records_writeReservation h _ (fun _ => by rfl)

/-! ## Executions -/

theorem ExecutionResults.records_setStatus (id : String)
    (status : ExecutionRequestStatus) : Keeps inv (setStatus id status) :=
  h.executionRequests.update (fun _ => by rfl) _ _

theorem ExecutionResults.records_ingestResult (rt : Runtime)
    (companyId : String) (input : ExecutionResultInput) (now : ℤ)
    (uuid : String) :
    Keeps inv (ingestResult rt companyId input now uuid) := by
  refine keeps_ingestResult (records_setStatus h) (fun requestId => ?_) ?_ ?_
  · refine Keeps.bind (keeps_ofOption _ _) (fun _ => ?_)
    refine Keeps.bind (keeps_ofOption _ _) (fun _ => ?_)
    exact h.executionResults.create _ _ _
  · exact fun id => Financial.records_markUnknown h companyId id
  · exact fun _ id => Financial.records_completion h rt .release companyId id
      now

theorem ExecutionResults.records_reconcile (rt : Runtime)
    (client : ExecutionClient) (companyId executionId : String) (now : ℤ) :
    Keeps inv (reconcile rt client companyId executionId now) :=
  keeps_reconcile (records_setStatus h) (fun _ id =>
    Financial.records_completion h rt .reconcileRelease companyId id now)

theorem ExecutionResults.records_verifyAndFinalize (rt : Runtime)
    (client : ExecutionClient) (companyId executionId : String)
    (authorized : AuthorizedReceipt) (now : ℤ) (uuid : String) :
    Keeps inv (verifyAndFinalize rt client companyId executionId authorized
      now uuid) :=
  keeps_verifyAndFinalize
    (fun _ _ => h.receiptVerifications.create _ _ _)
    (fun id => Financial.records_completion h rt .commit companyId id now)

/-! ## Routes -/

namespace Api

theorem records_statusTransition (companyId agentId status : String) :
    Keeps inv (statusTransition companyId agentId status) := by
  unfold statusTransition
  have htransition := Agents.records_transition h companyId agentId
  split
  · exact htransition .active
  · split
    · exact htransition .paused
    · split
      · exact htransition .suspended
      · split
        · exact htransition .disabled
        · exact keeps_fail _

theorem records_patchAgent (auth : AuthContext) (agentId : String)
    (status : Option String) : Keeps inv (patchAgent auth agentId status) := by
  refine (keeps_requireRole auth _).bind (fun _ => ?_)
  refine Keeps.bind (keeps_reading _) (fun _ => ?_)
  split
  · exact (records_statusTransition h _ _ _).bind (fun _ => keeps_reading _)
  · exact keeps_reading _

theorem records_repointAgent (companyId policyId : String) :
    Keeps inv (repointAgent companyId policyId) := by
  refine Keeps.bind (keeps_query _) (fun found => ?_)
  cases found with
  | none => exact keeps_pure _
  | some policy =>
      simp only
      split
      · exact (h.agents.blind.update (fun _ => by rfl) _ _).bind
          (fun _ => keeps_pure _)
      · exact keeps_pure _

theorem records_postPolicyValidate (auth : AuthContext)
    (policyVersionId : String) :
    Keeps inv (postPolicyValidate auth policyVersionId) := by
  refine (keeps_requireRole auth _).bind (fun _ => ?_)
  refine (Policies.records_transition h _ _ _).bind (fun _ => ?_)
  refine (Policies.records_transition h _ _ _).bind (fun _ => ?_)
  exact Policies.records_approve h _ _ _

theorem records_postPolicyActivate (auth : AuthContext)
    (policyId policyVersionId : String) (now : ℤ) :
    Keeps inv (postPolicyActivate auth policyId policyVersionId now) := by
  refine (keeps_requireRole auth _).bind (fun _ => ?_)
  refine (Policies.records_activate h _ _ _).bind (fun activated => ?_)
  exact (records_repointAgent h _ _).bind (fun _ => keeps_pure _)

omit h in
/-- A prepare call leaves the state as it was, or as its revalidation leaves
it. -/
theorem postPrepare_state (rt : Runtime) (auth : AuthContext)
    (body : PrepareBody) (now : ℤ) (ids : Revalidation.MintIds)
    (db : Database) :
    (postPrepare rt auth body now ids db).2 = db ∨
      (postPrepare rt auth body now ids db).2 =
        (Revalidation.revalidate rt (revalidateInput auth body) now ids
          db).2 := by
  unfold postPrepare requireRole
  split
  · cases hrun : Revalidation.revalidate rt (revalidateInput auth body) now
        ids db with
    | mk result db' =>
        right
        rw [Fallible.pure_bind_apply]
        cases result with
        | error failure => rw [Fallible.bind_of_error hrun]
        | ok outcome =>
            rw [Fallible.bind_of_ok hrun]
            split
            · rfl
            · rfl
  · exact Or.inl rfl

/-- What the writes of the records and a revalidation keep, a call keeps. -/
theorem Call.step_keeps {rt : Runtime} {call : Call} {db : Database}
    (hrevalidate : ∀ body ids, call.operation = .prepare body ids →
      inv (Revalidation.revalidate rt (revalidateInput call.auth body)
        call.now ids db).2)
    (hdb : inv db) : inv (call.step rt db) := by
  have hrole := @keeps_requireRole inv call.auth
  unfold Call.step Call.perform
  cases hoperation : call.operation with
  | createAgent body uuid =>
      exact keeps_discard ((hrole _).bind
        (fun _ => Agents.records_createAgent h _ _)) db hdb
  | updateAgent agentId status =>
      exact keeps_discard (records_patchAgent h _ _ _) db hdb
  | createIntent intent uuid =>
      exact keeps_discard (Intake.records_createIntent h rt _ _ _) db hdb
  | createProposal proposal uuid =>
      exact keeps_discard (Intake.records_createProposal h _ _ _) db hdb
  | ingestAssessment proposalId assessment uuid =>
      exact keeps_discard (Intake.records_ingestAssessment h rt _ _ _ _) db hdb
  | createPolicy body ids =>
      exact keeps_discard ((hrole _).bind
        (fun _ => Policies.records_createDraft h rt _ _)) db hdb
  | compilePolicy body ids =>
      exact keeps_discard ((hrole _).bind
        (fun _ => Policies.records_createDraft h rt _ _)) db hdb
  | validatePolicy policyVersionId =>
      exact keeps_discard (records_postPolicyValidate h _ _) db hdb
  | activatePolicy policyId policyVersionId =>
      exact keeps_discard (records_postPolicyActivate h _ _ _ _) db hdb
  | createConstitution agentId config uuid =>
      exact keeps_discard ((hrole _).bind
        (fun _ => Constitutions.records_createConstitution h rt _ _)) db hdb
  | activateConstitution constitutionId =>
      exact keeps_discard ((hrole _).bind
        (fun _ => Constitutions.records_activateConstitution h _ _ _)) db hdb
  | createDecision body ids =>
      exact keeps_discard (keeps_postDecisions
        (fun _ => h.decisions.create _ _ _)
        (fun input => Approvals.records_createRequest h input _)) db hdb
  | approve approvalId contextHash uuid =>
      exact keeps_discard (Approvals.records_approve h _ _ _ _ _ _) db hdb
  | deny approvalId uuid =>
      exact keeps_discard (Approvals.records_deny h _ _ _ _ _) db hdb
  | prepare body ids =>
      simp only [discard_state]
      rcases postPrepare_state rt call.auth body call.now ids db with
        hsame | hrun
      · rw [hsame]
        exact hdb
      · rw [hrun]
        exact hrevalidate body ids hoperation
  | reconcile client executionId =>
      exact keeps_discard (ExecutionResults.records_reconcile h rt _ _ _ _)
        db hdb
  | ingestResult executionId body uuid =>
      exact keeps_discard ((hrole _).bind (fun _ =>
        ExecutionResults.records_ingestResult h rt _ _ _ _)) db hdb
  | verify client executionId authorized uuid =>
      exact keeps_discard ((hrole _).bind (fun _ =>
        ExecutionResults.records_verifyAndFinalize h rt _ _ _ _ _ _)) db hdb

/-- What the writes of the records and every revalidation keep, every run
keeps. -/
theorem run_keeps {rt : Runtime} {calls : List Call} {db : Database}
    (hrevalidate : ∀ input now ids,
      Keeps inv (Revalidation.revalidate rt input now ids))
    (hdb : inv db) : inv (run rt calls db) :=
  run_induction (fun _ state hstate =>
    Call.step_keeps h (fun _ _ _ => hrevalidate _ _ _ state hstate) hstate)
    hdb

end Api

end

/-! ## What a run leaves of the records -/

/-- Every table has kept its rows, in their order and with their
identities. -/
structure Permanent (start db : Database) : Prop where
  agents : Grows Agent.id Agent.identity start.agents db.agents
  constitutions :
    Grows Constitution.id Constitution.identity start.constitutions
      db.constitutions
  policies : Grows Policy.id Policy.identity start.policies db.policies
  policyVersions :
    Grows PolicyVersion.id PolicyVersion.identity start.policyVersions
      db.policyVersions
  policyRules : Grows PolicyRule.id id start.policyRules db.policyRules
  accounts :
    Grows FinancialAccount.id FinancialAccount.identity
      start.financialAccounts db.financialAccounts
  reservations :
    Grows FinancialReservation.id FinancialReservation.identity
      start.financialReservations db.financialReservations
  idempotency :
    Grows IdempotencyRecord.id id start.idempotencyRecords
      db.idempotencyRecords
  decisions : Grows Decision.id id start.decisions db.decisions
  approvalRequests :
    Grows ApprovalRequest.id ApprovalRequest.identity start.approvalRequests
      db.approvalRequests
  approvalResults :
    Grows ApprovalResult.id id start.approvalResults
      db.approvalResults
  executionRequests :
    Grows ExecutionRequestRecord.id ExecutionRequestRecord.identity
      start.executionRequests db.executionRequests
  executionResults :
    Grows ExecutionResultRecord.id id start.executionResults
      db.executionResults
  receiptVerifications :
    Grows ReceiptVerificationRecord.id id start.receiptVerifications
      db.receiptVerifications
  intents : Grows IntentRecord.id id start.intents db.intents
  proposals : Grows ActionProposalRecord.id id start.proposals db.proposals
  assessments :
    Grows SecurityAssessmentRecord.id id start.securityAssessments
      db.securityAssessments

theorem Permanent.refl (db : Database) : Permanent db db := by
  constructor <;> exact Grows.refl _

/-- A revalidation adds to the registrations, accounts, reservations and
requests, and rewrites no other column than the totals. -/
theorem Permanent.of_ends {start db db' : Database} {rt : Runtime}
    {input : Revalidation.RevalidateInput} {now : ℤ}
    {ids : Revalidation.MintIds} (h : Permanent start db)
    (hends : Revalidation.Ends rt input now ids db db') :
    Permanent start db' := by
  have hbook : ∀ {records accounts},
      Revalidation.Booked records accounts db →
        Permanent start (Revalidation.booked records accounts db) :=
    fun hbooked =>
      { h with
        idempotency := h.idempotency.trans hbooked.records_grow
        accounts := h.accounts.trans hbooked.accounts_grow }
  cases hends with
  | quiet records accounts hbooked => exact hbook hbooked
  | stopped records accounts hbooked res hreserves =>
      exact { hbook hbooked with
        reservations := h.reservations.append hreserves.reservation_new }
  | minted records accounts hbooked res state hreserves hresolve hcleared
      hnone hnew =>
      exact { hbook hbooked with
        reservations := h.reservations.append hreserves.reservation_new
        executionRequests := h.executionRequests.append hnew }

theorem permanent_recordsKept (start : Database) :
    RecordsKept (Permanent start) where
  agents :=
    Table.kept_of_grows (fun _ => rfl) (fun _ h => h.agents)
      (fun _ _ h hrows => { h with agents := hrows })
  constitutions :=
    Table.kept_of_grows (fun _ => rfl) (fun _ h => h.constitutions)
      (fun _ _ h hrows => { h with constitutions := hrows })
  policies :=
    Table.kept_of_grows (fun _ => rfl) (fun _ h => h.policies)
      (fun _ _ h hrows => { h with policies := hrows })
  policyVersions :=
    Table.kept_of_grows (fun _ => rfl) (fun _ h => h.policyVersions)
      (fun _ _ h hrows => { h with policyVersions := hrows })
  policyRules :=
    Table.kept_of_grows (fun _ => rfl) (fun _ h => h.policyRules)
      (fun _ _ h hrows => { h with policyRules := hrows })
  accounts := Table.Kept.blind <|
    Table.kept_of_grows (fun _ => rfl) (fun _ h => h.accounts)
      (fun _ _ h hrows => { h with accounts := hrows })
  reservations := Table.Kept.blind <|
    Table.kept_of_grows (fun _ => rfl) (fun _ h => h.reservations)
      (fun _ _ h hrows => { h with reservations := hrows })
  decisions :=
    Table.kept_of_grows (fun _ => rfl) (fun _ h => h.decisions)
      (fun _ _ h hrows => { h with decisions := hrows })
  approvalRequests :=
    Table.kept_of_grows (fun _ => rfl) (fun _ h => h.approvalRequests)
      (fun _ _ h hrows => { h with approvalRequests := hrows })
  approvalResults :=
    Table.kept_of_grows (fun _ => rfl) (fun _ h => h.approvalResults)
      (fun _ _ h hrows => { h with approvalResults := hrows })
  executionRequests := Table.Kept.blind <|
    Table.kept_of_grows (fun _ => rfl) (fun _ h => h.executionRequests)
      (fun _ _ h hrows => { h with executionRequests := hrows })
  executionResults :=
    Table.kept_of_grows (fun _ => rfl) (fun _ h => h.executionResults)
      (fun _ _ h hrows => { h with executionResults := hrows })
  receiptVerifications :=
    Table.kept_of_grows (fun _ => rfl) (fun _ h => h.receiptVerifications)
      (fun _ _ h hrows => { h with receiptVerifications := hrows })
  intents :=
    Table.kept_of_grows (fun _ => rfl) (fun _ h => h.intents)
      (fun _ _ h hrows => { h with intents := hrows })
  proposals :=
    Table.kept_of_grows (fun _ => rfl) (fun _ h => h.proposals)
      (fun _ _ h hrows => { h with proposals := hrows })
  assessments :=
    Table.kept_of_grows (fun _ => rfl) (fun _ h => h.assessments)
      (fun _ _ h hrows => { h with assessments := hrows })

namespace Api

/-- Over any calls, no row is lost, moved or given another identity. -/
theorem run_permanent (rt : Runtime) (calls : List Call) (db : Database) :
    Permanent db (run rt calls db) := by
  refine run_keeps (permanent_recordsKept db) (fun input now ids => ?_)
    (Permanent.refl db)
  intro state hstate
  exact hstate.of_ends (Revalidation.revalidate_ends rt input now ids state)

end Api

end Orvex
