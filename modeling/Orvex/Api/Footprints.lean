import Orvex.Api.Decisions

/-!
# Which tables a route writes

`Operation.Spares` lists the tables that each write route may write.  A call
leaves alone every part of the database that lies apart from the tables of
its route.
-/

namespace Orvex

open Fallible (Preserves preserves_pure preserves_query preserves_fail
  preserves_ofOption preserves_change)

variable {γ : Type} {f : Database → γ}

/-! ## The ledger -/

/-- Writing accounts and reservations leaves what `f` reads as it was. -/
def LedgerApart (f : Database → γ) : Prop :=
  ∀ accounts reservations db,
    f { db with
      financialAccounts := accounts
      financialReservations := reservations } = f db

namespace Financial

variable (h : LedgerApart f)

include h

theorem preserves_writeReservation (id : String)
    (change : FinancialReservation → FinancialReservation) :
    Preserves f (writeReservation id change) := by
  refine (preserves_query _).bind (fun found => ?_)
  cases found with
  | none => exact preserves_fail _
  | some res =>
      exact (preserves_change (fun db => h _ _ db)).bind
        (fun _ => preserves_pure _)

theorem preserves_createAccount (rt : Runtime) (key : AccountKey)
    (limit : Option String) (uuid : String) :
    Preserves f (createAccount rt key limit uuid) := by
  have hcreate : ∀ stored : Option ℚ, Preserves f (do
      let account := newAccount key stored uuid
      if ← Fallible.query (fun db => decide (AccountAllowed account db)) then
        Fallible.change (insertAccount account)
        pure account
      else Fallible.fail .constraint : Service FinancialAccount) := by
    intro stored
    refine (preserves_query _).bind (fun allowed => ?_)
    split
    · exact (preserves_change (fun db => h _ _ db)).bind
        (fun _ => preserves_pure _)
    · exact preserves_fail _
  cases limit with
  | none => exact (preserves_pure _).bind hcreate
  | some text =>
      have hstored : Preserves f
          (some <$> Fallible.ofOption .decimal (rt.storeText text) :
            Service (Option ℚ)) :=
        (preserves_ofOption _ _).bind (fun _ => preserves_pure _)
      exact hstored.bind hcreate

theorem preserves_ensureAccount (rt : Runtime) (key : AccountKey)
    (limit : Option String) (uuid : String) :
    Preserves f (ensureAccount rt key limit uuid) := by
  refine (preserves_query _).bind (fun found => ?_)
  cases found with
  | some existing => exact preserves_pure _
  | none =>
      refine (preserves_createAccount h rt key limit uuid).attempt.bind
        (fun created => ?_)
      cases created with
      | ok account => exact preserves_pure _
      | error failure =>
          refine (preserves_query _).bind (fun winner => ?_)
          cases winner with
          | some row => exact preserves_pure _
          | none => exact preserves_fail _

theorem preserves_reserve (rt : Runtime) (input : ReserveInput)
    (accountUuid uuid : String) :
    Preserves f (reserve rt input accountUuid uuid) := by
  refine (preserves_ensureAccount h rt _ _ _).bind (fun account => ?_)
  refine (preserves_ofOption _ _).bind (fun amount => ?_)
  refine Preserves.transaction ?_
  refine (preserves_query _).bind (fun locked => ?_)
  cases locked with
  | none => exact preserves_fail _
  | some row =>
      simp only
      cases budgetRefusal rt input.amount amount row with
      | some refusal => exact preserves_fail _
      | none =>
          refine (preserves_ofOption _ _).bind (fun stored => ?_)
          refine (preserves_query _).bind (fun allowed => ?_)
          split
          · refine (preserves_change (fun db => h _ _ db)).bind
              (fun _ => ?_)
            refine (preserves_ofOption _ _).bind (fun change => ?_)
            exact (preserves_change (fun db => h _ _ db)).bind
              (fun _ => preserves_pure _)
          · exact preserves_fail _

theorem preserves_completion (rt : Runtime) (kind : Completion)
    (companyId reservationId : String) (now : ℤ) :
    Preserves f (kind.run rt companyId reservationId now) := by
  refine Preserves.transaction ?_
  refine (preserves_query _).bind (fun found => ?_)
  cases found with
  | none => exact preserves_fail _
  | some res =>
      simp only
      split
      · exact preserves_pure _
      · cases kind.refusal reservationId res.status with
        | some refusal => exact preserves_fail _
        | none =>
            refine (preserves_query _).bind (fun locked => ?_)
            cases locked with
            | none => exact preserves_fail _
            | some row =>
                refine (preserves_ofOption _ _).bind (fun change => ?_)
                exact (preserves_change (fun db => h _ _ db)).bind
                  (fun _ => preserves_writeReservation h _ _)

theorem preserves_markUnknown (companyId reservationId : String) :
    Preserves f (markUnknown companyId reservationId) := by
  refine (preserves_query _).bind (fun found => ?_)
  cases found with
  | none => exact preserves_fail _
  | some res =>
      simp only
      cases unknownRefusal reservationId res.status with
      | some refusal => exact preserves_fail _
      | none => exact preserves_writeReservation h _ _

end Financial

/-! ## Agents and intake -/

theorem Agents.preserves_createAgent (h : agentTable.Apart f)
    (input : CreateAgentInput) (uuid : String) :
    Preserves f (createAgent input uuid) := by
  unfold createAgent
  simp only
  split
  · exact preserves_fail _
  · refine (preserves_query _).bind (fun exists_ => ?_)
    split
    · refine (h.create _ _ _).attempt.bind (fun created => ?_)
      cases created with
      | ok agent => exact preserves_pure _
      | error failure => exact preserves_fail _
    · exact preserves_fail _

theorem Agents.preserves_transition (h : agentTable.Apart f)
    (companyId agentId : String) (status : AgentStatus) :
    Preserves f (transition companyId agentId status) :=
  (preserves_reading _).bind (fun _ => h.update _ _ _)

theorem Intake.preserves_createIntent (h : intentTable.Apart f)
    (rt : Runtime) (companyId : String) (intent : Intent) (uuid : String) :
    Preserves f (createIntent rt companyId intent uuid) := by
  refine (preserves_query _).bind (fun agent => ?_)
  cases agent with
  | none => exact preserves_fail _
  | some _ =>
      refine (preserves_ofOption _ _).bind (fun validFrom => ?_)
      exact (preserves_ofOption _ _).bind (fun _ => h.create _ _ _)

theorem Intake.preserves_createProposal (h : proposalTable.Apart f)
    (companyId : String) (proposal : ActionProposal) (uuid : String) :
    Preserves f (createProposal companyId proposal uuid) := by
  refine (preserves_query _).bind (fun intent => ?_)
  cases intent with
  | none => exact preserves_fail _
  | some row =>
      simp only
      split
      · exact preserves_fail _
      · exact h.create _ _ _

theorem Intake.preserves_ingestAssessment
    (h : securityAssessmentTable.Apart f) (rt : Runtime)
    (companyId proposalId : String) (assessment : SecurityAssessment)
    (uuid : String) :
    Preserves f
      (ingestAssessment rt companyId proposalId assessment uuid) := by
  refine (preserves_query _).bind (fun proposal => ?_)
  cases proposal with
  | none => exact preserves_fail _
  | some row => exact h.create _ _ _

/-! ## Policies -/

section

variable (hpolicy : policyTable.Apart f)
  (hversion : policyVersionTable.Apart f) (hrule : policyRuleTable.Apart f)

include hrule in
theorem Policies.preserves_createRules (versionId : String)
    (rules : List CompiledRule) (uuid : ℕ → String) :
    Preserves f (createRules versionId uuid rules) := by
  induction rules generalizing uuid with
  | nil => exact preserves_pure _
  | cons rule rest ih =>
      have hcreate : Preserves f (createRule versionId (uuid 0) rule) :=
        (preserves_ofOption _ _).bind (fun _ => hrule.create _ _ _)
      exact hcreate.bind (fun _ => ih _)

include hpolicy hversion hrule in
theorem Policies.preserves_createDraft (rt : Runtime)
    (input : CreateDraftInput) (ids : DraftIds) :
    Preserves f (createDraft rt input ids) := by
  unfold createDraft
  simp only
  split
  · exact preserves_fail _
  · refine (preserves_reading _).bind (fun _ => ?_)
    refine (preserves_query _).bind (fun exists_ => ?_)
    split
    · refine Preserves.transaction ?_
      have hfind : Preserves f (findOrCreatePolicy input
          (jsTrim (input.name.getD "")) ids.policy) := by
        refine (preserves_query _).bind (fun policy => ?_)
        cases policy with
        | some row => exact preserves_pure _
        | none => exact hpolicy.create _ _ _
      refine hfind.bind (fun policy => ?_)
      refine (preserves_ofOption _ _).bind (fun rules => ?_)
      have hcreate : Preserves f
          (createVersion rt input policy.id ids.version rules) :=
        (preserves_query _).bind (fun _ => hversion.create _ _ _)
      refine hcreate.bind (fun version => ?_)
      exact (preserves_createRules hrule _ _ _).bind
        (fun _ => preserves_pure _)
    · exact preserves_fail _

include hversion in
theorem Policies.preserves_transition (companyId policyVersionId : String)
    (target : PolicyVersionStatus) :
    Preserves f (transition companyId policyVersionId target) := by
  refine (preserves_reading _).bind (fun current => ?_)
  exact (preserves_reading _).bind (fun _ => hversion.update _ _ _)

include hversion in
theorem Policies.preserves_approve (companyId policyVersionId : String)
    (approvedBy : Option String) :
    Preserves f (approve companyId policyVersionId approvedBy) := by
  refine Preserves.transaction ?_
  refine (preserves_reading _).bind (fun current => ?_)
  exact (preserves_reading _).bind (fun _ => hversion.update _ _ _)

include hpolicy hversion in
theorem Policies.preserves_activate (companyId policyVersionId : String)
    (now : ℤ) : Preserves f (activate companyId policyVersionId now) := by
  refine Preserves.transaction ?_
  refine (preserves_reading _).bind (fun target => ?_)
  refine (preserves_reading _).bind (fun _ => ?_)
  refine (hversion.updateMany _ _).bind (fun _ => ?_)
  refine (hversion.update _ _ _).bind (fun activated => ?_)
  exact (hpolicy.update _ _ _).bind (fun _ => preserves_pure _)

end

/-! ## Approvals -/

section

variable (hrequest : approvalRequestTable.Apart f)
  (hresult : approvalResultTable.Apart f)

include hrequest

theorem Approvals.preserves_createRequest (input : CreateApprovalInput)
    (uuid : String) : Preserves f (createRequest input uuid) := by
  refine (preserves_query _).bind (fun decision => ?_)
  cases decision with
  | none => exact preserves_fail _
  | some row => exact hrequest.create _ _ _

theorem Approvals.preserves_loadPending (companyId approvalId : String)
    (now : ℤ) : Preserves f (loadPending companyId approvalId now) := by
  refine (preserves_query _).bind (fun found => ?_)
  cases found with
  | none => exact preserves_fail _
  | some request =>
      simp only
      split
      · exact preserves_fail _
      · split
        · exact (hrequest.update _ _ _).bind (fun _ => preserves_fail _)
        · exact preserves_pure _

include hresult

theorem Approvals.preserves_approve (companyId approvalId : String)
    (approver : Approver) (contextHash : String) (now : ℤ)
    (uuid : String) :
    Preserves f
      (approve companyId approvalId approver contextHash now uuid) := by
  refine Preserves.transaction ?_
  refine (preserves_loadPending hrequest _ _ _).bind (fun request => ?_)
  cases approverRefusal request approver with
  | some refusal => exact preserves_fail _
  | none =>
      simp only
      split
      · exact preserves_fail _
      · refine (hrequest.update _ _ _).bind (fun updated => ?_)
        exact (hresult.create _ _ _).bind (fun _ => preserves_pure _)

theorem Approvals.preserves_deny (companyId approvalId : String)
    (approver : Approver) (now : ℤ) (uuid : String) :
    Preserves f (deny companyId approvalId approver now uuid) := by
  refine Preserves.transaction ?_
  refine (preserves_loadPending hrequest _ _ _).bind (fun request => ?_)
  cases approverRefusal request approver with
  | some refusal => exact preserves_fail _
  | none =>
      refine (hrequest.update _ _ _).bind (fun updated => ?_)
      exact (hresult.create _ _ _).bind (fun _ => preserves_pure _)

end

/-! ## Executions -/

section

variable (hrequest : executionRequestTable.Apart f)
  (hledger : LedgerApart f)

theorem LedgerApart.reservations (h : LedgerApart f) :
    reservationTable.Apart f :=
  fun l db => h db.financialAccounts l db

/-- Minting leads where its reserve call leads. -/
theorem Revalidation.brings_mint {before after : Database → Prop}
    {rt : Runtime} {input : RevalidateInput} {policy : PolicyReading}
    {now : ℤ} {ids : MintIds} (hweak : ∀ db, before db → after db)
    (hregister : Fallible.Keeps before
      (Idempotency.register rt (registration rt input) ids.idempotency))
    (hreserve : Fallible.Brings before after
      (Financial.reserve rt (reserveInput input) ids.account
        ids.reservation))
    (hauthorize : ∀ reservationId, Fallible.Keeps after
      (authorize rt input policy now ids.executionRequest reservationId)) :
    Fallible.Brings before after (mint rt input policy now ids) := by
  apply hregister.bind_brings hweak
  intro _
  apply (Fallible.keeps_query _).bind_brings hweak
  intro existing
  cases existing with
  | some request => exact (Fallible.keeps_pure _).brings hweak
  | none =>
      apply hreserve.attempt.bind_keeps
      intro result
      cases result with
      | ok reservation => exact hauthorize reservation.id
      | error failure =>
          exact Fallible.Keeps.ite (Fallible.keeps_pure _)
            (Fallible.keeps_fail _)

theorem Revalidation.brings_revalidate {before after : Database → Prop}
    {rt : Runtime} {input : RevalidateInput} {now : ℤ} {ids : MintIds}
    (hweak : ∀ db, before db → after db)
    (hmint : ∀ policy,
      Fallible.Brings before after (mint rt input policy now ids)) :
    Fallible.Brings before after (revalidate rt input now ids) := by
  apply (keeps_reading _).bind_brings hweak
  intro state
  apply (Fallible.keeps_query _).bind_brings hweak
  intro decision
  exact Fallible.Brings.ite ((Fallible.keeps_pure _).brings hweak)
    (hmint state.policy)

/-- What the parts of minting keep, minting keeps. -/
theorem Revalidation.keeps_mint {inv : Database → Prop} {rt : Runtime}
    {input : RevalidateInput} {policy : PolicyReading} {now : ℤ}
    {ids : MintIds}
    (hregister : Fallible.Keeps inv
      (Idempotency.register rt (registration rt input) ids.idempotency))
    (hreserve : Fallible.Keeps inv (Financial.reserve rt (reserveInput input)
      ids.account ids.reservation))
    (hauthorize : ∀ reservationId, Fallible.Keeps inv
      (authorize rt input policy now ids.executionRequest reservationId)) :
    Fallible.Keeps inv (mint rt input policy now ids) :=
  brings_mint (fun _ h => h) hregister hreserve hauthorize

theorem Revalidation.keeps_revalidate {inv : Database → Prop} {rt : Runtime}
    {input : RevalidateInput} {now : ℤ} {ids : MintIds}
    (hmint : ∀ policy, Fallible.Keeps inv (mint rt input policy now ids)) :
    Fallible.Keeps inv (revalidate rt input now ids) :=
  brings_revalidate (fun _ h => h) hmint

include hledger in
theorem Revalidation.preserves_mint (hrecord : idempotencyTable.Apart f)
    (hrequest : executionRequestTable.Apart f) (rt : Runtime)
    (input : RevalidateInput) (policy : PolicyReading) (now : ℤ)
    (ids : MintIds) : Preserves f (mint rt input policy now ids) := by
  have hauthorize : ∀ reservationId, Preserves f
      (authorize rt input policy now ids.executionRequest reservationId) := by
    intro reservationId
    refine (hrequest.create _ _ _).bind (fun request => ?_)
    exact (hledger.reservations.update _ _ _).bind
      (fun _ => preserves_pure _)
  intro b
  refine keeps_mint ?_ (Financial.preserves_reserve hledger rt _ _ _ b)
    (fun reservationId => hauthorize reservationId b)
  exact Idempotency.keeps_register
    (fun db record hdb => (hrecord _ db).trans hdb) rt _ _

include hledger in
theorem Revalidation.preserves_revalidate
    (hrecord : idempotencyTable.Apart f)
    (hrequest : executionRequestTable.Apart f) (rt : Runtime)
    (input : RevalidateInput) (now : ℤ) (ids : MintIds) :
    Preserves f (revalidate rt input now ids) :=
  fun b => keeps_revalidate (fun policy =>
    preserves_mint hledger hrecord hrequest rt input policy now ids b)

/-! ## Execution results -/

/-- What follows a reading knows what was read. -/
theorem keeps_reading_bind {α β : Type} {inv : Database → Prop}
    {f : Database → Except Failure α} {k : α → Service β}
    (h : ∀ db a, f db = .ok a → Fallible.Keeps inv (k a)) :
    Fallible.Keeps inv (reading f >>= k) := by
  intro db hdb
  cases hread : f db with
  | error failure =>
      have hfail : reading f db = (.error failure, db) := by
        unfold reading
        rw [Fallible.query_bind]
        simp only [hread, Fallible.fail_apply]
      rw [Fallible.bind_of_error hfail]
      exact hdb
  | ok a =>
      rw [Fallible.bind_of_ok (reading_eq_ok.mpr ⟨hread, rfl⟩)]
      exact h db a hread db hdb

section

variable {inv : Database → Prop}

theorem ExecutionResults.keeps_finish
    {complete : String → Service FinancialReservation}
    (hcomplete : ∀ id, Fallible.Keeps inv (complete id))
    (hold : Option FinancialReservation) :
    Fallible.Keeps inv (finish hold complete) := by
  cases hold with
  | none => exact Fallible.keeps_pure _
  | some res =>
      exact (hcomplete res.id).bind (fun _ => Fallible.keeps_pure _)

variable
  (hstatus : ∀ id status,
    Fallible.Keeps inv (ExecutionResults.setStatus id status))

include hstatus

omit hstatus in
theorem ExecutionResults.keeps_createResult {rt : Runtime}
    {input : ExecutionResultInput} {requestId uuid : String}
    (hinsert : ∀ row db, inv db → inv (executionResultTable.insert row db)) :
    Fallible.Keeps inv (createResult rt input requestId uuid) := by
  refine Fallible.Keeps.bind (Fallible.keeps_ofOption _ _) (fun _ => ?_)
  refine Fallible.Keeps.bind (Fallible.keeps_ofOption _ _) (fun _ => ?_)
  exact Table.keeps_create (fun db hdb _ => hinsert _ db hdb)

/-- What the parts of an ingestion keep, the ingestion keeps; it releases
only where the result is FAILED. -/
theorem ExecutionResults.keeps_ingestResult {rt : Runtime}
    {companyId : String} {input : ExecutionResultInput} {now : ℤ}
    {uuid : String}
    (hcreate : ∀ requestId,
      Fallible.Keeps inv (createResult rt input requestId uuid))
    (hmark : ∀ id, Fallible.Keeps inv (Financial.markUnknown companyId id))
    (hrelease : input.status = .failed → ∀ id,
      Fallible.Keeps inv (Financial.release rt companyId id now)) :
    Fallible.Keeps inv (ingestResult rt companyId input now uuid) := by
  unfold ingestResult
  split
  · exact Fallible.keeps_fail _
  · refine Fallible.Keeps.bind (keeps_reading _) (fun request => ?_)
    split
    · exact Fallible.keeps_fail _
    · have hhold : Fallible.Keeps inv
          (holdReservation companyId request.id) :=
        Fallible.Keeps.bind (Fallible.keeps_query _) (keeps_finish hmark)
      have hfree (hfailed : input.status = .failed) : Fallible.Keeps inv
          (releaseReservation rt companyId request.id now) :=
        Fallible.Keeps.bind (Fallible.keeps_query _)
          (keeps_finish (hrelease hfailed))
      refine (hcreate request.id).bind (fun record => ?_)
      refine (hstatus request.id _).bind (fun _ => ?_)
      have hlast : Fallible.Keeps inv (if input.status = .failed then do
          releaseReservation rt companyId request.id now
          pure record
        else pure record) := by
        split
        next hfailed =>
          exact (hfree hfailed).bind (fun _ => Fallible.keeps_pure _)
        next => exact Fallible.keeps_pure _
      simp only
      split
      · exact hhold.bind (fun _ => hlast)
      · exact hlast

/-- A reconciliation releases only where the executor answers FAILED. -/
theorem ExecutionResults.keeps_reconcile {rt : Runtime}
    {client : ExecutionClient} {companyId executionId : String} {now : ℤ}
    (hrelease : client.getResult executionId = .ok .failed → ∀ id,
      Fallible.Keeps inv (Financial.reconcileRelease rt companyId id now)) :
    Fallible.Keeps inv (reconcile rt client companyId executionId now) := by
  refine Fallible.Keeps.bind (keeps_reading _) (fun request => ?_)
  refine keeps_reading_bind (fun _ status hanswer => ?_)
  cases status with
  | confirmed =>
      exact (hstatus _ _).bind (fun _ => Fallible.keeps_pure _)
  | failed =>
      refine (hstatus _ _).bind (fun _ => ?_)
      refine Fallible.Keeps.bind (Fallible.keeps_query _) (fun hold => ?_)
      exact (keeps_finish (hrelease hanswer) hold).bind
        (fun _ => Fallible.keeps_pure _)
  | pending => exact Fallible.keeps_pure _
  | unknown => exact Fallible.keeps_pure _

omit hstatus in
theorem ExecutionResults.keeps_verifyAndFinalize {rt : Runtime}
    {client : ExecutionClient} {companyId executionId uuid : String}
    {authorized : AuthorizedReceipt} {now : ℤ}
    (hreceipt : ∀ allowed row, Fallible.Keeps inv
      (receiptVerificationTable.create Failure.constraint allowed row))
    (hcommit : ∀ id,
      Fallible.Keeps inv (Financial.commit rt companyId id now)) :
    Fallible.Keeps inv (verifyAndFinalize rt client companyId executionId
      authorized now uuid) := by
  refine Fallible.Keeps.bind (keeps_reading _) (fun request => ?_)
  refine Fallible.Keeps.bind (keeps_reading _) (fun receipt => ?_)
  refine Fallible.Keeps.bind (keeps_reading _) (fun found => ?_)
  refine (hreceipt _ _).bind (fun verification => ?_)
  split
  · refine Fallible.Keeps.bind (Fallible.keeps_query _) (fun hold => ?_)
    cases hold with
    | none => exact Fallible.keeps_pure _
    | some res =>
        exact (hcommit res.id).bind (fun _ => Fallible.keeps_pure _)
  · exact Fallible.keeps_pure _

end

include hrequest hledger

theorem ExecutionResults.preserves_ingestResult
    (hresult : executionResultTable.Apart f) (rt : Runtime)
    (companyId : String) (input : ExecutionResultInput) (now : ℤ)
    (uuid : String) :
    Preserves f (ingestResult rt companyId input now uuid) := by
  intro b
  exact keeps_ingestResult (fun _ _ => hrequest.update _ _ _ b)
    (fun _ => keeps_createResult fun _ db hdb => (hresult _ db).trans hdb)
    (fun id => Financial.preserves_markUnknown hledger companyId id b)
    (fun _ id => Financial.preserves_completion hledger rt .release companyId
      id now b)

theorem ExecutionResults.preserves_reconcile (rt : Runtime)
    (client : ExecutionClient) (companyId executionId : String) (now : ℤ) :
    Preserves f (reconcile rt client companyId executionId now) :=
  fun b => keeps_reconcile (fun _ _ => hrequest.update _ _ _ b)
    (fun _ id => Financial.preserves_completion hledger rt
      .reconcileRelease companyId id now b)

omit hrequest in
theorem ExecutionResults.preserves_verifyAndFinalize
    (hreceipt : receiptVerificationTable.Apart f) (rt : Runtime)
    (client : ExecutionClient) (companyId executionId : String)
    (authorized : AuthorizedReceipt) (now : ℤ) (uuid : String) :
    Preserves f (verifyAndFinalize rt client companyId executionId
      authorized now uuid) :=
  fun b => keeps_verifyAndFinalize
    (fun _ _ => hreceipt.create _ _ _ b)
    (fun id => Financial.preserves_completion hledger rt .commit companyId
      id now b)

end

/-! ## Routes -/

namespace Api

theorem preserves_requireRole (auth : AuthContext) (roles : List String) :
    Preserves f (requireRole auth roles) :=
  fun _ => keeps_requireRole auth roles

/-- No table that the route of the operation may write is read by `f`. -/
def Operation.Spares (f : Database → γ) : Operation → Prop
  | .createAgent _ _ => agentTable.Apart f
  | .updateAgent _ _ => agentTable.Apart f
  | .createIntent _ _ => intentTable.Apart f
  | .createProposal _ _ => proposalTable.Apart f
  | .ingestAssessment _ _ _ => securityAssessmentTable.Apart f
  | .createPolicy _ _ =>
      policyTable.Apart f ∧ policyVersionTable.Apart f ∧
        policyRuleTable.Apart f
  | .compilePolicy _ _ =>
      policyTable.Apart f ∧ policyVersionTable.Apart f ∧
        policyRuleTable.Apart f
  | .validatePolicy _ => policyVersionTable.Apart f
  | .activatePolicy _ _ =>
      policyTable.Apart f ∧ policyVersionTable.Apart f ∧ agentTable.Apart f
  | .createConstitution _ _ _ => constitutionTable.Apart f
  | .activateConstitution _ =>
      constitutionTable.Apart f ∧ agentTable.Apart f
  | .createDecision _ _ =>
      decisionTable.Apart f ∧ approvalRequestTable.Apart f
  | .approve _ _ _ =>
      approvalRequestTable.Apart f ∧ approvalResultTable.Apart f
  | .deny _ _ => approvalRequestTable.Apart f ∧ approvalResultTable.Apart f
  | .prepare _ _ =>
      LedgerApart f ∧ idempotencyTable.Apart f ∧
        executionRequestTable.Apart f
  | .reconcile _ _ => executionRequestTable.Apart f ∧ LedgerApart f
  | .ingestResult _ _ _ =>
      executionRequestTable.Apart f ∧ LedgerApart f ∧
        executionResultTable.Apart f
  | .verify _ _ _ _ => LedgerApart f ∧ receiptVerificationTable.Apart f

theorem preserves_statusTransition (h : agentTable.Apart f)
    (companyId agentId status : String) :
    Preserves f (statusTransition companyId agentId status) := by
  unfold statusTransition
  have htransition := fun target =>
    Agents.preserves_transition h companyId agentId target
  split
  · exact htransition .active
  · split
    · exact htransition .paused
    · split
      · exact htransition .suspended
      · split
        · exact htransition .disabled
        · exact preserves_fail _

theorem preserves_repointAgent (h : agentTable.Apart f)
    (companyId policyId : String) :
    Preserves f (repointAgent companyId policyId) := by
  refine (preserves_query _).bind (fun found => ?_)
  cases found with
  | none => exact preserves_pure _
  | some policy =>
      simp only
      split
      · exact (h.update _ _ _).bind (fun _ => preserves_pure _)
      · exact preserves_pure _

/-- What recording a decision and asking for its approval keep, the route
keeps. -/
theorem keeps_postDecisions {inv : Database → Prop} {rt : Runtime}
    {auth : AuthContext} {body : DecisionBody} {now : ℤ} {ids : DecisionIds}
    (hrecord : ∀ context, Fallible.Keeps inv (Decisions.record
      (persistInput auth body context
        (decisionOutput body context.policyEvaluation)
        (decisionHash rt body context.policyEvaluation)) ids.decision))
    (happroval : ∀ input,
      Fallible.Keeps inv (Approvals.createRequest input ids.approval)) :
    Fallible.Keeps inv (postDecisions rt auth body now ids) := by
  refine Fallible.Keeps.bind (keeps_reading _) (fun context => ?_)
  refine (hrecord context).bind (fun decision => ?_)
  have hrequest : Fallible.Keeps inv
      (requestApproval auth body decision
        (decisionOutput body context.policyEvaluation)
        (decisionHash rt body context.policyEvaluation) now
        ids.approval) := by
    unfold requestApproval
    exact Fallible.Keeps.ite
      ((happroval _).bind (fun _ => Fallible.keeps_pure _))
      (Fallible.keeps_pure _)
  exact hrequest.bind (fun _ => Fallible.keeps_pure _)

theorem preserves_postDecisions (hdecision : decisionTable.Apart f)
    (hrequest : approvalRequestTable.Apart f) (rt : Runtime)
    (auth : AuthContext) (body : DecisionBody) (now : ℤ)
    (ids : DecisionIds) :
    Preserves f (postDecisions rt auth body now ids) :=
  fun b => keeps_postDecisions (fun _ => hdecision.create _ _ _ b)
    (fun input => Approvals.preserves_createRequest hrequest input _ b)

theorem brings_postPrepare {before after : Database → Prop} {rt : Runtime}
    {auth : AuthContext} {body : PrepareBody} {now : ℤ}
    {ids : Revalidation.MintIds} (hweak : ∀ db, before db → after db)
    (hrevalidate : Fallible.Brings before after (Revalidation.revalidate rt
      (revalidateInput auth body) now ids)) :
    Fallible.Brings before after (postPrepare rt auth body now ids) := by
  apply (keeps_requireRole auth operatorRoles).bind_brings hweak
  intro _
  apply hrevalidate.bind_keeps
  intro outcome
  exact Fallible.Keeps.ite (Fallible.keeps_fail _) (Fallible.keeps_pure _)

theorem keeps_postPrepare {inv : Database → Prop} {rt : Runtime}
    {auth : AuthContext} {body : PrepareBody} {now : ℤ}
    {ids : Revalidation.MintIds}
    (hrevalidate : Fallible.Keeps inv (Revalidation.revalidate rt
      (revalidateInput auth body) now ids)) :
    Fallible.Keeps inv (postPrepare rt auth body now ids) :=
  brings_postPrepare (fun _ h => h) hrevalidate

theorem preserves_discard {α : Type} {x : Service α} (hx : Preserves f x) :
    Preserves f (discard x) :=
  hx.bind (fun _ => preserves_pure _)

/-- A call leaves alone what its route spares. -/
theorem Call.perform_spares {call : Call} (rt : Runtime)
    (h : call.operation.Spares f) : Preserves f (call.perform rt) := by
  unfold Call.perform
  have hrole := @preserves_requireRole γ f call.auth
  cases hoperation : call.operation with
  | createAgent body uuid =>
      rw [hoperation] at h
      exact preserves_discard ((hrole _).bind
        (fun _ => Agents.preserves_createAgent h _ _))
  | updateAgent agentId status =>
      rw [hoperation] at h
      refine preserves_discard ((hrole _).bind (fun _ => ?_))
      refine (preserves_reading _).bind (fun _ => ?_)
      split
      · exact (preserves_statusTransition h _ _ _).bind
          (fun _ => preserves_reading _)
      · exact preserves_reading _
  | createIntent intent uuid =>
      rw [hoperation] at h
      exact preserves_discard (Intake.preserves_createIntent h _ _ _ _)
  | createProposal proposal uuid =>
      rw [hoperation] at h
      exact preserves_discard (Intake.preserves_createProposal h _ _ _)
  | ingestAssessment proposalId assessment uuid =>
      rw [hoperation] at h
      exact preserves_discard (Intake.preserves_ingestAssessment h _ _ _ _ _)
  | createPolicy body ids =>
      rw [hoperation] at h
      exact preserves_discard ((hrole _).bind
        (fun _ => Policies.preserves_createDraft h.1 h.2.1 h.2.2 _ _ _))
  | compilePolicy body ids =>
      rw [hoperation] at h
      exact preserves_discard ((hrole _).bind
        (fun _ => Policies.preserves_createDraft h.1 h.2.1 h.2.2 _ _ _))
  | validatePolicy policyVersionId =>
      rw [hoperation] at h
      refine preserves_discard ((hrole _).bind (fun _ => ?_))
      refine (Policies.preserves_transition h _ _ _).bind (fun _ => ?_)
      refine (Policies.preserves_transition h _ _ _).bind (fun _ => ?_)
      exact Policies.preserves_approve h _ _ _
  | activatePolicy policyId policyVersionId =>
      rw [hoperation] at h
      refine preserves_discard ((hrole _).bind (fun _ => ?_))
      refine (Policies.preserves_activate h.1 h.2.1 _ _ _).bind
        (fun _ => ?_)
      exact (preserves_repointAgent h.2.2 _ _).bind
        (fun _ => preserves_pure _)
  | createConstitution agentId config uuid =>
      rw [hoperation] at h
      exact preserves_discard ((hrole _).bind
        (fun _ => Constitutions.preserves_createConstitution h _ _ _))
  | activateConstitution constitutionId =>
      rw [hoperation] at h
      exact preserves_discard ((hrole _).bind (fun _ =>
        Constitutions.preserves_activateConstitution h.1 h.2 _ _ _))
  | createDecision body ids =>
      rw [hoperation] at h
      exact preserves_discard (preserves_postDecisions h.1 h.2 _ _ _ _ _)
  | approve approvalId contextHash uuid =>
      rw [hoperation] at h
      exact preserves_discard (Approvals.preserves_approve h.1 h.2 _ _ _ _ _ _)
  | deny approvalId uuid =>
      rw [hoperation] at h
      exact preserves_discard (Approvals.preserves_deny h.1 h.2 _ _ _ _ _)
  | prepare body ids =>
      rw [hoperation] at h
      exact preserves_discard (fun b => keeps_postPrepare
        (Revalidation.preserves_revalidate h.1 h.2.1 h.2.2 _ _ _ _ b))
  | reconcile client executionId =>
      rw [hoperation] at h
      exact preserves_discard (ExecutionResults.preserves_reconcile h.1 h.2
        _ _ _ _ _)
  | ingestResult executionId body uuid =>
      rw [hoperation] at h
      exact preserves_discard ((hrole _).bind (fun _ =>
        ExecutionResults.preserves_ingestResult h.1 h.2.1 h.2.2 _ _ _ _ _))
  | verify client executionId authorized uuid =>
      rw [hoperation] at h
      exact preserves_discard ((hrole _).bind (fun _ =>
        ExecutionResults.preserves_verifyAndFinalize h.1 h.2 _ _ _ _ _ _ _))

theorem keeps_discard {inv : Database → Prop} {α : Type} {x : Service α}
    (hx : Fallible.Keeps inv x) : Fallible.Keeps inv (discard x) :=
  hx.bind (fun _ => Fallible.keeps_pure _)

theorem Call.step_spares {call : Call} {rt : Runtime}
    (h : call.operation.Spares f) (db : Database) :
    f (call.step rt db) = f db :=
  (call.perform_spares rt h).apply db

end Api

end Orvex
