import Orvex.Api.Amounts
import Orvex.Core.Pinned

/-!
# Where an execution request comes from

A request names the decision that its caller named.  Nothing looks that
decision up, and the context of a recorded decision never has the hash of
the context that a request is authorized in: the one is taken before there is
a transaction, the other with it.
-/

namespace Orvex
namespace Api

open Revalidation (RevalidateInput MintIds revalidate)

/-- The request references a decision of its company and agent that was an
ALLOW, or a REVIEW that was approved, and whose context hash was found equal
to the one derived when the request was minted. -/
def Sourced (db : Database) (request : ExecutionRequestRecord) : Prop :=
  ∃ decision ∈ db.decisions, decision.id = request.decisionId ∧
    decision.companyId = request.companyId ∧
    decision.agentId = request.agentId ∧
    (decision.result = .allow ∨
      decision.result = .review ∧ ∃ approval ∈ db.approvalRequests,
        approval.decisionId = decision.id ∧ approval.status = .approved) ∧
    decision.decisionContextHash = request.authorizationContextHash

/-! ## The two kinds of context -/

/-- The hash of a context before there is a transaction. -/
def BeforeTransaction (rt : Runtime) (hash : String) : Prop :=
  ∃ ctx, hash = DecisionEngine.contextHash rt ctx ∧
    ctx.transactionId = none

/-- The hash of a context with its transaction. -/
def WithTransaction (rt : Runtime) (hash : String) : Prop :=
  ∃ ctx id, hash = DecisionEngine.contextHash rt ctx ∧
    ctx.transactionId = some id

theorem transactionId_of_contextHash_eq {rt : Runtime}
    (hfree : rt.CollisionFree) {a b : DecisionHashContext}
    (h : DecisionEngine.contextHash rt a = DecisionEngine.contextHash rt b) :
    a.transactionId = b.transactionId := by
  unfold DecisionEngine.contextHash DecisionEngine.contextJson at h
  have hkey : "transactionId" ≠ protoKey := by decide
  obtain ⟨value, hvalue, hsame⟩ := @field_of_sha256Json_eq rt hfree _ _ h
    "transactionId" (nullable a.transactionId) hkey (by simp)
  have hother : value = nullable b.transactionId := by
    simpa using hvalue
  rw [hother, canonicalize_nullable, canonicalize_nullable] at hsame
  exact nullable_injective hsame

theorem hash_kinds_differ {rt : Runtime} (hfree : rt.CollisionFree)
    {before later : String} (hbefore : BeforeTransaction rt before)
    (hlater : WithTransaction rt later) : before ≠ later := by
  obtain ⟨a, rfl, hnone⟩ := hbefore
  obtain ⟨b, id, rfl, hsome⟩ := hlater
  intro heq
  have hsame := transactionId_of_contextHash_eq hfree heq
  rw [hnone, hsome] at hsame
  exact absurd hsame (by simp)

/-! ## What the routes record -/

/-- Decisions are hashed before their transaction, requests with it. -/
structure HashKinds (rt : Runtime) (db : Database) : Prop where
  decisions : ∀ decision ∈ db.decisions,
    BeforeTransaction rt decision.decisionContextHash
  requests : ∀ request ∈ db.executionRequests,
    WithTransaction rt request.authorizationContextHash

section

variable {rt : Runtime}

theorem keeps_kinds_decision {input : Decisions.PersistDecisionInput}
    {uuid : String}
    (hhash : BeforeTransaction rt input.decisionContextHash) :
    Fallible.Keeps (HashKinds rt) (Decisions.record input uuid) := by
  refine Table.keeps_create (fun db hdb _ => ⟨?_, hdb.requests⟩)
  intro decision hmem
  rcases List.mem_append.mp hmem with hold | hnew
  · exact hdb.decisions decision hold
  · rw [List.mem_singleton.mp hnew]
    exact hhash

theorem keeps_kinds_request {row : ExecutionRequestRecord}
    {allowed : Database → Bool}
    (hhash : WithTransaction rt row.authorizationContextHash) :
    Fallible.Keeps (HashKinds rt)
      (executionRequestTable.create Failure.constraint allowed row) := by
  refine Table.keeps_create (fun db hdb _ => ⟨hdb.decisions, ?_⟩)
  intro request hmem
  rcases List.mem_append.mp hmem with hold | hnew
  · exact hdb.requests request hold
  · rw [List.mem_singleton.mp hnew]
    exact hhash

theorem keeps_kinds_setStatus (requestId : String)
    (status : ExecutionRequestStatus) :
    Fallible.Keeps (HashKinds rt)
      (ExecutionResults.setStatus requestId status) := by
  refine Table.keeps_update (fun db hdb => ⟨hdb.decisions, ?_⟩)
  intro request hmem
  obtain ⟨old, hold, heq⟩ := List.mem_map.mp hmem
  have hsame : request.authorizationContextHash =
      old.authorizationContextHash := by
    rw [← heq]
    split <;> rfl
  rw [hsame]
  exact hdb.requests old hold

/-- What leaves decisions and requests alone keeps the invariant. -/
theorem keeps_kinds_of_preserves {α : Type} {x : Service α}
    (hx : Fallible.Preserves
      (fun db => (db.decisions, db.executionRequests)) x) :
    Fallible.Keeps (HashKinds rt) x := by
  intro db hdb
  have hsame := hx.apply db
  rw [Prod.mk.injEq] at hsame
  exact ⟨hsame.1 ▸ hdb.decisions, hsame.2 ▸ hdb.requests⟩

theorem kinds_of_createDecision (auth : AuthContext) (body : DecisionBody)
    (now : ℤ) (ids : DecisionIds) :
    Fallible.Keeps (HashKinds rt) (postDecisions rt auth body now ids) := by
  refine keeps_postDecisions (fun context => ?_) (fun input => ?_)
  · exact keeps_kinds_decision
      ⟨decisionHashContext body context.policyEvaluation, rfl, rfl⟩
  · exact keeps_kinds_of_preserves
      (Approvals.preserves_createRequest (fun _ _ => rfl) input _)

theorem kinds_of_prepare (auth : AuthContext) (body : PrepareBody)
    (now : ℤ) (ids : MintIds) :
    Fallible.Keeps (HashKinds rt) (postPrepare rt auth body now ids) := by
  refine keeps_postPrepare (Revalidation.keeps_revalidate (fun policy => ?_))
  refine Revalidation.keeps_mint ?_ ?_ (fun reservationId => ?_)
  · exact Idempotency.keeps_register
      (fun _ _ hdb => ⟨hdb.decisions, hdb.requests⟩) rt _ _
  · exact keeps_kinds_of_preserves
      (Financial.preserves_reserve (fun _ _ _ => rfl) rt _ _ _)
  · refine Fallible.Keeps.bind (keeps_kinds_request ?_) (fun request => ?_)
    · exact ⟨Revalidation.hashContext rt (revalidateInput auth body) policy,
        body.transactionId, rfl, rfl⟩
    · exact Fallible.Keeps.bind
        (Table.keeps_update (fun _ hdb => ⟨hdb.decisions, hdb.requests⟩))
        (fun _ => Fallible.keeps_pure _)

theorem kinds_of_ingestResult (companyId : String)
    (input : ExecutionResults.ExecutionResultInput) (now : ℤ)
    (uuid : String) :
    Fallible.Keeps (HashKinds rt)
      (ExecutionResults.ingestResult rt companyId input now uuid) := by
  refine ExecutionResults.keeps_ingestResult keeps_kinds_setStatus
    (fun requestId => ?_) (fun id => ?_) (fun _ id => ?_)
  · exact ExecutionResults.keeps_createResult
      (fun _ _ hdb => ⟨hdb.decisions, hdb.requests⟩)
  · exact keeps_kinds_of_preserves
      (Financial.preserves_markUnknown (fun _ _ _ => rfl) companyId id)
  · exact keeps_kinds_of_preserves (Financial.preserves_completion
      (fun _ _ _ => rfl) rt .release companyId id now)

theorem kinds_of_reconcile (client : ExecutionResults.ExecutionClient)
    (companyId executionId : String) (now : ℤ) :
    Fallible.Keeps (HashKinds rt)
      (ExecutionResults.reconcile rt client companyId executionId now) :=
  ExecutionResults.keeps_reconcile keeps_kinds_setStatus (fun _ id =>
    keeps_kinds_of_preserves (Financial.preserves_completion
      (fun _ _ _ => rfl) rt .reconcileRelease companyId id now))

theorem HashKinds.step (call : Call) {db : Database}
    (hdb : HashKinds rt db) : HashKinds rt (call.step rt db) := by
  have hspared : call.operation.Spares
      (fun db => (db.decisions, db.executionRequests)) →
        HashKinds rt (call.step rt db) := by
    intro h
    exact keeps_kinds_of_preserves (call.perform_spares rt h) db hdb
  cases hoperation : call.operation with
  | createDecision body ids =>
      have hstep : call.step rt db =
          (postDecisions rt call.auth body call.now ids db).2 := by
        simp only [Call.step, Call.perform, hoperation, discard_state]
      rw [hstep]
      exact kinds_of_createDecision _ _ _ _ db hdb
  | prepare body ids =>
      have hstep : call.step rt db =
          (postPrepare rt call.auth body call.now ids db).2 := by
        simp only [Call.step, Call.perform, hoperation, discard_state]
      rw [hstep]
      exact kinds_of_prepare _ _ _ _ db hdb
  | reconcile client executionId =>
      have hstep : call.step rt db =
          (postReconcile rt client call.auth executionId call.now db).2 := by
        simp only [Call.step, Call.perform, hoperation, discard_state]
      rw [hstep]
      exact kinds_of_reconcile _ _ _ _ db hdb
  | ingestResult executionId body uuid =>
      have hstep : call.step rt db =
          (postResult rt call.auth executionId body call.now uuid db).2 := by
        simp only [Call.step, Call.perform, hoperation, discard_state]
      rw [hstep]
      exact Fallible.Keeps.bind (keeps_requireRole _ _)
        (fun _ => kinds_of_ingestResult _ _ _ _) db hdb
  | _ =>
      -- the other routes write neither decisions nor requests
      refine hspared ?_
      rw [hoperation]
      repeat' first
        | exact fun _ _ => rfl
        | exact fun _ _ _ => rfl
        | refine ⟨?_, ?_⟩

end

/-- From a state without decisions and requests on, no execution request that
any run of calls mints has a source. -/
theorem no_request_sourced {rt : Runtime} (hfree : rt.CollisionFree)
    {db : Database} (hdecisions : db.decisions = [])
    (hrequests : db.executionRequests = []) (calls : List Call) :
    ∀ request ∈ (run rt calls db).executionRequests,
      ¬ Sourced (run rt calls db) request := by
  have hstart : HashKinds rt db := by
    constructor
    · simp [hdecisions]
    · simp [hrequests]
  have hkinds : HashKinds rt (run rt calls db) :=
    run_induction (fun call _ hdb => hdb.step call) hstart
  rintro request hmem ⟨decision, hdecision, _, _, _, _, hhash⟩
  exact hash_kinds_differ hfree (hkinds.decisions decision hdecision)
    (hkinds.requests request hmem) hhash

/-! ## Two runs -/

theorem postPrepare_of_allow {rt : Runtime} {auth : AuthContext}
    {body : PrepareBody} {now : ℤ} {ids : MintIds} {db db' : Database}
    {outcome : Revalidation.RevalidationOutcome}
    (hrole : operatorRoles.contains auth.actorRole = true)
    (hrun : revalidate rt (revalidateInput auth body) now ids db =
      (.ok outcome, db')) (hallow : outcome.result = .allow) :
    postPrepare rt auth body now ids db = (.ok outcome, db') := by
  have hpermitted : requireRole auth operatorRoles db = (.ok (), db) := by
    rw [requireRole, if_pos hrole, Fallible.pure_apply]
  unfold postPrepare
  rw [Fallible.bind_of_ok hpermitted, Fallible.bind_of_ok hrun,
    if_neg (not_not.mpr hallow), Fallible.pure_apply]

theorem revalidateInput_prepareBody {auth : AuthContext}
    {input : RevalidateInput} (hcompany : auth.companyId = input.companyId) :
    revalidateInput auth (prepareBody input) = input := by
  unfold revalidateInput prepareBody
  rw [hcompany]

theorem step_prepareBody {rt : Runtime} {auth : AuthContext}
    {input : RevalidateInput} {now : ℤ} {ids : MintIds} {db db' : Database}
    {outcome : Revalidation.RevalidationOutcome}
    (hrole : operatorRoles.contains auth.actorRole = true)
    (hcompany : auth.companyId = input.companyId)
    (hrun : revalidate rt input now ids db = (.ok outcome, db'))
    (hallow : outcome.result = .allow) :
    run rt [⟨auth, now, .prepare (prepareBody input) ids⟩] db = db' := by
  rw [← revalidateInput_prepareBody hcompany] at hrun
  have hprepare := postPrepare_of_allow hrole hrun hallow
  simp only [run, List.foldl_cons, List.foldl_nil, Call.step, Call.perform,
    discard_state, hprepare]

theorem prepare_decisions (rt : Runtime) (auth : AuthContext) (now : ℤ)
    (body : PrepareBody) (ids : MintIds) (db : Database) :
    (run rt [⟨auth, now, .prepare body ids⟩] db).decisions =
      db.decisions := by
  have hspared : (Operation.prepare body ids).Spares Database.decisions := by
    repeat' first
      | exact fun _ _ => rfl
      | exact fun _ _ _ => rfl
      | refine ⟨?_, ?_⟩
  have hstep := @Call.step_spares _ _ ⟨auth, now, .prepare body ids⟩ rt
    hspared db
  simpa only [run, List.foldl_cons, List.foldl_nil] using hstep

/-- What a run mints from the sample is one of its requests. -/
theorem request_of_minted {rt : Runtime} {input : RevalidateInput}
    {policy : Revalidation.PolicyReading} {now : ℤ} {ids : MintIds}
    {db db' : Database} {id : String}
    (hrun : revalidate rt input now ids db =
      (.ok (Revalidation.minted
        (Revalidation.newRequest rt input policy now ids.executionRequest)
          id), db')) :
    ∃ request, request ∈ db'.executionRequests := by
  obtain ⟨_, _, _, _, _, _, _, _, _, hmints⟩ :=
    Revalidation.mints_of_allow hrun rfl rfl
  rw [hmints.state_eq]
  exact ⟨_, List.mem_append_right _ (List.mem_singleton_self _)⟩

/-- A payment is authorized for a decision that was never recorded. -/
theorem sample_request_unsourced :
    ∃ request ∈ (run .reference [samplePrepare]
        (Revalidation.sampleDatabase [])).executionRequests,
      ¬ Sourced (run .reference [samplePrepare]
        (Revalidation.sampleDatabase [])) request := by
  have hamount : Reference.decimal? Revalidation.samplePayment.amount =
      some 10 := by
    decide +kernel
  obtain ⟨state, db', _, _, hrun⟩ :=
    Revalidation.minted_of_plain Revalidation.sample_plain
      Revalidation.sample_ready
      (Revalidation.sample_mint ⟨rfl, rfl, rfl, rfl, rfl⟩ ⟨rfl, rfl, rfl⟩
        hamount (by norm_num))
  have hstep : run .reference [samplePrepare]
      (Revalidation.sampleDatabase []) = db' :=
    step_prepareBody (by decide) rfl hrun rfl
  have hdecisions : (run .reference [samplePrepare]
      (Revalidation.sampleDatabase [])).decisions = [] :=
    prepare_decisions .reference sampleAuth _ _ _ _
  obtain ⟨request, hmem⟩ := request_of_minted hrun
  refine ⟨request, hstep ▸ hmem, ?_⟩
  rintro ⟨decision, hdecision, _⟩
  rw [hdecisions] at hdecision
  exact List.not_mem_nil hdecision

/-! ## A runtime without collisions -/

/-- The texts that the sample payment and the sample decision hash: the
payload, the registration, the policy evaluation and the context of the
payment, then the policy evaluation and the context of the decision. -/
def sampleTexts : List String :=
  List.map String.join [
    ["\x7b\"amount\":\"10\",\"asset\":\"USDC\",\"contractAddress\":null,",
      "\"functionSelector\":null,\"network\":\"base\",",
      "\"recipient\":\"0xshop\",\"transactionId\":\"transaction-1\"\x7d"],
    ["\x7b\"amount\":\"10\",\"decisionId\":\"decision-1\",",
      "\"network\":\"base\",\"recipient\":\"0xshop\",",
      "\"transactionId\":\"transaction-1\"\x7d"],
    ["\x7b\"context\":\x7b\"capabilityExpiresAt\":null,",
      "\"now\":\"2026-01-01T12:00:00.000Z\",\"transaction\":\x7b",
      "\"action\":\"PAY\",\"amount\":\"10\",\"asset\":\"USDC\",",
      "\"currency\":\"USDC\",\"network\":\"base\",",
      "\"recipient\":\"0xshop\"\x7d\x7d,\"outcomes\":[],",
      "\"policyId\":\"policy-1\",\"rules\":[],\"version\":1\x7d"],
    ["\x7b\"approvalContextHash\":null,\"intentId\":\"intent-1\",",
      "\"policyEvaluationHash\":\"sha256:578f3829e3832bca579ba98f59e8eac7",
      "e5c691d6a86ce0bf363d2481bd186f15\",\"policyId\":\"policy-1\",",
      "\"policyVersion\":1,\"proposalId\":\"proposal-1\",",
      "\"securityAssessmentId\":\"assessment-1\",",
      "\"simulationId\":\"transaction-1\",",
      "\"transactionId\":\"transaction-1\",",
      "\"transactionPayloadHash\":\"sha256:6f3b5f3b24fba9221ed9b0be3130e2",
      "54c52bd25f0dede9c34ca20084482e8e17\"\x7d"],
    ["\x7b\"context\":\x7b\"capabilityExpiresAt\":null,",
      "\"now\":\"2026-01-01T12:00:00.000Z\",",
      "\"trajectoryEventTypes\":[],\"transaction\":\x7b",
      "\"action\":\"PAY\",\"amount\":\"10\",\"asset\":\"USDC\",",
      "\"currency\":\"USDC\",\"network\":\"base\",",
      "\"recipient\":\"0xshop\"\x7d\x7d,\"outcomes\":[],",
      "\"policyId\":\"policy-1\",\"rules\":[],\"version\":1\x7d"],
    ["\x7b\"approvalContextHash\":null,\"intentId\":\"intent-1\",",
      "\"policyEvaluationHash\":\"sha256:6109b09e906ff9ffd10b778ccf9ec2d3",
      "45561bd6fd9ea95e4a34582cee795f50\",\"policyId\":\"policy-1\",",
      "\"policyVersion\":1,\"proposalId\":\"proposal-1\",",
      "\"securityAssessmentId\":\"assessment-1\",",
      "\"simulationId\":null,\"transactionId\":null,",
      "\"transactionPayloadHash\":null\x7d"]]

set_option maxRecDepth 100000 in
theorem sampleTexts_nodup :
    (sampleTexts.map Reference.sha256Hex).Nodup :=
  @Reference.nodup_digests sampleTexts
    [[_, _, _], [_, _, _], [_, _, _, _, _, _], [_, _, _, _, _, _, _, _, _], [_, _, _, _, _, _, _], [_, _, _, _, _, _, _]] rfl
    (by decide +kernel)

def samplePinned : Runtime := .pinned sampleTexts

theorem samplePinned_collisionFree : samplePinned.CollisionFree :=
  Runtime.pinned_collisionFree sampleTexts_nodup

/-- The sample payment with the payload hash of that runtime. -/
def pinnedPayment : RevalidateInput :=
  Revalidation.simulated samplePinned Revalidation.sampleInput

def pinnedPrepare : Call :=
  ⟨sampleAuth, Revalidation.sampleNow,
    .prepare (prepareBody pinnedPayment) Revalidation.sampleIds⟩

theorem pinned_payment_minted :
    ∃ policy db', revalidate samplePinned pinnedPayment
      Revalidation.sampleNow Revalidation.sampleIds
        (Revalidation.sampleDatabase []) =
          (.ok (Revalidation.minted (Revalidation.newRequest samplePinned
            pinnedPayment policy Revalidation.sampleNow "request-1")
              "reservation-1"), db') := by
  have hplain : Revalidation.Plain samplePinned pinnedPayment
      Revalidation.sampleNow :=
    ⟨by decide +kernel, by decide +kernel, ⟨rfl, rfl⟩, rfl, rfl, rfl, rfl,
      rfl⟩
  have hready : (Revalidation.resolve samplePinned pinnedPayment
      Revalidation.sampleNow (Revalidation.sampleDatabase
        [])).toOption.map Revalidation.Resolved.ready = some true := by
    decide +kernel
  have hamount : Reference.decimal? pinnedPayment.amount = some 10 := by
    decide +kernel
  obtain ⟨state, db', _, _, hrun⟩ :=
    Revalidation.minted_of_plain hplain hready
      (Revalidation.minted_digesting _ ⟨rfl, rfl, rfl, rfl, rfl⟩
        ⟨rfl, rfl, rfl⟩ hamount (by norm_num))
  exact ⟨state.policy, db', hrun⟩

theorem pinned_requests_unsourced :
    (∃ request, request ∈ (run samplePinned [pinnedPrepare]
      (Revalidation.sampleDatabase [])).executionRequests) ∧
    ∀ request ∈ (run samplePinned [pinnedPrepare]
        (Revalidation.sampleDatabase [])).executionRequests,
      ¬ Sourced (run samplePinned [pinnedPrepare]
        (Revalidation.sampleDatabase [])) request := by
  obtain ⟨policy, db', hrun⟩ := pinned_payment_minted
  have hstep : run samplePinned [pinnedPrepare]
      (Revalidation.sampleDatabase []) = db' :=
    step_prepareBody (by decide) rfl hrun rfl
  constructor
  · rw [hstep]
    exact request_of_minted hrun
  · exact no_request_sourced samplePinned_collisionFree rfl rfl
      [pinnedPrepare]

end Api
end Orvex
