import Orvex.Api.Permanence
import Orvex.Audit.Forensics
import Orvex.Integration.CoreClient

/-!
# Relaying over a lossy network

Core serves the relay among other callers.  A request or its answer may be
lost on the way.  Core still serves each request at most once, and what the
relay returns is what Core has recorded, then and later on.
-/

namespace Orvex
namespace CoreClient

open Exchange (World)
open Fallible (Keeps)
open Http (HttpRequest HttpResponse Server Arrival)

/-! ## Core as a peer -/

/-- What happens around one request. -/
structure Passage where
  /-- Calls of others that Core serves first. -/
  before : List Api.Call
  arrives : Bool
  arrival : Arrival
  /-- Calls of others that Core serves before the answer is read. -/
  after : List Api.Call
  returns : Bool
  error : String

structure Site where
  db : Database
  passed : ℕ
  served : List HttpRequest

def core (server : Server) (passages : ℕ → Passage) : Peer Site :=
  fun request site =>
    let passage := passages site.passed
    let db := Api.run server.rt passage.before site.db
    if passage.arrives then
      let outcome := Http.serve server passage.arrival request db
      (if passage.returns then .response outcome.1
        else .httpError passage.error,
        ⟨Api.run server.rt passage.after outcome.2, site.passed + 1,
          site.served ++ [request]⟩)
    else
      (.httpError passage.error,
        ⟨Api.run server.rt passage.after db, site.passed + 1, site.served⟩)

/-! ## A served request is a call -/

theorem run_append (rt : Runtime) (calls more : List Api.Call)
    (db : Database) :
    Api.run rt (calls ++ more) db = Api.run rt more (Api.run rt calls db) :=
  List.foldl_append

/-- Some calls lead from the one state to the other. -/
def Reaches (rt : Runtime) (db db' : Database) : Prop :=
  ∃ calls, db' = Api.run rt calls db

theorem Reaches.refl (rt : Runtime) (db : Database) : Reaches rt db db :=
  ⟨[], rfl⟩

theorem Reaches.trans {rt : Runtime} {db db' db'' : Database}
    (h : Reaches rt db db') (h' : Reaches rt db' db'') :
    Reaches rt db db'' := by
  obtain ⟨calls, hcalls⟩ := h
  obtain ⟨more, hmore⟩ := h'
  exact ⟨calls ++ more, by rw [hmore, hcalls, run_append]⟩

theorem reaches_run (rt : Runtime) (calls : List Api.Call) (db : Database) :
    Reaches rt db (Api.run rt calls db) :=
  ⟨calls, rfl⟩

theorem Reaches.permanent {rt : Runtime} {db db' : Database}
    (h : Reaches rt db db') : Permanent db db' := by
  obtain ⟨calls, hcalls⟩ := h
  rw [hcalls]
  apply Api.run_keeps (permanent_recordsKept db) _ (Permanent.refl db)
  intro input now ids state hstate
  exact hstate.of_ends (Revalidation.revalidate_ends _ input now ids state)

/-- The service leaves the state, or one call has its effect. -/
def OneCall (rt : Runtime) {α : Type} (x : Service α) : Prop :=
  ∀ db, Reaches rt db (x db).2

theorem oneCall_ofOption {rt : Runtime} {α β : Type} (failure : Failure)
    (value : Option α) {k : α → Service β}
    (hk : ∀ a, OneCall rt (k a)) :
    OneCall rt (Fallible.ofOption failure value >>= k) := by
  intro db
  cases value with
  | none => exact Reaches.refl rt db
  | some a => exact hk a db

theorem oneCall_reading {rt : Runtime} {α β : Type}
    (f : Database → Except Failure α) {k : α → Service β}
    (hk : ∀ a, OneCall rt (k a)) : OneCall rt (reading f >>= k) := by
  intro db
  rcases reading_bind_cases f k db with ⟨failure, -, hrun⟩ | ⟨a, -, hrun⟩
  · rw [hrun]
    exact Reaches.refl rt db
  · rw [hrun]
    exact hk a db

/-- The effect of a call with another answer. -/
theorem oneCall_of_call {rt : Runtime} {α β : Type} {x : Service α}
    (call : Api.Call) (hcall : call.perform rt = Api.discard x)
    (f : α → β) : OneCall rt (x >>= fun a => pure (f a)) := by
  intro db
  refine ⟨[call], ?_⟩
  rw [Fallible.bind_pure_state]
  change (x db).2 = (call.perform rt db).2
  rw [hcall, Api.discard_state]

theorem oneCall_handle (server : Server) (arrival : Arrival)
    (auth : Api.AuthContext) (body : Json) (target : Http.Route) :
    OneCall server.rt (Http.handle server arrival auth body target) := by
  cases target with
  | createIntent =>
      apply oneCall_ofOption
      intro intent
      exact oneCall_of_call ⟨auth, 0, .createIntent intent arrival.uuid⟩ rfl _
  | createProposal =>
      apply oneCall_ofOption
      intro proposal
      exact oneCall_of_call ⟨auth, 0, .createProposal proposal arrival.uuid⟩
        rfl _
  | ingestAssessment proposalId =>
      apply oneCall_ofOption
      intro assessment
      exact oneCall_of_call
        ⟨auth, 0, .ingestAssessment proposalId assessment arrival.uuid⟩ rfl _
  | createDecision =>
      apply oneCall_reading
      intro parsed
      exact oneCall_of_call
        ⟨auth, arrival.now, .createDecision parsed arrival.decisionIds⟩ rfl _
  | getDecision decisionId =>
      intro db
      change Reaches server.rt db (Http.readDecision auth decisionId db).2
      unfold Http.readDecision
      rw [Fallible.query_bind]
      cases Decisions.getDecision auth.companyId decisionId db with
      | none => exact Reaches.refl _ db
      | some decision => exact Reaches.refl _ db

theorem oneCall_respond (server : Server) (arrival : Arrival)
    (request : HttpRequest) :
    OneCall server.rt (Http.respond server arrival request) := by
  unfold Http.respond
  cases Http.route request with
  | none => exact fun db => Reaches.refl _ db
  | some target =>
      apply oneCall_reading
      intro auth
      exact oneCall_handle server arrival auth _ target

theorem reaches_serve (server : Server) (arrival : Arrival)
    (request : HttpRequest) (db : Database) :
    Reaches server.rt db (Http.serve server arrival request db).2 := by
  have hstate := oneCall_respond server arrival request db
  unfold Http.serve
  cases hrun : Http.respond server arrival request db with
  | mk result after =>
      rw [hrun] at hstate
      cases result with
      | ok answer => exact hstate
      | error failure => exact hstate

/-- A passage is a run of calls, and serves the request at most once. -/
theorem core_step (server : Server) (passages : ℕ → Passage)
    (request : HttpRequest) (site : Site) :
    let next := (core server passages request site).2
    Reaches server.rt site.db next.db ∧
      (next.served = site.served ∨
        next.served = site.served ++ [request]) := by
  have hbefore := reaches_run server.rt (passages site.passed).before site.db
  simp only [core]
  split
  · refine ⟨?_, Or.inr rfl⟩
    exact (hbefore.trans (reaches_serve server _ request _)).trans
      (reaches_run _ _ _)
  · exact ⟨hbefore.trans (reaches_run _ _ _), Or.inl rfl⟩

/-! ## What an answer says -/

/-- An error of the envelope is raised. -/
theorem envelopeError_ne_ok (text : Text) (status : ℕ) (error data : Json) :
    envelopeError text status error ≠ .ok data := by
  unfold envelopeError
  intro h
  obtain ⟨code, -, h⟩ := Fallible.result_bind_eq_ok.mp h
  obtain ⟨message, -, h⟩ := Fallible.result_bind_eq_ok.mp h
  obtain ⟨details, -, h⟩ := Fallible.result_bind_eq_ok.mp h
  contradiction

/-- Data is read only from the answer of a call that succeeded. -/
theorem serve_data {text : Text} {server : Server} {arrival : Arrival}
    {request : HttpRequest} {db : Database} {data : Json}
    (h : parseEnvelope text (Http.serve server arrival request db).1 =
      .ok data) :
    ∃ status, Http.respond server arrival request db =
      (.ok (status, data), (Http.serve server arrival request db).2) := by
  unfold Http.serve at h ⊢
  cases hrun : Http.respond server arrival request db with
  | mk result after =>
      rw [hrun] at h
      cases result with
      | error failure =>
          exfalso
          have hread : ∀ payload, get (Http.envelope arrival request.headers
              .null payload) "error" .null = .ok payload :=
            fun payload => rfl
          simp only [parseEnvelope, hread, Fallible.result_ok_bind,
            Http.toPayload] at h
          exact envelopeError_ne_ok _ _ _ _ h
      | ok answer =>
          obtain ⟨status, value⟩ := answer
          have hnone : get (Http.envelope arrival request.headers value .null)
              "error" .null = .ok .null := rfl
          have hdata : get (Http.envelope arrival request.headers value .null)
              "data" (.object []) = .ok value := rfl
          simp only [parseEnvelope, hnone, hdata, Fallible.result_ok_bind]
            at h
          split at h
          · contradiction
          · rw [Except.ok.inj h]
            exact ⟨status, rfl⟩

/-- Core served the request, and data was read from its answer. -/
structure Answered (server : Server) (request : HttpRequest) (data : Json)
    (site next : Site) : Prop where
  served : next.served = site.served ++ [request]
  responded : ∃ (arrival : Arrival) (status : ℕ) (db db' : Database),
    Reaches server.rt site.db db ∧ Reaches server.rt db' next.db ∧
      Http.respond server arrival request db = (.ok (status, data), db')

theorem core_answered {text : Text} {server : Server}
    {passages : ℕ → Passage} {request : HttpRequest} {site : Site}
    {resp : HttpResponse} {data : Json}
    (hanswer : (core server passages request site).1 = .response resp)
    (hparse : parseEnvelope text resp = .ok data) :
    Answered server request data site
      (core server passages request site).2 := by
  simp only [core] at hanswer ⊢
  by_cases harrives : (passages site.passed).arrives = true
  · simp only [harrives, if_true] at hanswer ⊢
    by_cases hreturns : (passages site.passed).returns = true
    · simp only [hreturns, if_true, Answer.response.injEq] at hanswer
      rw [← hanswer] at hparse
      obtain ⟨status, hserved⟩ := serve_data hparse
      constructor
      · rfl
      · exact ⟨_, status, _, _, reaches_run _ _ _, reaches_run _ _ _,
          hserved⟩
    · simp [hreturns] at hanswer
  · simp [harrives] at hanswer

theorem raising_eq_ok {σ α : Type} {x : Except ClientError α} {a : α}
    {w w' : World σ HttpRequest Answer} :
    raising x w = (.ok a, w') ↔ x = .ok a ∧ w' = w := by
  cases x with
  | error e => simp [raising]
  | ok value => simp [raising, eq_comm]

theorem raising_bind_eq_ok {σ α β : Type} {x : Except ClientError α}
    {k : α → Client σ β} {b : β} {w w' : World σ HttpRequest Answer}
    (h : (raising x >>= k) w = (.ok b, w')) :
    ∃ a, x = .ok a ∧ k a w = (.ok b, w') := by
  obtain ⟨a, w₀, hx, hk⟩ := Fallible.bind_eq_ok.mp h
  obtain ⟨ha, hw₀⟩ := raising_eq_ok.mp hx
  exact ⟨a, ha, by rw [← hw₀]; exact hk⟩

theorem ask_eq_ok {σ : Type} {peer : Peer σ} {request : HttpRequest}
    {answer : Answer} {w w' : World σ HttpRequest Answer}
    (h : (Exchange.ask peer request : Client σ Answer) w =
      (.ok answer, w')) :
    (peer request w.peer).1 = answer ∧
      w'.peer = (peer request w.peer).2 := by
  rw [Exchange.ask, Prod.mk.injEq, Except.ok.injEq] at h
  exact ⟨h.1, by rw [← h.2]⟩

/-- A request to Core that returned data was answered. -/
theorem post_eq_ok {text : Text} {config : CoreClientConfig}
    {server : Server} {passages : ℕ → Passage} {path : String} {body : Json}
    {ctx : RequestContext} {key : Option String} {data : Json}
    {w w' : World Site HttpRequest Answer}
    (h : post (core server passages) text config path body ctx key w =
      (.ok data, w')) :
    Answered server (postRequest config path body ctx key) data w.peer
      w'.peer := by
  unfold post at h
  rw [attempts] at h
  obtain ⟨answer, next, hask, hrest⟩ := Fallible.bind_eq_ok.mp h
  obtain ⟨hanswer, hnext⟩ := ask_eq_ok hask
  cases answer with
  | httpError error => simp at hrest
  | response resp =>
      obtain ⟨hparse, hstate⟩ := raising_eq_ok.mp hrest
      rw [hstate, hnext]
      exact core_answered hanswer hparse

/-! ## Paths and headers -/

theorem headers_company (config : CoreClientConfig) (ctx : RequestContext)
    (key : Option String) :
    (headers config ctx key).lookup "x-company-id" = some ctx.companyId := rfl

/-- Who is authenticated is the tenant that the client names. -/
theorem authenticate_company {server : Server}
    {headers : List (String × String)} {auth : Api.AuthContext}
    (h : Http.authenticate server headers = .ok auth) :
    headers.lookup "x-company-id" = some auth.companyId := by
  unfold Http.authenticate at h
  obtain ⟨_, -, h⟩ := Fallible.result_bind_eq_ok.mp h
  cases hcompany : headers.lookup "x-company-id" with
  | none => simp [hcompany] at h
  | some companyId =>
      simp only [hcompany] at h
      split at h
      · contradiction
      · rw [← Except.ok.inj h]

/-- What a route made of a request of the client. -/
theorem respond_eq_ok {config : CoreClientConfig} {server : Server}
    {arrival : Arrival} {method : Http.Method} {path : String}
    {body : Option Json} {ctx : RequestContext} {key : Option String}
    {answer : ℕ × Json} {db db' : Database}
    (h : Http.respond server arrival ⟨method, path, headers config ctx key,
      body⟩ db = (.ok answer, db')) :
    ∃ target auth, Http.route ⟨method, path, headers config ctx key, body⟩ =
        some target ∧ auth.companyId = ctx.companyId ∧
      Http.handle server arrival auth (body.getD .null) target db =
        (.ok answer, db') := by
  unfold Http.respond at h
  cases hroute : Http.route ⟨method, path, headers config ctx key, body⟩ with
  | none => simp [hroute] at h
  | some target =>
      simp only [hroute] at h
      obtain ⟨auth, mid, hread, hhandle⟩ := Fallible.bind_eq_ok.mp h
      obtain ⟨hauth, hmid⟩ := reading_eq_ok.mp hread
      have hcompany := authenticate_company hauth
      rw [headers_company, Option.some.injEq] at hcompany
      rw [hmid] at hhandle
      exact ⟨target, auth, rfl, hcompany.symm, hhandle⟩

/-- A path is its parts with slashes between them. -/
theorem segments_join (path : String) :
    ['/'].intercalate ((Http.segments path).map String.toList) =
      path.toList := by
  have hparts : (Http.segments path).map String.toList =
      path.toList.splitOn '/' := by
    simp [Http.segments]
  rw [hparts, List.intercalate_splitOn]

theorem route_intents (headers : List (String × String))
    (body : Option Json) :
    Http.route ⟨.post, "/v1/intents", headers, body⟩ =
      some .createIntent := by
  have hparts : Http.segments "/v1/intents" = ["", "v1", "intents"] := by
    decide
  simp only [Http.route, hparts]

theorem route_proposals (headers : List (String × String))
    (body : Option Json) :
    Http.route ⟨.post, "/v1/proposals", headers, body⟩ =
      some .createProposal := by
  have hparts : Http.segments "/v1/proposals" = ["", "v1", "proposals"] := by
    decide
  simp only [Http.route, hparts]

theorem route_decisions (headers : List (String × String))
    (body : Option Json) :
    Http.route ⟨.post, "/v1/decisions", headers, body⟩ =
      some .createDecision := by
  have hparts : Http.segments "/v1/decisions" = ["", "v1", "decisions"] := by
    decide
  simp only [Http.route, hparts]

/-- A path below the proposals reaches the route of that proposal. -/
theorem route_assessments {headers : List (String × String)}
    {body : Option Json} {proposalRowId : String} {target : Http.Route}
    (h : Http.route ⟨.post, assessmentsPath proposalRowId, headers, body⟩ =
      some target) : target = .ingestAssessment proposalRowId := by
  have hjoin := segments_join (assessmentsPath proposalRowId)
  simp only [Http.route] at h
  split at h
  · rename_i hparts
    rw [hparts] at hjoin
    simp [assessmentsPath, List.intercalate] at hjoin
  · rename_i hparts
    rw [hparts] at hjoin
    simp [assessmentsPath, List.intercalate] at hjoin
  · rename_i hparts
    rw [hparts] at hjoin
    have hlists : ∀ id : String, (assessmentsPath id).toList =
        "/v1/proposals/".toList ++ id.toList ++ "/assessments".toList := by
      intro id
      rw [assessmentsPath, String.toList_append, String.toList_append]
    rename_i proposalId _
    have hsame : ['/'].intercalate (List.map String.toList
        ["", "v1", "proposals", proposalId, "assessments"]) =
          (assessmentsPath proposalId).toList := by
      simp [assessmentsPath, List.intercalate]
    rw [hsame, hlists, hlists] at hjoin
    have hid := List.append_cancel_left (List.append_cancel_right hjoin)
    rw [String.toList_inj.mp hid] at h
    exact (Option.some.inj h).symm
  · rename_i hparts
    rw [hparts] at hjoin
    simp [assessmentsPath, List.intercalate] at hjoin
  · contradiction
  · contradiction

/-! ## What Core recorded -/

theorem grows_mem {ρ γ : Type} {key : ρ → String} {identity : ρ → γ}
    {old new : List ρ} (h : KeyedTable.Grows key identity old new) {row : ρ}
    (hrow : row ∈ old) : ∃ later ∈ new, identity later = identity row := by
  obtain ⟨added, hrows⟩ := h.rows_eq
  have hmem : identity row ∈ new.map identity := by
    rw [hrows]
    exact List.mem_append_left _ (List.mem_map_of_mem hrow)
  exact List.mem_map.mp hmem

theorem postIntents_eq_ok {rt : Runtime} {auth : Api.AuthContext}
    {intent : Intent} {uuid : String} {row : IntentRecord}
    {db db' : Database}
    (h : Api.postIntents rt auth intent uuid db = (.ok row, db')) :
    row ∈ db'.intents ∧ row.companyId = auth.companyId := by
  unfold Api.postIntents Intake.createIntent at h
  rw [Fallible.query_bind] at h
  cases hagent : Agents.getAgent auth.companyId intent.agentId db with
  | none => simp [hagent] at h
  | some agent =>
      simp only [hagent] at h
      obtain ⟨from', _, -, h⟩ := Fallible.bind_eq_ok.mp h
      obtain ⟨until', _, -, h⟩ := Fallible.bind_eq_ok.mp h
      obtain ⟨-, -, hrow, hstate⟩ := Table.create_eq_ok.mp h
      rw [hstate, hrow]
      exact ⟨List.mem_append_right _ List.mem_cons_self, rfl⟩

theorem postProposals_eq_ok {auth : Api.AuthContext}
    {proposal : ActionProposal} {uuid : String} {row : ActionProposalRecord}
    {db db' : Database}
    (h : Api.postProposals auth proposal uuid db = (.ok row, db')) :
    row ∈ db'.proposals ∧ row.companyId = auth.companyId ∧
      row.intentId = proposal.intentId := by
  unfold Api.postProposals Intake.createProposal at h
  rw [Fallible.query_bind] at h
  cases hintent : Intake.findIntent auth.companyId proposal.intentId db with
  | none => simp [hintent] at h
  | some intent =>
      simp only [hintent] at h
      split at h
      · simp at h
      · obtain ⟨-, -, hrow, hstate⟩ := Table.create_eq_ok.mp h
        rw [hstate, hrow]
        exact ⟨List.mem_append_right _ List.mem_cons_self, rfl, rfl⟩

theorem postAssessments_eq_ok {rt : Runtime} {auth : Api.AuthContext}
    {proposalId uuid : String} {assessment : SecurityAssessment}
    {row : SecurityAssessmentRecord} {db db' : Database}
    (h : Api.postAssessments rt auth proposalId assessment uuid db =
      (.ok row, db')) :
    row ∈ db'.securityAssessments ∧ row.companyId = auth.companyId ∧
      row.proposalId = proposalId := by
  unfold Api.postAssessments Intake.ingestAssessment at h
  rw [Fallible.query_bind] at h
  cases hproposal : Intake.findProposal auth.companyId proposalId db with
  | none => simp [hproposal] at h
  | some proposal =>
      simp only [hproposal] at h
      obtain ⟨-, -, hrow, hstate⟩ := Table.create_eq_ok.mp h
      rw [hstate, hrow]
      exact ⟨List.mem_append_right _ List.mem_cons_self, rfl, rfl⟩

/-- A decision of the answer can be read, and a review has its request. -/
structure Decided (companyId agentId : String)
    (response : Api.DecisionResponse) (db : Database) : Prop where
  row : Decisions.getDecision companyId response.decision.id db =
    some response.decision
  agent : response.decision.agentId = agentId
  result : response.decision.result = response.result
  hash : response.decision.decisionContextHash = response.contextHash
  review : response.result = .review ↔ response.approvalId.isSome = true
  approval : ∀ id, response.approvalId = some id →
    ∃ request ∈ db.approvalRequests, request.id = id ∧
      request.decisionId = response.decision.id

theorem postDecisions_decided {rt : Runtime} {auth : Api.AuthContext}
    {body : Api.DecisionBody} {now : ℤ} {ids : Api.DecisionIds}
    {response : Api.DecisionResponse} {db db' : Database}
    (h : Api.postDecisions rt auth body now ids db = (.ok response, db')) :
    Decided auth.companyId body.agentId response db' := by
  obtain ⟨context, mid, hrecorded, hresult, hhash, happroval⟩ :=
    Api.postDecisions_eq_ok h
  have hdecision := hrecorded.decision_eq
  have hnew : db.decisions.find? (fun decision =>
      decide (decision.id = response.decision.id ∧
        decision.companyId = auth.companyId)) = none := by
    rw [List.find?_eq_none]
    intro row hrow
    have hother := KeyedTable.lookup_eq_none_iff.mp hrecorded.decision_new
    have hid : response.decision.id = ids.decision := by rw [hdecision]; rfl
    rw [hid, decide_eq_true_eq]
    exact fun hsame => hother (List.mem_map.mpr ⟨row, hrow, hsame.1⟩)
  have hread : Decisions.getDecision auth.companyId response.decision.id mid =
      some response.decision := by
    rw [hrecorded.written]
    have hcompany : response.decision.companyId = auth.companyId := by
      rw [hdecision]
      rfl
    simp only [Decisions.getDecision, Table.find, Table.rows_insert]
    rw [List.find?_append, show decisionTable.rows db = db.decisions from rfl,
      hnew]
    simp [hcompany]
  have hresultEq : response.decision.result = response.result := by
    rw [hresult, hdecision]
    rfl
  have hagent : response.decision.agentId = body.agentId := by
    rw [hdecision]
    rfl
  have hhashEq : response.decision.decisionContextHash =
      response.contextHash := by
    rw [hhash, hdecision]
    rfl
  unfold Api.requestApproval at happroval
  by_cases hreview :
      (Api.decisionOutput body context.policyEvaluation).result = .review
  · rw [if_pos hreview] at happroval
    obtain ⟨request, after, hrequest, hdone⟩ := Fallible.bind_eq_ok.mp happroval
    rw [Fallible.pure_apply, Prod.mk.injEq, Except.ok.injEq] at hdone
    obtain ⟨hid, hstate⟩ := hdone
    subst hstate
    obtain ⟨-, -, -, hrow, hwritten⟩ :=
      Approvals.createRequest_eq_ok.mp hrequest
    refine ⟨?_, hagent, hresultEq, hhashEq, ?_, ?_⟩
    · rw [hwritten]
      exact hread
    · rw [← hid, hresult, hreview]
      simp
    · intro id happrovalId
      rw [← hid, Option.some.injEq] at happrovalId
      refine ⟨request, ?_, happrovalId, ?_⟩
      · rw [hwritten]
        exact List.mem_append_right _ List.mem_cons_self
      · rw [hrow]
        rfl
  · rw [if_neg hreview, Fallible.pure_apply, Prod.mk.injEq,
      Except.ok.injEq] at happroval
    obtain ⟨hid, hstate⟩ := happroval
    subst hstate
    refine ⟨hread, hagent, hresultEq, hhashEq, ?_, ?_⟩
    · rw [← hid, hresult]
      simp [hreview]
    · intro id happrovalId
      rw [← hid] at happrovalId
      contradiction

/-! ## The rows that the relay returns -/

def IntentRecorded (companyId id : String) (db : Database) : Prop :=
  ∃ row ∈ db.intents, row.id = id ∧ row.companyId = companyId

def ProposalRecorded (companyId id intentId : String) (db : Database) :
    Prop :=
  ∃ row ∈ db.proposals, row.id = id ∧ row.companyId = companyId ∧
    row.intentId = intentId

def AssessmentRecorded (companyId id proposalId : String) (db : Database) :
    Prop :=
  ∃ row ∈ db.securityAssessments, row.id = id ∧ row.companyId = companyId ∧
    row.proposalId = proposalId

/-- Core reads the decision back as it was returned, and a review waits for
the approval that it names. -/
structure DecisionRecorded (companyId agentId : String)
    (decision : CoreDecision) (db : Database) : Prop where
  row : ∃ row, Decisions.getDecision companyId decision.decisionId db =
      some row ∧ row.agentId = agentId ∧
    Http.resultText row.result = decision.result ∧
    row.decisionContextHash = decision.contextHash
  approval : (decision.result = "REVIEW" ∧
      ∃ request ∈ db.approvalRequests,
        decision.approvalId = .string request.id ∧
          request.decisionId = decision.decisionId) ∨
    (decision.result ≠ "REVIEW" ∧ decision.approvalId = .null)

section

variable {db db' : Database} (h : Permanent db db')

include h

theorem IntentRecorded.later {companyId named : String}
    (hrow : IntentRecorded companyId named db) :
    IntentRecorded companyId named db' := by
  obtain ⟨row, hmem, hcolumns⟩ := hrow
  obtain ⟨later, hlater, hsame⟩ := grows_mem h.intents hmem
  exact ⟨later, hlater, by rw [id, id] at hsame; rwa [hsame]⟩

theorem ProposalRecorded.later {companyId named intentId : String}
    (hrow : ProposalRecorded companyId named intentId db) :
    ProposalRecorded companyId named intentId db' := by
  obtain ⟨row, hmem, hcolumns⟩ := hrow
  obtain ⟨later, hlater, hsame⟩ := grows_mem h.proposals hmem
  exact ⟨later, hlater, by rw [id, id] at hsame; rwa [hsame]⟩

theorem AssessmentRecorded.later {companyId named proposalId : String}
    (hrow : AssessmentRecorded companyId named proposalId db) :
    AssessmentRecorded companyId named proposalId db' := by
  obtain ⟨row, hmem, hcolumns⟩ := hrow
  obtain ⟨later, hlater, hsame⟩ := grows_mem h.assessments hmem
  exact ⟨later, hlater, by rw [id, id] at hsame; rwa [hsame]⟩

theorem DecisionRecorded.later {companyId agentId : String}
    {decision : CoreDecision}
    (hrow : DecisionRecorded companyId agentId decision db) :
    DecisionRecorded companyId agentId decision db' := by
  obtain ⟨row, hread, hcolumns⟩ := hrow.row
  constructor
  · exact ⟨row, Forensics.getDecision_again h hread, hcolumns⟩
  · apply hrow.approval.imp_left
    rintro ⟨hreview, request, hmem, hid, hdecision⟩
    obtain ⟨later, hlater, hsame⟩ := grows_mem h.approvalRequests hmem
    have hlaterId := congrArg ApprovalRequest.id hsame
    have hlaterDecision := congrArg ApprovalRequest.decisionId hsame
    simp only [ApprovalRequest.identity] at hlaterId hlaterDecision
    refine ⟨hreview, later, hlater, ?_, ?_⟩
    · rw [hid, hlaterId]
    · rw [hlaterDecision, hdecision]

end

theorem lookup_withField (key : String) (value : Json)
    (fields : List (String × Json)) :
    (withField key value fields).lookup key = some value := by
  induction fields with
  | nil => simp [withField]
  | cons field rest ih =>
      by_cases hkey : field.1 = key
      · simp [withField, hkey]
      · have hother : (key == field.1) = false := by
          simpa using fun hsame => hkey hsame.symm
        rw [withField, if_neg hkey, List.lookup_cons, hother]
        exact ih

theorem resultText_review {result : DecisionResult} :
    Http.resultText result = "REVIEW" ↔ result = .review := by
  cases result <;> simp [Http.resultText]

/-- The client reads the decision from the answer. -/
theorem coreDecision_response (text : Text) (response : Api.DecisionResponse) :
    coreDecision text (Http.responseData response) =
      .ok
        { decisionId := response.decision.id
          result := Http.resultText response.result
          contextHash := response.contextHash
          approvalId := (response.approvalId.map .string).getD .null
          raw := Http.responseData response } := by
  obtain ⟨decision, result, contextHash, approvalId⟩ := response
  cases approvalId <;> rfl

theorem decisionBody_agent {contracts : Http.Contracts} {agentId : String}
    {intent proposal assessment : Json} {traceId : Option String}
    {parsed : Api.DecisionBody}
    (h : Http.decisionBody contracts (decisionRequestBody agentId intent
      proposal assessment traceId) = .ok parsed) :
    parsed.agentId = agentId := by
  unfold Http.decisionBody at h
  obtain ⟨_, -, h⟩ := Fallible.result_bind_eq_ok.mp h
  obtain ⟨_, -, h⟩ := Fallible.result_bind_eq_ok.mp h
  obtain ⟨_, -, h⟩ := Fallible.result_bind_eq_ok.mp h
  obtain ⟨named, hnamed, h⟩ := Fallible.result_bind_eq_ok.mp h
  obtain ⟨_, -, h⟩ := Fallible.result_bind_eq_ok.mp h
  have hagent : Http.textField "agent_id" (decisionRequestBody agentId intent
      proposal assessment traceId) = .ok agentId := rfl
  rw [hagent] at hnamed
  rw [← Except.ok.inj h]
  exact (Except.ok.inj hnamed).symm

section

variable {text : Text} {config : CoreClientConfig} {server : Server}
  {passages : ℕ → Passage} {ctx : RequestContext}
  {w w' : World Site HttpRequest Answer}

/-- What a request that returned data was answered with, by its route. -/
theorem Answered.handled {method : Http.Method} {path : String}
    {body : Option Json} {key : Option String} {data : Json}
    {site next : Site}
    (h : Answered server ⟨method, path, headers config ctx key, body⟩ data
      site next) :
    ∃ target auth arrival status db db',
      Http.route ⟨method, path, headers config ctx key, body⟩ =
          some target ∧
        auth.companyId = ctx.companyId ∧
        Http.handle server arrival auth (body.getD .null) target db =
          (.ok (status, data), db') ∧
        Permanent db' next.db := by
  obtain ⟨arrival, status, db, db', -, hafter, hrespond⟩ := h.responded
  obtain ⟨target, auth, hroute, hcompany, hhandle⟩ := respond_eq_ok hrespond
  exact ⟨target, auth, arrival, status, db, db', hroute, hcompany, hhandle,
    hafter.permanent⟩

theorem createIntent_recorded {intent data : Json}
    (h : createIntent (core server passages) text config ctx intent w =
      (.ok data, w')) :
    ∃ id, rowId text data = .ok id ∧
      IntentRecorded ctx.companyId id w'.peer.db := by
  obtain ⟨target, auth, arrival, status, db, db', hroute, hcompany, hhandle,
    hlater⟩ := (post_eq_ok h).handled
  rw [route_intents, Option.some.injEq] at hroute
  subst hroute
  obtain ⟨parsed, _, -, hhandle⟩ := Fallible.bind_eq_ok.mp hhandle
  obtain ⟨row, _, hrow, hanswer⟩ := Fallible.bind_eq_ok.mp hhandle
  simp only [Fallible.pure_apply, Prod.mk.injEq, Except.ok.injEq] at hanswer
  obtain ⟨⟨-, hdata⟩, hstate⟩ := hanswer
  obtain ⟨hmem, hrowCompany⟩ := postIntents_eq_ok hrow
  refine ⟨row.id, by rw [← hdata]; rfl, ?_⟩
  apply IntentRecorded.later hlater
  rw [← hstate]
  exact ⟨row, hmem, rfl, hrowCompany.trans hcompany⟩

theorem createProposal_recorded (hlawful : server.contracts.Lawful)
    {intentRowId : String} {fields : List (String × Json)} {data : Json}
    (h : createProposal (core server passages) text config ctx
      (.object (withField "intent_id" (.string intentRowId) fields)) w =
        (.ok data, w')) :
    ∃ id, rowId text data = .ok id ∧
      ProposalRecorded ctx.companyId id intentRowId w'.peer.db := by
  obtain ⟨target, auth, arrival, status, db, db', hroute, hcompany, hhandle,
    hlater⟩ := (post_eq_ok h).handled
  rw [route_proposals, Option.some.injEq] at hroute
  subst hroute
  obtain ⟨parsed, _, hparsed, hhandle⟩ := Fallible.bind_eq_ok.mp hhandle
  obtain ⟨row, _, hrow, hanswer⟩ := Fallible.bind_eq_ok.mp hhandle
  simp only [Fallible.pure_apply, Prod.mk.injEq, Except.ok.injEq] at hanswer
  obtain ⟨⟨-, hdata⟩, hstate⟩ := hanswer
  obtain ⟨hmem, hrowCompany, hrowIntent⟩ := postProposals_eq_ok hrow
  have hfield := hlawful.proposalIntent (Fallible.ofOption_eq_ok.mp hparsed).1
  have hintent : Http.field "intent_id" (.object (withField "intent_id"
      (.string intentRowId) fields)) = some (.string intentRowId) :=
    lookup_withField _ _ _
  rw [Option.getD_some, hintent, Option.some.injEq,
    JsonText.Value.string.injEq] at hfield
  refine ⟨row.id, by rw [← hdata]; rfl, ?_⟩
  apply ProposalRecorded.later hlater
  rw [← hstate]
  exact ⟨row, hmem, rfl, hrowCompany.trans hcompany,
    hrowIntent.trans hfield.symm⟩

theorem submitSecurityAssessment_recorded {proposalRowId : String}
    {assessment data : Json}
    (h : submitSecurityAssessment (core server passages) text config ctx
      proposalRowId assessment w = (.ok data, w')) :
    ∃ id, rowId text data = .ok id ∧
      AssessmentRecorded ctx.companyId id proposalRowId w'.peer.db := by
  obtain ⟨target, auth, arrival, status, db, db', hroute, hcompany, hhandle,
    hlater⟩ := (post_eq_ok h).handled
  have htarget := route_assessments hroute
  subst htarget
  obtain ⟨parsed, _, -, hhandle⟩ := Fallible.bind_eq_ok.mp hhandle
  obtain ⟨row, _, hrow, hanswer⟩ := Fallible.bind_eq_ok.mp hhandle
  simp only [Fallible.pure_apply, Prod.mk.injEq, Except.ok.injEq] at hanswer
  obtain ⟨⟨-, hdata⟩, hstate⟩ := hanswer
  obtain ⟨hmem, hrowCompany, hrowProposal⟩ := postAssessments_eq_ok hrow
  refine ⟨row.id, by rw [← hdata]; rfl, ?_⟩
  apply AssessmentRecorded.later hlater
  rw [← hstate]
  exact ⟨row, hmem, rfl, hrowCompany.trans hcompany, hrowProposal⟩

theorem requestDecision_recorded {agentId : String}
    {intent proposal assessment : Json} {traceId : Option String}
    {decision : CoreDecision}
    (h : requestDecision (core server passages) text config ctx agentId intent
      proposal assessment traceId w = (.ok decision, w')) :
    DecisionRecorded ctx.companyId agentId decision w'.peer.db := by
  obtain ⟨data, next, hpost, hread⟩ := Fallible.bind_eq_ok.mp h
  obtain ⟨hdecision, hnext⟩ := raising_eq_ok.mp hread
  obtain ⟨target, auth, arrival, status, db, db', hroute, hcompany, hhandle,
    hlater⟩ := (post_eq_ok hpost).handled
  rw [route_decisions, Option.some.injEq] at hroute
  subst hroute
  obtain ⟨parsed, mid, hparsed, hhandle⟩ := Fallible.bind_eq_ok.mp hhandle
  obtain ⟨response, _, hresponse, hanswer⟩ := Fallible.bind_eq_ok.mp hhandle
  simp only [Fallible.pure_apply, Prod.mk.injEq, Except.ok.injEq] at hanswer
  obtain ⟨⟨-, hdata⟩, hstate⟩ := hanswer
  obtain ⟨hbody, -⟩ := reading_eq_ok.mp hparsed
  rw [Option.getD_some] at hbody
  have hagent := decisionBody_agent hbody
  have hdecided := postDecisions_decided hresponse
  rw [hstate] at hdecided
  rw [← hdata, coreDecision_response, Except.ok.injEq] at hdecision
  rw [hnext]
  apply DecisionRecorded.later hlater
  rw [← hdecision]
  constructor
  · refine ⟨response.decision, ?_, ?_, ?_, hdecided.hash⟩
    · rw [← hcompany]
      exact hdecided.row
    · rw [hdecided.agent, hagent]
    · simp only [hdecided.result]
  · simp only [resultText_review, ne_eq]
    by_cases hreview : response.result = .review
    · left
      obtain ⟨id, hid⟩ := Option.isSome_iff_exists.mp
        (hdecided.review.mp hreview)
      obtain ⟨request, hmem, hrequest, hbound⟩ := hdecided.approval id hid
      refine ⟨hreview, request, hmem, ?_, hbound⟩
      rw [hid, hrequest]
      rfl
    · right
      refine ⟨hreview, ?_⟩
      have hnone : response.approvalId = none := by
        by_contra hsome
        exact hreview (hdecided.review.mpr
          (Option.isSome_iff_ne_none.mpr hsome))
      rw [hnone]
      rfl

end

/-! ## The whole relay -/

section

variable {σ : Type} {inv : World σ HttpRequest Answer → Prop} {peer : Peer σ}
  {text : Text} {config : CoreClientConfig}

theorem keeps_raising {α : Type} (x : Except ClientError α) :
    Keeps inv (raising x : Client σ α) := by
  cases x with
  | error e => exact Fallible.keeps_fail e
  | ok a => exact Fallible.keeps_pure a

theorem keeps_attempts (hask : ∀ request,
      Keeps inv (Exchange.ask peer request : Client σ Answer))
    (request : HttpRequest) (retryable : Bool) (left : ℕ) :
    Keeps inv (attempts peer text request retryable left) := by
  induction left with
  | zero => exact Fallible.keeps_fail _
  | succ left ih =>
      rw [attempts]
      apply (hask request).bind
      intro answer
      cases answer with
      | httpError error =>
          simp only
          split
          · exact ih
          · exact Fallible.keeps_fail _
      | response resp => exact keeps_raising _

/-- What every request keeps, the relay keeps. -/
theorem keeps_run (hask : ∀ request,
      Keeps inv (Exchange.ask peer request : Client σ Answer))
    (call : RelayCall) : Keeps inv (run peer text config call) := by
  have hpost : ∀ path body ctx key,
      Keeps inv (post peer text config path body ctx key) :=
    fun path body ctx key => keeps_attempts hask _ _ _
  unfold run
  refine Keeps.bind (keeps_raising _) (fun intent => ?_)
  refine Keeps.bind (keeps_raising _) (fun proposal => ?_)
  refine Keeps.bind (keeps_raising _) (fun assessment => ?_)
  refine Keeps.bind (hpost _ _ _ _) (fun intentRow => ?_)
  refine Keeps.bind (keeps_raising _) (fun intentRowId => ?_)
  refine Keeps.bind (hpost _ _ _ _) (fun proposalRow => ?_)
  refine Keeps.bind (keeps_raising _) (fun proposalRowId => ?_)
  refine Keeps.bind (hpost _ _ _ _) (fun assessmentRow => ?_)
  refine Keeps.bind (keeps_raising _) (fun assessmentRowId => ?_)
  refine Keeps.bind (Keeps.bind (hpost _ _ _ _)
    (fun _ => keeps_raising _)) (fun decision => ?_)
  exact Fallible.keeps_pure _

end

/-- What a relay returned, as Core has it. -/
structure RelayRecorded (call : RelayCall) (r : OrchestrationResult)
    (db : Database) : Prop where
  intent : IntentRecorded call.ctx.companyId r.intentRowId db
  proposal : ProposalRecorded call.ctx.companyId r.proposalRowId
    r.intentRowId db
  assessment : AssessmentRecorded call.ctx.companyId r.assessmentRowId
    r.proposalRowId db
  decision : DecisionRecorded call.ctx.companyId call.agentId r.decision db

theorem RelayRecorded.later {call : RelayCall} {r : OrchestrationResult}
    {db db' : Database} (hrecorded : RelayRecorded call r db)
    (h : Permanent db db') : RelayRecorded call r db' where
  intent := hrecorded.intent.later h
  proposal := hrecorded.proposal.later h
  assessment := hrecorded.assessment.later h
  decision := hrecorded.decision.later h

section

variable {server : Server} {passages : ℕ → Passage} {text : Text}
  {config : CoreClientConfig} {ctx : RequestContext}
  {w w' : World Site HttpRequest Answer}

theorem Answered.permanent {request : HttpRequest} {data : Json}
    {site next : Site} (h : Answered server request data site next) :
    Permanent site.db next.db := by
  obtain ⟨arrival, status, db, db', hbefore, hafter, hrespond⟩ := h.responded
  have hcall := oneCall_respond server arrival request db
  rw [hrespond] at hcall
  exact ((hbefore.trans hcall).trans hafter).permanent

theorem requestDecision_answered {agentId : String}
    {intent proposal assessment : Json} {traceId : Option String}
    {decision : CoreDecision}
    (h : requestDecision (core server passages) text config ctx agentId intent
      proposal assessment traceId w = (.ok decision, w')) :
    ∃ data, Answered server (postRequest config "/v1/decisions"
      (decisionRequestBody agentId intent proposal assessment traceId) ctx
      none) data w.peer w'.peer := by
  obtain ⟨data, next, hpost, hread⟩ := Fallible.bind_eq_ok.mp h
  rw [(raising_eq_ok.mp hread).2]
  exact ⟨data, post_eq_ok hpost⟩

/-- A relay that returns has had its four requests served, one after the
other, and its rows recorded. -/
theorem run_eq_ok (hlawful : server.contracts.Lawful) {call : RelayCall}
    {r : OrchestrationResult}
    (h : run (core server passages) text config call w = (.ok r, w')) :
    RelayRecorded call r w'.peer.db ∧
      w'.peer.served = w.peer.served ++
        relayRequests config call r.intentRowId r.proposalRowId := by
  unfold run at h
  obtain ⟨intent, hintent, h⟩ := raising_bind_eq_ok h
  obtain ⟨proposal, hproposal, h⟩ := raising_bind_eq_ok h
  obtain ⟨assessment, hassessment, h⟩ := raising_bind_eq_ok h
  rw [toDict_eq_ok] at hintent hproposal hassessment
  -- the intent
  obtain ⟨intentRow, s₁, hcreate, h⟩ := Fallible.bind_eq_ok.mp h
  obtain ⟨intentRowId, hintentId, h⟩ := raising_bind_eq_ok h
  have hfirst := post_eq_ok hcreate
  obtain ⟨named, hnamed, hintentRow⟩ := createIntent_recorded hcreate
  rw [hnamed, Except.ok.injEq] at hintentId
  subst hintentId
  -- the proposal
  obtain ⟨proposalRow, s₂, hcreate, h⟩ := Fallible.bind_eq_ok.mp h
  obtain ⟨proposalRowId, hproposalId, h⟩ := raising_bind_eq_ok h
  have hsecond := post_eq_ok hcreate
  obtain ⟨named, hnamed, hproposalRow⟩ :=
    createProposal_recorded hlawful hcreate
  rw [hnamed, Except.ok.injEq] at hproposalId
  subst hproposalId
  -- the assessment
  obtain ⟨assessmentRow, s₃, hsubmit, h⟩ := Fallible.bind_eq_ok.mp h
  obtain ⟨assessmentRowId, hassessmentId, h⟩ := raising_bind_eq_ok h
  have hthird := post_eq_ok hsubmit
  obtain ⟨named, hnamed, hassessmentRow⟩ :=
    submitSecurityAssessment_recorded hsubmit
  rw [hnamed, Except.ok.injEq] at hassessmentId
  subst hassessmentId
  -- the decision
  obtain ⟨decision, s₄, hdecide, h⟩ := Fallible.bind_eq_ok.mp h
  rw [Fallible.pure_apply, Prod.mk.injEq, Except.ok.injEq] at h
  obtain ⟨hr, hw'⟩ := h
  subst hr hw'
  obtain ⟨data, hfourth⟩ := requestDecision_answered hdecide
  have hdecisionRow := requestDecision_recorded hdecide
  constructor
  · constructor
    · exact ((hintentRow.later hsecond.permanent).later
        hthird.permanent).later hfourth.permanent
    · exact (hproposalRow.later hthird.permanent).later hfourth.permanent
    · exact hassessmentRow.later hfourth.permanent
    · exact hdecisionRow
  · rw [hfourth.served, hthird.served, hsecond.served, hfirst.served]
    simp [relayRequests, hintent, hproposal, hassessment, fieldsOf]

end

/-- Over a network that loses requests and answers, and among any calls of
others, Core serves the requests of a relay in their order and each at most
once, and what the relay returns is recorded. -/
theorem relay_recorded (server : Server) (hlawful : server.contracts.Lawful)
    (passages : ℕ → Passage) (text : Text) (config : CoreClientConfig)
    (call : RelayCall) (db : Database) :
    let outcome := run (core server passages) text config call
      ⟨⟨db, 0, []⟩, []⟩
    let site := outcome.2.peer
    Reaches server.rt db site.db ∧
      (∃ intentRowId proposalRowId, List.Sublist site.served
        (relayRequests config call intentRowId proposalRowId)) ∧
      ∀ r, outcome.1 = .ok r → RelayRecorded call r site.db ∧
        site.served =
          relayRequests config call r.intentRowId r.proposalRowId := by
  have hkept : Keeps (fun w : World Site HttpRequest Answer =>
      Reaches server.rt db w.peer.db ∧
        List.Sublist w.peer.served w.sent)
      (run (core server passages) text config call) := by
    apply keeps_run
    apply Exchange.keeps_ask
    rintro request w ⟨hreaches, hserved⟩
    obtain ⟨hstep, hlog⟩ := core_step server passages request w.peer
    refine ⟨hreaches.trans hstep, ?_⟩
    rcases hlog with hlog | hlog
    · simp only [hlog, World.sent, List.map_append]
      exact hserved.trans (List.sublist_append_left _ _)
    · simp only [hlog, World.sent, List.map_append]
      exact hserved.append_right _
  obtain ⟨hreaches, hserved⟩ := hkept ⟨⟨db, 0, []⟩, []⟩
    ⟨Reaches.refl _ db, List.Sublist.refl _⟩
  obtain ⟨requests, hsent, ⟨intentRowId, proposalRowId, hprefix⟩, -⟩ :=
    (@run_sends _ (core server passages) text config call).sent
      ⟨⟨db, 0, []⟩, []⟩
  rw [hsent] at hserved
  refine ⟨hreaches, ⟨intentRowId, proposalRowId,
    hserved.trans hprefix.sublist⟩, ?_⟩
  intro r hr
  have hrun : run (core server passages) text config call
      ⟨⟨db, 0, []⟩, []⟩ = (.ok r, (run (core server passages) text config
        call ⟨⟨db, 0, []⟩, []⟩).2) := by
    rw [← hr]
  obtain ⟨hrecorded, hall⟩ := run_eq_ok hlawful hrun
  exact ⟨hrecorded, hall⟩

/-- Bodies that name their intent are read as the sample contracts. -/
def sampleContracts : Http.Contracts where
  intent _ := some Revalidation.sampleIntent
  actionProposal body :=
    match Http.field "intent_id" body with
    | some (.string intentId) =>
        some { Revalidation.sampleProposal with intentId := intentId }
    | _ => none
  securityAssessment _ := some Revalidation.sampleAssessment

theorem sampleContracts_lawful : sampleContracts.Lawful := by
  constructor
  intro body proposal h
  simp only [sampleContracts] at h
  split at h
  · rename_i intentId hfield
    rw [← Option.some.inj h]
    exact hfield
  · contradiction

def sampleServer : Server where
  rt := .reference
  config := ⟨.localhost, none⟩
  contracts := sampleContracts
  scrubber := Logging.sampleScrubber
  withoutBearer := id

/-- Nothing is lost; the database names the rows in turn. -/
def samplePassages (n : ℕ) : Passage where
  before := []
  arrives := true
  arrival :=
    { now := Revalidation.sampleNow
      requestId := "request-1"
      correlationId := "correlation-1"
      uuid := ["intent-row", "proposal-row", "assessment-row"].getD n ""
      decisionIds := ⟨"decision-1", "approval-1"⟩ }
  after := []
  returns := true
  error := ""

def sampleConfig : CoreClientConfig := ⟨none, 2, "SERVICE"⟩

def sampleCall : RelayCall where
  ctx := ⟨"acme", "ai-service", "correlation-1"⟩
  agentId := "agent-1"
  intent := .object []
  proposal := .object [("intent_id", .string "intent-1")]
  securityAssessment := .object []
  traceId := none

abbrev sampleWorld : World Site HttpRequest Answer :=
  ⟨⟨Revalidation.sampleDatabase [], 0, []⟩, []⟩

theorem sample_relay_recorded :
    ∃ r, (run (core sampleServer samplePassages) (fun _ => "") sampleConfig
        sampleCall sampleWorld).1 = .ok r ∧
      r.decision.result = "ALLOW" ∧
      RelayRecorded sampleCall r (run (core sampleServer samplePassages)
        (fun _ => "") sampleConfig sampleCall sampleWorld).2.peer.db := by
  have hvalue : (run (core sampleServer samplePassages) (fun _ => "")
      sampleConfig sampleCall sampleWorld).1.toOption.map
        (fun r => r.decision.result) = some "ALLOW" := by
    decide +kernel
  have hrecorded := (relay_recorded sampleServer sampleContracts_lawful
    samplePassages (fun _ => "") sampleConfig sampleCall
    (Revalidation.sampleDatabase [])).2.2
  generalize run (core sampleServer samplePassages) (fun _ => "")
    sampleConfig sampleCall sampleWorld = outcome at hvalue hrecorded ⊢
  obtain ⟨r, hsome, hallow⟩ := Option.map_eq_some_iff.mp hvalue
  have hresult : outcome.1 = .ok r := by
    cases hcase : outcome.1 with
    | error e =>
        rw [hcase] at hsome
        contradiction
    | ok value =>
        rw [hcase] at hsome
        rw [Option.some.inj hsome]
  exact ⟨r, hresult, hallow, (hrecorded r hresult).1⟩

/-! ## Reading the decision later -/

/-- The request or its answer is lost. -/
def Passage.Lost (passage : Passage) : Prop :=
  ¬ (passage.arrives = true ∧ passage.returns = true)

theorem segments_decision {decisionId : String}
    (h : '/' ∉ decisionId.toList) :
    Http.segments (decisionPath decisionId) =
      ["", "v1", "decisions", decisionId] := by
  have hpath : (decisionPath decisionId).toList = ['/'].intercalate
      (["", "v1", "decisions", decisionId].map String.toList) := by
    simp [decisionPath, List.intercalate]
  have hparts : ∀ part ∈ ["", "v1", "decisions", decisionId].map
      String.toList, '/' ∉ part := by
    intro part hpart
    simp only [List.map_cons, List.map_nil, List.mem_cons, List.not_mem_nil,
      or_false] at hpart
    rcases hpart with hpart | hpart | hpart | hpart
    · simp [hpart]
    · simp [hpart]
    · simp [hpart]
    · rw [hpart]
      exact h
  rw [Http.segments, hpath, List.splitOn_intercalate _ hparts (by simp)]
  simp

theorem serve_of_respond {text : Text} {server : Server} {arrival : Arrival}
    {request : HttpRequest} {db db' : Database} {data : Json}
    (h : Http.respond server arrival request db = (.ok (200, data), db')) :
    parseEnvelope text (Http.serve server arrival request db).1 = .ok data ∧
      (Http.serve server arrival request db).2 = db' := by
  unfold Http.serve
  rw [h]
  exact ⟨rfl, rfl⟩

theorem core_lost {server : Server} {passages : ℕ → Passage}
    {request : HttpRequest} {site : Site} (h : (passages site.passed).Lost) :
    (core server passages request site).1 =
      .httpError (passages site.passed).error := by
  simp only [core]
  by_cases harrives : (passages site.passed).arrives = true
  · have hreturns : ¬ (passages site.passed).returns = true :=
      fun hreturns => h ⟨harrives, hreturns⟩
    simp [harrives, hreturns]
  · simp [harrives]

theorem core_passed (server : Server) (passages : ℕ → Passage)
    (request : HttpRequest) (site : Site) :
    (core server passages request site).2.passed = site.passed + 1 := by
  simp only [core]
  split
  · rfl
  · rfl

/-- A request that Core always answers with the same data returns it, unless
every attempt is lost. -/
theorem attempts_settled {server : Server} {passages : ℕ → Passage}
    {text : Text} {request : HttpRequest} {start : Database} {data : Json}
    (hsettled : ∀ arrival db, Reaches server.rt start db →
      Http.respond server arrival request db = (.ok (200, data), db))
    (left : ℕ) (w : World Site HttpRequest Answer)
    (hw : Reaches server.rt start w.peer.db) :
    match (attempts (core server passages) text request true left w).1 with
    | .ok value => value = data
    | .error _ => ∀ i < left, (passages (w.peer.passed + i)).Lost := by
  induction left generalizing w with
  | zero =>
      intro i hi
      omega
  | succ left ih =>
      have hask : (Exchange.ask (core server passages) request :
          Client Site Answer) w = (.ok (core server passages request w.peer).1,
            ⟨(core server passages request w.peer).2, w.log ++
              [(request, (core server passages request w.peer).1)]⟩) := rfl
      rw [attempts, Fallible.bind_of_ok hask]
      by_cases hlost : (passages w.peer.passed).Lost
      · -- the attempts that are left decide
        rw [core_lost hlost]
        by_cases hagain : 0 < left
        · simp only [hagain, and_self, if_true]
          have hnext := ih ⟨(core server passages request w.peer).2,
              w.log ++ [(request, .httpError
                (passages w.peer.passed).error)]⟩
            (hw.trans (core_step server passages request w.peer).1)
          rw [core_passed] at hnext
          cases hrun : (attempts (core server passages) text request true left
              ⟨(core server passages request w.peer).2,
                w.log ++ [(request, .httpError
                  (passages w.peer.passed).error)]⟩).1 with
          | ok value =>
              rw [hrun] at hnext
              exact hnext
          | error e =>
              rw [hrun] at hnext
              intro i hi
              cases i with
              | zero => exact hlost
              | succ i =>
                  have hrest := hnext i (by omega)
                  rw [Nat.add_assoc, Nat.add_comm 1 i] at hrest
                  exact hrest
        · simp only [hagain, and_false, if_false]
          intro i hi
          have hzero : i = 0 := by omega
          rw [hzero]
          exact hlost
      · -- Core's answer comes back
        obtain ⟨harrives, hreturns⟩ := not_not.mp hlost
        have hbefore := hw.trans
          (reaches_run server.rt (passages w.peer.passed).before w.peer.db)
        obtain ⟨hparse, -⟩ := @serve_of_respond text _ _ _ _ _ _
          (hsettled (passages w.peer.passed).arrival _ hbefore)
        have hanswer : (core server passages request w.peer).1 = .response
            (Http.serve server (passages w.peer.passed).arrival request
              (Api.run server.rt (passages w.peer.passed).before
                w.peer.db)).1 := by
          simp [core, harrives, hreturns]
        rw [hanswer]
        simp only [hparse, raising, Fallible.pure_apply]

/-- A relay that returned was authenticated, and its decision recorded. -/
theorem run_decided {server : Server} {passages : ℕ → Passage} {text : Text}
    {config : CoreClientConfig} {call : RelayCall} {r : OrchestrationResult}
    {w w' : World Site HttpRequest Answer}
    (h : run (core server passages) text config call w = (.ok r, w')) :
    DecisionRecorded call.ctx.companyId call.agentId r.decision w'.peer.db ∧
      ∃ auth, Http.authenticate server (headers config call.ctx none) =
        .ok auth ∧ auth.companyId = call.ctx.companyId := by
  unfold run at h
  obtain ⟨intent, -, h⟩ := raising_bind_eq_ok h
  obtain ⟨proposal, -, h⟩ := raising_bind_eq_ok h
  obtain ⟨assessment, -, h⟩ := raising_bind_eq_ok h
  obtain ⟨intentRow, s₁, -, h⟩ := Fallible.bind_eq_ok.mp h
  obtain ⟨intentRowId, -, h⟩ := raising_bind_eq_ok h
  obtain ⟨proposalRow, s₂, -, h⟩ := Fallible.bind_eq_ok.mp h
  obtain ⟨proposalRowId, -, h⟩ := raising_bind_eq_ok h
  obtain ⟨assessmentRow, s₃, -, h⟩ := Fallible.bind_eq_ok.mp h
  obtain ⟨assessmentRowId, -, h⟩ := raising_bind_eq_ok h
  obtain ⟨decision, s₄, hdecide, h⟩ := Fallible.bind_eq_ok.mp h
  rw [Fallible.pure_apply, Prod.mk.injEq, Except.ok.injEq] at h
  obtain ⟨hr, hw'⟩ := h
  subst hr hw'
  refine ⟨requestDecision_recorded hdecide, ?_⟩
  obtain ⟨data, hanswered⟩ := requestDecision_answered hdecide
  obtain ⟨arrival, status, db, db', -, -, hrespond⟩ := hanswered.responded
  unfold Http.respond at hrespond
  rw [postRequest, route_decisions] at hrespond
  obtain ⟨auth, mid, hread, -⟩ := Fallible.bind_eq_ok.mp hrespond
  obtain ⟨hauth, -⟩ := reading_eq_ok.mp hread
  have hcompany := authenticate_company hauth
  rw [headers_company, Option.some.injEq] at hcompany
  exact ⟨auth, hauth, hcompany.symm⟩

/-- The decision that a relay returned is what every later read of it returns,
whatever Core serves meanwhile: a read raises only where each of its attempts
is lost. -/
theorem decision_read_back (server : Server) (passages : ℕ → Passage)
    (text : Text) (config : CoreClientConfig) (call : RelayCall)
    (w : World Site HttpRequest Answer) :
    match run (core server passages) text config call w with
    | (.error _, _) => True
    | (.ok r, later) => '/' ∉ r.decision.decisionId.toList →
        match (getDecision (core server passages) text config call.ctx
            r.decision.decisionId later).1 with
        | .ok data => ∃ row, data = Http.decisionData row ∧
            row.id = r.decision.decisionId ∧
            row.companyId = call.ctx.companyId ∧
            row.agentId = call.agentId ∧
            Http.resultText row.result = r.decision.result ∧
            row.decisionContextHash = r.decision.contextHash
        | .error _ => ∀ i < readAttempts config,
            (passages (later.peer.passed + i)).Lost := by
  cases hrun : run (core server passages) text config call w with
  | mk result later =>
      cases result with
      | error e => trivial
      | ok r =>
          intro hplain
          obtain ⟨hrecorded, auth, hauth, hcompany⟩ := run_decided hrun
          obtain ⟨row, hread, hagent, hresult, hhash⟩ := hrecorded.row
          have hsettled : ∀ arrival db, Reaches server.rt later.peer.db db →
              Http.respond server arrival (getRequest config
                (decisionPath r.decision.decisionId) call.ctx) db =
                  (.ok (200, Http.decisionData row), db) := by
            intro arrival db hreaches
            have hlater := Forensics.getDecision_again hreaches.permanent hread
            have hroute : Http.route (getRequest config
                (decisionPath r.decision.decisionId) call.ctx) =
                  some (.getDecision r.decision.decisionId) := by
              simp only [Http.route, getRequest, segments_decision hplain]
            have hauthRead : reading (fun _ => Http.authenticate server
                (getRequest config (decisionPath r.decision.decisionId)
                  call.ctx).headers) db = (.ok auth, db) :=
              reading_eq_ok.mpr ⟨hauth, rfl⟩
            unfold Http.respond
            rw [hroute]
            simp only
            rw [Fallible.bind_of_ok hauthRead]
            change Http.readDecision auth r.decision.decisionId db = _
            unfold Http.readDecision
            rw [Fallible.query_bind, hcompany, hlater]
            rfl
          have hfound := List.find?_some hread
          rw [decide_eq_true_eq] at hfound
          have hattempts := @attempts_settled _ passages text _ _ _ hsettled
            (readAttempts config) later (Reaches.refl _ _)
          unfold getDecision read
          cases hget : (attempts (core server passages) text (getRequest config
              (decisionPath r.decision.decisionId) call.ctx) true
                (readAttempts config) later).1 with
          | ok data =>
              rw [hget] at hattempts
              exact ⟨row, hattempts, hfound.1, hfound.2, hagent, hresult,
                hhash⟩
          | error e =>
              rw [hget] at hattempts
              exact hattempts

/-- The first attempt to read is lost. -/
def lossyPassages (n : ℕ) : Passage :=
  { samplePassages n with arrives := n ≠ 4 }

/-- A relay, and a read that needs two attempts. -/
theorem sample_decision_read_back :
    ∃ r later, run (core sampleServer lossyPassages) (fun _ => "")
        sampleConfig sampleCall sampleWorld = (.ok r, later) ∧
      (lossyPassages later.peer.passed).Lost ∧
      ∃ data, (getDecision (core sampleServer lossyPassages) (fun _ => "")
          sampleConfig sampleCall.ctx r.decision.decisionId later).1 =
            .ok data ∧
        ∃ row, data = Http.decisionData row ∧
          row.id = r.decision.decisionId ∧
          row.companyId = "acme" ∧ row.agentId = "agent-1" ∧
          Http.resultText row.result = r.decision.result ∧
          row.decisionContextHash = r.decision.contextHash := by
  have hvalue : (run (core sampleServer lossyPassages) (fun _ => "")
      sampleConfig sampleCall sampleWorld).1.toOption.map
        (fun r => r.decision.decisionId) = some "decision-1" := by
    decide +kernel
  have hpassed : (run (core sampleServer lossyPassages) (fun _ => "")
      sampleConfig sampleCall sampleWorld).2.peer.passed = 4 := by
    decide +kernel
  have hfirst : ¬ (lossyPassages 4).arrives = true := by decide
  have hsecond : (lossyPassages 5).arrives = true ∧
      (lossyPassages 5).returns = true := by decide
  -- the run is not to be evaluated again
  generalize lossyPassages = passages at *
  have hback := decision_read_back sampleServer passages (fun _ => "")
    sampleConfig sampleCall sampleWorld
  generalize run (core sampleServer passages) (fun _ => "") sampleConfig
    sampleCall sampleWorld = outcome at hvalue hpassed hback ⊢
  obtain ⟨result, later⟩ := outcome
  cases result with
  | error e => cases hvalue
  | ok r =>
      have hid : r.decision.decisionId = "decision-1" :=
        Option.some.inj hvalue
      have hfound := hback (by rw [hid]; decide)
      have hlost : (passages later.peer.passed).Lost := by
        rw [hpassed]
        exact fun hkept => hfirst hkept.1
      refine ⟨r, later, rfl, hlost, ?_⟩
      cases hget : (getDecision (core sampleServer passages) (fun _ => "")
          sampleConfig sampleCall.ctx r.decision.decisionId
            later).1 with
      | ok data =>
          rw [hget] at hfound
          exact ⟨data, rfl, hfound⟩
      | error e =>
          -- the second attempt is not lost
          rw [hget] at hfound
          have hnext := hfound 1 (by decide)
          rw [hpassed] at hnext
          exact absurd hsecond hnext

end CoreClient
end Orvex
