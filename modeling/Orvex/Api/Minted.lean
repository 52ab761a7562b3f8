import Orvex.Api.Amounts
import Orvex.Api.Permanence

/-!
# One hold for each execution

Where calls run one after another, each request is bound to one reservation
and each payload of a company has one request.  A reservation stays without a
request only where the request could not be created.
-/

namespace Orvex

open Revalidation (Ends NoRequest bindTo newRequest)

/-- The requests and reservations that belong together: ids and payloads are
not repeated, each request has one reservation, of its company and agent, and
each bound reservation has its request. -/
structure OneHold (requests : List ExecutionRequestRecord)
    (reservations : List FinancialReservation) : Prop where
  distinct_ids : (requests.map ExecutionRequestRecord.id).Nodup
  distinct_payloads :
    (requests.map (fun request =>
      (request.companyId, request.idempotencyKey))).Nodup
  held : ∀ request ∈ requests, ∃ res,
    reservations.filter
        (fun res => res.executionRequestId = some request.id) = [res] ∧
      res.companyId = request.companyId ∧
      res.agentId = some request.agentId
  bound : ∀ res ∈ reservations, ∀ id, res.executionRequestId = some id →
    ∃ request ∈ requests, request.id = id

namespace OneHold

variable {requests requests' : List ExecutionRequestRecord}
  {reservations reservations' : List FinancialReservation}

/-- It is read from the identities of the rows. -/
theorem congr (h : OneHold requests reservations)
    (hrequests : requests'.map ExecutionRequestRecord.identity =
      requests.map ExecutionRequestRecord.identity)
    (hreservations : reservations'.map FinancialReservation.identity =
      reservations.map FinancialReservation.identity) :
    OneHold requests' reservations' := by
  have hrequest : ∀ later ∈ requests', ∃ request ∈ requests,
      request.identity = later.identity := by
    intro later hlater
    have hmem := List.mem_map_of_mem (f := ExecutionRequestRecord.identity)
      hlater
    rw [hrequests] at hmem
    exact List.mem_map.mp hmem
  have hcolumn : ∀ {γ : Type} (f : ExecutionRequestRecord → γ),
      (∀ request, f request.identity = f request) →
        requests'.map f = requests.map f := by
    intro γ f hf
    have hcomp : f = f ∘ ExecutionRequestRecord.identity :=
      funext (fun request => (hf request).symm)
    rw [hcomp, ← List.map_map, hrequests, List.map_map]
  constructor
  · rw [hcolumn _ (fun _ => rfl)]
    exact h.distinct_ids
  · rw [hcolumn _ (fun _ => rfl)]
    exact h.distinct_payloads
  · intro later hlater
    obtain ⟨request, hmem, hsame⟩ := hrequest later hlater
    obtain ⟨res, hfilter, hcompany, hagent⟩ := h.held request hmem
    have hid := congrArg ExecutionRequestRecord.id hsame
    have hcompanyId := congrArg ExecutionRequestRecord.companyId hsame
    have hagentId := congrArg ExecutionRequestRecord.agentId hsame
    have hrows := congrArg (List.filter
      (fun res => decide (res.executionRequestId = some request.id)))
      hreservations
    rw [List.filter_map, List.filter_map] at hrows
    have hsingle : (reservations'.filter (fun res =>
        decide (res.executionRequestId = some request.id))).map
          FinancialReservation.identity = [res.identity] := by
      refine hrows.trans ?_
      change (reservations.filter (fun res =>
        decide (res.executionRequestId = some request.id))).map _ = _
      rw [hfilter, List.map_singleton]
    obtain ⟨new, hnew, hres⟩ := List.map_eq_singleton_iff.mp hsingle
    refine ⟨new, ?_, ?_, ?_⟩
    · rw [← show request.id = later.id from hid]
      exact hnew
    · have hnewCompany := congrArg FinancialReservation.companyId hres
      exact hnewCompany.trans (hcompany.trans hcompanyId)
    · have hnewAgent := congrArg FinancialReservation.agentId hres
      exact hnewAgent.trans (hagent.trans (congrArg some hagentId))
  · intro later hlater id hlink
    have hmem := List.mem_map_of_mem (f := FinancialReservation.identity)
      hlater
    rw [hreservations] at hmem
    obtain ⟨res, hres, hsame⟩ := List.mem_map.mp hmem
    have hcolumnLink := congrArg FinancialReservation.executionRequestId hsame
    obtain ⟨request, hfound, hid⟩ :=
      h.bound res hres id (hcolumnLink.trans hlink)
    have hids := hcolumn ExecutionRequestRecord.id (fun _ => rfl)
    have hmemId := List.mem_map_of_mem (f := ExecutionRequestRecord.id) hfound
    rw [← hids] at hmemId
    obtain ⟨old, hold, heq⟩ := List.mem_map.mp hmemId
    exact ⟨old, hold, heq.trans hid⟩

/-- A reservation that is not bound. -/
theorem append_unbound (h : OneHold requests reservations)
    {res : FinancialReservation} (hunbound : res.executionRequestId = none) :
    OneHold requests (reservations ++ [res]) where
  distinct_ids := h.distinct_ids
  distinct_payloads := h.distinct_payloads
  held request hrequest := by
    obtain ⟨hold, hfilter, hbelongs⟩ := h.held request hrequest
    refine ⟨hold, ?_, hbelongs⟩
    rw [List.filter_append, hfilter]
    simp [hunbound]
  bound other hother id hid := by
    rcases List.mem_append.mp hother with hold | hnew
    · exact h.bound other hold id hid
    · rw [List.mem_singleton.mp hnew, hunbound] at hid
      contradiction

/-- A new request and the reservation that is bound to it. -/
theorem append_bound (h : OneHold requests reservations)
    {request : ExecutionRequestRecord} {res : FinancialReservation}
    (hid : request.id ∉ requests.map ExecutionRequestRecord.id)
    (hpayload : ∀ other ∈ requests,
      ¬ (other.companyId = request.companyId ∧
        other.idempotencyKey = request.idempotencyKey))
    (hbound : res.executionRequestId = some request.id)
    (hcompany : res.companyId = request.companyId)
    (hagent : res.agentId = some request.agentId) :
    OneHold (requests ++ [request]) (reservations ++ [res]) where
  distinct_ids := by
    rw [List.map_append, List.map_singleton, List.nodup_append]
    refine ⟨h.distinct_ids, List.nodup_singleton _, ?_⟩
    intro id hmem other hother heq
    rw [heq, List.mem_singleton.mp hother] at hmem
    exact hid hmem
  distinct_payloads := by
    rw [List.map_append, List.map_singleton, List.nodup_append]
    refine ⟨h.distinct_payloads, List.nodup_singleton _, ?_⟩
    intro pair hmem other hother heq
    obtain ⟨old, hold, hpair⟩ := List.mem_map.mp hmem
    rw [heq, List.mem_singleton.mp hother, Prod.mk.injEq] at hpair
    exact hpayload old hold hpair
  held other hother := by
    have hfresh : ∀ hold ∈ reservations,
        hold.executionRequestId ≠ some request.id := by
      intro hold hmem hlink
      obtain ⟨old, hold, hsame⟩ := h.bound hold hmem request.id hlink
      exact hid (hsame ▸ List.mem_map_of_mem hold)
    rcases List.mem_append.mp hother with hold | hnew
    · obtain ⟨paid, hfilter, hbelongs⟩ := h.held other hold
      have hdiffers : request.id ≠ other.id := by
        intro heq
        exact hid (heq ▸ List.mem_map_of_mem hold)
      refine ⟨paid, ?_, hbelongs⟩
      rw [List.filter_append, hfilter]
      simp [hbound, hdiffers]
    · rw [List.mem_singleton.mp hnew]
      refine ⟨res, ?_, hcompany, hagent⟩
      rw [List.filter_append, List.filter_eq_nil_iff.mpr
        (by simpa using hfresh)]
      simp [hbound]
  bound other hother id hlink := by
    rcases List.mem_append.mp hother with hold | hnew
    · obtain ⟨old, hmem, hsame⟩ := h.bound other hold id hlink
      exact ⟨old, List.mem_append_left _ hmem, hsame⟩
    · rw [List.mem_singleton.mp hnew, hbound] at hlink
      exact ⟨request, List.mem_append_right _ (List.mem_singleton_self _),
        Option.some.inj hlink⟩

theorem of_ends {rt : Runtime} {input : Revalidation.RevalidateInput}
    {now : ℤ} {ids : Revalidation.MintIds} {db db' : Database}
    (h : OneHold db.executionRequests db.financialReservations)
    (hends : Ends rt input now ids db db') :
    OneHold db'.executionRequests db'.financialReservations := by
  cases hends with
  | quiet records accounts hbooked => exact h
  | stopped records accounts hbooked res hreserves hrefused =>
      exact h.append_unbound hreserves.unbound
  | minted records accounts hbooked res state hreserves hresolve hcleared
      hnone hnew =>
      refine h.append_bound (KeyedTable.lookup_eq_none_iff.mp hnew) ?_ rfl
        hreserves.company_eq hreserves.agent_eq
      intro other hother
      have hdiffers := List.find?_eq_none.mp hnone other hother
      rwa [decide_eq_true_eq] at hdiffers

/-- No other write is seen: the rest of the routes rewrites statuses. -/
theorem recordsKept : RecordsKept (fun db =>
    OneHold db.executionRequests db.financialReservations) := by
  refine RecordsKept.of_ledger
    (p := fun rows => OneHold rows.2.2.2 rows.2.1) ?_ ?_ ?_
  · exact fun _ _ _ _ h => h
  · exact fun p _ _ hsame h =>
      h.congr rfl (KeyedTable.map_changed hsame p _)
  · exact fun p _ _ hsame h =>
      h.congr (KeyedTable.map_changed hsame p _) rfl

end OneHold

namespace Api

/-- Over any calls, each execution keeps its one hold. -/
theorem run_oneHold {rt : Runtime} {calls : List Call} {db : Database}
    (hdb : OneHold db.executionRequests db.financialReservations) :
    OneHold (run rt calls db).executionRequests
      (run rt calls db).financialReservations := by
  refine run_keeps OneHold.recordsKept (fun input now ids => ?_) hdb
  intro state hstate
  exact hstate.of_ends (Revalidation.revalidate_ends rt input now ids state)

/-! ## Holds without an execution -/

/-- The prepare calls of the run get new ids, for companies that exist. -/
def CanMint (rt : Runtime) : List Call → Database → Prop
  | [], _ => True
  | call :: rest, db =>
      (∀ body ids, call.operation = .prepare body ids →
        ¬ NoRequest (revalidateInput call.auth body) ids db) ∧
      CanMint rt rest (call.step rt db)

/-- The unbound reservations, as they are identified. -/
def unbound (db : Database) : List FinancialReservation :=
  (db.financialReservations.map FinancialReservation.identity).filter
    (fun res => res.executionRequestId = none)

theorem unbound_of_ends {rt : Runtime} {input : Revalidation.RevalidateInput}
    {now : ℤ} {ids : Revalidation.MintIds} {db db' : Database}
    (hmint : ¬ NoRequest input ids db)
    (hends : Ends rt input now ids db db') : unbound db' = unbound db := by
  cases hends with
  | quiet records accounts hbooked => rfl
  | stopped records accounts hbooked res hreserves hrefused =>
      exact absurd hrefused hmint
  | minted records accounts hbooked res state hreserves hresolve hcleared
      hnone hnew =>
      change ((db.financialReservations ++ [bindTo _ res]).map _).filter _ = _
      rw [List.map_append, List.filter_append]
      exact List.append_nil _

theorem unbound_recordsKept (holds : List FinancialReservation) :
    RecordsKept (fun db => unbound db = holds) := by
  refine RecordsKept.of_ledger (p := fun rows =>
    (rows.2.1.map FinancialReservation.identity).filter
      (fun res => res.executionRequestId = none) = holds) ?_ ?_ ?_
  · exact fun _ _ _ _ h => h
  · intro p change db hsame h
    have hrows := KeyedTable.map_changed hsame p db.financialReservations
    rw [← h]
    exact congrArg (List.filter
      (fun res => decide (res.executionRequestId = none))) hrows
  · exact fun _ _ _ _ h => h

theorem run_unbound {rt : Runtime} {calls : List Call} {db : Database}
    (hcalls : CanMint rt calls db) :
    unbound (run rt calls db) = unbound db := by
  induction calls generalizing db with
  | nil => rfl
  | cons call rest ih =>
      have hstep : unbound (call.step rt db) = unbound db := by
        refine Call.step_keeps (unbound_recordsKept _)
          (fun body ids hoperation => ?_) rfl
        exact unbound_of_ends (hcalls.1 body ids hoperation)
          (Revalidation.revalidate_ends rt _ _ _ db)
      exact (ih hcalls.2).trans hstep

/-- Each execution keeps its one hold, and no hold is left over where every
request can be created. -/
theorem run_holds_match (rt : Runtime) (calls : List Call) (db : Database)
    (hdb : OneHold db.executionRequests db.financialReservations)
    (hcalls : CanMint rt calls db) :
    OneHold (run rt calls db).executionRequests
        (run rt calls db).financialReservations ∧
      unbound (run rt calls db) = unbound db :=
  ⟨run_oneHold hdb, run_unbound hcalls⟩

theorem sample_holds_match :
    OneHold
        (run .reference [samplePrepare]
          (Revalidation.sampleDatabase [])).executionRequests
        (run .reference [samplePrepare]
          (Revalidation.sampleDatabase [])).financialReservations ∧
      unbound (run .reference [samplePrepare]
        (Revalidation.sampleDatabase [])) =
          unbound (Revalidation.sampleDatabase []) := by
  refine run_holds_match .reference [samplePrepare] _ ?_ ⟨?_, trivial⟩
  · exact
      { distinct_ids := List.nodup_nil
        distinct_payloads := List.nodup_nil
        held := fun _ hmem => absurd hmem List.not_mem_nil
        bound := fun _ hmem => absurd hmem List.not_mem_nil }
  · intro body ids hoperation
    cases hoperation
    rintro (htaken | hmissing)
    · exact htaken rfl
    · exact absurd hmissing (by decide)

end Api

end Orvex
