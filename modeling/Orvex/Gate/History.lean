import Orvex.Core.Identity
import Orvex.Gate.Advice
import Orvex.Financial.Solo

/-!
# What a run of revalidation calls has minted

A call leaves the tables of the authority alone.  Where it mints, it adds one
request and one reservation that is bound to it, and what the run has minted
for an agent grows by the amount it holds.
-/

namespace Orvex

open KeyedTable (Grows)

namespace Financial

/-- Ensuring an account writes no other table. -/
theorem ensureAccount_accounts (rt : Runtime) (key : AccountKey)
    (uuid : String) (db : Database) :
    ∃ accounts, (ensureAccount rt key none uuid db).2 =
        { db with financialAccounts := accounts } ∧
      Grows FinancialAccount.id FinancialAccount.identity
        db.financialAccounts accounts := by
  rcases ensureAccount_state rt key uuid db with hsame |
    ⟨hallowed, hopened⟩
  · exact ⟨db.financialAccounts, hsame, Grows.refl _⟩
  · exact ⟨_, hopened, (Grows.refl _).append hallowed.2.1⟩

theorem totalsOnly_identity {change : FinancialAccount → FinancialAccount}
    (hchange : TotalsOnly change) (account : FinancialAccount) :
    (change account).identity = account.identity := by
  rw [hchange account]
  rfl

end Financial

namespace Revalidation

open Financial (lookupAccount lookupReservation)

/-! ## How a call ends -/

/-- The bookkeeping of a call: its registration and its account. -/
def booked (records : List IdempotencyRecord)
    (accounts : List FinancialAccount) (db : Database) : Database :=
  { db with idempotencyRecords := records, financialAccounts := accounts }

/-- The registrations and the accounts have only been added to. -/
structure Booked (records : List IdempotencyRecord)
    (accounts : List FinancialAccount) (db : Database) : Prop where
  records_grow :
    Grows IdempotencyRecord.id id db.idempotencyRecords records
  accounts_grow :
    Grows FinancialAccount.id FinancialAccount.identity
      db.financialAccounts accounts

theorem Booked.refl (db : Database) :
    Booked db.idempotencyRecords db.financialAccounts db where
  records_grow := Grows.refl _
  accounts_grow := Grows.refl _

theorem register_grows (rt : Runtime) (input : Idempotency.RegisterInput)
    (uuid : String) (rows : List IdempotencyRecord) :
    Fallible.Keeps
      (fun db => Grows IdempotencyRecord.id id rows db.idempotencyRecords)
      (Idempotency.register rt input uuid) := by
  refine Fallible.Keeps.bind (Fallible.keeps_query _) (fun existing => ?_)
  cases existing with
  | some record => exact Idempotency.keeps_replayOf rt input record
  | none =>
      refine Fallible.Keeps.bind (Table.keeps_create
        (fun _ h hnew => h.append hnew.1)).attempt (fun created => ?_)
      cases created with
      | ok record => exact Fallible.keeps_pure _
      | error failure =>
          refine Fallible.Keeps.bind (Fallible.keeps_query _)
            (fun winner => ?_)
          cases winner with
          | some record => exact Idempotency.keeps_replayOf rt input record
          | none => exact Fallible.keeps_fail _

def appendReservation (res : FinancialReservation) (db : Database) :
    Database :=
  { db with financialReservations := db.financialReservations ++ [res] }

def appendRequest (request : ExecutionRequestRecord) (db : Database) :
    Database :=
  { db with executionRequests := db.executionRequests ++ [request] }

/-- A new reservation of the amount that the input asks for, for its
agent. -/
structure Reserves (rt : Runtime) (input : RevalidateInput)
    (res : FinancialReservation) (db : Database) : Prop where
  amount_stored : rt.storeText input.amount = some res.amount
  company_eq : res.companyId = input.companyId
  agent_eq : res.agentId = some input.agentId
  unbound : res.executionRequestId = none
  reservation_new : lookupReservation res.id db = none

/-- The request cannot be created: its id is taken, or its company does not
exist. -/
def NoRequest (input : RevalidateInput) (ids : MintIds) (db : Database) :
    Prop :=
  executionRequestTable.lookup ids.executionRequest db ≠ none ∨
    companyExists input.companyId db = false

/-- The three ends of a call: it mints nothing, it stops between the
reservation and the request, or it mints. -/
inductive Ends (rt : Runtime) (input : RevalidateInput) (now : ℤ)
    (ids : MintIds) (db : Database) : Database → Prop where
  | quiet (records : List IdempotencyRecord)
      (accounts : List FinancialAccount)
      (hbooked : Booked records accounts db) :
      Ends rt input now ids db (booked records accounts db)
  | stopped (records : List IdempotencyRecord)
      (accounts : List FinancialAccount)
      (hbooked : Booked records accounts db) (res : FinancialReservation)
      (hreserves : Reserves rt input res db)
      (hrefused : NoRequest input ids db) :
      Ends rt input now ids db
        (booked records accounts (appendReservation res db))
  | minted (records : List IdempotencyRecord)
      (accounts : List FinancialAccount)
      (hbooked : Booked records accounts db) (res : FinancialReservation)
      (state : Resolved) (hreserves : Reserves rt input res db)
      (hresolve : resolve rt input now db = .ok state)
      (hcleared : DecisionEngine.Cleared
        (decisionInput rt input state now db))
      (hnone : findExisting rt input db = none)
      (hnew : executionRequestTable.lookup ids.executionRequest db = none) :
      Ends rt input now ids db
        (booked records accounts
          (appendRequest
            (newRequest rt input state.policy now ids.executionRequest)
            (appendReservation (bindTo ids.executionRequest res) db)))

theorem modify_appended {res : FinancialReservation} {db : Database}
    (hnew : lookupReservation res.id db = none) (uuid : String) :
    KeyedTable.modify FinancialReservation.id res.id (bindTo uuid)
        (db.financialReservations ++ [res]) =
      db.financialReservations ++ [bindTo uuid res] := by
  have hold : KeyedTable.modify FinancialReservation.id res.id (bindTo uuid)
      db.financialReservations = db.financialReservations :=
    KeyedTable.modify_of_lookup_eq_none hnew
  unfold KeyedTable.modify at hold ⊢
  rw [List.map_append, hold, List.map_singleton, if_pos rfl]

/-- A request may be created where its company exists and its payload has no
request yet. -/
theorem requestAllowed_newRequest {rt : Runtime} {input : RevalidateInput}
    {policy : PolicyReading} {now : ℤ} {uuid : String} {db : Database} :
    requestAllowed (newRequest rt input policy now uuid) db = true ↔
      companyExists input.companyId db = true ∧
        findExisting rt input db = none := by
  unfold requestAllowed findExisting Table.find
  rw [Bool.and_eq_true, List.all_eq_true, List.find?_eq_none]
  constructor
  · rintro ⟨hcompany, hother⟩
    refine ⟨hcompany, fun request hrequest => ?_⟩
    have hdiffers := hother request hrequest
    simp only [newRequest, Bool.or_eq_true, bne_iff_ne] at hdiffers
    simp only [decide_eq_true_eq, not_and]
    intro hsame
    exact hdiffers.resolve_left (fun hne => hne hsame)
  · rintro ⟨hcompany, hnone⟩
    refine ⟨hcompany, fun request hrequest => ?_⟩
    have hdiffers := hnone request hrequest
    simp only [decide_eq_true_eq, not_and] at hdiffers
    simp only [newRequest, Bool.or_eq_true, bne_iff_ne]
    by_cases hsame : request.companyId = input.companyId
    · exact Or.inr (hdiffers hsame)
    · exact Or.inl hsame

/-- Once the budget is held, the call stops or mints. -/
theorem ends_of_reserve {rt : Runtime} {input : RevalidateInput} {now : ℤ}
    {ids : MintIds} {db held : Database} {state : Resolved}
    {records : List IdempotencyRecord} {res : FinancialReservation}
    (hrecords :
      Grows IdempotencyRecord.id id db.idempotencyRecords records)
    (hresolve : resolve rt input now db = .ok state)
    (hcleared : DecisionEngine.Cleared
      (decisionInput rt input state now db))
    (hnone : findExisting rt input
      { db with idempotencyRecords := records } = none)
    (hreserve : Financial.reserve rt (reserveInput input) ids.account
      ids.reservation { db with idempotencyRecords := records } =
        (.ok res, held)) :
    Ends rt input now ids db (authorize rt input state.policy now
      ids.executionRequest res.id held).2 := by
  obtain ⟨account, ensured, hensure, row, amount, stored, change,
    hreserved⟩ := Financial.reserve_eq_ok hreserve
  obtain ⟨accounts, hensured, hgrows⟩ := Financial.ensureAccount_accounts rt
    (reserveInput input).toAccountKey ids.account
    { db with idempotencyRecords := records }
  have hensured : ensured = booked records accounts db := by
    rw [hensure] at hensured
    exact hensured
  have hnew : lookupReservation res.id db = none := by
    have hallowed := hreserved.allowed.2
    rw [hensured] at hallowed
    exact hallowed
  have hheld : ∃ accounts, Booked records accounts db ∧
      held = booked records accounts (appendReservation res db) := by
    have hsame := Financial.totalsOnly_identity
      (Financial.totalsOnly_reserveChange hreserved.row_change)
    have hmodified := hgrows.modify identifies_account hsame account.id
    rw [hreserved.state_eq, hensured]
    exact ⟨_, ⟨hrecords, hmodified⟩, rfl⟩
  obtain ⟨accounts, hbooked, rfl⟩ := hheld
  have hreserves : Reserves rt input res db :=
    { amount_stored := by
        rw [hreserved.res_eq]
        exact hreserved.amount_stored
      company_eq := by
        rw [hreserved.res_eq]
        rfl
      agent_eq := by
        rw [hreserved.res_eq]
        rfl
      unbound := by
        rw [hreserved.res_eq]
        rfl
      reservation_new := hnew }
  have hstate := authorize_state rt input state.policy now
    ids.executionRequest res.id
    (booked records accounts (appendReservation res db))
  by_cases hrefused : NoRequest input ids db
  · rcases hstate with hend | ⟨hrequest, hallowed, _⟩
    · rw [hend]
      exact .stopped records accounts hbooked res hreserves hrefused
    · have hcompany := (requestAllowed_newRequest.mp hallowed).1
      rcases hrefused with htaken | hmissing
      · exact absurd hrequest htaken
      · rw [show companyExists input.companyId db = true from hcompany]
          at hmissing
        contradiction
  · have hrequest : executionRequestTable.lookup ids.executionRequest
        (booked records accounts (appendReservation res db)) = none := by
      by_contra htaken
      exact hrefused (.inl htaken)
    have hallowed : requestAllowed (newRequest rt input state.policy now
        ids.executionRequest)
        (booked records accounts (appendReservation res db)) = true := by
      refine requestAllowed_newRequest.mpr ⟨?_, hnone⟩
      by_contra hcompany
      exact hrefused (.inr (Bool.eq_false_of_not_eq_true hcompany))
    have hfound : reservationTable.lookup res.id
        (booked records accounts (appendReservation res db)) = some res := by
      change lookupReservation res.id
        (Financial.insertReservation res db) = some res
      rw [Financial.lookupReservation_insertReservation, hnew, if_pos rfl,
        Option.none_or]
    obtain ⟨db', hrun⟩ := authorize_of_new hrequest hallowed hfound
    obtain ⟨_, _, _, hbinds⟩ := authorize_eq_ok hrun
    rw [hrun, hbinds]
    have hmodify := modify_appended hnew ids.executionRequest
    have hbound : reservationTable.modify res.id
        (bindTo ids.executionRequest)
        (executionRequestTable.insert
          (newRequest rt input state.policy now ids.executionRequest)
          (booked records accounts (appendReservation res db))) =
        booked records accounts
          (appendRequest
            (newRequest rt input state.policy now ids.executionRequest)
            (appendReservation (bindTo ids.executionRequest res) db)) := by
      change booked records accounts
        { appendRequest (newRequest rt input state.policy now
            ids.executionRequest) db with
          financialReservations := KeyedTable.modify FinancialReservation.id
            res.id (bindTo ids.executionRequest)
            (db.financialReservations ++ [res]) } = _
      rw [hmodify]
      rfl
    rw [hbound]
    exact .minted records accounts hbooked res state hreserves hresolve
      hcleared hnone hrequest

/-- Minting ends in one of the three ways, once the decision was derived
again. -/
theorem ends_of_mint {rt : Runtime} {input : RevalidateInput} {now : ℤ}
    {ids : MintIds} {db : Database} {state : Resolved}
    (hresolve : resolve rt input now db = .ok state)
    (hcleared : DecisionEngine.Cleared
      (decisionInput rt input state now db)) :
    Ends rt input now ids db (mint rt input state.policy now ids db).2 := by
  unfold mint
  cases hregister : Idempotency.register rt (registration rt input)
      ids.idempotency db with
  | mk answer mid =>
      have hmid : Registered db mid := by
        have hkept := @registered_of_register rt (registration rt input)
          ids.idempotency db
        rwa [hregister] at hkept
      have hgrows := register_grows rt (registration rt input)
        ids.idempotency db.idempotencyRecords db (Grows.refl _)
      rw [hregister] at hgrows
      obtain ⟨records, rfl⟩ := hmid
      have hregistered : Booked records db.financialAccounts db :=
        ⟨hgrows, Grows.refl _⟩
      cases answer with
      | error failure =>
          rw [Fallible.bind_of_error hregister]
          exact .quiet records db.financialAccounts hregistered
      | ok answer =>
          rw [Fallible.bind_of_ok hregister, Fallible.query_bind]
          cases hexisting : findExisting rt input
              { db with idempotencyRecords := records } with
          | some existing =>
              exact .quiet records db.financialAccounts hregistered
          | none =>
              simp only [Fallible.attempt_bind]
              cases hreserve : Financial.reserve rt (reserveInput input)
                  ids.account ids.reservation
                  { db with idempotencyRecords := records } with
              | mk result held =>
                  cases result with
                  | error failure =>
                      have hheld := Financial.reserve_of_error hreserve
                      obtain ⟨accounts, hstate, haccounts⟩ :=
                        Financial.ensureAccount_accounts rt
                          (reserveInput input).toAccountKey ids.account
                          { db with idempotencyRecords := records }
                      have hend : held = booked records accounts db :=
                        hheld.trans hstate
                      have hbooked : Booked records accounts db :=
                        ⟨hgrows, haccounts⟩
                      rw [hend]
                      by_cases hcode : failure.hasCode .policyViolation
                      · simp only [hcode]
                        exact .quiet records accounts hbooked
                      · simp only [hcode]
                        exact .quiet records accounts hbooked
                  | ok res =>
                      exact ends_of_reserve hgrows hresolve hcleared
                        hexisting hreserve

theorem revalidate_ends (rt : Runtime) (input : RevalidateInput) (now : ℤ)
    (ids : MintIds) (db : Database) :
    Ends rt input now ids db (revalidate rt input now ids db).2 := by
  unfold revalidate
  have hquiet : Ends rt input now ids db db :=
    .quiet db.idempotencyRecords db.financialAccounts (Booked.refl db)
  rcases reading_bind_cases (resolve rt input now) _ db with
    ⟨failure, _, hend⟩ | ⟨state, hresolve, hnext⟩
  · rw [hend]
    exact hquiet
  · rw [hnext, Fallible.query_bind]
    split
    next => exact hquiet
    next hallow =>
      exact ends_of_mint hresolve
        (DecisionEngine.decide_allow_iff_cleared.mp (not_not.mp hallow))

end Revalidation
end Orvex
