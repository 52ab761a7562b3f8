import Orvex.Core.Pinned
import Orvex.Gate.Soundness
import Orvex.Gate.Traces

/-!
# Blocked attempts

A blocked attempt leaves no trace unless it has registered its execution, or
has held the budget of a registered one, and stops afterwards.
-/

namespace Orvex
namespace Revalidation

open Financial (lookupReservation)

/-- Denied, left for review or stopped by an error. -/
def Blocked (result : Except Failure RevalidationOutcome) : Prop :=
  ∀ outcome, result = .ok outcome → outcome.result ≠ .allow

theorem blocked_error (failure : Failure) : Blocked (.error failure) := by
  intro outcome h
  cases h

theorem blocked_ok {outcome : RevalidationOutcome}
    (h : outcome.result ≠ .allow) : Blocked (.ok outcome) := by
  intro other heq
  rw [← Except.ok.inj heq]
  exact h

theorem not_blocked {outcome : RevalidationOutcome}
    (h : outcome.result = .allow) : ¬ Blocked (.ok outcome) :=
  fun hblocked => hblocked outcome rfl h

/-! ## Later registrations -/

/-- Every later registration ends as it would have without the attempt. -/
def Judged (rt : Runtime) (db db' : Database) : Prop :=
  ∀ input uuid, (Idempotency.register rt input uuid db').1 =
    (Idempotency.register rt input uuid db).1

/-- How a registration ends, by the records alone. -/
theorem register_result (rt : Runtime) (input : Idempotency.RegisterInput)
    (uuid : String) (db : Database) :
    (Idempotency.register rt input uuid db).1 =
      match Idempotency.findRecord input db with
      | some existing => (Idempotency.replayOf rt input existing db).1
      | none =>
          if idempotencyTable.lookup uuid db = none then
            .ok (.new, Idempotency.newRecord rt input uuid)
          else .error
            (.of .internalError "Idempotency registration failed." []) := by
  unfold Idempotency.register
  rw [Fallible.query_bind]
  cases hfind : Idempotency.findRecord input db with
  | some existing => rfl
  | none =>
      simp only [Fallible.attempt_bind]
      cases hcreate : idempotencyTable.create Failure.constraint
          (fun db => (Idempotency.findRecord input db).isNone)
          (Idempotency.newRecord rt input uuid) db with
      | mk result db' =>
          cases result with
          | ok created =>
              obtain ⟨hfresh, _, hrow, _⟩ := Table.create_eq_ok.mp hcreate
              have hfresh' : idempotencyTable.lookup uuid db = none := hfresh
              simp only [if_pos hfresh', hrow, Fallible.pure_apply]
          | error failure =>
              have hstate := (Table.create_eq_error hcreate).2
              have hfresh : ¬ idempotencyTable.lookup uuid db = none := by
                intro hfresh
                have hcreated : idempotencyTable.create Failure.constraint
                    (fun db => (Idempotency.findRecord input db).isNone)
                    (Idempotency.newRecord rt input uuid) db =
                      (.ok (Idempotency.newRecord rt input uuid), _) :=
                  Table.create_eq_ok.mpr
                    ⟨hfresh, by rw [hfind]; rfl, rfl, rfl⟩
                rw [hcreated] at hcreate
                cases hcreate
              simp only [if_neg hfresh, hstate]
              rw [Fallible.query_bind]
              simp only [hfind, Idempotency.afterRace]
              rfl

theorem replayOf_result (rt : Runtime) (input : Idempotency.RegisterInput)
    (record : IdempotencyRecord) (db db' : Database) :
    (Idempotency.replayOf rt input record db').1 =
      (Idempotency.replayOf rt input record db).1 := by
  unfold Idempotency.replayOf
  by_cases hhash : record.requestHash ≠
      Idempotency.requestHash rt input.request
  · simp only [if_pos hhash]
    rfl
  · simp only [if_neg hhash]
    rfl

theorem NoTrace.judged {db db' : Database} (h : NoTrace db db')
    (rt : Runtime) : Judged rt db db' := by
  intro input uuid
  have hfind : Idempotency.findRecord input db' =
      Idempotency.findRecord input db :=
    congrArg (List.find? _) h.records
  have hlookup : idempotencyTable.lookup uuid db' =
      idempotencyTable.lookup uuid db :=
    congrArg (KeyedTable.lookup _ _) h.records
  rw [register_result, register_result, hfind, hlookup]
  cases Idempotency.findRecord input db with
  | some record => exact replayOf_result rt input record db db'
  | none => rfl

/-! ## Creating the request -/

/-- The request can be created, and the reservation bound to it. -/
structure Authorizable (rt : Runtime) (outage : Outage)
    (input : RevalidateInput) (policy : PolicyReading) (now : ℤ)
    (uuid : String) (db : Database) : Prop where
  createUp : outage .createRequest = false
  fresh : executionRequestTable.lookup uuid db = none
  allowed : requestAllowed (newRequest rt input policy now uuid) db = true
  bindUp : outage .bindReservation = false

section

variable {rt : Runtime} {outage : Outage} {input : RevalidateInput}
  {policy : PolicyReading} {now : ℤ} {uuid : String} {db : Database}

theorem authorizable_of_same {held : Database}
    (hrequests : held.executionRequests = db.executionRequests)
    (hcompanies : held.companies = db.companies) :
    Authorizable rt outage input policy now uuid held ↔
      Authorizable rt outage input policy now uuid db := by
  have hlookup : executionRequestTable.lookup uuid held =
      executionRequestTable.lookup uuid db :=
    congrArg (KeyedTable.lookup _ _) hrequests
  have hallowed :
      requestAllowed (newRequest rt input policy now uuid) held =
        requestAllowed (newRequest rt input policy now uuid) db := by
    unfold requestAllowed companyExists
    rw [hrequests, hcompanies]
  constructor
  · intro h
    exact ⟨h.createUp, hlookup ▸ h.fresh, hallowed ▸ h.allowed, h.bindUp⟩
  · intro h
    exact ⟨h.createUp, hlookup.symm ▸ h.fresh, hallowed.symm ▸ h.allowed,
      h.bindUp⟩

theorem authorizeDuring_minted {res : FinancialReservation}
    (hres : lookupReservation res.id db = some res)
    (h : Authorizable rt outage input policy now uuid db) :
    ∃ db', authorizeDuring rt outage input policy now uuid res.id db =
      (.ok (minted (newRequest rt input policy now uuid) res.id), db') := by
  have hcreate : executionRequestTable.create Failure.constraint
      (requestAllowed (newRequest rt input policy now uuid))
      (newRequest rt input policy now uuid) db =
        (.ok (newRequest rt input policy now uuid), _) :=
    Table.create_eq_ok.mpr ⟨h.fresh, h.allowed, rfl, rfl⟩
  have hbind : reservationTable.update Failure.recordNotFound res.id
      (bindTo uuid) (executionRequestTable.insert
        (newRequest rt input policy now uuid) db) =
        (.ok (bindTo uuid res), _) :=
    Table.update_eq_ok.mpr ⟨res, hres, rfl, rfl⟩
  refine ⟨reservationTable.modify res.id (bindTo uuid)
    (executionRequestTable.insert (newRequest rt input policy now uuid) db),
    ?_⟩
  unfold authorizeDuring
  simp only [during_up h.createUp, during_up h.bindUp]
  rw [Fallible.bind_of_ok hcreate]
  exact Fallible.bind_of_ok hbind

theorem authorizeDuring_stopped {res : FinancialReservation}
    (h : ¬ Authorizable rt outage input policy now uuid db) :
    ∃ failure db', authorizeDuring rt outage input policy now uuid res.id
        db = (.error failure, db') ∧
      db'.financialReservations = db.financialReservations := by
  unfold authorizeDuring
  cases hcreateUp : outage .createRequest with
  | true =>
      simp only [during_down hcreateUp]
      exact ⟨_, db, rfl, rfl⟩
  | false =>
      simp only [during_up hcreateUp]
      rcases Table.create_bind_cases (t := executionRequestTable)
          Failure.constraint
          (requestAllowed (newRequest rt input policy now uuid))
          (newRequest rt input policy now uuid)
          (fun request => during outage .bindReservation
              (reservationTable.update .recordNotFound res.id
                (bindTo request.id)) >>=
            fun _ => pure (minted request res.id)) db with hend |
        ⟨hfresh, hallowed, hnext⟩
      · exact ⟨_, db, hend, rfl⟩
      · cases hbindUp : outage .bindReservation with
        | true =>
            rw [during_down hbindUp] at hnext
            exact ⟨_, _, hnext, rfl⟩
        | false => exact absurd ⟨hcreateUp, hfresh, hallowed, hbindUp⟩ h

/-! ## After the registration -/

/-- A request is there already, or one can be minted. -/
def Completes (rt : Runtime) (outage : Outage) (input : RevalidateInput)
    (policy : PolicyReading) (now : ℤ) (ids : MintIds) (db : Database) :
    Prop :=
  outage .findRequest = false ∧
    ((findExisting rt input db).isSome ∨
      Granted rt outage (reserveInput input) ids.account ids.reservation db ∧
        Authorizable rt outage input policy now ids.executionRequest db)

/-- The budget is held for a request that is never created, or that the
reservation is never bound to. -/
def Strands (rt : Runtime) (outage : Outage) (input : RevalidateInput)
    (policy : PolicyReading) (now : ℤ) (ids : MintIds) (db : Database) :
    Prop :=
  outage .findRequest = false ∧ findExisting rt input db = none ∧
    Granted rt outage (reserveInput input) ids.account ids.reservation db ∧
      ¬ Authorizable rt outage input policy now ids.executionRequest db

variable {ids : MintIds}

theorem holdAndAuthorize_completes
    (h : Completes rt outage input policy now ids db) :
    ∃ outcome db', holdAndAuthorize rt outage input policy now ids db =
      (.ok outcome, db') ∧ outcome.result = .allow := by
  obtain ⟨hup, hcompletes⟩ := h
  unfold holdAndAuthorize
  rw [during_up hup, Fallible.query_bind]
  cases hfind : findExisting rt input db with
  | some existing => exact ⟨reused existing, db, rfl, rfl⟩
  | none =>
      rw [hfind] at hcompletes
      obtain ⟨hgranted, hauthorizable⟩ :=
        hcompletes.resolve_left Bool.false_ne_true
      obtain ⟨res, held, hreserve, _, hrequests, hcompanies, hres⟩ :=
        reserveDuring_granted hgranted
      obtain ⟨db', hmint⟩ := authorizeDuring_minted hres
        ((authorizable_of_same hrequests hcompanies).mpr hauthorizable)
      refine ⟨minted (newRequest rt input policy now ids.executionRequest)
        res.id, db', ?_, rfl⟩
      simp only [Fallible.attempt_bind, hreserve]
      exact hmint

theorem holdAndAuthorize_strands
    (h : Strands rt outage input policy now ids db) :
    ∃ failure db', holdAndAuthorize rt outage input policy now ids db =
      (.error failure, db') ∧
        db'.financialReservations ≠ db.financialReservations := by
  obtain ⟨hup, hfind, hgranted, hauthorizable⟩ := h
  obtain ⟨res, held, hreserve, hheld, hrequests, hcompanies, _⟩ :=
    reserveDuring_granted hgranted
  have hstopped : ¬ Authorizable rt outage input policy now
      ids.executionRequest held := by
    rw [authorizable_of_same hrequests hcompanies]
    exact hauthorizable
  obtain ⟨failure, db', hstop, hsame⟩ := @authorizeDuring_stopped rt outage
    input policy now ids.executionRequest held res hstopped
  refine ⟨failure, db', ?_, ?_⟩
  · unfold holdAndAuthorize
    rw [during_up hup, Fallible.query_bind]
    simp only [hfind, Fallible.attempt_bind, hreserve]
    exact hstop
  · rw [hsame, hheld]
    intro heq
    have hlength := congrArg List.length heq
    rw [List.length_append, List.length_singleton] at hlength
    omega

/-- What is neither completed nor stranded is blocked without a trace. -/
theorem holdAndAuthorize_blocked
    (hcompletes : ¬ Completes rt outage input policy now ids db)
    (hstrands : ¬ Strands rt outage input policy now ids db) :
    ∃ result db', holdAndAuthorize rt outage input policy now ids db =
      (result, db') ∧ Blocked result ∧ NoTrace db db' := by
  cases hup : outage .findRequest with
  | true =>
      refine ⟨_, db, ?_, blocked_error .connectionLost, noTrace_refl db⟩
      unfold holdAndAuthorize
      rw [during_down hup]
      rfl
  | false =>
      cases hfind : findExisting rt input db with
      | some existing =>
          exact absurd ⟨hup, Or.inl (by rw [hfind]; rfl)⟩ hcompletes
      | none =>
          have hrefused : ¬ Granted rt outage (reserveInput input)
              ids.account ids.reservation db := by
            intro hgranted
            by_cases hauthorizable : Authorizable rt outage input policy now
                ids.executionRequest db
            · exact hcompletes ⟨hup, Or.inr ⟨hgranted, hauthorizable⟩⟩
            · exact hstrands ⟨hup, hfind, hgranted, hauthorizable⟩
          obtain ⟨failure, mid, hfailed, htrace⟩ :=
            reserveDuring_refused hrefused
          unfold holdAndAuthorize
          rw [during_up hup, Fallible.query_bind]
          simp only [hfind, Fallible.attempt_bind, hfailed]
          by_cases hcode : failure.hasCode .policyViolation
          · rw [if_pos hcode]
            refine ⟨_, mid, rfl, blocked_ok ?_, htrace⟩
            decide
          · rw [if_neg hcode]
            exact ⟨_, mid, rfl, blocked_error failure, htrace⟩

/-! ## The whole attempt -/

/-- The attempt is allowed once its statement has been made. -/
def Allowed (rt : Runtime) (outage : Outage) (input : RevalidateInput)
    (now : ℤ) (state : Resolved) (db : Database) : Prop :=
  outage .readState = false ∧ resolve rt input now db = .ok state ∧
    (DecisionEngine.decide (decisionInput rt input state now db)).result =
      .allow

/-- An allowed attempt that registers its execution completes it, and one
that replays a registration does not strand its budget. -/
def Traceless (rt : Runtime) (outage : Outage) (input : RevalidateInput)
    (now : ℤ) (ids : MintIds) (db : Database) : Prop :=
  ∀ state, Allowed rt outage input now state db →
    (Registers outage (registration rt input) ids.idempotency db →
      Completes rt outage input state.policy now ids db) ∧
    (Replays rt outage (registration rt input) db →
      ¬ Strands rt outage input state.policy now ids db)

/-- A blocked attempt leaves no trace, and later ones are judged as if it had
not been made. -/
def BlockedWithoutTrace (rt : Runtime) (outage : Outage)
    (input : RevalidateInput) (now : ℤ) (ids : MintIds) (db : Database) :
    Prop :=
  Blocked (revalidateDuring rt outage input now ids db).1 →
    NoTrace db (revalidateDuring rt outage input now ids db).2 ∧
      Judged rt db (revalidateDuring rt outage input now ids db).2

theorem blockedWithoutTrace_of_noTrace
    (h : NoTrace db (revalidateDuring rt outage input now ids db).2) :
    BlockedWithoutTrace rt outage input now ids db :=
  fun _ => ⟨h, h.judged rt⟩

theorem revalidateDuring_allowed {state : Resolved}
    (h : Allowed rt outage input now state db) :
    revalidateDuring rt outage input now ids db =
      mintDuring rt outage input state.policy now ids db := by
  obtain ⟨hup, hstate, hallow⟩ := h
  have hread : reading (resolve rt input now) db = (.ok state, db) :=
    reading_eq_ok.mpr ⟨hstate, rfl⟩
  unfold revalidateDuring
  rw [during_up hup, Fallible.bind_of_ok hread, Fallible.query_bind,
    if_neg (not_not.mpr hallow)]

/-- An attempt that is not allowed writes nothing. -/
theorem revalidateDuring_refused
    (h : ∀ state, ¬ Allowed rt outage input now state db) :
    (revalidateDuring rt outage input now ids db).2 = db := by
  unfold revalidateDuring
  cases hup : outage .readState with
  | true =>
      rw [during_down hup]
      rfl
  | false =>
      rw [during_up hup]
      rcases reading_bind_cases (resolve rt input now) (fun state => do
          let decision ← Fallible.query (fun db =>
            DecisionEngine.decide (decisionInput rt input state now db))
          if decision.result ≠ .allow then pure (refused decision)
          else mintDuring rt outage input state.policy now ids) db with
        ⟨failure, _, hend⟩ | ⟨state, hstate, hnext⟩
      · exact congrArg Prod.snd hend
      · refine (congrArg Prod.snd hnext).trans ?_
        rw [Fallible.query_bind,
          if_pos (fun hallow => h state ⟨hup, hstate, hallow⟩)]
        rfl

/-! ## Where the predicates look -/

section

variable (record : IdempotencyRecord)

theorem granted_register {request : Financial.ReserveInput}
    {accountUuid : String} :
    Granted rt outage request accountUuid uuid
        (idempotencyTable.insert record db) ↔
      Granted rt outage request accountUuid uuid db := by
  constructor
  · rintro ⟨hfindUp, hreserveUp, hfresh, row, amount, stored, change,
      hlocked, hrest⟩
    refine ⟨hfindUp, hreserveUp, hfresh, row, amount, stored, change, ?_,
      hrest⟩
    cases hlocked with
    | found hfind hrow => exact .found hfind hrow
    | opened hup hfind hallowed => exact .opened hup hfind hallowed
  · rintro ⟨hfindUp, hreserveUp, hfresh, row, amount, stored, change,
      hlocked, hrest⟩
    refine ⟨hfindUp, hreserveUp, hfresh, row, amount, stored, change, ?_,
      hrest⟩
    cases hlocked with
    | found hfind hrow => exact .found hfind hrow
    | opened hup hfind hallowed => exact .opened hup hfind hallowed

theorem completes_register :
    Completes rt outage input policy now ids
        (idempotencyTable.insert record db) ↔
      Completes rt outage input policy now ids db := by
  have hauthorizable : Authorizable rt outage input policy now
      ids.executionRequest (idempotencyTable.insert record db) ↔
        Authorizable rt outage input policy now ids.executionRequest db :=
    authorizable_of_same rfl rfl
  unfold Completes
  rw [granted_register, hauthorizable]
  rfl

end

theorem mintDuring_registers
    (h : Registers outage (registration rt input) ids.idempotency db) :
    mintDuring rt outage input policy now ids db =
      holdAndAuthorize rt outage input policy now ids
        (idempotencyTable.insert
          (Idempotency.newRecord rt (registration rt input) ids.idempotency)
          db) := by
  unfold mintDuring
  rw [Fallible.bind_of_ok (registerDuring_of_registers h)]

theorem mintDuring_replays
    (h : Replays rt outage (registration rt input) db) :
    mintDuring rt outage input policy now ids db =
      holdAndAuthorize rt outage input policy now ids db := by
  obtain ⟨record, hreplay⟩ :=
    @registerDuring_of_replays rt outage db _ ids.idempotency h
  unfold mintDuring
  rw [Fallible.bind_of_ok hreplay]

theorem mintDuring_refused
    (hnew : ¬ Registers outage (registration rt input) ids.idempotency db)
    (hreplay : ¬ Replays rt outage (registration rt input) db) :
    (mintDuring rt outage input policy now ids db).2 = db := by
  obtain ⟨failure, hfailed⟩ := registerDuring_refused hnew hreplay
  unfold mintDuring
  rw [Fallible.bind_of_error hfailed]

/-- An attempt that registers and does not complete leaves its record, or
the reservation as well. -/
theorem mintDuring_traces
    (h : Registers outage (registration rt input) ids.idempotency db)
    (hstops : ¬ Completes rt outage input policy now ids db) :
    Blocked (mintDuring rt outage input policy now ids db).1 ∧
      ¬ NoTrace db (mintDuring rt outage input policy now ids db).2 := by
  rw [mintDuring_registers h]
  let record := Idempotency.newRecord rt (registration rt input)
    ids.idempotency
  have hcompletes : ¬ Completes rt outage input policy now ids
      (idempotencyTable.insert record db) := by
    rw [completes_register record]
    exact hstops
  by_cases hstrands : Strands rt outage input policy now ids
      (idempotencyTable.insert record db)
  · obtain ⟨failure, db', hrun, hheld⟩ := holdAndAuthorize_strands hstrands
    rw [hrun]
    refine ⟨blocked_error failure, ?_⟩
    intro htrace
    exact hheld htrace.reservations
  · obtain ⟨result, db', hrun, hblocked, htrace⟩ :=
      holdAndAuthorize_blocked hcompletes hstrands
    rw [hrun]
    refine ⟨hblocked, ?_⟩
    intro hnone
    have hrecords : db.idempotencyRecords ++ [record] =
        db.idempotencyRecords :=
      htrace.records.symm.trans hnone.records
    have hlength := congrArg List.length hrecords
    rw [List.length_append, List.length_singleton] at hlength
    omega

theorem replayed_blockedWithoutTrace
    (h : Replays rt outage (registration rt input) db)
    (hstrands : ¬ Strands rt outage input policy now ids db) :
    Blocked (mintDuring rt outage input policy now ids db).1 →
      NoTrace db (mintDuring rt outage input policy now ids db).2 := by
  rw [mintDuring_replays h]
  intro hblocked
  by_cases hcompletes : Completes rt outage input policy now ids db
  · obtain ⟨outcome, db', hrun, hallow⟩ :=
      holdAndAuthorize_completes hcompletes
    rw [hrun] at hblocked
    exact absurd hblocked (not_blocked hallow)
  · obtain ⟨result, db', hrun, _, htrace⟩ :=
      holdAndAuthorize_blocked hcompletes hstrands
    rw [hrun]
    exact htrace

/-! ## Blocked attempts -/

/-- Which attempts leave no trace when they are blocked. -/
theorem blockedWithoutTrace_iff :
    BlockedWithoutTrace rt outage input now ids db ↔
      Traceless rt outage input now ids db := by
  constructor
  · intro hblocked state hallowed
    have hrun := @revalidateDuring_allowed rt outage input now db ids state
      hallowed
    unfold BlockedWithoutTrace at hblocked
    rw [hrun] at hblocked
    constructor
    · intro hregisters
      by_contra hstops
      obtain ⟨hblock, htrace⟩ := mintDuring_traces hregisters hstops
      exact htrace (hblocked hblock).1
    · intro hreplays hstrands
      rw [mintDuring_replays hreplays] at hblocked
      obtain ⟨failure, db', hstop, hheld⟩ :=
        holdAndAuthorize_strands hstrands
      rw [hstop] at hblocked
      exact hheld (hblocked (blocked_error failure)).1.reservations
  · intro htraceless
    by_cases hallowed : ∃ state, Allowed rt outage input now state db
    · obtain ⟨state, hallowed⟩ := hallowed
      obtain ⟨hnew, hreplayed⟩ := htraceless state hallowed
      have hrun := @revalidateDuring_allowed rt outage input now db ids
        state hallowed
      intro hblocked
      suffices htrace : NoTrace db
          (revalidateDuring rt outage input now ids db).2 from
        ⟨htrace, htrace.judged rt⟩
      rw [hrun] at hblocked ⊢
      by_cases hregisters :
          Registers outage (registration rt input) ids.idempotency db
      · have hcompletes : Completes rt outage input state.policy now ids
            (idempotencyTable.insert (Idempotency.newRecord rt
              (registration rt input) ids.idempotency) db) :=
          (completes_register _).mpr (hnew hregisters)
        obtain ⟨outcome, db', hdone, hallow⟩ :=
          holdAndAuthorize_completes hcompletes
        rw [mintDuring_registers hregisters, hdone] at hblocked
        exact absurd hblocked (not_blocked hallow)
      · by_cases hreplays : Replays rt outage (registration rt input) db
        · exact replayed_blockedWithoutTrace hreplays (hreplayed hreplays)
            hblocked
        · rw [mintDuring_refused hregisters hreplays]
          exact noTrace_refl db
    · push Not at hallowed
      apply blockedWithoutTrace_of_noTrace
      rw [revalidateDuring_refused hallowed]
      exact noTrace_refl db

end

/-! ## A budget that is used up -/

/-- 95 of the 100 of the sample's account are reserved. -/
def usedAccount : FinancialAccount :=
  { sampleAccount "base" with currentReserved := 95 }

def usedDatabase : Database :=
  { sampleDatabase [] with financialAccounts := [usedAccount] }

def usedPayment : RevalidateInput := simulated (.pinned []) sampleInput

/-- The same payment under a new decision. -/
def laterPayment : RevalidateInput :=
  { usedPayment with decisionId := "decision-2" }

theorem pinned_nil_collisionFree : (Runtime.pinned []).CollisionFree :=
  Runtime.pinned_collisionFree List.nodup_nil

theorem used_plain : Plain (.pinned []) usedPayment sampleNow := by
  constructor
  · decide
  · decide
  · exact ⟨rfl, rfl⟩
  · rfl
  · rfl
  · rfl
  · rfl
  · rfl

theorem later_plain : Plain (.pinned []) laterPayment sampleNow :=
  { used_plain with }

theorem used_ready : (resolve (.pinned []) usedPayment sampleNow
    usedDatabase).toOption.map Resolved.ready = some true := by
  decide

/-- A plain payment of an agent that is ready goes on to be minted. -/
theorem revalidate_of_plain {input : RevalidateInput}
    (hplain : Plain rt input now)
    (hready : (resolve rt input now db).toOption.map Resolved.ready =
      some true) :
    ∃ state, Allowed rt (fun _ => false) input now state db ∧
      revalidate rt input now ids db =
        mint rt input state.policy now ids db := by
  cases hresolve : resolve rt input now db with
  | error failure =>
      rw [hresolve] at hready
      cases hready
  | ok state =>
      rw [hresolve] at hready
      have hallow : (DecisionEngine.decide
          (decisionInput rt input state now db)).result = .allow :=
        DecisionEngine.decide_allow_iff_cleared.mpr
          (cleared_of_plain hplain (Option.some.inj hready))
      have hread : reading (resolve rt input now) db = (.ok state, db) :=
        reading_eq_ok.mpr ⟨hresolve, rfl⟩
      refine ⟨state, ⟨rfl, hresolve, hallow⟩, ?_⟩
      unfold revalidate
      rw [Fallible.bind_of_ok hread, Fallible.query_bind,
        if_neg (not_not.mpr hallow)]

/-- The tables once the payment is registered. -/
def usedRegistered : Database :=
  idempotencyTable.insert
    (Idempotency.newRecord (.pinned []) (registration (.pinned [])
      usedPayment) "record-1") usedDatabase

/-- The payment is over budget. -/
theorem used_refused : ∃ failure,
    Financial.reserve (.pinned []) (reserveInput usedPayment)
      sampleIds.account sampleIds.reservation usedRegistered =
        (.error failure, usedRegistered) ∧
    failure.hasCode .policyViolation = true := by
  have hcode : ((Financial.reserve (.pinned []) (reserveInput usedPayment)
      sampleIds.account sampleIds.reservation usedRegistered).1.mapError
        (Failure.hasCode .policyViolation)) = .error true := by
    decide +kernel
  cases hrun : Financial.reserve (.pinned []) (reserveInput usedPayment)
      sampleIds.account sampleIds.reservation usedRegistered with
  | mk result db' =>
      rw [hrun] at hcode
      cases result with
      | ok res => cases hcode
      | error failure =>
          have hstate := Financial.reserve_of_error hrun
          have hfound : Financial.findAccount
              (reserveInput usedPayment).toAccountKey usedRegistered =
                some usedAccount := rfl
          rw [Financial.ensureAccount_of_found hfound] at hstate
          rw [hstate]
          exact ⟨failure, rfl, Except.error.inj hcode⟩

theorem used_mint (policy : PolicyReading) :
    mint (.pinned []) usedPayment policy sampleNow sampleIds usedDatabase =
      (.ok budgetExceeded, usedRegistered) := by
  have hregister : Idempotency.register (.pinned [])
      (registration (.pinned []) usedPayment) sampleIds.idempotency
      usedDatabase = (.ok (.new, _), usedRegistered) :=
    Idempotency.register_first rfl
  have hexisting : findExisting (.pinned []) usedPayment usedRegistered =
      none := rfl
  obtain ⟨failure, hreserve, hcode⟩ := used_refused
  unfold mint
  rw [Fallible.bind_of_ok hregister, Fallible.query_bind]
  simp only [hexisting, Fallible.attempt_bind, hreserve, if_pos hcode]
  rfl

/-- The hash of a payload does not depend on the decision. -/
theorem payloadHash_decisionId (rt : Runtime) (input : RevalidateInput)
    (decisionId : String) :
    payloadHash rt input =
      payloadHash rt { input with decisionId := decisionId } := rfl

/-- The registration of the later payment differs from the one that was
left. -/
theorem later_conflicts (accounts : List FinancialAccount) :
    Idempotency.register (.pinned []) (registration (.pinned [])
        laterPayment) "record-2"
        { usedRegistered with financialAccounts := accounts } =
      (.error (Idempotency.conflict (registration (.pinned [])
        laterPayment)),
        { usedRegistered with financialAccounts := accounts }) := by
  have hfind : Idempotency.findRecord (registration (.pinned [])
      laterPayment) { usedRegistered with financialAccounts := accounts } =
        some (Idempotency.newRecord (.pinned []) (registration (.pinned [])
          usedPayment) "record-1") := by
    have hsame : Idempotency.SameKey
        (registration (.pinned []) laterPayment) (Idempotency.newRecord
          (.pinned []) (registration (.pinned []) usedPayment) "record-1") :=
      ⟨rfl, rfl, payloadHash_decisionId (.pinned []) usedPayment _⟩
    have hrows : idempotencyTable.rows
        { usedRegistered with financialAccounts := accounts } =
          [Idempotency.newRecord (.pinned []) (registration (.pinned [])
            usedPayment) "record-1"] := rfl
    unfold Idempotency.findRecord Table.find
    rw [hrows, List.find?_cons_of_pos]
    exact decide_eq_true hsame
  have hhash : (Idempotency.newRecord (.pinned [])
      (registration (.pinned []) usedPayment) "record-1").requestHash ≠
        Idempotency.requestHash (.pinned [])
          (registration (.pinned []) laterPayment).request := by
    intro heq
    obtain ⟨value, hmem, hvalue⟩ := @field_of_sha256Json_eq _
      pinned_nil_collisionFree _ _ heq "decisionId" _ (by decide)
      List.mem_cons_self
    have hlater : value = .string "decision-2" := by
      simp [laterPayment] at hmem
      exact hmem
    rw [hlater] at hvalue
    simp [usedPayment, simulated, sampleInput, canonicalize] at hvalue
  unfold Idempotency.register
  rw [Fallible.query_bind]
  simp only [hfind, Idempotency.replayOf]
  rw [if_pos hhash, Fallible.fail_apply]

/-- A payment over budget is denied and leaves its record, and the same
payment under a new decision is refused whatever the accounts hold. -/
theorem used_budget_blocks_retry :
    revalidate (.pinned []) usedPayment sampleNow sampleIds usedDatabase =
        (.ok budgetExceeded, usedRegistered) ∧
      (∀ accounts, (revalidate (.pinned []) laterPayment sampleNow
        ⟨"record-2", "account-2", "reservation-2", "request-2"⟩
        { usedRegistered with financialAccounts := accounts }).1 =
          .error (Idempotency.conflict (registration (.pinned [])
            laterPayment))) ∧
      ¬ BlockedWithoutTrace (.pinned []) (fun _ => false) usedPayment
        sampleNow sampleIds usedDatabase := by
  obtain ⟨state, _, hrun⟩ := @revalidate_of_plain (.pinned []) sampleNow
    usedDatabase sampleIds usedPayment used_plain used_ready
  rw [used_mint] at hrun
  refine ⟨hrun, ?_, ?_⟩
  · intro accounts
    obtain ⟨state, _, hlater⟩ := @revalidate_of_plain (.pinned []) sampleNow
      { usedRegistered with financialAccounts := accounts }
      ⟨"record-2", "account-2", "reservation-2", "request-2"⟩ laterPayment
      later_plain used_ready
    rw [hlater]
    unfold mint
    rw [Fallible.bind_of_error (later_conflicts accounts)]
  · intro hblocked
    unfold BlockedWithoutTrace at hblocked
    rw [revalidateDuring_up, hrun] at hblocked
    obtain ⟨htrace, _⟩ := hblocked (blocked_ok (by decide))
    cases htrace.records

end Revalidation
end Orvex
