import Orvex.Financial.Solo
import Orvex.Gate.Outages

/-!
# What a blocked attempt leaves behind

A revalidation that is denied or throws writes nothing unless it has
registered its execution, or has held the budget, before it stops.
-/

namespace Orvex
namespace Revalidation

open Financial (findAccount lookupAccount lookupReservation newAccount
  insertAccount AccountAllowed AccountKey ReserveInput)

/-- Totals, reservations, requests and records are as they were. -/
structure NoTrace (db db' : Database) : Prop where
  reserved : ∀ id, Financial.reservedTotal id db' =
    Financial.reservedTotal id db
  committed : ∀ id, Financial.committedTotal id db' =
    Financial.committedTotal id db
  reservations : db'.financialReservations = db.financialReservations
  requests : db'.executionRequests = db.executionRequests
  records : db'.idempotencyRecords = db.idempotencyRecords

theorem noTrace_refl (db : Database) : NoTrace db db :=
  ⟨fun _ => rfl, fun _ => rfl, rfl, rfl, rfl⟩

/-- An empty account adds nothing to the totals. -/
theorem noTrace_insertAccount {key : AccountKey} {uuid : String}
    {db : Database} (hfresh : lookupAccount uuid db = none) :
    NoTrace db (insertAccount (newAccount key none uuid) db) := by
  refine ⟨?_, ?_, rfl, rfl, rfl⟩
  · intro id
    exact Financial.total_insertAccount FinancialAccount.currentReserved
      hfresh rfl id
  · intro id
    exact Financial.total_insertAccount FinancialAccount.currentCommitted
      hfresh rfl id

/-! ## The budget -/

/-- The account that a reservation locks. -/
inductive LockedRow (outage : Outage) (key : AccountKey) (uuid : String)
    (db : Database) : FinancialAccount → Prop
  | found {account row : FinancialAccount}
      (hfind : findAccount key db = some account)
      (hrow : lookupAccount account.id db = some row) :
      LockedRow outage key uuid db row
  | opened (hup : outage .createAccount = false)
      (hfind : findAccount key db = none)
      (hallowed : AccountAllowed (newAccount key none uuid) db) :
      LockedRow outage key uuid db (newAccount key none uuid)

/-- The budget of the bucket holds the amount. -/
structure Granted (rt : Runtime) (outage : Outage) (input : ReserveInput)
    (accountUuid uuid : String) (db : Database) : Prop where
  findUp : outage .findAccount = false
  reserveUp : outage .reserve = false
  fresh : lookupReservation uuid db = none
  budget : ∃ row amount stored change,
    LockedRow outage input.toAccountKey accountUuid db row ∧
      rt.toDecimal input.amount = some amount ∧
      Financial.budgetRefusal rt input.amount amount row = none ∧
      rt.storeText input.amount = some stored ∧
      Financial.reserveChange rt row amount = some change

section

variable {rt : Runtime} {outage : Outage} {db : Database}
  {input : ReserveInput} {accountUuid uuid : String}

theorem ensureAccountDuring_found {key : AccountKey}
    {account : FinancialAccount} (hup : outage .findAccount = false)
    (hfind : findAccount key db = some account) :
    ensureAccountDuring rt outage key accountUuid db = (.ok account, db) := by
  unfold ensureAccountDuring
  rw [during_up hup, Fallible.query_bind]
  simp only [hfind, Fallible.pure_apply]

theorem ensureAccountDuring_opened {key : AccountKey}
    (hup : outage .findAccount = false)
    (hcreateUp : outage .createAccount = false)
    (hfind : findAccount key db = none)
    (hallowed : AccountAllowed (newAccount key none accountUuid) db) :
    ensureAccountDuring rt outage key accountUuid db =
      (.ok (newAccount key none accountUuid),
        insertAccount (newAccount key none accountUuid) db) := by
  have hcreate := Financial.createAccount_eq rt key none accountUuid db
  simp only [Financial.storedLimit, if_pos hallowed] at hcreate
  unfold ensureAccountDuring
  rw [during_up hup, Fallible.query_bind]
  simp only [hfind, during_up hcreateUp, Fallible.attempt_bind, hcreate,
    Fallible.pure_apply]

/-- No account is found, and none can be opened. -/
theorem ensureAccountDuring_refused {key : AccountKey}
    (hfind : findAccount key db = none)
    (hopened : outage .createAccount = true ∨
      ¬ AccountAllowed (newAccount key none accountUuid) db) :
    ∃ failure, ensureAccountDuring rt outage key accountUuid db =
      (.error failure, db) := by
  unfold ensureAccountDuring
  cases hup : outage .findAccount with
  | true =>
      rw [during_down hup]
      exact ⟨_, rfl⟩
  | false =>
      have hfailed : ∃ failure, during outage .createAccount
          (Financial.createAccount rt key none accountUuid) db =
            (.error failure, db) := by
        cases hcreateUp : outage .createAccount with
        | true =>
            rw [during_down hcreateUp]
            exact ⟨_, rfl⟩
        | false =>
            have hallowed := hopened.resolve_left
              (by rw [hcreateUp]; exact Bool.false_ne_true)
            have hcreate :=
              Financial.createAccount_eq rt key none accountUuid db
            simp only [Financial.storedLimit, if_neg hallowed] at hcreate
            rw [during_up hcreateUp]
            exact ⟨_, hcreate⟩
      obtain ⟨failure, hfailed⟩ := hfailed
      rw [during_up hup, Fallible.query_bind]
      simp only [hfind, Fallible.attempt_bind, hfailed]
      cases hrereadUp : outage .rereadAccount with
      | true =>
          rw [during_down hrereadUp]
          exact ⟨_, rfl⟩
      | false =>
          rw [during_up hrereadUp, Fallible.query_bind]
          simp only [hfind]
          exact ⟨_, rfl⟩

theorem find_insertAccount {key : AccountKey}
    (hfind : findAccount key db = none) :
    findAccount key (insertAccount (newAccount key none accountUuid) db) =
      some (newAccount key none accountUuid) := by
  unfold findAccount insertAccount at *
  rw [List.find?_append, hfind, Option.none_or]
  exact List.find?_cons_of_pos
    (decide_eq_true (Financial.newAccount_matches key none accountUuid))

/-- On the account that is found, this is the whole reservation. -/
theorem reserveOn_eq_reserve {account : FinancialAccount}
    (hfind : findAccount input.toAccountKey db = some account) :
    Financial.reserveOn rt input uuid account db =
      Financial.reserve rt input accountUuid uuid db := by
  rw [Financial.reserve_eq_reserveOn,
    Fallible.bind_of_ok (Financial.ensureAccount_of_found hfind)]

theorem reserveOn_of_error {account : FinancialAccount}
    (hfind : findAccount input.toAccountKey db = some account)
    {failure : Failure} {db' : Database}
    (h : Financial.reserveOn rt input uuid account db =
      (.error failure, db')) : db' = db := by
  rw [@reserveOn_eq_reserve rt db input "" uuid account hfind] at h
  have hstate := Financial.reserve_of_error h
  rw [Financial.ensureAccount_of_found hfind] at hstate
  exact hstate

/-- A granted reservation, and the tables that it leaves. -/
theorem reserveDuring_granted
    (h : Granted rt outage input accountUuid uuid db) :
    ∃ res held, reserveDuring rt outage input accountUuid uuid db =
        (.ok res, held) ∧
      held.financialReservations = db.financialReservations ++ [res] ∧
      held.executionRequests = db.executionRequests ∧
      held.companies = db.companies ∧
      lookupReservation res.id held = some res := by
  obtain ⟨row, amount, stored, change, hlocked, hamount, hbudget, hstored,
    hchange⟩ := h.budget
  have hreserve : ∀ {account : FinancialAccount} {mid : Database},
      ensureAccountDuring rt outage input.toAccountKey accountUuid db =
        (.ok account, mid) →
      findAccount input.toAccountKey mid = some account →
      lookupAccount account.id mid = some row →
      lookupReservation uuid mid = none →
      reserveDuring rt outage input accountUuid uuid db =
        (.ok (Financial.newReservation input account.id stored uuid),
          Financial.updateAccount account.id change
            (Financial.insertReservation
              (Financial.newReservation input account.id stored uuid)
              mid)) := by
    intro account mid hensure hfind hrow hfresh
    have hwhole := @Financial.reserve_of_budget rt input accountUuid uuid mid
      mid account row amount stored change
      (Financial.ensureAccount_of_found hfind) hrow hamount hbudget hstored
      hfresh hchange
    rw [← reserveOn_eq_reserve hfind] at hwhole
    unfold reserveDuring
    rw [Fallible.bind_of_ok hensure, during_up h.reserveUp]
    exact hwhole
  have hlookup : ∀ (account : FinancialAccount) (mid : Database),
      lookupReservation uuid mid = none →
      lookupReservation uuid (Financial.updateAccount account.id change
        (Financial.insertReservation
          (Financial.newReservation input account.id stored uuid) mid)) =
        some (Financial.newReservation input account.id stored uuid) := by
    intro account mid hfresh
    have hid : (Financial.newReservation input account.id stored uuid).id =
        uuid := rfl
    rw [Financial.lookupReservation_updateAccount,
      Financial.lookupReservation_insertReservation, hfresh, Option.none_or,
      if_pos hid]
  cases hlocked with
  | @found account row hfind hrow =>
      exact ⟨_, _, hreserve (ensureAccountDuring_found h.findUp hfind) hfind
        hrow h.fresh, rfl, rfl, rfl, hlookup account db h.fresh⟩
  | opened hup hfind hallowed =>
      refine ⟨_, _, hreserve
        (ensureAccountDuring_opened h.findUp hup hfind hallowed)
        (find_insertAccount hfind) ?_ h.fresh, rfl, rfl, rfl,
        hlookup _ _ h.fresh⟩
      have hid : (newAccount input.toAccountKey none accountUuid).id =
          accountUuid := rfl
      have hfresh : lookupAccount
          (newAccount input.toAccountKey none accountUuid).id db = none :=
        hallowed.2.1
      rw [Financial.lookupAccount_insertAccount, hfresh, Option.none_or,
        if_pos rfl]

/-- A reservation on an account that is there and refuses it. -/
theorem reserveOn_refused {account : FinancialAccount} {mid : Database}
    (hensure : ensureAccountDuring rt outage input.toAccountKey accountUuid
      db = (.ok account, mid))
    (hfind : findAccount input.toAccountKey mid = some account)
    (hrefused : outage .reserve = false → ∀ res db',
      Financial.reserveOn rt input uuid account mid ≠ (.ok res, db')) :
    ∃ failure, reserveDuring rt outage input accountUuid uuid db =
      (.error failure, mid) := by
  unfold reserveDuring
  rw [Fallible.bind_of_ok hensure]
  cases hup : outage .reserve with
  | true =>
      rw [during_down hup]
      exact ⟨_, rfl⟩
  | false =>
      rw [during_up hup]
      cases hrun : Financial.reserveOn rt input uuid account mid with
      | mk result db' =>
          cases result with
          | ok res => exact absurd hrun (hrefused hup res db')
          | error failure =>
              rw [reserveOn_of_error hfind hrun]
              exact ⟨failure, rfl⟩

/-- A reservation that is not granted opens an empty account at most. -/
theorem reserveDuring_refused
    (h : ¬ Granted rt outage input accountUuid uuid db) :
    ∃ failure mid, reserveDuring rt outage input accountUuid uuid db =
      (.error failure, mid) ∧ NoTrace db mid := by
  -- what a reservation that succeeds all the same has read
  have hgranted : ∀ {account : FinancialAccount} {mid : Database},
      outage .findAccount = false →
      findAccount input.toAccountKey mid = some account →
      mid.financialReservations = db.financialReservations →
      (∀ row, lookupAccount account.id mid = some row →
        LockedRow outage input.toAccountKey accountUuid db row) →
      outage .reserve = false → ∀ res db',
        Financial.reserveOn rt input uuid account mid ≠ (.ok res, db') := by
    intro account mid hfindUp hfind hsame hlocked hreserveUp res db' hok
    rw [@reserveOn_eq_reserve rt mid input accountUuid uuid account hfind]
      at hok
    obtain ⟨account', mid', hensure, row, amount, stored, change,
      hreserved⟩ := Financial.reserve_eq_ok hok
    rw [Financial.ensureAccount_of_found hfind, Prod.mk.injEq,
      Except.ok.injEq] at hensure
    obtain ⟨rfl, rfl⟩ := hensure
    have hfresh : lookupReservation uuid db = none := by
      have hnew := hreserved.allowed.2
      rw [hreserved.res_eq] at hnew
      unfold lookupReservation at hnew ⊢
      rw [← hsame]
      exact hnew
    exact h ⟨hfindUp, hreserveUp, hfresh, row, amount, stored, change,
      hlocked row hreserved.row_found, hreserved.amount_read,
      hreserved.accepted, hreserved.amount_stored, hreserved.row_change⟩
  cases hfindUp : outage .findAccount with
  | true =>
      refine ⟨.connectionLost, db, ?_, noTrace_refl db⟩
      unfold reserveDuring ensureAccountDuring
      rw [during_down hfindUp]
      rfl
  | false =>
      cases hfind : findAccount input.toAccountKey db with
      | some account =>
          obtain ⟨failure, hfailed⟩ := reserveOn_refused
            (ensureAccountDuring_found hfindUp hfind) hfind
            (hgranted hfindUp hfind rfl (fun row hrow => .found hfind hrow))
          exact ⟨failure, db, hfailed, noTrace_refl db⟩
      | none =>
          by_cases hopened : outage .createAccount = false ∧
              AccountAllowed (newAccount input.toAccountKey none accountUuid)
                db
          · obtain ⟨hup, hallowed⟩ := hopened
            have hnew := @find_insertAccount db accountUuid _ hfind
            have hrow : ∀ row, lookupAccount
                (newAccount input.toAccountKey none accountUuid).id
                (insertAccount
                  (newAccount input.toAccountKey none accountUuid) db) =
                    some row →
                LockedRow outage input.toAccountKey accountUuid db row := by
              intro row hrow
              have hfresh : lookupAccount
                  (newAccount input.toAccountKey none accountUuid).id db =
                    none := hallowed.2.1
              rw [Financial.lookupAccount_insertAccount, hfresh,
                Option.none_or, if_pos rfl, Option.some.injEq] at hrow
              rw [← hrow]
              exact .opened hup hfind hallowed
            obtain ⟨failure, hfailed⟩ := reserveOn_refused
              (ensureAccountDuring_opened hfindUp hup hfind hallowed) hnew
              (hgranted hfindUp hnew rfl hrow)
            exact ⟨failure, _, hfailed,
              noTrace_insertAccount hallowed.2.1⟩
          · have hrefused : outage .createAccount = true ∨
                ¬ AccountAllowed
                  (newAccount input.toAccountKey none accountUuid) db := by
              by_cases hup : outage .createAccount = false
              · exact Or.inr (fun hallowed => hopened ⟨hup, hallowed⟩)
              · exact Or.inl (Bool.eq_true_of_not_eq_false hup)
            obtain ⟨failure, hfailed⟩ :=
              @ensureAccountDuring_refused rt outage db accountUuid _ hfind
                hrefused
            refine ⟨failure, db, ?_, noTrace_refl db⟩
            unfold reserveDuring
            exact Fallible.bind_of_error hfailed

end

end Revalidation
end Orvex
