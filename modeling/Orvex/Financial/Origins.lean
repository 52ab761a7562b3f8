import Orvex.Financial.Sessions

/-!
# Which call a session executes

The program point of a session tells which call it belongs to.  A session
publishes at most one completion, so calls that complete different
reservations complete each reservation at most once, however they
interleave.
-/

namespace Orvex
namespace Financial

open ReadCommitted

/-- The point is one of the points of the call. -/
def Belongs (rt : Runtime) (call : Call) : Pc → Prop
  | .ensureFind c => call = .reserve c
  | .ensureCreate c => call = .reserve c
  | .ensureCommit c _ => call = .reserve c
  | .ensureReread c => call = .reserve c
  | .reserveLock c _ _ => call = .reserve c
  | .reserveInsert c _ _ => call = .reserve c
  | .reserveUpdate c _ _ res =>
      call = .reserve c ∧ rt.storeText c.input.amount = some res.amount
  | .reserveCommit c res =>
      call = .reserve c ∧ rt.storeText c.input.amount = some res.amount
  | .load c => call = .complete c
  | .lockAccount c res => call = .complete c ∧ res.id = c.reservationId
  | .updateTotals c res _ => call = .complete c ∧ res.id = c.reservationId
  | .updateStatus c res => call = .complete c ∧ res.id = c.reservationId
  | .commitCompletion c res _ =>
      call = .complete c ∧ res.id = c.reservationId
  | .commitUnchanged _ => ∃ c, call = .complete c
  | .unknownFind companyId reservationId =>
      call = .markUnknown companyId reservationId
  | .unknownUpdate _ =>
      ∃ companyId reservationId, call = .markUnknown companyId reservationId
  | .unknownCommit _ _ =>
      ∃ companyId reservationId, call = .markUnknown companyId reservationId
  | .abort _ => True
  | .finished _ => True

theorem id_of_findReservation {companyId reservationId : String}
    {db : Database} {res : FinancialReservation}
    (h : findReservation companyId reservationId db = some res) :
    res.id = reservationId := by
  have hpred := List.find?_some h
  simp only [decide_eq_true_eq] at hpred
  exact hpred.1

section

variable {rt : Runtime} {call : Call} {db : Database}

theorem belongs_afterEnsure {c : ReserveCall} (h : call = .reserve c)
    (accountId : String) : Belongs rt call (afterEnsure rt c accountId) := by
  unfold afterEnsure
  split
  next => trivial
  next => exact h

theorem belongs_ensureFound {c : ReserveCall} (h : call = .reserve c)
    {missing : Pc} (hmissing : Belongs rt call missing) :
    Belongs rt call (ensureFound rt c missing db) := by
  unfold ensureFound
  split
  next => exact belongs_afterEnsure h _
  next => exact hmissing

theorem belongs_loaded {c : CompletionCall} (h : call = .complete c) :
    Belongs rt call (loaded c db) := by
  unfold loaded
  split
  next => trivial
  next res hfind =>
    split
    next => exact ⟨c, h⟩
    next =>
      split
      next => trivial
      next => exact ⟨h, id_of_findReservation hfind⟩

theorem belongs_unknownFound {companyId reservationId : String}
    (h : call = .markUnknown companyId reservationId) :
    Belongs rt call (unknownFound companyId reservationId db) := by
  unfold unknownFound
  split
  next => trivial
  next =>
    split
    next => trivial
    next => exact ⟨_, _, h⟩

theorem belongs_reserveLocked {c : ReserveCall} (h : call = .reserve c)
    (accountId : String) (amount : Decimal) :
    Belongs rt call (reserveLocked rt c accountId amount db) := by
  unfold reserveLocked
  split
  next => trivial
  next =>
    split
    next => trivial
    next => exact h

theorem belongs_totalsLocked {c : CompletionCall}
    {res : FinancialReservation}
    (h : call = .complete c ∧ res.id = c.reservationId) :
    Belongs rt call (totalsLocked c res db) := by
  unfold totalsLocked
  split
  next => trivial
  next => exact h

theorem belongs_read {pc : Pc} {after : Database → Pc}
    (hpc : Belongs rt call pc) (hstmt : stmt rt pc = .read after) :
    Belongs rt call (after db) := by
  rcases stmt_eq_read hstmt with ⟨c, rfl, rfl⟩ | ⟨c, rfl, rfl⟩ |
    ⟨c, rfl, rfl⟩ | ⟨companyId, reservationId, rfl, rfl⟩
  · exact belongs_ensureFound hpc hpc
  · exact belongs_ensureFound hpc trivial
  · exact belongs_loaded hpc
  · exact belongs_unknownFound hpc

theorem belongs_lock {pc : Pc} {key : RowKey} {after : Database → Pc}
    (hpc : Belongs rt call pc) (hstmt : stmt rt pc = .lock key after) :
    Belongs rt call (after db) := by
  rcases stmt_eq_lock hstmt with ⟨c, accountId, amount, rfl, _, rfl⟩ |
    ⟨c, res, rfl, _, rfl⟩
  · exact belongs_reserveLocked hpc _ _
  · exact belongs_totalsLocked hpc

theorem belongs_write {pc : Pc}
    {plan : Database → Option (Write Database RowKey × Pc)}
    {failed point : Pc} {write : Write Database RowKey}
    (hpc : Belongs rt call pc) (hstmt : stmt rt pc = .write plan failed)
    (hplan : plan db = some (write, point)) : Belongs rt call point := by
  rcases stmt_eq_write hstmt with ⟨c, rfl, rfl, _⟩ |
    ⟨c, row, amount, rfl, rfl, _⟩ | ⟨c, row, amount, res, rfl, rfl, _⟩ |
    ⟨c, res, row, rfl, rfl, _⟩ | ⟨c, res, rfl, rfl, _⟩ |
    ⟨res, rfl, rfl, _⟩
  · obtain ⟨account, _, _, _, rfl⟩ := planAccount_eq_some hplan
    exact hpc
  · obtain ⟨stored, res, hstored, rfl, _, _, rfl⟩ :=
      planReservation_eq_some hplan
    exact ⟨hpc, hstored⟩
  · obtain ⟨_, _, _, rfl⟩ := planReserved_eq_some hplan
    exact hpc
  · obtain ⟨_, _, _, rfl⟩ := planTotals_eq_some hplan
    exact hpc
  · obtain ⟨_, _, _, rfl⟩ := planStatus_eq_some hplan
    exact hpc
  · obtain ⟨_, _, _, rfl⟩ := planStatus_eq_some hplan
    exact hpc

theorem belongs_violate {pc : Pc}
    {plan : Database → Option (Write Database RowKey × Pc)} {failed : Pc}
    (hpc : Belongs rt call pc) (hstmt : stmt rt pc = .write plan failed) :
    Belongs rt call failed := by
  rcases stmt_eq_write hstmt with ⟨c, rfl, _, rfl⟩ |
    ⟨c, row, amount, _, _, rfl⟩ | ⟨c, row, amount, res, _, _, rfl⟩ |
    ⟨c, res, row, _, _, rfl⟩ | ⟨c, res, _, _, rfl⟩ | ⟨res, _, _, rfl⟩
  · exact hpc
  all_goals trivial

theorem belongs_commit {pc point : Pc} (hpc : Belongs rt call pc)
    (hstmt : stmt rt pc = .commit point) : Belongs rt call point := by
  rcases stmt_eq_commit hstmt with ⟨c, account, rfl, rfl⟩ |
    ⟨c, res, _, rfl⟩ | ⟨res, _, rfl⟩ | ⟨c, res, settled, _, rfl⟩ |
    ⟨res, marked, _, rfl⟩
  · exact belongs_afterEnsure hpc _
  all_goals trivial

end

variable {ι : Type*} [DecidableEq ι] {rt : Runtime} {calls : ι → Call}
  {ledger next : Ledger ι} {event : Event ι}

/-- Every session stays at points of its own call. -/
theorem belongs_step
    (hbelongs : ∀ i, Belongs rt (calls i) (ledger.sessions i).point)
    (hstep : Step (program rt) ledger event next) (i : ι) :
    Belongs rt (calls i) (next.sessions i).point := by
  by_cases hown : i = event.session
  · subst hown
    cases hstep with
    | read hstmt =>
        simp only [Event.session, Machine.put_sessions_self]
        exact belongs_read (hbelongs _) hstmt
    | lock hstmt _ =>
        simp only [Event.session, Machine.put_sessions_self]
        exact belongs_lock (hbelongs _) hstmt
    | write hstmt hplan _ =>
        simp only [Event.session, Machine.put_sessions_self]
        exact belongs_write (hbelongs _) hstmt hplan
    | violate hstmt _ =>
        simp only [Event.session, Machine.put_sessions_self]
        exact belongs_violate (hbelongs _) hstmt
    | commit hstmt =>
        simp only [Event.session, Machine.publish_sessions_self,
          Session.start]
        exact belongs_commit (hbelongs _) hstmt
    | rollback hstmt =>
        obtain ⟨failure, _, rfl⟩ := stmt_eq_rollback hstmt
        simp [Event.session, Session.start, Belongs]
    | lose _ => simp [Event.session, Session.start, Belongs, program]
  · rw [hstep.sessions_of_ne hown]
    exact hbelongs i

omit [DecidableEq ι] in
theorem belongs_launch (rt : Runtime) (db : Database) (calls : ι → Call)
    (i : ι) :
    Belongs rt (calls i) ((launch db calls).sessions i).point := by
  cases hcall : calls i <;>
    simp [launch, Session.start, hcall, Call.start, Belongs]

/-- A finished session stays finished, with the same result. -/
theorem finished_step {i : ι}
    {result : Except Failure FinancialReservation}
    (hfinished : (ledger.sessions i).point = .finished result)
    (hstep : Step (program rt) ledger event next) :
    (next.sessions i).point = .finished result := by
  have hhalt : (program rt).stmt (ledger.sessions i).point = .halt := by
    rw [hfinished]
    rfl
  rw [hstep.sessions_of_halt hhalt]
  exact hfinished

/-! ## Who publishes an effect -/

omit [DecidableEq ι] in
/-- A published effect is that of the point its session commits at. -/
theorem effect_of_published {step : Database × Effect}
    (hmem : step ∈ published ledger event) :
    ∃ i, event = .run i ∧
      (ledger.sessions i).point.effect = some step.2 := by
  cases event with
  | lose i => simp [published] at hmem
  | run i =>
      refine ⟨i, rfl, ?_⟩
      simp only [published] at hmem
      split at hmem
      next effect heffect =>
        rw [List.mem_singleton] at hmem
        rw [heffect, hmem]
      next => simp at hmem

theorem point_of_completed {pc : Pc} {kind : Completion}
    {res : FinancialReservation}
    (h : pc.effect = some (.completed kind res)) :
    ∃ c settled, pc = .commitCompletion c res settled := by
  cases pc <;> simp [Pc.effect] at h
  case commitCompletion c res' settled =>
    obtain ⟨_, rfl⟩ := h
    exact ⟨c, settled, rfl⟩

theorem point_of_reserved {pc : Pc} {res : FinancialReservation}
    (h : pc.effect = some (.reserved res)) :
    ∃ c, pc = .reserveCommit c res := by
  cases pc <;> simp [Pc.effect] at h
  case reserveCommit c res' =>
    subst h
    exact ⟨c, rfl⟩

/-- A session that commits is where its statement says. -/
theorem point_after_commit {i : ι} {point : Pc}
    (hstep : Step (program rt) ledger (.run i) next)
    (hstmt : stmt rt (ledger.sessions i).point = .commit point) :
    (next.sessions i).point = point := by
  cases hstep with
  | commit hstmt' =>
      have hpoint : point = _ :=
        (Stmt.commit.injEq _ _).mp (hstmt.symm.trans hstmt')
      simp [Session.start, hpoint]
  | read hstmt' => exact absurd (hstmt.symm.trans hstmt') (by simp)
  | lock hstmt' _ => exact absurd (hstmt.symm.trans hstmt') (by simp)
  | write hstmt' _ _ => exact absurd (hstmt.symm.trans hstmt') (by simp)
  | violate hstmt' _ => exact absurd (hstmt.symm.trans hstmt') (by simp)
  | rollback hstmt' => exact absurd (hstmt.symm.trans hstmt') (by simp)

end Financial
end Orvex
