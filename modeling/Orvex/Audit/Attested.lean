import Orvex.Audit.Attestation

/-!
# Truthful attestations

The records stay truthful in a run exactly when its steps are careful.  The
invariant says that identifiers are unique, that dates and statuses agree and
that every submission gave the commitment of its record.
-/

namespace Orvex
namespace Attestation

open Awaits Awaits.Program

variable {records records' : Records} {pool pool' : AttestationPool}
variable {call : AttestationCall} {point point' : AttestationPoint}
variable {answer : AttestationAnswer} {outcome : AdapterOutcome} {now : ℤ}
variable {record : AttestationRecord}

/-! ## Outcomes -/

/-- An outcome fits exactly when it keeps the date and the status in
agreement and leaves a confirmed record as it is. -/
theorem fits_iff (hdated : Dated record) :
    Fits call outcome now record ↔
      Dated (call.write outcome now record) ∧
        (record.status = .confirmed →
          call.write outcome now record = record) := by
  constructor
  · intro hfits
    obtain ⟨hkept, hnone⟩ := hfits
    constructor
    · cases outcome with
      | failed error =>
          have hopen : record.status ≠ .confirmed := by
            intro hconfirmed
            obtain ⟨hash, hsame, -⟩ := hkept hconfirmed
            cases hsame
          have hundated : record.confirmedAt.isSome ≠ true :=
            fun hsome => hopen (hdated.mp hsome)
          cases call with
          | attest payload =>
              constructor
              · intro hsome
                exact absurd hsome hundated
              · intro hstatus
                cases hstatus
          | retry companyId id payload =>
              constructor
              · intro hsome
                exact absurd hsome hundated
              · intro hstatus
                cases hstatus
      | submitted hash =>
          cases call with
          | attest payload =>
              constructor
              · intro hsome
                cases hsome
              · intro hstatus
                cases hstatus
          | retry companyId id payload =>
              exact absurd rfl (hnone companyId id payload hash rfl)
      | confirmed hash =>
          cases call with
          | attest payload => exact ⟨fun _ => rfl, fun _ => rfl⟩
          | retry companyId id payload =>
              exact ⟨fun _ => rfl, fun _ => rfl⟩
    · intro hconfirmed
      obtain ⟨hash, houtcome, hhash, hdate⟩ := hkept hconfirmed
      rw [houtcome]
      cases record
      cases call with
      | attest payload =>
          simp only [AttestationCall.write, attestOutcome] at hhash hdate ⊢
          rw [← hhash, ← hdate, ← hconfirmed]
      | retry companyId id payload =>
          simp only [AttestationCall.write, retryOutcome] at hhash hdate ⊢
          rw [← hhash, ← hdate, ← hconfirmed]
  · intro h
    obtain ⟨hwritten, hkept⟩ := h
    constructor
    · intro hconfirmed
      have hsame := hkept hconfirmed
      have hstatus := congrArg AttestationRecord.status hsame
      have hhash := congrArg AttestationRecord.registryTxHash hsame
      have hdate := congrArg AttestationRecord.confirmedAt hsame
      rw [hconfirmed] at hstatus
      cases outcome with
      | failed error => cases call <;> cases hstatus
      | submitted hash => cases call <;> cases hstatus
      | confirmed hash =>
          cases call with
          | attest payload => exact ⟨hash, rfl, hhash.symm, hdate.symm⟩
          | retry companyId id payload =>
              exact ⟨hash, rfl, hhash.symm, hdate.symm⟩
    · intro companyId id payload hash hcall houtcome
      rw [hcall, houtcome] at hwritten
      have hstatus := hwritten.mp rfl
      cases hstatus

/-! ## What a call does -/

theorem enter_cases (call : AttestationCall) (answer : AttestationAnswer)
    (records : Records) :
    (∃ id payload, lookup id records = none ∧
        enter call answer records =
          (records ++ [pendingRecord id payload], .submitting id payload)) ∨
      (∃ companyId id payload row record, call = .retry companyId id payload ∧
        answer = .row row ∧ findRecord companyId id records = some record ∧
        record.status ≠ .confirmed ∧
        enter call answer records =
          (records, .submitting record.id payload)) ∨
      ∃ point, enter call answer records = (records, point) ∧
        point.submission = none := by
  cases answer with
  | row id =>
      cases call with
      | attest payload =>
          simp only [enter]
          cases hlookup : lookup id records with
          | none => exact Or.inl ⟨id, payload, hlookup, rfl⟩
          | some record => exact Or.inr (Or.inr ⟨_, rfl, rfl⟩)
      | retry companyId attestationId payload =>
          right
          simp only [enter]
          cases hfind : findRecord companyId attestationId records with
          | none => exact Or.inr ⟨_, rfl, rfl⟩
          | some record =>
              simp only
              by_cases hconfirmed : record.status = .confirmed
              · rw [if_pos hconfirmed]
                exact Or.inr ⟨_, rfl, rfl⟩
              · rw [if_neg hconfirmed]
                exact Or.inl ⟨companyId, attestationId, payload, id, record,
                  rfl, rfl, hfind, hconfirmed, rfl⟩
  | outcome outcome now =>
      cases call <;> exact Or.inr (Or.inr ⟨_, rfl, rfl⟩)
  | raised => cases call <;> exact Or.inr (Or.inr ⟨_, rfl, rfl⟩)

theorem resume_cases
    (h : resume call point answer records = some (records', point')) :
    point'.submission = none ∧
      (records' = records ∨
        ∃ id payload outcome now record, point = .submitting id payload ∧
          answer = .outcome outcome now ∧ lookup id records = some record ∧
          records' = KeyedTable.modify AttestationRecord.id id
            (call.write outcome now) records) := by
  cases point with
  | submitting id payload =>
      cases answer with
      | row row => cases h
      | outcome outcome now =>
          simp only [resume, update, Option.some.injEq] at h
          cases hlookup : lookup id records with
          | none =>
              rw [hlookup] at h
              cases h
              exact ⟨rfl, Or.inl rfl⟩
          | some record =>
              rw [hlookup] at h
              cases h
              exact ⟨rfl, Or.inr ⟨id, payload, outcome, now, record, rfl,
                rfl, hlookup, rfl⟩⟩
      | raised =>
          cases h
          exact ⟨rfl, Or.inl rfl⟩
  | returned record => cases h
  | thrown => cases h

theorem mem_submissions_next
    {task : Task AttestationCall AttestationPoint AttestationAnswer}
    {submission : String × AttestationPayload} :
    submission ∈ submissions (task.next answer point) ↔
      point.submission = some submission ∨ submission ∈ submissions task := by
  unfold submissions Task.next
  simp only [List.mem_filterMap, List.mem_cons, List.map_append,
    List.mem_append, List.map_cons, List.map_nil, List.not_mem_nil, or_false]
  constructor
  · intro h
    obtain ⟨found, hfound, hsubmission⟩ := h
    rcases hfound with hpoint | hpast | hlast
    · rw [hpoint] at hsubmission
      exact Or.inl hsubmission
    · exact Or.inr ⟨found, Or.inr hpast, hsubmission⟩
    · exact Or.inr ⟨found, Or.inl hlast, hsubmission⟩
  · intro h
    rcases h with hpoint | hold
    · exact ⟨point, Or.inl rfl, hpoint⟩
    · obtain ⟨found, hfound, hsubmission⟩ := hold
      rcases hfound with hlast | hpast
      · exact ⟨found, Or.inr (Or.inr hlast), hsubmission⟩
      · exact ⟨found, Or.inr (Or.inl hpast), hsubmission⟩

/-! ## The invariant -/

structure Sound (pool : AttestationPool) : Prop where
  unique : KeyedTable.UniqueKeys AttestationRecord.id pool.shared
  dated : ∀ record ∈ pool.shared, Dated record
  submitted : ∀ task ∈ pool.tasks, ∀ submission ∈ submissions task,
    ∃ record ∈ pool.shared, record.id = submission.1 ∧
      record.commitment = submission.2

/-- The records of one list are those of another, with what they commit to. -/
def Keeps (records records' : Records) : Prop :=
  ∀ record ∈ records, ∃ record' ∈ records', record'.id = record.id ∧
    record'.commitment = record.commitment

theorem keeps_refl (records : Records) : Keeps records records :=
  fun record hrecord => ⟨record, hrecord, rfl, rfl⟩

theorem keeps_append (records : Records) (record : AttestationRecord) :
    Keeps records (records ++ [record]) :=
  fun old hold => ⟨old, List.mem_append_left _ hold, rfl, rfl⟩

theorem mem_modify {id : String}
    {change : AttestationRecord → AttestationRecord} :
    record ∈ KeyedTable.modify AttestationRecord.id id change records ↔
      ∃ old ∈ records,
        record = if old.id = id then change old else old := by
  unfold KeyedTable.modify
  rw [List.mem_map]
  constructor
  · intro h
    obtain ⟨old, hold, hsame⟩ := h
    exact ⟨old, hold, hsame.symm⟩
  · intro h
    obtain ⟨old, hold, hsame⟩ := h
    exact ⟨old, hold, hsame.symm⟩

theorem keeps_modify (records : Records) (id : String) :
    Keeps records (KeyedTable.modify AttestationRecord.id id
      (call.write outcome now) records) := by
  intro record hrecord
  refine ⟨_, mem_modify.mpr ⟨record, hrecord, rfl⟩, ?_⟩
  by_cases hsame : record.id = id
  · rw [if_pos hsame]
    exact ⟨write_id _ _ _ _, commitment_write _ _ _ _⟩
  · rw [if_neg hsame]
    exact ⟨rfl, rfl⟩

theorem eq_of_id {record' : AttestationRecord}
    (hunique : KeyedTable.UniqueKeys AttestationRecord.id records)
    (hrecord : record ∈ records) (hrecord' : record' ∈ records)
    (hid : record.id = record'.id) : record = record' := by
  have hfirst := KeyedTable.lookup_of_mem hunique hrecord
  have hsecond := KeyedTable.lookup_of_mem hunique hrecord'
  rw [hid, hsecond, Option.some.injEq] at hfirst
  exact hfirst.symm

theorem Sound.submitted_kept (h : Sound pool)
    (hkeeps : Keeps pool.shared records')
    {task : Task AttestationCall AttestationPoint AttestationAnswer}
    (htask : task ∈ pool.tasks) {submission : String × AttestationPayload}
    (hsubmission : submission ∈ submissions task) :
    ∃ record ∈ records', record.id = submission.1 ∧
      record.commitment = submission.2 := by
  obtain ⟨record, hrecord, hid, hcommitment⟩ :=
    h.submitted task htask submission hsubmission
  obtain ⟨record', hrecord', hid', hcommitment'⟩ := hkeeps record hrecord
  exact ⟨record', hrecord', hid'.trans hid, hcommitment'.trans hcommitment⟩

theorem sound_noRecords : Sound noRecords where
  unique := List.nodup_nil
  dated := by
    intro record hrecord
    cases hrecord
  submitted := by
    intro task htask
    cases htask

theorem findRecord_mem {companyId id : String}
    (h : findRecord companyId id records = some record) :
    record ∈ records := List.mem_of_find?_eq_some h

theorem submissions_new :
    submissions ⟨call, point, []⟩ = point.submission.toList := by
  unfold submissions
  cases hpoint : point.submission with
  | none => simp [hpoint]
  | some submission => simp [hpoint]

/-- A call that is started keeps the invariant, unless it is a retry with
another payload. -/
theorem Sound.start (h : Sound pool)
    (hcareful : Careful pool (.start call answer)) :
    Sound ⟨(enter call answer pool.shared).1, pool.tasks ++
      [⟨call, (enter call answer pool.shared).2, []⟩]⟩ ∧
      pool.shared <+: (enter call answer pool.shared).1 := by
  have hnew : ∀ records' point, Keeps pool.shared records' →
      (∀ submission, point.submission = some submission →
        ∃ record ∈ records', record.id = submission.1 ∧
          record.commitment = submission.2) →
      ∀ task ∈ pool.tasks ++ [⟨call, point, []⟩],
        ∀ submission ∈ submissions task,
          ∃ record ∈ records', record.id = submission.1 ∧
            record.commitment = submission.2 := by
    intro records' point hkeeps hpoint task htask submission hsubmission
    rcases List.mem_append.mp htask with hold | hlast
    · exact h.submitted_kept hkeeps hold hsubmission
    · rw [List.mem_singleton.mp hlast, submissions_new,
        Option.mem_toList] at hsubmission
      exact hpoint submission hsubmission
  rcases enter_cases call answer pool.shared with hcreate | hretry | hnone
  · obtain ⟨id, payload, hlookup, henter⟩ := hcreate
    rw [henter]
    refine ⟨⟨?_, ?_, ?_⟩, List.prefix_append _ _⟩
    · exact KeyedTable.UniqueKeys.append_singleton h.unique hlookup
    · intro record hrecord
      rcases List.mem_append.mp hrecord with hold | hlast
      · exact h.dated record hold
      · rw [List.mem_singleton.mp hlast]
        constructor
        · intro hsome
          cases hsome
        · intro hstatus
          cases hstatus
    · apply hnew _ _ (keeps_append _ _)
      intro submission hsubmission
      rw [← Option.some.inj hsubmission]
      exact ⟨_, List.mem_append_right _ List.mem_cons_self, rfl, rfl⟩
  · obtain ⟨companyId, id, payload, row, record, hcall, hanswer, hfind,
      hopen, henter⟩ := hretry
    rw [henter]
    refine ⟨⟨h.unique, h.dated, ?_⟩, List.prefix_refl _⟩
    apply hnew _ _ (keeps_refl _)
    intro submission hsubmission
    rw [← Option.some.inj hsubmission]
    rw [hcall, hanswer] at hcareful
    exact ⟨record, findRecord_mem hfind, rfl, hcareful record hfind hopen⟩
  · obtain ⟨point, henter, hsilent⟩ := hnone
    rw [henter]
    refine ⟨⟨h.unique, h.dated, ?_⟩, List.prefix_refl _⟩
    apply hnew _ _ (keeps_refl _)
    intro submission hsubmission
    rw [hsilent] at hsubmission
    cases hsubmission

/-- An answer that fits keeps the invariant and the confirmed records. -/
theorem Sound.resume (h : Sound pool) {index : ℕ}
    {task : Task AttestationCall AttestationPoint AttestationAnswer}
    (htask : pool.tasks[index]? = some task)
    (hcareful : Careful pool (.resume index answer))
    (hresume : resume task.call task.point answer pool.shared =
      some (records', point')) :
    Sound ⟨records', pool.tasks.set index (task.next answer point')⟩ ∧
      ∀ record ∈ pool.shared, record.status = .confirmed →
        record ∈ records' := by
  obtain ⟨hsilent, hcases⟩ := resume_cases hresume
  have hsubmitted : Keeps pool.shared records' →
      ∀ other ∈ pool.tasks.set index (task.next answer point'),
        ∀ submission ∈ submissions other,
          ∃ record ∈ records', record.id = submission.1 ∧
            record.commitment = submission.2 := by
    intro hkeeps other hother submission hsubmission
    rcases mem_set_cases hother with hnext | hstays
    · rw [hnext, mem_submissions_next, hsilent] at hsubmission
      rcases hsubmission with hnone | hold
      · cases hnone
      · exact h.submitted_kept hkeeps (List.mem_of_getElem? htask) hold
    · obtain ⟨position, -, hposition⟩ := hstays
      exact h.submitted_kept hkeeps (List.mem_of_getElem? hposition)
        hsubmission
  rcases hcases with hsame | hwrite
  · rw [hsame] at hsubmitted ⊢
    exact ⟨⟨h.unique, h.dated, hsubmitted (keeps_refl _)⟩,
      fun record hrecord _ => hrecord⟩
  · obtain ⟨id, payload, outcome, now, record, hpoint, hanswer, hlookup,
      hrecords⟩ := hwrite
    rw [hanswer] at hcareful
    have hfits : Fits task.call outcome now record :=
      hcareful task htask id payload hpoint record hlookup
    have hmem : record ∈ pool.shared := KeyedTable.mem_of_lookup hlookup
    have hid : record.id = id := KeyedTable.key_of_lookup hlookup
    obtain ⟨hdated, hkept⟩ := (fits_iff (h.dated record hmem)).mp hfits
    have hfound : ∀ other ∈ pool.shared, other.id = id → other = record :=
      fun other hother hsame =>
        eq_of_id h.unique hother hmem (hsame.trans hid.symm)
    rw [hrecords] at hsubmitted ⊢
    refine ⟨⟨?_, ?_, hsubmitted (keeps_modify _ _)⟩, ?_⟩
    · exact h.unique.modify
        (fun old => write_id task.call outcome now old) id
    · intro written hwritten
      obtain ⟨old, hold, hsame⟩ := mem_modify.mp hwritten
      by_cases hchanged : old.id = id
      · rw [hsame, if_pos hchanged, hfound old hold hchanged]
        exact hdated
      · rw [hsame, if_neg hchanged]
        exact h.dated old hold
    · intro other hother hconfirmed
      apply mem_modify.mpr
      refine ⟨other, hother, ?_⟩
      by_cases hchanged : other.id = id
      · have hother' := hfound other hother hchanged
        rw [if_pos hchanged, hother']
        rw [hother'] at hconfirmed
        exact (hkept hconfirmed).symm
      · rw [if_neg hchanged]

theorem Sound.move (h : Sound pool)
    {m : Move AttestationCall AttestationAnswer} (hcareful : Careful pool m)
    (hmove : service.move pool m = some pool') :
    Sound pool' ∧ ∀ record ∈ pool.shared, record.status = .confirmed →
      record ∈ pool'.shared := by
  cases m with
  | start call answer =>
      rw [move_start, Option.some.injEq] at hmove
      obtain ⟨hsound, hgrown⟩ := h.start hcareful
      rw [← hmove]
      exact ⟨hsound, fun record hrecord _ => hgrown.subset hrecord⟩
  | resume index answer =>
      obtain ⟨task, shared, point, htask, hresume, hpool⟩ :=
        move_resume.mp hmove
      rw [hpool]
      exact h.resume htask hcareful hresume

theorem Sound.run (h : Sound pool)
    {moves : List (Move AttestationCall AttestationAnswer)}
    (hcareful : service.Meets Careful pool moves)
    (hrun : service.run pool moves = some pool') :
    Sound pool' ∧ ∀ record ∈ pool.shared, record.status = .confirmed →
      record ∈ pool'.shared := by
  -- The invariant, and the records that were confirmed at the start.
  have hkept := @run_induction _ _ _ _ service Careful
    (fun later => Sound later ∧ ∀ record ∈ pool.shared,
      record.status = .confirmed → record ∈ later.shared)
    (fun middle m next hmiddle hcond hmove => by
      obtain ⟨hsound, hstays⟩ := hmiddle.1.move hcond hmove
      refine ⟨hsound, fun record hrecord hconfirmed => ?_⟩
      exact hstays record (hmiddle.2 record hrecord hconfirmed) hconfirmed)
    pool pool' moves ⟨h, fun record hrecord _ => hrecord⟩ hcareful hrun
  exact hkept

/-! ## Truthful runs are careful -/

variable {moves : List (Move AttestationCall AttestationAnswer)}

theorem unique_run (hrun : service.run noRecords moves = some pool) :
    KeyedTable.UniqueKeys AttestationRecord.id pool.shared := by
  have hkept := @run_induction _ _ _ _ service (fun _ _ => True)
    (fun pool => KeyedTable.UniqueKeys AttestationRecord.id pool.shared)
    (by
      intro pool m pool' hunique _ hmove
      cases m with
      | start call answer =>
          rw [move_start, Option.some.injEq] at hmove
          rw [← hmove]
          change KeyedTable.UniqueKeys AttestationRecord.id
            (enter call answer pool.shared).1
          rcases enter_cases call answer pool.shared with
            hcreate | hretry | hnone
          · obtain ⟨id, payload, hlookup, henter⟩ := hcreate
            rw [henter]
            exact KeyedTable.UniqueKeys.append_singleton hunique hlookup
          · obtain ⟨_, _, _, _, _, _, _, _, _, henter⟩ := hretry
            rw [henter]
            exact hunique
          · obtain ⟨point, henter, -⟩ := hnone
            rw [henter]
            exact hunique
      | resume index answer =>
          obtain ⟨task, shared, point, -, hresume, hpool⟩ :=
            move_resume.mp hmove
          obtain ⟨-, hsame | hwrite⟩ := resume_cases hresume
          · rw [hpool, hsame]
            exact hunique
          · obtain ⟨id, _, outcome, now, _, _, _, _, hrecords⟩ := hwrite
            rw [hpool, hrecords]
            exact hunique.modify
              (fun old => write_id task.call outcome now old) id)
    noRecords pool moves List.nodup_nil (meets_true _ _) hrun
  exact hkept

/-- A run that stays truthful submits the commitment in every retry. -/
theorem Truthful.retry (h : Truthful moves)
    {before after : List (Move AttestationCall AttestationAnswer)}
    {companyId id row : String} {payload : AttestationPayload}
    (hsplit : moves = before ++
      .start (.retry companyId id payload) (.row row) :: after)
    (hrun : service.run noRecords before = some pool)
    (hfind : findRecord companyId id pool.shared = some record)
    (hopen : record.status ≠ .confirmed) :
    record.commitment = payload := by
  have henter : enter (.retry companyId id payload) (.row row) pool.shared =
      (pool.shared, .submitting record.id payload) := by
    simp only [enter, hfind, if_neg hopen]
  have hnext : service.run noRecords
      (before ++ [.start (.retry companyId id payload) (.row row)]) =
        some ⟨pool.shared, pool.tasks ++
          [⟨.retry companyId id payload,
            .submitting record.id payload, []⟩]⟩ := by
    rw [run_append, hrun]
    change some _ = some _
    unfold service
    simp only [henter]
  have hprefix : moves = (before ++
      [.start (.retry companyId id payload) (.row row)]) ++ after := by
    rw [hsplit, List.append_assoc]
    rfl
  obtain ⟨found, hfound, hid, hcommitment⟩ := h.submitted _ _ hprefix _ hnext
    _ (List.mem_append_right _ List.mem_cons_self) (record.id, payload) (by
      rw [submissions_new]
      exact List.mem_cons_self)
  have hsame : found = record :=
    eq_of_id (unique_run hrun) hfound (findRecord_mem hfind) hid
  rw [← hsame, hcommitment]

/-- A run that stays truthful gets only outcomes that fit. -/
theorem Truthful.fits (h : Truthful moves)
    {before after : List (Move AttestationCall AttestationAnswer)}
    {index : ℕ} {id : String} {payload : AttestationPayload}
    {task : Task AttestationCall AttestationPoint AttestationAnswer}
    (hsplit : moves = before ++ .resume index (.outcome outcome now) :: after)
    (hrun : service.run noRecords before = some pool)
    (htask : pool.tasks[index]? = some task)
    (hpoint : task.point = .submitting id payload)
    (hlookup : lookup id pool.shared = some record) :
    Fits task.call outcome now record := by
  have hmem : record ∈ pool.shared := KeyedTable.mem_of_lookup hlookup
  have hid : record.id = id := KeyedTable.key_of_lookup hlookup
  have hdated : Dated record := h.dated before _ hsplit pool hrun record hmem
  let written := KeyedTable.modify AttestationRecord.id id
    (task.call.write outcome now) pool.shared
  have hresume : resume task.call task.point (.outcome outcome now)
      pool.shared =
        some (written, .returned (task.call.write outcome now record)) := by
    simp only [resume, update, hpoint, hlookup]
    rfl
  have hmove : service.move pool (.resume index (.outcome outcome now)) =
      some ⟨written, pool.tasks.set index (task.next (.outcome outcome now)
        (.returned (task.call.write outcome now record)))⟩ :=
    move_resume.mpr ⟨task, written, _, htask, hresume, rfl⟩
  have hstep : service.run pool [.resume index (.outcome outcome now)] =
      some ⟨written, pool.tasks.set index (task.next (.outcome outcome now)
        (.returned (task.call.write outcome now record)))⟩ := by
    rw [run_cons hmove]
    rfl
  have hprefix : moves = before ++ [.resume index (.outcome outcome now)] ++
      after := by
    rw [hsplit, List.append_assoc]
    rfl
  have hchanged : task.call.write outcome now record ∈ written := by
    apply mem_modify.mpr
    exact ⟨record, hmem, (if_pos hid).symm⟩
  apply (fits_iff hdated).mpr
  constructor
  · have hreached : service.run noRecords
        (before ++ [.resume index (.outcome outcome now)]) =
          some ⟨written, pool.tasks.set index
            (task.next (.outcome outcome now)
              (.returned (task.call.write outcome now record)))⟩ := by
      rw [run_append, hrun]
      exact hstep
    exact h.dated _ after hprefix _ hreached _ hchanged
  · intro hconfirmed
    have hstays := h.confirmed before _ after hprefix _ _ hrun hstep record
      hmem hconfirmed
    have hunique : KeyedTable.UniqueKeys AttestationRecord.id written :=
      (unique_run hrun).modify
        (fun old => write_id task.call outcome now old) id
    exact eq_of_id hunique hchanged hstays (write_id _ _ _ _)

/-- The records stay truthful in a run exactly when each retry of a record
that is not confirmed gives its commitment, no retry gets the outcome
`SUBMITTED`, and no outcome changes a confirmed record. -/
theorem truthful_iff
    (moves : List (Move AttestationCall AttestationAnswer)) :
    Truthful moves ↔ service.Meets Careful noRecords moves := by
  constructor
  · intro h
    apply meets_iff.mpr
    intro before m after hsplit pool hrun
    cases m with
    | start call answer =>
        cases call with
        | attest payload => trivial
        | retry companyId id payload =>
            cases answer with
            | row row =>
                intro record hfind hopen
                exact h.retry hsplit hrun hfind hopen
            | outcome outcome now => trivial
            | raised => trivial
    | resume index answer =>
        cases answer with
        | row row => trivial
        | outcome outcome now =>
            intro task htask id payload hpoint record hlookup
            exact h.fits hsplit hrun htask hpoint hlookup
        | raised => trivial
  · intro hcareful
    constructor
    · intro before after hsplit pool hrun
      rw [hsplit] at hcareful
      exact (sound_noRecords.run hcareful.before hrun).1.submitted
    · intro before between after hsplit pool pool' hrun hbetween
      rw [hsplit, List.append_assoc] at hcareful
      have hsound := (sound_noRecords.run hcareful.before hrun).1
      exact (hsound.run (hcareful.after hrun).before hbetween).2
    · intro before after hsplit pool hrun
      rw [hsplit] at hcareful
      exact (sound_noRecords.run hcareful.before hrun).1.dated

/-! ## Runs that are not truthful -/

def samplePayload (traceMerkleRoot : String) : AttestationPayload where
  companyId := "company-1"
  agentId := "agent-1"
  executionRequestId := "execution-1"
  decisionId := "decision-1"
  traceMerkleRoot := traceMerkleRoot
  policyHash := "policy-hash"
  decision := "ALLOW"
  transactionHash := none

def attestCall : AttestationCall := .attest (samplePayload "root-1")

def retryCall (traceMerkleRoot : String) : AttestationCall :=
  .retry "company-1" "record-1" (samplePayload traceMerkleRoot)

/-- A retry overlaps the first call, which is confirmed, and fails. -/
def lateFailure : List (Move AttestationCall AttestationAnswer) :=
  [.start attestCall (.row "record-1"), .start (retryCall "root-1") (.row ""),
    .resume 0 (.outcome (.confirmed "0xabc") 1),
    .resume 1 (.outcome (.failed "registry unavailable") 2)]

/-- The first call fails, and a retry is submitted but not confirmed. -/
def submittedRetry : List (Move AttestationCall AttestationAnswer) :=
  [.start attestCall (.row "record-1"),
    .resume 0 (.outcome (.failed "registry unavailable") 1),
    .start (retryCall "root-1") (.row ""),
    .resume 1 (.outcome (.submitted "0xabc") 2)]

/-- The first call fails. -/
def failedFirst : List (Move AttestationCall AttestationAnswer) :=
  [.start attestCall (.row "record-1"),
    .resume 0 (.outcome (.failed "registry unavailable") 1)]

/-- The first call fails, and a retry is given another payload. -/
def otherPayload : List (Move AttestationCall AttestationAnswer) :=
  failedFirst ++ [.start (retryCall "root-2") (.row "")]

def failedRecord (confirmedAt : Option ℤ) (registryTxHash : Option String) :
    AttestationRecord :=
  { pendingRecord "record-1" (samplePayload "root-1") with
    status := .failed
    registryTxHash := registryTxHash
    confirmedAt := confirmedAt }

def failedPool : AttestationPool where
  shared := [failedRecord none none]
  tasks := [⟨attestCall, .returned (failedRecord none none),
    [(.submitting "record-1" (samplePayload "root-1"),
      .outcome (.failed "registry unavailable") 1)]⟩]

theorem not_truthful_of_undated
    (hshared : (service.run noRecords moves).map Pool.shared = some [record])
    (hundated : ¬ Dated record) : ¬ Truthful moves := by
  intro h
  obtain ⟨pool, hrun, hpool⟩ := Option.map_eq_some_iff.mp hshared
  apply hundated
  apply h.dated moves [] (List.append_nil moves).symm pool hrun
  rw [hpool]
  exact List.mem_cons_self

/-- A late failure, a retry that is only submitted and a retry with another
payload. -/
theorem records_not_truthful :
    ¬ Truthful lateFailure ∧ ¬ Truthful submittedRetry ∧
      ¬ Truthful otherPayload := by
  refine ⟨?_, ?_, ?_⟩
  · have hshared : (service.run noRecords lateFailure).map Pool.shared =
        some [failedRecord (some 1) (some "0xabc")] := rfl
    apply not_truthful_of_undated hshared
    intro hdated
    cases hdated.mp rfl
  · have hshared : (service.run noRecords submittedRetry).map Pool.shared =
        some [{ failedRecord (some 2) (some "0xabc") with
          status := .submitted }] := rfl
    apply not_truthful_of_undated hshared
    intro hdated
    cases hdated.mp rfl
  · intro h
    have hrun : service.run noRecords failedFirst = some failedPool := rfl
    have hopen : (failedRecord none none).status ≠ .confirmed := by decide
    have hcommitment := h.retry rfl hrun rfl hopen
    revert hcommitment
    decide

end Attestation
end Orvex
