import Orvex.Audit.Tampering

/-!
# Event keys

An append may carry a key for its logical event.  Appends are compared by a
fingerprint of all that they carry, so that the key identifies an event only
together with its content, and an event without a key is taken for an earlier
one with the same content.
-/

namespace Orvex
namespace Audit

open ReadCommitted

/-! ## Appends one after the other -/

def AppendCall.key (call : AppendCall) : Option String := call.input.eventKey

/-- What the call returns and leaves when it runs alone. -/
def AppendCall.alone (rt : Runtime) (order : ByCreatedAt) (db : Database)
    (call : AppendCall) : Answer × Database :=
  (call.script rt order).alone [] db

/-- The tables after the calls of a list. -/
def tablesAfter (rt : Runtime) (order : ByCreatedAt) (db : Database)
    (calls : List AppendCall) : Database :=
  calls.foldl (fun db call => (call.alone rt order db).2) db

/-- What a call returns after the calls of a list. -/
def answerAfter (rt : Runtime) (order : ByCreatedAt) (db : Database)
    (calls : List AppendCall) (call : AppendCall) : Answer :=
  (call.alone rt order (tablesAfter rt order db calls)).1

/-- Appends with one key return one row, appends with different keys return
different rows, and an append without a key adds a row to the chain. -/
structure KeysIdentify (rt : Runtime) (order : ByCreatedAt) (db : Database)
    (calls : List AppendCall) : Prop where
  sameKey : ∀ before a between b after,
    calls = before ++ a :: between ++ b :: after →
      ∀ key, a.key = some key → b.key = some key →
        ∃ row, answerAfter rt order db before a = .row (.ok row) ∧
          answerAfter rt order db (before ++ a :: between) b =
            .row (.ok row)
  otherKey : ∀ before a between b after,
    calls = before ++ a :: between ++ b :: after →
      ∀ key key', a.key = some key → b.key = some key' → key ≠ key' →
        ∃ row row', answerAfter rt order db before a = .row (.ok row) ∧
          answerAfter rt order db (before ++ a :: between) b =
            .row (.ok row') ∧ row ≠ row'
  noKey : ∀ before a after, calls = before ++ a :: after → a.key = none →
    ∃ row, answerAfter rt order db before a = .row (.ok row) ∧
      row ∉ (tablesAfter rt order db before).auditEvents ∧
      row ∈ (tablesAfter rt order db (before ++ [a])).auditEvents ∧
      row.previousEventHash = previousHash order a.input.entity
        (tablesAfter rt order db before)

/-- The calls append the same content.  The order of keys in a JSON value
does not matter. -/
def SameContent (a b : AppendCall) : Prop :=
  a.input.eventType = b.input.eventType ∧
    canonicalize (.object a.input.payload) =
      canonicalize (.object b.input.payload) ∧
    canonicalize (.object (a.input.references.getD [])) =
      canonicalize (.object (b.input.references.getD []))

/-- Two calls with one key have the same content, and two calls without a key
do not. -/
def ContentFollowsKey (calls : List AppendCall) : Prop :=
  ∀ before a between b after, calls = before ++ a :: between ++ b :: after →
    a.key = b.key → (SameContent a b ↔ a.key ≠ none)

/-- The calls are on one entity of a known company whose chain is empty, the
identifiers of their rows are new, and every stored row carries its hash. -/
structure Starts (rt : Runtime) (entity : Entity) (db : Database)
    (calls : List AppendCall) : Prop where
  sameEntity : ∀ call ∈ calls, call.input.entity = entity
  company : companyExists entity.companyId db = true
  empty : entityRows entity db = []
  hashed : ∀ row ∈ db.auditEvents, (chain rt).Valid row
  fresh : ∀ call ∈ calls, ∀ row ∈ db.auditEvents, row.id ≠ call.uuid
  distinct : (calls.map AppendCall.uuid).Nodup

/-! ## One append -/

section

variable {rt : Runtime} {order : ByCreatedAt} {entity : Entity}
variable {db : Database} {call a b : AppendCall} {row row' : AuditEvent}

theorem alone_of_found
    (h : findSameContent rt call.input db = some row) :
    call.alone rt order db = (.row (.ok row), db) := by
  simp [AppendCall.alone, AppendCall.script, append, Script.alone,
    lookForContent, h, publishRow]

/-- The row that an append adds to these tables. -/
def AppendCall.added (rt : Runtime) (order : ByCreatedAt) (db : Database)
    (call : AppendCall) : AuditEvent :=
  call.row rt (previousHash order call.input.entity db)

theorem alone_of_new (h : findSameContent rt call.input db = none)
    (hhash : findByHash (call.added rt order db).eventHash db = none)
    (hallowed : rowAllowed (call.added rt order db) db = true) :
    call.alone rt order db =
      (.row (.ok (call.added rt order db)),
        auditTable.insert (call.added rt order db) db) := by
  unfold AppendCall.added AppendCall.row at *
  simp [AppendCall.alone, AppendCall.script, append, Script.alone,
    lookForContent, h, lookForHash, hhash, createRow, planRow, hallowed,
    publishRow, insertRow]

/-! ## Fingerprints -/

def fingerprintKeys : List String :=
  ["companyId", "entityType", "entityId", "eventType", "payload",
    "references", "eventKey"]

def fingerprintValues (input : AppendAuditInput) : List Json :=
  [.string input.companyId, .string input.entityType,
    .string input.entityId, .string input.eventType, .object input.payload,
    .object (input.references.getD []), nullable input.eventKey]

theorem contentFingerprint_eq (rt : Runtime) (input : AppendAuditInput) :
    contentFingerprint rt input =
      sha256Json rt (.object (fingerprintKeys.zip (fingerprintValues input))) :=
  rfl

theorem canonicalize_nullable {key key' : Option String} :
    canonicalize (nullable key) = canonicalize (nullable key') ↔
      key = key' := by
  cases key <;> cases key' <;> simp [nullable, canonicalize]

theorem canonicalize_string {text text' : String} :
    canonicalize (.string text) = canonicalize (.string text') ↔
      text = text' := by
  simp [canonicalize]

theorem contentFingerprint_eq_iff (hfree : rt.CollisionFree)
    (hentity : a.input.entity = b.input.entity) :
    contentFingerprint rt a.input = contentFingerprint rt b.input ↔
      SameContent a b ∧ a.key = b.key := by
  rw [contentFingerprint_eq, contentFingerprint_eq]
  have hzip := @sha256Json_zip_iff rt hfree fingerprintKeys
    (fingerprintValues a.input) (fingerprintValues b.input) (by decide)
    (by decide) rfl rfl
  rw [hzip]
  simp only [AppendAuditInput.entity, Entity.mk.injEq] at hentity
  obtain ⟨hcompany, htype, hid⟩ := hentity
  simp only [fingerprintValues, List.map_cons, List.map_nil, List.cons.injEq,
    and_true, canonicalize_nullable, canonicalize_string, hcompany, htype,
    hid, true_and]
  constructor
  · intro h
    obtain ⟨hevent, hpayload, hreferences, hkey⟩ := h
    exact ⟨⟨hevent, hpayload, hreferences⟩, hkey⟩
  · intro h
    obtain ⟨⟨hevent, hpayload, hreferences⟩, hkey⟩ := h
    exact ⟨hevent, hpayload, hreferences, hkey⟩

theorem mem_setField_self {key : String} {value : Json}
    (fields : List (String × Json)) :
    (key, value) ∈ setField key value fields := by
  unfold setField
  by_cases hany : fields.any (fun field => field.1 == key) = true
  · rw [if_pos hany]
    obtain ⟨field, hfield, hkey⟩ := List.any_eq_true.mp hany
    apply List.mem_map.mpr
    exact ⟨field, hfield, if_pos (beq_iff_eq.mp hkey)⟩
  · rw [if_neg hany]
    exact List.mem_append_right _ List.mem_cons_self

/-- Every field with the key has the value that was set. -/
theorem eq_of_mem_setField {key : String} {value other : Json}
    {fields : List (String × Json)}
    (h : (key, other) ∈ setField key value fields) : other = value := by
  unfold setField at h
  by_cases hany : fields.any (fun field => field.1 == key) = true
  · rw [if_pos hany] at h
    obtain ⟨field, -, hfield⟩ := List.mem_map.mp h
    by_cases hkey : field.1 = key
    · rw [if_pos hkey] at hfield
      exact (congrArg Prod.snd hfield).symm
    · rw [if_neg hkey] at hfield
      exact absurd (congrArg Prod.fst hfield) hkey
  · rw [if_neg hany] at h
    rcases List.mem_append.mp h with hold | hlast
    · apply absurd _ hany
      exact List.any_eq_true.mpr ⟨(key, other), hold, beq_self_eq_true key⟩
    · exact congrArg Prod.snd (List.mem_singleton.mp hlast)

theorem lookup_setField {key : String} {value : Json}
    (fields : List (String × Json)) :
    (setField key value fields).lookup key = some value := by
  have hmem := @mem_setField_self key value fields
  cases hlookup : (setField key value fields).lookup key with
  | none =>
      have hnone := List.lookup_eq_none_iff.mp hlookup _ hmem
      simp at hnone
  | some other =>
      obtain ⟨before, after, hsplit, -⟩ :=
        List.lookup_eq_some_iff.mp hlookup
      have hother : (key, other) ∈ setField key value fields := by
        rw [hsplit]
        exact List.mem_append_right _ List.mem_cons_self
      rw [eq_of_mem_setField hother]

theorem fieldOf_storedPayload (input : AppendAuditInput) :
    fieldOf "_fingerprint" (storedPayload rt input) =
      some (.string (contentFingerprint rt input)) :=
  lookup_setField _

/-- The fingerprint is part of what the hash covers. -/
theorem fingerprint_of_canonicalize {input input' : AppendAuditInput}
    (h : canonicalize (storedPayload rt input) =
      canonicalize (storedPayload rt input')) :
    contentFingerprint rt input = contentFingerprint rt input' := by
  unfold storedPayload at h
  simp only [canonicalize, JsonText.Value.object.injEq] at h
  have hmem : ("_fingerprint", (.string (contentFingerprint rt input) : Json)) ∈
      sortFields (canonicalizeFields (setField "_fingerprint"
        (.string (contentFingerprint rt input))
        (setField "references" (.object (input.references.getD []))
          input.payload))) := by
    apply mem_sortFields.mpr
    apply mem_canonicalizeFields.mpr
    exact ⟨by decide, _, mem_setField_self _, rfl⟩
  rw [h] at hmem
  obtain ⟨-, original, horiginal, hvalue⟩ :=
    mem_canonicalizeFields.mp (mem_sortFields.mp hmem)
  rw [eq_of_mem_setField horiginal] at hvalue
  exact JsonText.Value.string.inj hvalue

/-- The row has the event type and the fingerprint of the call. -/
def Shows (rt : Runtime) (call : AppendCall) (row : AuditEvent) : Prop :=
  row.eventType = call.input.eventType ∧
    fieldOf "_fingerprint" row.payloadJson =
      some (.string (contentFingerprint rt call.input))

theorem shows_row (rt : Runtime) (call : AppendCall) (previous : String) :
    Shows rt call (call.row rt previous) :=
  ⟨rfl, fieldOf_storedPayload call.input⟩

theorem Shows.fingerprint (ha : Shows rt a row) (hb : Shows rt b row) :
    contentFingerprint rt a.input = contentFingerprint rt b.input := by
  have hsame := ha.2.symm.trans hb.2
  exact JsonText.Value.string.inj (Option.some.inj hsame)

theorem Shows.of_fingerprint (hfree : rt.CollisionFree)
    (hentity : a.input.entity = b.input.entity)
    (hsame : contentFingerprint rt a.input = contentFingerprint rt b.input)
    (h : Shows rt a row) : Shows rt b row := by
  have hcontent := (contentFingerprint_eq_iff hfree hentity).mp hsame
  refine ⟨h.1.trans hcontent.1.1, ?_⟩
  rw [h.2, hsame]

theorem showsBool_iff :
    (row.eventType == call.input.eventType &&
        match fieldOf "_fingerprint" row.payloadJson with
        | some (.string text) => text == contentFingerprint rt call.input
        | _ => false) = true ↔ Shows rt call row := by
  unfold Shows
  rw [Bool.and_eq_true, beq_iff_eq]
  cases hfield : fieldOf "_fingerprint" row.payloadJson with
  | none => simp
  | some value => cases value <;> simp

theorem findSameContent_some
    (h : findSameContent rt call.input db = some row) :
    row ∈ entityRows call.input.entity db ∧ Shows rt call row := by
  have hshows := List.find?_some h
  exact ⟨List.mem_of_find?_eq_some h, showsBool_iff.mp hshows⟩

theorem findSameContent_none
    (h : findSameContent rt call.input db = none) :
    ∀ row ∈ entityRows call.input.entity db, ¬ Shows rt call row := by
  intro row hrow hshows
  exact List.find?_eq_none.mp h row hrow (showsBool_iff.mpr hshows)

/-! ## The log of a sequence -/

/-- What the rows of the entity say of the calls made so far, and what the
calls to come can count on. -/
structure Logged (rt : Runtime) (entity : Entity)
    (past coming : List AppendCall) (db : Database) : Prop where
  sameEntity : ∀ call ∈ past ++ coming, call.input.entity = entity
  company : companyExists entity.companyId db = true
  hashed : ∀ row ∈ db.auditEvents, (chain rt).Valid row
  fresh : ∀ call ∈ coming, ∀ row ∈ db.auditEvents, row.id ≠ call.uuid
  distinct : (coming.map AppendCall.uuid).Nodup
  row_of : ∀ call ∈ past, ∃ row ∈ entityRows entity db, Shows rt call row
  call_of : ∀ row ∈ entityRows entity db, ∃ call ∈ past,
    Shows rt call row ∧ row.payloadJson = storedPayload rt call.input
  single : ∀ row ∈ entityRows entity db, ∀ row' ∈ entityRows entity db,
    ∀ call, Shows rt call row → Shows rt call row' → row = row'

theorem Starts.logged {calls : List AppendCall}
    (h : Starts rt entity db calls) : Logged rt entity [] calls db where
  sameEntity := h.sameEntity
  company := h.company
  hashed := h.hashed
  fresh := h.fresh
  distinct := h.distinct
  row_of := by
    intro call hcall
    cases hcall
  call_of := by
    intro row hrow
    rw [h.empty] at hrow
    cases hrow
  single := by
    intro row hrow
    rw [h.empty] at hrow
    cases hrow

variable {past coming : List AppendCall}

theorem Logged.call_entity (h : Logged rt entity past (call :: coming) db) :
    call.input.entity = entity :=
  h.sameEntity call (List.mem_append_right _ List.mem_cons_self)

/-- An append that finds its content adds nothing. -/
theorem Logged.found (h : Logged rt entity past (call :: coming) db)
    (hrow : row ∈ entityRows entity db) (hshows : Shows rt call row) :
    Logged rt entity (past ++ [call]) coming db where
  sameEntity := by
    rw [List.append_assoc]
    exact h.sameEntity
  company := h.company
  hashed := h.hashed
  fresh := fun later hlater => h.fresh later (List.mem_cons_of_mem _ hlater)
  distinct := (List.nodup_cons.mp h.distinct).2
  row_of := by
    intro made hmade
    rcases List.mem_append.mp hmade with hold | hlast
    · exact h.row_of made hold
    · rw [List.mem_singleton.mp hlast]
      exact ⟨row, hrow, hshows⟩
  call_of := by
    intro other hother
    obtain ⟨made, hmade, hof⟩ := h.call_of other hother
    exact ⟨made, List.mem_append_left _ hmade, hof⟩
  single := h.single

/-- Where no row shows the content, no row has the hash either, and the new
row is allowed. -/
theorem Logged.allowed (hfree : rt.CollisionFree)
    (h : Logged rt entity past (call :: coming) db)
    (hnone : ∀ row ∈ entityRows entity db, ¬ Shows rt call row) :
    findByHash (call.added rt order db).eventHash db = none ∧
      rowAllowed (call.added rt order db) db = true := by
  have hdiffers : ∀ row ∈ db.auditEvents,
      row.eventHash ≠ (call.added rt order db).eventHash := by
    intro row hrow hhash
    have hvalid : (chain rt).Valid (call.added rt order db) := rfl
    have hcovered :=
      (covered_of_hash hfree (h.hashed row hrow) hvalid hhash).2
    simp only [covered, Prod.mk.injEq] at hcovered
    obtain ⟨hentity, hevent, hpayload⟩ := hcovered
    have hmem : row ∈ entityRows entity db := by
      apply List.mem_filter.mpr
      refine ⟨hrow, decide_eq_true ?_⟩
      rw [hentity]
      exact h.call_entity
    obtain ⟨made, hmade, hshows, hstored⟩ := h.call_of row hmem
    rw [hstored] at hpayload
    have hsame : contentFingerprint rt made.input =
        contentFingerprint rt call.input :=
      fingerprint_of_canonicalize hpayload
    have hentities : made.input.entity = call.input.entity := by
      rw [h.call_entity]
      exact h.sameEntity made (List.mem_append_left _ hmade)
    exact hnone row hmem (hshows.of_fingerprint hfree hentities hsame)
  constructor
  · apply List.find?_eq_none.mpr
    intro row hrow hhash
    exact hdiffers row hrow (of_decide_eq_true hhash)
  · unfold rowAllowed
    rw [Bool.and_eq_true, Bool.and_eq_true]
    refine ⟨⟨?_, ?_⟩, ?_⟩
    · rw [Option.isNone_iff_eq_none]
      apply List.find?_eq_none.mpr
      intro row hrow hid
      exact h.fresh call List.mem_cons_self row hrow (of_decide_eq_true hid)
    · have hcompany := h.company
      rw [← h.call_entity] at hcompany
      exact hcompany
    · apply List.all_eq_true.mpr
      intro row hrow
      exact bne_iff_ne.mpr (hdiffers row hrow)

theorem Logged.new (h : Logged rt entity past (call :: coming) db)
    (hnone : ∀ row ∈ entityRows entity db, ¬ Shows rt call row) :
    Logged rt entity (past ++ [call]) coming
      (auditTable.insert (call.added rt order db) db) := by
  have hrows : entityRows entity
      (auditTable.insert (call.added rt order db) db) =
        entityRows entity db ++ [call.added rt order db] := by
    rw [entityRows_insert]
    exact if_pos h.call_entity
  have hshows : Shows rt call (call.added rt order db) := shows_row _ _ _
  obtain ⟨hfirst, hrest⟩ := List.nodup_cons.mp h.distinct
  constructor
  · rw [List.append_assoc]
    exact h.sameEntity
  · exact h.company
  · intro row hrow
    rcases List.mem_append.mp hrow with hold | hlast
    · exact h.hashed row hold
    · rw [List.mem_singleton.mp hlast]
      rfl
  · intro later hlater row hrow
    rcases List.mem_append.mp hrow with hold | hlast
    · exact h.fresh later (List.mem_cons_of_mem _ hlater) row hold
    · rw [List.mem_singleton.mp hlast]
      intro huuid
      apply hfirst
      exact List.mem_map.mpr ⟨later, hlater, huuid.symm⟩
  · exact hrest
  · intro made hmade
    rw [hrows]
    rcases List.mem_append.mp hmade with hold | hlast
    · obtain ⟨row, hrow, hof⟩ := h.row_of made hold
      exact ⟨row, List.mem_append_left _ hrow, hof⟩
    · rw [List.mem_singleton.mp hlast]
      exact ⟨_, List.mem_append_right _ List.mem_cons_self, hshows⟩
  · intro row hrow
    rw [hrows] at hrow
    rcases List.mem_append.mp hrow with hold | hlast
    · obtain ⟨made, hmade, hof⟩ := h.call_of row hold
      exact ⟨made, List.mem_append_left _ hmade, hof⟩
    · rw [List.mem_singleton.mp hlast]
      exact ⟨call, List.mem_append_right _ List.mem_cons_self, hshows, rfl⟩
  · intro row hrow row' hrow' other hother hother'
    rw [hrows] at hrow hrow'
    have hneither : ∀ old ∈ entityRows entity db, Shows rt other old →
        ¬ Shows rt other (call.added rt order db) := by
      intro old hold hof hadded
      apply hnone old hold
      refine ⟨hof.1.trans (hadded.1.symm.trans hshows.1), ?_⟩
      rw [hof.2, ← hadded.2, hshows.2]
    rcases List.mem_append.mp hrow with hold | hlast
    · rcases List.mem_append.mp hrow' with hold' | hlast'
      · exact h.single row hold row' hold' other hother hother'
      · rw [List.mem_singleton.mp hlast'] at hother'
        exact absurd hother' (hneither row hold hother)
    · rw [List.mem_singleton.mp hlast] at hother ⊢
      rcases List.mem_append.mp hrow' with hold' | hlast'
      · exact absurd hother (hneither row' hold' hother')
      · exact (List.mem_singleton.mp hlast').symm

/-- What an append does: it returns a row with its content, which is new
exactly when no call before it had the same fingerprint. -/
theorem Logged.append (hfree : rt.CollisionFree)
    (h : Logged rt entity past (call :: coming) db) :
    ∃ row, (call.alone rt order db).1 = .row (.ok row) ∧
      row ∈ entityRows entity (call.alone rt order db).2 ∧
      Shows rt call row ∧
      db.auditEvents <+: (call.alone rt order db).2.auditEvents ∧
      Logged rt entity (past ++ [call]) coming (call.alone rt order db).2 ∧
      ((∃ made ∈ past, contentFingerprint rt made.input =
          contentFingerprint rt call.input) ∧ row ∈ db.auditEvents ∨
        (∀ made ∈ past, contentFingerprint rt made.input ≠
            contentFingerprint rt call.input) ∧ row ∉ db.auditEvents ∧
          row.previousEventHash =
            previousHash order call.input.entity db) := by
  cases hfind : findSameContent rt call.input db with
  | some row =>
      obtain ⟨hrow, hshows⟩ := findSameContent_some hfind
      rw [h.call_entity] at hrow
      rw [alone_of_found hfind]
      obtain ⟨made, hmade, hof, -⟩ := h.call_of row hrow
      exact ⟨row, rfl, hrow, hshows, List.prefix_refl _, h.found hrow hshows,
        Or.inl ⟨⟨made, hmade, hof.fingerprint hshows⟩,
          List.mem_of_mem_filter hrow⟩⟩
  | none =>
      have hnone := findSameContent_none hfind
      rw [h.call_entity] at hnone
      obtain ⟨hhash, hallowed⟩ := @Logged.allowed rt order _ _ _ _ _ hfree h hnone
      rw [alone_of_new hfind hhash hallowed]
      refine ⟨call.added rt order db, rfl, ?_, shows_row _ _ _,
        List.prefix_append _ _, h.new hnone, Or.inr ⟨?_, ?_, rfl⟩⟩
      · rw [entityRows_insert, if_pos (show entityOf (call.added rt order db)
          = entity from h.call_entity)]
        exact List.mem_append_right _ List.mem_cons_self
      · intro made hmade hsame
        obtain ⟨row, hrow, hof⟩ := h.row_of made hmade
        have hentities : made.input.entity = call.input.entity := by
          rw [h.call_entity]
          exact h.sameEntity made (List.mem_append_left _ hmade)
        exact hnone row hrow (hof.of_fingerprint hfree hentities hsame)
      · intro hold
        exact h.fresh call List.mem_cons_self _ hold rfl

/-! ## The sequence -/

theorem tablesAfter_append (before after : List AppendCall) :
    tablesAfter rt order db (before ++ after) =
      tablesAfter rt order (tablesAfter rt order db before) after :=
  List.foldl_append

theorem Logged.after (hfree : rt.CollisionFree) {before : List AppendCall}
    (h : Logged rt entity past (before ++ coming) db) :
    Logged rt entity (past ++ before) coming
        (tablesAfter rt order db before) ∧
      db.auditEvents <+: (tablesAfter rt order db before).auditEvents := by
  induction before generalizing past db with
  | nil =>
      rw [List.append_nil]
      exact ⟨h, List.prefix_refl _⟩
  | cons call rest ih =>
      obtain ⟨row, -, -, -, hgrown, hlogged, -⟩ :=
        @Logged.append rt order _ _ _ _ _ hfree h
      obtain ⟨hlast, hgrown'⟩ := ih hlogged
      rw [List.append_assoc] at hlast
      exact ⟨hlast, hgrown.trans hgrown'⟩

variable {calls before between after : List AppendCall}

theorem Starts.answer (hfree : rt.CollisionFree)
    (h : Starts rt entity db calls) (hsplit : calls = before ++ a :: after) :
    ∃ row, answerAfter rt order db before a = .row (.ok row) ∧
      row ∈ (tablesAfter rt order db (before ++ [a])).auditEvents ∧
      ((∃ made ∈ before, contentFingerprint rt made.input =
          contentFingerprint rt a.input) ∧
          row ∈ (tablesAfter rt order db before).auditEvents ∨
        (∀ made ∈ before, contentFingerprint rt made.input ≠
            contentFingerprint rt a.input) ∧
          row ∉ (tablesAfter rt order db before).auditEvents ∧
          row.previousEventHash = previousHash order a.input.entity
            (tablesAfter rt order db before)) := by
  have hstart := h.logged
  rw [hsplit] at hstart
  obtain ⟨hbefore, -⟩ := @Logged.after rt order _ _ _ _ hfree _ hstart
  obtain ⟨row, hanswer, hrow, -, -, -, hnew⟩ :=
    @Logged.append rt order _ _ _ _ _ hfree hbefore
  refine ⟨row, hanswer, ?_, hnew⟩
  rw [tablesAfter_append]
  exact List.mem_of_mem_filter hrow

theorem Starts.entity_eq (h : Starts rt entity db calls)
    (hsplit : calls = before ++ a :: between ++ b :: after) :
    a.input.entity = b.input.entity := by
  have ha : a ∈ calls := by
    rw [hsplit]
    simp
  have hb : b ∈ calls := by
    rw [hsplit]
    simp
  rw [h.sameEntity a ha, h.sameEntity b hb]

/-- Two calls return one row exactly when their fingerprints agree. -/
theorem Starts.answers (hfree : rt.CollisionFree)
    (h : Starts rt entity db calls)
    (hsplit : calls = before ++ a :: between ++ b :: after) :
    ∃ row row', answerAfter rt order db before a = .row (.ok row) ∧
      answerAfter rt order db (before ++ a :: between) b = .row (.ok row') ∧
      (row = row' ↔ contentFingerprint rt a.input =
        contentFingerprint rt b.input) := by
  have hstart := h.logged
  rw [hsplit, List.append_assoc] at hstart
  obtain ⟨hbefore, -⟩ := @Logged.after rt order _ _ _ _ hfree _ hstart
  obtain ⟨row, hanswer, hrow, hshows, -, hmade, -⟩ :=
    @Logged.append rt order _ _ _ _ _ hfree hbefore
  obtain ⟨hbetween, hgrown⟩ := @Logged.after rt order _ _ _ _ hfree _ hmade
  obtain ⟨row', hanswer', hrow', hshows', hgrown', hlast, -⟩ :=
    @Logged.append rt order _ _ _ _ _ hfree hbetween
  refine ⟨row, row', hanswer, ?_, ?_⟩
  · unfold answerAfter
    rw [tablesAfter_append]
    exact hanswer'
  · constructor
    · intro hsame
      rw [hsame] at hshows
      exact hshows.fingerprint hshows'
    · intro hsame
      obtain ⟨hstays, hentity⟩ := List.mem_filter.mp hrow
      have hkept : row ∈ entityRows entity (b.alone rt order
          (tablesAfter rt order (a.alone rt order
            (tablesAfter rt order db before)).2 between)).2 :=
        List.mem_filter.mpr
          ⟨hgrown'.subset (hgrown.subset hstays), hentity⟩
      exact hlast.single row hkept row' hrow' b
        (hshows.of_fingerprint hfree (h.entity_eq hsplit) hsame) hshows'

/-- The event keys identify the events of a sequence of appends exactly when
the content follows the key: two calls with one key append the same content,
and two calls without a key do not. -/
theorem keysIdentify_iff (hfree : rt.CollisionFree)
    (h : Starts rt entity db calls) :
    KeysIdentify rt order db calls ↔ ContentFollowsKey calls := by
  constructor
  · intro hidentify before a between b after hsplit hkey
    obtain ⟨row, row', hanswer, hanswer', hrows⟩ :=
      @Starts.answers rt order _ _ _ _ _ _ _ _ hfree h hsplit
    have hsame := @contentFingerprint_eq_iff rt _ _ hfree
      (h.entity_eq hsplit)
    constructor
    · intro hcontent hnone
      obtain ⟨first, hfirst, hnew, -⟩ := hidentify.noKey _ b after hsplit
        (hkey ▸ hnone)
      obtain ⟨second, hsecond, -, hcases⟩ :=
        @Starts.answer rt order _ _ _ _ _ _ hfree h hsplit
      rw [hfirst] at hsecond
      cases hsecond
      rcases hcases with hknown | hadded
      · exact hnew hknown.2
      · exact hadded.1 a (List.mem_append_right _ List.mem_cons_self)
          (hsame.mpr ⟨hcontent, hkey⟩)
    · intro hsome
      obtain ⟨key, ha⟩ := Option.ne_none_iff_exists'.mp hsome
      obtain ⟨found, hfound, hfound'⟩ := hidentify.sameKey _ _ _ _ _ hsplit
        key ha (hkey ▸ ha)
      rw [hanswer] at hfound
      rw [hanswer'] at hfound'
      cases hfound
      cases hfound'
      exact (hsame.mp (hrows.mp rfl)).1
  · intro hfollows
    constructor
    · intro before a between b after hsplit key ha hb
      obtain ⟨row, row', hanswer, hanswer', hrows⟩ :=
        @Starts.answers rt order _ _ _ _ _ _ _ _ hfree h hsplit
      have hkeys : a.key = b.key := ha.trans hb.symm
      have hcontent : SameContent a b := by
        apply (hfollows _ _ _ _ _ hsplit hkeys).mpr
        rw [ha]
        exact Option.some_ne_none key
      have hequal : row = row' := hrows.mpr
        ((contentFingerprint_eq_iff hfree (h.entity_eq hsplit)).mpr
          ⟨hcontent, hkeys⟩)
      rw [← hequal] at hanswer'
      exact ⟨row, hanswer, hanswer'⟩
    · intro before a between b after hsplit key key' ha hb hdiffer
      obtain ⟨row, row', hanswer, hanswer', hrows⟩ :=
        @Starts.answers rt order _ _ _ _ _ _ _ _ hfree h hsplit
      refine ⟨row, row', hanswer, hanswer', fun hequal => ?_⟩
      have hkeys := ((contentFingerprint_eq_iff hfree
        (h.entity_eq hsplit)).mp (hrows.mp hequal)).2
      rw [ha, hb] at hkeys
      exact hdiffer (Option.some.inj hkeys)
    · intro before a after hsplit hnone
      obtain ⟨row, hanswer, hrow, hnew⟩ :=
        @Starts.answer rt order _ _ _ _ _ _ hfree h hsplit
      rcases hnew with hknown | hadded
      · obtain ⟨⟨made, hmade, hfingerprint⟩, -⟩ := hknown
        obtain ⟨first, between, hbefore⟩ := List.append_of_mem hmade
        rw [hbefore] at hsplit
        have hcontent := (contentFingerprint_eq_iff hfree
          (h.entity_eq hsplit)).mp hfingerprint
        have hdiffers := (hfollows _ _ _ _ _ hsplit hcontent.2).mp hcontent.1
        rw [hcontent.2, hnone] at hdiffers
        exact absurd rfl hdiffers
      · exact ⟨row, hanswer, hadded.2.1, hrow, hadded.2.2⟩

end

/-! ## Keys that do not identify -/

/-- Digests that are cheap to compute, and never collide. -/
def plainRuntime : Runtime := .pinned []

theorem plainRuntime_collisionFree : plainRuntime.CollisionFree :=
  Runtime.pinned_collisionFree List.nodup_nil

def keyedCall (eventKey : Option String) (step : ℤ) (uuid : String) :
    AppendCall :=
  ⟨{ sampleInput "AUTHORIZED" with
      payload := [("step", .number step)]
      eventKey := eventKey }, 1000, uuid⟩

/-- A repeated event without a key. -/
def repeatedCalls : List AppendCall :=
  [keyedCall none 1 "row-1", keyedCall none 1 "row-2"]

/-- One key with two payloads. -/
def amendedCalls : List AppendCall :=
  [keyedCall (some "event-1") 1 "row-1", keyedCall (some "event-1") 2 "row-2"]

theorem starts_pair (key key' : Option String) (step step' : ℤ) :
    Starts plainRuntime sampleEntity sampleTables
      [keyedCall key step "row-1", keyedCall key' step' "row-2"] where
  sameEntity := by
    intro call hcall
    rcases List.mem_cons.mp hcall with hfirst | hrest
    · rw [hfirst]
      rfl
    · rw [List.mem_singleton.mp hrest]
      rfl
  company := rfl
  empty := rfl
  hashed := by
    intro row hrow
    cases hrow
  fresh := by
    intro call _ row hrow
    cases hrow
  distinct := by
    change ["row-1", "row-2"].Nodup
    decide

/-- A repeated event without a key is dropped, and one key yields two rows
when the payload differs. -/
theorem repeated_and_amended_events :
    ¬ KeysIdentify plainRuntime sampleOrder sampleTables repeatedCalls ∧
      ¬ KeysIdentify plainRuntime sampleOrder sampleTables amendedCalls := by
  constructor
  · intro h
    obtain ⟨found, hfound, hnew, -⟩ :=
      h.noKey [keyedCall none 1 "row-1"] (keyedCall none 1 "row-2") [] rfl rfl
    obtain ⟨row, hrow, -, hcases⟩ :=
      @Starts.answer plainRuntime sampleOrder _ _ _ _ [_] _
        plainRuntime_collisionFree (starts_pair none none 1 1) rfl
    rw [hfound] at hrow
    cases hrow
    rcases hcases with hknown | hadded
    · exact hnew hknown.2
    · exact hadded.1 _ List.mem_cons_self rfl
  · intro h
    obtain ⟨found, hfirst, hsecond⟩ := h.sameKey []
      (keyedCall (some "event-1") 1 "row-1") []
      (keyedCall (some "event-1") 2 "row-2") [] rfl "event-1" rfl rfl
    have hstarts := starts_pair (some "event-1") (some "event-1") 1 2
    have hsplit : amendedCalls = [] ++ keyedCall (some "event-1") 1 "row-1" ::
        [] ++ keyedCall (some "event-1") 2 "row-2" :: [] := rfl
    obtain ⟨row, row', hrow, hrow', hrows⟩ :=
      @Starts.answers plainRuntime sampleOrder _ _ _ _ _ _ _ _
        plainRuntime_collisionFree hstarts hsplit
    rw [hfirst] at hrow
    rw [hsecond] at hrow'
    cases hrow
    cases hrow'
    have hcontent := (contentFingerprint_eq_iff plainRuntime_collisionFree
      (hstarts.entity_eq hsplit)).mp (hrows.mp rfl)
    have hpayload := hcontent.1.2.1
    simp [keyedCall, canonicalize, canonicalizeFields, sortFields,
      protoKey] at hpayload

theorem pair_split {α : Type} {x y a b : α} {before between after : List α}
    (h : [x, y] = before ++ a :: between ++ b :: after) : a = x ∧ b = y := by
  have hlength := congrArg List.length h
  simp only [List.length_cons, List.length_nil, List.length_append]
    at hlength
  have hbefore : before = [] := List.length_eq_zero_iff.mp (by omega)
  have hbetween : between = [] := List.length_eq_zero_iff.mp (by omega)
  rw [hbefore, hbetween] at h
  obtain ⟨hx, hrest⟩ := List.cons.inj h
  exact ⟨hx.symm, (List.cons.inj hrest).1.symm⟩

/-- An event that is delivered twice with its key is recorded once. -/
theorem redelivered_event_recorded_once :
    KeysIdentify plainRuntime sampleOrder sampleTables
      [keyedCall (some "event-1") 1 "row-1",
        keyedCall (some "event-1") 1 "row-2"] := by
  have hstarts := starts_pair (some "event-1") (some "event-1") 1 1
  apply (keysIdentify_iff plainRuntime_collisionFree hstarts).mpr
  intro before a between b after hsplit _
  obtain ⟨ha, hb⟩ := pair_split hsplit
  rw [ha, hb]
  constructor
  · intro _
    exact Option.some_ne_none _
  · intro _
    exact ⟨rfl, rfl, rfl⟩

end Audit
end Orvex
