import Mathlib.Tactic
import Orvex.Foundation.Contract

/-!
# The attestation registry

The registry keeps one commitment for an execution, which no later message
changes.  What it stores and whom it allows can be read off its events.
-/

namespace Orvex
namespace AttestationRegistry

abbrev Bytes32 := BitVec 256

abbrev Address := BitVec 160

/-- The arguments of `attest`. -/
structure Commitment where
  executionId : Bytes32
  agentId : Bytes32
  policyHash : Bytes32
  intentRef : Bytes32
  trajectoryRoot : Bytes32
  assessmentHash : Bytes32
  decision : Bytes32
  transactionHash : Bytes32
deriving DecidableEq

structure Attestation where
  agentId : Bytes32
  policyHash : Bytes32
  intentRef : Bytes32
  trajectoryRoot : Bytes32
  assessmentHash : Bytes32
  decision : Bytes32
  transactionHash : Bytes32
  timestamp : ℕ
  attester : Address
deriving DecidableEq

/-- An entry of the mapping that does not exist is `none`. -/
structure Storage where
  owner : Address
  isAttester : Address → Bool
  attestations : Bytes32 → Option Attestation

inductive Event where
  | attested (executionId agentId decision transactionHash : Bytes32)
      (timestamp : ℕ)
  | attesterSet (attester : Address) (allowed : Bool)
deriving DecidableEq

inductive Method where
  | setAttester (attester : Address) (allowed : Bool)
  | attest (c : Commitment)

structure Message where
  sender : Address
  blockTimestamp : ℕ
  method : Method

/-- The storage after construction. -/
def deployed (owner : Address) : Storage where
  owner := owner
  isAttester := Function.update (fun _ => false) owner true
  attestations _ := none

/-- The time is cut to 64 bits. -/
def uint64 (n : ℕ) : ℕ := n % 2 ^ 64

def setAttester (sender attester : Address) (allowed : Bool) (s : Storage) :
    Option (Storage × List Event) :=
  if sender ≠ s.owner then none
  else
    some
      ({ s with
          isAttester := Function.update s.isAttester attester allowed },
        [.attesterSet attester allowed])

def attestationOf (sender : Address) (blockTimestamp : ℕ) (c : Commitment) :
    Attestation where
  agentId := c.agentId
  policyHash := c.policyHash
  intentRef := c.intentRef
  trajectoryRoot := c.trajectoryRoot
  assessmentHash := c.assessmentHash
  decision := c.decision
  transactionHash := c.transactionHash
  timestamp := uint64 blockTimestamp
  attester := sender

def isAttested (executionId : Bytes32) (s : Storage) : Bool :=
  (s.attestations executionId).isSome

def attest (sender : Address) (blockTimestamp : ℕ) (c : Commitment)
    (s : Storage) : Option (Storage × List Event) :=
  if s.isAttester sender = false then none
  else if isAttested c.executionId s then none
  else
    some
      ({ s with
          attestations := Function.update s.attestations c.executionId
            (some (attestationOf sender blockTimestamp c)) },
        [.attested c.executionId c.agentId c.decision c.transactionHash
          (uint64 blockTimestamp)])

def contract : Contract Storage Message Event where
  execute m s :=
    match m.method with
    | .setAttester attester allowed => setAttester m.sender attester allowed s
    | .attest c => attest m.sender m.blockTimestamp c s

/-! ## What a message can do -/

def Attestation.event (executionId : Bytes32) (r : Attestation) : Event :=
  .attested executionId r.agentId r.decision r.transactionHash r.timestamp

inductive Effect (m : Message) (s : Storage) :
    Storage → List Event → Prop where
  | set (attester : Address) (allowed : Bool) (howner : m.sender = s.owner) :
      Effect m s
        { s with isAttester := Function.update s.isAttester attester allowed }
        [.attesterSet attester allowed]
  | recorded (c : Commitment) (hmethod : m.method = .attest c)
      (hallowed : s.isAttester m.sender = true)
      (hnew : s.attestations c.executionId = none) :
      Effect m s
        { s with
          attestations := Function.update s.attestations c.executionId
            (some (attestationOf m.sender m.blockTimestamp c)) }
        [(attestationOf m.sender m.blockTimestamp c).event c.executionId]

theorem effect_of_execute {m : Message} {s s' : Storage}
    {events : List Event}
    (h : contract.execute m s = some (s', events)) :
    Effect m s s' events := by
  cases hmethod : m.method with
  | setAttester attester allowed =>
      simp only [contract, hmethod, setAttester] at h
      split at h
      next => contradiction
      next howner =>
        simp only [Option.some.injEq, Prod.mk.injEq] at h
        rw [← h.1, ← h.2]
        exact .set attester allowed (not_not.mp howner)
  | attest c =>
      simp only [contract, hmethod, attest] at h
      split at h
      next => contradiction
      next hallowed =>
        split at h
        next => contradiction
        next hnew =>
          simp only [Option.some.injEq, Prod.mk.injEq] at h
          rw [← h.1, ← h.2]
          apply Effect.recorded c hmethod
          · simpa using hallowed
          · simpa [isAttested] using hnew

/-! ## The log -/

/-- Whom the log says that the owner allows. -/
def allowedBy (owner a : Address) (log : List Event) : Bool :=
  log.foldl
    (fun allowed e =>
      match e with
      | .attesterSet attester value => if attester = a then value else allowed
      | .attested _ _ _ _ _ => allowed)
    (decide (a = owner))

def Event.isFor (executionId : Bytes32) : Event → Bool
  | .attested id _ _ _ _ => decide (id = executionId)
  | .attesterSet _ _ => false

/-- The storage is what the log says, and each stored attestation was
written by somebody whom the log before it allows. -/
structure Faithful (owner : Address) (s : Storage) (log : List Event) :
    Prop where
  owned : s.owner = owner
  allowed : ∀ a, s.isAttester a = allowedBy owner a log
  logged : ∀ id, log.filter (Event.isFor id) =
    ((s.attestations id).map (Attestation.event id)).toList
  authorised : ∀ id r, s.attestations id = some r →
    ∃ before after, log = before ++ r.event id :: after ∧
      allowedBy owner r.attester before = true

theorem allowedBy_append_set (owner a attester : Address) (allowed : Bool)
    (log : List Event) :
    allowedBy owner a (log ++ [.attesterSet attester allowed]) =
      if attester = a then allowed else allowedBy owner a log := by
  simp [allowedBy]

theorem allowedBy_append_event (owner a : Address) (id : Bytes32)
    (r : Attestation) (log : List Event) :
    allowedBy owner a (log ++ [r.event id]) = allowedBy owner a log := by
  simp [allowedBy, Attestation.event]

theorem event_isFor (executionId id : Bytes32) (r : Attestation) :
    (r.event executionId).isFor id = decide (executionId = id) := rfl

theorem Faithful.deployed (owner : Address) :
    Faithful owner (deployed owner) [] := by
  constructor
  · rfl
  · intro a
    by_cases h : a = owner
    · simp [AttestationRegistry.deployed, allowedBy, h]
    · simp [AttestationRegistry.deployed, allowedBy, h]
  · intro id
    rfl
  · intro id r h
    simp [AttestationRegistry.deployed] at h

theorem Effect.faithful {owner : Address} {m : Message} {s s' : Storage}
    {log events : List Event} (heffect : Effect m s s' events)
    (h : Faithful owner s log) : Faithful owner s' (log ++ events) := by
  cases heffect with
  | set attester allowed howner =>
      constructor
      · exact h.owned
      · intro a
        have hbefore := h.allowed a
        rw [allowedBy_append_set]
        by_cases ha : attester = a
        · simp [ha]
        · have ha' : a ≠ attester := fun heq => ha heq.symm
          simp [ha, ha', hbefore]
      · intro id
        have hbefore := h.logged id
        simp [Event.isFor, hbefore]
      · intro id r hr
        obtain ⟨before, after, hlog, hbefore⟩ := h.authorised id r hr
        exact ⟨before, after ++ [.attesterSet attester allowed],
          by simp [hlog], hbefore⟩
  | recorded c hmethod hallowed hnew =>
      constructor
      · exact h.owned
      · intro a
        rw [allowedBy_append_event]
        exact h.allowed a
      · intro id
        have hbefore := h.logged id
        by_cases hid : c.executionId = id
        · subst hid
          rw [hnew] at hbefore
          simp [event_isFor, hbefore]
        · have hid' : id ≠ c.executionId := fun heq => hid heq.symm
          simp [event_isFor, hid, hid', hbefore]
      · intro id r hr
        by_cases hid : id = c.executionId
        · subst hid
          simp only [Function.update_self, Option.some.injEq] at hr
          subst hr
          refine ⟨log, [], rfl, ?_⟩
          rw [← h.allowed]
          exact hallowed
        · simp only [Function.update_of_ne hid] at hr
          obtain ⟨before, after, hlog, hbefore⟩ := h.authorised id r hr
          refine ⟨before, after ++ [(attestationOf m.sender m.blockTimestamp
            c).event c.executionId], ?_, hbefore⟩
          simp [hlog]

/-! ## Runs -/

theorem Effect.keeps_attestation {m : Message} {s s' : Storage}
    {events : List Event} (heffect : Effect m s s' events) {id : Bytes32}
    {r : Attestation} (h : s.attestations id = some r) :
    s'.attestations id = some r := by
  cases heffect with
  | set attester allowed howner => exact h
  | recorded c hmethod hallowed hnew =>
      have hid : id ≠ c.executionId := by
        intro heq
        rw [heq, hnew] at h
        contradiction
      simp only [Function.update_of_ne hid]
      exact h

theorem run_keeps_attestation (ms : List Message)
    {w : Contract.World Storage Event} {id : Bytes32} {r : Attestation}
    (h : w.storage.attestations id = some r) :
    (contract.run ms w).storage.attestations id = some r := by
  apply Contract.run_keeps (c := contract)
    (p := fun w => w.storage.attestations id = some r)
  · intro m _ s log s' events hs hrun
    exact (effect_of_execute hrun).keeps_attestation hs
  · exact h

/-- Over any messages the storage stays what the log says, and what was
stored on the way is still stored. -/
theorem run_recorded (owner : Address) (before later : List Message) :
    let w := contract.run before ⟨deployed owner, []⟩
    let after := contract.run (before ++ later) ⟨deployed owner, []⟩
    Faithful owner after.storage after.log ∧
      ∀ id r, w.storage.attestations id = some r →
        after.storage.attestations id = some r := by
  constructor
  · apply Contract.run_keeps (p := fun w => Faithful owner w.storage w.log)
    · intro m _ s log s' events hs hrun
      exact (effect_of_execute hrun).faithful hs
    · exact Faithful.deployed owner
  · intro id r h
    rw [Contract.run_append]
    exact run_keeps_attestation later h

/-! ## The adapter -/

structure AttestationInput where
  executionId : String
  agentId : String
  policyHash : String
  intentRef : String
  trajectoryRoot : String
  assessmentHash : String
  decision : String
  transactionHash : Option String

def hexValue (c : Char) : Option ℕ :=
  if '0' ≤ c ∧ c ≤ '9' then some (c.toNat - '0'.toNat)
  else if 'a' ≤ c ∧ c ≤ 'f' then some (c.toNat - 'a'.toNat + 10)
  else if 'A' ≤ c ∧ c ≤ 'F' then some (c.toNat - 'A'.toNat + 10)
  else none

/-- The 32 bytes that a text of `0x` and 64 hexadecimal digits spells. -/
def readBytes32 (value : String) : Option Bytes32 :=
  match value.toList with
  | '0' :: 'x' :: digits =>
      if digits.length = 64 then
        (digits.mapM hexValue).map fun values =>
          BitVec.ofNat 256 (values.foldl (fun n d => 16 * n + d) 0)
      else none
  | _ => none

/-- `keccak` hashes the bytes of a text. -/
def toBytes32 (keccak : String → Bytes32) (value : Option String) : Bytes32 :=
  match value with
  | none => 0
  | some text =>
      if text = "" then 0
      else
        match readBytes32 text with
        | some bytes => bytes
        | none => keccak text

def buildCommitment (keccak : String → Bytes32) (input : AttestationInput) :
    Commitment where
  executionId := toBytes32 keccak (some input.executionId)
  agentId := toBytes32 keccak (some input.agentId)
  policyHash := toBytes32 keccak (some input.policyHash)
  intentRef := toBytes32 keccak (some input.intentRef)
  trajectoryRoot := toBytes32 keccak (some input.trajectoryRoot)
  assessmentHash := toBytes32 keccak (some input.assessmentHash)
  decision := toBytes32 keccak (some input.decision)
  transactionHash := toBytes32 keccak input.transactionHash

/-- The adapter's transaction, as it is mined at a time. -/
def sent (keccak : String → Bytes32) (signer : Address)
    (mined : ℕ × AttestationInput) : Message where
  sender := signer
  blockTimestamp := mined.1
  method := .attest (buildCommitment keccak mined.2)

/-- What the registry stores of a transaction that it accepts. -/
def stored (keccak : String → Bytes32) (signer : Address)
    (mined : ℕ × AttestationInput) : Attestation :=
  attestationOf signer mined.1 (buildCommitment keccak mined.2)

theorem call_sent (keccak : String → Bytes32) {signer : Address}
    {w : Contract.World Storage Event}
    (hallowed : w.storage.isAttester signer = true)
    (mined : ℕ × AttestationInput) (id : Bytes32) :
    (contract.call w (sent keccak signer mined)).storage.attestations id =
      (w.storage.attestations id).or
        (if toBytes32 keccak (some mined.2.executionId) = id then
          some (stored keccak signer mined)
        else none) := by
  by_cases hold :
      isAttested (toBytes32 keccak (some mined.2.executionId)) w.storage = true
  · have hrevert : contract.execute (sent keccak signer mined) w.storage =
        none := by
      simp [contract, sent, attest, buildCommitment, hold]
    rw [Contract.call_of_revert hrevert]
    by_cases hid : toBytes32 keccak (some mined.2.executionId) = id
    · rw [hid, isAttested, Option.isSome_iff_exists] at hold
      obtain ⟨r, hr⟩ := hold
      simp [hr]
    · simp [hid]
  · have hnone : w.storage.attestations
        (toBytes32 keccak (some mined.2.executionId)) = none := by
      simpa [isAttested] using hold
    have hrun : contract.execute (sent keccak signer mined) w.storage = some
        ({ w.storage with
            attestations := Function.update w.storage.attestations
              (toBytes32 keccak (some mined.2.executionId))
              (some (stored keccak signer mined)) },
          [(stored keccak signer mined).event
            (toBytes32 keccak (some mined.2.executionId))]) := by
      simp only [contract, sent, attest, buildCommitment, hallowed, hold]
      rfl
    rw [Contract.call_of_executed hrun]
    by_cases hid : toBytes32 keccak (some mined.2.executionId) = id
    · rw [hid] at hnone
      simp [hid, hnone]
    · have hid' : id ≠ toBytes32 keccak (some mined.2.executionId) :=
        fun heq => hid heq.symm
      simp [hid, hid']

theorem call_sent_isAttester (keccak : String → Bytes32) (signer : Address)
    (mined : ℕ × AttestationInput) (w : Contract.World Storage Event) :
    (contract.call w (sent keccak signer mined)).storage.isAttester =
      w.storage.isAttester := by
  apply Contract.call_keeps (c := contract)
    (p := fun after => after.storage.isAttester = w.storage.isAttester)
  · intro s log s' events hs hrun
    have hkept : s'.isAttester = s.isAttester := by
      have hmethod : (sent keccak signer mined).method =
          .attest (buildCommitment keccak mined.2) := rfl
      simp only [contract, hmethod, attest] at hrun
      split at hrun
      next => contradiction
      next =>
        split at hrun
        next => contradiction
        next =>
          simp only [Option.some.injEq, Prod.mk.injEq] at hrun
          rw [← hrun.1]
    exact hkept.trans hs
  · rfl

/-- Of an attester's inputs for one execution, the first that is mined is
stored, unless there was an attestation before. -/
theorem run_first_input (keccak : String → Bytes32) (signer : Address)
    (inputs : List (ℕ × AttestationInput))
    (w : Contract.World Storage Event)
    (hallowed : w.storage.isAttester signer = true) (id : Bytes32) :
    (contract.run (inputs.map (sent keccak signer)) w).storage.attestations
        id =
      (w.storage.attestations id).or
        ((inputs.find? fun mined =>
          decide (toBytes32 keccak (some mined.2.executionId) = id)).map
            (stored keccak signer)) := by
  induction inputs generalizing w with
  | nil => simp
  | cons mined rest ih =>
      have hcall := call_sent keccak hallowed mined id
      have hstill := hallowed
      rw [← call_sent_isAttester keccak signer mined w] at hstill
      rw [List.map_cons, Contract.run_cons, ih _ hstill, hcall,
        List.find?_cons, Option.or_assoc]
      by_cases hid : toBytes32 keccak (some mined.2.executionId) = id
      · simp [hid]
      · simp [hid]

def sampleInput (agentId : String) : AttestationInput where
  executionId := "exec-1"
  agentId := agentId
  policyHash := ""
  intentRef := ""
  trajectoryRoot := ""
  assessmentHash := ""
  decision := "ALLOW"
  transactionHash := none

/-- A hash that tells the sample's texts apart. -/
def lengthHash (text : String) : Bytes32 := BitVec.ofNat 256 text.length

theorem sample_first_input :
    (contract.run
        ([(5, sampleInput "a"), (6, sampleInput "bc")].map
          (sent lengthHash 1)) ⟨deployed 1, []⟩).storage.attestations
        (toBytes32 lengthHash (some "exec-1")) =
      ((deployed 1).attestations (toBytes32 lengthHash (some "exec-1"))).or
        (([(5, sampleInput "a"), (6, sampleInput "bc")].find? fun mined =>
          decide (toBytes32 lengthHash (some mined.2.executionId) =
            toBytes32 lengthHash (some "exec-1"))).map
              (stored lengthHash 1)) := by
  apply run_first_input lengthHash 1
    [(5, sampleInput "a"), (6, sampleInput "bc")] ⟨deployed 1, []⟩
  simp [deployed]

end AttestationRegistry
end Orvex
