import Orvex.Core.Python
import Orvex.Foundation.Entries
import Orvex.Foundation.Retry
import Orvex.Shared.Backoff

/-!
# The provider router

A request goes to the providers one after the other until one gives a
non-empty dictionary.  Each has a budget of attempts, which errors of the
transport and structurally invalid answers share.  A rate limit ends the
attempts of its provider, and so does an error after which the delay before
the next attempt overflows.
-/

namespace Orvex
namespace ProviderRouter

/-- The classes of exceptions that the router tells apart. -/
inductive ProviderException where
  | rateLimited | modelOutputInvalid | other
  deriving DecidableEq

structure ModelResponse where
  text : Option String
  structured : PyValue

/-- What a call of a provider ends with; a timeout is an exception. -/
inductive Outcome where
  | answered (response : ModelResponse)
  | raised (exception : ProviderException)

structure GenerationRequest where
  systemPrompt : String
  messages : List PyDict
  promptVersion : String

structure Exchange where
  request : GenerationRequest
  outcome : Outcome

/-- A place in the list of the providers, with what the provider does there
during one request. -/
structure Provider where
  /-- The object: one provider may stand at several places. -/
  identity : ℕ
  name : String
  /-- What `health()` gives, or `none` when it raises or takes too long. -/
  health : Option Bool
  /-- What the calls give, in their order. -/
  outcome : ℕ → Outcome
  /-- The time at which its cooldown is looked up. -/
  checkedAt : ℚ
  /-- The time at which its cooldown starts, if it does. -/
  limitedAt : ℚ

/-! ## One provider -/

/-- `_is_valid(response, schema)`. -/
def isValid (response : ModelResponse) : Bool :=
  match response.structured with
  | .dict fields => !fields.isEmpty
  | _ => false

def repairHint : String :=
  "\n\nYOUR PREVIOUS RESPONSE WAS NOT VALID STRUCTURED JSON. " ++
    "Return ONLY a single valid JSON object with the required fields."

/-- `_augment_with_repair_hint(request, response)`. -/
def augmentWithRepairHint (request : GenerationRequest) :
    GenerationRequest :=
  { request with systemPrompt := request.systemPrompt ++ repairHint }

/-- The exchanges with a provider and what its caller gets. -/
structure Calls where
  exchanges : List Exchange
  result : Except ProviderException ModelResponse

def Calls.after (calls : Calls) (exchange : Exchange) : Calls :=
  { calls with exchanges := exchange :: calls.exchanges }

/-- The loop of the attempts: the number of those that are left after the
next one, and the number of the next one. -/
def attemptFrom (outcome : ℕ → Outcome) :
    ℕ → ℕ → GenerationRequest → Calls
  | remaining, attempt, request =>
      let exchange : Exchange := ⟨request, outcome attempt⟩
      match outcome attempt with
      | .raised .rateLimited => ⟨[exchange], .error .rateLimited⟩
      | .raised exception =>
          match remaining with
          | 0 => ⟨[exchange], .error exception⟩
          | remaining + 1 =>
              -- the `OverflowError` leaves the handler
              if Backoff.overflows attempt then ⟨[exchange], .error .other⟩
              else
                (attemptFrom outcome remaining (attempt + 1) request).after
                  exchange
      | .answered response =>
          if isValid response then ⟨[exchange], .ok response⟩
          else
            match remaining with
            | 0 => ⟨[exchange], .error .modelOutputInvalid⟩
            | remaining + 1 =>
                (attemptFrom outcome remaining (attempt + 1)
                  (augmentWithRepairHint request)).after exchange

/-- `_call_provider_with_retries(provider, request, schema)`. -/
def callProviderWithRetries (maxRetries : ℕ) (provider : Provider)
    (request : GenerationRequest) : Calls :=
  attemptFrom provider.outcome maxRetries 0 request

/-! ## All providers -/

structure Router where
  providers : List Provider
  maxRetries : ℕ
  cooldownUntil : Entries String ℚ

def rateLimitCooldown : ℚ := 8

/-- `_on_cooldown(name)` at a time. -/
def onCooldown (cooldownUntil : Entries String ℚ) (name : String)
    (now : ℚ) : Bool :=
  decide (now < (cooldownUntil.get name).getD 0)

/-- `_start_cooldown(name)` at a time. -/
def startCooldown (cooldownUntil : Entries String ℚ) (name : String)
    (now : ℚ) : Entries String ℚ :=
  cooldownUntil.set name (now + rateLimitCooldown)

/-- The provider is reachable. -/
def healthy (provider : Provider) : Bool := provider.health.getD false

/-- `_ordered_by_health()`. -/
def orderedByHealth (router : Router) : List Provider :=
  let cooling (provider : Provider) : Bool :=
    onCooldown router.cooldownUntil provider.name provider.checkedAt
  router.providers.filter (fun p => healthy p && !cooling p) ++
    router.providers.filter (fun p => healthy p && cooling p) ++
    router.providers.filter (fun p => !healthy p)

/-- `last_error`. -/
inductive LastError where
  | outputInvalid (provider : String)
  | raised (exception : ProviderException)

inductive RouterError where
  | modelOutputInvalid (provider : String)
  | aiUnavailable (cause : Option ProviderException)

/-- What is raised when every provider is exhausted. -/
def exhausted : Option LastError → RouterError
  | some (.outputInvalid provider) => .modelOutputInvalid provider
  | some (.raised exception) => .aiUnavailable (some exception)
  | none => .aiUnavailable none

/-- The exchanges of a request by provider, the cooldowns after it and what
its caller gets. -/
structure Run where
  asked : List (Provider × List Exchange)
  cooldownUntil : Entries String ℚ
  result : Except RouterError ModelResponse

def Run.after (run : Run) (provider : Provider)
    (exchanges : List Exchange) : Run :=
  { run with asked := (provider, exchanges) :: run.asked }

/-- The loop over the providers. -/
def runFrom (maxRetries : ℕ) (request : GenerationRequest) :
    List Provider → Entries String ℚ → Option LastError → Run
  | [], cooldownUntil, lastError =>
      ⟨[], cooldownUntil, .error (exhausted lastError)⟩
  | provider :: rest, cooldownUntil, _ =>
      let calls := callProviderWithRetries maxRetries provider request
      match calls.result with
      | .ok response =>
          ⟨[(provider, calls.exchanges)], cooldownUntil, .ok response⟩
      | .error .modelOutputInvalid =>
          (runFrom maxRetries request rest cooldownUntil
            (some (.outputInvalid provider.name))).after provider
              calls.exchanges
      | .error .rateLimited =>
          (runFrom maxRetries request rest
            (startCooldown cooldownUntil provider.name provider.limitedAt)
            (some (.raised .rateLimited))).after provider calls.exchanges
      | .error .other =>
          (runFrom maxRetries request rest cooldownUntil
            (some (.raised .other))).after provider calls.exchanges

/-- `generate_structured(request, schema)`. -/
def generateStructured (router : Router) (request : GenerationRequest) :
    Run :=
  runFrom router.maxRetries request (orderedByHealth router)
    router.cooldownUntil none

/-! ## The attempts at one provider -/

/-- The answer is a non-empty dictionary. -/
def Outcome.valid : Outcome → Bool
  | .answered response => isValid response
  | .raised _ => false

/-- The answer is structurally invalid. -/
def Outcome.invalid : Outcome → Bool
  | .answered response => !isValid response
  | .raised _ => false

def Outcome.limited : Outcome → Bool
  | .raised .rateLimited => true
  | _ => false

def Outcome.raises : Outcome → Bool
  | .answered _ => false
  | .raised _ => true

/-- No attempt follows the one with this number. -/
def Outcome.stops (outcome : Outcome) (attempt : ℕ) : Bool :=
  outcome.valid || outcome.limited ||
    (outcome.raises && Backoff.overflows attempt)

theorem Outcome.not_stops_of_invalid {outcome : Outcome} {attempt : ℕ}
    (h : outcome.invalid = true) : outcome.stops attempt = false := by
  cases outcome with
  | answered response =>
      have hnot : isValid response = false := by
        simpa [Outcome.invalid] using h
      simp [Outcome.stops, Outcome.valid, Outcome.limited, Outcome.raises,
        hnot]
  | raised exception => cases h

theorem Outcome.stops_of_limited {outcome : Outcome} {attempt : ℕ}
    (h : outcome.limited = true) : outcome.stops attempt = true := by
  rw [Outcome.stops, h, Bool.or_true, Bool.true_or]

theorem Outcome.stops_of_valid {outcome : Outcome} {attempt : ℕ}
    (h : outcome.valid = true) : outcome.stops attempt = true := by
  rw [Outcome.stops, h, Bool.true_or, Bool.true_or]

theorem Outcome.not_valid_of_retried {outcome : Outcome} {attempt : ℕ}
    (h : outcome.stops attempt = false) : outcome.valid = false := by
  cases hvalid : outcome.valid with
  | false => rfl
  | true =>
      rw [Outcome.stops_of_valid hvalid] at h
      cases h

/-- An attempt gives a valid answer, or is the last one and fails, or the other
attempts follow it. -/
theorem attemptFrom_cases (outcome : ℕ → Outcome) (remaining attempt : ℕ)
    (request : GenerationRequest) :
    (∃ response, outcome attempt = .answered response ∧
        isValid response = true ∧
          attemptFrom outcome remaining attempt request =
            ⟨[⟨request, outcome attempt⟩], .ok response⟩) ∨
      (∃ exception, ((outcome attempt).stops attempt = true ∨
          remaining = 0) ∧ (outcome attempt).valid = false ∧
          attemptFrom outcome remaining attempt request =
            ⟨[⟨request, outcome attempt⟩], .error exception⟩) ∨
      ∃ left next, remaining = left + 1 ∧
        (outcome attempt).stops attempt = false ∧
          attemptFrom outcome remaining attempt request =
            (attemptFrom outcome left (attempt + 1) next).after
              ⟨request, outcome attempt⟩ := by
  rw [attemptFrom.eq_def outcome remaining attempt request]
  cases houtcome : outcome attempt with
  | answered response =>
      cases hvalid : isValid response with
      | true => exact Or.inl ⟨response, rfl, hvalid, by simp [houtcome, hvalid]⟩
      | false =>
          right
          cases remaining with
          | zero =>
              left
              exact ⟨.modelOutputInvalid, Or.inr rfl, hvalid,
                by simp [houtcome, hvalid]⟩
          | succ left =>
              right
              refine ⟨left, augmentWithRepairHint request, rfl, ?_,
                by simp [houtcome, hvalid]⟩
              apply Outcome.not_stops_of_invalid
              simp [Outcome.invalid, hvalid]
  | raised exception =>
      right
      by_cases hlimited : exception = .rateLimited
      · left
        subst hlimited
        exact ⟨.rateLimited, Or.inl (Outcome.stops_of_limited rfl), rfl,
          by simp [houtcome]⟩
      · cases remaining with
        | zero =>
            left
            refine ⟨exception, Or.inr rfl, rfl, ?_⟩
            cases exception with
            | rateLimited => contradiction
            | modelOutputInvalid => simp [houtcome]
            | other => simp [houtcome]
        | succ left =>
            cases hdelay : Backoff.overflows attempt with
            | true =>
                left
                refine ⟨.other, Or.inl ?_, rfl, ?_⟩
                · simp [Outcome.stops, Outcome.raises, hdelay]
                · cases exception with
                  | rateLimited => contradiction
                  | modelOutputInvalid => simp [houtcome, hdelay]
                  | other => simp [houtcome, hdelay]
            | false =>
                right
                refine ⟨left, request, rfl, ?_, ?_⟩
                · cases exception with
                  | rateLimited => contradiction
                  | modelOutputInvalid =>
                      simp [Outcome.stops, Outcome.valid, Outcome.limited,
                        hdelay]
                  | other =>
                      simp [Outcome.stops, Outcome.valid, Outcome.limited,
                        hdelay]
                · cases exception with
                  | rateLimited => contradiction
                  | modelOutputInvalid => simp [houtcome, hdelay]
                  | other => simp [houtcome, hdelay]

/-- What holds of an attempt that is the last one, and of more attempts when
it holds of those that follow the first, holds of all attempts. -/
theorem attemptFrom_induction {outcome : ℕ → Outcome}
    {P : ℕ → ℕ → Calls → Prop}
    (answered : ∀ remaining attempt request response,
      outcome attempt = .answered response → isValid response = true →
        P remaining attempt ⟨[⟨request, outcome attempt⟩], .ok response⟩)
    (failed : ∀ remaining attempt request exception,
      ((outcome attempt).stops attempt = true ∨ remaining = 0) →
        (outcome attempt).valid = false →
          P remaining attempt
            ⟨[⟨request, outcome attempt⟩], .error exception⟩)
    (retried : ∀ remaining attempt request calls,
      (outcome attempt).stops attempt = false →
        P remaining (attempt + 1) calls →
          P (remaining + 1) attempt
            (calls.after ⟨request, outcome attempt⟩))
    (remaining attempt : ℕ) (request : GenerationRequest) :
    P remaining attempt (attemptFrom outcome remaining attempt request) := by
  induction remaining generalizing attempt request with
  | zero =>
      rcases attemptFrom_cases outcome 0 attempt request with
        ⟨response, houtcome, hvalid, hcalls⟩ |
        ⟨exception, hends, hvalid, hcalls⟩ | ⟨left, next, hleft, -, -⟩
      · rw [hcalls]
        exact answered _ _ _ _ houtcome hvalid
      · rw [hcalls]
        exact failed _ _ _ _ hends hvalid
      · cases hleft
  | succ remaining ih =>
      rcases attemptFrom_cases outcome (remaining + 1) attempt request with
        ⟨response, houtcome, hvalid, hcalls⟩ |
        ⟨exception, hends, hvalid, hcalls⟩ | ⟨left, next, hleft, hgoes, hcalls⟩
      · rw [hcalls]
        exact answered _ _ _ _ houtcome hvalid
      · rw [hcalls]
        exact failed _ _ _ _ hends hvalid
      · obtain rfl : remaining = left := Nat.succ.inj hleft
        rw [hcalls]
        exact retried _ _ _ _ hgoes (ih (attempt + 1) next)

/-- The exchanges are the attempts within the budget. -/
theorem outcomes_attemptFrom (outcome : ℕ → Outcome)
    (remaining attempt : ℕ) (request : GenerationRequest) :
    (attemptFrom outcome remaining attempt request).exchanges.map
        Exchange.outcome =
      Retry.outcomes
        (fun place => (outcome (place + attempt)).stops (place + attempt))
        (remaining + 1) (fun place => outcome (place + attempt)) := by
  apply attemptFrom_induction (P := fun remaining attempt calls =>
    calls.exchanges.map Exchange.outcome =
      Retry.outcomes
        (fun place => (outcome (place + attempt)).stops (place + attempt))
        (remaining + 1) (fun place => outcome (place + attempt)))
  · intro remaining attempt request response houtcome hvalid
    rw [Retry.outcomes_of_stop, Nat.zero_add]
    · rfl
    · rw [Nat.zero_add]
      apply Outcome.stops_of_valid
      rw [houtcome]
      exact hvalid
  · intro remaining attempt request exception hlast _
    rcases hlast with hstops | hzero
    · rw [Retry.outcomes_of_stop, Nat.zero_add]
      · rfl
      · rw [Nat.zero_add]
        exact hstops
    · rw [hzero, Retry.outcomes_one, Nat.zero_add]
      rfl
  · intro remaining attempt request calls hstops ih
    rw [Retry.outcomes_of_retry (by rw [Nat.zero_add]; exact hstops),
      Nat.zero_add]
    simp only [Nat.add_assoc, Nat.add_comm 1 attempt]
    rw [← ih]
    rfl

/-- The caller gets an answer exactly when an exchange gave a valid one, and
it is one that an exchange gave. -/
theorem result_attemptFrom (outcome : ℕ → Outcome)
    (remaining attempt : ℕ) (request : GenerationRequest) :
    match (attemptFrom outcome remaining attempt request).result with
    | .ok response => isValid response = true ∧
        ∃ exchange ∈
            (attemptFrom outcome remaining attempt request).exchanges,
          exchange.outcome = .answered response
    | .error _ =>
        ∀ exchange ∈
            (attemptFrom outcome remaining attempt request).exchanges,
          exchange.outcome.valid = false := by
  apply attemptFrom_induction (P := fun _ _ calls =>
    match calls.result with
    | .ok response => isValid response = true ∧
        ∃ exchange ∈ calls.exchanges, exchange.outcome = .answered response
    | .error _ => ∀ exchange ∈ calls.exchanges,
        exchange.outcome.valid = false)
  · intro remaining attempt request response houtcome hvalid
    exact ⟨hvalid, _, List.mem_singleton_self _, houtcome⟩
  · intro remaining attempt request exception _ hnot exchange hmem
    rw [List.mem_singleton.mp hmem]
    exact hnot
  · intro remaining attempt request calls hstops ih
    have hnot := Outcome.not_valid_of_retried hstops
    cases hresult : calls.result with
    | ok response =>
        rw [hresult] at ih
        obtain ⟨hvalid, exchange, hmem, houtcome⟩ := ih
        simp only [Calls.after, hresult]
        exact ⟨hvalid, exchange, List.mem_cons_of_mem _ hmem, houtcome⟩
    | error exception =>
        rw [hresult] at ih
        simp only [Calls.after, hresult]
        intro exchange hmem
        rcases List.mem_cons.mp hmem with hfirst | hlater
        · rw [hfirst]
          exact hnot
        · exact ih exchange hlater

end ProviderRouter
end Orvex
