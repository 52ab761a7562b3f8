import Orvex.Models.Router

/-!
# Calls and repairs of a request

The calls of a provider stay within its budget and end at a rate limit, and an
answer is one that a provider gave.  A call is a repair when the answer before
it was invalid.  As errors and invalid answers share the attempts, one request
can make several repairs of one provider.
-/

namespace Orvex
namespace ProviderRouter

/-- A non-empty dictionary. -/
def NonEmptyDict (value : PyValue) : Prop :=
  ∃ fields, value = .dict fields ∧ fields ≠ []

theorem isValid_iff {response : ModelResponse} :
    isValid response = true ↔ NonEmptyDict response.structured := by
  unfold isValid NonEmptyDict
  cases response.structured with
  | dict fields => simp
  | _ => simp

/-- The call after this place is a repair: the answer there was invalid. -/
def RepairedAt (exchanges : List Exchange) (place : ℕ) : Prop :=
  place + 1 < exchanges.length ∧
    ∃ exchange, exchanges[place]? = some exchange ∧
      exchange.outcome.invalid = true

/-! ## The calls of one provider -/

variable {maxRetries : ℕ} {provider : Provider}
variable {request : GenerationRequest}

/-- The exchanges are the attempts within the budget. -/
theorem outcomes_of_calls :
    (callProviderWithRetries maxRetries provider
        request).exchanges.map Exchange.outcome =
      Retry.outcomes (fun place => (provider.outcome place).stops place)
        (maxRetries + 1) provider.outcome :=
  outcomes_attemptFrom provider.outcome maxRetries 0 request

theorem outcome_of_exchange {place : ℕ} {exchange : Exchange}
    (h : (callProviderWithRetries maxRetries provider
      request).exchanges[place]? = some exchange) :
    exchange.outcome = provider.outcome place := by
  have hplace : (Retry.outcomes
      (fun place => (provider.outcome place).stops place) (maxRetries + 1)
      provider.outcome)[place]? = some exchange.outcome := by
    rw [← @outcomes_of_calls maxRetries provider request, List.getElem?_map,
      h]
    rfl
  have hlt := (List.getElem?_eq_some_iff.mp hplace).1
  rw [Retry.getElem?_outcomes hlt] at hplace
  exact (Option.some.inj hplace).symm

theorem lt_length_exchanges_iff {place : ℕ} :
    place < (callProviderWithRetries maxRetries provider
        request).exchanges.length ↔
      place < maxRetries + 1 ∧
        ∀ earlier < place,
          (provider.outcome earlier).stops earlier = false := by
  rw [← List.length_map (f := Exchange.outcome), outcomes_of_calls]
  exact Retry.lt_length_outcomes_iff

theorem length_exchanges_le :
    (callProviderWithRetries maxRetries provider
      request).exchanges.length ≤ maxRetries + 1 := by
  rw [← List.length_map (f := Exchange.outcome), outcomes_of_calls]
  exact Retry.length_outcomes_le

/-- Nothing follows a rate limit. -/
theorem length_of_limited {place : ℕ} {exchange : Exchange}
    (h : (callProviderWithRetries maxRetries provider
      request).exchanges[place]? = some exchange)
    (hlimited : exchange.outcome.limited = true) :
    (callProviderWithRetries maxRetries provider
      request).exchanges.length = place + 1 := by
  have hlt := (List.getElem?_eq_some_iff.mp h).1
  have hlast : ¬ place + 1 < (callProviderWithRetries maxRetries provider
      request).exchanges.length := by
    intro hnext
    have hretried := (lt_length_exchanges_iff.mp hnext).2 place
      (Nat.lt_succ_self place)
    rw [outcome_of_exchange h] at hlimited
    rw [Outcome.stops_of_limited hlimited] at hretried
    cases hretried
  omega

/-- A repair follows an invalid answer that leaves attempts in the budget. -/
theorem repairedAt_iff {place : ℕ} :
    RepairedAt (callProviderWithRetries maxRetries provider
        request).exchanges place ↔
      place < maxRetries ∧ (provider.outcome place).invalid = true ∧
        ∀ earlier < place,
          (provider.outcome earlier).stops earlier = false := by
  constructor
  · intro h
    obtain ⟨hnext, exchange, hexchange, hinvalid⟩ := h
    have hmade := lt_length_exchanges_iff.mp hnext
    rw [outcome_of_exchange hexchange] at hinvalid
    refine ⟨Nat.lt_of_succ_lt_succ hmade.1, hinvalid, ?_⟩
    intro earlier hearlier
    exact hmade.2 earlier (Nat.lt_succ_of_lt hearlier)
  · intro h
    obtain ⟨hplace, hinvalid, hretried⟩ := h
    have hnext : place + 1 < (callProviderWithRetries maxRetries provider
        request).exchanges.length := by
      apply lt_length_exchanges_iff.mpr
      refine ⟨Nat.succ_lt_succ hplace, ?_⟩
      intro earlier hearlier
      rcases Nat.lt_succ_iff_lt_or_eq.mp hearlier with hlt | heq
      · exact hretried earlier hlt
      · rw [heq]
        exact Outcome.not_stops_of_invalid hinvalid
    have hexchange := List.getElem?_eq_getElem (Nat.lt_of_succ_lt hnext)
    refine ⟨hnext, _, hexchange, ?_⟩
    rw [outcome_of_exchange hexchange]
    exact hinvalid

/-- Two invalid answers while attempts are left do not both come before the
attempts end. -/
def InvalidOnce (maxRetries : ℕ) (outcome : ℕ → Outcome) : Prop :=
  ∀ place later, place < later → later < maxRetries →
    (outcome place).invalid = true → (outcome later).invalid = true →
      ∃ earlier < later, (outcome earlier).stops earlier = true

/-- A provider is repaired at most once. -/
theorem repairedOnce_iff :
    (∀ place later,
      RepairedAt (callProviderWithRetries maxRetries provider
        request).exchanges place →
      RepairedAt (callProviderWithRetries maxRetries provider
        request).exchanges later → place = later) ↔
      InvalidOnce maxRetries provider.outcome := by
  constructor
  · intro honce place later hlt hlater hfirst hsecond
    by_contra hnone
    have hretried : ∀ earlier < later,
        (provider.outcome earlier).stops earlier = false := by
      intro earlier hearlier
      cases hstops : (provider.outcome earlier).stops earlier with
      | false => rfl
      | true => exact absurd ⟨earlier, hearlier, hstops⟩ hnone
    have hrepaired : RepairedAt (callProviderWithRetries maxRetries provider
        request).exchanges later :=
      repairedAt_iff.mpr ⟨hlater, hsecond, hretried⟩
    have hrepaired' : RepairedAt (callProviderWithRetries maxRetries provider
        request).exchanges place :=
      repairedAt_iff.mpr ⟨hlt.trans hlater, hfirst,
        fun earlier hearlier => hretried earlier (hearlier.trans hlt)⟩
    have heq := honce place later hrepaired' hrepaired
    omega
  · intro honce
    have hordered : ∀ place later, place < later →
        RepairedAt (callProviderWithRetries maxRetries provider
          request).exchanges place →
        RepairedAt (callProviderWithRetries maxRetries provider
          request).exchanges later → False := by
      intro place later hlt hplace hlater
      have hfirst := repairedAt_iff.mp hplace
      have hsecond := repairedAt_iff.mp hlater
      obtain ⟨earlier, hearlier, hstops⟩ := honce place later hlt hsecond.1
        hfirst.2.1 hsecond.2.1
      rw [hsecond.2.2 earlier hearlier] at hstops
      cases hstops
    intro place later hplace hlater
    rcases Nat.lt_trichotomy place later with hlt | heq | hgt
    · exact absurd hlater (fun h => hordered place later hlt hplace h)
    · exact heq
    · exact absurd hplace (fun h => hordered later place hgt hlater h)

/-! ## The providers that are asked -/

/-- A valid answer comes within the budget. -/
def Answers (maxRetries : ℕ) (provider : Provider) : Prop :=
  ∃ place ≤ maxRetries, (provider.outcome place).valid = true ∧
    ∀ earlier < place, (provider.outcome earlier).stops earlier = false

/-- The provider is in the list and none before it answers. -/
def AskedOf (maxRetries : ℕ) (providers : List Provider)
    (provider : Provider) : Prop :=
  ∃ before after, providers = before ++ provider :: after ∧
    ∀ other ∈ before, ¬ Answers maxRetries other

theorem answers_iff :
    Answers maxRetries provider ↔
      ∃ response, (callProviderWithRetries maxRetries provider
        request).result = .ok response := by
  have hresult := result_attemptFrom provider.outcome maxRetries 0 request
  have hmap := @outcomes_of_calls maxRetries provider request
  have hmember : Answers maxRetries provider ↔
      ∃ exchange ∈ (callProviderWithRetries maxRetries provider
        request).exchanges, exchange.outcome.valid = true := by
    constructor
    · intro h
      obtain ⟨place, hplace, hvalid, hretried⟩ := h
      have hmem : provider.outcome place ∈ Retry.outcomes
          (fun place => (provider.outcome place).stops place)
            (maxRetries + 1) provider.outcome :=
        Retry.mem_outcomes_iff.mpr
          ⟨place, Nat.lt_succ_of_le hplace, hretried, rfl⟩
      rw [← hmap] at hmem
      obtain ⟨exchange, hexchange, houtcome⟩ := List.mem_map.mp hmem
      exact ⟨exchange, hexchange, by rw [houtcome]; exact hvalid⟩
    · intro h
      obtain ⟨exchange, hexchange, hvalid⟩ := h
      have hmem := List.mem_map_of_mem (f := Exchange.outcome) hexchange
      rw [hmap] at hmem
      obtain ⟨place, hplace, hretried, houtcome⟩ :=
        Retry.mem_outcomes_iff.mp hmem
      exact ⟨place, Nat.le_of_lt_succ hplace, by rw [houtcome]; exact hvalid,
        hretried⟩
  rw [hmember]
  unfold callProviderWithRetries
  cases hcalls : (attemptFrom provider.outcome maxRetries 0
      request).result with
  | ok response =>
      rw [hcalls] at hresult
      obtain ⟨hvalid, exchange, hexchange, houtcome⟩ := hresult
      exact iff_of_true
        ⟨exchange, hexchange, by rw [houtcome]; exact hvalid⟩
        ⟨response, rfl⟩
  | error exception =>
      rw [hcalls] at hresult
      refine iff_of_false ?_ ?_
      · intro h
        obtain ⟨exchange, hexchange, hvalid⟩ := h
        rw [hresult exchange hexchange] at hvalid
        cases hvalid
      · intro h
        obtain ⟨response, h⟩ := h
        cases h

/-- One step of the loop over the providers. -/
theorem runFrom_cons (maxRetries : ℕ) (request : GenerationRequest)
    (provider : Provider) (rest : List Provider)
    (cooldownUntil : Entries String ℚ) (lastError : Option LastError) :
    (∃ response, (callProviderWithRetries maxRetries provider
        request).result = .ok response ∧
      runFrom maxRetries request (provider :: rest) cooldownUntil lastError =
        ⟨[(provider, (callProviderWithRetries maxRetries provider
          request).exchanges)], cooldownUntil, .ok response⟩) ∨
    (∃ exception cooldownUntil' lastError',
      (callProviderWithRetries maxRetries provider request).result =
        .error exception ∧
      runFrom maxRetries request (provider :: rest) cooldownUntil lastError =
        (runFrom maxRetries request rest cooldownUntil' lastError').after
          provider (callProviderWithRetries maxRetries provider
            request).exchanges) := by
  rw [runFrom]
  cases hresult : (callProviderWithRetries maxRetries provider
      request).result with
  | ok response => exact Or.inl ⟨response, rfl, rfl⟩
  | error exception =>
      cases exception with
      | rateLimited => exact Or.inr ⟨_, _, _, rfl, rfl⟩
      | modelOutputInvalid => exact Or.inr ⟨_, _, _, rfl, rfl⟩
      | other => exact Or.inr ⟨_, _, _, rfl, rfl⟩

theorem askedOf_nil : ¬ AskedOf maxRetries [] provider := by
  intro h
  obtain ⟨before, after, hproviders, -⟩ := h
  cases before with
  | nil => cases hproviders
  | cons other rest => cases hproviders

theorem askedOf_cons {first : Provider} {rest : List Provider} :
    AskedOf maxRetries (first :: rest) provider ↔
      provider = first ∨
        ¬ Answers maxRetries first ∧ AskedOf maxRetries rest provider := by
  constructor
  · intro h
    obtain ⟨before, after, hproviders, hnone⟩ := h
    cases before with
    | nil =>
        left
        exact (List.cons.inj hproviders).1.symm
    | cons other before =>
        right
        obtain ⟨hfirst, hrest⟩ := List.cons.inj hproviders
        refine ⟨?_, before, after, hrest, ?_⟩
        · rw [hfirst]
          exact hnone other List.mem_cons_self
        · intro another hmem
          exact hnone another (List.mem_cons_of_mem other hmem)
  · intro h
    rcases h with hfirst | ⟨hnot, before, after, hrest, hnone⟩
    · refine ⟨[], rest, by rw [hfirst]; rfl, ?_⟩
      intro other hmem
      exact absurd hmem List.not_mem_nil
    · refine ⟨first :: before, after, by rw [hrest]; rfl, ?_⟩
      intro other hmem
      rcases List.mem_cons.mp hmem with heq | hlater
      · rw [heq]
        exact hnot
      · exact hnone other hlater

theorem mem_asked_iff {providers : List Provider}
    {cooldownUntil : Entries String ℚ} {lastError : Option LastError}
    {exchanges : List Exchange} :
    (provider, exchanges) ∈
        (runFrom maxRetries request providers cooldownUntil
          lastError).asked ↔
      AskedOf maxRetries providers provider ∧
        exchanges = (callProviderWithRetries maxRetries provider
          request).exchanges := by
  induction providers generalizing cooldownUntil lastError with
  | nil =>
      refine iff_of_false List.not_mem_nil ?_
      intro h
      exact askedOf_nil h.1
  | cons first rest ih =>
      rw [askedOf_cons]
      rcases runFrom_cons maxRetries request first rest cooldownUntil
          lastError with ⟨response, hresult, hrun⟩ |
          ⟨exception, cooldownUntil', lastError', hresult, hrun⟩
      · have hanswers : Answers maxRetries first :=
          answers_iff.mpr ⟨response, hresult⟩
        rw [hrun, List.mem_singleton, Prod.mk.injEq]
        constructor
        · intro h
          exact ⟨Or.inl h.1, by rw [h.2, h.1]⟩
        · intro h
          rcases h.1 with hfirst | hlater
          · exact ⟨hfirst, by rw [h.2, hfirst]⟩
          · exact absurd hanswers hlater.1
      · have hnot : ¬ Answers maxRetries first := by
          intro hanswers
          obtain ⟨response, hresponse⟩ :=
            (@answers_iff maxRetries first request).mp hanswers
          rw [hresult] at hresponse
          cases hresponse
        rw [hrun]
        have hcons : (provider, exchanges) ∈
            ((runFrom maxRetries request rest cooldownUntil'
              lastError').after first (callProviderWithRetries maxRetries
                first request).exchanges).asked ↔
            (provider, exchanges) = (first, (callProviderWithRetries
              maxRetries first request).exchanges) ∨
            (provider, exchanges) ∈ (runFrom maxRetries request rest
              cooldownUntil' lastError').asked := List.mem_cons
        rw [hcons, ih, Prod.mk.injEq]
        constructor
        · intro h
          rcases h with hfirst | hlater
          · exact ⟨Or.inl hfirst.1, by rw [hfirst.2, hfirst.1]⟩
          · exact ⟨Or.inr ⟨hnot, hlater.1⟩, hlater.2⟩
        · intro h
          rcases h.1 with hfirst | hlater
          · exact Or.inl ⟨hfirst, by rw [h.2, hfirst]⟩
          · exact Or.inr ⟨hlater.2, h.2⟩

theorem asked_isPrefix (maxRetries : ℕ) (request : GenerationRequest)
    (providers : List Provider) (cooldownUntil : Entries String ℚ)
    (lastError : Option LastError) :
    (runFrom maxRetries request providers cooldownUntil
      lastError).asked.map Prod.fst <+: providers := by
  induction providers generalizing cooldownUntil lastError with
  | nil => exact List.nil_prefix
  | cons first rest ih =>
      rcases runFrom_cons maxRetries request first rest cooldownUntil
          lastError with ⟨response, -, hrun⟩ |
          ⟨exception, cooldownUntil', lastError', -, hrun⟩
      · rw [hrun]
        exact ⟨rest, rfl⟩
      · rw [hrun]
        exact List.cons_prefix_cons.mpr ⟨rfl, ih cooldownUntil' lastError'⟩

/-- An answer of the request is one that an exchange gave. -/
theorem answer_of_runFrom {providers : List Provider}
    {cooldownUntil : Entries String ℚ} {lastError : Option LastError}
    {response : ModelResponse}
    (h : (runFrom maxRetries request providers cooldownUntil
      lastError).result = .ok response) :
    isValid response = true ∧
      ∃ entry ∈ (runFrom maxRetries request providers cooldownUntil
        lastError).asked, ∃ exchange ∈ entry.2,
          exchange.outcome = .answered response := by
  induction providers generalizing cooldownUntil lastError with
  | nil => cases h
  | cons first rest ih =>
      rcases runFrom_cons maxRetries request first rest cooldownUntil
          lastError with ⟨given, hresult, hrun⟩ |
          ⟨exception, cooldownUntil', lastError', -, hrun⟩
      · rw [hrun] at h ⊢
        cases h
        have hgiven := result_attemptFrom first.outcome maxRetries 0 request
        unfold callProviderWithRetries at hresult
        rw [hresult] at hgiven
        exact ⟨hgiven.1, _, List.mem_singleton_self _, hgiven.2⟩
      · rw [hrun] at h ⊢
        obtain ⟨hvalid, entry, hentry, hexchange⟩ := ih h
        exact ⟨hvalid, entry, List.mem_cons_of_mem _ hentry, hexchange⟩

theorem orderedByHealth_perm (router : Router) :
    (orderedByHealth router).Perm router.providers := by
  unfold orderedByHealth
  let cooling (provider : Provider) : Bool :=
    onCooldown router.cooldownUntil provider.name provider.checkedAt
  let reachable := router.providers.filter healthy
  have hreachable : (router.providers.filter
        (fun p => healthy p && !cooling p) ++
      router.providers.filter (fun p => healthy p && cooling p)).Perm
        reachable := by
    have hsplit := List.filter_append_perm cooling reachable
    have hcooling : reachable.filter cooling =
        router.providers.filter (fun p => healthy p && cooling p) := by
      rw [List.filter_filter]
      simp only [Bool.and_comm]
    have hready : reachable.filter (fun p => !cooling p) =
        router.providers.filter (fun p => healthy p && !cooling p) := by
      rw [List.filter_filter]
      simp only [Bool.and_comm]
    rw [hcooling, hready] at hsplit
    exact List.perm_append_comm.trans hsplit
  exact (hreachable.append_right _).trans
    (List.filter_append_perm healthy router.providers)

end ProviderRouter
end Orvex
