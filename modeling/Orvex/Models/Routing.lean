import Orvex.Models.Repairs

/-!
# Bounded routing

The calls of a provider within a request are counted by the provider, which
may stand at several places of the list.  Routing is bounded if no provider is
asked at two places and none gives two invalid answers while attempts are left.
-/

namespace Orvex
namespace ProviderRouter

variable {maxRetries : ℕ} {request : GenerationRequest}

/-! ## The calls of a provider -/

/-- The exchanges with the provider in a request, in their order. -/
def callsOf (asked : List (Provider × List Exchange)) (identity : ℕ) :
    List Exchange :=
  (asked.filter (fun entry => entry.1.identity = identity)).flatMap Prod.snd

variable {asked : List (Provider × List Exchange)} {identity : ℕ}

theorem callsOf_append (first second : List (Provider × List Exchange))
    (identity : ℕ) :
    callsOf (first ++ second) identity =
      callsOf first identity ++ callsOf second identity := by
  simp [callsOf]

theorem callsOf_cons (entry : Provider × List Exchange)
    (rest : List (Provider × List Exchange)) :
    callsOf (entry :: rest) entry.1.identity =
      entry.2 ++ callsOf rest entry.1.identity := by
  simp [callsOf]

theorem callsOf_eq_nil
    (h : identity ∉ asked.map (fun entry => entry.1.identity)) :
    callsOf asked identity = [] := by
  have hnone : asked.filter (fun entry => entry.1.identity = identity) =
      [] := by
    apply List.filter_eq_nil_iff.mpr
    intro entry hentry hidentity
    apply h
    exact List.mem_map.mpr ⟨entry, hentry, of_decide_eq_true hidentity⟩
  rw [callsOf, hnone]
  rfl

/-- A provider that is asked once has the calls of one entry. -/
theorem callsOf_of_nodup
    (hnodup : (asked.map (fun entry => entry.1.identity)).Nodup)
    {entry : Provider × List Exchange} (hentry : entry ∈ asked) :
    callsOf asked entry.1.identity = entry.2 := by
  obtain ⟨before, after, hasked⟩ := List.append_of_mem hentry
  rw [hasked, List.map_append, List.map_cons] at hnodup
  have hparts := List.nodup_append.mp hnodup
  have hafter : entry.1.identity ∉
      after.map (fun other => other.1.identity) :=
    (List.nodup_cons.mp hparts.2.1).1
  have hbefore : entry.1.identity ∉
      before.map (fun other => other.1.identity) := by
    intro hmem
    exact hparts.2.2 _ hmem _ List.mem_cons_self rfl
  rw [hasked, callsOf_append, callsOf_cons, callsOf_eq_nil hbefore,
    callsOf_eq_nil hafter, List.append_nil, List.nil_append]

/-- With providers that are asked once, what holds of the calls at every place
and of no calls holds of the calls of every provider. -/
theorem callsOf_induction {P : List Exchange → Prop} (hnil : P [])
    (hentries : ∀ entry ∈ asked, P entry.2)
    (hnodup : (asked.map (fun entry => entry.1.identity)).Nodup)
    (identity : ℕ) : P (callsOf asked identity) := by
  by_cases hmem : identity ∈ asked.map (fun entry => entry.1.identity)
  · obtain ⟨entry, hentry, hidentity⟩ := List.mem_map.mp hmem
    rw [← hidentity, callsOf_of_nodup hnodup hentry]
    exact hentries entry hentry
  · rw [callsOf_eq_nil hmem]
    exact hnil

/-- A repair at a place is a repair of its provider. -/
theorem RepairedAt.append {exchanges : List Exchange} {place : ℕ}
    (h : RepairedAt exchanges place) (before after : List Exchange) :
    RepairedAt (before ++ (exchanges ++ after)) (before.length + place) := by
  obtain ⟨hnext, exchange, hexchange, hinvalid⟩ := h
  refine ⟨?_, exchange, ?_, hinvalid⟩
  · simp only [List.length_append]
    omega
  · rw [List.getElem?_append_right (Nat.le_add_right _ _),
      Nat.add_sub_cancel_left,
      List.getElem?_append_left (Nat.lt_of_succ_lt hnext)]
    exact hexchange

/-! ## The providers that are asked once -/

/-- No provider is reached at two places. -/
def ReachedOnce (maxRetries : ℕ) (providers : List Provider) : Prop :=
  ∀ before provider after, providers = before ++ provider :: after →
    (∀ other ∈ before, ¬ Answers maxRetries other) →
      ∀ other ∈ before, other.identity ≠ provider.identity

theorem reachedOnce_cons {first : Provider} {rest : List Provider} :
    ReachedOnce maxRetries (first :: rest) ↔
      Answers maxRetries first ∨
        (∀ provider, AskedOf maxRetries rest provider →
          first.identity ≠ provider.identity) ∧
        ReachedOnce maxRetries rest := by
  constructor
  · intro h
    by_cases hfirst : Answers maxRetries first
    · exact Or.inl hfirst
    · right
      have hcons : ∀ before provider after,
          rest = before ++ provider :: after →
          (∀ other ∈ before, ¬ Answers maxRetries other) →
            ∀ other ∈ first :: before,
              other.identity ≠ provider.identity := by
        intro before provider after hrest hnone
        apply h (first :: before) provider after
        · rw [hrest]
          rfl
        · intro other hother
          rcases List.mem_cons.mp hother with heq | hlater
          · rw [heq]
            exact hfirst
          · exact hnone other hlater
      constructor
      · intro provider hasked
        obtain ⟨before, after, hrest, hnone⟩ := hasked
        exact hcons before provider after hrest hnone first
          List.mem_cons_self
      · intro before provider after hrest hnone other hother
        exact hcons before provider after hrest hnone other
          (List.mem_cons_of_mem first hother)
  · intro h before provider after hproviders hnone other hother
    cases before with
    | nil => exact absurd hother List.not_mem_nil
    | cons head before =>
        obtain ⟨hhead, hrest⟩ := List.cons.inj hproviders
        have hnot : ¬ Answers maxRetries first := by
          rw [hhead]
          exact hnone head List.mem_cons_self
        have hlater : ∀ another ∈ before,
            ¬ Answers maxRetries another := by
          intro another hanother
          exact hnone another (List.mem_cons_of_mem head hanother)
        rcases h with hfirst | ⟨hdistinct, hreached⟩
        · exact absurd hfirst hnot
        · rcases List.mem_cons.mp hother with heq | hmem
          · rw [heq, ← hhead]
            exact hdistinct provider ⟨before, after, hrest, hlater⟩
          · exact hreached before provider after hrest hlater other hmem

/-- The entries of a run have distinct providers exactly when no provider is
reached at two places. -/
theorem nodup_asked_iff {providers : List Provider}
    {cooldownUntil : Entries String ℚ} {lastError : Option LastError} :
    ((runFrom maxRetries request providers cooldownUntil
        lastError).asked.map (fun entry => entry.1.identity)).Nodup ↔
      ReachedOnce maxRetries providers := by
  induction providers generalizing cooldownUntil lastError with
  | nil =>
      refine iff_of_true List.nodup_nil ?_
      intro before provider after hproviders
      simp at hproviders
  | cons first rest ih =>
      rw [reachedOnce_cons]
      rcases runFrom_cons maxRetries request first rest cooldownUntil
          lastError with ⟨response, hresult, hrun⟩ |
          ⟨exception, cooldownUntil', lastError', hresult, hrun⟩
      · rw [hrun]
        exact iff_of_true (List.nodup_singleton _)
          (Or.inl (answers_iff.mpr ⟨response, hresult⟩))
      · have hnot : ¬ Answers maxRetries first := by
          intro hanswers
          obtain ⟨response, hresponse⟩ :=
            (@answers_iff maxRetries first request).mp hanswers
          rw [hresult] at hresponse
          cases hresponse
        rw [hrun, or_iff_right hnot, ← @ih cooldownUntil' lastError']
        simp only [Run.after, List.map_cons, List.nodup_cons]
        apply and_congr_left'
        constructor
        · intro hdistinct provider hasked hsame
          apply hdistinct
          rw [hsame]
          exact List.mem_map.mpr
            ⟨(provider, _), mem_asked_iff.mpr ⟨hasked, rfl⟩, rfl⟩
        · intro hdistinct hmem
          obtain ⟨entry, hentry, hidentity⟩ := List.mem_map.mp hmem
          have hasked := (@mem_asked_iff maxRetries entry.1 request rest
            cooldownUntil' lastError' entry.2).mp hentry
          exact hdistinct entry.1 hasked.1 hidentity.symm

/-- A provider that gives no answer is rate limited at its last call, has used
up its budget or has made more than 1024 calls. -/
theorem last_of_not_answers {provider : Provider}
    (hnot : ¬ Answers maxRetries provider) :
    ∃ last, (callProviderWithRetries maxRetries provider
        request).exchanges.length = last + 1 ∧
      ((provider.outcome last).limited = true ∨ last = maxRetries ∨
        1024 ≤ last) := by
  have hpos : 0 < (callProviderWithRetries maxRetries provider
      request).exchanges.length := by
    apply lt_length_exchanges_iff.mpr
    refine ⟨Nat.succ_pos maxRetries, ?_⟩
    intro earlier hearlier
    exact absurd hearlier (Nat.not_lt_zero earlier)
  obtain ⟨last, hlast⟩ := Nat.exists_eq_succ_of_ne_zero hpos.ne'
  refine ⟨last, hlast, ?_⟩
  have hmade := (@lt_length_exchanges_iff maxRetries provider request
    last).mp (by omega)
  by_cases hbudget : last = maxRetries
  · exact Or.inr (Or.inl hbudget)
  · cases hstops : (provider.outcome last).stops last with
    | false =>
        have hnext : last + 1 < (callProviderWithRetries maxRetries provider
            request).exchanges.length := by
          apply lt_length_exchanges_iff.mpr
          refine ⟨by omega, ?_⟩
          intro earlier hearlier
          rcases Nat.lt_succ_iff_lt_or_eq.mp hearlier with hlt | heq
          · exact hmade.2 earlier hlt
          · rw [heq]
            exact hstops
        omega
    | true =>
        have hinvalid : (provider.outcome last).valid = false := by
          cases hvalid : (provider.outcome last).valid with
          | false => rfl
          | true =>
              exact absurd ⟨last, Nat.le_of_lt_succ hmade.1, hvalid,
                hmade.2⟩ hnot
        rw [Outcome.stops, hinvalid, Bool.false_or] at hstops
        rcases Bool.or_eq_true_iff.mp hstops with hlimited | hdelay
        · exact Or.inl hlimited
        · right
          right
          exact Backoff.overflows_iff.mp (Bool.and_eq_true_iff.mp hdelay).2

/-! ## Bounded routing -/

/-- An answer is a non-empty dictionary that a provider gave.  The providers
are asked in an order of their list.  Each is called within the budget and not
after a rate limit, with at most one repair, which is made when an invalid
answer leaves attempts. -/
structure BoundedRouting (router : Router) (request : GenerationRequest) :
    Prop where
  answer : ∀ response,
    (generateStructured router request).result = .ok response →
      NonEmptyDict response.structured ∧
        ∃ entry ∈ (generateStructured router request).asked,
          ∃ exchange ∈ entry.2, exchange.outcome = .answered response
  order : ∃ providers, providers.Perm router.providers ∧
    (generateStructured router request).asked.map Prod.fst <+: providers
  given : ∀ entry ∈ (generateStructured router request).asked,
    ∀ place exchange, entry.2[place]? = some exchange →
      exchange.outcome = entry.1.outcome place
  budget : ∀ identity,
    (callsOf (generateStructured router request).asked identity).length ≤
      router.maxRetries + 1
  limited : ∀ identity place exchange,
    (callsOf (generateStructured router request).asked identity)[place]? =
        some exchange →
      exchange.outcome.limited = true →
        (callsOf (generateStructured router request).asked
          identity).length = place + 1
  repairs : ∀ identity place later,
    RepairedAt (callsOf (generateStructured router request).asked identity)
        place →
      RepairedAt (callsOf (generateStructured router request).asked identity)
        later → place = later
  repaired : ∀ identity place exchange,
    (callsOf (generateStructured router request).asked identity)[place]? =
        some exchange →
      exchange.outcome.invalid = true → place < router.maxRetries →
        ∃! repair, RepairedAt
          (callsOf (generateStructured router request).asked identity) repair

/-- None of the providers that are asked gives two invalid answers while
attempts are left. -/
def AskedInvalidOnce (router : Router) : Prop :=
  ∀ provider,
    AskedOf router.maxRetries (orderedByHealth router) provider →
      InvalidOnce router.maxRetries provider.outcome

/-- No provider is asked at two places of the list. -/
def AskedOnce (router : Router) : Prop :=
  ReachedOnce router.maxRetries (orderedByHealth router)

variable {router : Router}

theorem exists_calls_of_asked {entry : Provider × List Exchange}
    (h : entry ∈ (generateStructured router request).asked) :
    AskedOf router.maxRetries (orderedByHealth router) entry.1 ∧
      entry.2 = (callProviderWithRetries router.maxRetries entry.1
        request).exchanges :=
  mem_asked_iff.mp h

/-- Routing is bounded when the providers are asked once and are invalid
once. -/
theorem bounded_of_once (honce : AskedOnce router)
    (hinvalid : AskedInvalidOnce router) : BoundedRouting router request := by
  have hnodup := (@nodup_asked_iff router.maxRetries request
    (orderedByHealth router) router.cooldownUntil none).mpr honce
  have hrepairs : ∀ entry ∈ (generateStructured router request).asked,
      ∀ place later, RepairedAt entry.2 place →
        RepairedAt entry.2 later → place = later := by
    intro entry hentry
    obtain ⟨hasked, hcalls⟩ := exists_calls_of_asked hentry
    rw [hcalls]
    exact repairedOnce_iff.mpr (hinvalid entry.1 hasked)
  refine ⟨?_, ⟨_, orderedByHealth_perm router, asked_isPrefix _ _ _ _ _⟩,
    ?_, ?_, ?_, ?_, ?_⟩
  · intro response h
    obtain ⟨hvalid, hgiven⟩ := answer_of_runFrom h
    exact ⟨isValid_iff.mp hvalid, hgiven⟩
  · intro entry hentry place exchange hexchange
    rw [(exists_calls_of_asked hentry).2] at hexchange
    exact outcome_of_exchange hexchange
  · apply callsOf_induction (P := fun calls =>
      calls.length ≤ router.maxRetries + 1) (Nat.zero_le _) _ hnodup
    intro entry hentry
    rw [(exists_calls_of_asked hentry).2]
    exact length_exchanges_le
  · apply callsOf_induction (P := fun calls => ∀ place exchange,
      calls[place]? = some exchange → exchange.outcome.limited = true →
        calls.length = place + 1) _ _ hnodup
    · intro place exchange hexchange
      simp at hexchange
    · intro entry hentry place exchange hexchange hlimited
      rw [(exists_calls_of_asked hentry).2] at hexchange ⊢
      exact length_of_limited hexchange hlimited
  · apply callsOf_induction (P := fun calls => ∀ place later,
      RepairedAt calls place → RepairedAt calls later → place = later)
      _ hrepairs hnodup
    intro place later hplace
    exact absurd hplace.1 (Nat.not_lt_zero _)
  · apply callsOf_induction (P := fun calls => ∀ place exchange,
      calls[place]? = some exchange → exchange.outcome.invalid = true →
        place < router.maxRetries → ∃! repair, RepairedAt calls repair)
      _ _ hnodup
    · intro place exchange hexchange
      simp at hexchange
    · intro entry hentry place exchange hexchange hanswer hplace
      have hrepair : RepairedAt entry.2 place := by
        rw [(exists_calls_of_asked hentry).2] at hexchange ⊢
        have hlt := (List.getElem?_eq_some_iff.mp hexchange).1
        rw [outcome_of_exchange hexchange] at hanswer
        exact repairedAt_iff.mpr
          ⟨hplace, hanswer, (lt_length_exchanges_iff.mp hlt).2⟩
      refine ⟨place, hrepair, ?_⟩
      intro other hother
      exact hrepairs entry hentry other place hother hrepair

theorem invalidOnce_of_bounded (hbounded : BoundedRouting router request) :
    AskedInvalidOnce router := by
  intro provider hasked
  have hmem := (@mem_asked_iff router.maxRetries provider request
    (orderedByHealth router) router.cooldownUntil none _).mpr
      ⟨hasked, rfl⟩
  obtain ⟨before, after, hsplit⟩ := List.append_of_mem hmem
  have hcalls : callsOf (generateStructured router request).asked
      provider.identity =
        callsOf before provider.identity ++
          ((callProviderWithRetries router.maxRetries provider
            request).exchanges ++ callsOf after provider.identity) := by
    unfold generateStructured
    rw [hsplit, callsOf_append, callsOf_cons]
  apply (@repairedOnce_iff router.maxRetries provider request).mp
  intro place later hplace hlater
  have hsame := hbounded.repairs provider.identity
    ((callsOf before provider.identity).length + place)
    ((callsOf before provider.identity).length + later)
    (by rw [hcalls]; exact hplace.append _ _)
    (by rw [hcalls]; exact hlater.append _ _)
  omega

/-- The calls are within the budget and none follows a rate limit. -/
def WithinBudget (maxRetries : ℕ) (calls : List Exchange) : Prop :=
  calls.length ≤ maxRetries + 1 ∧
    ∀ place exchange, calls[place]? = some exchange →
      exchange.outcome.limited = true → calls.length = place + 1

theorem WithinBudget.of_append {before calls : List Exchange}
    (h : WithinBudget maxRetries (before ++ calls)) :
    WithinBudget maxRetries calls := by
  obtain ⟨hlength, hlimited⟩ := h
  rw [List.length_append] at hlength
  refine ⟨by omega, ?_⟩
  intro place exchange hexchange hlimit
  have hlast := hlimited (before.length + place) exchange
    (by rw [List.getElem?_append_right (Nat.le_add_right _ _),
      Nat.add_sub_cancel_left]; exact hexchange) hlimit
  rw [List.length_append] at hlast
  omega

/-- After a provider without an answer every other call of it is one too
many. -/
theorem not_within_of_again (hretries : maxRetries ≤ 1024)
    {provider : Provider} (hnot : ¬ Answers maxRetries provider)
    {later : List Exchange} (hlater : later ≠ []) :
    ¬ WithinBudget maxRetries ((callProviderWithRetries maxRetries provider
      request).exchanges ++ later) := by
  intro h
  obtain ⟨hlength, hlimited⟩ := h
  obtain ⟨last, hlast, hends⟩ := @last_of_not_answers maxRetries request
    provider hnot
  have hpos := List.length_pos_iff.mpr hlater
  have hle := @length_exchanges_le maxRetries provider request
  rw [List.length_append] at hlength
  rcases hends with hlimit | hbudget | hoverflows
  · have hplace : last < (callProviderWithRetries maxRetries provider
        request).exchanges.length := by omega
    have hexchange := List.getElem?_eq_getElem hplace
    have hend := hlimited last _
      (by rw [List.getElem?_append_left hplace]; exact hexchange)
      (by rw [outcome_of_exchange hexchange]; exact hlimit)
    rw [List.length_append] at hend
    omega
  · omega
  · omega

theorem nodup_of_within (hretries : maxRetries ≤ 1024)
    {providers : List Provider} {cooldownUntil : Entries String ℚ}
    {lastError : Option LastError}
    (h : ∀ identity, WithinBudget maxRetries
      (callsOf (runFrom maxRetries request providers cooldownUntil
        lastError).asked identity)) :
    ((runFrom maxRetries request providers cooldownUntil
      lastError).asked.map (fun entry => entry.1.identity)).Nodup := by
  induction providers generalizing cooldownUntil lastError with
  | nil => exact List.nodup_nil
  | cons first rest ih =>
      rcases runFrom_cons maxRetries request first rest cooldownUntil
          lastError with ⟨response, -, hrun⟩ |
          ⟨exception, cooldownUntil', lastError', hresult, hrun⟩
      · rw [hrun]
        exact List.nodup_singleton _
      · have hnot : ¬ Answers maxRetries first := by
          intro hanswers
          obtain ⟨response, hresponse⟩ :=
            (@answers_iff maxRetries first request).mp hanswers
          rw [hresult] at hresponse
          cases hresponse
        rw [hrun] at h ⊢
        apply List.nodup_cons.mpr
        constructor
        · intro hmem
          obtain ⟨entry, hentry, hidentity⟩ := List.mem_map.mp hmem
          have hfirst := h first.identity
          simp only [Run.after] at hfirst
          rw [callsOf_cons] at hfirst
          apply not_within_of_again hretries hnot _ hfirst
          have hcalls := (@mem_asked_iff maxRetries entry.1 request rest
            cooldownUntil' lastError' entry.2).mp hentry
          have hmade : entry.2 ≠ [] := by
            rw [hcalls.2]
            obtain ⟨exchange, hexchange⟩ := List.exists_mem_of_length_pos
              (lt_length_exchanges_iff.mpr ⟨Nat.succ_pos maxRetries,
                fun earlier hearlier =>
                  absurd hearlier (Nat.not_lt_zero earlier)⟩)
            exact List.ne_nil_of_mem hexchange
          intro hnil
          apply hmade
          apply List.flatMap_eq_nil_iff.mp hnil
          exact List.mem_filter.mpr ⟨hentry, decide_eq_true hidentity⟩
        · apply ih
          intro identity
          have hall := h identity
          simp only [Run.after] at hall
          rw [← List.singleton_append, callsOf_append] at hall
          exact hall.of_append

/-- Where no provider is asked at two places, routing is bounded exactly when
none that is asked gives two invalid answers while attempts are left.  Where
one is asked at two places it is not bounded, unless the delays overflow. -/
theorem bounded_routing_iff (router : Router)
    (request : GenerationRequest) :
    (AskedOnce router →
        (BoundedRouting router request ↔ AskedInvalidOnce router)) ∧
      (¬ AskedOnce router → router.maxRetries ≤ 1024 →
        ¬ BoundedRouting router request) := by
  constructor
  · intro honce
    exact ⟨invalidOnce_of_bounded, bounded_of_once honce⟩
  · intro htwice hretries hbounded
    apply htwice
    apply (@nodup_asked_iff router.maxRetries request
      (orderedByHealth router) router.cooldownUntil none).mp
    apply nodup_of_within hretries
    intro identity
    exact ⟨hbounded.budget identity, hbounded.limited identity⟩

/-- A provider whose answers are always empty. -/
def emptyProvider : Provider where
  identity := 0
  name := "groq"
  health := some true
  outcome := fun _ => .answered ⟨none, .dict []⟩
  checkedAt := 0
  limitedAt := 0

/-- The only provider is repaired twice with two retries. -/
theorem empty_answers_repaired_twice :
    ¬ BoundedRouting ⟨[emptyProvider], 2, .empty⟩ ⟨"", [], "v1"⟩ := by
  intro hbounded
  have hcalls : callsOf (generateStructured ⟨[emptyProvider], 2, .empty⟩
      ⟨"", [], "v1"⟩).asked 0 = (callProviderWithRetries 2 emptyProvider
        ⟨"", [], "v1"⟩).exchanges := rfl
  have htwice : ∀ place < 2, RepairedAt (callProviderWithRetries 2
      emptyProvider ⟨"", [], "v1"⟩).exchanges place := by
    intro place hplace
    exact repairedAt_iff.mpr ⟨hplace, rfl, fun _ _ => rfl⟩
  have hsame := hbounded.repairs 0 0 1
  rw [hcalls] at hsame
  have hequal := hsame (htwice 0 (by omega)) (htwice 1 (by omega))
  omega

end ProviderRouter
end Orvex
