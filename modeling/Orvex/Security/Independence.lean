import Orvex.Core.Python
import Orvex.Memory.EvidenceGraph

/-!
# Epistemic independence

The scorer counts the independent roots of a list of alerts; its confidence
grows with the roots and not with the number of alerts.  A source that is not
in the list is not counted: an alert none of whose sources is listed is a root
of its own.  Alerts that are derived from each other in a long row end in a
RecursionError.
-/

namespace Orvex
namespace Independence

open EvidenceGraph

inductive Handling where
  | monitor | review | denyRecommended
  deriving DecidableEq

structure EpistemicIndependenceAssessment where
  incidentId : String
  rawAlertCount : ℕ
  independentRootCount : ℕ
  independenceScore : ℕ
  confidenceScore : ℚ
  sourceCredibility : ℚ
  evidenceType : Option String
  recommendedHandling : Handling
  evidenceIds : List String

/-- `trust_weight.get(trust_level, 0.3)`. -/
def trustWeight : Option String → ℚ
  | some "TRUSTED" => 1
  | some "INTERNAL" => 4 / 5
  | some "EXTERNAL" => 1 / 2
  | some "UNTRUSTED" => 1 / 5
  | _ => 3 / 10

def avgCredibility (alerts : List EvidenceItem) : ℚ :=
  if alerts.isEmpty then 0
  else
    (alerts.map (fun alert =>
      trustWeight (alert.source.bind EvidenceSource.trustLevel))).sum /
      alerts.length

/-- The first type with the highest count, in the order of a set. -/
def dominantType (order : SetOrder)
    (alerts : List EvidenceItem) : Option String :=
  let types := (alerts.filterMap (fun alert =>
    alert.source.bind EvidenceSource.sourceType)).filter (· ≠ "")
  (order.list types.dedup).foldl (fun best type =>
    match best with
    | none => some type
    | some held =>
        if types.count held < types.count type then some type else some held)
    none

/-- `score`, with this many calls left for the walk through the graph until
the recursion limit; `incidentId` is the identifier given or the fresh
one. -/
def score (frames : ℕ) (order : SetOrder) (alerts : List EvidenceItem)
    (incidentId : String) : Option EpistemicIndependenceAssessment := do
  let graph := buildGraphFromEvidence alerts
  let roots ← independentRootCount frames order graph
  let confidence : ℚ :=
    if roots ≠ 0 then min (1 / 2 + 3 / 20 * roots) (99 / 100) else 1 / 5
  return {
    incidentId := incidentId
    rawAlertCount := graph.rawCount
    independentRootCount := roots
    independenceScore := roots
    confidenceScore := round3 confidence
    sourceCredibility := round3 (avgCredibility alerts)
    evidenceType := dominantType order alerts
    recommendedHandling :=
      if 3 ≤ roots ∧ 4 / 5 ≤ confidence then .review else .monitor
    evidenceIds :=
      (alerts.map EvidenceItem.evidenceId).filter (· ≠ "") }

variable {frames : ℕ} {order order' : SetOrder}
variable {alerts alerts' : List EvidenceItem} {alert : EvidenceItem}

/-- The independent roots that the scorer reports for the alerts. -/
def rootCount (frames : ℕ) (order : SetOrder) (alerts : List EvidenceItem) :
    Option ℕ :=
  (score frames order alerts "").map
    EpistemicIndependenceAssessment.independentRootCount

/-- The ultimate sources of the alerts, among the alerts. -/
def listedSources (alerts : List EvidenceItem) : Set String :=
  Derivation.ultimateSources (DerivesWithin alerts) (listed alerts)

/-- The rows of alerts that are derived from each other are shorter than the
recursion limit allows. -/
def Shallow (frames : ℕ) (alerts : List EvidenceItem) : Prop :=
  Derivation.Shallow (DerivesWithin alerts) frames

theorem rootCount_eq (hshallow : Shallow frames alerts) :
    rootCount frames order alerts = some (listedSources alerts).ncard := by
  have hbuilt := represents_build alerts
  unfold rootCount score
  simp only [independentRootCount_eq hbuilt hshallow]
  rw [listedSources, hbuilt.ncard_sources]
  rfl

/-- Few alerts have no long rows. -/
theorem shallow_of_length (h : alerts.length + 1 < frames) :
    Shallow frames alerts := by
  have htail : ∀ (path : List String) (a : String),
      (a :: path).IsChain (DerivesWithin alerts) →
        path ⊆ alerts.map EvidenceItem.evidenceId := by
    intro path
    induction path with
    | nil => exact fun _ _ => List.nil_subset _
    | cons b rest ih =>
        intro a hchain
        rw [List.isChain_cons_cons] at hchain
        exact List.cons_subset.mpr ⟨hchain.1.2, ih b hchain.2⟩
  intro path hchain hnodup
  cases path with
  | nil => exact Nat.lt_of_le_of_lt (Nat.zero_le _) h
  | cons a rest =>
      have hle := (List.subperm_of_subset (List.nodup_cons.mp hnodup).2
        (htail rest a hchain)).length_le
      rw [List.length_map] at hle
      rw [List.length_cons]
      omega

/-! ## Permutations and additions -/

theorem finite_listed (alerts : List EvidenceItem) :
    (listed alerts).Finite :=
  List.finite_toSet (alerts.map EvidenceItem.evidenceId)

theorem listed_perm (hperm : alerts'.Perm alerts) :
    listed alerts' = listed alerts := by
  ext id
  exact (hperm.map EvidenceItem.evidenceId).mem_iff

theorem derivesWithin_perm (hperm : alerts'.Perm alerts) :
    DerivesWithin alerts' = DerivesWithin alerts := by
  funext a b
  unfold DerivesWithin DerivesFrom
  rw [listed_perm hperm]
  simp only [hperm.mem_iff]

theorem listedSources_eq :
    listedSources alerts =
      {id ∈ listed alerts | Derivation.Source (DerivesWithin alerts) id} :=
  Derivation.ultimateSources_of_closed fun _ _ hwithin => hwithin.2

/-- The alert cites a listed alert, or repeats the identifier of one. -/
def AddsNoSource (alerts : List EvidenceItem) (alert : EvidenceItem) : Prop :=
  alert.evidenceId ∈ listed alerts ∨
    ∃ source ∈ alert.derivedFrom, source ∈ listed alerts

theorem listed_append {id : String} :
    id ∈ listed (alerts ++ [alert]) ↔
      id ∈ listed alerts ∨ id = alert.evidenceId := by
  simp [listed]

theorem derivesWithin_append {a b : String} (h : DerivesWithin alerts a b) :
    DerivesWithin (alerts ++ [alert]) a b := by
  obtain ⟨⟨item, hitem, hderives⟩, hlisted⟩ := h
  exact ⟨⟨item, List.mem_append_left _ hitem, hderives⟩,
    listed_append.mpr (Or.inl hlisted)⟩

theorem listedSources_append (hadds : AddsNoSource alerts alert) :
    listedSources (alerts ++ [alert]) ⊆ listedSources alerts := by
  rw [listedSources_eq, listedSources_eq]
  intro id hid
  obtain ⟨hlisted, hsource⟩ := hid
  have hold : id ∈ listed alerts := by
    rcases listed_append.mp hlisted with hold | hnew
    · exact hold
    · rcases hadds with hknown | hcites
      · rw [hnew]
        exact hknown
      · obtain ⟨source, hcited, hsourceListed⟩ := hcites
        have hedge : DerivesWithin (alerts ++ [alert]) id source :=
          ⟨⟨alert, List.mem_append_right _ List.mem_cons_self, hnew.symm,
            hcited⟩, listed_append.mpr (Or.inl hsourceListed)⟩
        exact absurd hedge (hsource source)
  exact ⟨hold, fun other hedge =>
    hsource other (derivesWithin_append hedge)⟩

theorem finite_listedSources (alerts : List EvidenceItem) :
    (listedSources alerts).Finite := by
  rw [listedSources_eq]
  exact (finite_listed alerts).subset fun _ h => h.1

theorem listedSources_nonempty (hacyclic : Derivation.Acyclic
    (DerivesFrom alerts)) (hne : alerts ≠ []) :
    (listedSources alerts).Nonempty := by
  have hwithin : Derivation.Acyclic (DerivesWithin alerts) :=
    hacyclic.of_imp fun _ _ h => h.1
  have hmember : (listed alerts).Nonempty := by
    obtain ⟨first, rest, hcons⟩ := List.exists_cons_of_ne_nil hne
    refine ⟨first.evidenceId, ?_⟩
    rw [hcons]
    exact List.mem_cons_self
  exact Derivation.ultimateSources_nonempty hwithin (finite_listed alerts)
    (fun _ _ h => h.2) hmember

theorem shallow_perm (hperm : alerts'.Perm alerts)
    (hshallow : Shallow frames alerts) : Shallow frames alerts' := by
  unfold Shallow
  rw [derivesWithin_perm hperm]
  exact hshallow

/-- Where no row of alerts is too long for the interpreter, the scorer counts
the ultimate sources among the alerts.  The count does not depend on the order
of the alerts, an alert that adds no source does not raise it, and alerts that
are derived in no circle count at least one. -/
theorem rootCount_counts_sources :
    (∀ frames order alerts, Shallow frames alerts →
      rootCount frames order alerts =
        some (listedSources alerts).ncard) ∧
    (∀ frames order order' alerts alerts', Shallow frames alerts →
      alerts'.Perm alerts →
        rootCount frames order' alerts' = rootCount frames order alerts) ∧
    (∀ frames order alerts alert, Shallow frames alerts →
      Shallow frames (alerts ++ [alert]) → AddsNoSource alerts alert →
      ∃ before after, rootCount frames order alerts = some before ∧
        rootCount frames order (alerts ++ [alert]) = some after ∧
        after ≤ before) ∧
    ∀ frames order alerts, Shallow frames alerts →
      Derivation.Acyclic (DerivesFrom alerts) → alerts ≠ [] →
      ∃ count, rootCount frames order alerts = some count ∧ 1 ≤ count := by
  refine ⟨fun _ _ _ => rootCount_eq, ?_, ?_, ?_⟩
  · intro frames order order' alerts alerts' hshallow hperm
    have hsame : listedSources alerts' = listedSources alerts := by
      unfold listedSources
      rw [derivesWithin_perm hperm, listed_perm hperm]
    rw [rootCount_eq hshallow, rootCount_eq (shallow_perm hperm hshallow),
      hsame]
  · intro frames order alerts alert hshallow hlonger hadds
    have hle := Set.ncard_le_ncard (listedSources_append hadds)
      (finite_listedSources alerts)
    exact ⟨_, _, rootCount_eq hshallow, rootCount_eq hlonger, hle⟩
  · intro frames order alerts hshallow hacyclic hne
    have hpositive := (Set.ncard_pos (finite_listedSources alerts)).mpr
      (listedSources_nonempty hacyclic hne)
    exact ⟨_, rootCount_eq hshallow, hpositive⟩

/-! ## Sources that are not listed -/

def citing (evidenceId source : String) : EvidenceItem :=
  ⟨evidenceId, none, [source]⟩

/-- Two alerts that cite one source, which is not an alert of the list. -/
def echoes : List EvidenceItem := [citing "a" "feed", citing "b" "feed"]

/-- Two alerts that cite each other. -/
def circle : List EvidenceItem := [citing "a" "b", citing "b" "a"]

theorem derivesFrom_echoes {a b : String} :
    DerivesFrom echoes a b ↔ (a = "a" ∨ a = "b") ∧ b = "feed" := by
  unfold DerivesFrom echoes citing
  simp only [List.mem_cons, List.not_mem_nil, or_false]
  constructor
  · intro h
    obtain ⟨item, hitem | hitem, ha, hb⟩ := h
    · rw [hitem] at ha hb
      exact ⟨Or.inl ha.symm, List.mem_singleton.mp hb⟩
    · rw [hitem] at ha hb
      exact ⟨Or.inr ha.symm, List.mem_singleton.mp hb⟩
  · intro h
    obtain ⟨ha | ha, hb⟩ := h
    · exact ⟨_, Or.inl rfl, ha.symm, List.mem_singleton.mpr hb⟩
    · exact ⟨_, Or.inr rfl, ha.symm, List.mem_singleton.mpr hb⟩

theorem source_feed : Derivation.Source (DerivesFrom echoes) "feed" := by
  intro other h
  rcases (derivesFrom_echoes.mp h).1 with ha | hb
  · exact absurd ha (by decide)
  · exact absurd hb (by decide)

theorem acyclic_echoes : Derivation.Acyclic (DerivesFrom echoes) := by
  intro a hcircle
  obtain ⟨b, -, hlast⟩ := Relation.TransGen.tail'_iff.mp hcircle
  have hfeed : a = "feed" := (derivesFrom_echoes.mp hlast).2
  obtain ⟨c, hfirst, -⟩ := Relation.TransGen.head'_iff.mp hcircle
  rw [hfeed] at hfirst
  exact source_feed c hfirst

theorem ultimateSources_echoes :
    Derivation.ultimateSources (DerivesFrom echoes) (listed echoes) =
      {"feed"} := by
  ext s
  rw [Set.mem_singleton_iff]
  constructor
  · intro hs
    obtain ⟨⟨a, ha, hleads⟩, hsource⟩ := hs
    rcases Relation.ReflTransGen.cases_tail hleads with hsame | hlast
    · have hname : s = "a" ∨ s = "b" := by
        rw [hsame]
        simpa [listed, echoes, citing] using ha
      exact absurd (derivesFrom_echoes.mpr ⟨hname, rfl⟩) (hsource "feed")
    · obtain ⟨b, -, hderived⟩ := hlast
      exact (derivesFrom_echoes.mp hderived).2
  · intro hs
    rw [hs]
    exact ⟨⟨"a", List.mem_cons_self, Relation.ReflTransGen.single
      (derivesFrom_echoes.mpr ⟨Or.inl rfl, rfl⟩)⟩, source_feed⟩

def inOrder : SetOrder := ⟨id, fun _ => List.Perm.refl _⟩

/-- A report, an alert that repeats it and one that repeats the alert. -/
def report : List EvidenceItem :=
  [⟨"a", none, []⟩, citing "b" "a", citing "c" "b"]

theorem report_counts_once :
    (rootCount 1000 inOrder report.reverse =
        rootCount 1000 inOrder report ∧
      (listedSources report).ncard = 1) ∧
    ∃ before after, rootCount 1000 inOrder report = some before ∧
      rootCount 1000 inOrder (report ++ [citing "d" "c"]) = some after ∧
      after ≤ before := by
  obtain ⟨hcount, hperm, hadds, _⟩ := rootCount_counts_sources
  have hshallow : Shallow 1000 report := shallow_of_length (by decide)
  have hone : rootCount 1000 inOrder report = some 1 := by decide +kernel
  refine ⟨⟨?_, ?_⟩, ?_⟩
  · exact hperm _ _ _ _ _ hshallow (List.reverse_perm report)
  · rw [hcount _ _ _ hshallow, Option.some.injEq] at hone
    exact hone
  · apply hadds _ _ _ _ hshallow (shallow_of_length (by decide))
    exact Or.inr ⟨"c", List.mem_cons_self, by simp [listed, report, citing]⟩

/-- Two echoes of one source that is not listed count as two roots, alerts
that cite each other count as none, and a row of alerts that is too long for
the calls that are left is not counted. -/
theorem unlisted_source_and_circle :
    (Derivation.Acyclic (DerivesFrom echoes) ∧
      (Derivation.ultimateSources (DerivesFrom echoes)
        (listed echoes)).ncard = 1 ∧
      rootCount 1000 inOrder echoes = some 2) ∧
    (circle ≠ [] ∧ rootCount 1000 inOrder circle = some 0) ∧
    rootCount 2 inOrder report = none := by
  refine ⟨⟨acyclic_echoes, ?_, by decide +kernel⟩,
    ⟨List.cons_ne_nil _ _, by decide +kernel⟩, by decide +kernel⟩
  rw [ultimateSources_echoes, Set.ncard_singleton]

end Independence
end Orvex
