import Orvex.Foundation.Derivation
import Orvex.Foundation.Entries
import Mathlib.Data.List.Dedup
import Mathlib.Data.Set.Card

/-!
# The evidence graph

The items of evidence are nodes, and each node keeps the identifiers that it
is derived from.  A root is a node none of whose parents is a node.  The roots
are counted by a walk from every node, whose recursive calls share the set of
the identifiers that they have seen, and which the recursion limit of the
interpreter cuts off.
-/

namespace Orvex
namespace EvidenceGraph

structure EvidenceSource where
  sourceId : Option String
  sourceType : Option String
  trustLevel : Option String

/-- An item of evidence.  An absent `derived_from` is the empty list. -/
structure EvidenceItem where
  evidenceId : String
  source : Option EvidenceSource
  derivedFrom : List String

structure ProvenanceNode where
  nodeId : String
  sourceId : Option String
  sourceType : Option String
  trustLevel : Option String

/-- The nodes in the order in which their identifiers were added, and the
parents of each identifier. -/
structure Graph where
  nodes : List ProvenanceNode
  derivedFrom : Entries String (List String)

namespace Graph

def empty : Graph := ⟨[], Entries.empty⟩

def nodeIds (graph : Graph) : List String :=
  graph.nodes.map ProvenanceNode.nodeId

/-- `self._derived_from.get(node_id, set())`. -/
def parents (graph : Graph) (nodeId : String) : List String :=
  (graph.derivedFrom.get nodeId).getD []

def rawCount (graph : Graph) : ℕ := graph.nodes.length

end Graph

/-- `self._nodes[node.node_id] = node`: a known identifier keeps its place. -/
def putNode (node : ProvenanceNode) (nodes : List ProvenanceNode) :
    List ProvenanceNode :=
  if node.nodeId ∈ nodes.map ProvenanceNode.nodeId then
    nodes.map (fun old => if old.nodeId = node.nodeId then node else old)
  else nodes ++ [node]

/-- `self._derived_from.setdefault(key, set())`. -/
def setDefault (entries : Entries String (List String)) (key : String) :
    Entries String (List String) :=
  if entries.has key then entries else entries.set key []

def addParent (nodeId : String) (entries : Entries String (List String))
    (parent : String) : Entries String (List String) :=
  setDefault
    (entries.set nodeId (((entries.get nodeId).getD []).insert parent)) parent

def addNode (graph : Graph) (node : ProvenanceNode)
    (derivedFrom : List String) : Graph :=
  { nodes := putNode node graph.nodes
    derivedFrom := derivedFrom.foldl (addParent node.nodeId)
      (setDefault graph.derivedFrom node.nodeId) }

/-- The node of an item. -/
def nodeOf (item : EvidenceItem) : ProvenanceNode :=
  { nodeId := item.evidenceId
    sourceId := item.source.bind EvidenceSource.sourceId
    sourceType := item.source.bind EvidenceSource.sourceType
    trustLevel := item.source.bind EvidenceSource.trustLevel }

def buildGraphFromEvidence (items : List EvidenceItem) : Graph :=
  items.foldl (fun graph item => addNode graph (nodeOf item) item.derivedFrom)
    Graph.empty

/-! ## The walk -/

def independentRoots (graph : Graph) : List String :=
  graph.nodeIds.filter (fun nodeId =>
    ((graph.parents nodeId).filter (· ∈ graph.nodeIds)).isEmpty)

/-- What a call does with one parent. -/
def visitParent (graph : Graph)
    (resolve : String → List String → Option (List String × List String))
    (acc : List String × List String) (parent : String) :
    Option (List String × List String) :=
  if parent ∈ graph.nodeIds then do
    let (found, seen) ← resolve parent acc.2
    return (found ∪ acc.1, seen)
  else some acc

/-- The order in which sets are iterated. -/
structure SetOrder where
  list : List String → List String
  perm : ∀ items, (list items).Perm items

/-- `resolve_roots` and the set `seen` that its calls share; `none` is a
RecursionError, when no call is left until the recursion limit. -/
def resolveRoots (order : SetOrder) (graph : Graph) (roots : List String) :
    ℕ → String → List String → Option (List String × List String)
  | 0, _, _ => none
  | frames + 1, nodeId, seen =>
      if nodeId ∈ roots then some ([nodeId], seen)
      else if nodeId ∈ seen then some ([], seen)
      else do
        let (result, seen) ← (order.list (graph.parents nodeId)).foldlM
          (visitParent graph (resolveRoots order graph roots frames))
          ([], seen.insert nodeId)
        return (if result.isEmpty then [nodeId] else result, seen)

/-- The walk from one node, which starts with nothing seen. -/
def reachFrom (frames : ℕ) (order : SetOrder) (graph : Graph)
    (roots reached : List String) (nodeId : String) : Option (List String) := do
  let (found, _) ← resolveRoots order graph roots frames nodeId []
  return found ∪ reached

def reachableRoots (frames : ℕ) (order : SetOrder) (graph : Graph)
    (roots : List String) : Option (List String) :=
  graph.nodeIds.foldlM (reachFrom frames order graph roots) []

/-- `independent_root_count`, with this many calls left until the recursion
limit. -/
def independentRootCount (frames : ℕ) (order : SetOrder) (graph : Graph) :
    Option ℕ :=
  let roots := independentRoots graph
  if roots.isEmpty then some 0
  else do
    let reached ← reachableRoots frames order graph roots
    let count := (reached.filter (· ∈ roots)).length
    return if count = 0 then roots.length else count

/-! ## The graph of a list of items -/

/-- Some item of the list derives `a` from `b`. -/
def DerivesFrom (items : List EvidenceItem) (a b : String) : Prop :=
  ∃ item ∈ items, item.evidenceId = a ∧ b ∈ item.derivedFrom

/-- The identifiers of the items. -/
def listed (items : List EvidenceItem) : Set String :=
  {id | id ∈ items.map EvidenceItem.evidenceId}

/-- Some item of the list derives `a` from `b`, which is listed too. -/
def DerivesWithin (items : List EvidenceItem) (a b : String) : Prop :=
  DerivesFrom items a b ∧ b ∈ listed items

section Build

variable {entries : Entries String (List String)}
variable {nodeId key parent : String}

theorem getD_setDefault :
    ((setDefault entries key).get nodeId).getD [] =
      (entries.get nodeId).getD [] := by
  unfold setDefault
  by_cases hhas : entries.has key = true
  · rw [if_pos hhas]
  · rw [if_neg hhas, Entries.get_set]
    by_cases hsame : nodeId = key
    · have hnone : entries.get key = none := by
        rw [Entries.has, Option.not_isSome_iff_eq_none] at hhas
        exact hhas
      rw [if_pos hsame, hsame, hnone]
      rfl
    · rw [if_neg hsame]

theorem mem_addParent {id : String} :
    parent ∈ ((addParent nodeId entries key).get id).getD [] ↔
      parent ∈ (entries.get id).getD [] ∨ nodeId = id ∧ parent = key := by
  unfold addParent
  rw [getD_setDefault, Entries.get_set]
  by_cases hsame : id = nodeId
  · rw [if_pos hsame, Option.getD_some, List.mem_insert_iff, hsame]
    tauto
  · have hother : ¬ nodeId = id := fun h => hsame h.symm
    rw [if_neg hsame]
    tauto

theorem mem_addParents {id : String} (derivedFrom : List String) :
    parent ∈ ((derivedFrom.foldl (addParent nodeId) entries).get id).getD [] ↔
      parent ∈ (entries.get id).getD [] ∨
        nodeId = id ∧ parent ∈ derivedFrom := by
  induction derivedFrom generalizing entries with
  | nil => simp
  | cons key rest ih =>
      rw [List.foldl_cons, ih, mem_addParent, List.mem_cons]
      tauto

variable {graph : Graph} {node : ProvenanceNode} {derivedFrom : List String}

theorem mem_parents_addNode {id : String} :
    parent ∈ (addNode graph node derivedFrom).parents id ↔
      parent ∈ graph.parents id ∨
        node.nodeId = id ∧ parent ∈ derivedFrom := by
  have hadded := @mem_addParents
    (setDefault graph.derivedFrom node.nodeId) node.nodeId parent id
    derivedFrom
  rw [getD_setDefault] at hadded
  exact hadded

theorem nodeIds_addNode :
    (addNode graph node derivedFrom).nodeIds =
      if node.nodeId ∈ graph.nodeIds then graph.nodeIds
      else graph.nodeIds ++ [node.nodeId] := by
  unfold Graph.nodeIds addNode putNode
  by_cases hknown : node.nodeId ∈ graph.nodes.map ProvenanceNode.nodeId
  · rw [if_pos hknown, if_pos hknown, List.map_map]
    apply List.map_congr_left
    intro old _
    rw [Function.comp_apply]
    by_cases hsame : old.nodeId = node.nodeId
    · rw [if_pos hsame, hsame]
    · rw [if_neg hsame]
  · rw [if_neg hknown, if_neg hknown, List.map_append, List.map_singleton]

theorem nodup_addNode (hnodup : graph.nodeIds.Nodup) :
    (addNode graph node derivedFrom).nodeIds.Nodup := by
  rw [nodeIds_addNode]
  by_cases hknown : node.nodeId ∈ graph.nodeIds
  · rw [if_pos hknown]
    exact hnodup
  · rw [if_neg hknown]
    exact List.nodup_append.mpr ⟨hnodup, List.nodup_singleton _,
      fun a ha b hb hab => hknown (by
        rw [← List.mem_singleton.mp hb, ← hab]
        exact ha)⟩

theorem mem_nodeIds_addNode {id : String} :
    id ∈ (addNode graph node derivedFrom).nodeIds ↔
      id ∈ graph.nodeIds ∨ id = node.nodeId := by
  rw [nodeIds_addNode]
  by_cases hknown : node.nodeId ∈ graph.nodeIds
  · rw [if_pos hknown]
    constructor
    · exact Or.inl
    · intro h
      rcases h with hold | hnew
      · exact hold
      · rw [hnew]
        exact hknown
  · rw [if_neg hknown, List.mem_append, List.mem_singleton]

end Build

variable {items : List EvidenceItem}

/-- What a graph keeps of the items that were added to it. -/
structure Represents (graph : Graph) (items : List EvidenceItem) : Prop where
  nodup : graph.nodeIds.Nodup
  mem_nodeIds : ∀ id, id ∈ graph.nodeIds ↔ id ∈ listed items
  mem_parents : ∀ id parent,
    parent ∈ graph.parents id ↔ DerivesFrom items id parent

theorem represents_empty : Represents Graph.empty [] where
  nodup := List.nodup_nil
  mem_nodeIds := fun _ => Iff.rfl
  mem_parents := by
    intro id parent
    constructor
    · intro h
      cases h
    · intro h
      obtain ⟨item, hitem, -⟩ := h
      cases hitem

theorem Represents.addNode {graph : Graph} (h : Represents graph items)
    (item : EvidenceItem) :
    Represents (addNode graph (nodeOf item) item.derivedFrom)
      (items ++ [item]) where
  nodup := nodup_addNode h.nodup
  mem_nodeIds := by
    intro id
    rw [mem_nodeIds_addNode, h.mem_nodeIds]
    simp [listed, nodeOf]
  mem_parents := by
    intro id parent
    rw [mem_parents_addNode, h.mem_parents]
    unfold DerivesFrom
    constructor
    · intro hparent
      rcases hparent with hold | hnew
      · obtain ⟨old, hmem, hderives⟩ := hold
        exact ⟨old, List.mem_append_left _ hmem, hderives⟩
      · exact ⟨item, List.mem_append_right _ List.mem_cons_self, hnew⟩
    · intro hparent
      obtain ⟨old, hmem, hderives⟩ := hparent
      rcases List.mem_append.mp hmem with hold | hlast
      · exact Or.inl ⟨old, hold, hderives⟩
      · rw [List.mem_singleton.mp hlast] at hderives
        exact Or.inr hderives

theorem represents_build (items : List EvidenceItem) :
    Represents (buildGraphFromEvidence items) items := by
  induction items using List.reverseRecOn with
  | nil => exact represents_empty
  | append_singleton items item ih =>
      unfold buildGraphFromEvidence at ih ⊢
      rw [List.foldl_append]
      exact ih.addNode item

section Roots

variable {graph : Graph}

theorem Represents.mem_roots (h : Represents graph items) {id : String} :
    id ∈ independentRoots graph ↔
      id ∈ listed items ∧ Derivation.Source (DerivesWithin items) id := by
  unfold independentRoots
  rw [List.mem_filter, h.mem_nodeIds, List.isEmpty_iff,
    List.filter_eq_nil_iff]
  unfold Derivation.Source DerivesWithin
  simp only [h.mem_parents, h.mem_nodeIds, decide_eq_true_eq, not_and]

theorem Represents.nodup_roots (h : Represents graph items) :
    (independentRoots graph).Nodup := h.nodup.filter _

theorem Represents.ncard_sources (h : Represents graph items) :
    (Derivation.ultimateSources (DerivesWithin items) (listed items)).ncard =
      (independentRoots graph).length := by
  have hclosed : ∀ a b, DerivesWithin items a b → b ∈ listed items :=
    fun _ _ hwithin => hwithin.2
  have hsame : Derivation.ultimateSources (DerivesWithin items)
      (listed items) = ((independentRoots graph).toFinset : Set String) := by
    rw [Derivation.ultimateSources_of_closed hclosed]
    ext id
    rw [Finset.mem_coe, List.mem_toFinset, h.mem_roots]
    rfl
  rw [hsame, Set.ncard_coe_finset, List.toFinset_card_of_nodup h.nodup_roots]

end Roots

/-! ## The walk counts the roots -/

section Walk

variable {order : SetOrder} {graph : Graph} {roots : List String}
variable {frames : ℕ}

/-- The second node is a parent of the first one. -/
def Follows (graph : Graph) (a b : String) : Prop :=
  b ∈ graph.parents a ∧ b ∈ graph.nodeIds

/-- A fold whose steps end and keep an invariant ends and keeps it. -/
theorem foldlM_ends {α β : Type*} {I : β → Prop} {step : β → α → Option β}
    (xs : List α) (hstep : ∀ acc, ∀ x ∈ xs, I acc →
      ∃ acc', step acc x = some acc' ∧ I acc') {acc : β} (hacc : I acc) :
    ∃ acc', xs.foldlM step acc = some acc' ∧ I acc' := by
  induction xs generalizing acc with
  | nil => exact ⟨acc, rfl, hacc⟩
  | cons x rest ih =>
      obtain ⟨next, hnext, hkept⟩ := hstep acc x List.mem_cons_self hacc
      obtain ⟨last, hlast, hend⟩ := ih (fun acc y hy =>
        hstep acc y (List.mem_cons_of_mem _ hy)) hkept
      refine ⟨last, ?_, hend⟩
      rw [List.foldlM_cons, hnext]
      exact hlast

/-- A walk with more calls left than the paths ahead of it are long ends, and
what was seen stays seen. -/
theorem resolveRoots_ends {nodeId : String} {seen : List String}
    (hframes : 0 < frames)
    (hshallow : Derivation.ShallowFrom (Follows graph) frames nodeId seen) :
    ∃ out, resolveRoots order graph roots frames nodeId seen = some out ∧
      seen ⊆ out.2 := by
  induction frames generalizing nodeId seen with
  | zero => omega
  | succ frames ih =>
      rw [resolveRoots]
      by_cases hroot : nodeId ∈ roots
      · rw [if_pos hroot]
        exact ⟨_, rfl, List.Subset.refl seen⟩
      · rw [if_neg hroot]
        by_cases hseen : nodeId ∈ seen
        · rw [if_pos hseen]
          exact ⟨_, rfl, List.Subset.refl seen⟩
        · rw [if_neg hseen]
          have hvisit : ∀ acc, ∀ parent ∈ order.list (graph.parents nodeId),
              seen.insert nodeId ⊆ acc.2 →
              ∃ acc', visitParent graph (resolveRoots order graph roots frames)
                acc parent = some acc' ∧ seen.insert nodeId ⊆ acc'.2 := by
            intro acc parent hmem hacc
            unfold visitParent
            by_cases hparent : parent ∈ graph.nodeIds
            · have hcited : parent ∈ graph.parents nodeId :=
                (order.perm _).mem_iff.mp hmem
              have hnext := hshallow.step hseen ⟨hcited, hparent⟩
                (fun c hc => hacc (List.mem_insert_iff.mpr hc.symm))
              obtain ⟨out, hout, hkept⟩ := ih (hshallow.depth_pos hseen) hnext
              rw [if_pos hparent, hout]
              exact ⟨_, rfl, List.Subset.trans hacc hkept⟩
            · rw [if_neg hparent]
              exact ⟨acc, rfl, hacc⟩
          obtain ⟨out, hout, hkept⟩ := foldlM_ends _ hvisit
            (List.Subset.refl (([] : List String), seen.insert nodeId).2)
          refine ⟨(if out.1.isEmpty then [nodeId] else out.1, out.2), ?_, ?_⟩
          · rw [hout]
            rfl
          · intro id hid
            exact hkept (List.mem_insert_of_mem hid)

theorem resolveRoots_root {nodeId : String} {seen : List String}
    (hframes : 0 < frames) (hroot : nodeId ∈ roots) :
    resolveRoots order graph roots frames nodeId seen =
      some ([nodeId], seen) := by
  cases frames with
  | zero => omega
  | succ frames => rw [resolveRoots, if_pos hroot]

/-- What the walks from the nodes have reached. -/
theorem reachableRoots_ends
    (hshallow : Derivation.Shallow (Follows graph) frames)
    (ids : List String) {reached : List String} (hnodup : reached.Nodup) :
    ∃ last, ids.foldlM (reachFrom frames order graph roots) reached =
        some last ∧
      last.Nodup ∧ reached ⊆ last ∧ ∀ id ∈ ids, id ∈ roots → id ∈ last := by
  have hframes : 0 < frames := hshallow [] List.isChain_nil List.nodup_nil
  induction ids generalizing reached with
  | nil =>
      exact ⟨reached, rfl, hnodup, List.Subset.refl _, fun _ hid => by
        cases hid⟩
  | cons id rest ih =>
      obtain ⟨out, hout, -⟩ := @resolveRoots_ends order graph roots _ _ _
        hframes (hshallow.start id [])
      have hstep : reachFrom frames order graph roots reached id =
          some (out.1 ∪ reached) := by
        unfold reachFrom
        rw [hout]
        rfl
      obtain ⟨last, hlast, hdistinct, hkept, hroots⟩ :=
        ih (List.Nodup.union out.1 hnodup)
      refine ⟨last, ?_, hdistinct, ?_, ?_⟩
      · rw [List.foldlM_cons, hstep]
        exact hlast
      · intro other hother
        exact hkept (List.mem_union_iff.mpr (Or.inr hother))
      · intro other hother hroot
        rcases List.mem_cons.mp hother with hhead | hin
        · rw [hhead] at hroot ⊢
          rw [resolveRoots_root hframes hroot] at hout
          apply hkept
          rw [← Option.some.inj hout]
          exact List.mem_union_iff.mpr (Or.inl List.mem_cons_self)
        · exact hroots other hin hroot

theorem Represents.follows (h : Represents graph items) :
    Follows graph = DerivesWithin items := by
  funext a b
  unfold Follows DerivesWithin
  rw [h.mem_parents, h.mem_nodeIds]

theorem independentRootCount_eq (h : Represents graph items)
    (hshallow : Derivation.Shallow (DerivesWithin items) frames) :
    independentRootCount frames order graph =
      some (independentRoots graph).length := by
  rw [← h.follows] at hshallow
  unfold independentRootCount
  by_cases hempty : (independentRoots graph).isEmpty = true
  · rw [if_pos hempty, List.isEmpty_iff.mp hempty]
    rfl
  · rw [if_neg hempty]
    obtain ⟨reached, hreached, hnodup, -, hroots⟩ :=
      @reachableRoots_ends order graph (independentRoots graph) _ hshallow
        graph.nodeIds [] List.nodup_nil
    have hperm : (reached.filter (· ∈ independentRoots graph)).Perm
        (independentRoots graph) := by
      apply (List.perm_ext_iff_of_nodup (hnodup.filter _)
        h.nodup_roots).mpr
      intro id
      rw [List.mem_filter, decide_eq_true_eq]
      constructor
      · exact And.right
      · intro hroot
        have hnode : id ∈ graph.nodeIds := (List.mem_filter.mp hroot).1
        exact ⟨hroots id hnode hroot, hroot⟩
    have hlength := hperm.length_eq
    unfold reachableRoots
    rw [hreached, Option.bind_eq_bind, Option.bind_some, hlength]
    exact congrArg some (ite_self _)

end Walk

end EvidenceGraph
end Orvex
