import Enfold.ClusterMerge
import Enfold.Foundation.UnionFind
import Mathlib.Data.List.Sort
import Mathlib.Data.List.ReduceOption
import Mathlib.Data.Prod.Lex
import Mathlib.Data.String.Basic
import Mathlib.Algebra.Order.Ring.Rat

/-! The plan of a cluster merge: the active facts with a vector of one identity, grouped by chains
of near duplicates, and the member each group keeps. The product of two normalised vectors is
numpy's and stays a parameter. -/
namespace Enfold

open Fallible

section Plan
variable (rt : Runtime) (similarity : List Rat → List Rat → Rat)

/-- `_embedding_identity`: the only stored one, unless one is asked for. -/
def embeddingIdentity (s : Store) : Option String → Except Raised (Option String)
  | some identity => .ok (some identity)
  | none =>
    match (s.embeddings.map Embedding.embeddingIdentity).dedup.insertionSort (· ≤ ·) with
    | [] => .ok none
    | [identity] => .ok (some identity)
    | several => .error ⟨.guardRailError,
        "multiple embedding identities are present; pass --embedding-identity with one of: " ++
          ", ".intercalate several⟩

def embeddingDim (s : Store) (identity : String) : Except Raised Nat :=
  let rows := s.embeddings.filter (·.embeddingIdentity = identity)
  match (rows.map Embedding.dim).dedup.insertionSort (· ≤ ·) with
  | [] => .ok 0
  | [dim] => .ok dim
  | several => .error ⟨.guardRailError, "embedding identity " ++ rt.repr identity ++
      " has multiple dimensions: " ++ ", ".intercalate (several.map toString)⟩

-- `ORDER BY fact_id`
def embeddingMatrix (s : Store) (identity : String) (dim : Nat) : Except Raised (List Embedding) := do
  let rows := (s.embeddings.filter fun e => e.embeddingIdentity = identity && e.dim = dim).insertionSort
    fun a b => a.factId ≤ b.factId
  ensure (rows.all fun e => e.embedding.length = dim) ⟨.guardRailError,
    "stored embedding size does not match dimension " ++ toString dim ++ " for identity " ++
      rt.repr identity⟩
  .ok rows

/-- The vectors a merge compares: one identity, active facts. -/
def activeEmbeddings (s : Store) (chosen : Option String) : Except Raised (List Embedding) := do
  match ← embeddingIdentity s chosen with
  | none => .ok []
  | some identity =>
    let dim ← embeddingDim rt s identity
    let rows ← embeddingMatrix rt s identity dim
    .ok (rows.filter fun e => (activeFactIds s.toLedger).contains e.factId)

-- `for i in range(n): for j in range(i + 1, n)`
def orderedPairs {α : Type} : List α → List (α × α)
  | [] => []
  | a :: rest => rest.map (fun b => (a, b)) ++ orderedPairs rest

def Store.nearDuplicates (s : Store) (threshold : Rat) (a b : Embedding) : Bool :=
  match s.fact a.factId, s.fact b.factId with
  | some f, some g => f.scope = g.scope && decide (threshold ≤ similarity a.embedding b.embedding) &&
      safeToMergeNearDuplicate f.content g.content
  | _, _ => false

def Store.joinedPairs (s : Store) (threshold : Rat) (rows : List Embedding) : List (Nat × Nat) :=
  ((orderedPairs rows).filter fun (a, b) => s.nearDuplicates similarity threshold a b).map
    fun (a, b) => (a.factId, b.factId)

def buildClusters (s : Store) (threshold : Rat) (chosen : Option String) :
    Except Raised (List (List Nat)) := do
  let rows ← activeEmbeddings rt s chosen
  if rows.length < 2 then .ok []
  else
    let sets := UnionFind.singletons.unionAll (s.joinedPairs similarity threshold rows)
    .ok ((UnionFind.groupsBy sets.find (rows.map Embedding.factId)).filter fun members =>
      2 ≤ members.length)

/-! ## The member that is kept -/

def factRows (l : Ledger) (factIds : List Nat) : List Fact := factIds.filterMap l.fact

/-- `(-score, created_at)`: higher score first, then the earliest. -/
def Fact.mergeKey (f : Fact) : Rat ×ₗ String :=
  let score : Rat := f.trustScore * f.retrievalCount
  toLex (-score, f.createdAt)

def Fact.preExisting (floodCutoff : String) (f : Fact) : Bool := f.createdAt < floodCutoff

def activeMembers (members : List Fact) : List Fact :=
  let active := members.filter fun f => f.invalidAt.isNone && !isLegacySuperseded f.content
  if active = [] then members else active

def survivorCandidates (floodCutoff : String) (members : List Fact) : List Fact :=
  let preExisting := members.filter (Fact.preExisting floodCutoff)
  let flood := members.filter fun f => !f.preExisting floodCutoff
  if preExisting ≠ [] ∧ flood ≠ [] then preExisting else members

def chooseSurvivor (floodCutoff : String) (members : List Fact) : Except Raised (Fact × List Fact) :=
  let members := activeMembers members
  match greatest (fun best f => f.mergeKey < best.mergeKey) (survivorCandidates floodCutoff members) with
  | none => .error ⟨.valueError, "min() iterable argument is empty"⟩
  | some survivor => .ok (survivor, members.filter (·.factId ≠ survivor.factId))

/-- `_merge_tags`: the tags of all members, each once. -/
def mergeTags (tagStrings : List String) : String :=
  let tags := tagStrings.flatMap fun tags =>
    (Text.splitOn ',' tags.toList).map fun tag => Text.strip (String.ofList tag)
  ",".intercalate ((tags.filter (·.toList ≠ [])).reverse.dedup.reverse)

def planCluster (l : Ledger) (floodCutoff : String) (members : List Nat) :
    Except Raised (Option ClusterMerge) := do
  let rows := factRows l members
  let (survivor, _) ← chooseSurvivor floodCutoff rows
  let rows := rows.filter fun f =>
    f.factId = survivor.factId || safeToMergeNearDuplicate survivor.content f.content
  if rows.length < 2 then .ok none
  else
    let (survivor, losers) ← chooseSurvivor floodCutoff rows
    .ok (some {
      survivorId := survivor.factId
      loserIds := losers.map Fact.factId
      mergedRetrievalCount := (rows.map Fact.retrievalCount).sum
      mergedHelpfulCount := (rows.map Fact.helpfulCount).sum
      mergedTags := mergeTags (rows.map Fact.tags) })

end Plan

/-- The order a survivor is chosen by; facts of one store never tie. -/
def Fact.mergeRank (floodCutoff : String) (f : Fact) : Bool ×ₗ (Rat ×ₗ String) ×ₗ Nat :=
  toLex (!f.preExisting floodCutoff, toLex (f.mergeKey, f.factId))

section Chosen
variable {floodCutoff : String} {members losers : List Fact} {survivor : Fact}

theorem firstLeast {α κ : Type} [LinearOrder κ] (key : α → κ) (index : α → Nat) {a : α}
    {rest : List α} (sorted : (a :: rest).Pairwise fun x y => index x < index y) :
    ∀ item ∈ a :: rest,
      item = rest.foldl (fun best next => if key next < key best then next else best) a ∨
        toLex (key (rest.foldl (fun best next => if key next < key best then next else best) a),
          index (rest.foldl (fun best next => if key next < key best then next else best) a)) <
            toLex (key item, index item) := by
  induction rest generalizing a with
  | nil => exact fun item inside => .inl (List.mem_singleton.mp inside)
  | cons b rest ih =>
    obtain ⟨below, tail⟩ := List.pairwise_cons.mp sorted
    obtain ⟨later, last⟩ := List.pairwise_cons.mp tail
    intro item inside
    simp only [List.foldl_cons]
    by_cases better : key b < key a
    · rw [if_pos better]
      rcases List.mem_cons.mp inside with rfl | inside
      · have first : toLex (key b, index b) < toLex (key item, index item) :=
          Prod.Lex.toLex_lt_toLex.mpr (.inl better)
        rcases ih tail b List.mem_cons_self with same | less
        · rw [← same]
          exact .inr first
        · exact .inr (less.trans first)
      · exact ih tail item inside
    · rw [if_neg better]
      have kept : (a :: rest).Pairwise fun x y => index x < index y :=
        List.pairwise_cons.mpr ⟨fun x hx => below x (List.mem_cons_of_mem _ hx), last⟩
      rcases List.mem_cons.mp inside with rfl | inside
      · exact ih kept item List.mem_cons_self
      rcases List.mem_cons.mp inside with rfl | inside
      · have first : toLex (key a, index a) < toLex (key item, index item) := by
          refine Prod.Lex.toLex_lt_toLex.mpr ?_
          rcases lt_or_eq_of_le (not_lt.mp better) with less | same
          · exact .inl less
          · exact .inr ⟨same, below item List.mem_cons_self⟩
        rcases ih kept a List.mem_cons_self with same | less
        · rw [← same]
          exact .inr first
        · exact .inr (less.trans first)
      · exact ih kept item (List.mem_cons_of_mem _ inside)

theorem activeMember {f : Fact} (h : f ∈ activeMembers members) : f ∈ members := by
  unfold activeMembers at h
  dsimp only at h
  split at h
  · exact h
  · exact (List.mem_filter.mp h).1

theorem activeMembersAll
    (active : ∀ f ∈ members, f.invalidAt = none ∧ isLegacySuperseded f.content = false) :
    activeMembers members = members := by
  have all : members.filter (fun f => f.invalidAt.isNone && !isLegacySuperseded f.content) = members :=
    List.filter_eq_self.mpr fun f hf => by simp [active f hf]
  rw [activeMembers, all, ite_self]

theorem candidateMember {f : Fact} (h : f ∈ survivorCandidates floodCutoff members) : f ∈ members := by
  unfold survivorCandidates at h
  dsimp only at h
  split at h
  · exact (List.mem_filter.mp h).1
  · exact h

theorem candidateFirst {f g : Fact} (candidate : f ∈ survivorCandidates floodCutoff members)
    (member : g ∈ members) : g ∈ survivorCandidates floodCutoff members ∨
      (f.preExisting floodCutoff = true ∧ g.preExisting floodCutoff = false) := by
  unfold survivorCandidates at candidate ⊢
  dsimp only at candidate ⊢
  split
  · rename_i both
    rw [if_pos both] at candidate
    cases old : g.preExisting floodCutoff with
    | true => exact .inl (List.mem_filter.mpr ⟨member, old⟩)
    | false => exact .inr ⟨(List.mem_filter.mp candidate).2, rfl⟩
  · exact .inl member

theorem candidatesAlike {f g : Fact} (left : f ∈ survivorCandidates floodCutoff members)
    (right : g ∈ survivorCandidates floodCutoff members) :
    f.preExisting floodCutoff = g.preExisting floodCutoff := by
  unfold survivorCandidates at left right
  dsimp only at left right
  split at left
  · rename_i both
    rw [if_pos both] at right
    exact (List.mem_filter.mp left).2.trans (List.mem_filter.mp right).2.symm
  · rename_i single
    rw [if_neg single] at right
    cases hf : f.preExisting floodCutoff <;> cases hg : g.preExisting floodCutoff
    · rfl
    · exact absurd ⟨List.ne_nil_of_mem (List.mem_filter.mpr ⟨right, hg⟩),
        List.ne_nil_of_mem (List.mem_filter.mpr ⟨left, by simp [hf]⟩)⟩ single
    · exact absurd ⟨List.ne_nil_of_mem (List.mem_filter.mpr ⟨left, hf⟩),
        List.ne_nil_of_mem (List.mem_filter.mpr ⟨right, by simp [hg]⟩)⟩ single
    · rfl

theorem chosenSource (chosen : chooseSurvivor floodCutoff members = .ok (survivor, losers)) :
    greatest (fun best f => f.mergeKey < best.mergeKey)
        (survivorCandidates floodCutoff (activeMembers members)) = some survivor ∧
      losers = (activeMembers members).filter (·.factId ≠ survivor.factId) := by
  unfold chooseSurvivor at chosen
  dsimp only at chosen
  split at chosen
  · cases chosen
  · rename_i found
    cases chosen
    exact ⟨found, rfl⟩

theorem chosenInside (chosen : chooseSurvivor floodCutoff members = .ok (survivor, losers)) :
    survivor ∈ members ∧ ∀ g ∈ losers, g ∈ members ∧ g.factId ≠ survivor.factId := by
  obtain ⟨found, rfl⟩ := chosenSource chosen
  refine ⟨activeMember (candidateMember (greatestMem found)), fun g hg => ?_⟩
  obtain ⟨inside, other⟩ := List.mem_filter.mp hg
  exact ⟨activeMember inside, by simpa using other⟩

theorem chosenLeast
    (active : ∀ f ∈ members, f.invalidAt = none ∧ isLegacySuperseded f.content = false)
    (sorted : members.Pairwise fun f g => f.factId < g.factId)
    (chosen : chooseSurvivor floodCutoff members = .ok (survivor, losers)) :
    losers = members.filter (·.factId ≠ survivor.factId) ∧
      ∀ g ∈ members, g = survivor ∨ survivor.mergeRank floodCutoff < g.mergeRank floodCutoff := by
  obtain ⟨found, lost⟩ := chosenSource chosen
  rw [activeMembersAll active] at found lost
  refine ⟨lost, fun g hg => ?_⟩
  have here := greatestMem found
  rcases candidateFirst here hg with candidate | ⟨old, late⟩
  · have ordered : (survivorCandidates floodCutoff members).Pairwise fun f g => f.factId < g.factId := by
      unfold survivorCandidates
      dsimp only
      split
      · exact sorted.filter _
      · exact sorted
    have same := candidatesAlike here candidate
    cases split : survivorCandidates floodCutoff members with
    | nil =>
      rw [split] at here
      cases here
    | cons a rest =>
      rw [split] at found ordered candidate
      simp only [greatest, decide_eq_true_eq, Option.some.injEq] at found
      have least := firstLeast Fact.mergeKey Fact.factId ordered g candidate
      rw [found] at least
      rcases least with same' | less
      · exact .inl same'
      · refine .inr (Prod.Lex.toLex_lt_toLex.mpr (.inr ⟨?_, less⟩))
        rw [same]
  · refine .inr (Prod.Lex.toLex_lt_toLex.mpr (.inl ?_))
    rw [old, late]
    exact (by decide : false < true)

end Chosen

section Cluster
variable {l : Ledger} {floodCutoff : String} {members : List Nat} {cluster : ClusterMerge}

theorem factRowsSource {f : Fact} (h : f ∈ factRows l members) :
    f ∈ l.facts ∧ f.factId ∈ members := by
  obtain ⟨k, listed, found⟩ := List.mem_filterMap.mp h
  obtain ⟨inside, id⟩ := Table.findMem found
  exact ⟨inside, id ▸ listed⟩

theorem plannedInside (planned : planCluster l floodCutoff members = .ok (some cluster)) :
    cluster.survivorId ∈ members ∧ ∀ k ∈ cluster.loserIds, k ∈ members ∧ k ≠ cluster.survivorId := by
  simp only [planCluster, bindOk] at planned
  obtain ⟨⟨first, others⟩, -, planned⟩ := planned
  split at planned
  · cases planned
  · obtain ⟨⟨survivor, losers⟩, chosen, last⟩ := bindOk.mp planned
    cases last
    obtain ⟨inside, lost⟩ := chosenInside chosen
    refine ⟨(factRowsSource (List.mem_filter.mp inside).1).2, fun k hk => ?_⟩
    obtain ⟨g, hg, rfl⟩ := List.mem_map.mp hk
    obtain ⟨member, other⟩ := lost g hg
    exact ⟨(factRowsSource (List.mem_filter.mp member).1).2, other⟩

end Cluster

section Clusters
variable {rt : Runtime} {similarity : List Rat → List Rat → Rat} {s : Store} {threshold : Rat}
  {chosen : Option String} {rows : List Embedding} {groups : List (List Nat)}

def Store.Chained (s : Store) (similarity : List Rat → List Rat → Rat) (threshold : Rat)
    (rows : List Embedding) : Nat → Nat → Prop :=
  Relation.EqvGen fun a b => (a, b) ∈ s.joinedPairs similarity threshold rows

theorem clustersSource (built : buildClusters rt similarity s threshold chosen = .ok groups) :
    ∃ rows sets, activeEmbeddings rt s chosen = .ok rows ∧
      (∀ x y : Nat, UnionFind.find sets x = UnionFind.find sets y ↔
        s.Chained similarity threshold rows x y) ∧
      groups = (UnionFind.groupsBy (UnionFind.find sets) (rows.map Embedding.factId)).filter
        fun members => 2 ≤ members.length := by
  simp only [buildClusters, bindOk] at built
  obtain ⟨rows, read, built⟩ := built
  refine ⟨rows, UnionFind.singletons.unionAll (s.joinedPairs similarity threshold rows), read,
    fun x y => UnionFind.singletonsJoins, ?_⟩
  split at built
  · rename_i few
    cases built
    refine (List.filter_eq_nil_iff.mpr fun members listed => ?_).symm
    obtain ⟨item, -, rfl⟩ := UnionFind.memGroupsBy.mp listed
    have short := List.length_filter_le (fun other => decide (UnionFind.find
      (UnionFind.singletons.unionAll (s.joinedPairs similarity threshold rows)) other =
        UnionFind.find (UnionFind.singletons.unionAll (s.joinedPairs similarity threshold rows)) item))
      (rows.map Embedding.factId)
    rw [List.length_map] at short
    rw [decide_eq_true_eq]
    omega
  · exact (Except.ok.inj built).symm

theorem plannedApart {floodCutoff : String} {planned : List (Option ClusterMerge)}
    (built : buildClusters rt similarity s threshold chosen = .ok groups)
    (mapped : groups.mapM (planCluster s.toLedger floodCutoff) = .ok planned) :
    ∀ c ∈ planned.reduceOption, ∀ d ∈ planned.reduceOption, c.survivorId ∉ d.loserIds := by
  obtain ⟨rows, sets, -, -, rfl⟩ := clustersSource built
  intro c hc d hd shared
  obtain ⟨left, here, madeHere⟩ := mapMSource mapped _ (List.reduceOption_mem_iff.mp hc)
  obtain ⟨right, there, madeThere⟩ := mapMSource mapped _ (List.reduceOption_mem_iff.mp hd)
  have kept := (plannedInside madeHere).1
  have lost := (plannedInside madeThere).2 _ shared
  have same := UnionFind.groupsByDisjoint (List.mem_filter.mp here).1 (List.mem_filter.mp there).1
    kept lost.1
  rw [same, madeThere] at madeHere
  cases madeHere
  exact lost.2 rfl

end Clusters

/-- `plan_merge`: one merge per cluster of near duplicates. -/
def planMerge (rt : Runtime) (similarity : List Rat → List Rat → Rat) (s : Store) (threshold : Rat)
    (floodCutoff : String) (chosen : Option String) : Except Raised MergePlan :=
  match built : buildClusters rt similarity s threshold chosen with
  | .error e => .error e
  | .ok groups =>
    match mapped : groups.mapM (planCluster s.toLedger floodCutoff) with
    | .error e => .error e
    | .ok planned => .ok ⟨planned.reduceOption, plannedApart built mapped⟩

theorem planMergeSource {rt : Runtime} {similarity : List Rat → List Rat → Rat} {s : Store}
    {threshold : Rat} {floodCutoff : String} {chosen : Option String} {plan : MergePlan}
    (planned : planMerge rt similarity s threshold floodCutoff chosen = .ok plan) :
    ∃ groups outcomes, buildClusters rt similarity s threshold chosen = .ok groups ∧
      groups.mapM (planCluster s.toLedger floodCutoff) = .ok outcomes ∧
      plan.clusters = outcomes.reduceOption := by
  unfold planMerge at planned
  split at planned
  · cases planned
  · rename_i groups built
    split at planned
    · cases planned
    · rename_i outcomes mapped
      cases planned
      exact ⟨groups, outcomes, built, mapped, rfl⟩

end Enfold
