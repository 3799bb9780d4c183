import Enfold.Erasure

/-! The offline cluster merge: guard rails over a plan, the redirection of every reference to a
loser, and the deletion of the losers. Any plan whose survivors are no losers is covered,
whichever embeddings it was clustered from. -/
namespace Enfold

open Fallible

variable (rt : Runtime)

structure ClusterMerge where
  survivorId : Nat
  loserIds : List Nat
  mergedRetrievalCount : Nat
  mergedHelpfulCount : Nat
  mergedTags : String
  deriving DecidableEq, Repr

/-- Clusters are disjoint groups, so no survivor is dropped by another cluster. -/
structure MergePlan where
  clusters : List ClusterMerge
  apart : ∀ c ∈ clusters, ∀ d ∈ clusters, c.survivorId ∉ d.loserIds
  deriving DecidableEq

def MergePlan.dropCount (plan : MergePlan) : Nat := (plan.clusters.map (·.loserIds.length)).sum

/-- `lstrip().lower().startswith(("superseded", "stale/disabled", …))`. -/
def isLegacySuperseded (content : String) : Bool :=
  let text := (content.toList.dropWhile Text.isSpace).flatMap Text.lowerChar
  ["superseded", "stale/disabled", "historical/superseded"].any fun mark =>
    (Text.after mark.toList text).isSome

def activeFactIds (l : Ledger) : List Nat :=
  (l.facts.filter fun f => f.current && f.conflictGroup.isNone && !isLegacySuperseded f.content).map
    Fact.factId

/-- `UPDATE OR IGNORE … SET` of a key column, then `DELETE` of what was ignored. -/
def redirect {α : Type} [DecidableEq α] (p : α → Bool) (move : α → α) (rows : List α) : List α :=
  rows.filterMap fun row =>
    if !p row then some row
    else if rows.contains (move row) then none
    else some (move row)

/-- The ids of a `source_facts:` list at the head of a text, and the text behind it. -/
def citedRun (text : List Char) : List (List Char) × List Char :=
  let body := text.takeWhile fun c => Text.isDigitAscii c || c = ','
  let ids := (Text.splitOn ',' body).takeWhile (· ≠ [])
  let used := ids.length - 1 + (ids.map List.length).sum
  (ids, text.drop used)

def readNat (digits : List Char) : Nat :=
  digits.foldl (fun total c => total * 10 + (c.toNat - '0'.toNat)) 0

/-- `re.sub("source_facts:([0-9]+(?:,[0-9]+)*)", replace, tags)`, one character a step. -/
def rewriteCitations (loser survivor : Nat) : Nat → List Char → List Char
  | 0, text => text
  | _, [] => []
  | steps + 1, c :: rest =>
    match Text.after "source_facts:".toList (c :: rest) with
    | some body =>
      match citedRun body with
      | ([], _) => c :: rewriteCitations loser survivor steps rest
      | (ids, behind) =>
        let cited := ids.map fun digits =>
          let id := readNat digits
          if id = loser then survivor else id
        let kept := cited.reverse.dedup.reverse
        "source_facts:".toList ++ (",".intercalate (kept.map toString)).toList ++
          rewriteCitations loser survivor steps behind
    | none => c :: rewriteCitations loser survivor steps rest

/-- What follows the first match of a `LIKE` pattern without `%`; `_` stands for any character
and letters match in either case. -/
def afterLike (pattern : List Char) : List Char → Option (List Char)
  | [] => if pattern = [] then some [] else none
  | c :: rest => match head pattern (c :: rest) with
    | some behind => some behind
    | none => afterLike pattern rest
where
  head : List Char → List Char → Option (List Char)
    | [], text => some text
    | _ :: _, [] => none
    | p :: ps, c :: cs =>
      if p = '_' || p = c || (Text.isUpperAscii c && Text.lowerChar c = [p]) then head ps cs else none

/-- `tags LIKE '%source_facts:%<loser>%'`. -/
def mayCite (loser : Nat) (tags : String) : Bool :=
  ((afterLike "source_facts:".toList tags.toList).bind
    (Text.afterFirst (toString loser).toList)).isSome

def Fact.rewriteSources (loser survivor : Nat) (f : Fact) : Fact :=
  if f.category = "insight" && f.current && f.conflictGroup.isNone && mayCite loser f.tags then
    { f with tags := String.ofList (rewriteCitations loser survivor f.tags.length f.tags.toList) }
  else f

/-- `superseded_by`: the survivor stops pointing at the loser, everything else follows it. -/
def Fact.redirectSuccessor (loser survivor : Nat) (f : Fact) : Fact :=
  if f.supersededBy = some loser then
    { f with supersededBy := if f.factId = survivor then none else some survivor }
  else f

/-- Move every reference from a loser to its survivor, then delete the loser. -/
def mergeFactReferences (s : Store) (survivor loser : Nat) : Store :=
  let follow (factId : Option Nat) : Option Nat := if factId = some loser then some survivor else factId
  { s with
    facts := Table.remove (·.factId = loser)
      (s.facts.map fun f => (f.rewriteSources loser survivor).redirectSuccessor loser survivor)
    conflicts := s.conflicts.map fun row =>
      { row with resolutionFactId := follow row.resolutionFactId }
    members := redirect (·.factId = loser) (fun m => { m with factId := survivor }) s.members
    resolutions := s.resolutions.map fun row =>
      { row with resolutionFactId := if row.resolutionFactId = loser then survivor
          else row.resolutionFactId }
    provenance := redirectProvenance loser survivor s.provenance
    writeLog := s.writeLog.map fun row =>
      { row with factId := follow row.factId, existingFactId := follow row.existingFactId }
    embeddings := Table.remove (·.factId = loser) s.embeddings
    jobs := Table.remove (·.factId = loser) s.jobs
    erasures := s.erasures.map fun row =>
      { row with factId := if row.factId = loser then survivor else row.factId } }
where
  /-- Provenance is keyed without its excerpt and clock. -/
  redirectProvenance (loser survivor : Nat) (rows : List Provenance) : List Provenance :=
    rows.filterMap fun row =>
      if row.factId ≠ loser then some row
      else if rows.any fun kept => kept.factId = survivor &&
          kept.observationId = row.observationId && kept.relation = row.relation then none
      else some { row with factId := survivor }

def applyCluster (s : Store) (cluster : ClusterMerge) : Store :=
  let absorb (f : Fact) : Fact :=
    { f with
      retrievalCount := cluster.mergedRetrievalCount
      helpfulCount := cluster.mergedHelpfulCount
      tags := cluster.mergedTags }
  let s := { s with facts := Table.amend (·.factId = cluster.survivorId) absorb s.facts }
  cluster.loserIds.foldl (fun s loser => mergeFactReferences s cluster.survivorId loser) s

def applyMerge (s : Store) (plan : MergePlan) : Store := plan.clusters.foldl applyCluster s

def ClusterMerge.absorb (c : ClusterMerge) (f : Fact) : Fact :=
  { f with
    retrievalCount := c.mergedRetrievalCount
    helpfulCount := c.mergedHelpfulCount
    tags := c.mergedTags }

section Rule
variable {P : Store → Prop} {s : Store}

theorem clusterKeeps {c : ClusterMerge}
    (absorb : ∀ t, P t → P { t with facts := Table.amend (·.factId = c.survivorId) c.absorb t.facts })
    (drop : ∀ loser ∈ c.loserIds, ∀ t, P t → P (mergeFactReferences t c.survivorId loser))
    (init : P s) : P (applyCluster s c) :=
  List.foldlRecOn c.loserIds _ (absorb s init) fun t before loser listed => drop loser listed t before

theorem mergeKeeps {plan : MergePlan}
    (absorb : ∀ c ∈ plan.clusters, ∀ t, P t →
      P { t with facts := Table.amend (·.factId = c.survivorId) c.absorb t.facts })
    (drop : ∀ c ∈ plan.clusters, ∀ loser ∈ c.loserIds, ∀ t, P t →
      P (mergeFactReferences t c.survivorId loser))
    (init : P s) : P (applyMerge s plan) :=
  List.foldlRecOn plan.clusters _ init fun _ before c listed =>
    clusterKeeps (absorb c listed) (drop c listed) before

end Rule

def executeMerge (s : Store) (plan : MergePlan) (expectedDropMin expectedDropMax : Nat)
    (maxDropFraction : Rat) : Except Raised Store := do
  let starting := (activeFactIds s.toLedger).length
  ensure (expectedDropMin ≤ plan.dropCount && plan.dropCount ≤ expectedDropMax)
    ⟨.guardRailError, "refusing to run: drop count is outside the expected band"⟩
  ensure (starting = 0 || (plan.dropCount : Rat) ≤ maxDropFraction * starting)
    ⟨.guardRailError, "refusing to run: drop count exceeds the relative cap"⟩
  .ok (applyMerge s plan)

end Enfold
