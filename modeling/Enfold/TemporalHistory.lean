import Enfold.Foundation.KeyOrder
import Enfold.Foundation.Saturation
import Enfold.MemoryHistory
import Enfold.ValidTime

/-! The plugin's history of a fact: one loop back over what was replaced, then one forward over what
replaced it. Where replacements branch, the list depends on where the walk starts. -/
namespace Enfold

-- `SELECT * FROM facts WHERE superseded_by IN (…)`
def Ledger.replacedBy (l : Ledger) (chain : List Fact) : List Fact :=
  l.facts.filter fun f => f.supersededBy.any (chain.map Fact.factId).contains

-- a `superseded_by` of 0 counts as none
def Ledger.replacementsOf (l : Ledger) (chain : List Fact) : List Fact :=
  let nextIds := (chain.filterMap Fact.supersededBy).filter (· ≠ 0)
  l.facts.filter fun f => nextIds.contains f.factId

/-- `temporal.fact_history`, or nothing where a loop needs more rounds. -/
def temporalFactHistory (rounds : Nat) (l : Ledger) (factId : Nat) : Option (List Fact) :=
  match l.fact factId with
  | none => some []
  | some row => do
    let chain ← Saturation.grow Fact.factId l.replacedBy rounds [row]
    let chain ← Saturation.grow Fact.factId l.replacementsOf rounds chain
    pure (inOrder Fact.chainPlace chain)

/-! ## Components -/

def Ledger.Replaced (l : Ledger) (f g : Fact) : Prop :=
  f ∈ l.facts ∧ g ∈ l.facts ∧ f.supersededBy = some g.factId

def Ledger.Leads (l : Ledger) : Fact → Fact → Prop := Relation.ReflTransGen l.Replaced

def Ledger.Joined (l : Ledger) : Fact → Fact → Prop := Relation.EqvGen l.Replaced

open Classical in
noncomputable def Ledger.component (l : Ledger) (f : Fact) : List Fact := l.facts.filter fun g => l.Joined f g

/-- Every fact of the component is on a line through this one. -/
def Ledger.Through (l : Ledger) (f : Fact) : Prop := ∀ g, l.Joined f g → l.Leads g f ∨ l.Leads f g

section Components
variable {l : Ledger} {f g h : Fact}

theorem leadsJoined (leads : l.Leads f g) : l.Joined f g := by
  induction leads with
  | refl => exact .refl _
  | tail _ replaced ih => exact ih.trans _ _ _ (.rel _ _ replaced)

theorem joinedInside (hf : f ∈ l.facts) (joined : l.Joined f g) : g ∈ l.facts := by
  have both {f g : Fact} (joined : l.Joined f g) : f ∈ l.facts ↔ g ∈ l.facts := by
    induction joined with
    | rel _ _ replaced => exact iff_of_true replaced.1 replaced.2.1
    | refl => rfl
    | symm _ _ _ ih => exact ih.symm
    | trans _ _ _ _ _ first second => exact first.trans second
  exact (both joined).mp hf

theorem componentMem (hf : f ∈ l.facts) : g ∈ l.component f ↔ l.Joined f g := by
  simp only [Ledger.component, List.mem_filter, decide_eq_true_eq]
  exact and_iff_right_of_imp (joinedInside hf)

theorem componentSame (joined : l.Joined f g) : l.component g = l.component f := by
  refine List.filter_congr fun h _ => ?_
  have same : l.Joined g h ↔ l.Joined f h :=
    ⟨fun onward => joined.trans _ _ _ onward, fun back => (joined.symm _ _).trans _ _ _ back⟩
  exact decide_eq_decide.mpr same

theorem leadsLine (unique : Table.Unique Fact.factId l.facts) (left : l.Leads f g) (right : l.Leads f h) :
    l.Leads g h ∨ l.Leads h g :=
  Relation.ReflTransGen.total_of_right_unique
    (fun _ _ _ first second => Table.uniqueEq unique first.2.1 second.2.1
      (Option.some.inj (first.2.2.symm.trans second.2.2))) left right

end Components

/-! ## The walk -/

section Walk
variable {l : Ledger} {f g : Fact} {rounds : Nat}

theorem replacedSelects : Saturation.Selects l.replacedBy l.facts fun a b => b.supersededBy = some a.factId where
  sublist _ := List.filter_sublist
  mem {chain x} := by
    simp only [Ledger.replacedBy, List.mem_filter, Option.any_eq_true, List.contains_iff_mem, List.mem_map]
    refine and_congr_right fun _ => ?_
    constructor
    · rintro ⟨k, replaced, a, ha, rfl⟩
      exact ⟨a, ha, replaced⟩
    · rintro ⟨a, ha, replaced⟩
      exact ⟨a.factId, replaced, a, ha, rfl⟩

theorem replacementsSelects (numbered : ∀ f ∈ l.facts, f.factId ≠ 0) :
    Saturation.Selects l.replacementsOf l.facts fun a b => a.supersededBy = some b.factId where
  sublist _ := List.filter_sublist
  mem {chain x} := by
    simp only [Ledger.replacementsOf, List.mem_filter, List.contains_iff_mem, List.mem_filterMap, decide_eq_true_eq]
    refine and_congr_right fun here => ?_
    exact and_iff_left (numbered x here)

theorem backReach (hf : f ∈ l.facts) :
    Relation.ReflTransGen (fun a b => b ∈ l.facts ∧ b.supersededBy = some a.factId) f g ↔ l.Leads g f := by
  constructor
  · intro reached
    have both : g ∈ l.facts ∧ l.Leads g f := by
      induction reached with
      | refl => exact ⟨hf, .refl⟩
      | tail _ stepped ih => exact ⟨stepped.1, .head ⟨stepped.1, ih.1, stepped.2⟩ ih.2⟩
    exact both.2
  · intro leads
    induction leads using Relation.ReflTransGen.head_induction_on with
    | refl => exact .refl
    | head replaced _ ih => exact ih.tail ⟨replaced.1, replaced.2.2⟩

theorem forwardReach (hf : f ∈ l.facts) :
    Relation.ReflTransGen (fun a b => b ∈ l.facts ∧ a.supersededBy = some b.factId) f g ↔ l.Leads f g := by
  constructor
  · intro reached
    have both : g ∈ l.facts ∧ l.Leads f g := by
      induction reached with
      | refl => exact ⟨hf, .refl⟩
      | tail _ stepped ih => exact ⟨stepped.1, ih.2.tail ⟨ih.1, stepped⟩⟩
    exact both.2
  · intro leads
    induction leads with
    | refl => exact .refl
    | tail _ replaced ih => exact ih.tail replaced.2

/-- The walk from a fact returns, with the facts on a line through it. -/
theorem historyWalk (unique : Table.Unique Fact.factId l.facts) (numbered : ∀ f ∈ l.facts, f.factId ≠ 0)
    (hf : f ∈ l.facts) (enough : l.facts.length < rounds) :
    ∃ chain, temporalFactHistory rounds l f.factId = some (inOrder Fact.chainPlace chain) ∧ chain.Nodup ∧
      (∀ g ∈ chain, g ∈ l.facts) ∧ ∀ g, g ∈ chain ↔ l.Leads g f ∨ l.Leads f g := by
  have start : ∀ a ∈ [f], a ∈ l.facts := fun a ha => List.mem_singleton.mp ha ▸ hf
  obtain ⟨back, walked⟩ := Saturation.growTotal unique replacedSelects start (List.nodup_singleton _)
    (Nat.lt_add_right _ enough)
  obtain ⟨once, inside, reach⟩ := Saturation.growSource unique replacedSelects start (List.nodup_singleton _) walked
  obtain ⟨chain, walked'⟩ := Saturation.growTotal unique (replacementsSelects numbered) inside once
    (Nat.lt_add_right _ enough)
  obtain ⟨once', inside', reach'⟩ := Saturation.growSource unique (replacementsSelects numbered) inside once walked'
  have backward {g : Fact} : g ∈ back ↔ l.Leads g f := by
    rw [reach, ← backReach hf]
    simp only [List.mem_singleton, exists_eq_left]
  refine ⟨chain, ?_, List.Nodup.of_map _ once', inside', fun g => ?_⟩
  · have row : l.fact f.factId = some f := Table.findOfMem unique hf
    simp only [temporalFactHistory, row, walked, walked', Option.bind_eq_bind, Option.bind_some, Option.pure_def]
  · rw [reach']
    constructor
    · rintro ⟨a, ha, onward⟩
      exact (leadsLine unique (backward.mp ha) ((forwardReach (inside a ha)).mp onward)).symm
    · rintro (before | after)
      · exact ⟨g, backward.mpr before, .refl⟩
      · exact ⟨f, backward.mpr .refl, (forwardReach hf).mpr after⟩

/-- One order for one set of facts. -/
theorem chainOrder (unique : Table.Unique Fact.factId l.facts) {chain chain' : List Fact}
    (once : chain.Nodup) (once' : chain'.Nodup) (inside : ∀ g ∈ chain, g ∈ l.facts) :
    inOrder Fact.chainPlace chain = inOrder Fact.chainPlace chain' ↔ ∀ g, g ∈ chain ↔ g ∈ chain' := by
  constructor
  · intro same g
    have left := (KeyOrder.sortedByPerm Fact.chainPlace chain).mem_iff (a := g)
    have right := (KeyOrder.sortedByPerm Fact.chainPlace chain').mem_iff (a := g)
    have sorted : KeyOrder.sortedBy Fact.chainPlace chain = KeyOrder.sortedBy Fact.chainPlace chain' := same
    rw [sorted] at left
    exact left.symm.trans right
  · intro same
    refine KeyOrder.sortedByCongr (fun a ha b hb place => ?_) ((List.perm_ext_iff_of_nodup once once').mpr same)
    exact Table.uniqueEq unique (inside a ha) (inside b hb) (congrArg (fun p => (ofLex p).2) place)

/-- From a fact the whole component is listed just where every fact of it is on a line through that one. -/
theorem historyWhole (unique : Table.Unique Fact.factId l.facts) (numbered : ∀ f ∈ l.facts, f.factId ≠ 0)
    (hf : f ∈ l.facts) (enough : l.facts.length < rounds) :
    temporalFactHistory rounds l f.factId = some (inOrder Fact.chainPlace (l.component f)) ↔ l.Through f := by
  obtain ⟨chain, walked, once, inside, members⟩ := historyWalk unique numbered hf enough
  have rows : (l.component f).Nodup := (List.Nodup.of_map _ unique).filter _
  rw [walked, Option.some_inj, chainOrder unique once rows inside]
  refine forall_congr' fun g => ?_
  rw [members, componentMem hf]
  refine ⟨Iff.mpr, fun through => ⟨?_, through⟩⟩
  rintro (before | after)
  · exact (leadsJoined before).symm _ _
  · exact leadsJoined after

end Walk

/-- Two facts of one component have the same history, and that the whole component, just where every fact
of it is on a line through each of the two. -/
theorem historiesAgree {l : Ledger} {f g : Fact} {rounds : Nat} (unique : Table.Unique Fact.factId l.facts)
    (numbered : ∀ f ∈ l.facts, f.factId ≠ 0) (hf : f ∈ l.facts) (joined : l.Joined f g)
    (enough : l.facts.length < rounds) :
    (temporalFactHistory rounds l f.factId = some (inOrder Fact.chainPlace (l.component f)) ∧
      temporalFactHistory rounds l g.factId = some (inOrder Fact.chainPlace (l.component f))) ↔
        l.Through f ∧ l.Through g := by
  rw [historyWhole unique numbered hf enough, ← componentSame joined,
    historyWhole unique numbered (joinedInside hf joined) enough]

namespace Example

def quito : TimedWrite .plain where
  clock := .at "2026-01-03"
  item := {
    request := { WriteRequest.plain "k3" "Alex is in Quito" "user" with sourceAuthority := 1 / 5 }
    candidate := some ⟨"Alex is in Quito", "person:alex", "timezone", some "Quito", 1 / 5,
      some "2026-01-02", "state", "private", none⟩
    requestBuilt := by decide +kernel
    candidateBuilt := by decide +kernel }

def twoLosers : Ledger := (history [.write arbiter caller lima, .write arbiter caller oslo,
  .write arbiter caller quito, .resolveConflict arbiter caller 1 1 "Lima it is" "2026-01-04" "2026-01-04"]).toLedger

theorem losersApart : ∃ f ∈ twoLosers.facts, ∃ g ∈ twoLosers.facts, twoLosers.Joined f g ∧
    (temporalFactHistory 4 twoLosers f.factId).map (List.map Fact.factId) = some [1, 2] ∧
    (temporalFactHistory 4 twoLosers g.factId).map (List.map Fact.factId) = some [1, 2, 3] := by
  have ids : ∃ f ∈ twoLosers.facts, ∃ g ∈ twoLosers.facts, f.factId = 2 ∧ g.factId = 1 ∧
      f.supersededBy = some g.factId := by
    decide +kernel
  obtain ⟨f, hf, g, hg, left, right, replaced⟩ := ids
  refine ⟨f, hf, g, hg, .rel _ _ ⟨hf, hg, replaced⟩, ?_, ?_⟩
  · rw [left]
    decide +kernel
  · rw [right]
    decide +kernel

def oneChain : Ledger := (history [.write trusted caller lima, .write trusted caller moved]).toLedger

theorem historiesAgreeHere : ∃ f ∈ oneChain.facts, ∃ g ∈ oneChain.facts, f ≠ g ∧
    ((temporalFactHistory 3 oneChain f.factId = some (inOrder Fact.chainPlace (oneChain.component f)) ∧
      temporalFactHistory 3 oneChain g.factId = some (inOrder Fact.chainPlace (oneChain.component f))) ↔
        oneChain.Through f ∧ oneChain.Through g) := by
  have ids : ∃ f ∈ oneChain.facts, ∃ g ∈ oneChain.facts, f ≠ g ∧ f.supersededBy = some g.factId := by
    decide +kernel
  obtain ⟨f, hf, g, hg, apart, replaced⟩ := ids
  exact ⟨f, hf, g, hg, apart, historiesAgree historyKeyed.factIds (by decide +kernel) hf
    (.rel _ _ ⟨hf, hg, replaced⟩) (by decide +kernel)⟩

end Example
end Enfold
