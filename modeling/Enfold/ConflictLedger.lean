import Mathlib.Data.List.Dedup
import Enfold.Operations
import Enfold.WriteEffects

/-! The three tables that tell which facts are in dispute, kept in agreement: the group a fact
carries, the conflict row, and the member row. Every operation on facts keeps them so. -/
namespace Enfold

open Fallible

variable {rt : Runtime}

/-- Two current state facts claim one slot. -/
structure Rivals (f g : Fact) : Prop where
  states : f.isState = true ∧ g.isState = true
  current : f.current = true ∧ g.current = true
  scope : f.scope = g.scope
  subject : f.subjectKey = g.subjectKey
  predicate : f.predicateKey = g.predicateKey

theorem Rivals.symm {f g : Fact} (h : Rivals f g) : Rivals g f :=
  ⟨h.states.symm, h.current.symm, h.scope.symm, h.subject.symm, h.predicate.symm⟩

/-- Rivals are one fact, or parties of one dispute. -/
def Agree (facts : List Fact) : Prop :=
  ∀ f ∈ facts, ∀ g ∈ facts, Rivals f g →
    f.factId = g.factId ∨ ∃ c, f.conflictGroup = some c ∧ g.conflictGroup = some c

/-- Open, or closed without a winner because an erasure removed its members. -/
def Conflict.undecided (row : Conflict) : Prop :=
  row.resolvedAt = none ∨ (row.resolutionFactId = none ∧
    row.resolutionReason = some "privacy erasure removed a conflict member")

/-- The conflict row covers the fact: its scope and, for typed state, its slot. -/
structure Conflict.Covers (row : Conflict) (f : Fact) : Prop where
  scope : row.scope = f.scope
  slot : f.isState = true → f.subjectKey = some row.subjectKey ∧ f.predicateKey = some row.predicateKey

/-- A disputed fact is filed: a row that covers it, and a member row. -/
def Ledger.Filed (l : Ledger) (f : Fact) (c : Nat) : Prop :=
  (∃ row ∈ l.conflicts, row.conflictId = c ∧ row.undecided ∧ row.Covers f) ∧
    ⟨c, f.factId⟩ ∈ l.members

/-- The timestamps of a fact are in step: an ended or superseded one is invalid, and a disputed
one with an end is expired. -/
structure Fact.Timed (f : Fact) : Prop where
  ended : f.validTo.isSome = true → f.invalidAt.isSome = true
  replaced : f.supersededBy.isSome = true → f.invalidAt.isSome = true
  disputed : f.conflictGroup.isSome = true → f.validTo.isSome = true → f.expiredAt.isSome = true

/-- A party of an open dispute carries its group and is not superseded; only an insight may have
been invalidated with a fact it cites. -/
structure Fact.Party (f : Fact) (c : Nat) : Prop where
  group : f.conflictGroup = some c
  unreplaced : f.supersededBy = none
  valid : f.category ≠ "insight" → f.invalidAt = none

structure Ledger.Sound (l : Ledger) : Prop extends l.Keyed where
  timed : ∀ f ∈ l.facts, f.Timed
  memberBound : ∀ m ∈ l.members, m.conflictId < l.nextConflictId
  filed : ∀ f ∈ l.facts, f.current = true → ∀ c, f.conflictGroup = some c → l.Filed f c
  parties : ∀ row ∈ l.conflicts, row.resolvedAt = none → ∀ m ∈ l.members,
    m.conflictId = row.conflictId → ∃ f ∈ l.facts, f.factId = m.factId ∧ f.Party row.conflictId
  solitary : ∀ row ∈ l.conflicts, row.resolvedAt ≠ none → row.resolutionFactId = none →
    (l.members.filter (·.conflictId = row.conflictId)).length ≤ 1
  agree : Agree l.facts

theorem soundEmpty : Store.empty.toLedger.Sound where
  factIds := List.nodup_nil
  factBound _ hf := absurd hf List.not_mem_nil
  conflictIds := List.nodup_nil
  conflictBound _ hr := absurd hr List.not_mem_nil
  timed _ hf := absurd hf List.not_mem_nil
  memberBound _ hm := absurd hm List.not_mem_nil
  filed _ hf := absurd hf List.not_mem_nil
  parties _ hr := absurd hr List.not_mem_nil
  solitary _ hr := absurd hr List.not_mem_nil
  agree _ hf := absurd hf List.not_mem_nil

theorem currentValid {f : Fact} (h : f.current = true) : f.invalidAt = none ∧ f.supersededBy = none := by
  simpa [Fact.current] using h

namespace Ledger
variable {l : Ledger}

/-! ## Changes that keep the tables in agreement -/

theorem Sound.insert (sound : l.Sound) {g : Fact} (next : g.factId = l.nextFactId)
    (timed : g.Timed) (calm : g.conflictGroup = none) (alone : ∀ f ∈ l.facts, ¬ Rivals f g) :
    (l.insert g).Sound where
  toKeyed := sound.toKeyed.insert next
  timed f hf := by
    rcases List.mem_append.mp hf with hf | hf
    · exact sound.timed f hf
    · rw [List.mem_singleton.mp hf]
      exact timed
  memberBound := sound.memberBound
  filed f hf current c group := by
    rcases List.mem_append.mp hf with hf | hf
    · exact sound.filed f hf current c group
    · rw [List.mem_singleton.mp hf, calm] at group
      cases group
  parties row hr unresolved m hm same := by
    obtain ⟨f, hf, party⟩ := sound.parties row hr unresolved m hm same
    exact ⟨f, List.mem_append_left _ hf, party⟩
  solitary := sound.solitary
  agree f hf h hh rivals := by
    rcases List.mem_append.mp hf with hf | hf
    · rcases List.mem_append.mp hh with hh | hh
      · exact sound.agree f hf h hh rivals
      · rw [List.mem_singleton.mp hh] at rivals
        exact absurd rivals (alone f hf)
    · rcases List.mem_append.mp hh with hh | hh
      · rw [List.mem_singleton.mp hf] at rivals
        exact absurd rivals.symm (alone h hh)
      · rw [List.mem_singleton.mp hf, List.mem_singleton.mp hh]
        exact .inl rfl

theorem Sound.admit (sound : l.Sound) {g : Fact} {c : Nat} {r : Conflict}
    (next : g.factId = l.nextFactId) (timed : g.Timed) (party : g.Party c)
    (mem : r ∈ l.conflicts) (id : r.conflictId = c) (unresolved : r.resolvedAt = none)
    (covers : r.Covers g)
    (together : ∀ f ∈ l.facts, Rivals f g → f.conflictGroup = some c) :
    ((l.insert g).join ⟨c, g.factId⟩).Sound where
  toKeyed := (sound.toKeyed.insert next).join
  timed f hf := by
    rcases List.mem_append.mp hf with hf | hf
    · exact sound.timed f hf
    · rw [List.mem_singleton.mp hf]
      exact timed
  memberBound m hm := by
    rcases List.mem_append.mp hm with hm | hm
    · exact sound.memberBound m hm
    · rw [List.mem_singleton.mp hm]
      exact id ▸ sound.conflictBound r mem
  filed f hf current k group := by
    rcases List.mem_append.mp hf with hf | hf
    · obtain ⟨covered, member⟩ := sound.filed f hf current k group
      exact ⟨covered, List.mem_append_left _ member⟩
    · rw [List.mem_singleton.mp hf, party.group] at group
      rw [List.mem_singleton.mp hf, ← Option.some.inj group]
      exact ⟨⟨r, mem, id, .inl unresolved, covers⟩, List.mem_append_right _ List.mem_cons_self⟩
  parties other hr open' m hm same := by
    rcases List.mem_append.mp hm with hm | hm
    · obtain ⟨f, hf, old⟩ := sound.parties other hr open' m hm same
      exact ⟨f, List.mem_append_left _ hf, old⟩
    · rw [List.mem_singleton.mp hm] at same ⊢
      exact ⟨g, List.mem_append_right _ List.mem_cons_self, rfl, same ▸ party⟩
  solitary other hr closed winnerless := by
    have apart : c ≠ other.conflictId := by
      intro same
      rw [Table.uniqueEq sound.conflictIds hr mem (same.symm.trans id.symm)] at closed
      exact closed unresolved
    simp only [Ledger.join, Ledger.insert, List.filter_append]
    simpa [apart] using sound.solitary other hr closed winnerless
  agree f hf h hh rivals := by
    rcases List.mem_append.mp hf with hf | hf
    · rcases List.mem_append.mp hh with hh | hh
      · exact sound.agree f hf h hh rivals
      · rw [List.mem_singleton.mp hh] at rivals ⊢
        exact .inr ⟨c, together f hf rivals, party.group⟩
    · rcases List.mem_append.mp hh with hh | hh
      · rw [List.mem_singleton.mp hf] at rivals ⊢
        exact .inr ⟨c, party.group, together h hh rivals.symm⟩
      · rw [List.mem_singleton.mp hf, List.mem_singleton.mp hh]
        exact .inl rfl

/-- What an update of the fact table, with members and rows dropped or closed beside it, must
respect. -/
structure Shrinks (l : Ledger) (m : Fact → Fact) (keeps : Member → Bool) (r : Conflict → Conflict) :
    Prop where
  ids : ∀ f, (m f).factId = f.factId
  rowIds : ∀ row, (r row).conflictId = row.conflictId
  timed : ∀ f ∈ l.facts, (m f).Timed
  /-- A fact in dispute afterwards was so before, and stays filed. -/
  filed : ∀ f ∈ l.facts, (m f).current = true → ∀ c, (m f).conflictGroup = some c →
    f.current = true ∧ f.conflictGroup = some c ∧ keeps ⟨c, f.factId⟩ = true ∧
      ∀ row ∈ l.conflicts, row.conflictId = c → row.undecided → row.Covers f →
        (r row).undecided ∧ (r row).Covers (m f)
  /-- An open row stays what it was, and so do its parties. -/
  parties : ∀ row ∈ l.conflicts, (r row).resolvedAt = none → row.resolvedAt = none ∧
    ∀ f ∈ l.facts, f.Party row.conflictId → keeps ⟨row.conflictId, f.factId⟩ = true →
      (m f).Party row.conflictId
  /-- A row closed without a winner was so before, or is left one member at most. -/
  solitary : ∀ row ∈ l.conflicts, (r row).resolvedAt ≠ none → (r row).resolutionFactId = none →
    (row.resolvedAt ≠ none ∧ row.resolutionFactId = none) ∨
      ((l.members.filter keeps).filter (·.conflictId = row.conflictId)).length ≤ 1

theorem Sound.shrink (sound : l.Sound) {m : Fact → Fact} {k : Member → Bool}
    {r : Conflict → Conflict} (shrinks : l.Shrinks m k r) (agree : Agree (l.facts.map m)) :
    ({ l with
      facts := l.facts.map m
      members := l.members.filter k
      conflicts := l.conflicts.map r } : Ledger).Sound where
  factIds := by
    have same : (l.facts.map m).map Fact.factId = l.facts.map Fact.factId := by
      rw [List.map_map]
      exact List.map_congr_left fun f _ => shrinks.ids f
    simpa only [Table.Unique, same] using sound.factIds
  factBound f hf := by
    obtain ⟨old, hold, rfl⟩ := List.mem_map.mp hf
    rw [shrinks.ids]
    exact sound.factBound old hold
  conflictIds := by
    have same : (l.conflicts.map r).map Conflict.conflictId = l.conflicts.map Conflict.conflictId := by
      rw [List.map_map]
      exact List.map_congr_left fun row _ => shrinks.rowIds row
    simpa only [Table.Unique, same] using sound.conflictIds
  conflictBound row hr := by
    obtain ⟨old, hold, rfl⟩ := List.mem_map.mp hr
    rw [shrinks.rowIds]
    exact sound.conflictBound old hold
  timed f hf := by
    obtain ⟨old, hold, rfl⟩ := List.mem_map.mp hf
    exact shrinks.timed old hold
  memberBound m hm := sound.memberBound m (List.mem_filter.mp hm).1
  filed f hf current c group := by
    obtain ⟨old, hold, rfl⟩ := List.mem_map.mp hf
    obtain ⟨was, grouped, keeps', rows⟩ := shrinks.filed old hold current c group
    obtain ⟨⟨row, hr, id, undecided, covers⟩, member⟩ := sound.filed old hold was c grouped
    obtain ⟨still, covered⟩ := rows row hr id undecided covers
    refine ⟨⟨r row, List.mem_map_of_mem hr, (shrinks.rowIds row).trans id, still, covered⟩, ?_⟩
    rw [shrinks.ids]
    exact List.mem_filter.mpr ⟨member, keeps'⟩
  parties row hr unresolved member hm same := by
    obtain ⟨old, hold, rfl⟩ := List.mem_map.mp hr
    obtain ⟨was, stays⟩ := shrinks.parties old hold unresolved
    obtain ⟨hm, kept⟩ := List.mem_filter.mp hm
    rw [shrinks.rowIds] at same ⊢
    obtain ⟨f, hf, id, party⟩ := sound.parties old hold was member hm same
    refine ⟨m f, List.mem_map_of_mem hf, (shrinks.ids f).trans id, stays f hf party ?_⟩
    rw [← same, id]
    exact kept
  solitary row hr closed winnerless := by
    obtain ⟨old, hold, rfl⟩ := List.mem_map.mp hr
    rw [shrinks.rowIds]
    rcases shrinks.solitary old hold closed winnerless with ⟨was, free⟩ | few
    · refine le_trans (List.Sublist.length_le ?_) (sound.solitary old hold was free)
      exact List.Sublist.filter _ List.filter_sublist
    · exact few
  agree := agree

def Marks (mark : Fact → Fact) (c : Nat) (f : Fact) : Prop :=
  ∃ subject predicate,
    mark f = { f with conflictGroup := some c, subjectKey := subject, predicateKey := predicate } ∧
      (f.isState = true → subject = f.subjectKey ∧ predicate = f.predicateKey)

theorem marksRivals {mark : Fact → Fact} {c : Nat} {f g : Fact} (marks : Marks mark c f)
    (h : Rivals (mark f) g) : Rivals f g := by
  obtain ⟨subject, predicate, shape, kept⟩ := marks
  rw [shape] at h
  obtain ⟨rfl, rfl⟩ := kept h.states.1
  exact ⟨h.states, h.current, h.scope, h.subject, h.predicate⟩

theorem Sound.openConflict (sound : l.Sound) {row : Conflict} {factIds : List Nat}
    {mark : Fact → Fact} (next : row.conflictId = l.nextConflictId) (unresolved : row.resolvedAt = none)
    (kept : ∀ f, (mark f).factId = f.factId)
    (marks : ∀ f ∈ l.facts, f.factId ∈ factIds → Marks mark row.conflictId f)
    (members : ∀ factId ∈ factIds, ∃ f ∈ l.facts, f.factId = factId ∧ f.current = true ∧
      f.conflictGroup = none ∧ row.Covers f)
    (whole : ∀ f ∈ l.facts, f.factId ∈ factIds → ∀ g ∈ l.facts, Rivals f g → g.factId ∈ factIds) :
    (l.openConflict row factIds mark).Sound := by
  have member : ∀ f ∈ l.facts, f.factId ∈ factIds →
      f.current = true ∧ f.conflictGroup = none ∧ row.Covers f := by
    intro f hf inside
    obtain ⟨g, hg, id, rest⟩ := members f.factId inside
    rwa [Table.uniqueEq sound.factIds hg hf id] at rest
  have keyed := sound.toKeyed.openConflict row factIds next kept
  refine { keyed with
    timed := ?_, memberBound := ?_, filed := ?_, parties := ?_, solitary := ?_, agree := ?_ }
  · intro f hf
    obtain ⟨old, hold, rfl⟩ := Table.memAmend.mp hf
    split
    · rename_i hit
      have inside : old.factId ∈ factIds := by simpa using hit
      obtain ⟨subject, predicate, shape, -⟩ := marks old hold inside
      obtain ⟨valid, -⟩ := currentValid (member old hold inside).1
      have timed := sound.timed old hold
      rw [shape]
      refine ⟨timed.ended, timed.replaced, fun _ ended => ?_⟩
      have := timed.ended ended
      simp [valid] at this
    · exact sound.timed old hold
  · intro m hm
    simp only [Ledger.openConflict]
    rcases List.mem_append.mp hm with hm | hm
    · have := sound.memberBound m hm
      omega
    · obtain ⟨factId, -, rfl⟩ := List.mem_map.mp hm
      simp only [next]
      omega
  · intro f hf current c group
    obtain ⟨old, hold, rfl⟩ := Table.memAmend.mp hf
    by_cases hit : factIds.contains old.factId = true
    · have inside : old.factId ∈ factIds := by simpa using hit
      obtain ⟨subject, predicate, shape, labels⟩ := marks old hold inside
      obtain ⟨-, -, covers⟩ := member old hold inside
      rw [if_pos hit] at group ⊢
      rw [shape] at group ⊢
      cases group
      refine ⟨⟨row, List.mem_append_right _ List.mem_cons_self, rfl, .inl unresolved,
        covers.scope, fun state => ?_⟩, List.mem_append_right _ (List.mem_map.mpr
          ⟨old.factId, inside, rfl⟩)⟩
      obtain ⟨rfl, rfl⟩ := labels state
      exact covers.slot state
    · rw [if_neg hit] at current group ⊢
      obtain ⟨⟨old', hr, rest⟩, filed⟩ := sound.filed old hold current c group
      exact ⟨⟨old', List.mem_append_left _ hr, rest⟩, List.mem_append_left _ filed⟩
  · intro other hr open' m hm same
    rcases List.mem_append.mp hr with hr | hr
    · have below := sound.conflictBound other hr
      rcases List.mem_append.mp hm with hm | hm
      · obtain ⟨f, hf, id, party⟩ := sound.parties other hr open' m hm same
        have free : f.factId ∉ factIds := by
          intro inside
          have := (member f hf inside).2.1
          rw [party.group] at this
          cases this
        refine ⟨f, Table.memAmend.mpr ⟨f, hf, ?_⟩, id, party⟩
        rw [if_neg (by simpa using free)]
      · obtain ⟨factId, -, rfl⟩ := List.mem_map.mp hm
        simp only [next] at same
        omega
    · rw [List.mem_singleton.mp hr] at same ⊢
      rcases List.mem_append.mp hm with hm | hm
      · have := sound.memberBound m hm
        omega
      · obtain ⟨factId, inside, rfl⟩ := List.mem_map.mp hm
        obtain ⟨f, hf, rfl, current, -⟩ := members factId inside
        obtain ⟨subject, predicate, shape, -⟩ := marks f hf inside
        obtain ⟨valid, unreplaced⟩ := currentValid current
        refine ⟨mark f, Table.memAmend.mpr ⟨f, hf, ?_⟩, kept f, ?_⟩
        · rw [if_pos (by simpa using inside)]
        · rw [shape]
          exact ⟨rfl, unreplaced, fun _ => valid⟩
  · intro other hr closed winnerless
    rcases List.mem_append.mp hr with hr | hr
    · have below := sound.conflictBound other hr
      have apart : row.conflictId ≠ other.conflictId := by omega
      simp only [Ledger.openConflict, List.filter_append, List.filter_map, Function.comp_def, apart,
        decide_false, List.filter_false, List.map_nil, List.append_nil]
      exact sound.solitary other hr closed winnerless
    · rw [List.mem_singleton.mp hr] at closed
      exact absurd unresolved closed
  · intro f hf g hg rivals
    obtain ⟨old, hold, rfl⟩ := Table.memAmend.mp hf
    obtain ⟨old', hold', rfl⟩ := Table.memAmend.mp hg
    -- rivals were rivals before the marks, so they are marked together or not at all
    have before : Rivals old old' := by
      split at rivals
      · rename_i hit
        have first := marksRivals (marks old hold (by simpa using hit)) rivals
        split at first
        · rename_i hit'
          exact (marksRivals (marks old' hold' (by simpa using hit')) first.symm).symm
        · exact first
      · split at rivals
        · rename_i hit'
          exact (marksRivals (marks old' hold' (by simpa using hit')) rivals.symm).symm
        · exact rivals
    by_cases inside : old.factId ∈ factIds
    · have inside' := whole old hold inside old' hold' before
      obtain ⟨subject, predicate, shape, -⟩ := marks old hold inside
      obtain ⟨subject', predicate', shape', -⟩ := marks old' hold' inside'
      rw [if_pos (by simpa using inside), if_pos (by simpa using inside'), shape, shape']
      exact .inr ⟨row.conflictId, rfl, rfl⟩
    · have outside' : old'.factId ∉ factIds := fun inside' =>
        inside (whole old' hold' inside' old hold before.symm)
      rw [if_neg (by simpa using inside), if_neg (by simpa using outside')]
      exact sound.agree old hold old' hold' before

theorem agreeShrink {facts : List Fact} {m : Fact → Fact}
    (only : ∀ f ∈ facts, (m f).current = true → m f = f) (agree : Agree facts) :
    Agree (facts.map m) := by
  intro f hf g hg rivals
  obtain ⟨old, hold, rfl⟩ := List.mem_map.mp hf
  obtain ⟨old', hold', rfl⟩ := List.mem_map.mp hg
  have still := only old hold rivals.current.1
  have still' := only old' hold' rivals.current.2
  rw [still, still'] at rivals ⊢
  exact agree old hold old' hold' rivals

theorem Sound.retire (sound : l.Sound) {f : Fact} {h : Fact → Fact} (mem : f ∈ l.facts)
    (kept : ∀ f, (h f).factId = f.factId) (calm : f.conflictGroup = none)
    (gone : (h f).current = false) (timed : (h f).Timed) : (l.retire f.factId h).Sound := by
  have here : ∀ g ∈ l.facts, g.factId = f.factId → g = f := fun g hg same =>
    Table.uniqueEq sound.factIds hg mem same
  have only : ∀ g ∈ l.facts, (if decide (g.factId = f.factId) = true then h g else g).current =
      true → (if decide (g.factId = f.factId) = true then h g else g) = g := by
    intro g hg current
    split
    · rename_i same
      rw [if_pos same, here g hg (by simpa using same), gone] at current
      cases current
    · rfl
  have shrunk := sound.shrink (m := fun g => if decide (g.factId = f.factId) = true then h g else g)
    (k := fun _ => true) (r := id) ?_ (agreeShrink only sound.agree)
  · rw [List.filter_true, List.map_id] at shrunk
    exact shrunk
  · refine ⟨fun g => ?_, fun _ => rfl, fun g hg => ?_, fun g hg current c group => ?_,
      fun row hr unresolved => ⟨unresolved, fun g hg party _ => ?_⟩,
      fun row _ closed winnerless => .inl ⟨closed, winnerless⟩⟩
    · split
      · exact kept g
      · rfl
    · split
      · rename_i same
        rw [here g hg (by simpa using same)]
        exact timed
      · exact sound.timed g hg
    · have still := only g hg current
      rw [still] at current group
      exact ⟨current, group, rfl, fun row hr id undecided covers => ⟨undecided, still.symm ▸ covers⟩⟩
    · rw [if_neg]
      · exact party
      · intro same
        have := party.group
        rw [here g hg (by simpa using same), calm] at this
        cases this

theorem resolvedSlot (f : Fact) (resolvedAt : String) (conflictId winner : Nat) (losers : List Nat)
    (validTo : Option String) :
    (f.resolved resolvedAt conflictId winner losers validTo).isState = f.isState ∧
      (f.resolved resolvedAt conflictId winner losers validTo).scope = f.scope ∧
      (f.resolved resolvedAt conflictId winner losers validTo).subjectKey = f.subjectKey ∧
      (f.resolved resolvedAt conflictId winner losers validTo).predicateKey = f.predicateKey := by
  unfold Fact.resolved
  split
  · exact ⟨rfl, rfl, rfl, rfl⟩
  · split
    · exact ⟨rfl, rfl, rfl, rfl⟩
    · exact ⟨rfl, rfl, rfl, rfl⟩

theorem Sound.resolve (sound : l.Sound) {conflictId winner : Nat} {row : Conflict} {w : Fact}
    {validTo : Option String} {resolvedBy reason resolvedAt : String}
    (resolves : Resolves l conflictId winner row w) :
    (l.resolve conflictId winner validTo resolvedBy reason resolvedAt).Sound := by
  have isWinner : ∀ f ∈ l.facts, f.factId = winner → f = w := fun f hf same =>
    Table.uniqueEq sound.factIds hf resolves.factMem (same.trans resolves.factId.symm)
  -- every other current party has a member row, so it loses
  have loses : ∀ f ∈ l.facts, f.current = true → f.conflictGroup = some conflictId →
      f.factId ≠ winner →
      f.losesTo ((l.memberIds conflictId).filter (· ≠ winner)) conflictId = true := by
    intro f hf current group other
    have filed := (sound.filed f hf current conflictId group).2
    have inside : f.factId ∈ (l.memberIds conflictId).filter (· ≠ winner) :=
      List.mem_filter.mpr ⟨memberIdsMem.mpr filed, decide_eq_true other⟩
    simp only [Fact.losesTo, List.contains_iff_mem.mpr inside, group, (currentValid current).1]
    simp
  have remaining : ∀ f ∈ l.facts, (f.resolved resolvedAt conflictId winner
      ((l.memberIds conflictId).filter (· ≠ winner)) validTo).current = true →
      f.current = true ∧ (f.factId = winner ∨ f.resolved resolvedAt conflictId winner
        ((l.memberIds conflictId).filter (· ≠ winner)) validTo = f ∧
          f.conflictGroup ≠ some conflictId) := by
    intro f hf current
    unfold Fact.resolved at current ⊢
    split at current
    · rename_i same
      rw [isWinner f hf same]
      exact ⟨resolves.current, .inl resolves.factId⟩
    · rename_i other
      split at current
      · simp [Fact.lose, Fact.current] at current
      · rename_i spared
        refine ⟨current, .inr ⟨?_, fun group => spared (loses f hf current group other)⟩⟩
        rw [if_neg other, if_neg spared]
  have agree : Agree (l.facts.map (Fact.resolved resolvedAt conflictId winner
      ((l.memberIds conflictId).filter (· ≠ winner)) validTo)) := by
    intro f hf g hg rivals
    obtain ⟨old, hold, rfl⟩ := List.mem_map.mp hf
    obtain ⟨old', hold', rfl⟩ := List.mem_map.mp hg
    obtain ⟨was, side⟩ := remaining old hold rivals.current.1
    obtain ⟨was', side'⟩ := remaining old' hold' rivals.current.2
    have before : Rivals old old' := by
      obtain ⟨state, scope, subject, predicate⟩ := resolvedSlot old resolvedAt conflictId
        winner ((l.memberIds conflictId).filter (· ≠ winner)) validTo
      obtain ⟨state', scope', subject', predicate'⟩ := resolvedSlot old' resolvedAt
        conflictId winner ((l.memberIds conflictId).filter (· ≠ winner)) validTo
      exact ⟨⟨state.symm.trans rivals.states.1, state'.symm.trans rivals.states.2⟩, ⟨was, was'⟩,
        scope.symm.trans (rivals.scope.trans scope'),
        subject.symm.trans (rivals.subject.trans subject'),
        predicate.symm.trans (rivals.predicate.trans predicate')⟩
    rw [resolvedId, resolvedId]
    rcases sound.agree old hold old' hold' before with same | ⟨c, group, group'⟩
    · exact .inl same
    · rcases side with won | ⟨stays, outside⟩
      · rcases side' with won' | ⟨-, outside'⟩
        · exact .inl (won.trans won'.symm)
        · rw [isWinner old hold won, resolves.group] at group
          exact absurd (group'.trans group.symm) outside'
      · rcases side' with won' | ⟨stays', -⟩
        · rw [isWinner old' hold' won', resolves.group] at group'
          exact absurd (group.trans group'.symm) outside
        · rw [stays, stays']
          exact .inr ⟨c, group, group'⟩
  have shrunk := sound.shrink (k := fun _ => true)
    (r := fun row => if (decide (row.conflictId = conflictId) && row.resolvedAt.isNone) = true then
      row.resolve resolvedAt resolvedBy reason winner else row) ?_ agree
  · rw [List.filter_true] at shrunk
    exact shrunk
  · refine ⟨fun f => resolvedId, fun row => ?_, fun f hf => ?_, fun f hf current c group => ?_,
      fun row hr unresolved => ?_, fun row hr closed winnerless => .inl ?_⟩
    · split
      · rfl
      · rfl
    · have timed := sound.timed f hf
      unfold Fact.resolved
      split
      · exact ⟨timed.ended, timed.replaced, fun none => by cases none⟩
      · split
        · exact ⟨fun _ => rfl, fun _ => rfl, fun _ _ => rfl⟩
        · exact timed
    · obtain ⟨was, side⟩ := remaining f hf current
      rcases side with won | ⟨stays, outside⟩
      · simp [Fact.resolved, won] at group
      · rw [stays] at group ⊢
        refine ⟨was, group, rfl, fun row hr id undecided covers => ?_⟩
        rw [if_neg]
        · exact ⟨undecided, covers⟩
        · intro hit
          simp only [Bool.and_eq_true, decide_eq_true_eq] at hit
          exact outside (group.trans (congrArg some (id.symm.trans hit.1)))
    · have open' : row.resolvedAt = none ∧ row.conflictId ≠ conflictId := by
        split at unresolved
        · cases unresolved
        · rename_i miss
          refine ⟨unresolved, fun same => miss ?_⟩
          simp [same, unresolved]
      refine ⟨open'.1, fun f hf party _ => ?_⟩
      have other : f.factId ≠ winner := by
        intro same
        have group := party.group
        rw [isWinner f hf same, resolves.group] at group
        exact open'.2 (Option.some.inj group).symm
      have spared : f.losesTo ((l.memberIds conflictId).filter (· ≠ winner)) conflictId = false := by
        simp [Fact.losesTo, party.group, open'.2]
      unfold Fact.resolved
      rw [if_neg other, spared]
      exact party
    · split at winnerless
      · cases winnerless
      · rename_i miss
        rw [if_neg miss] at closed
        exact ⟨closed, winnerless⟩

end Ledger

/-! ## Erasure -/

theorem erasedCurrent {f : Fact} {factId : Nat} {erasedAt : String} {insights : List Nat}
    (h : (f.erased factId erasedAt insights).current = true) :
    f.factId ≠ factId ∧ f.erased factId erasedAt insights = f := by
  unfold Fact.erased at h ⊢
  dsimp only at h ⊢
  split at h
  · simp [Fact.current] at h
  · rename_i uncited
    rw [if_neg uncited]
    split at h
    · cases was : f.invalidAt with
      | none => simp [Fact.current, Fact.scrub, was] at h
      | some at' => simp [Fact.current, Fact.scrub, was] at h
    · rename_i other
      exact ⟨other, if_neg other⟩

theorem Ledger.Sound.erase {l : Ledger} (sound : l.Sound) {factId : Nat}
    {requestedBy erasedAt : String} {cited lonely : List Nat}
    (insights : ∀ f ∈ l.facts, f.factId ∈ cited →
      f.factId ≠ factId ∧ f.category = "insight" ∧ f.invalidAt = none)
    (few : ∀ c ∈ lonely, ((l.members.filter fun m => !decide (m.factId = factId)).filter
      (·.conflictId = c)).length ≤ 1) :
    (l.erase factId requestedBy erasedAt cited lonely).Sound := by
  refine sound.shrink ⟨fun f => ?_, fun row => ?_, fun f hf => ?_, fun f hf current c group => ?_,
    fun row hr unresolved => ?_, fun row hr closed winnerless => ?_⟩ (agreeShrink (fun f _ current => (erasedCurrent current).2) sound.agree)
  · unfold Fact.erased
    dsimp only
    split
    · split
      · rfl
      · rfl
    · split
      · rfl
      · rfl
  · split
    · rfl
    · rfl
  · have timed := sound.timed f hf
    unfold Fact.erased
    dsimp only
    by_cases gone : f.factId = factId
    · have uncited : cited.contains f.factId = false := by
        by_contra inside
        exact (insights f hf (by simpa using inside)).1 gone
      have invalid : (f.invalidAt <|> some erasedAt).isSome = true := by
        cases f.invalidAt <;> rfl
      rw [uncited, if_pos gone]
      exact ⟨fun _ => invalid, fun _ => invalid, fun none => by cases none⟩
    · rw [if_neg gone]
      split
      · exact ⟨fun _ => rfl, fun _ => rfl, timed.disputed⟩
      · exact timed
  · obtain ⟨other, still⟩ := erasedCurrent current
    rw [still] at current group
    refine ⟨current, group, by simpa using other, fun row hr id undecided covers => ?_⟩
    rw [still]
    split
    · exact ⟨.inr ⟨rfl, rfl⟩, covers.scope, covers.slot⟩
    · exact ⟨undecided, covers⟩
  · split at unresolved
    · cases unresolved
    · refine ⟨unresolved, fun f hf party kept => ?_⟩
      have other : f.factId ≠ factId := by simpa using kept
      unfold Fact.erased
      dsimp only
      rw [if_neg other]
      split
      · rename_i inside
        refine ⟨party.group, party.unreplaced, fun ordinary => ?_⟩
        exact absurd (insights f hf (by simpa using inside)).2.1 ordinary
      · exact party
  · by_cases hit : (lonely.contains row.conflictId && row.resolvedAt.isNone) = true
    · simp only [Bool.and_eq_true, List.contains_iff_mem] at hit
      exact .inr (few row.conflictId hit.1)
    · rw [if_neg hit] at closed winnerless
      exact .inl ⟨closed, winnerless⟩

/-! ## Writes -/

section Writes
variable {l : Ledger} {request : WriteRequest} {clock : Clock} {c : StateCandidate}

theorem timedOpen {f : Fact} (endless : f.validTo = none) (unreplaced : f.supersededBy = none) :
    f.Timed where
  ended h := by
    rw [endless] at h
    cases h
  replaced h := by
    rw [unreplaced] at h
    cases h
  disputed _ h := by
    rw [endless] at h
    cases h

theorem rowTimed {factId : Nat} {now : String} : (request.row factId now).Timed := timedOpen rfl rfl

theorem storedState (request : WriteRequest) {extracted : Option ExtractedTypedFields} (factId : Nat)
    (now : String)
    (kind : ∀ fields ∈ extracted, fields.kind ≠ .state) :
    (request.stored extracted factId now).isState = false ∧
      (request.stored extracted factId now).Timed ∧
      (request.stored extracted factId now).conflictGroup = none ∧
      (request.stored extracted factId now).factId = factId := by
  cases extracted with
  | none => exact ⟨rfl, rowTimed, rfl, rfl⟩
  | some fields =>
    have other := kind fields rfl
    refine ⟨?_, timedOpen rfl rfl, rfl, rfl⟩
    simp [WriteRequest.stored, Fact.persistExtracted, Fact.isState, other]

theorem notRival {f g : Fact} (kind : g.isState = false) : ¬ Rivals f g := by
  intro rivals
  have state := rivals.states.2
  rw [kind] at state
  cases state

theorem supersedeRetired {f : Fact} {now : String} {survivor : Nat} :
    (f.supersede now survivor).current = false := by
  simp [Fact.supersede, Fact.current]

theorem supersedeTimed {f : Fact} {now : String} {survivor : Nat} :
    (f.supersede now survivor).Timed := ⟨fun _ => rfl, fun _ => rfl, fun _ _ => rfl⟩

theorem Ledger.Sound.untyped (sound : l.Sound) {extracted : Option ExtractedTypedFields}
    {found : UntypedMatch} {l' : Ledger} {result : FactWriteResult}
    (effect : UntypedEffect l request extracted clock found l' result) : l'.Sound := by
  cases effect with
  | duplicate => exact sound
  | fresh kind =>
    obtain ⟨plain, timed, calm, id⟩ := storedState request l.nextFactId clock.insertedAt kind
    exact sound.insert id timed calm fun f _ => notRival plain
  | @dispute found l' opened =>
    obtain ⟨trimmed, subject, predicate, detail, f, hf, id, scope, current, calm, plain, rfl⟩ := opened
    have here : ∀ g ∈ l.facts, g.factId ∈ [found.factId] → g = f := fun g hg same =>
      Table.uniqueEq sound.factIds hg hf ((List.mem_singleton.mp same).trans id.symm)
    have disputed : (l.openConflict (.detected l.nextConflictId request.scope subject predicate
        clock.recordedAt detail) [found.factId]
        (Fact.disputeAs l.nextConflictId subject predicate)).Sound := by
      refine sound.openConflict rfl rfl (fun _ => rfl) (fun g hg same => ?_) (fun factId same => ?_)
        fun g hg same k hk rivals => ?_
      · refine ⟨_, _, rfl, fun state => ?_⟩
        rw [here g hg same, plain] at state
        cases state
      · rw [List.mem_singleton.mp same]
        refine ⟨f, hf, id, current, calm, scope.symm, fun state => ?_⟩
        rw [plain] at state
        cases state
      · rw [here g hg same] at rivals
        exact absurd rivals.symm (notRival plain)
    have plainRow : ((request.row l.nextFactId clock.insertedAt).disputeAs l.nextConflictId
        found.subjectKey found.predicateKey).isState = false := rfl
    exact disputed.admit (r := .detected l.nextConflictId request.scope subject predicate
      clock.recordedAt detail) rfl
      (timedOpen rfl rfl)
      ⟨rfl, rfl, fun _ => rfl⟩ (List.mem_append_right _ List.mem_cons_self) rfl rfl
      ⟨trimmed.symm, fun state => by cases state⟩
      fun g _ rivals => absurd rivals (notRival plainRow)
  | @wins candidate f hf id here _ _ =>
    simp only [Fact.openIn, Bool.and_eq_true, Option.isNone_iff_eq_none] at here
    have retired := sound.retire (h := Fact.supersede clock.recordedAt l.nextFactId) hf
      (fun _ => rfl) here.2 supersedeRetired supersedeTimed
    rw [id] at retired
    exact retired.insert rfl rowTimed rfl fun g _ => notRival rfl
  | loses =>
    exact sound.insert rfl supersedeTimed rfl fun g _ => notRival rfl

theorem Ledger.Sound.superseded (sound : l.Sound) {survivor : Nat} {now : String} {l' : Ledger}
    (h : Superseded l request survivor now l') : l'.Sound := by
  cases h with
  | unasked => exact sound
  | retired asked apart mem id current kind calm =>
    have retired := sound.retire (h := Fact.supersede now survivor) mem (fun _ => rfl) calm
      supersedeRetired supersedeTimed
    rwa [id] at retired

/-! ### Typed writes -/

theorem inCurrent (sound : l.Sound) {f : Fact} (mem : f ∈ l.facts) (state : f.isState = true)
    (current : f.current = true) (slot : f.inSlot c.scope c.subjectKey c.predicateKey = true) :
    f ∈ l.currentIn c := by
  have endless : f.validTo = none := by
    cases ended : f.validTo with
    | none => rfl
    | some stop =>
      have := (sound.timed f mem).ended (by rw [ended]; rfl)
      rw [(currentValid current).1] at this
      cases this
  exact List.mem_filter.mpr ⟨mem, by simp [state, current, slot, endless]⟩

theorem currentInSource {f : Fact} (h : f ∈ l.currentIn c) :
    f ∈ l.facts ∧ f.isState = true ∧ f.current = true ∧
      f.inSlot c.scope c.subjectKey c.predicateKey = true := by
  obtain ⟨mem, hit⟩ := List.mem_filter.mp h
  simp only [Bool.and_eq_true] at hit
  exact ⟨mem, hit.1.1.1, hit.1.2, hit.1.1.2⟩

theorem inSlotRivals {f g : Fact} (states : f.isState = true ∧ g.isState = true)
    (current : f.current = true ∧ g.current = true)
    (left : f.inSlot c.scope c.subjectKey c.predicateKey = true)
    (right : g.inSlot c.scope c.subjectKey c.predicateKey = true) : Rivals f g := by
  simp only [Fact.inSlot, Bool.and_eq_true, decide_eq_true_eq] at left right
  exact ⟨states, current, left.1.1.trans right.1.1.symm, left.1.2.trans right.1.2.symm,
    left.2.trans right.2.symm⟩

theorem rivalInSlot {f g : Fact} (rivals : Rivals f g)
    (right : g.inSlot c.scope c.subjectKey c.predicateKey = true) :
    f.inSlot c.scope c.subjectKey c.predicateKey = true := by
  simp only [Fact.inSlot, Bool.and_eq_true, decide_eq_true_eq] at right ⊢
  exact ⟨⟨rivals.scope.trans right.1.1, rivals.subject.trans right.1.2⟩,
    rivals.predicate.trans right.2⟩

theorem calmSlot (calm : l.contested c = false) :
    (∀ f ∈ l.currentIn c, f.conflictGroup = none) ∧
      ∀ f ∈ l.currentIn c, ∀ g ∈ l.currentIn c, f = g := by
  simp only [Ledger.contested, Bool.or_eq_false_iff, decide_eq_false_iff_not, not_lt,
    List.any_eq_false, Option.isSome_iff_ne_none, ne_eq, Decidable.not_not] at calm
  obtain ⟨short, free⟩ := calm
  refine ⟨free, ?_⟩
  intro f hf g hg
  cases all : l.currentIn c with
  | nil =>
    rw [all] at hf
    cases hf
  | cons only rest =>
    have alone : rest = [] := by
      rw [all, List.length_cons] at short
      exact List.length_eq_zero_iff.mp (by omega)
    rw [all, alone] at hf hg
    exact (List.mem_singleton.mp hf).trans (List.mem_singleton.mp hg).symm

theorem contestedSlot (sound : l.Sound) (dispute : l.contested c = true) :
    ∃ k, (∃ f, f ∈ l.currentIn c) ∧ ∀ f ∈ l.currentIn c, f.conflictGroup = some k := by
  have share : ∀ f ∈ l.currentIn c, ∀ g ∈ l.currentIn c, f = g ∨
      ∃ k, f.conflictGroup = some k ∧ g.conflictGroup = some k := by
    intro f hf g hg
    obtain ⟨mem, state, current, slot⟩ := currentInSource hf
    obtain ⟨mem', state', current', slot'⟩ := currentInSource hg
    rcases sound.agree f mem g mem' (inSlotRivals ⟨state, state'⟩ ⟨current, current'⟩ slot slot') with
      same | shared
    · exact .inl (Table.uniqueEq sound.factIds mem mem' same)
    · exact .inr shared
  have someGroup : ∃ f ∈ l.currentIn c, ∃ k, f.conflictGroup = some k := by
    simp only [Ledger.contested, Bool.or_eq_true, decide_eq_true_eq, List.any_eq_true] at dispute
    rcases dispute with crowd | ⟨f, hf, grouped⟩
    · have distinct : (l.currentIn c).Nodup := by
        have unique : (l.facts.map Fact.factId).Nodup := sound.factIds
        exact (List.Nodup.of_map _ unique).filter _
      obtain ⟨f, g, rest, all⟩ : ∃ f g rest, l.currentIn c = f :: g :: rest := by
        cases all : l.currentIn c with
        | nil =>
          rw [all] at crowd
          simp at crowd
        | cons f rest =>
          cases rest with
          | nil =>
            rw [all] at crowd
            simp at crowd
          | cons g rest => exact ⟨f, g, rest, rfl⟩
      rw [all] at share distinct ⊢
      have apart : f ≠ g := by
        intro same
        simp [same] at distinct
      rcases share f List.mem_cons_self g (List.mem_cons_of_mem _ List.mem_cons_self) with
        same | ⟨k, group, -⟩
      · exact absurd same apart
      · exact ⟨f, List.mem_cons_self, k, group⟩
    · exact ⟨f, hf, Option.isSome_iff_exists.mp grouped⟩
  obtain ⟨f, hf, k, group⟩ := someGroup
  refine ⟨k, ⟨f, hf⟩, fun g hg => ?_⟩
  rcases share g hg f hf with same | ⟨k', other, here⟩
  · rw [same]
    exact group
  · rw [other, ← here, group]

theorem groupsOfMem {ids : List Nat} {k : Nat} :
    k ∈ l.groupsOf ids ↔ ∃ f ∈ l.facts, f.factId ∈ ids ∧ f.conflictGroup = some k := by
  simp only [Ledger.groupsOf, List.mem_dedup, List.mem_filterMap, List.mem_filter,
    List.contains_iff_mem]
  constructor
  · intro h
    obtain ⟨f, ⟨mem, inside⟩, group⟩ := h
    exact ⟨f, mem, inside, group⟩
  · intro h
    obtain ⟨f, mem, inside, group⟩ := h
    exact ⟨f, ⟨mem, inside⟩, group⟩

theorem overlappingSource {existing : Fact} {rest : List Fact}
    (meets : l.overlapping rt c = existing :: rest) :
    existing ∈ l.facts ∧ existing.isState = true ∧
      existing.inSlot c.scope c.subjectKey c.predicateKey = true ∧ existing.believed = true := by
  have inside : existing ∈ l.overlapping rt c := by
    rw [meets]
    exact List.mem_cons_self
  have believed := (List.mem_filter.mp inside).1
  obtain ⟨mem, hit⟩ := List.mem_filter.mp believed
  simp only [Bool.and_eq_true] at hit
  exact ⟨mem, hit.1.1, hit.1.2, hit.2⟩

theorem undisputedAgainst (sound : l.Sound) {existing : Fact} {rest : List Fact}
    (calm : l.contested c = false) (meets : l.overlapping rt c = existing :: rest) :
    existing.conflictGroup = none := by
  obtain ⟨mem, state, slot, believed⟩ := overlappingSource meets
  have timed := sound.timed existing mem
  cases group : existing.conflictGroup with
  | none => rfl
  | some k =>
    simp only [Fact.believed, Bool.and_eq_true, Option.isNone_iff_eq_none, Bool.or_eq_true] at believed
    obtain ⟨unexpired, valid | ended⟩ := believed
    · have unreplaced : existing.supersededBy = none := by
        cases replaced : existing.supersededBy with
        | none => rfl
        | some k =>
          have := timed.replaced (by rw [replaced]; rfl)
          rw [valid] at this
          cases this
      have current : existing.current = true := by simp [Fact.current, valid, unreplaced]
      exact group ▸ (calmSlot calm).1 existing (inCurrent sound mem state current slot)
    · have := timed.disputed (by rw [group]; rfl) ended
      rw [unexpired] at this
      cases this

section Typed
variable {effective : StateCandidate} {confidence : Option Rat} {group : Option Nat}

theorem typedSlot {factId : Nat} : (request.typed effective group confidence factId clock).inSlot
    effective.scope effective.subjectKey effective.predicateKey = true := by
  simp [WriteRequest.typed, Fact.persistState, Fact.inSlot]

theorem typedTimed {factId : Nat} (fits : group = none ∨ effective.validTo = none) :
    (request.typed effective group confidence factId clock).Timed where
  ended h := by
    simp only [WriteRequest.typed, Fact.persistState] at h ⊢
    rw [h]
    rfl
  replaced h := by cases h
  disputed h ended := by
    rcases fits with free | endless
    · rw [free] at h
      cases h
    · simp only [WriteRequest.typed, Fact.persistState, endless] at ended
      cases ended

theorem indexAlone {facts : List Fact} {f g : Fact}
    (free : ((facts ++ [g]).filterMap Fact.slotKey).Nodup) (mem : f ∈ facts) (rivals : Rivals f g)
    (calm : f.conflictGroup = none) (calm' : g.conflictGroup = none)
    (slot : g.inSlot c.scope c.subjectKey c.predicateKey = true) : False := by
  have left := rivalInSlot rivals slot
  simp only [Fact.inSlot, Bool.and_eq_true, decide_eq_true_eq] at left slot
  have key : f.slotKey = some (c.scope, c.subjectKey, c.predicateKey) := by
    simp [Fact.slotKey, left, rivals.states.1, rivals.current.1, calm]
  have key' : g.slotKey = some (c.scope, c.subjectKey, c.predicateKey) := by
    simp [Fact.slotKey, slot, rivals.states.2, rivals.current.2, calm']
  rw [List.filterMap_append, List.nodup_append] at free
  have apart := free.2.2 _ (List.mem_filterMap.mpr ⟨f, mem, key⟩) _
    (List.mem_filterMap.mpr ⟨g, List.mem_cons_self, key'⟩)
  exact apart rfl

theorem rivalsTogether (sound : l.Sound) {slot : SlotDecision} {conflictId : Nat} {g : Fact}
    (decided : SlotCase rt l effective slot)
    (action : slot.action = .conflict ∨ slot.action = .supersede)
    (one : l.groupsOf slot.currentFactIds = [conflictId])
    (inSlot : g.inSlot effective.scope effective.subjectKey effective.predicateKey = true) :
    ∀ f ∈ l.facts, Rivals f g → f.conflictGroup = some conflictId := by
  intro f mem rivals
  have here := inCurrent sound mem rivals.states.1 rivals.current.1 (rivalInSlot rivals inSlot)
  cases decided with
  | add calm add => simp [add] at action
  | dedup calm dedup => simp [dedup] at action
  | contested dispute ids =>
    obtain ⟨k, -, all⟩ := contestedSlot sound dispute
    have listed : k ∈ l.groupsOf slot.currentFactIds :=
      groupsOfMem.mpr ⟨f, mem, ids ▸ List.mem_map_of_mem here, all f here⟩
    rw [one] at listed
    rw [all f here, List.mem_singleton.mp listed]
  | @against existing rest calm novel meets ids =>
    have listed : conflictId ∈ l.groupsOf [existing.factId] := by
      rw [← ids, one]
      exact List.mem_cons_self
    obtain ⟨f', mem', id, group⟩ := groupsOfMem.mp listed
    have same := Table.uniqueEq sound.factIds mem' (overlappingSource meets).1
      (List.mem_singleton.mp id)
    rw [same, undisputedAgainst sound calm meets] at group
    cases group

theorem Ledger.Sound.joined (sound : l.Sound) {slot : SlotDecision} {conflictId : Nat}
    {row : Conflict} (decided : SlotCase rt l effective slot)
    (action : slot.action = .conflict ∨ slot.action = .supersede)
    (one : l.groupsOf slot.currentFactIds = [conflictId]) (mem : row ∈ l.conflicts)
    (id : row.conflictId = conflictId) (unresolved : row.resolvedAt = none)
    (fits : (request.typed effective (some conflictId) confidence l.nextFactId clock).inSlot
      row.scope row.subjectKey row.predicateKey = true) (endless : effective.validTo = none) :
    ((l.insert (request.typed effective (some conflictId) confidence l.nextFactId clock)).join
      ⟨conflictId, l.nextFactId⟩).Sound := by
  simp only [Fact.inSlot, Bool.and_eq_true, decide_eq_true_eq] at fits
  refine sound.admit rfl (typedTimed (.inr endless)) ⟨rfl, rfl, fun _ => ?_⟩ mem id unresolved
    ⟨fits.1.1.symm, fun _ => ⟨fits.1.2, fits.2⟩⟩
    (rivalsTogether sound decided action one typedSlot)
  simp [WriteRequest.typed, Fact.persistState, WriteRequest.row, endless]

theorem soleParty (sound : l.Sound) {slot : SlotDecision} (decided : SlotCase rt l effective slot)
    (action : slot.action = .conflict)
    (calm : l.groupsOf slot.currentFactIds = [])
    (members : ∀ factId ∈ slot.currentFactIds, ∃ f ∈ l.facts, f.factId = factId ∧ f.current = true) :
    ∃ existing ∈ l.currentIn effective, slot.currentFactIds = [existing.factId] ∧
      ∀ f ∈ l.currentIn effective, f = existing := by
  cases decided with
  | add _ add =>
    rw [action] at add
    cases add
  | dedup _ dedup =>
    rw [action] at dedup
    cases dedup
  | contested dispute ids =>
    obtain ⟨k, ⟨f, hf⟩, all⟩ := contestedSlot sound dispute
    have listed : k ∈ l.groupsOf slot.currentFactIds :=
      groupsOfMem.mpr ⟨f, (currentInSource hf).1, ids ▸ List.mem_map_of_mem hf, all f hf⟩
    rw [calm] at listed
    cases listed
  | @against existing rest quiet novel meets ids =>
    obtain ⟨mem, state, inSlot, -⟩ := overlappingSource meets
    obtain ⟨f, hf, id, current⟩ := members existing.factId (by rw [ids]; exact List.mem_cons_self)
    rw [Table.uniqueEq sound.factIds hf mem id] at current
    have here := inCurrent sound mem state current inSlot
    exact ⟨existing, here, ids, fun g hg => (calmSlot quiet).2 g hg existing here⟩

theorem Ledger.Sound.typed (sound : l.Sound) {context : ConnectionContext} {slot : SlotDecision}
    {l' : Ledger} (decided : SlotCase rt l effective slot)
    (effect : StateEffect rt l context request slot effective confidence clock l') : l'.Sound := by
  cases effect with
  | evidence => exact sound
  | add unknown quiet free =>
    have calm : l.contested effective = false := by
      cases decided with
      | add calm => exact calm
      | dedup calm => exact calm
      | contested _ _ action =>
        rcases action with ⟨action, -⟩ | action
        · exact absurd action quiet.1
        · exact absurd action quiet.2
      | against calm => exact calm
    refine sound.insert rfl (typedTimed (.inl rfl)) rfl fun f mem rivals => ?_
    have here := inCurrent sound mem rivals.states.1 rivals.current.1 (rivalInSlot rivals typedSlot)
    exact indexAlone free mem rivals ((calmSlot calm).1 f here) rfl typedSlot
  | @replace target f action aimed mem id inScope current calm free =>
    have quiet : l.contested effective = false := by
      cases decided with
      | add calm => exact calm
      | dedup calm => exact calm
      | contested _ _ action' restates =>
        rcases action' with ⟨-, wide⟩ | other
        · rw [aimed] at wide
          cases wide
        · rw [action] at other
          cases other
      | against calm => exact calm
    have retired := sound.retire (h := Fact.outdate clock.recordedAt effective.validFrom l.nextFactId)
      mem (fun _ => rfl) calm (by simp [Fact.outdate, Fact.close, Fact.current])
      ⟨fun _ => rfl, fun _ => rfl, fun disputed => by
        simp [Fact.outdate, Fact.close, calm] at disputed⟩
    rw [id] at retired
    refine retired.insert rfl (typedTimed (.inl rfl)) rfl fun g hg rivals => ?_
    obtain ⟨old, hold, rfl⟩ := Table.memAmend.mp hg
    by_cases hit : old.factId = target
    · rw [if_pos (decide_eq_true hit)] at rivals
      have := rivals.current.1
      simp [Fact.outdate, Fact.close, Fact.current] at this
    · rw [if_neg (by simpa using hit)] at rivals
      have here := inCurrent sound hold rivals.states.1 rivals.current.1
        (rivalInSlot rivals typedSlot)
      refine indexAlone free (Table.memAmend.mpr ⟨old, hold, ?_⟩) rivals
        ((calmSlot quiet).1 old here) rfl typedSlot
      rw [if_neg (by simpa using hit)]
  | @dispute detail action unknown calm nonempty distinct members fits endless =>
    obtain ⟨existing, here, ids, sole⟩ := soleParty sound decided action calm
      fun factId inside => by
        obtain ⟨f, hf, id, -, -, current, -⟩ := members factId inside
        exact ⟨f, hf, id, current⟩
    obtain ⟨mem, -⟩ := currentInSource here
    have party : ∀ f ∈ l.facts, f.factId ∈ slot.currentFactIds → f = existing := by
      intro f hf inside
      rw [ids] at inside
      exact Table.uniqueEq sound.factIds hf mem (List.mem_singleton.mp inside)
    have opened : (l.openConflict (.detected l.nextConflictId (Text.strip slot.scope)
        (Text.strip slot.subjectKey) (Text.strip slot.predicateKey) clock.recordedAt detail)
        slot.currentFactIds (Fact.dispute l.nextConflictId)).Sound := by
      refine sound.openConflict rfl rfl (fun _ => rfl)
        (fun f _ _ => ⟨f.subjectKey, f.predicateKey, rfl, fun _ => ⟨rfl, rfl⟩⟩)
        (fun factId inside => ?_) fun f hf inside g hg rivals => ?_
      · obtain ⟨f, hf, id, -, inSlot, current, free⟩ := members factId inside
        simp only [Fact.inSlot, Bool.and_eq_true, decide_eq_true_eq] at inSlot
        exact ⟨f, hf, id, current, free, inSlot.1.1.symm, fun _ => ⟨inSlot.1.2, inSlot.2⟩⟩
      · rw [party f hf inside] at rivals
        have inSlot := (currentInSource here).2.2.2
        rw [sole g (inCurrent sound hg rivals.states.2 rivals.current.2
          (rivalInSlot rivals.symm inSlot)), ids]
        exact List.mem_cons_self
    have covers := fits
    simp only [Fact.inSlot, Bool.and_eq_true, decide_eq_true_eq] at covers
    refine opened.admit rfl (typedTimed (.inr endless)) ⟨rfl, rfl, fun _ => ?_⟩
      (List.mem_append_right _ List.mem_cons_self) rfl rfl
      ⟨covers.1.1.symm, fun _ => ⟨covers.1.2, covers.2⟩⟩ fun f hf rivals => ?_
    · simp [WriteRequest.typed, Fact.persistState, WriteRequest.row, endless]
    · obtain ⟨old, hold, rfl⟩ := Table.memAmend.mp hf
      by_cases inside : old.factId ∈ slot.currentFactIds
      · rw [if_pos (by simpa using inside)]
        rfl
      · rw [if_neg (by simpa using inside)] at rivals
        have rival := sole old (inCurrent sound hold rivals.states.1 rivals.current.1
          (rivalInSlot rivals typedSlot))
        rw [rival, ids] at inside
        exact absurd List.mem_cons_self inside
  | join action unknown one mem id unresolved fits endless _ =>
    exact sound.joined decided (.inl action) one mem id unresolved fits endless
  | settle action one wide mem id unresolved fits endless fresh resolved =>
    have joined := sound.joined decided (.inr action) one mem id unresolved fits endless
    obtain ⟨row, w, resolves, -, -, rfl, -⟩ := resolveStateConflictSource joined.toKeyed resolved
    exact joined.resolve resolves

end Typed
end Writes
/-! ## Operations -/

section Operations
variable {svc : WriteService} {context effective : ConnectionContext} {s t : Store}

theorem WriteEffect.sound {clock : Clock} {request : WriteRequest} {candidate : Option StateCandidate}
    {extracted : Option ExtractedTypedFields} {query : Option (List Rat)} {l : Ledger}
    (sound : s.toLedger.Sound) (built : ∀ c ∈ candidate, c.postInit rt = .ok c)
    (valid : validateStateCandidate request candidate = .ok ())
    (effect : WriteEffect rt svc context clock s request candidate extracted query l) : l.Sound := by
  cases effect with
  | same => exact sound
  | untyped _ _ _ _ effect superseded => exact (sound.untyped effect).superseded superseded
  | @typed c slot effective' _ _ given judged effect =>
    subst given
    have constructed : c.postInit rt = .ok c := built c (Option.mem_some_self c)
    obtain ⟨-, -, -, -, -, -, decided⟩ := typedCase constructed valid judged
    exact sound.typed decided effect

theorem stepSound {timed : TimedWrite rt} {query : Option (List Rat)} {outcome : WriteOutcome}
    (authorized : svc.policy.authorizeContext rt svc.legacyAuthorized effective = .ok effective)
    (h : batchStep rt svc effective s (timed, query) = .ok (t, outcome)) (sound : s.toLedger.Sound) :
    t.toLedger.Sound := by
  obtain ⟨extracted, valid, fields, done⟩ := batchStepSource authorized h
  exact (transactEffect sound.toKeyed done).sound sound timed.item.candidateBuilt valid

theorem performSound {o : Operation rt} (kind : o.isMerge = false) (done : o.perform s = .ok t)
    (sound : s.toLedger.Sound) : t.toLedger.Sound := by
  cases o with
  | write svc context timed =>
    exact writeKeeps (P := fun s => s.toLedger.Sound) (fun authorized _ h => stepSound authorized h)
      meetsAlways done sound
  | writeBatch svc context writes rollbackIf completes =>
    exact batchKeeps (P := fun s => s.toLedger.Sound) (fun authorized _ h => stepSound authorized h)
      id meetsAlways done sound
  | resolveConflict svc context conflictId factId reason resolvedAt queuedAt =>
    simp only [Operation.perform, bindOk, Prod.exists] at done
    obtain ⟨effective, -, u, resolution, resolved, last⟩ := done
    cases last
    obtain ⟨clients, sessions, resolutions, jobs, l, settled, same⟩ := resolveConflictSource resolved
    obtain ⟨row, w, resolves, -, -, left, -⟩ := resolveStateConflictSource sound.toKeyed settled
    rw [same]
    change l.Sound
    rw [left]
    exact sound.resolve resolves
  | eraseFact factId requestedBy reason erasedAt =>
    simp only [Operation.perform, bindOk, Prod.exists] at done
    obtain ⟨u, report, erased, last⟩ := done
    cases last
    obtain ⟨insights, conflicts, linked, erased, -⟩ := eraseFactSource erased
    obtain ⟨cited, lonely, same, active, few⟩ := eraseLedgerSource sound.toKeyed erased
    rw [same]
    exact sound.erase active few
  | mergeClusters => cases kind
  | storeEmbedding =>
    cases done
    exact sound

theorem historySound {ops : List (Operation rt)} (kind : ∀ o ∈ ops, o.isMerge = false) :
    (history ops).toLedger.Sound :=
  Run.invariantOf (P := fun s => s.toLedger.Sound) (K := fun o => o.isMerge = false)
    (fun _ _ _ kind done sound => performSound kind done sound) kind soundEmpty

end Operations
/-! ## The conflict ledger -/

/-- Closed by an erasure that left one member at most, and elected nobody. -/
structure Conflict.Abandoned (row : Conflict) (members : List Member) : Prop where
  winnerless : row.resolutionFactId = none
  reason : row.resolutionReason = some "privacy erasure removed a conflict member"
  few : (members.filter (·.conflictId = row.conflictId)).length ≤ 1

/-- Every disputed current fact is filed under a conflict that is open, or was abandoned; every
party of an open one is filed on its fact. -/
structure Ledger.DisputesFiled (l : Ledger) : Prop where
  facts : ∀ f ∈ l.facts, f.current = true → ∀ c, f.conflictGroup = some c →
    ∃ row ∈ l.conflicts, row.conflictId = c ∧ row.Covers f ∧
      (row.resolvedAt = none ∨ row.Abandoned l.members) ∧ ⟨c, f.factId⟩ ∈ l.members
  members : ∀ row ∈ l.conflicts, row.resolvedAt = none → ∀ m ∈ l.members,
    m.conflictId = row.conflictId → ∃ f ∈ l.facts, f.factId = m.factId ∧ f.Party row.conflictId

/-- The stricter reading: a disputed current fact is in an open conflict, and every party of an
open conflict is current. -/
structure Ledger.DisputesOpen (l : Ledger) : Prop where
  facts : ∀ f ∈ l.facts, f.current = true → ∀ c, f.conflictGroup = some c →
    ∃ row ∈ l.conflicts, row.conflictId = c ∧ row.Covers f ∧ row.resolvedAt = none ∧
      ⟨c, f.factId⟩ ∈ l.members
  members : ∀ row ∈ l.conflicts, row.resolvedAt = none → ∀ m ∈ l.members,
    m.conflictId = row.conflictId → ∃ f ∈ l.facts, f.factId = m.factId ∧ f.current = true ∧
      f.conflictGroup = some row.conflictId

theorem disputesFiled {ops : List (Operation rt)} (kind : ∀ o ∈ ops, o.isMerge = false) :
    (history ops).toLedger.DisputesFiled := by
  have sound := historySound kind
  refine ⟨fun f mem current c group => ?_, sound.parties⟩
  obtain ⟨⟨row, hr, id, undecided, covers⟩, member⟩ := sound.filed f mem current c group
  refine ⟨row, hr, id, covers, ?_, member⟩
  cases closed : row.resolvedAt with
  | none => exact .inl rfl
  | some at' =>
    rcases undecided with unresolved | ⟨winnerless, reason⟩
    · rw [closed] at unresolved
      cases unresolved
    · have few := sound.solitary row hr (by rw [closed]; exact Option.some_ne_none _) winnerless
      exact .inr ⟨winnerless, reason, few⟩

namespace Example

def trusted : WriteService := .ofPolicy ⟨[("host", ["private"])], [], [], []⟩
def caller : ConnectionContext := .plain "host" "cli" "agent" "session" ["private"]

/-- The trusted service with a search of its own: every text embeds alike. -/
def searching : WriteService :=
  { trusted with nearDedup := .standard (some "m"), queryEmbedder := some fun _ => .ok [1] }

def claim (key content : String) (target : Option Nat)
    (built : ({ WriteRequest.plain key content "user" with supersedeFactId := target } :
      WriteRequest).postInit =
        .ok { WriteRequest.plain key content "user" with supersedeFactId := target }) :
    TimedWrite .plain where
  clock := .at "2026-01-03"
  item := {
    request := { WriteRequest.plain key content "user" with supersedeFactId := target }
    candidate := none
    requestBuilt := built
    candidateBuilt := WriteItem.unslotted }

theorem catClaimed : ({ WriteRequest.plain "k1" "the cat sat on the mat" "user" with supersedeFactId := none } :
    WriteRequest).postInit =
      .ok { WriteRequest.plain "k1" "the cat sat on the mat" "user" with supersedeFactId := none } := by
  decide +kernel

theorem matClaimed : ({ WriteRequest.plain "k1" "a cat sat on the mat" "user" with supersedeFactId := none } :
    WriteRequest).postInit =
      .ok { WriteRequest.plain "k1" "a cat sat on the mat" "user" with supersedeFactId := none } := by
  decide +kernel

def strongerCat : TimedWrite .plain where
  clock := .at "2026-01-03"
  item := {
    request := { WriteRequest.plain "k2" "the cat sat on the mat" "user" with
      sourceAuthority := 3 / 5
      trustScore := 3 / 5 }
    candidate := none
    requestBuilt := by decide +kernel
    candidateBuilt := WriteItem.unslotted }

theorem limaBuilt : ({ WriteRequest.plain "k1" "Alex is in Lima" "user" with sourceAuthority := 4 / 5 } :
    WriteRequest).postInit =
      .ok { WriteRequest.plain "k1" "Alex is in Lima" "user" with sourceAuthority := 4 / 5 } := by
  decide +kernel

theorem osloBuilt : ({ WriteRequest.plain "k2" "Alex is in Oslo" "user" with sourceAuthority := 4 / 5 } :
    WriteRequest).postInit =
      .ok { WriteRequest.plain "k2" "Alex is in Oslo" "user" with sourceAuthority := 4 / 5 } := by
  decide +kernel

def lima : TimedWrite .plain where
  clock := .at "2026-01-03"
  item := {
    request := { WriteRequest.plain "k1" "Alex is in Lima" "user" with sourceAuthority := 4 / 5 }
    candidate := some ⟨"Alex is in Lima", "person:alex", "timezone", some "Lima", 4 / 5,
      some "2026-01-01", "state", "private", none⟩
    requestBuilt := limaBuilt
    candidateBuilt := by decide +kernel }

def oslo : TimedWrite .plain where
  clock := .at "2026-01-03"
  item := {
    request := { WriteRequest.plain "k2" "Alex is in Oslo" "user" with sourceAuthority := 1 / 5 }
    candidate := some ⟨"Alex is in Oslo", "person:alex", "timezone", some "Oslo", 1 / 5,
      some "2026-01-02", "state", "private", none⟩
    requestBuilt := by decide +kernel
    candidateBuilt := by decide +kernel }

def erasedDispute : List (Operation .plain) :=
  [.write trusted caller lima, .write trusted caller oslo,
    .eraseFact 2 "avery" "remove bad source" "2026-01-04"]

theorem disputesFiledHere : (history erasedDispute).toLedger.DisputesFiled :=
  disputesFiled (by decide)

/-- The survivor stays in its group although the conflict is closed. -/
theorem survivorUnelected : ¬ (history erasedDispute).toLedger.DisputesOpen := by
  intro strict
  have stuck : ∃ f ∈ (history erasedDispute).facts, f.current = true ∧ f.conflictGroup = some 1 := by
    decide +kernel
  have closed : ∀ row ∈ (history erasedDispute).conflicts, row.resolvedAt ≠ none := by
    decide +kernel
  obtain ⟨f, mem, current, group⟩ := stuck
  obtain ⟨row, hr, -, -, unresolved, -⟩ := strict.facts f mem current 1 group
  exact closed row hr unresolved

end Example
end Enfold
