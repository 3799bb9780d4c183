import Enfold.TypedAnswers

/-! Which claims a decision lets win: against every fact it supersedes the candidate must not be the
demonstrably older one, and at equal authority it must be the newer one. -/
namespace Enfold

open Fallible

def boundTime (rt : Runtime) (bound : Option String) : Option Int := (parseTimestamp rt bound).toOption.join

def StateCandidate.NotOlder (rt : Runtime) (c : StateCandidate) (f : Fact) : Prop :=
  ∀ old, boundTime rt f.validFrom = some old → ∃ new, boundTime rt c.validFrom = some new ∧ old ≤ new

/-- The candidate is dated, and later than whatever date the fact has. -/
def StateCandidate.Newer (rt : Runtime) (c : StateCandidate) (f : Fact) : Prop :=
  ∃ new, boundTime rt c.validFrom = some new ∧ ∀ old, boundTime rt f.validFrom = some old → old < new

/-- A superseding decision overrules no fact the candidate is older than. -/
def RespectsAge (rt : Runtime) (l : Ledger) (c : StateCandidate) (d : SlotDecision) : Prop :=
  d.action = .supersede → ∀ f ∈ l.facts, f.factId ∈ d.currentFactIds →
    c.NotOlder rt f ∧ (c.sourceAuthority = f.authority → c.Newer rt f)

/-- An open conflict whose members all have less authority than the candidate, and one of them is dated
later than it. -/
def OverrulesNewer (rt : Runtime) (l : Ledger) (c : StateCandidate) : Prop :=
  c.memoryKind = "state" ∧ l.contested c = true ∧ (∀ f ∈ l.currentIn c, f.authority < c.sourceAuthority) ∧
    ∃ f ∈ l.currentIn c, ¬ c.NotOlder rt f

section Ages
variable {rt : Runtime} {l : Ledger} {c : StateCandidate} {d : SlotDecision} {f : Fact}

theorem boundParsed {bound : Option String} {time : Option Int} (parsed : parseTimestamp rt bound = .ok time) :
    boundTime rt bound = time := by
  rw [boundTime, parsed]
  rfl

theorem outdatesIff {time : Int} {existing : Option Int} (dated : boundTime rt c.validFrom = some time)
    (held : boundTime rt f.validFrom = existing) : c.outdates time f existing = true ↔
      (f.authority < c.sourceAuthority ∧ c.NotOlder rt f) ∨ (c.sourceAuthority = f.authority ∧ c.Newer rt f) := by
  have notOlder : c.NotOlder rt f ↔ (existing.isNone || existing.any (· ≤ time)) = true := by
    cases existing with
    | none => simp [StateCandidate.NotOlder, held]
    | some old => simp [StateCandidate.NotOlder, held, dated]
  have newer : c.Newer rt f ↔ (existing.isNone || existing.any (· < time)) = true := by
    cases existing with
    | none => simp [StateCandidate.Newer, held, dated]
    | some old => simp [StateCandidate.Newer, held, dated]
  rw [notOlder, newer]
  simp [StateCandidate.outdates]

theorem newerNotOlder (newer : c.Newer rt f) : c.NotOlder rt f := by
  obtain ⟨new, dated, later⟩ := newer
  exact fun old held => ⟨new, dated, le_of_lt (later old held)⟩

theorem againstAge {existing : Fact} (h : decideAgainst rt c existing = .ok d) (supersedes : d.action = .supersede) :
    c.NotOlder rt existing ∧ (c.sourceAuthority = existing.authority → c.Newer rt existing) := by
  simp only [decideAgainst, bindOk] at h
  obtain ⟨time, parsed, held, parsed', h⟩ := h
  have dated := boundParsed parsed
  have old := boundParsed parsed'
  rcases branchOk h with ⟨wins, -⟩ | ⟨-, h⟩
  · simp only [Bool.and_eq_true, decide_eq_true_eq] at wins
    refine ⟨fun at' here => ?_, fun equal => absurd equal (ne_of_gt wins.1)⟩
    rw [old] at here
    subst here
    cases time with
    | none => simp at wins
    | some new => exact ⟨new, dated, by simpa using wins.2⟩
  · rcases branchOk h with ⟨wins, -⟩ | ⟨-, last⟩
    · simp only [Bool.and_eq_true, decide_eq_true_eq] at wins
      have newer : c.Newer rt existing := by
        cases time with
        | none => simp at wins
        | some new =>
          refine ⟨new, dated, fun at' here => ?_⟩
          rw [old] at here
          subst here
          simpa using wins.2
      exact ⟨newerNotOlder newer, fun _ => newer⟩
    · cases last
      cases supersedes

theorem contestedAge {current : List Fact} {exact : Option Fact}
    (h : decideContested rt c current exact = .ok d) :
    (d.action = .supersede ∧ ∀ f ∈ current, (f.authority < c.sourceAuthority ∧ c.NotOlder rt f) ∨
        (c.sourceAuthority = f.authority ∧ c.Newer rt f)) ∨
      (d.action = .supersede ∧ ∀ f ∈ current, f.authority < c.sourceAuthority) ∨
      (d.action = .conflict ∧ ¬ ∀ f ∈ current, f.authority < c.sourceAuthority) := by
  simp only [decideContested, bindOk] at h
  obtain ⟨time, parsed, times, all, h⟩ := h
  have dates : times = current.map fun f => boundTime rt f.validFrom := by
    have viewed := mapMView (g := id) (h := fun f : Fact => boundTime rt f.validFrom)
      (fun f time here => (boundParsed here).symm) all
    rwa [List.map_id] at viewed
  rcases branchOk h with ⟨wins, last⟩ | ⟨-, h⟩
  · cases last
    refine .inl ⟨rfl, fun f hf => ?_⟩
    cases time with
    | none => cases wins
    | some new =>
      simp only [dates, ← List.map_prod_left_eq_zip, List.all_map] at wins
      exact (outdatesIff (boundParsed parsed) rfl).mp (List.all_eq_true.mp wins f hf)
  · rcases branchOk h with ⟨outranks, last⟩ | ⟨kept, last⟩
    · cases last
      exact .inr (.inl ⟨rfl, by simpa using outranks⟩)
    · cases last
      exact .inr (.inr ⟨rfl, by simpa using kept⟩)

theorem contestedRespects (keyed : Table.Unique Fact.factId l.facts) (kind : c.memoryKind = "state")
    (dispute : l.contested c = true) {exact : Option Fact}
    (h : decideContested rt c (l.currentIn c) exact = .ok d) :
    RespectsAge rt l c d ↔ ¬ OverrulesNewer rt l c := by
  have ids : d.currentFactIds = (l.currentIn c).map Fact.factId := (decideContestedSource h).2.1
  have member {f : Fact} (hf : f ∈ l.facts) (named : f.factId ∈ d.currentFactIds) : f ∈ l.currentIn c := by
    rw [ids] at named
    obtain ⟨g, hg, same⟩ := List.mem_map.mp named
    rwa [Table.uniqueEq keyed hf (List.mem_of_mem_filter hg) same.symm]
  rcases contestedAge h with ⟨supersedes, wins⟩ | ⟨supersedes, outranks⟩ | ⟨conflict, kept⟩
  · refine iff_of_true (fun _ f hf named => ?_) ?_
    · rcases wins f (member hf named) with ⟨more, notOlder⟩ | ⟨-, newer⟩
      · exact ⟨notOlder, fun equal => absurd equal (ne_of_gt more)⟩
      · exact ⟨newerNotOlder newer, fun _ => newer⟩
    · rintro ⟨-, -, -, f, hf, older⟩
      rcases wins f hf with ⟨-, notOlder⟩ | ⟨-, newer⟩
      · exact older notOlder
      · exact older (newerNotOlder newer)
  · constructor
    · rintro respects ⟨-, -, -, f, hf, older⟩
      have named : f.factId ∈ d.currentFactIds := ids ▸ List.mem_map_of_mem hf
      exact older (respects supersedes f (List.mem_of_mem_filter hf) named).1
    · intro safe _ f hf named
      have inside := member hf named
      refine ⟨?_, fun equal => absurd equal (ne_of_gt (outranks f inside))⟩
      by_contra older
      exact safe ⟨kind, dispute, outranks, f, inside, older⟩
  · refine iff_of_true (fun supersedes => ?_) ?_
    · rw [conflict] at supersedes
      cases supersedes
    · rintro ⟨-, -, outranks, -⟩
      exact kept outranks

end Ages

/-- A decision supersedes a fact the candidate is older than in one case only: an open conflict whose
members all have less authority. -/
theorem supersessionAge {rt : Runtime} {l : Ledger} {c : StateCandidate} {d : SlotDecision}
    (keyed : Table.Unique Fact.factId l.facts) (built : c.postInit rt = .ok c)
    (h : decideStateWrite rt l c = .ok d) : RespectsAge rt l c d ↔ ¬ OverrulesNewer rt l c := by
  by_cases kind : c.memoryKind = "state"
  · have calmly (calm : l.contested c = false) : ¬ OverrulesNewer rt l c := by
      rintro ⟨-, dispute, -⟩
      rw [calm] at dispute
      cases dispute
    cases decideSource ((builtCandidate built).2.2.2 rfl) kind h with
    | free vacant clear => exact iff_of_true (by rintro ⟨⟩) (calmly (contestedHolds vacant))
    | contested dispute done => exact contestedRespects keyed kind dispute done
    | restated calm known => exact iff_of_true (by rintro ⟨⟩) (calmly calm)
    | apart calm held novel clear => exact iff_of_true (by rintro ⟨⟩) (calmly calm)
    | @against existing rest _ calm novel meets done =>
      refine iff_of_true (fun supersedes f hf named => ?_) (calmly calm)
      have inside : existing ∈ l.facts := by
        have listed : existing ∈ l.overlapping rt c := meets ▸ List.mem_cons_self
        exact List.mem_of_mem_filter (List.mem_of_mem_filter listed)
      rw [(decideAgainstSource done).2.1, List.mem_singleton] at named
      rw [Table.uniqueEq keyed hf inside named]
      exact againstAge done supersedes
  · have coexist : decideStateWrite rt l c = .ok (c.decided .add [] none "non-state memories coexist") := by
      rw [decideStateWrite, if_pos kind]
    rw [coexist] at h
    cases h
    exact iff_of_true (by rintro ⟨⟩) fun overrules => kind overrules.1

namespace Example

def disputedCity : Ledger := (history [.write trusted caller lima, .write trusted caller oslo]).toLedger

def december : StateCandidate :=
  ⟨"Alex is in Rome", "person:alex", "timezone", some "Rome", 1, some "2025-12-01", "state", "private", none⟩

def february : StateCandidate := { december with validFrom := some "2026-02-01" }

def overruled (c : StateCandidate) (reason : String) : SlotDecision :=
  c.decided .supersede (disputedCity.currentIn c |>.map Fact.factId) none reason

theorem decemberWins : december.postInit .plain = .ok december ∧ ∃ d,
    decideStateWrite .plain disputedCity december = .ok d ∧ ¬ RespectsAge .plain disputedCity december d := by
  refine ⟨okOfOption (by decide +kernel),
    overruled december "higher authority resolves open conflict", okOfOption (by decide +kernel), ?_⟩
  intro respects
  obtain ⟨f, hf, named, dated⟩ : ∃ f ∈ disputedCity.facts,
      f.factId ∈ (overruled december "higher authority resolves open conflict").currentFactIds ∧
        f.validFrom = some "2026-01-02" := by
    decide +kernel
  have times : (boundTime .plain december.validFrom).any (fun new =>
      (boundTime .plain (some "2026-01-02")).any (new < ·)) = true := by
    decide +kernel
  obtain ⟨new, begins, later⟩ := (Option.any_eq_true _ _).mp times
  obtain ⟨old, began, later⟩ := (Option.any_eq_true _ _).mp later
  obtain ⟨instant, same, notOlder⟩ := (respects rfl f hf named).1 old (dated ▸ began)
  cases begins.symm.trans same
  exact absurd notOlder (not_le.mpr (of_decide_eq_true later))

theorem februaryWins : ∃ d, decideStateWrite .plain disputedCity february = .ok d ∧ d.action = .supersede ∧
    (RespectsAge .plain disputedCity february d ↔ ¬ OverrulesNewer .plain disputedCity february) := by
  have decided : decideStateWrite .plain disputedCity february =
      .ok (overruled february "dated claim supersedes every open conflict member") :=
    okOfOption (by decide +kernel)
  exact ⟨_, decided, rfl, supersessionAge historyKeyed.factIds (okOfOption (by decide +kernel)) decided⟩

end Example
end Enfold
