import Enfold.MergeProtection
import Enfold.UntypedTotality
import Enfold.ValidTime

/-! What a write may retire. Each path on which a write supersedes a fact has its own guard: the policy before an
explicit or a typed supersession, the protection of a near duplicate, and for the members of a conflict the
slot they were found in. -/
namespace Enfold

open Fallible

variable {rt : Runtime}

/-- The fact may give way to a claim of the authority: a human made it, or neither the fact's review nor its own
authority stands against it. -/
def Fact.YieldsTo (f : Fact) (human : Bool) (authority : Rat) : Prop :=
  f.humanReviewed = true ∨ authority < f.authority → human = true

/-- The first fact was retired for the second one on the way from one ledger to the other. -/
structure Ledger.Replaces (l l' : Ledger) (f g : Fact) : Prop where
  mem : f ∈ l'.facts
  other : g ∈ l'.facts
  named : f.supersededBy = some g.factId
  fresh : ∀ old ∈ l.facts, old.factId = f.factId → old.supersededBy ≠ some g.factId

/-- Whether a human made the claim that took the place of the fact. A stored fact is retired for the claim of
the write, the write's own row for that of a stored fact. -/
def Ledger.humanClaim (l : Ledger) (request : WriteRequest) (f g : Fact) : Bool :=
  if f.factId = l.nextFactId then g.humanReviewed else request.claimsCorrection

def Ledger.Protects (l l' : Ledger) (request : WriteRequest) : Prop :=
  ∀ f g, l.Replaces l' f g → f.YieldsTo (l.humanClaim request f g) g.authority

/-- What was found keeps the protection: no stored duplicate of less authority stands in for the claim, a near
duplicate that has no authority is not beaten by a claim of less than the default, and one that wins over the
claim weighs at least as much. -/
def UntypedMatch.Safe (l : Ledger) (request : WriteRequest) (recordedAt : String) : UntypedMatch → Prop
  | .duplicate factId => ∀ old ∈ request.supersedeFactId, ∀ f ∈ l.facts, f.factId = old →
      ∀ g ∈ l.facts, g.factId = factId → request.claimsCorrection = true ∨ f.authority ≤ g.authority
  | .nearDuplicate near => ∀ f ∈ l.facts, f.factId = near.factId →
      if !f.protectedFrom request && near.outrankedBy request recordedAt then
        f.sourceAuthority = none → request.claimsCorrection = true ∨ 1 / 2 ≤ request.sourceAuthority
      else
        f.humanReviewed = true ∨ (request.row l.nextFactId recordedAt).humanReviewed = false ∧
          request.sourceAuthority ≤ f.authority
  | _ => True

/-- A claim that settles a conflict is a human's, or no member outside the facts the decision read is protected
from it. -/
def SlotDecision.Safe (l : Ledger) (request : WriteRequest) (authority : Rat) (slot : SlotDecision) : Prop :=
  slot.action = .supersede → slot.targetFactId = none → request.claimsCorrection = true ∨
    ∀ conflictId, l.groupsOf slot.currentFactIds = [conflictId] →
      ∀ f ∈ l.facts, ⟨conflictId, f.factId⟩ ∈ l.members → f.conflictGroup = some conflictId → f.invalidAt = none →
        f.factId ∉ slot.currentFactIds → f.humanReviewed = false ∧ f.authority ≤ authority

/-- The write is a replay, or what it was found to be keeps the protection. -/
def WriteSafe (rt : Runtime) (svc : WriteService) (context : ConnectionContext) (clock : Clock) (s : Store)
    (request : WriteRequest) (candidate : Option StateCandidate) (extracted : Option ExtractedTypedFields)
    (query : Option (List Rat)) : Prop :=
  loadPrior s context.clientId request.idempotencyKey = none →
    (verdict rt svc.policy context s.toLedger request candidate = .ok .untyped →
      (untypedMatch rt svc s request extracted query).Safe s.toLedger request clock.recordedAt) ∧
    ∀ slot effective, verdict rt svc.policy context s.toLedger request candidate = .ok (.typed slot effective) →
      slot.Safe s.toLedger request effective.sourceAuthority

structure Fact.Alike (f g : Fact) : Prop where
  factId : g.factId = f.factId
  review : g.humanReviewed = f.humanReviewed
  authority : g.authority = f.authority

theorem Fact.Alike.yields {f g : Fact} (alike : f.Alike g) {human : Bool} {authority : Rat} :
    g.YieldsTo human authority ↔ f.YieldsTo human authority := by
  rw [Fact.YieldsTo, Fact.YieldsTo, alike.review, alike.authority]

/-! ## What a change retires -/

section Changes
variable {l l' : Ledger} {request : WriteRequest} {clock : Clock}

theorem protectsNone
    (settled : ∀ f ∈ l'.facts, ∀ k, f.supersededBy = some k →
      ∃ old ∈ l.facts, old.factId = f.factId ∧ old.supersededBy = some k) :
    l.Protects l' request := by
  intro f g replaced
  obtain ⟨old, hold, id, already⟩ := settled f replaced.mem _ replaced.named
  exact absurd already (replaced.fresh old hold id)

theorem protectsRetired {g : Fact} {P : Fact → Prop} (keyed : l.Keyed) (keyed' : l'.Keyed) (mem : g ∈ l'.facts)
    (back : ∀ f' ∈ l'.facts, ∀ k, f'.supersededBy = some k →
      (∃ old ∈ l.facts, old.factId = f'.factId ∧ old.supersededBy = some k) ∨
        k = g.factId ∧ ∃ f ∈ l.facts, P f ∧ f.Alike f')
    (forth : ∀ f ∈ l.facts, P f → f.supersededBy ≠ some g.factId ∧
      ∃ f' ∈ l'.facts, f.Alike f' ∧ f'.supersededBy = some g.factId) :
    l.Protects l' request ↔ ∀ f ∈ l.facts, P f → f.YieldsTo request.claimsCorrection g.authority := by
  have stored {f f' g' : Fact} (hf : f ∈ l.facts) (alike : f.Alike f') :
      l.humanClaim request f' g' = request.claimsCorrection := by
    have below := keyed.factBound f hf
    rw [← alike.factId] at below
    exact if_neg (Nat.ne_of_lt below)
  constructor
  · intro protects f hf gone
    obtain ⟨unlike, f', hf', alike, named⟩ := forth f hf gone
    have replaced : l.Replaces l' f' g := by
      refine ⟨hf', mem, named, fun old hold id => ?_⟩
      rw [Table.uniqueEq keyed.factIds hold hf (id.trans alike.factId)]
      exact unlike
    have yields := protects f' g replaced
    rw [stored hf alike] at yields
    exact alike.yields.mp yields
  · intro yields f' g' replaced
    rcases back f' replaced.mem _ replaced.named with ⟨old, hold, id, already⟩ | ⟨same, f, hf, gone, alike⟩
    · exact absurd already (replaced.fresh old hold id)
    · rw [Table.uniqueEq keyed'.factIds replaced.other mem same, stored hf alike]
      exact alike.yields.mpr (yields f hf gone)

theorem protectsOne {f g : Fact} {h : Fact → Fact} {r : List Fact} (keyed : l.Keyed) (keyed' : l'.Keyed)
    (mem : f ∈ l.facts) (current : f.supersededBy = none) (alike : f.Alike (h f))
    (named : (h f).supersededBy = some g.factId) (hg : g ∈ l'.facts)
    (facts : l'.facts = Table.amend (fun row => row.factId = f.factId) h l.facts ++ r)
    (open' : ∀ row ∈ r, row.supersededBy = none) :
    l.Protects l' request ↔ f.YieldsTo request.claimsCorrection g.authority := by
  rw [protectsRetired (P := (· = f)) keyed keyed' hg]
  · exact ⟨fun all => all f mem rfl, fun yields _ _ same => same ▸ yields⟩
  · intro f' hf' k gone
    rw [facts] at hf'
    rcases List.mem_append.mp hf' with amended | new
    · obtain ⟨old, hold, rfl⟩ := Table.memAmend.mp amended
      split at gone
      · rename_i hit
        obtain rfl := Table.uniqueEq keyed.factIds hold mem (of_decide_eq_true hit)
        rw [if_pos hit]
        rw [named] at gone
        exact .inr ⟨(Option.some.inj gone).symm, old, hold, rfl, alike⟩
      · rename_i missed
        rw [if_neg missed]
        exact .inl ⟨old, hold, rfl, gone⟩
    · rw [open' f' new] at gone
      cases gone
  · rintro row hrow rfl
    refine ⟨?_, h row, ?_, alike, named⟩
    · rw [current]
      exact (Option.some_ne_none _).symm
    · rw [facts]
      exact List.mem_append_left _ (Table.memAmend.mpr ⟨row, hrow, by simp⟩)

theorem protectsNew {f g : Fact} (keyed : l.Keyed) (mem : f ∈ l.facts) (next : g.factId = l.nextFactId)
    (named : g.supersededBy = some f.factId) :
    l.Protects (l.insert g) request ↔ g.YieldsTo f.humanReviewed f.authority := by
  have below := keyed.factBound f mem
  have claim {h : Fact} : l.humanClaim request g h = h.humanReviewed := if_pos next
  constructor
  · intro protects
    have replaced : l.Replaces (l.insert g) g f := by
      refine ⟨List.mem_concat_self, List.mem_append_left _ mem, named, fun old hold id => ?_⟩
      have bound := keyed.factBound old hold
      omega
    have yields := protects g f replaced
    rwa [claim] at yields
  · intro yields f' g' replaced
    rcases List.mem_append.mp replaced.mem with old | new
    · exact absurd replaced.named (replaced.fresh f' old rfl)
    · obtain rfl := List.mem_singleton.mp new
      have id : g'.factId = f.factId := Option.some.inj (replaced.named.symm.trans named)
      have same : g' = f := by
        rcases List.mem_append.mp replaced.other with old | new
        · exact Table.uniqueEq keyed.factIds old mem id
        · rw [List.mem_singleton.mp new] at id
          omega
      rw [same, claim]
      exact yields

theorem yieldsUnreviewed {f : Fact} {human : Bool} {authority : Rat} (plain : f.humanReviewed = false) :
    f.YieldsTo human authority ↔ human = true ∨ f.authority ≤ authority := by
  rw [Fact.YieldsTo, plain]
  constructor
  · intro yields
    rcases lt_or_ge authority f.authority with below | reaches
    · exact .inl (yields (.inr below))
    · exact .inr reaches
  · rintro (human | reaches) (reviewed | below)
    · cases reviewed
    · exact human
    · cases reviewed
    · exact absurd below (not_lt.mpr reaches)

end Changes

section Untyped
variable {l l' : Ledger} {request : WriteRequest} {extracted : Option ExtractedTypedFields} {clock : Clock}
  {found : UntypedMatch} {result : FactWriteResult}

theorem untypedProtects (keyed : l.Keyed) (unasked : request.supersedeFactId = none)
    (effect : UntypedEffect l request extracted clock found l' result) :
    l.Protects l' request ↔ found.Safe l request clock.recordedAt := by
  have keyed' : l'.Keyed := effect.keyed keyed
  cases effect with
  | duplicate =>
    refine iff_of_true (protectsNone fun f hf k named => ⟨f, hf, rfl, named⟩) fun old asked => ?_
    rw [unasked] at asked
    cases asked
  | fresh =>
    refine iff_of_true (protectsNone fun f hf k named => ?_) trivial
    rcases List.mem_append.mp hf with old | new
    · exact ⟨f, old, rfl, named⟩
    · rw [List.mem_singleton.mp new, (storedDates _ _ _ _).2.1] at named
      cases named
  | dispute opened =>
    refine iff_of_true (protectsNone fun f hf k named => ?_) trivial
    obtain ⟨-, subject, predicate, detail, g, -, -, -, -, -, -, rfl⟩ := opened
    rcases List.mem_append.mp hf with amended | new
    · obtain ⟨old, hold, rfl⟩ := Table.memAmend.mp amended
      split at named
      · rename_i hit
        rw [if_pos hit]
        exact ⟨old, hold, rfl, named⟩
      · rename_i missed
        rw [if_neg missed]
        exact ⟨old, hold, rfl, named⟩
    · rw [List.mem_singleton.mp new] at named
      cases named
  | @wins near f mem id here open' ahead =>
    have plain : f.humanReviewed = false := by
      simp only [Fact.protectedFrom, Bool.or_eq_false_iff] at open'
      simp [Fact.humanReviewed, open'.1.1.2, open'.1.2]
    have reached : f.sourceAuthority.getD 0 ≤ request.sourceAuthority := by
      simp only [Fact.protectedFrom, Bool.or_eq_false_iff, decide_eq_false_iff_not, not_lt] at open'
      exact open'.2
    have current : f.supersededBy = none := by
      simp only [Fact.openIn, Fact.current, Bool.and_eq_true, Option.isNone_iff_eq_none] at here
      exact here.1.2.2
    rw [protectsOne (f := f) (g := request.row l.nextFactId clock.insertedAt)
      (h := Fact.supersede clock.recordedAt l.nextFactId) (r := [request.row l.nextFactId clock.insertedAt])
      keyed keyed' mem current ⟨rfl, rfl, rfl⟩ rfl List.mem_concat_self (by rw [id]; rfl) (by simp [WriteRequest.row]),
      yieldsUnreviewed plain]
    have only : UntypedMatch.Safe l request clock.recordedAt (.nearDuplicate near) ↔
        (f.sourceAuthority = none → request.claimsCorrection = true ∨ 1 / 2 ≤ request.sourceAuthority) := by
      constructor
      · intro safe
        have safe := safe f mem id
        rwa [open', ahead] at safe
      · intro safe g hg gid
        rw [Table.uniqueEq keyed.factIds hg mem (gid.trans id.symm), open', ahead]
        exact safe
    rw [only]
    show _ ∨ f.authority ≤ request.sourceAuthority ↔ _
    cases authority : f.sourceAuthority with
    | none => simp [Fact.authority, authority]
    | some a =>
      rw [authority] at reached
      simp only [Fact.authority, authority, Option.getD_some, reduceCtorEq, false_implies, iff_true]
      exact .inr reached
  | @loses near f mem id here behind =>
    rw [protectsNew keyed mem rfl (by rw [← id]; rfl)]
    have lost : (!f.protectedFrom request && near.outrankedBy request clock.recordedAt) = false := by
      rcases behind with guarded | outranking
      · rw [guarded]
        rfl
      · rw [outranking, Bool.and_false]
    have only : UntypedMatch.Safe l request clock.recordedAt (.nearDuplicate near) ↔
        f.humanReviewed = true ∨ (request.row l.nextFactId clock.recordedAt).humanReviewed = false ∧
          request.sourceAuthority ≤ f.authority := by
      constructor
      · intro safe
        have safe := safe f mem id
        rwa [lost] at safe
      · intro safe g hg gid
        rw [Table.uniqueEq keyed.factIds hg mem (gid.trans id.symm), lost]
        exact safe
    rw [only]
    show (request.row l.nextFactId clock.recordedAt).humanReviewed = true ∨ f.authority < request.sourceAuthority → _ ↔ _
    cases (request.row l.nextFactId clock.recordedAt).humanReviewed with
    | true => simp
    | false =>
      constructor
      · intro yields
        rcases lt_or_ge f.authority request.sourceAuthority with below | reaches
        · exact .inl (yields (.inr below))
        · exact .inr ⟨rfl, reaches⟩
      · rintro (reviewed | ⟨-, reaches⟩) (none | below)
        · cases none
        · exact reviewed
        · cases none
        · exact absurd below (not_lt.mpr reaches)

end Untyped
section Explicit
variable {l l' : Ledger} {request : WriteRequest} {survivor : Nat} {now : String}

theorem explicitProtects (keyed : l.Keyed) {l₀ : Ledger} {rows : List Fact} {f g : Fact} (keyed₀ : l₀.Keyed)
    (base : l.facts = l₀.facts ++ rows) (next : ∀ row ∈ rows, row.factId = l₀.nextFactId ∧ row.supersededBy = none)
    (mem : f ∈ l₀.facts) (current : f.current = true) (other : g ∈ l.facts) (id : g.factId = survivor)
    (apart : f.factId ≠ survivor) (reviewed : f.humanReviewed = true → request.claimsCorrection = true) :
    l₀.Protects (l.retire f.factId (Fact.supersede now survivor)) request ↔
      request.claimsCorrection = true ∨ f.authority ≤ g.authority := by
  have keyed' : (l.retire f.factId (Fact.supersede now survivor)).Keyed :=
    keyed.amend fun _ => rfl
  have superseded : f.supersededBy = none := by
    simp only [Fact.current, Bool.and_eq_true, Option.isNone_iff_eq_none] at current
    exact current.2
  have stays : g ∈ (l.retire f.factId (Fact.supersede now survivor)).facts := by
    refine Table.memAmend.mpr ⟨g, other, ?_⟩
    rw [if_neg]
    intro hit
    exact apart ((of_decide_eq_true hit).symm.trans id)
  have facts : (l.retire f.factId (Fact.supersede now survivor)).facts =
      Table.amend (fun row => row.factId = f.factId) (Fact.supersede now survivor) l₀.facts ++ rows := by
    show Table.amend _ _ l.facts = _
    rw [base, Table.amendAppend]
    congr 1
    refine (List.map_congr_left fun row hrow => if_neg ?_).trans (List.map_id _)
    intro hit
    have below := keyed₀.factBound f mem
    rw [← of_decide_eq_true hit, (next row hrow).1] at below
    exact Nat.lt_irrefl _ below
  rw [protectsOne keyed₀ keyed' mem superseded ⟨rfl, rfl, rfl⟩ (by rw [id]; rfl) stays facts
    fun row hrow => (next row hrow).2]
  constructor
  · intro yields
    rcases lt_or_ge g.authority f.authority with below | reaches
    · exact .inl (yields (.inr below))
    · exact .inr reaches
  · rintro (human | reaches) (review | below)
    · exact human
    · exact human
    · exact reviewed review
    · exact absurd below (not_lt.mpr reaches)

end Explicit

section Typed
variable {l l' : Ledger} {context : ConnectionContext} {request : WriteRequest} {slot : SlotDecision}
  {effective : StateCandidate} {confidence : Option Rat} {clock : Clock}

/-- The rows' successors are rows: the foreign key of `superseded_by`. -/
def Ledger.SuccessorsStored (l : Ledger) : Prop := ∀ f ∈ l.facts, ∀ k ∈ f.supersededBy, k < l.nextFactId

theorem overMembersAllowed {factId : Nat} (wide : slot.targetFactId = none) (action : slot.action = .supersede)
    (automatic : request.claimsCorrection = false) (read : factId ∈ slot.currentFactIds)
    (policy : slotSupersessionPolicy l request effective slot = none) :
    supersessionPolicy l request (some factId) (some effective.sourceAuthority) = none := by
  unfold slotSupersessionPolicy at policy
  rw [if_neg (not_not.mpr action), wide, automatic] at policy
  cases found : slot.currentFactIds.findSome? fun factId =>
      supersessionPolicy l request (some factId) (some effective.sourceAuthority) with
  | none => exact List.findSome?_eq_none_iff.mp found factId read
  | some decision =>
    have refused : (some decision <|>
        supersessionPolicy l request none (some effective.sourceAuthority)) = none := found ▸ policy
    cases refused

theorem targetAllowed {target : Nat} (aimed : slot.targetFactId = some target) (action : slot.action = .supersede)
    (policy : slotSupersessionPolicy l request effective slot = none) :
    supersessionPolicy l request (some target) (some effective.sourceAuthority) = none := by
  unfold slotSupersessionPolicy at policy
  rw [if_neg (not_not.mpr action), aimed] at policy
  exact policy

theorem allowedYields {factId : Nat} {f : Fact} {authority : Rat} (keyed : l.Keyed) (mem : f ∈ l.facts)
    (id : f.factId = factId) (policy : supersessionPolicy l request (some factId) (some authority) = none) :
    f.YieldsTo request.claimsCorrection authority := by
  obtain ⟨g, found, -, -, reviewed, reaches⟩ := supersessionAllowed (k := factId) rfl policy
  obtain ⟨hg, gid⟩ := Ledger.factFind found
  obtain rfl := Table.uniqueEq keyed.factIds hg mem (gid.trans id.symm)
  rintro (review | below)
  · by_contra automatic
    exact reviewed (by rw [Bool.and_eq_true]; exact ⟨review, by simpa using automatic⟩)
  · exact absurd below (not_lt.mpr reaches)

structure Ledger.RetiresMember (l : Ledger) (conflictId : Nat) (f : Fact) : Prop where
  member : ⟨conflictId, f.factId⟩ ∈ l.members
  group : f.conflictGroup = some conflictId
  standing : f.invalidAt = none

theorem settledProtects {conflictId : Nat} {l' : Ledger} {resolution : ConflictResolution} {g : Fact}
    {resolvedBy reason resolvedAt : String} (keyed : l.Keyed) (linked : l.SuccessorsStored) (next : g.factId = l.nextFactId)
    (stands : g.supersededBy = none)
    (resolved : resolveStateConflict rt ((l.insert g).join ⟨conflictId, l.nextFactId⟩) conflictId l.nextFactId
      resolvedBy reason resolvedAt = .ok (l', resolution)) :
    l.Protects l' request ↔
      ∀ f ∈ l.facts, l.RetiresMember conflictId f → f.YieldsTo request.claimsCorrection g.authority := by
  have joined : ((l.insert g).join ⟨conflictId, l.nextFactId⟩).Keyed := (keyed.insert next).join
  obtain ⟨row, w, resolves, -, -, rfl, -⟩ := resolveStateConflictSource joined resolved
  obtain rfl : w = g := freshMember keyed resolves.factMem resolves.factId
  have loses {f : Fact} (hf : f ∈ l.facts) : Fact.losesTo
      ((((l.insert w).join ⟨conflictId, l.nextFactId⟩).memberIds conflictId).filter (· ≠ l.nextFactId)) conflictId f =
        true ↔ l.RetiresMember conflictId f := by
    have below := keyed.factBound f hf
    have other : (⟨conflictId, f.factId⟩ : Member) ≠ ⟨conflictId, l.nextFactId⟩ := by
      intro same
      have id : f.factId = l.nextFactId := congrArg Member.factId same
      omega
    simp only [Fact.losesTo, Bool.and_eq_true, List.contains_iff_mem, List.mem_filter, memberIdsMem,
      decide_eq_true_eq, Option.isNone_iff_eq_none, Ledger.join, Ledger.insert, List.mem_append, List.mem_singleton,
      other, or_false]
    constructor
    · rintro ⟨⟨⟨member, -⟩, group⟩, standing⟩
      exact ⟨member, group, standing⟩
    · rintro ⟨member, group, standing⟩
      exact ⟨⟨⟨member, by omega⟩, group⟩, standing⟩
  have other {f : Fact} (hf : f ∈ l.facts) : f.factId ≠ l.nextFactId := Nat.ne_of_lt (keyed.factBound f hf)
  refine protectsRetired (g := { w with conflictGroup := none }) keyed (Ledger.resolveKeyed joined) ?_ ?_ ?_
  · refine List.mem_map.mpr ⟨w, List.mem_concat_self, ?_⟩
    rw [Fact.resolved, if_pos next]
  · intro f' hf' k named
    obtain ⟨f, hf, rfl⟩ := List.mem_map.mp hf'
    rcases List.mem_append.mp hf with old | new
    · rw [Fact.resolved, if_neg (other old)] at named ⊢
      split at named
      · rename_i lost
        rw [if_pos lost]
        exact .inr ⟨(Option.some.inj named).symm.trans next.symm, f, old, (loses old).mp lost, rfl, rfl, rfl⟩
      · rename_i stays
        rw [if_neg stays]
        exact .inl ⟨f, old, rfl, named⟩
    · rw [List.mem_singleton.mp new, Fact.resolved, if_pos next] at named
      rw [show ({ w with conflictGroup := none } : Fact).supersededBy = none from stands] at named
      cases named
  · intro f hf gone
    refine ⟨fun named => ?_, f.lose resolvedAt l.nextFactId w.validFrom, ?_, ⟨rfl, rfl, rfl⟩, by rw [← next]; rfl⟩
    · have below := linked f hf _ named
      rw [next] at below
      exact Nat.lt_irrefl _ below
    · refine List.mem_map.mpr ⟨f, List.mem_append_left _ hf, ?_⟩
      rw [Fact.resolved, if_neg (other hf), if_pos ((loses hf).mpr gone)]

theorem typedProtects (keyed : l.Keyed) (linked : l.SuccessorsStored)
    (policy : slotSupersessionPolicy l request effective slot = none)
    (effect : StateEffect rt l context request slot effective confidence clock l') :
    l.Protects l' request ↔ slot.Safe l request effective.sourceAuthority := by
  have keyed' : l'.Keyed := effect.keyed keyed
  cases effect with
  | @evidence target known =>
    refine iff_of_true (protectsNone fun f hf k named => ⟨f, hf, rfl, named⟩) fun action => ?_
    rw [SlotDecision.evidence, action] at known
    cases known
  | add fresh calm =>
    refine iff_of_true (protectsNone fun f hf k named => ?_) fun action => absurd action calm.1
    rcases List.mem_append.mp hf with old | new
    · exact ⟨f, old, rfl, named⟩
    · rw [List.mem_singleton.mp new] at named
      cases named
  | @replace target f action aimed mem id inScope current calm free =>
    refine iff_of_true ?_ fun _ wide => ?_
    · have superseded : f.supersededBy = none := by
        simp only [Fact.current, Bool.and_eq_true, Option.isNone_iff_eq_none] at current
        exact current.2
      subst id
      refine (protectsOne (f := f) (h := Fact.outdate clock.recordedAt effective.validFrom l.nextFactId)
        (g := request.typed effective none confidence l.nextFactId clock)
        (r := [request.typed effective none confidence l.nextFactId clock]) keyed keyed' mem superseded
        ⟨rfl, rfl, rfl⟩ rfl List.mem_concat_self rfl ?_).mpr (allowedYields keyed mem rfl (targetAllowed aimed action policy))
      intro row only
      rw [List.mem_singleton.mp only]
      rfl
    · rw [aimed] at wide
      cases wide
  | dispute action =>
    refine iff_of_true (protectsNone fun f hf k named => ?_) fun other => ?_
    · rcases List.mem_append.mp hf with amended | new
      · obtain ⟨old, hold, rfl⟩ := Table.memAmend.mp amended
        split at named
        · rename_i hit
          rw [if_pos hit]
          exact ⟨old, hold, rfl, named⟩
        · rename_i missed
          rw [if_neg missed]
          exact ⟨old, hold, rfl, named⟩
      · rw [List.mem_singleton.mp new] at named
        cases named
    · rw [action] at other
      cases other
  | join action =>
    refine iff_of_true (protectsNone fun f hf k named => ?_) fun other => ?_
    · rcases List.mem_append.mp hf with old | new
      · exact ⟨f, old, rfl, named⟩
      · rw [List.mem_singleton.mp new] at named
        cases named
    · rw [action] at other
      cases other
  | @settle conflictId row _ _ action group wide mem id unresolved fits current fresh resolved =>
    rw [settledProtects keyed linked rfl rfl resolved]
    constructor
    · intro yields _ _
      cases human : request.claimsCorrection with
      | true => exact .inl rfl
      | false =>
        refine .inr fun other single f hf member grouped standing outside => ?_
        obtain rfl : conflictId = other := List.singleton_inj.mp (group.symm.trans single)
        have yields := yields f hf ⟨member, grouped, standing⟩
        rw [human] at yields
        refine ⟨?_, ?_⟩
        · by_contra reviewed
          cases yields (.inl (by simpa using reviewed))
        · by_contra outranks
          cases yields (.inr (not_le.mp outranks))
    · intro safe f hf gone
      rcases safe action wide with human | outside
      · exact fun _ => human
      · by_cases read : f.factId ∈ slot.currentFactIds
        · cases human : request.claimsCorrection with
          | true => exact fun _ => rfl
          | false =>
            rw [← human]
            exact allowedYields keyed hf rfl (overMembersAllowed wide action human read policy)
        · obtain ⟨plain, reaches⟩ := outside conflictId group f hf gone.member gone.group gone.standing read
          exact (yieldsUnreviewed plain).mpr (.inr reaches)

end Typed
section Writes
variable {svc : WriteService} {context : ConnectionContext} {clock : Clock} {s t : Store} {request : WriteRequest}
  {candidate : Option StateCandidate} {extracted : Option ExtractedTypedFields} {query : Option (List Rat)}
  {outcome : WriteOutcome}

theorem explicitTarget {l : Ledger} {f : Fact} {old : Nat} {policy : MemoryPolicy} (keyed : l.Keyed)
    (asked : request.supersedeFactId = some old) (mem : f ∈ l.facts) (id : f.factId = old)
    (judged : verdict rt policy context l request candidate = .ok .untyped) :
    (f.humanReviewed = true → request.claimsCorrection = true) ∧ f.authority ≤ request.sourceAuthority := by
  have policy := requestAllowed (verdictUntyped judged).2
  obtain ⟨g, found, -, -, reviewed, reaches⟩ := supersessionAllowed (k := old) (by rw [asked]; rfl) policy
  obtain ⟨hg, gid⟩ := Ledger.factFind found
  obtain rfl := Table.uniqueEq keyed.factIds hg mem (gid.trans id.symm)
  refine ⟨fun review => ?_, reaches⟩
  by_contra automatic
  exact reviewed (by rw [Bool.and_eq_true]; exact ⟨review, by simpa using automatic⟩)

theorem transactProtects (keyed : s.toLedger.Keyed) (linked : s.toLedger.SuccessorsStored)
    (done : transact rt svc context clock s request candidate extracted query = .ok (t, outcome)) :
    s.toLedger.Protects t.toLedger request ↔
      WriteSafe rt svc context clock s request candidate extracted query := by
  have answer := transactAnswer keyed done
  have unchanged : s.toLedger.Protects s.toLedger request :=
    protectsNone fun f hf k named => ⟨f, hf, rfl, named⟩
  generalize t.toLedger = l at answer ⊢
  cases answer with
  | replayed found =>
    refine iff_of_true unchanged fun free => ?_
    rw [found] at free
    cases free
  | factless free judged =>
    refine iff_of_true unchanged fun _ => ⟨fun untyped => ?_, fun slot effective typed => ?_⟩
    · rw [judged] at untyped
      cases untyped
    · rw [judged] at typed
      cases typed
  | @untyped found l₁ result _ _ free bare judged chosen effect superseded =>
    have safe : WriteSafe rt svc context clock s request candidate extracted query ↔
        found.Safe s.toLedger request clock.recordedAt := by
      rw [WriteSafe, chosen]
      refine ⟨fun safe => (safe free).1 judged, fun safe _ => ⟨fun _ => safe, fun slot effective typed => ?_⟩⟩
      rw [judged] at typed
      cases typed
    rw [safe]
    have keyed₁ := effect.keyed keyed
    cases superseded with
    | unasked plain => exact untypedProtects keyed plain effect
    | @retired old f g asked apart mem id current kind calm other otherId scope =>
      subst id
      have matched : Matched rt svc s request extracted query found := chosen ▸ untypedMatchSource
      cases matched with
      | contradiction _ plain => rw [asked] at plain; cases plain.2
      | unmatched _ plain => rw [asked] at plain; cases plain.2
      | nearContradiction _ plain => rw [asked] at plain; cases plain.2
      | nearDuplicate _ plain => rw [asked] at plain; cases plain.2
      | @duplicate factId exact' =>
        cases effect
        have target := explicitTarget keyed asked mem rfl judged
        rw [explicitProtects keyed keyed (List.append_nil _).symm (fun _ none => absurd none List.not_mem_nil) mem
          current other otherId apart target.1]
        constructor
        · intro protects old' asked' f' hf' id' g' hg' gid'
          have aimed : old' = f.factId := Option.some.inj (asked'.symm.trans asked)
          rw [Table.uniqueEq keyed.factIds hf' mem (id'.trans aimed),
            Table.uniqueEq keyed.factIds hg' other (gid'.trans otherId.symm)]
          exact protects
        · intro all
          exact all _ asked f mem rfl g other otherId
      | bypass =>
        cases effect
        have stored : f ∈ s.facts := by
          rcases List.mem_append.mp mem with old | new
          · exact old
          · rw [List.mem_singleton.mp new] at apart
            exact absurd (storedDates _ _ _ _).1 apart
        have target := explicitTarget keyed asked stored rfl judged
        have own : g.authority = request.sourceAuthority := by
          rw [freshMember keyed other otherId]
          cases extracted with
          | none => rfl
          | some fields => rfl
        rw [explicitProtects keyed₁ keyed rfl (fun row only => ?_) stored current other otherId apart target.1, own]
        · exact iff_of_true (.inr target.2) trivial
        · rw [List.mem_singleton.mp only]
          exact ⟨(storedDates _ _ _ _).1, (storedDates _ _ _ _).2.1⟩
  | @typed c slot effective _ _ _ free given judged effect =>
    rw [typedProtects keyed linked (verdictTyped judged).choose_spec.choose_spec.2.2.2.2.2 effect, WriteSafe]
    constructor
    · intro safe _
      refine ⟨fun untyped => ?_, fun slot' effective' typed => ?_⟩
      · rw [judged] at untyped
        cases untyped
      · rw [judged] at typed
        cases typed
        exact safe
    · intro safe
      exact (safe free).2 slot effective judged

/-- A write retires nothing that a human settled, and nothing of more authority, but for a human's claim, exactly
when what it found keeps the protection. -/
theorem truthProtected (keyed : s.toLedger.Keyed) (linked : s.toLedger.SuccessorsStored)
    (done : write rt svc context clock s request candidate = .ok (t, outcome)) :
    s.toLedger.Protects t.toLedger request ↔
      ∀ effective extracted query, svc.policy.authorizeContext rt svc.legacyAuthorized context = .ok effective →
        extractedTypedFields rt request candidate = .ok extracted →
        prepareNearDedupQuery rt svc effective s request candidate = .ok query →
        WriteSafe rt svc effective clock s request candidate extracted query := by
  obtain ⟨effective, extracted, query, granted, -, fields, prepared, ran⟩ := writeSource done
  rw [transactProtects keyed linked ran]
  constructor
  · intro safe effective' extracted' query' granted' fields' prepared'
    obtain rfl := Except.ok.inj (granted.symm.trans granted')
    obtain rfl := Except.ok.inj (fields.symm.trans fields')
    obtain rfl := Except.ok.inj (prepared.symm.trans prepared')
    exact safe
  · intro all
    exact all effective extracted query granted fields prepared

end Writes
namespace Example

def correcting : WriteService := { searching with policy := ⟨[("host", ["private"])], [], ["host"], []⟩ }

def oneCat : List (Operation .plain) :=
  [.write trusted caller (claim "k1" "a cat sat on the mat" none matClaimed), .storeEmbedding ⟨1, [1], 1, "m"⟩]

def correctedCat : TimedWrite .plain where
  clock := .at "2026-01-03"
  item := {
    request := { WriteRequest.plain "k2" "the cat sat on the mat" "human_correction" with
      correctionStatus := some "human_corrected"
      sourceAuthority := 4 / 5
      trustScore := 2 / 5 }
    candidate := none
    requestBuilt := by decide +kernel
    candidateBuilt := WriteItem.unslotted }

/-- The correction is stored and retired at once for the claim it corrects. -/
theorem correctionRetired : ∃ t outcome, write .plain correcting caller correctedCat.clock (history oneCat)
      correctedCat.item.request correctedCat.item.candidate = .ok (t, outcome) ∧
    ¬ (history oneCat).toLedger.Protects t.toLedger correctedCat.item.request := by
  have ran : ((write .plain correcting caller correctedCat.clock (history oneCat) correctedCat.item.request
      correctedCat.item.candidate).toOption.map fun done =>
        done.1.facts.any fun f => done.1.facts.any fun g => f.factId = (history oneCat).nextFactId &&
          f.supersededBy = some g.factId && f.humanReviewed && !g.humanReviewed) = some true := by
    decide +kernel
  obtain ⟨⟨t, outcome⟩, answered, both⟩ := Option.map_eq_some_iff.mp ran
  refine ⟨t, outcome, okOfOption answered, fun protects => ?_⟩
  obtain ⟨f, hf, both⟩ := List.any_eq_true.mp both
  obtain ⟨g, hg, both⟩ := List.any_eq_true.mp both
  simp only [Bool.and_eq_true, decide_eq_true_eq, Bool.not_eq_true'] at both
  obtain ⟨⟨⟨next, named⟩, reviewed⟩, plain⟩ := both
  have human := protects f g ⟨hf, hg, named, fun old hold id => ?_⟩ (.inl reviewed)
  · rw [Ledger.humanClaim, if_pos next, plain] at human
    cases human
  · have below := historyKeyed.factBound old hold
    rw [id, next] at below
    exact absurd below (Nat.lt_irrefl _)

def settledDogs : TimedWrite .plain where
  clock := .at "2026-01-03"
  item := {
    request := { WriteRequest.plain "k0" "dogs bark loudly" "human_correction" with
      correctionStatus := some "human_corrected"
      sourceAuthority := 4 / 5 }
    candidate := none
    requestBuilt := by decide +kernel
    candidateBuilt := WriteItem.unslotted }

def reviewedCats : List (Operation .plain) :=
  [.write correcting caller settledDogs, .write trusted caller (claim "k1" "a cat sat on the mat" none matClaimed),
    .storeEmbedding ⟨1, [1], 1, "m"⟩, .storeEmbedding ⟨2, [1], 1, "m"⟩]

theorem truthProtectedHere : ∃ t outcome, write .plain searching caller strongerCat.clock (history reviewedCats)
      strongerCat.item.request strongerCat.item.candidate = .ok (t, outcome) ∧
    (t.facts.map fun f => (f.supersededBy, f.humanReviewed)) = [(none, true), (some 3, false), (none, false)] ∧
    (history reviewedCats).toLedger.Protects t.toLedger strongerCat.item.request := by
  have ran : ((write .plain searching caller strongerCat.clock (history reviewedCats) strongerCat.item.request
      strongerCat.item.candidate).toOption.map fun done =>
        done.1.facts.map fun f => (f.supersededBy, f.humanReviewed)) =
      some [(none, true), (some 3, false), (none, false)] := by
    decide +kernel
  obtain ⟨⟨t, outcome⟩, answered, shape⟩ := Option.map_eq_some_iff.mp ran
  have linked : (history reviewedCats).toLedger.SuccessorsStored := by
    intro f hf k named
    have current : ∀ f ∈ (history reviewedCats).facts, f.supersededBy = none := by decide +kernel
    rw [current f hf] at named
    cases named
  have chosen : untypedMatch .plain searching (history reviewedCats) strongerCat.item.request none (some [1]) =
      .nearDuplicate ⟨2, 1 / 2, "2026-01-03", 1⟩ := by decide +kernel
  have weighs : ∀ f ∈ (history reviewedCats).facts, f.factId = 2 →
      f.protectedFrom strongerCat.item.request = false ∧ f.sourceAuthority = some (1 / 2) := by
    decide +kernel
  refine ⟨t, outcome, okOfOption answered, shape, (truthProtected historyKeyed linked (okOfOption answered)).mpr ?_⟩
  intro effective extracted query granted fields prepared
  obtain rfl := Except.ok.inj
    ((okOfOption (by decide +kernel) : searching.policy.authorizeContext .plain searching.legacyAuthorized caller =
      .ok caller).symm.trans granted)
  obtain rfl := Except.ok.inj
    ((rfl : extractedTypedFields .plain strongerCat.item.request none = .ok none).symm.trans fields)
  obtain rfl := Except.ok.inj
    ((okOfOption (by decide +kernel) : prepareNearDedupQuery .plain searching caller (history reviewedCats)
      strongerCat.item.request none = .ok (some [1])).symm.trans prepared)
  refine fun _ => ⟨fun _ => ?_, fun slot effective typed => ?_⟩
  · rw [chosen]
    intro f hf id
    obtain ⟨plain, weight⟩ := weighs f hf id
    have beaten : NearDuplicateCandidate.outrankedBy ⟨2, 1 / 2, "2026-01-03", 1⟩ strongerCat.item.request
        strongerCat.clock.recordedAt = true := by decide +kernel
    rw [if_pos (by rw [plain, beaten]; rfl), weight]
    intro missing
    cases missing
  · obtain ⟨c, _, given, -⟩ := verdictTyped typed
    cases given

end Example
end Enfold
