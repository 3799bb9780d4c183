import Enfold.BatchSequence
import Enfold.ErasureFrame
import Enfold.TypedAnswers

/-! The sources of insights. An insight names the facts it was drawn from in its tags; an erasure
invalidates the insights of what it erases, but no write and no resolution looks for those of the facts
they retire. -/
namespace Enfold

open Fallible

variable {rt : Runtime} {l l' l'' : Ledger} {request : WriteRequest}

/-! ## Citations -/

/-- `re.search("source_facts:([0-9,]+)", tags)`: the group of the first match. -/
def sourceRun : List Char → List Char
  | [] => []
  | c :: rest =>
    match Text.after "source_facts:".toList (c :: rest) with
    | some body =>
      match body.takeWhile fun c => Text.isDigitAscii c || c = ',' with
      | [] => sourceRun rest
      | run => run
    | none => sourceRun rest

/-- `_cited_ids`. -/
def citedIds (tags : String) : List Nat :=
  ((Text.splitOn ',' (sourceRun tags.toList)).filter (· ≠ [])).map readNat

def Ledger.Insight (l : Ledger) (factId : Nat) (tags : String) : Prop :=
  ∃ i ∈ l.facts, i.factId = factId ∧ i.category = "insight" ∧ i.current = true ∧ i.tags = tags

/-- No current insight cites a stored fact that is not current. -/
def Ledger.InsightsFresh (l : Ledger) : Prop :=
  ∀ insight tags, l.Insight insight tags → ∀ k ∈ citedIds tags, ∀ f ∈ l.facts, f.factId = k → f.current = true

/-- No insight that stays current cites what is retired. -/
def Ledger.Spares (l : Ledger) (retired : Nat → Prop) : Prop :=
  ∀ insight tags, l.Insight insight tags → ¬ retired insight → ∀ k ∈ citedIds tags, ¬ retired k

def Ledger.Supports (l : Ledger) (retired : Nat → Prop) (tags : String) : Prop :=
  ∀ k ∈ citedIds tags, ¬ retired k ∧ ∀ f ∈ l.facts, f.factId = k → f.current = true

/-! ## Rows -/

section Rows
variable {retired earlier later : Nat → Prop} {new : Fact → Prop} {f g h : Fact}

structure Fact.Tracks (retired : Nat → Prop) (g f : Fact) : Prop where
  factId : f.factId = g.factId
  current : f.current = true ↔ g.current = true ∧ ¬ retired g.factId
  tagged : f.current = true → f.category = g.category ∧ f.tags = g.tags

structure WriteRequest.Noted (request : WriteRequest) (retired : Nat → Prop) (next : Nat) (f : Fact) :
    Prop where
  factId : f.factId = next
  current : f.current = true ↔ ¬ retired next
  tagged : f.current = true → f.category = Text.strip request.category ∧ f.tags = request.tags

def Outlasting (retired : Nat → Prop) (l l' : Ledger) (new : Fact → Prop) : Prop :=
  ∀ f ∈ l'.facts, (∃ g ∈ l.facts, g.Tracks retired f) ∨ new f

theorem tracks (spared : ¬ retired f.factId) : f.Tracks retired f :=
  ⟨rfl, ⟨fun now => ⟨now, spared⟩, And.left⟩, fun _ => ⟨rfl, rfl⟩⟩

theorem tracksRetired (id : f.factId = g.factId) (dead : f.invalidAt ≠ none) (gone : retired g.factId) :
    g.Tracks retired f := by
  have past : ¬ f.current = true := fun now => dead (currentValid now).1
  exact ⟨id, ⟨fun now => absurd now past, fun spared => absurd gone spared.2⟩, fun now => absurd now past⟩

theorem Fact.Tracks.trans (first : f.Tracks earlier g) (second : g.Tracks later h) :
    f.Tracks (fun k => earlier k ∨ later k) h where
  factId := second.factId.trans first.factId
  current := by
    rw [second.current, first.current, first.factId, not_or, and_assoc]
  tagged now := by
    obtain ⟨category, tags⟩ := second.tagged now
    obtain ⟨category', tags'⟩ := first.tagged (second.current.mp now).1
    exact ⟨category.trans category', tags.trans tags'⟩

theorem WriteRequest.Noted.trans {next : Nat} (noted : request.Noted earlier next f) (second : f.Tracks later g) :
    request.Noted (fun k => earlier k ∨ later k) next g where
  factId := second.factId.trans noted.factId
  current := by
    rw [second.current, noted.current, noted.factId, not_or]
  tagged now := by
    obtain ⟨category, tags⟩ := second.tagged now
    obtain ⟨category', tags'⟩ := noted.tagged (second.current.mp now).1
    exact ⟨category.trans category', tags.trans tags'⟩

theorem trackedSame (facts : l'.facts = l.facts) (spared : ∀ f ∈ l.facts, ¬ retired f.factId) :
    Outlasting retired l l' new :=
  fun f hf => .inl ⟨f, facts ▸ hf, tracks (spared f (facts ▸ hf))⟩

theorem trackedMap {m : Fact → Fact} (facts : l'.facts = l.facts.map m)
    (each : ∀ f ∈ l.facts, f.Tracks retired (m f)) : Outlasting retired l l' new := by
  intro f hf
  rw [facts] at hf
  obtain ⟨g, hg, rfl⟩ := List.mem_map.mp hf
  exact .inl ⟨g, hg, each g hg⟩

theorem trackedAmend {p : Fact → Bool} {m : Fact → Fact} (facts : l'.facts = Table.amend p m l.facts)
    (hit : ∀ f ∈ l.facts, p f = true → f.Tracks retired (m f))
    (missed : ∀ f ∈ l.facts, p f = false → ¬ retired f.factId) : Outlasting retired l l' new := by
  refine trackedMap (m := fun f => if p f then m f else f) facts fun f hf => ?_
  split
  · rename_i found
    exact hit f hf found
  · rename_i other
    exact tracks (missed f hf (Bool.eq_false_iff.mpr other))

theorem Outlasting.insert (tracked : Outlasting retired l l' new) (stored : new g) :
    Outlasting retired l (l'.insert g) new := by
  intro f hf
  rcases List.mem_append.mp hf with hf | hf
  · exact tracked f hf
  · exact .inr (List.mem_singleton.mp hf ▸ stored)

theorem Outlasting.trans {next : Nat} (first : Outlasting earlier l l' (request.Noted earlier next))
    (second : Outlasting later l' l'' fun _ => False) :
    Outlasting (fun k => earlier k ∨ later k) l l'' (request.Noted (fun k => earlier k ∨ later k) next) := by
  intro f hf
  obtain ⟨g, hg, after⟩ := (second f hf).resolve_right id
  rcases first g hg with ⟨h, hh, before⟩ | noted
  · exact .inl ⟨h, hh, before.trans after⟩
  · exact .inr (noted.trans after)

theorem outlastingFresh (fresh : l.InsightsFresh) (spares : l.Spares retired)
    (tracked : Outlasting retired l l' new)
    (stored : ∀ f, new f → (f.current = true ↔ ¬ retired f.factId) ∧
      (f.current = true → f.category = "insight" → l.Supports retired f.tags)) : l'.InsightsFresh := by
  rintro insight tags ⟨i, hi, rfl, category, now, rfl⟩ k cited f hf rfl
  -- what the insight cites was current before and is not retired
  have source : ¬ retired f.factId ∧ ∀ g ∈ l.facts, g.factId = f.factId → g.current = true := by
    rcases tracked i hi with ⟨j, hj, row⟩ | novel
    · obtain ⟨was, stays⟩ := row.current.mp now
      obtain ⟨sameCategory, sameTags⟩ := row.tagged now
      have before : l.Insight j.factId j.tags := ⟨j, hj, rfl, sameCategory ▸ category, was, rfl⟩
      rw [sameTags] at cited
      exact ⟨spares _ _ before stays _ cited, fun g hg => fresh _ _ before _ cited g hg⟩
    · exact (stored i novel).2 now category _ cited
  rcases tracked f hf with ⟨g, hg, row⟩ | novel
  · exact row.current.mpr ⟨source.2 g hg row.factId.symm, row.factId ▸ source.1⟩
  · exact (stored f novel).1.mpr source.1

end Rows

/-! ## Writes -/

section Writes
variable {svc : WriteService} {context : ConnectionContext} {clock : Clock} {s t : Store}
  {extracted : Option ExtractedTypedFields} {query : Option (List Rat)}

/-- What the lookups of an untyped write make it retire: the near duplicate it is ahead of, or its own row. -/
def UntypedMatch.Retires (l : Ledger) (request : WriteRequest) (clock : Clock) : UntypedMatch → Nat → Prop
  | .nearDuplicate near, k => ∃ f ∈ l.facts, f.factId = near.factId ∧
      if f.protectedFrom request = false ∧ near.outrankedBy request clock.recordedAt = true then k = near.factId
      else k = l.nextFactId
  | _, _ => False

/-- What a slot decision retires: a value it replaces, the other members of a dispute it settles, and its
own row when its window is closed. -/
def SlotDecision.Retires (l : Ledger) (effective : StateCandidate) (slot : SlotDecision) (k : Nat) : Prop :=
  slot.evidence = none ∧ (effective.validTo ≠ none ∧ k = l.nextFactId ∨ slot.action = .supersede ∧
    (slot.targetFactId = some k ∨ slot.targetFactId = none ∧ ∃ c ∈ l.groupsOf slot.currentFactIds,
      ∃ f ∈ l.facts, f.factId = k ∧ f.losesTo (l.memberIds c) c = true))

def WriteRetires (rt : Runtime) (svc : WriteService) (context : ConnectionContext) (clock : Clock) (s : Store)
    (request : WriteRequest) (candidate : Option StateCandidate) (extracted : Option ExtractedTypedFields)
    (query : Option (List Rat)) (k : Nat) : Prop :=
  match verdict rt svc.policy context s.toLedger request candidate with
  | .ok .untyped => (untypedMatch rt svc s request extracted query).Retires s.toLedger request clock k ∨
      request.supersedeFactId = some k
  | .ok (.typed slot effective) => slot.Retires s.toLedger effective k
  | _ => False

def WriteStores (rt : Runtime) (svc : WriteService) (context : ConnectionContext) (s : Store)
    (request : WriteRequest) (candidate : Option StateCandidate) (extracted : Option ExtractedTypedFields)
    (query : Option (List Rat)) : Prop :=
  match verdict rt svc.policy context s.toLedger request candidate with
  | .ok .untyped => ∀ factId, untypedMatch rt svc s request extracted query ≠ .duplicate factId
  | .ok (.typed slot _) => slot.evidence = none
  | _ => False

/-- The write retires no source of a current insight, and an insight it stores has current sources. -/
def SparesSources (rt : Runtime) (svc : WriteService) (context : ConnectionContext) (clock : Clock) (s : Store)
    (request : WriteRequest) (candidate : Option StateCandidate) (extracted : Option ExtractedTypedFields)
    (query : Option (List Rat)) : Prop :=
  let retired := WriteRetires rt svc context clock s request candidate extracted query
  loadPrior s context.clientId request.idempotencyKey = none → s.toLedger.Spares retired ∧
    (WriteStores rt svc context s request candidate extracted query → ¬ retired s.nextFactId →
      Text.strip request.category = "insight" → s.toLedger.Supports retired request.tags)

theorem notedRow {retired : Nat → Prop} {next : Nat} (request : WriteRequest) (now : String)
    (kept : ¬ retired next) :
    request.Noted retired next (request.row next now) :=
  ⟨rfl, ⟨fun _ => kept, fun _ => rowCurrent⟩, fun _ => ⟨rfl, rfl⟩⟩

theorem notedStored {retired : Nat → Prop} {next : Nat} {now : String} (kept : ¬ retired next) :
    request.Noted retired next (request.stored extracted next now) := by
  cases extracted with
  | none => exact notedRow request now kept
  | some fields => exact { notedRow request now kept with }

theorem UntypedEffect.tracked {found : UntypedMatch} {result : FactWriteResult} (keyed : l.Keyed)
    (effect : UntypedEffect l request extracted clock found l' result) :
    Outlasting (found.Retires l request clock) l l'
      fun f => request.Noted (found.Retires l request clock) l.nextFactId f ∧
        ∀ factId, found ≠ .duplicate factId := by
  cases effect with
  | duplicate => exact trackedSame rfl fun _ _ => id
  | fresh => exact (trackedSame rfl fun _ _ => id).insert ⟨notedStored id, nofun⟩
  | dispute opened =>
    obtain ⟨-, subject, predicate, detail, f, mem, id', scope, -, -, -, rfl⟩ := opened
    refine Outlasting.insert (trackedAmend rfl (fun g _ _ => ?_) fun _ _ _ => id) ⟨?_, nofun⟩
    · have same : g.Tracks (fun _ => False) g := tracks id
      exact { same with }
    · have row : request.Noted (fun _ => False) l.nextFactId (request.row l.nextFactId clock.insertedAt) :=
        notedRow request _ id
      exact { row with }
  | @wins candidate f mem id here open' ahead =>
    have retires (k : Nat) : UntypedMatch.Retires l request clock (.nearDuplicate candidate) k ↔
        k = candidate.factId := by
      constructor
      · rintro ⟨g, hg, gid, retired⟩
        rw [Table.uniqueEq keyed.factIds hg mem (gid.trans id.symm)] at retired
        simpa [open', ahead] using retired
      · intro same
        exact ⟨f, mem, id, by simpa [open', ahead] using same⟩
    have below := keyed.factBound f mem
    refine Outlasting.insert (trackedAmend rfl (fun g hg hit => ?_) fun g hg missed => ?_) ⟨notedRow request _ ?_, nofun⟩
    · exact tracksRetired rfl (Option.some_ne_none _) ((retires _).mpr (of_decide_eq_true hit))
    · rw [retires]
      exact of_decide_eq_false missed
    · rw [retires, ← id]
      exact (Nat.ne_of_lt below).symm
  | @loses candidate f mem id here behind =>
    have retires (k : Nat) : UntypedMatch.Retires l request clock (.nearDuplicate candidate) k ↔
        k = l.nextFactId := by
      have lost : ¬ (f.protectedFrom request = false ∧ candidate.outrankedBy request clock.recordedAt = true) := by
        rcases behind with shield | behind
        · simp [shield]
        · simp [behind]
      constructor
      · rintro ⟨g, hg, gid, retired⟩
        rw [Table.uniqueEq keyed.factIds hg mem (gid.trans id.symm), if_neg lost] at retired
        exact retired
      · intro same
        exact ⟨f, mem, id, by rwa [if_neg lost]⟩
    refine Outlasting.insert (trackedSame rfl fun g hg => ?_) ⟨?_, nofun⟩
    · rw [retires]
      exact Nat.ne_of_lt (keyed.factBound g hg)
    · exact
        { factId := rfl
          current := ⟨nofun, fun kept => absurd ((retires _).mpr rfl) kept⟩
          tagged := nofun }

theorem Superseded.tracked {survivor : Nat} {now : String} (h : Superseded l request survivor now l') :
    Outlasting (request.supersedeFactId = some ·) l l' fun _ => False := by
  cases h with
  | unasked plain => exact trackedSame rfl fun f _ => by simp [plain]
  | @retired old f g asked =>
    refine trackedAmend rfl (fun f hf hit => ?_) fun f hf missed => ?_
    · exact tracksRetired rfl (Option.some_ne_none _) (asked.trans (congrArg some (of_decide_eq_true hit).symm))
    · rw [asked]
      exact fun same => of_decide_eq_false missed (Option.some.inj same).symm

def Ledger.Loses (l : Ledger) (conflictId winner k : Nat) : Prop :=
  ∃ f ∈ l.facts, f.factId = k ∧ f.losesTo ((l.memberIds conflictId).filter (· ≠ winner)) conflictId = true

theorem resolveTracked (keyed : l.Keyed) {conflictId winner : Nat} {validTo : Option String}
    {resolvedBy reason resolvedAt : String} {new : Fact → Prop}
    (left : l' = l.resolve conflictId winner validTo resolvedBy reason resolvedAt) :
    Outlasting (l.Loses conflictId winner) l l' new := by
  subst left
  refine trackedMap rfl fun f hf => ?_
  unfold Fact.resolved
  split
  · rename_i won
    have spared : ¬ l.Loses conflictId winner f.factId := by
      rintro ⟨g, hg, same, loses⟩
      simp only [Fact.losesTo, Bool.and_eq_true, List.contains_eq_mem, decide_eq_true_eq] at loses
      exact absurd (same.trans won) (of_decide_eq_true (List.mem_filter.mp loses.1.1).2)
    exact { tracks spared with }
  · split
    · rename_i loses
      exact tracksRetired rfl (Option.some_ne_none _) ⟨f, hf, rfl, loses⟩
    · rename_i spared
      refine tracks ?_
      rintro ⟨g, hg, same, loses⟩
      apply spared
      rwa [← Table.uniqueEq keyed.factIds hg hf same]

theorem joinedLoses (keyed : l.Keyed) {g : Fact} {c k : Nat} (next : g.factId = l.nextFactId) :
    ((l.insert g).join ⟨c, l.nextFactId⟩).Loses c l.nextFactId k ↔
      ∃ f ∈ l.facts, f.factId = k ∧ f.losesTo (l.memberIds c) c = true := by
  have member {f : Fact} (apart : f.factId ≠ l.nextFactId) :
      (((((l.insert g).join ⟨c, l.nextFactId⟩).memberIds c).filter (· ≠ l.nextFactId)).contains f.factId) =
        (l.memberIds c).contains f.factId := by
    rw [Bool.eq_iff_iff]
    simp [memberIdsMem, Ledger.join, Ledger.insert, apart]
  have same {f : Fact} (apart : f.factId ≠ l.nextFactId) := congrArg
    (fun listed => (listed && f.conflictGroup = some c) && f.invalidAt.isNone) (member apart)
  constructor
  · rintro ⟨f, hf, id, loses⟩
    rcases List.mem_append.mp hf with hf | hf
    · exact ⟨f, hf, id, (same (Nat.ne_of_lt (keyed.factBound f hf))).symm.trans loses⟩
    · rw [List.mem_singleton.mp hf] at loses
      simp [Fact.losesTo, next] at loses
  · rintro ⟨f, hf, id, loses⟩
    exact ⟨f, List.mem_append_left _ hf, id, (same (Nat.ne_of_lt (keyed.factBound f hf))).trans loses⟩

theorem typedStands {effective : StateCandidate} {group : Option Nat} {confidence : Option Rat} {factId : Nat} :
    (request.typed effective group confidence factId clock).current = true ↔ effective.validTo = none := by
  refine ⟨typedCurrent, fun open' => ?_⟩
  simp [WriteRequest.typed, Fact.persistState, Fact.current, WriteRequest.row, open']

theorem StateEffect.tracked {slot : SlotDecision} {effective : StateCandidate} {confidence : Option Rat}
    (keyed : l.Keyed) (effect : StateEffect rt l context request slot effective confidence clock l') :
    Outlasting (slot.Retires l effective) l l'
      fun f => request.Noted (slot.Retires l effective) l.nextFactId f ∧ slot.evidence = none := by
  have noted {retired : Nat → Prop} (group : Option Nat) (kept : ¬ retired l.nextFactId ↔ effective.validTo = none) :
      request.Noted retired l.nextFactId (request.typed effective group confidence l.nextFactId clock) :=
    ⟨rfl, typedStands.trans kept.symm, fun _ => ⟨rfl, rfl⟩⟩
  -- a dispute retires nothing, and nothing is retired that is not stored yet
  have unmoved (action : slot.action = .conflict) (open' : effective.validTo = none) (k : Nat) :
      ¬ slot.Retires l effective k := by
    rintro ⟨-, ⟨closed, -⟩ | ⟨supersede, -⟩⟩
    · exact closed open'
    · rw [action] at supersede
      cases supersede
  have apart : ∀ f ∈ l.facts, f.factId ≠ l.nextFactId := fun f hf => Nat.ne_of_lt (keyed.factBound f hf)
  cases effect with
  | evidence known =>
    refine trackedSame rfl fun f _ ⟨unknown, _⟩ => ?_
    rw [known] at unknown
    cases unknown
  | add fresh calm free =>
    have retires (k : Nat) : slot.Retires l effective k ↔ effective.validTo ≠ none ∧ k = l.nextFactId := by
      simp [SlotDecision.Retires, fresh, calm.1]
    refine (trackedSame rfl fun f hf => ?_).insert ⟨noted none ?_, fresh⟩
    · rw [retires]
      exact fun gone => apart f hf gone.2
    · simp [retires]
  | @replace target f action aimed mem id inScope current calm free =>
    have plain : slot.evidence = none := by simp [SlotDecision.evidence, action]
    have retires (k : Nat) : slot.Retires l effective k ↔
        effective.validTo ≠ none ∧ k = l.nextFactId ∨ k = target := by
      simp [SlotDecision.Retires, plain, action, aimed, eq_comm (a := target)]
    refine Outlasting.insert (trackedAmend rfl (fun g hg hit => ?_) fun g hg missed => ?_) ⟨noted none ?_, plain⟩
    · exact tracksRetired rfl (Option.some_ne_none _) ((retires _).mpr (.inr (of_decide_eq_true hit)))
    · rw [retires]
      rintro (⟨-, same⟩ | same)
      · exact apart g hg same
      · exact of_decide_eq_false missed same
    · have other : l.nextFactId ≠ target := id ▸ (apart f mem).symm
      simp [retires, other]
  | dispute action unknown calm nonempty distinct members fits current =>
    have still := unmoved action current
    refine Outlasting.insert (trackedAmend rfl (fun g _ _ => ?_) fun g _ _ => still _)
      ⟨noted _ (by simp [still, current]), unknown⟩
    exact { tracks (still g.factId) with }
  | join action unknown group mem id unresolved fits current =>
    have still := unmoved action current
    exact (trackedSame rfl fun g _ => still _).insert ⟨noted _ (by simp [still, current]), unknown⟩
  | @settle c row l' resolution action group wide mem id unresolved fits current fresh resolved =>
    have plain : slot.evidence = none := by simp [SlotDecision.evidence, action]
    have joined : ((l.insert (request.typed effective (some c) confidence l.nextFactId clock)).join
        ⟨c, l.nextFactId⟩).Keyed := (keyed.insert rfl).join
    obtain ⟨-, w, -, -, -, left, -⟩ := resolveStateConflictSource joined resolved
    have first : Outlasting (fun _ => False) l ((l.insert (request.typed effective (some c) confidence l.nextFactId
        clock)).join ⟨c, l.nextFactId⟩) (request.Noted (fun _ => False) l.nextFactId) :=
      (trackedSame rfl fun _ _ => not_false).insert (noted _ (by simp [current]))
    have retires : (fun k => False ∨ ((l.insert (request.typed effective (some c) confidence l.nextFactId
        clock)).join ⟨c, l.nextFactId⟩).Loses c l.nextFactId k) = slot.Retires l effective := by
      funext k
      rw [joinedLoses keyed rfl]
      simp [SlotDecision.Retires, plain, action, wide, group, current]
    have both := first.trans (resolveTracked joined left)
    rw [retires] at both
    exact fun f hf => (both f hf).imp_right fun row => ⟨row, plain⟩

theorem WriteEffect.fresh {candidate : Option StateCandidate} (keyed : s.toLedger.Keyed)
    (fresh : s.toLedger.InsightsFresh)
    (spares : SparesSources rt svc context clock s request candidate extracted query)
    (effect : WriteEffect rt svc context clock s request candidate extracted query l') : l'.InsightsFresh := by
  have stored {retired : Nat → Prop} {stores : Prop}
      (supports : stores → ¬ retired s.nextFactId → Text.strip request.category = "insight" →
        s.toLedger.Supports retired request.tags) (f : Fact)
      (row : request.Noted retired s.nextFactId f ∧ stores) : (f.current = true ↔ ¬ retired f.factId) ∧
        (f.current = true → f.category = "insight" → s.toLedger.Supports retired f.tags) := by
    obtain ⟨noted, novel⟩ := row
    refine ⟨by rw [noted.current, noted.factId], fun now category => ?_⟩
    obtain ⟨sameCategory, sameTags⟩ := noted.tagged now
    rw [sameTags]
    exact supports novel (noted.current.mp now) (sameCategory ▸ category)
  cases effect with
  | same => exact fresh
  | @untyped found l₁ result l₂ free bare judged chosen effect superseded =>
    have retires : WriteRetires rt svc context clock s request candidate extracted query =
        fun k => found.Retires s.toLedger request clock k ∨ request.supersedeFactId = some k := by
      funext k
      simp only [WriteRetires, judged, chosen.found]
    have stores : WriteStores rt svc context s request candidate extracted query =
        ∀ factId, found ≠ .duplicate factId := by
      simp only [WriteStores, judged, chosen.found]
    obtain ⟨spared, supports⟩ := spares free
    rw [retires] at spared supports
    rw [stores] at supports
    have tracked : Outlasting (fun k => found.Retires s.toLedger request clock k ∨ request.supersedeFactId = some k)
        s.toLedger l' fun f => request.Noted (fun k => found.Retires s.toLedger request clock k ∨
          request.supersedeFactId = some k) s.nextFactId f ∧ ∀ factId, found ≠ .duplicate factId := by
      intro f hf
      obtain ⟨g, hg, later⟩ := (superseded.tracked f hf).resolve_right id
      rcases effect.tracked keyed g hg with ⟨h, hh, earlier⟩ | ⟨noted, novel⟩
      · exact .inl ⟨h, hh, earlier.trans later⟩
      · exact .inr ⟨noted.trans later, novel⟩
    exact outlastingFresh fresh spared tracked (stored supports)
  | @typed c slot effective l₁ free given judged effect =>
    have retires : WriteRetires rt svc context clock s request candidate extracted query =
        slot.Retires s.toLedger effective := by
      funext k
      simp only [WriteRetires, judged]
    have stores : WriteStores rt svc context s request candidate extracted query = (slot.evidence = none) := by
      simp only [WriteStores, judged]
    obtain ⟨spared, supports⟩ := spares free
    rw [retires] at spared supports
    rw [stores] at supports
    exact outlastingFresh fresh spared (effect.tracked keyed) (stored supports)

end Writes

/-! ## Erasure -/

def Ledger.Erases (rt : Runtime) (l : Ledger) (factId k : Nat) : Prop :=
  k = factId ∨ ∃ f ∈ l.facts, f.factId = k ∧ accepts (Fact.cites rt factId) f = true

theorem eraseTracked {factId insights conflicts : Nat} {requestedBy erasedAt : String} {new : Fact → Prop}
    (keyed : l.Keyed) (h : eraseLedger rt l factId requestedBy erasedAt = .ok (l', insights, conflicts)) :
    Outlasting (l.Erases rt factId) l l' new := by
  intro f hf
  left
  by_cases own : f.factId = factId
  · obtain ⟨cited, lonely, rfl, -, -⟩ := eraseLedgerSource keyed h
    obtain ⟨g, hg, rfl⟩ := List.mem_map.mp hf
    have same : g.factId = factId := erasedId.symm.trans own
    refine ⟨g, hg, tracksRetired erasedId ?_ (.inl same)⟩
    unfold Fact.erased
    dsimp only
    rw [if_pos same]
    split
    · exact Option.some_ne_none _
    · cases invalid : g.invalidAt with
      | none => simp [Fact.scrub, invalid]
      | some at' => simp [Fact.scrub, invalid]
  · have others := eraseLedgerOthers keyed.factIds h
    have kept : f ∈ l'.facts.filter (·.factId ≠ factId) := List.mem_filter.mpr ⟨hf, decide_eq_true own⟩
    rw [others] at kept
    obtain ⟨g, hg, rfl⟩ := List.mem_map.mp kept
    obtain ⟨hg, other⟩ := List.mem_filter.mp hg
    refine ⟨g, hg, ?_⟩
    unfold Fact.bereaved
    split
    · rename_i cites
      exact tracksRetired rfl (Option.some_ne_none _) (.inr ⟨g, hg, rfl, cites⟩)
    · rename_i spared
      refine tracks ?_
      rintro (same | ⟨h, hh, same, cites⟩)
      · exact of_decide_eq_true other same
      · exact spared (Table.uniqueEq keyed.factIds hh hg same ▸ cites)

/-! ## Runs -/

/-- The operation retires no source of an insight that stays current, and an insight it stores has current
sources. -/
def Operation.SparesSources (s : Store) (o : Operation rt) : Prop :=
  o.WritesMeet (fun svc context s timed query => ∀ extracted,
    extractedTypedFields rt timed.item.request timed.item.candidate = .ok extracted →
    Enfold.SparesSources rt svc context timed.clock s timed.item.request timed.item.candidate extracted query) s ∧
  match o with
  | .resolveConflict _ _ conflictId factId _ _ _ => s.toLedger.Spares (s.toLedger.Loses conflictId factId)
  | .eraseFact factId _ _ _ => s.toLedger.Spares (s.toLedger.Erases rt factId)
  | _ => True

section Operations
variable {svc : WriteService} {effective : ConnectionContext} {s t : Store}

structure InsightStore (s : Store) : Prop where
  keyed : s.toLedger.Keyed
  fresh : s.toLedger.InsightsFresh

theorem stepInsights {timed : TimedWrite rt} {query : Option (List Rat)} {outcome : WriteOutcome}
    (authorized : svc.policy.authorizeContext rt svc.legacyAuthorized effective = .ok effective)
    (spares : ∀ extracted, extractedTypedFields rt timed.item.request timed.item.candidate = .ok extracted →
      SparesSources rt svc effective timed.clock s timed.item.request timed.item.candidate extracted query)
    (h : batchStep rt svc effective s (timed, query) = .ok (t, outcome)) (store : InsightStore s) :
    InsightStore t := by
  obtain ⟨extracted, -, fields, done⟩ := batchStepSource authorized h
  have effect := transactEffect store.keyed done
  exact ⟨effect.keyed store.keyed, effect.fresh store.keyed store.fresh (spares extracted fields)⟩

theorem performInsights {o : Operation rt} (kind : o.isMerge = false) (spares : o.SparesSources s)
    (done : o.perform s = .ok t) (store : InsightStore s) : InsightStore t := by
  have keyed := performKeyed done store.keyed
  cases o with
  | write svc context timed =>
    exact writeKeeps (P := InsightStore) (fun authorized spares h => stepInsights authorized spares h)
      spares.1 done store
  | writeBatch svc context writes rollbackIf completes =>
    exact batchKeeps (P := InsightStore) (fun authorized spares h => stepInsights authorized spares h)
      (fun store => ⟨store.keyed, store.fresh⟩) spares.1 done store
  | resolveConflict svc context conflictId factId reason resolvedAt queuedAt =>
    simp only [Operation.perform, bindOk, Prod.exists] at done
    obtain ⟨effective, -, u, resolution, resolved, last⟩ := done
    cases last
    obtain ⟨clients, sessions, resolutions, jobs, l, settled, rfl⟩ := resolveConflictSource resolved
    obtain ⟨row, w, -, -, -, left, -⟩ := resolveStateConflictSource store.keyed settled
    have tracked : Outlasting _ _ _ fun _ => False := resolveTracked store.keyed left
    exact ⟨keyed, outlastingFresh store.fresh spares.2 tracked fun _ => False.elim⟩
  | eraseFact factId requestedBy reason erasedAt =>
    simp only [Operation.perform, bindOk, Prod.exists] at done
    obtain ⟨u, report, erased, last⟩ := done
    cases last
    obtain ⟨insights, conflicts, linked, erased, -⟩ := eraseFactSource erased
    have tracked : Outlasting _ _ _ fun _ => False := eraseTracked store.keyed erased
    exact ⟨keyed, outlastingFresh store.fresh spares.2 tracked fun _ => False.elim⟩
  | mergeClusters => cases kind
  | storeEmbedding =>
    cases done
    exact ⟨keyed, store.fresh⟩

/-- While no operation retires a source of an insight it leaves current, every source of a current insight
is current. -/
theorem noStaleInsight {ops : List (Operation rt)} (kinds : ∀ o ∈ ops, o.isMerge = false)
    (spares : Run.Meets Operation.perform Operation.SparesSources Store.empty ops) :
    ∀ insight tags, (history ops).toLedger.Insight insight tags → ∀ k ∈ citedIds tags,
      ∀ f ∈ (history ops).facts, f.factId = k → f.current = true := by
  have empty : InsightStore Store.empty :=
    ⟨soundEmpty.toKeyed, fun _ _ ⟨_, hi, _⟩ => absurd hi List.not_mem_nil⟩
  have store : InsightStore (history ops) := Run.invariantWhen (P := InsightStore)
    (fun _ _ _ meets done store => performInsights meets.1 meets.2 done store) (Run.meetsKind kinds spares) empty
  exact store.fresh

end Operations

namespace Example

def drawn : TimedWrite .plain where
  clock := .at "2026-01-03"
  item := {
    request := { WriteRequest.plain "k2" "felines rest" "user" with
      category := "insight"
      tags := "source_facts:1" }
    candidate := none
    requestBuilt := by decide +kernel
    candidateBuilt := WriteItem.unslotted }

/-- The source of an insight is superseded by id. -/
def premiseGone : List (Operation .plain) :=
  [.write trusted caller (claim "k1" "the cat sat on the mat" none catClaimed),
    .write trusted caller drawn,
    .write trusted caller (claim "k3" "the cat is out" (some 1) (by decide +kernel))]

theorem insightStale : (premiseGone.all fun o => !o.isMerge) = true ∧
    ∃ insight tags, (history premiseGone).toLedger.Insight insight tags ∧ ∃ k ∈ citedIds tags,
      ∃ f ∈ (history premiseGone).facts, f.factId = k ∧ f.current = false := by
  refine ⟨by decide, 2, "source_facts:1", ?_, 1, by decide +kernel, ?_⟩
  · have stored : ∃ i ∈ (history premiseGone).facts, i.factId = 2 ∧ i.category = "insight" ∧ i.current = true ∧
        i.tags = "source_facts:1" := by decide +kernel
    exact stored
  · decide +kernel

-- a service that searches nothing retires only what it is asked to
theorem unsearchedRetires {context : ConnectionContext} {s : Store} {request : WriteRequest} {clock : Clock}
    {extracted : Option ExtractedTypedFields} {query : Option (List Rat)} (plain : request.supersedeFactId = none)
    (k : Nat) : ¬ WriteRetires .plain trusted context clock s request none extracted query k := by
  unfold WriteRetires
  split
  · rintro (near | asked)
    · have matched : Matched .plain trusted s request extracted query _ := untypedMatchSource
      have unsearched : findUntypedNearDuplicate .plain trusted s request query = none := by
        unfold findUntypedNearDuplicate
        cases query with
        | none => rfl
        | some _ => rfl
      cases found : untypedMatch .plain trusted s request extracted query with
      | nearDuplicate candidate =>
        rw [found] at matched
        cases matched with
        | nearDuplicate _ _ _ nearest => rw [unsearched] at nearest; cases nearest
      | _ =>
        rw [found] at near
        exact near
    · rw [plain] at asked
      cases asked
  · rename_i judged
    obtain ⟨c, -, given, -⟩ := verdictTyped judged
    cases given
  · exact id

theorem plainSpares {timed : TimedWrite .plain} {s : Store} (bare : timed.item.candidate = none)
    (plain : timed.item.request.supersedeFactId = none)
    (current : ∀ f ∈ s.facts, f.factId ∈ citedIds timed.item.request.tags → f.current = true) :
    (Operation.write trusted caller timed).SparesSources s := by
  refine ⟨fun effective query _ _ extracted _ free => ?_, trivial⟩
  rw [bare]
  refine ⟨fun _ _ _ _ k _ => unsearchedRetires plain k, fun _ _ _ k cited => ⟨unsearchedRetires plain k, ?_⟩⟩
  rintro f hf rfl
  exact current f hf cited

def premiseKept : List (Operation .plain) :=
  [.write trusted caller (claim "k1" "the cat sat on the mat" none catClaimed),
    .write trusted caller drawn,
    .write trusted caller (claim "k3" "dogs bark loudly" none dogsClaimed)]

theorem noStaleInsightHere : (history premiseKept).toLedger.Insight 2 "source_facts:1" ∧ 1 ∈ citedIds "source_facts:1" ∧
    ∀ f ∈ (history premiseKept).facts, f.factId = 1 → f.current = true := by
  have insight : ∃ i ∈ (history premiseKept).facts, i.factId = 2 ∧ i.category = "insight" ∧ i.current = true ∧
      i.tags = "source_facts:1" := by decide +kernel
  have cited : 1 ∈ citedIds "source_facts:1" := by decide +kernel
  have kinds : ∀ o ∈ premiseKept, o.isMerge = false := fun o ho => by
    simpa using List.all_eq_true.mp (by decide : (premiseKept.all fun o => !o.isMerge) = true) o ho
  have spares : Run.Meets Operation.perform Operation.SparesSources Store.empty premiseKept :=
    ⟨plainSpares rfl rfl (by decide +kernel), plainSpares rfl rfl (by decide +kernel),
      plainSpares rfl rfl (by decide +kernel), trivial⟩
  exact ⟨insight, cited, noStaleInsight kinds spares 2 _ insight 1 cited⟩

end Example

end Enfold
