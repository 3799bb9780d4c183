import Enfold.CursorCaps
import Enfold.RecallBudget

/-! The conflicts, measured again with every conflict and member, and the context, packed again with one
candidate less, within their caps; and the caps of all the read handlers together. -/
namespace Enfold.ReadResponses

open Fallible Fitting

variable {floats : FloatText} {bounds : OutputBounds} {truncated : Bool}

/-! ## Conflicts -/

theorem itemSize (item : ConflictItem) : item.json.size floats .bytes =
    123 + (Json.str item.record.conflictId).size floats .bytes + (Json.str item.record.scope).size floats .bytes +
      (Json.str item.record.subjectKey).size floats .bytes + (Json.str item.record.predicateKey).size floats .bytes +
      (Json.arr (item.record.memberFactIds.map Json.int)).size floats .bytes +
      (Json.str item.record.detectedAt).size floats .bytes + boolSize item.record.membersTruncated +
      (rowsJson item.members).size floats .bytes := by
  rw [ConflictItem.json, sizeObj]
  simp (disch := decide) only [List.map_cons, List.map_nil, List.sum_cons, List.sum_nil, plainKey, boolSized,
    String.reduceToList, List.length_cons, List.length_nil, rowsJson]
  omega

theorem conflictsSize (r : ConflictsResponse) : r.json.size floats .bytes =
    34 + (Json.arr (r.conflicts.map ConflictItem.json)).size floats .bytes + boolSize r.outputTruncated := by
  rw [ConflictsResponse.json, sizeObj]
  simp (disch := decide) only [List.map_cons, List.map_nil, List.sum_cons, List.sum_nil, plainKey, boolSized,
    String.reduceToList, List.length_cons, List.length_nil]
  omega

theorem conflictsWithin {r : ConflictsResponse} :
    r.within floats bounds = true ↔ r.json.size floats .bytes ≤ bounds.conflictsMaxTotalBytes := decide_eq_true_iff

variable {done : List ConflictItem} {item item' : ConflictItem} {flag flag' : Bool}

theorem lastShrinks (smaller : item'.json.size floats .bytes ≤ item.json.size floats .bytes)
    (raised : flag = true → flag' = true)
    (within : ConflictsResponse.within floats bounds ⟨done ++ [item], flag⟩ = true) :
    ConflictsResponse.within floats bounds ⟨done ++ [item'], flag'⟩ = true := by
  have flags := boolShrinks raised
  rw [conflictsWithin, conflictsSize, sizeArr] at within ⊢
  simp only [List.map_append, List.map_cons, List.map_nil, List.sum_append, List.sum_cons, List.sum_nil] at within ⊢
  omega

theorem retainSmaller {retained : List Int} (some' : retained.Sublist item.record.memberFactIds) {cut : Bool}
    (raised : item.record.membersTruncated = true → cut = true) :
    (item.retain retained cut).json.size floats .bytes ≤ item.json.size floats .bytes := by
  have flags := boolShrinks raised
  have ids : (Json.arr (retained.map Json.int)).size floats .bytes ≤
      (Json.arr (item.record.memberFactIds.map Json.int)).size floats .bytes := sizeSublist (some'.map _)
  rw [itemSize, itemSize, ConflictItem.retain]
  dsimp only
  omega

section Members
variable {membersById : Int → Option JsonObject}

def ConflictRecord.whole (membersById : Int → Option JsonObject) (record : ConflictRecord) : ConflictItem :=
  ⟨record, record.memberFactIds.filterMap membersById⟩

theorem addMembersSource {ids retained : List Int} (known : ∀ id ∈ ids, (membersById id).isSome)
    (listed : (retained ++ ids).Sublist item.record.memberFactIds)
    (within : ConflictsResponse.within floats bounds ⟨done ++ [item], flag⟩ = true) :
    ConflictsResponse.within floats bounds
        ⟨done ++ [(addMembers floats bounds membersById done ids retained item flag).1],
          (addMembers floats bounds membersById done ids retained item flag).2⟩ = true ∧
      (flag = true → (addMembers floats bounds membersById done ids retained item flag).2 = true) ∧
      ((addMembers floats bounds membersById done ids retained item flag).2 = true ∨
        (addMembers floats bounds membersById done ids retained item flag).1 =
          ⟨{ item.record with memberFactIds := retained ++ ids }, item.members ++ ids.filterMap membersById⟩) := by
  induction ids generalizing retained item flag with
  | nil =>
    rw [List.append_nil] at listed
    rw [addMembers]
    refine ⟨lastShrinks (retainSmaller listed id) id within, id, .inr ?_⟩
    rw [List.append_nil, List.filterMap_nil, List.append_nil]
    rfl
  | cons id ids ih =>
    obtain ⟨member, found⟩ := Option.isSome_iff_exists.mp (known id List.mem_cons_self)
    have next : (retained ++ [id] ++ ids).Sublist item.record.memberFactIds := by
      rwa [List.append_assoc, List.singleton_append]
    have before : retained.Sublist item.record.memberFactIds := (List.sublist_append_left _ _).trans listed
    rw [addMembers, found]
    dsimp only
    generalize cut : truncateFactContent member bounds.maxFactChars = shown
    by_cases grown : ConflictsResponse.within floats bounds ⟨done ++ [item.addMember shown.1], flag⟩ = true
    · rw [if_pos grown]
      have lifted : ConflictsResponse.within floats bounds ⟨done ++ [item.addMember shown.1], flag || shown.2⟩ =
          true := lastShrinks (Nat.le_refl _) (fun raised => by rw [raised, Bool.true_or]) grown
      obtain ⟨size, kept, flagged⟩ :=
        @ih (item.addMember shown.1) _ _ (fun id inside => known id (List.mem_cons_of_mem _ inside)) next lifted
      refine ⟨size, fun raised => kept (by rw [raised, Bool.true_or]), ?_⟩
      rcases flagged with raised | whole
      · exact .inl raised
      · cases shortened : shown.2 with
        | true => exact .inl (shortened ▸ kept (by rw [shortened, Bool.or_true]))
        | false =>
          have same : shown.1 = member := uncutContent (cut.trans (Prod.ext rfl shortened))
          rw [shortened] at whole
          refine .inr ?_
          rw [whole, List.filterMap_cons_some found, same]
          simp only [ConflictItem.addMember, List.append_assoc, List.singleton_append]
    · rw [if_neg grown]
      exact ⟨lastShrinks (retainSmaller before fun _ => rfl) (fun _ => rfl) within, fun _ => rfl, .inl rfl⟩

theorem addConflictsSource {records : List ConflictRecord}
    (known : ∀ record ∈ records, ∀ id ∈ record.memberFactIds, (membersById id).isSome)
    (within : ConflictsResponse.within floats bounds ⟨done, flag⟩ = true) :
    (addConflicts floats bounds membersById done flag records).within floats bounds = true ∧
      (flag = true → (addConflicts floats bounds membersById done flag records).outputTruncated = true) ∧
      ((addConflicts floats bounds membersById done flag records).outputTruncated = true ∨
        (addConflicts floats bounds membersById done flag records).conflicts =
          done ++ records.map (ConflictRecord.whole membersById)) := by
  induction records generalizing done flag with
  | nil =>
    rw [addConflicts]
    exact ⟨within, id, .inr (List.append_nil done).symm⟩
  | cons record records ih =>
    rw [addConflicts]
    split
    · rename_i grown
      have listed : ([] ++ record.memberFactIds).Sublist (⟨record, []⟩ : ConflictItem).record.memberFactIds :=
        List.Sublist.refl _
      obtain ⟨size, kept, flagged⟩ := addMembersSource (known record List.mem_cons_self) listed grown
      generalize addMembers floats bounds membersById done record.memberFactIds [] ⟨record, []⟩ flag = out
        at size kept flagged ⊢
      dsimp only
      obtain ⟨size', kept', flagged'⟩ := ih (fun r inside => known r (List.mem_cons_of_mem _ inside)) size
      refine ⟨size', fun raised => kept' (kept raised), ?_⟩
      rcases flagged' with raised | whole'
      · exact .inl raised
      · rcases flagged with raised | whole
        · exact .inl (kept' raised)
        · refine .inr ?_
          rw [whole', whole, List.append_assoc, List.map_cons]
          rfl
    · have raise : (flag = true → true = true) := fun _ => rfl
      refine ⟨?_, raise, .inl rfl⟩
      have flags := boolShrinks raise
      rw [conflictsWithin, conflictsSize] at within ⊢
      dsimp only at within ⊢
      omega

end Members

theorem readConflictsSource {limit memberLimit : Nat} {records : List ConflictRecord}
    {scopes : List (List ConflictRecord)} (few : limit ≤ maxConflictLimit) (short : records.length ≤ limit + 1) :
    readConflicts limit memberLimit records scopes =
      (records ++ scopes.flatten.map (ConflictRecord.cutMembers memberLimit)).take (limit + 1) := by
  induction scopes generalizing records with
  | nil => rw [readConflicts, List.flatten_nil, List.map_nil, List.append_nil, List.take_of_length_le short]
  | cons scope scopes ih =>
    rw [readConflicts, List.flatten_cons, List.map_append]
    dsimp only
    by_cases full : limit + 1 - records.length = 0
    · rw [if_pos full, List.take_left' (by omega)]
    rw [if_neg full]
    generalize room : limit + 1 - records.length = remaining at full ⊢
    have most : remaining ≤ maxConflictLimit + 1 := by omega
    have taken : (if ((listStateConflicts scope (min remaining maxConflictLimit) 0 memberLimit).length < remaining &&
          (listStateConflicts scope (min remaining maxConflictLimit) 0 memberLimit).length = maxConflictLimit) = true
        then records ++ (listStateConflicts scope (min remaining maxConflictLimit) 0 memberLimit).take remaining ++
          listStateConflicts scope 1 maxConflictLimit memberLimit
        else records ++ (listStateConflicts scope (min remaining maxConflictLimit) 0 memberLimit).take remaining) =
        records ++ (scope.map (ConflictRecord.cutMembers memberLimit)).take remaining := by
      simp only [listStateConflicts, List.drop_zero, List.map_take, List.map_drop, List.take_take, List.length_take,
        List.length_map, Bool.and_eq_true, decide_eq_true_eq]
      have whole : scope.length = (scope.map (ConflictRecord.cutMembers memberLimit)).length := List.length_map _ |>.symm
      rw [whole]
      generalize scope.map (ConflictRecord.cutMembers memberLimit) = all
      split
      · rename_i last
        obtain ⟨more, reached⟩ := last
        have next : remaining = maxConflictLimit + 1 := by omega
        have inner : min remaining (min remaining maxConflictLimit) = maxConflictLimit := by omega
        rw [inner, next, List.append_assoc, ← List.take_add]
      · rename_i unreached
        have inner : all.take (min remaining (min remaining maxConflictLimit)) = all.take remaining := by
          by_cases most' : remaining ≤ maxConflictLimit
          · rw [Nat.min_eq_left most', Nat.min_self]
          · rw [List.take_of_length_le (by omega), List.take_of_length_le (by omega)]
        rw [inner]
    rw [taken, ih]
    · generalize scope.map (ConflictRecord.cutMembers memberLimit) = all
      rw [← room, ← List.append_assoc]
      by_cases fewer : all.length ≤ limit + 1 - records.length
      · rw [List.take_of_length_le fewer]
      · have filled : (records ++ all.take (limit + 1 - records.length)).length = limit + 1 := by
          rw [List.length_append, List.length_take]
          omega
        rw [List.take_left' filled, List.append_assoc, List.take_append, List.take_of_length_le short,
          List.take_append_of_le_length (by omega)]
    · rw [List.length_append, List.length_take]
      omega

theorem cutWhole {memberLimit : Nat} {record : ConflictRecord} (uncut : record.membersTruncated = false)
    (unflagged : (record.cutMembers memberLimit).membersTruncated = false) : record.cutMembers memberLimit = record := by
  have few : record.memberFactIds.length ≤ memberLimit := Nat.not_lt.mp (of_decide_eq_false unflagged)
  cases record
  simp only [ConflictRecord.cutMembers] at few unflagged uncut ⊢
  rw [List.take_of_length_le few, unflagged, uncut]

theorem readWhole {limit memberLimit : Nat} {all records : List ConflictRecord}
    (reading : (all.map (ConflictRecord.cutMembers memberLimit)).take (limit + 1) = records)
    (uncut : ∀ record ∈ all, record.membersTruncated = false)
    (unflagged : (decide (limit < records.length) || (records.take limit).any ConflictRecord.membersTruncated) =
      false) : records.take limit = all := by
  obtain ⟨short, plain⟩ := Bool.or_eq_false_iff.mp unflagged
  have few : records.length ≤ limit := Nat.not_lt.mp (of_decide_eq_false short)
  have length := congrArg List.length reading
  rw [List.length_take, List.length_map] at length
  rw [List.take_of_length_le (by rw [List.length_map]; omega)] at reading
  rw [List.take_of_length_le few, ← reading] at plain ⊢
  have each : ∀ record ∈ all, record.cutMembers memberLimit = record := fun record inside =>
    cutWhole (uncut record inside)
      (Bool.eq_false_iff.mpr (List.any_eq_false.mp plain _ (List.mem_map_of_mem inside)))
  exact (List.map_congr_left each).trans (List.map_id _)

theorem conflictsHold {limit : Nat} (few : limit ≤ maxConflictLimit) (reads : ConflictReads) :
    (conflictsResponse floats bounds limit reads).json.size floats .bytes ≤ bounds.conflictsMaxTotalBytes ∧
      ((conflictsResponse floats bounds limit reads).conflicts ≠
          reads.scopes.flatten.map (ConflictRecord.whole reads.membersById) →
        (conflictsResponse floats bounds limit reads).outputTruncated = true) := by
  have source : readConflicts limit (min limit bounds.searchMaxResults) [] reads.scopes = _ :=
    readConflictsSource few (Nat.zero_le _)
  have base : ∀ flag, ConflictsResponse.within floats bounds ⟨[], flag⟩ = true := by
    intro flag
    have least := bounds.bytes.2.2
    have most := boolMost flag
    rw [conflictsWithin, conflictsSize, List.map_nil, emptySize]
    dsimp only
    omega
  have uncut : ∀ record ∈ reads.scopes.flatten, record.membersTruncated = false := by
    intro record inside
    obtain ⟨scope, visible, within⟩ := List.mem_flatten.mp inside
    exact reads.uncut scope visible record within
  rw [conflictsResponse, source, List.nil_append]
  generalize reading : (reads.scopes.flatten.map (ConflictRecord.cutMembers (min limit bounds.searchMaxResults))).take
    (limit + 1) = records
  have known : ∀ record ∈ records.take limit, ∀ id ∈ record.memberFactIds, (reads.membersById id).isSome := by
    intro record inside id member
    rw [← reading] at inside
    obtain ⟨record, listed, rfl⟩ := List.mem_map.mp (List.mem_of_mem_take (List.mem_of_mem_take inside))
    obtain ⟨scope, visible, within⟩ := List.mem_flatten.mp listed
    exact reads.covered scope visible record within id (List.mem_of_mem_take member)
  obtain ⟨within, kept, flagged⟩ := addConflictsSource known (base _)
  refine ⟨conflictsWithin.mp within, fun dropped => ?_⟩
  cases raised : (decide (limit < records.length) || (records.take limit).any ConflictRecord.membersTruncated) with
  | true =>
    rw [raised] at kept
    exact kept rfl
  | false =>
    rw [raised] at flagged dropped
    refine flagged.resolve_right fun whole => dropped ?_
    rw [whole, readWhole reading uncut raised, List.nil_append]

/-! ## Context -/

variable (floats) in
theorem contextSmaller (reads : ContextReads) (r : ContextResponse) :
    (ContextResponse.json reads { r with retrieval := [], outputTruncated := true }).size floats .characters ≤
      (r.json reads).size floats .characters := by
  have retrieval := emptyObjLeast floats .characters r.retrieval
  have flag : boolSize true ≤ boolSize r.outputTruncated := by cases r.outputTruncated <;> decide
  have cut : memberSize floats .characters ("retrieval", .obj []) ≤
      memberSize floats .characters ("retrieval", .obj r.retrieval) := by
    rw [plainKey (by decide), plainKey (by decide), emptyObjSize]
    omega
  have raised : memberSize floats .characters ("output_truncated", .bool true) ≤
      memberSize floats .characters ("output_truncated", .bool r.outputTruncated) := by
    rw [plainKey (by decide), plainKey (by decide), boolSized, boolSized]
    omega
  rw [ContextResponse.json, ContextResponse.json, sizeObj, sizeObj]
  simp only [List.map_cons, List.map_nil, List.sum_cons, List.sum_nil]
  omega

theorem contextWithin {reads : ContextReads} {r : ContextResponse} : r.within floats bounds reads = true ↔
    (r.json reads).size floats .characters ≤ bounds.contextMaxTotalChars := decide_eq_true_iff

section Context
variable {ε : Type} {pack : List PackCandidate → Except ε ContextPack} {reads : ContextReads}

-- whether the loop flags its answer with the candidates `kept` of all
def keptFlag (truncated : Bool) (all kept : List PackCandidate) (packed : ContextPack) : Bool :=
  (truncated || kept.length != all.length) || packShortened packed

def contextKept (reads : ContextReads) (truncated : Bool) (all kept : List PackCandidate) (packed : ContextPack) :
    ContextResponse := ⟨packed, reads.metadata, keptFlag truncated all kept packed⟩

theorem keptWhole (truncated : Bool) (all : List PackCandidate) (packed : ContextPack) :
    keptFlag truncated all all packed = (truncated || packShortened packed) := by
  rw [keptFlag, bne_self_eq_false, Bool.or_false]

theorem keptShorter {kept rest : List PackCandidate} {last : PackCandidate} (inside : kept <+: rest.reverse)
    (truncated : Bool) (packed : ContextPack) :
    keptFlag true rest.reverse kept packed = keptFlag truncated (last :: rest).reverse kept packed := by
  have shorter := inside.length_le
  have popped : (kept.length != (last :: rest).reverse.length) = true := by
    simp only [List.length_reverse, List.length_cons, bne_iff_ne] at shorter ⊢
    omega
  rw [keptFlag, keptFlag, popped, Bool.true_or, Bool.or_true, Bool.true_or]

inductive ContextEnds (floats : FloatText) (bounds : OutputBounds) (pack : List PackCandidate → Except ε ContextPack)
    (reads : ContextReads) (truncated : Bool) (all : List PackCandidate) : ContextResponse → Prop where
  | kept {kept packed} (inside : kept <+: all) (made : pack kept = .ok packed)
      (fits : (contextKept reads truncated all kept packed).within floats bounds reads = true) :
      ContextEnds floats bounds pack reads truncated all (contextKept reads truncated all kept packed)
  | bare {packed retrieval} (made : pack [] = .ok packed)
      (none : ∀ kept packed, kept <+: all → pack kept = .ok packed →
        (contextKept reads truncated all kept packed).within floats bounds reads = false)
      (last : ContextResponse.within floats bounds reads ⟨packed, retrieval, keptFlag truncated all [] packed⟩ =
        true ∨ retrieval = []) :
      ContextEnds floats bounds pack reads truncated all ⟨packed, retrieval, keptFlag truncated all [] packed⟩

variable (floats bounds reads truncated) in
theorem contextLoopEnds (packs : ∀ kept, ∃ packed, pack kept = .ok packed) (reversed : List PackCandidate) :
    ∃ r, contextLoop floats bounds pack reads truncated reversed = .ok r ∧
      ContextEnds floats bounds pack reads truncated reversed.reverse r := by
  induction reversed generalizing truncated with
  | nil =>
    obtain ⟨packed, made⟩ := packs []
    rw [contextLoop, made]
    simp only [okBind, List.reverse_nil, ← keptWhole truncated [] packed]
    split
    · rename_i fits
      exact ⟨_, rfl, .kept List.prefix_rfl made fits⟩
    · rename_i exceeds
      have none : ∀ kept packed, kept <+: [] → pack kept = .ok packed →
          (contextKept reads truncated [] kept packed).within floats bounds reads = false := by
        intro kept packed' inside made'
        obtain rfl := List.prefix_nil.mp inside
        rw [made] at made'
        cases made'
        exact Bool.eq_false_iff.mpr exceeds
      split
      · rename_i fits
        exact ⟨_, rfl, .bare made none (.inl fits)⟩
      · exact ⟨_, rfl, .bare made none (.inr rfl)⟩
  | cons last rest ih =>
    obtain ⟨packed, made⟩ := packs (last :: rest).reverse
    rw [contextLoop, made]
    simp only [okBind, ← keptWhole truncated (last :: rest).reverse packed]
    split
    · rename_i fits
      exact ⟨_, rfl, .kept List.prefix_rfl made fits⟩
    · rename_i exceeds
      obtain ⟨r, looped, ends⟩ := ih true
      refine ⟨r, looped, ?_⟩
      have shorter : rest.reverse <+: (last :: rest).reverse := by
        rw [List.reverse_cons]
        exact List.prefix_append _ _
      cases ends with
      | kept inside made fits =>
        rw [contextKept, keptShorter inside truncated] at fits ⊢
        exact .kept (inside.trans shorter) made fits
      | bare made' none last' =>
        rw [keptShorter List.nil_prefix truncated] at last' ⊢
        refine .bare made' (fun kept packed' inside made'' => ?_) last'
        rcases List.prefix_concat_iff.mp (List.reverse_cons ▸ inside) with whole | shorter'
        · rw [← List.reverse_cons] at whole
          subst whole
          rw [made] at made''
          cases made''
          exact Bool.eq_false_iff.mpr exceeds
        · have here := none kept packed' shorter' made''
          rwa [contextKept, keptShorter shorter' truncated] at here

end Context

variable {rt : Runtime} {unicode : UnicodeText} {tokenBudget : Int}

variable (bounds rt unicode) in
theorem contextPacks (positive : 0 < tokenBudget) (reads : ContextReads) (kept : List PackCandidate) :
    ∃ packed, contextPack bounds rt unicode tokenBudget reads kept = .ok packed := by
  have valid : PackArguments tokenBudget (some bounds.maxFactChars) (some bounds.contextMaxResults)
      bounds.contextMmrLambda := by
    refine ⟨positive, ?_, ?_, bounds.lambda⟩
    · rintro _ ⟨⟩
      exact Int.ofNat_le.mpr bounds.marker
    · rintro _ ⟨⟩
      exact Int.ofNat_le.mpr bounds.results.2
  have packs : ∃ packed, contextPack bounds rt unicode tokenBudget reads kept = .ok packed ∧ _ := packRespects valid
  obtain ⟨packed, made, -⟩ := packs
  exact ⟨packed, made⟩

-- nothing is packed, so nothing is shortened
theorem emptyUnshortened {reads : ContextReads} {packed : ContextPack}
    (made : contextPack bounds rt unicode tokenBudget reads [] = .ok packed) : packShortened packed = false := by
  have gates := (packedRespects made).gates
  refine List.any_eq_false.mpr fun entry inside shortened => ?_
  cases shown : entry.promptFact with
  | none =>
    rw [shown] at shortened
    cases shortened
  | some p =>
    have listed : p.source ∈ promptSources packed.facts :=
      List.mem_map_of_mem (List.mem_filterMap.mpr ⟨entry, inside, shown⟩)
    exact List.not_mem_nil (gates p.source listed).1

structure ContextResponse.Holds (floats : FloatText) (bounds : OutputBounds) (rt : Runtime) (unicode : UnicodeText)
    (tokenBudget : Int) (reads : ContextReads) (r : ContextResponse) : Prop where
  within : (r.json reads).size floats .characters ≤ bounds.contextMaxTotalChars
  flagged : contextPack bounds rt unicode tokenBudget reads reads.rows ≠ .ok r.pack ∨
    packShortened r.pack = true ∨ r.retrieval ≠ reads.metadata → r.outputTruncated = true

def contextCandidates (bounds : OutputBounds) (reads : ContextReads) : List PackCandidate :=
  reads.rows.take (bounds.contextMaxResults * 4)

def ContextRoom (floats : FloatText) (bounds : OutputBounds) (rt : Runtime) (unicode : UnicodeText)
    (tokenBudget : Int) (reads : ContextReads) : Prop :=
  (∃ kept packed, kept <+: contextCandidates bounds reads ∧
    contextPack bounds rt unicode tokenBudget reads kept = .ok packed ∧
    (contextKept reads (bounds.contextMaxResults * 4 < reads.rows.length) (contextCandidates bounds reads) kept
      packed).within floats bounds reads = true) ∨
  reads.rows ≠ [] ∧ ∃ packed, contextPack bounds rt unicode tokenBudget reads [] = .ok packed ∧
    ContextResponse.within floats bounds reads ⟨packed, [], true⟩ = true

theorem contextHolds (positive : 0 < tokenBudget) (reads : ContextReads) :
    (∃ r, contextResponse floats bounds rt unicode tokenBudget reads = .ok r ∧
      r.Holds floats bounds rt unicode tokenBudget reads) ↔
      ContextRoom floats bounds rt unicode tokenBudget reads := by
  have results := bounds.results.2
  obtain ⟨r, responded, ends⟩ := contextLoopEnds floats bounds
    (bounds.contextMaxResults * 4 < reads.rows.length) reads
    (contextPacks bounds rt unicode positive reads)
    (contextCandidates bounds reads).reverse
  rw [List.reverse_reverse] at ends
  have response : contextResponse floats bounds rt unicode tokenBudget reads = .ok r := responded
  have only : (∃ r, contextResponse floats bounds rt unicode tokenBudget reads = .ok r ∧
      r.Holds floats bounds rt unicode tokenBudget reads) ↔ r.Holds floats bounds rt unicode tokenBudget reads := by
    rw [response]
    constructor
    · rintro ⟨_, ⟨⟩, holds⟩
      exact holds
    · exact fun holds => ⟨r, rfl, holds⟩
  rw [only]
  cases ends with
  | kept inside made fits =>
    rename_i kept packed
    refine iff_of_true ⟨contextWithin.mp fits, fun dropped => ?_⟩ (.inl ⟨kept, packed, inside, made, fits⟩)
    by_contra unflagged
    have plain := Bool.eq_false_iff.mpr unflagged
    simp only [contextKept, keptFlag, Bool.or_eq_false_iff, decide_eq_false_iff_not, Nat.not_lt, bne_eq_false_iff_eq]
      at plain
    obtain ⟨⟨few, whole⟩, unshortened⟩ := plain
    have same : kept = reads.rows := by
      rw [inside.eq_of_length whole, contextCandidates, List.take_of_length_le few]
    rcases dropped with changed | changed | changed
    · exact changed (same ▸ made)
    · exact Bool.eq_false_iff.mp unshortened changed
    · exact changed rfl
  | bare made none last =>
    rename_i packed retrieval
    have exceeds := none [] packed List.nil_prefix made
    have flag : keptFlag (bounds.contextMaxResults * 4 < reads.rows.length) (contextCandidates bounds reads) [] packed =
        true ↔ reads.rows ≠ [] := by
      have length : (contextCandidates bounds reads).length =
          min (bounds.contextMaxResults * 4) reads.rows.length := List.length_take
      rw [keptFlag, emptyUnshortened made, Bool.or_false, length, ← List.length_pos_iff]
      simp only [List.length_nil, Bool.or_eq_true, decide_eq_true_eq, bne_iff_ne]
      omega
    constructor
    · intro holds
      have cut : retrieval ≠ reads.metadata := by
        rintro rfl
        have within := contextWithin.mpr holds.within
        rw [contextKept] at exceeds
        rw [exceeds] at within
        cases within
      have raised := holds.flagged (.inr (.inr cut))
      have smaller := contextSmaller floats reads
        ⟨packed, retrieval, keptFlag (bounds.contextMaxResults * 4 < reads.rows.length)
          (contextCandidates bounds reads) [] packed⟩
      exact .inr ⟨flag.mp raised, packed, made, contextWithin.mpr (smaller.trans holds.within)⟩
    · rintro (⟨kept, packed', inside, made', fits⟩ | ⟨some', packed', made', fits⟩)
      · rw [none kept packed' inside made'] at fits
        cases fits
      · rw [made] at made'
        cases made'
        refine ⟨contextWithin.mp ?_, fun _ => flag.mpr some'⟩
        rcases last with within | rfl
        · exact within
        · rw [flag.mpr some']
          exact fits

/-! ## All requests -/

/-- An accepted `limit`. -/
structure ReadLimit where
  value : Nat
  least : 1 ≤ value
  most : value ≤ 200

/-- An accepted `token_budget` of the context handler. -/
structure ContextBudget where
  value : Int
  least : 16 ≤ value
  most : value ≤ 4096

inductive ReadRequest where
  | search (limit : ReadLimit) (reads : SearchReads)
  | context (tokenBudget : ContextBudget) (reads : ContextReads)
  | evidence (limit : ReadLimit) (reads : EvidenceReads)
  | history (limit : ReadLimit) (rows : List JsonObject)
  | conflicts (limit : ReadLimit) (reads : ConflictReads)

section Requests
variable (floats : FloatText) (bounds : OutputBounds) (rt : Runtime) (unicode : UnicodeText)

/-- The response is within its cap, and flagged where anything that was read is missing or cut. -/
def ReadRequest.Capped : ReadRequest → Prop
  | .search limit reads => (searchResponse floats bounds limit.value reads).Holds floats bounds reads
  | .context tokenBudget reads => ∃ r, contextResponse floats bounds rt unicode tokenBudget.value reads = .ok r ∧
      r.Holds floats bounds rt unicode tokenBudget.value reads
  | .evidence limit reads =>
    (evidenceResponse floats bounds limit.value reads.factId reads.fact reads.rows).json.size floats .bytes ≤
        bounds.evidenceMaxTotalBytes ∧
      ((evidenceResponse floats bounds limit.value reads.factId reads.fact reads.rows).fact ≠ reads.fact ∨
        (evidenceResponse floats bounds limit.value reads.factId reads.fact reads.rows).evidence ≠ reads.rows →
        (evidenceResponse floats bounds limit.value reads.factId reads.fact reads.rows).outputTruncated = true)
  | .history limit rows =>
    (historyResponse floats bounds limit.value rows).json.size floats .bytes ≤ bounds.historyMaxTotalBytes ∧
      ((historyResponse floats bounds limit.value rows).facts ≠ rows →
        (historyResponse floats bounds limit.value rows).outputTruncated = true)
  | .conflicts limit reads =>
    (conflictsResponse floats bounds limit.value reads).json.size floats .bytes ≤ bounds.conflictsMaxTotalBytes ∧
      ((conflictsResponse floats bounds limit.value reads).conflicts ≠
          reads.scopes.flatten.map (ConflictRecord.whole reads.membersById) →
        (conflictsResponse floats bounds limit.value reads).outputTruncated = true)

def ReadRequest.Room : ReadRequest → Prop
  | .search limit reads => SearchRoom floats bounds limit.value reads
  | .context tokenBudget reads => ContextRoom floats bounds rt unicode tokenBudget.value reads
  | _ => True

end Requests

/-- Caps hold and cuts are flagged exactly where search and context have room for their receipts. -/
theorem responsesCapped (request : ReadRequest) :
    request.Capped floats bounds rt unicode ↔ request.Room floats bounds rt unicode := by
  cases request with
  | search limit reads => exact searchHolds limit.least reads
  | context tokenBudget reads => exact contextHolds (by have least := tokenBudget.least; omega) reads
  | evidence limit reads => exact iff_of_true (evidenceHolds limit.value reads) trivial
  | history limit rows => exact iff_of_true (historyHolds limit.value rows) trivial
  | conflicts limit reads => exact iff_of_true (conflictsHold limit.most reads) trivial

namespace Example

def smallBounds : OutputBounds where
  searchMaxResults := 20
  contextMaxResults := 12
  maxFactChars := 2000
  searchMaxTotalChars := 512
  contextMaxTotalChars := 512
  evidenceMaxTotalBytes := 512
  historyMaxTotalBytes := 512
  conflictsMaxTotalBytes := 512
  contextMmrLambda := 7 / 10
  results := by decide
  marker := by decide
  characters := by decide
  bytes := by decide
  lambda := by norm_num

def doorConflict (predicate : String) : ConflictReceipt where
  conflictId := "0b8e0f5e-3a1f-4a8e-9d53-7f2f6f0c1b2a"
  scope := "private"
  subjectKey := "user"
  predicateKey := predicate
  memberFactIds := [3, 5]
  summary := "[conflict:0b8e0f5e-3a1f-4a8e-9d53-7f2f6f0c1b2a slot:user." ++ predicate ++
    " members:2 - do not treat either as current]"

def doorReads : SearchReads :=
  ⟨[[("fact_id", .int 7), ("content", .str "The door code changed.")]], [],
    [doorConflict "door.code", doorConflict "door.color"]⟩

-- two receipts are over the least cap, and no receipt is dropped
theorem receiptsOverCap : ¬(ReadRequest.search ⟨20, by decide, by decide⟩ doorReads).Capped Enfold.Example.noFloats
    smallBounds Runtime.plain Enfold.Example.plainUnicode := by
  intro capped
  have whole : (searchWhole smallBounds 20 doorReads).within Enfold.Example.noFloats smallBounds = false := by
    decide +kernel
  have bare : (SearchResponse.bare doorReads.receipts).within Enfold.Example.noFloats smallBounds = false := by
    decide +kernel
  rcases (searchHolds (by decide) doorReads).mp capped with fits | ⟨-, fits⟩
  · cases whole.symm.trans fits
  · cases bare.symm.trans fits

end Example
end Enfold.ReadResponses
