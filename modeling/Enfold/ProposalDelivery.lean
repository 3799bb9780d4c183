import Enfold.ExtractionProcessor

/-! What a completed extraction job did with the proposals of its snapshot. A batch answers for
its proposals only up to the first refused one, so a proposal behind that one is neither written
nor refused. -/
namespace Enfold

open Fallible

section Delivery
variable {rt : Runtime} {svc : WriteService} {context effective : ConnectionContext}
  {lease : ExtractionLease} {readings : Readings} {s : Store}

namespace Completed

def handed (done : Completed rt) : List (Proposal rt) :=
  done.attempts.flatMap fun attempt => attempt.answered.map Prod.fst

def refused (done : Completed rt) : List (Proposal rt) :=
  done.attempts.flatMap fun attempt =>
    (attempt.answered.filter fun answer => answer.2.refused).map Prod.fst

def committed (done : Completed rt) : List (Proposal rt) :=
  match done.attempts.getLast? with
  | some attempt => if attempt.batch.committed then attempt.pending else []
  | none => []

end Completed

def Performs (rt : Runtime) (svc : WriteService) (context : ConnectionContext)
    (readings : Readings) (s : Store) (round : Nat) (proposals : List (Proposal rt)) (t : Store)
    (answers : List WriteOutcome) : Prop :=
  ∃ effective prepared,
    (svc.policy.authorizeContext rt svc.legacyAuthorized context >>=
      svc.policy.authorizeContext rt svc.legacyAuthorized) = .ok effective ∧
    prepareBatch rt svc effective s (timed rt readings round proposals) = .ok prepared ∧
    Batch.each (batchStep rt svc effective) s prepared = .ok (t, answers)

/-- The writer takes every proposal of `pre` and then refuses the one behind them. -/
def Refuses (rt : Runtime) (svc : WriteService) (context : ConnectionContext)
    (readings : Readings) (s : Store) (round : Nat) (pre : List (Proposal rt))
    (proposal : Proposal rt) : Prop :=
  ∃ t answers last, Performs rt svc context readings s round (pre ++ [proposal]) t (answers ++ [last]) ∧
    (∀ answer ∈ answers, answer.refused = false) ∧ last.refused = true

/-- No proposal is lost: each one was answered for, and the commit holds, in snapshot order, the
effects of those that were not refused themselves. -/
structure Delivered (rt : Runtime) (svc : WriteService) (context : ConnectionContext)
    (lease : ExtractionLease) (readings : Readings) (s : Store) (proposals : List (Proposal rt))
    (done : Completed rt) : Prop where
  handed : ∀ proposal ∈ proposals, proposal ∈ done.handed
  committed : done.committed = proposals.filter fun proposal =>
    !(done.refused.map Proposal.index).contains proposal.index
  effects : ∃ round t answers, deleteClaimedRow lease t = .ok done.store ∧
    (done.committed = [] ∧ t = s ∨
      Performs rt svc context readings s round done.committed t answers ∧
        ∀ answer ∈ answers, answer.refused = false)

/-- In every batch attempt the first proposal the writer refuses is the last one pending. -/
inductive NothingBehind (rt : Runtime) (svc : WriteService) (context : ConnectionContext)
    (readings : Readings) (s : Store) : Nat → List (Proposal rt) → Prop
  | settled {round pending}
      (taken : ∀ pre proposal post, pending = pre ++ proposal :: post →
        ¬ Refuses rt svc context readings s round pre proposal) :
      NothingBehind rt svc context readings s round pending
  | last {round pre proposal}
      (refused : Refuses rt svc context readings s round pre proposal)
      (rest : NothingBehind rt svc context readings s (round + 1) pre) :
      NothingBehind rt svc context readings s round (pre ++ [proposal])

/-! ## One attempt -/

theorem handleWriteBatchSource {pending : List (Proposal rt)} {round : Nat} {t : Store}
    {batch : WriteBatchOutcome} {hook : Store → Except Raised Store} (some : pending ≠ [])
    (h : handleWriteBatch rt svc context s (timed rt readings round pending) hook = .ok (t, batch)) :
    (batch.committed = true ∧ ∃ u, Performs rt svc context readings s round pending u batch.outcomes ∧
      (∀ answer ∈ batch.outcomes, answer.refused = false) ∧ hook u = .ok t) ∨
    (batch.committed = false ∧ t = s ∧ ∃ pre proposal post u answers last,
      pending = pre ++ proposal :: post ∧ batch.outcomes = answers ++ [last] ∧
      Performs rt svc context readings s round (pre ++ [proposal]) u (answers ++ [last]) ∧
      (∀ answer ∈ answers, answer.refused = false) ∧ last.refused = true) := by
  have nonempty : timed rt readings round pending ≠ [] := by simpa [timed] using some
  simp only [handleWriteBatch, if_neg nonempty, authorize, bindOk, Prod.exists, mapFailureOk] at h
  obtain ⟨effective, granted, t', batch', wrote, last⟩ := h
  split at last
  · cases last
  · cases last
    simp only [writeBatch, bindOk, ensureOk] at wrote
    obtain ⟨-, -, effective', again, prepared, ready, ⟨result, answers⟩, ran, last⟩ := wrote
    have both : (svc.policy.authorizeContext rt svc.legacyAuthorized context >>=
        svc.policy.authorizeContext rt svc.legacyAuthorized) = .ok effective' :=
      bindOk.mpr ⟨effective, granted, again⟩
    cases result with
    | some u =>
      simp only [bindOk] at last
      obtain ⟨done, hooked, last⟩ := last
      cases last
      obtain ⟨steps, fine⟩ := Batch.runCommitted.mp ran
      exact .inl ⟨rfl, u, ⟨effective', prepared, both, ready, steps⟩, fine, hooked⟩
    | none =>
      cases last
      obtain ⟨pre, item, post, v, first, u, answer, rfl, steps, fine, there, turned, rfl⟩ :=
        Batch.runRefused.mp ran
      -- the prepared items split where the proposals do
      have size : (pre ++ item :: post).length = pending.length := by
        rw [mapMLength ready, timed, List.length_map]
      have short : pre.length < pending.length := by
        simp only [List.length_append, List.length_cons] at size
        omega
      obtain ⟨head, proposal, tail, rfl, same⟩ :
          ∃ head proposal tail, pending = head ++ proposal :: tail ∧ head.length = pre.length :=
        ⟨pending.take pre.length, pending[pre.length], pending.drop (pre.length + 1),
          by rw [← List.drop_eq_getElem_cons, List.take_append_drop], by simp; omega⟩
      have split : timed rt readings round (head ++ proposal :: tail) =
          timed rt readings round (head ++ [proposal]) ++ timed rt readings round tail := by
        simp [timed]
      rw [prepareBatch, split] at ready
      obtain ⟨mine, behind, ready, -, cut⟩ := mapMAppend.mp ready
      have long : mine.length = (pre ++ [item]).length := by
        rw [mapMLength ready]
        simp [timed, same]
      have mineEq : mine = pre ++ [item] := by
        have regroup : (pre ++ [item]) ++ post = mine ++ behind := by
          rw [← cut]
          simp
        exact (List.append_inj regroup long.symm).1.symm
      subst mineEq
      refine .inr ⟨rfl, rfl, head, proposal, tail, u, first, answer, rfl, rfl, ?_, fine, turned⟩
      refine ⟨effective', pre ++ [item], both, ready, Batch.eachAppend.mpr ?_⟩
      exact ⟨v, first, [answer], steps, Batch.eachCons.mpr ⟨u, answer, [], there, rfl, rfl⟩, rfl⟩

/-! ## Refusals are determined -/

theorem performsUnique {round : Nat} {proposals : List (Proposal rt)} {t u : Store}
    {answers others : List WriteOutcome}
    (left : Performs rt svc context readings s round proposals t answers)
    (right : Performs rt svc context readings s round proposals u others) : answers = others := by
  obtain ⟨effective, prepared, granted, ready, steps⟩ := left
  obtain ⟨effective', prepared', granted', ready', steps'⟩ := right
  cases granted.symm.trans granted'
  cases ready.symm.trans ready'
  cases steps.symm.trans steps'
  rfl

theorem performsPrefix {round : Nat} {pre post : List (Proposal rt)} {t : Store}
    {answers : List WriteOutcome}
    (h : Performs rt svc context readings s round (pre ++ post) t answers) :
    ∃ u first later, Performs rt svc context readings s round pre u first ∧
      answers = first ++ later := by
  obtain ⟨effective, prepared, granted, ready, steps⟩ := h
  have split : timed rt readings round (pre ++ post) =
      timed rt readings round pre ++ timed rt readings round post := by simp [timed]
  rw [prepareBatch, split] at ready
  obtain ⟨mine, behind, mineReady, -, rfl⟩ := mapMAppend.mp ready
  obtain ⟨u, first, later, head, -, rfl⟩ := Batch.eachAppend.mp steps
  exact ⟨u, first, later, ⟨effective, mine, granted, mineReady, head⟩, rfl⟩

theorem performsLength {round : Nat} {proposals : List (Proposal rt)} {t : Store}
    {answers : List WriteOutcome}
    (h : Performs rt svc context readings s round proposals t answers) :
    answers.length = proposals.length := by
  obtain ⟨effective, prepared, -, ready, steps⟩ := h
  rw [Batch.eachLength steps, mapMLength ready, timed, List.length_map]

theorem refusesFirst {round : Nat} {pre later : List (Proposal rt)} {a b : Proposal rt}
    (first : Refuses rt svc context readings s round pre a) :
    ¬ Refuses rt svc context readings s round (pre ++ a :: later) b := by
  rintro ⟨t, answers, last, steps, fine, -⟩
  obtain ⟨u, mine, turned, here, -, refused⟩ := first
  have regroup : (pre ++ a :: later) ++ [b] = (pre ++ [a]) ++ (later ++ [b]) := by simp
  rw [regroup] at steps
  obtain ⟨v, head, tail, again, cut⟩ := performsPrefix steps
  have headEq : head = mine ++ [turned] := performsUnique again here
  have size : answers.length = pre.length + 1 + later.length := by
    have := performsLength steps
    simp only [List.length_append, List.length_singleton] at this
    omega
  have fits : (mine ++ [turned]).length ≤ answers.length := by
    rw [performsLength here, size]
    simp
  have inside : turned ∈ answers := by
    have whole : answers = (mine ++ [turned]) ++ answers.drop (mine ++ [turned]).length := by
      have start : (answers ++ [last]).take (mine ++ [turned]).length = mine ++ [turned] := by
        rw [cut, headEq, List.take_left']
        rfl
      rw [List.take_append_of_le_length fits] at start
      conv_lhs => rw [← List.take_append_drop (mine ++ [turned]).length answers, start]
    rw [whole]
    simp
  simp [fine turned inside] at refused

theorem refusesUnique {round : Nat} {pre post pre' post' : List (Proposal rt)} {a b : Proposal rt}
    (same : pre ++ a :: post = pre' ++ b :: post')
    (left : Refuses rt svc context readings s round pre a)
    (right : Refuses rt svc context readings s round pre' b) : pre = pre' ∧ a = b ∧ post = post' := by
  rcases List.append_eq_append_iff.mp same with ⟨middle, rfl, cut⟩ | ⟨middle, rfl, cut⟩
  · cases middle with
    | nil => simp_all
    | cons c middle =>
      obtain ⟨rfl, rfl⟩ : a = c ∧ post = middle ++ b :: post' := by simpa using cut
      exact absurd right (refusesFirst left)
  · cases middle with
    | nil => simp_all
    | cons c middle =>
      obtain ⟨rfl, rfl⟩ : b = c ∧ post' = middle ++ a :: post := by simpa using cut
      exact absurd left (refusesFirst right)

theorem nothingBehindRefused {round : Nat} {pre post : List (Proposal rt)} {proposal : Proposal rt}
    (refused : Refuses rt svc context readings s round pre proposal) :
    NothingBehind rt svc context readings s round (pre ++ proposal :: post) ↔
      post = [] ∧ NothingBehind rt svc context readings s (round + 1) pre := by
  constructor
  · intro h
    generalize pending : pre ++ proposal :: post = whole at h
    cases h with
    | settled taken => exact absurd refused (taken pre proposal post pending.symm)
    | last turned rest =>
      obtain ⟨rfl, rfl, rfl⟩ := refusesUnique pending refused turned
      exact ⟨rfl, rest⟩
  · rintro ⟨rfl, rest⟩
    exact .last refused rest

/-! ## The loop -/

theorem drainSource {round : Nat} {pending : List (Proposal rt)} {done : Completed rt}
    (h : drainPending rt svc context lease readings s round pending = .ok done) :
    (pending = [] ∧ deleteClaimedRow lease s = .ok done.store ∧ done.attempts = []) ∨
    (∃ batch t, done.attempts = [⟨pending, batch⟩] ∧ batch.committed = true ∧
      Performs rt svc context readings s round pending t batch.outcomes ∧
      (∀ answer ∈ batch.outcomes, answer.refused = false) ∧
      deleteClaimedRow lease t = .ok done.store) ∨
    (∃ batch pre proposal post answers last rest, pending = pre ++ proposal :: post ∧
      batch.committed = false ∧ batch.outcomes = answers ++ [last] ∧ answers.length = pre.length ∧
      Refuses rt svc context readings s round pre proposal ∧
      (∀ answer ∈ answers, answer.refused = false) ∧ last.refused = true ∧
      drainPending rt svc context lease readings s (round + 1) pre = .ok rest ∧
      done.store = rest.store ∧ done.attempts = ⟨pending, batch⟩ :: rest.attempts) := by
  rw [drainPending] at h
  split at h
  case isTrue empty =>
    simp only [bindOk] at h
    obtain ⟨t, deleted, last⟩ := h
    cases last
    exact .inl ⟨empty, deleted, rfl⟩
  case isFalse some =>
    split at h
    case h_1 => cases h
    case h_2 t batch handled =>
      rcases handleWriteBatchSource some handled with
        ⟨committed, u, steps, fine, hooked⟩ | ⟨rolled, rfl, pre, proposal, post, u, answers, last,
          rfl, outcomes, steps, fine, turned⟩
      · rw [if_pos committed] at h
        cases h
        exact .inr (.inl ⟨batch, u, rfl, committed, steps, fine, hooked⟩)
      · have size : answers.length = pre.length := by
          have := performsLength steps
          simpa using this
        have survivors : Attempt.survivors ⟨pre ++ proposal :: post, batch⟩ = pre := by
          have cut : (pre ++ proposal :: post).zip batch.outcomes =
              pre.zip answers ++ [(proposal, last)] := by
            rw [outcomes, List.zip_append size.symm]
            simp
          have kept : (pre.zip answers).filter (fun answer => !answer.2.refused) = pre.zip answers :=
            List.filter_eq_self.mpr fun answer inside => by
              simp [fine answer.2 (List.of_mem_zip inside).2]
          simp [Attempt.survivors, Attempt.answered, cut, kept, turned, List.map_fst_zip size.ge]
        rw [if_neg (by simp [rolled]), survivors] at h
        split at h
        case isTrue => cases h
        case isFalse =>
          simp only [bindOk] at h
          obtain ⟨rest, again, last'⟩ := h
          cases last'
          exact .inr (.inr ⟨batch, pre, proposal, post, answers, last, rest, rfl, rolled, outcomes,
            size, ⟨u, answers, last, steps, fine, turned⟩, fine, turned, again, rfl, rfl⟩)

variable {round : Nat} {pending : List (Proposal rt)} {done : Completed rt}

theorem handedPending
    (h : drainPending rt svc context lease readings s round pending = .ok done) :
    ∀ proposal ∈ done.handed, proposal ∈ pending := by
  induction size : pending.length using Nat.strongRecOn generalizing round pending done with
  | _ n ih =>
    rcases drainSource h with ⟨-, -, none⟩ | ⟨batch, t, one, -, -, -, -⟩ |
      ⟨batch, pre, proposal, post, answers, last, rest, rfl, -, -, -, -, -, -, again, -, more⟩
    · simp [Completed.handed, none]
    · intro proposal inside
      simp only [Completed.handed, one, List.flatMap_cons, List.flatMap_nil, List.append_nil,
        List.mem_map] at inside
      obtain ⟨answer, inside, rfl⟩ := inside
      exact (List.of_mem_zip inside).1
    · intro candidate inside
      simp only [Completed.handed, more, List.flatMap_cons, List.mem_append] at inside
      rcases inside with inside | inside
      · obtain ⟨answer, answered, rfl⟩ := List.mem_map.mp inside
        exact (List.of_mem_zip answered).1
      · have shorter : pre.length < n := by
          rw [← size]
          simp
        exact List.mem_append_left _ (ih _ shorter again rfl candidate inside)

theorem refusedHanded : ∀ proposal ∈ done.refused, proposal ∈ done.handed := by
  intro proposal inside
  simp only [Completed.refused, Completed.handed, List.mem_flatMap, List.mem_map] at *
  obtain ⟨attempt, tried, answer, kept, rfl⟩ := inside
  exact ⟨attempt, tried, answer, (List.mem_filter.mp kept).1, rfl⟩

theorem committedHanded
    (h : drainPending rt svc context lease readings s round pending = .ok done) :
    ∀ proposal ∈ done.committed, proposal ∈ done.handed := by
  induction size : pending.length using Nat.strongRecOn generalizing round pending done with
  | _ n ih =>
    rcases drainSource h with ⟨-, -, none⟩ | ⟨batch, t, one, -, steps, -, -⟩ |
      ⟨batch, pre, proposal, post, answers, last, rest, rfl, rolled, -, -, -, -, -, again, -, more⟩
    · simp [Completed.committed, none]
    · intro proposal inside
      simp only [Completed.committed, one, List.getLast?_singleton] at inside
      split at inside
      · have full : (pending.zip batch.outcomes).map Prod.fst = pending :=
          List.map_fst_zip (performsLength steps).ge
        simpa [Completed.handed, one, Attempt.answered, full] using inside
      · cases inside
    · intro candidate inside
      have shorter : pre.length < n := by
        rw [← size]
        simp
      have later : done.committed = rest.committed := by
        cases tail : rest.attempts with
        | nil => simp [Completed.committed, more, tail, rolled]
        | cons a as => simp [Completed.committed, more, tail]
      rw [later] at inside
      have := ih _ shorter again rfl candidate inside
      simp only [Completed.handed, more, List.flatMap_cons, List.mem_append]
      exact .inr this

theorem committedEffects
    (h : drainPending rt svc context lease readings s round pending = .ok done) :
    ∃ round t answers, deleteClaimedRow lease t = .ok done.store ∧
      (done.committed = [] ∧ t = s ∨
        Performs rt svc context readings s round done.committed t answers ∧
          ∀ answer ∈ answers, answer.refused = false) := by
  induction size : pending.length using Nat.strongRecOn generalizing round pending done with
  | _ n ih =>
    rcases drainSource h with ⟨-, deleted, none⟩ | ⟨batch, t, one, committed, steps, fine, deleted⟩ |
      ⟨batch, pre, proposal, post, answers, last, rest, rfl, rolled, -, -, -, -, -, again, store, more⟩
    · exact ⟨round, s, [], deleted, .inl ⟨by simp [Completed.committed, none], rfl⟩⟩
    · refine ⟨round, t, batch.outcomes, deleted, .inr ⟨?_, fine⟩⟩
      simpa [Completed.committed, one, committed] using steps
    · have shorter : pre.length < n := by
        rw [← size]
        simp
      have later : done.committed = rest.committed := by
        cases tail : rest.attempts with
        | nil => simp [Completed.committed, more, tail, rolled]
        | cons a as => simp [Completed.committed, more, tail]
      rw [later, store]
      exact ih _ shorter again rfl

theorem deliveredDrain (unique : (pending.map Proposal.index).Nodup)
    (h : drainPending rt svc context lease readings s round pending = .ok done) :
    Delivered rt svc context lease readings s pending done ↔
      NothingBehind rt svc context readings s round pending := by
  induction size : pending.length using Nat.strongRecOn generalizing round pending done with
  | _ n ih =>
    have effects := committedEffects h
    rcases drainSource h with ⟨rfl, -, none⟩ | ⟨batch, t, one, committed, steps, fine, -⟩ |
      ⟨batch, pre, proposal, post, answers, last, rest, rfl, rolled, outcomes, long, refuses, fine,
        turned, again, -, more⟩
    · -- no proposal at all
      refine iff_of_true ⟨by simp, by simp [Completed.committed, none], effects⟩ (.settled ?_)
      intro pre proposal post same
      simp at same
    · -- the batch committed: every proposal was answered for and none refused
      have full : (pending.zip batch.outcomes).map Prod.fst = pending :=
        List.map_fst_zip (performsLength steps).ge
      have clean : (pending.zip batch.outcomes).filter (fun answer => answer.2.refused) = [] :=
        List.filter_eq_nil_iff.mpr fun answer inside => by
          simp [fine answer.2 (List.of_mem_zip inside).2]
      refine iff_of_true ⟨?_, ?_, effects⟩ (.settled ?_)
      · intro proposal inside
        simpa [Completed.handed, one, Attempt.answered, full] using inside
      · simp [Completed.committed, Completed.refused, one, committed, Attempt.answered, clean]
      · rintro pre proposal post rfl ⟨u, before, last, here, -, refused⟩
        have whole : pre ++ proposal :: post = (pre ++ [proposal]) ++ post := by simp
        rw [whole] at steps
        obtain ⟨v, first, later, head, cut⟩ := performsPrefix steps
        rw [performsUnique head here] at cut
        have inside : last ∈ batch.outcomes := by simp [cut]
        simp [fine last inside] at refused
    · -- the batch rolled back at `proposal`; `pre` is retried and `post` is gone
      rw [nothingBehindRefused refuses]
      have shorter : pre.length < n := by
        rw [← size]
        simp
      have distinct : (pre.map Proposal.index ++ proposal.index :: post.map Proposal.index).Nodup := by
        simpa using unique
      have preUnique := distinct.of_append_left
      have apart : ∀ q ∈ pre, q.index ≠ proposal.index := by
        intro q inside same
        exact (List.nodup_append.mp distinct).2.2 _ (List.mem_map_of_mem inside) _ List.mem_cons_self
          same
      have step := ih _ shorter preUnique again rfl
      rw [← step]
      have answered : Attempt.answered ⟨pre ++ proposal :: post, batch⟩ =
          pre.zip answers ++ [(proposal, last)] := by
        rw [Attempt.answered, outcomes, List.zip_append long.symm]
        simp
      have prior : (pre.zip answers).filter (fun answer => answer.2.refused) = [] :=
        List.filter_eq_nil_iff.mpr fun answer inside => by
          simp [fine answer.2 (List.of_mem_zip inside).2]
      have handed : done.handed = pre ++ proposal :: rest.handed := by
        simp [Completed.handed, more, answered, List.map_fst_zip long.ge]
      have refused : done.refused = proposal :: rest.refused := by
        simp [Completed.refused, more, answered, prior, turned]
      have committed : done.committed = rest.committed := by
        cases tail : rest.attempts with
        | nil => simp [Completed.committed, more, tail, rolled]
        | cons a as => simp [Completed.committed, more, tail]
      have restHanded := handedPending again
      -- what the retry refuses lies in `pre`, so the retry's filter does not see `proposal`
      have preFilter : (pre ++ [proposal]).filter (fun q => !(done.refused.map Proposal.index).contains q.index)
          = pre.filter fun q => !(rest.refused.map Proposal.index).contains q.index := by
        rw [refused, List.filter_append]
        have gone : [proposal].filter (fun q =>
            !((proposal :: rest.refused).map Proposal.index).contains q.index) = [] := by simp
        rw [gone, List.append_nil]
        refine List.filter_congr fun q inside => ?_
        simp [apart q inside]
      constructor
      · rintro ⟨reach, held, -⟩
        have nothing : post = [] := by
          rcases post with _ | ⟨q, post⟩
          · rfl
          · have inside := reach q (by simp)
            rw [handed] at inside
            have early : q.index ∈ pre.map Proposal.index ∨ q.index = proposal.index := by
              rcases List.mem_append.mp inside with inside | inside
              · exact .inl (List.mem_map_of_mem inside)
              · rcases List.mem_cons.mp inside with rfl | inside
                · exact .inr rfl
                · exact .inl (List.mem_map_of_mem (restHanded q inside))
            have disjoint := List.nodup_append.mp distinct
            rcases early with early | early
            · exact absurd rfl (disjoint.2.2 _ early _ (by simp))
            · have := disjoint.2.1
              simp [early] at this
        refine ⟨nothing, ?_, ?_, committedEffects again⟩
        · intro q inside
          subst nothing
          rw [preFilter, committed] at held
          by_cases out : q.index ∈ rest.refused.map Proposal.index
          · obtain ⟨r, refusedHere, same⟩ := List.mem_map.mp out
            have reached := refusedHanded r refusedHere
            have equal : r = q :=
              List.inj_on_of_nodup_map preUnique (restHanded r reached) inside same
            exact equal ▸ reached
          · refine committedHanded again q ?_
            rw [held]
            exact List.mem_filter.mpr ⟨inside, by simpa using out⟩
        · subst nothing
          rw [preFilter, committed] at held
          exact held
      · rintro ⟨rfl, reach, held, -⟩
        refine ⟨?_, ?_, effects⟩
        · intro q inside
          rw [handed]
          rcases List.mem_append.mp inside with inside | inside
          · exact List.mem_append_left _ inside
          · simp [List.mem_singleton.mp inside]
        · rw [preFilter, committed]
          exact held

end Delivery

namespace Example

def lease : ExtractionLease := ⟨1, "worker", "token"⟩
def readings : Readings := fun _ _ => .at "2024-01-01"

end Example
end Enfold
