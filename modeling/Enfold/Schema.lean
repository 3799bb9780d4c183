import Enfold.Store

/-! The writer's start-up check: row shapes that read as an unfinished migration. -/
namespace Enfold

variable (rt : Runtime)

/-- A retired row the bitemporal backfill would still change: no transaction-time end, or no
world-time end although its successor has a start. -/
def Fact.unfinished (facts : List Fact) (f : Fact) : Bool :=
  f.supersededBy.isSome &&
    ((f.invalidAt.isSome && f.expiredAt.isNone) ||
      (f.validTo.isNone && facts.any fun successor =>
        f.supersededBy = some successor.factId && successor.validFrom.isSome))

def needsBitemporalPatch (facts : List Fact) : Bool := facts.any (Fact.unfinished facts)

/-- A snapshot text without its hash, or a hash without its text. -/
def QueueRow.unfinished (row : QueueRow) : Bool :=
  match row.proposalJson, row.proposalHash with
  | none, some _ => true
  | some snapshot, none => !rt.canonicalSnapshot snapshot
  | _, _ => false

def needsExtractionQueuePatch (queue : List QueueRow) : Bool := queue.any (QueueRow.unfinished rt)

/-- `require_compatible_schema` on a store of the supported version. -/
def requireCompatibleSchema (s : Store) (forWriter : Bool) : Except Raised Nat :=
  if forWriter && (needsExtractionQueuePatch rt s.queue || needsBitemporalPatch s.facts) then
    .error ⟨.schemaNeedsMigration, "database is missing required writer patches; run python -m enfold.ops migrate before opening this database as a writer"⟩
  else .ok 1

end Enfold
