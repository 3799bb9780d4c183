import Enfold.Store

/-! As-of reading: which stored facts a reader finds at a world-time instant and at a
transaction-time instant. -/
namespace Enfold

variable (rt : Runtime)

-- `candidate.replace(" ", "T", 1)`
def replaceSpace : List Char → List Char
  | [] => []
  | c :: rest => if c = ' ' then 'T' :: rest else c :: replaceSpace rest

/-- `_parse_clock`: no value, a blank text and a text that is no timestamp all read as no clock. -/
def parseClock (value : Option String) : Option Int :=
  match value with
  | none => none
  | some text =>
    if (Text.strip text).toList = [] then none
    else match rt.fromisoformat (isoCandidate text) with
      | some parsed => some parsed.instant
      | none =>
        (rt.fromisoformat (String.ofList (replaceSpace (isoCandidate text).toList))).map Datetime.instant

-- `untimed` is a reader without a transaction time
def Fact.validMatches (f : Fact) (point : Int) (untimed : Bool) : Bool :=
  let start := parseClock rt f.validFrom
  let stop := parseClock rt f.validTo
  let pending := stop.isNone && untimed && (f.invalidAt.isSome || f.supersededBy.isSome)
  let stop := if pending then parseClock rt f.invalidAt else stop
  if start.any (decide <| point < ·) then false
  else if pending && stop.isNone then false
  else if stop.any (decide <| · ≤ point) then false
  else !(untimed && f.expiredAt.isSome)

def Fact.txMatches (f : Fact) (point : Int) : Bool :=
  let created := parseClock rt f.createdAt
  let expired := parseClock rt f.expiredAt
  let expired := if expired.isNone && f.supersededBy.isSome && f.validTo.isNone then
    parseClock rt f.invalidAt else expired
  !created.any (decide <| point < ·) && !expired.any (decide <| · ≤ point)

/-- `row_matches_as_of`: the valid-time and the transaction-time predicate, each where it is asked
for. -/
def rowMatchesAsOf (f : Fact) (asOfValid asOfTx : Option String) : Bool :=
  (match asOfValid with
    | none => true
    | some text => match parseClock rt (some text) with
      | none => false
      | some point => f.validMatches rt point asOfTx.isNone) &&
  match asOfTx with
  | none => true
  | some text => match parseClock rt (some text) with
    | none => false
    | some point => f.txMatches rt point

variable {rt}

theorem parseClockOf {value : Option String} {instant : Option Int}
    (h : parseTimestamp rt value = .ok instant) : parseClock rt value = instant := by
  cases value with
  | none =>
    cases h
    rfl
  | some text =>
    simp only [parseTimestamp] at h
    split at h
    · rename_i blank
      cases h
      simp only [parseClock, blank, if_true]
    · rename_i written
      split at h
      · rename_i parsed found
        cases h
        simp only [parseClock, written, if_false, found]
      · cases h

end Enfold
