import Enfold.Store

/-! The server-side write policy: grants, the scope and sensitivity vocabularies, the
built-in credential screen and the two authorities a client may hold. -/
namespace Enfold

/-- Identity and development context established by a trusted adapter. -/
structure ConnectionContext where
  clientId : String
  surface : String
  agentId : String
  sessionId : String
  displayName : Option String
  parentAgentId : Option String
  projectRoot : Option String
  repository : Option String
  branch : Option String
  commitSha : Option String
  capabilities : List String
  accessScopes : List String
  startedAt : Option String
  deriving DecidableEq, Repr

/-- `PolicyDecision`: its `__post_init__` admits two outcomes and a stated reason. -/
structure PolicyDecision where
  outcome : Outcome
  reason : String
  factless : outcome = .rejected ∨ outcome = .needsReview
  stated : (Text.strip reason).toList ≠ []
  deriving DecidableEq

namespace PolicyDecision

theorem sensitiveStated : (Text.strip "sensitive durable write is not authorized").toList ≠ [] := by decide

def rejected (reason : String) (stated : (Text.strip reason).toList ≠ [] := by decide) :
    PolicyDecision := ⟨.rejected, reason, .inl rfl, stated⟩

def needsReview (reason : String) (stated : (Text.strip reason).toList ≠ [] := by decide) :
    PolicyDecision := ⟨.needsReview, reason, .inr rfl, stated⟩

end PolicyDecision

def baseScopes : List String := ["private", "work", "public", "sensitive", "secret"]
def sensitivities : List String := ["normal", "sensitive", "secret"]
def provenanceRelations : List String :=
  ["supports", "contradicts", "verifies", "corrects", "derived_from"]
def correctionStatuses : List String := ["unreviewed", "human_corrected", "human_confirmed"]
def legacyExtractionClientId : String := "legacy-extract-queue"

def isAlphanumeric (c : Char) : Bool :=
  Text.isLowerAscii c || Text.isUpperAscii c || Text.isDigitAscii c

/-- `[A-Za-z0-9][A-Za-z0-9._-]{0,127}` behind a fixed prefix. -/
def isPartition (name : String) (value : String) : Bool :=
  match Text.after name.toList value.toList with
  | some token =>
    Text.shaped isAlphanumeric (fun c => isAlphanumeric c || c = '.' || c = '_' || c = '-') 128 token
  | none => false

def isProjectScope (value : String) : Bool := isPartition "project:" value
def isRunScope (value : String) : Bool := isPartition "run:" value

theorem alphanumericSpace {c : Char} (h : isAlphanumeric c = true) : Text.isSpace c = false := by
  simp only [isAlphanumeric, Bool.or_eq_true] at h
  rcases h with (lower | upper) | digit
  · exact Text.wordSpace (by simp [Text.isWordChar, lower])
  · simp only [Text.isUpperAscii, Bool.and_eq_true, decide_eq_true_eq, Char.le_def,
      UInt32.le_iff_toNat_le] at upper
    have value : c.toNat = c.val.toNat := rfl
    simp only [Text.isSpace, value]
    simp at upper ⊢
    omega
  · exact Text.wordSpace (by simp [Text.isWordChar, digit])

-- a scope of the vocabulary carries no white space
theorem knownScopeKept {scope : String}
    (known : (baseScopes.contains scope || isProjectScope scope || isRunScope scope) = true) :
    Text.strip scope = scope := by
  have marks : ∀ c, isAlphanumeric c = true ∨ c = '.' ∨ c = '_' ∨ c = '-' → Text.isSpace c = false := by
    rintro c (word | rfl | rfl | rfl)
    · exact alphanumericSpace word
    · rfl
    · rfl
    · rfl
  have partition {name : String} (plain : name.toList.any Text.isSpace = false)
      (h : isPartition name scope = true) : Text.strip scope = scope := by
    unfold isPartition at h
    split at h
    · rename_i token behind
      have letters := Text.shapedAll (fun c word => by simp [word]) h
      have kept := @Text.stripKept scope.toList fun c inside => by
        rw [Text.afterSource behind, List.mem_append] at inside
        rcases inside with inside | inside
        · exact Bool.eq_false_iff.mpr (List.any_eq_false.mp plain c inside)
        · exact marks c (by simpa [or_assoc] using letters c inside)
      rwa [String.ofList_toList] at kept
    · cases h
  simp only [Bool.or_eq_true] at known
  rcases known with (base | project) | run
  · have stripped : ∀ scope ∈ baseScopes, Text.strip scope = scope := by decide
    exact stripped scope (by simpa using base)
  · exact partition (by decide) project
  · exact partition (by decide) run

/-- `run:*` is a partition of `private` and needs no grant of its own. -/
def scopeAuthorized (scope : String) (accessScopes : List String) : Bool :=
  accessScopes.contains scope || (isRunScope scope && accessScopes.contains "private")

section Vocabulary
variable (rt : Runtime)

def validateScope (value : String) : Except Raised String :=
  if baseScopes.contains value || isProjectScope value || isRunScope value then .ok value
  else .error ⟨.valueError, "unsupported memory scope: " ++ rt.repr value⟩

def validateSensitivity (value : String) : Except Raised String :=
  if sensitivities.contains value then .ok value
  else .error ⟨.valueError, "unsupported memory sensitivity: " ++ rt.repr value⟩

def validateRelation (value : String) : Except Raised String :=
  if provenanceRelations.contains value then .ok value
  else .error ⟨.valueError, "unsupported provenance relation: " ++ rt.repr value⟩

def validateCorrectionStatus : Option String → Except Raised (Option String)
  | none => .ok none
  | some value =>
    if correctionStatuses.contains value then .ok (some value)
    else .error ⟨.valueError, "unsupported correction status: " ++ rt.repr value⟩

def credentialShapes : List String :=
  ["-----BEGIN (?:[A-Z0-9]+(?: [A-Z0-9]+)* )?PRIVATE KEY-----",
   "\\bAKIA[0-9A-Z]\x7b16\x7d\\b",
   "\\b(?:ghp|github_pat|sk-[A-Za-z0-9_-]\x7b8\x7d)[A-Za-z0-9_-]\x7b12,\x7d\\b",
   "(?i)\\b(?:api[_ -]?key|client[_ -]?secret|password|token)\\b['\"]?\\s*[:=]\\s*['\"]?[^\\s'\"]\x7b8,\x7d",
   "(?i)\\b(?:api[_ -]?(?:key|token)|client[_ -]?secret|password|token)\\b['\"]?\\s+(?:is|was)\\s+['\"]?[^\\s'\"]\x7b8,\x7d",
   "(?i)\\bauthorization\\s*:\\s*bearer\\s+[A-Za-z0-9._~+/=-]\x7b8,\x7d",
   "\\bAIza[0-9A-Za-z_-]\x7b30,\x7d\\b",
   "\\bxox[baprs]-[0-9A-Za-z-]\x7b10,\x7d\\b",
   "\\beyJ[A-Za-z0-9_-]\x7b8,\x7d\\.[A-Za-z0-9_-]\x7b8,\x7d\\.[A-Za-z0-9_-]\x7b8,\x7d\\b",
   "(?i)\\b(?:postgres(?:ql)?|mysql|mongodb(?:\\+srv)?)://[^\\s:/]+:[^\\s/@]+@",
   "(?i)\\b(?:accountkey|sharedaccesssignature|aws_secret_access_key)\\s*=\\s*[^\\s;]\x7b8,\x7d"]

/-- Reject common credential shapes without retaining the matched value. -/
def defaultCredentialScreen (request : WriteRequest) (extraText : List String) :
    Option PolicyDecision :=
  let candidate := "\n".intercalate <|
    ([request.content, request.observationContent.getD "", request.evidenceExcerpt.getD "",
      request.sourceUri.getD "", request.assertedBy.getD "", request.category, request.tags,
      rt.dumps (.obj request.metadata)] ++ extraText).filter (· ≠ "")
  if credentialShapes.any (rt.search · candidate) then some (.rejected "credential-shaped content")
  else none

end Vocabulary

/-- Immutable grants and deterministic pre-write policy; custom screens supplement the
built-in one. -/
structure MemoryPolicy where
  grants : List (String × List String)
  screens : List (WriteRequest → Option PolicyDecision)
  correctionAuthorities : List String
  conflictResolutionAuthorities : List String

def WriteRequest.claimsCorrection (request : WriteRequest) : Bool :=
  request.sourceType = "human_correction" || request.relation = "corrects" ||
    request.correctionStatus = some "human_corrected" ||
    request.correctionStatus = some "human_confirmed"

namespace MemoryPolicy
variable (rt : Runtime) (policy : MemoryPolicy)

def canAssertCorrection (clientId : String) : Bool := policy.correctionAuthorities.contains clientId

def canResolveConflicts (clientId : String) : Bool :=
  policy.conflictResolutionAuthorities.contains clientId

/-- The server-side grants of a client; `legacy` is the reserved identity's context flag. -/
def grantsOf (legacy : Bool) (clientId : String) : Option (List String) :=
  match policy.grants.lookup clientId with
  | some scopes => some scopes
  | none => if clientId = legacyExtractionClientId && legacy then some ["private"] else none

def authorizeContext (legacy : Bool) (context : ConnectionContext) :
    Except Raised ConnectionContext :=
  match policy.grantsOf legacy context.clientId with
  | none => .error ⟨.unknownMemoryClient,
      "memory client " ++ rt.repr context.clientId ++ " has no server-side scope grant"⟩
  | some grants => do
    let requested ← context.accessScopes.mapM (validateScope rt)
    let effective := requested.filter grants.contains
    if effective = [] then
      .error ⟨.permissionError, "requested scopes do not intersect server-side grants"⟩
    else .ok { context with accessScopes := effective }

def evaluateWrite (request : WriteRequest) (clientId : String) (sensitiveFields : List String) :
    Except Raised (Option PolicyDecision) := do
  let _ ← validateScope rt request.scope
  let _ ← validateSensitivity rt request.sensitivity
  let _ ← validateRelation rt request.relation
  let _ ← validateCorrectionStatus rt request.correctionStatus
  if request.scope = "secret" || request.sensitivity = "secret" then
    .ok (some (.rejected "secret durable writes are disabled"))
  else if request.sensitivity = "sensitive" &&
      !((policy.grants.lookup clientId).getD []).contains "sensitive" then
    .ok (some (.rejected "sensitive durable write is not authorized" PolicyDecision.sensitiveStated))
  else if request.claimsCorrection && !policy.canAssertCorrection clientId then
    .ok (some (.needsReview "client is not authorized to assert human correction"))
  else match defaultCredentialScreen rt request sensitiveFields with
    | some decision => .ok (some decision)
    | none => .ok (policy.screens.findSome? (· request))

end MemoryPolicy
end Enfold
