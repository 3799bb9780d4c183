import Enfold.Policy

/-! The run scope of a session: its id where the scope grammar takes it, else the first digits of its hash.
Both kinds of name share one space, so an id that spells another's hash takes that one's scope. -/
namespace Enfold

variable (rt : Runtime)

-- `hashlib.sha256(token.encode()).hexdigest()[:24]`
def sessionDigest (token : String) : String := String.ofList ((rt.sha256 token).toList.take 24)

def runScopeForSession (sessionId : String) : String :=
  let token := Text.strip sessionId
  let candidate := "run:" ++ token
  if isRunScope candidate then candidate else "run:" ++ sessionDigest rt token

/-- A hash as `hexdigest` writes it: 64 digits, of which ten are decimal and six are letters. -/
structure Hexdigest (text : String) : Prop where
  length : text.length = 64
  digits : ∀ c ∈ text.toList, Text.isDigitAscii c = true ∨ 'a' ≤ c ∧ c ≤ 'f'

/-- The first id is taken by its hash alone, and the second one spells it. -/
def SpellsDigest (a b : String) : Prop :=
  isRunScope ("run:" ++ Text.strip a) = false ∧ Text.strip b = sessionDigest rt (Text.strip a)

section Scopes
variable {rt} {a b : String}

theorem runPrefixed (token : String) : isRunScope ("run:" ++ token) =
    Text.shaped isAlphanumeric (fun c => isAlphanumeric c || c = '.' || c = '_' || c = '-') 128 token.toList := by
  simp [isRunScope, isPartition, Text.after]

theorem hexAlphanumeric {c : Char} (hex : Text.isDigitAscii c = true ∨ 'a' ≤ c ∧ c ≤ 'f') :
    isAlphanumeric c = true := by
  rcases hex with digit | ⟨low, high⟩
  · simp [isAlphanumeric, digit]
  · have lower : Text.isLowerAscii c = true := by
      have past : c ≤ 'z' := Char.le_trans high (by decide)
      simp [Text.isLowerAscii, low, past]
    simp [isAlphanumeric, lower]

theorem digestScope {token : String} (hash : Hexdigest (rt.sha256 token)) :
    isRunScope ("run:" ++ sessionDigest rt token) = true := by
  rw [runPrefixed, sessionDigest, String.toList_ofList]
  have letters : ∀ c ∈ (rt.sha256 token).toList, isAlphanumeric c = true := fun c inside =>
    hexAlphanumeric (hash.digits c inside)
  have size : (rt.sha256 token).toList.length = 64 := hash.length
  cases shape : (rt.sha256 token).toList with
  | nil => simp [shape] at size
  | cons c rest =>
    rw [shape] at letters
    simp only [Text.shaped, List.take_succ_cons, Bool.and_eq_true, List.all_eq_true, decide_eq_true_eq]
    refine ⟨⟨letters c List.mem_cons_self, fun d inside => ?_⟩, ?_⟩
    · simp [letters d (List.mem_cons_of_mem _ (List.mem_of_mem_take inside))]
    · exact (Nat.add_le_add_right (List.length_take_le _ _) 1).trans (by decide)

theorem sessionScope (hash : Hexdigest (rt.sha256 (Text.strip a))) : isRunScope (runScopeForSession rt a) = true := by
  unfold runScopeForSession
  dsimp only
  split
  · assumption
  · exact digestScope hash

theorem runInjective {s t : String} (same : "run:" ++ s = "run:" ++ t) : s = t := by
  have letters := congrArg String.toList same
  rw [String.toList_append, String.toList_append] at letters
  exact String.toList_inj.mp (List.append_cancel_left letters)

theorem literalScope (literal : isRunScope ("run:" ++ Text.strip a) = true) :
    runScopeForSession rt a = "run:" ++ Text.strip a := by
  simp [runScopeForSession, literal]

theorem hashedScope (hashed : isRunScope ("run:" ++ Text.strip a) = false) :
    runScopeForSession rt a = "run:" ++ sessionDigest rt (Text.strip a) := by
  simp [runScopeForSession, hashed]

-- a spelled hash fits the scope grammar
theorem hashedUnspelled (hash : Hexdigest (rt.sha256 (Text.strip a)))
    (hashed : isRunScope ("run:" ++ Text.strip b) = false) : ¬SpellsDigest rt a b := by
  rintro ⟨-, spelled⟩
  rw [spelled, digestScope hash] at hashed
  cases hashed

theorem literalUnspelled (literal : isRunScope ("run:" ++ Text.strip a) = true) : ¬SpellsDigest rt a b := by
  rintro ⟨hashed, -⟩
  rw [literal] at hashed
  cases hashed

/-- Every session has a run scope, and two sessions have the same one just when one of them spells the
other's hash. -/
theorem runScopesPrivate (hashes : ∀ text, Hexdigest (rt.sha256 text)) (apart : Text.strip a ≠ Text.strip b)
    (unlike : sessionDigest rt (Text.strip a) ≠ sessionDigest rt (Text.strip b)) :
    (∀ sessionId, isRunScope (runScopeForSession rt sessionId) = true ∧
      validateScope rt (runScopeForSession rt sessionId) = .ok (runScopeForSession rt sessionId)) ∧
    (runScopeForSession rt a ≠ runScopeForSession rt b ↔ ¬SpellsDigest rt a b ∧ ¬SpellsDigest rt b a) := by
  refine ⟨fun sessionId => ?_, ?_⟩
  · have scope := sessionScope (a := sessionId) (hashes _)
    exact ⟨scope, by simp [validateScope, scope]⟩
  · cases here : isRunScope ("run:" ++ Text.strip a) with
    | true =>
      rw [literalScope here]
      cases there : isRunScope ("run:" ++ Text.strip b) with
      | true =>
        rw [literalScope there]
        exact iff_of_true (fun same => apart (runInjective same)) ⟨literalUnspelled here, literalUnspelled there⟩
      | false =>
        rw [hashedScope there]
        constructor
        · exact fun differ => ⟨literalUnspelled here, fun spelled => differ (congrArg _ spelled.2)⟩
        · exact fun unspelled same => unspelled.2 ⟨there, runInjective same⟩
    | false =>
      rw [hashedScope here]
      cases there : isRunScope ("run:" ++ Text.strip b) with
      | true =>
        rw [literalScope there]
        constructor
        · exact fun differ => ⟨fun spelled => differ (congrArg _ spelled.2).symm, literalUnspelled there⟩
        · exact fun unspelled same => unspelled.1 ⟨here, (runInjective same).symm⟩
      | false =>
        rw [hashedScope there]
        exact iff_of_true (fun same => unlike (runInjective same))
          ⟨hashedUnspelled (hashes _) there, hashedUnspelled (hashes _) here⟩

end Scopes

namespace Example

def nightlyHash : String := "b0310bb970e9f9b593954434a11fd54cff8c388c1935a77fa149dceb6418735e"
def weeklyHash : String := "4a5e4984e90c886bb773297c22f1b0854704b58ca6802553adc4e23f43654188"
def spelledHash : String := "b5c71710484903011bbfc76b6277952a154fb1b67228617aa46afdf974cf480f"

-- the hashes of two ids no scope can spell, and of the digits of the first one
def hashing : Runtime :=
  { Runtime.plain with sha256 := fun text =>
      if text = "nightly run" then nightlyHash else if text = "weekly run" then weeklyHash else spelledHash }

theorem hexdigestOf {text : String} (length : text.length = 64)
    (digits : (text.toList.all fun c => Text.isDigitAscii c || ('a' ≤ c && c ≤ 'f')) = true) : Hexdigest text := by
  refine ⟨length, fun c inside => ?_⟩
  have digit := List.all_eq_true.mp digits c inside
  simpa using digit

theorem hashingHex (text : String) : Hexdigest (hashing.sha256 text) := by
  unfold hashing
  dsimp only
  split
  · exact hexdigestOf (by decide +kernel) (by decide +kernel)
  · split
    · exact hexdigestOf (by decide +kernel) (by decide +kernel)
    · exact hexdigestOf (by decide +kernel) (by decide +kernel)

theorem nightlyApart : runScopeForSession hashing "nightly run" ≠ runScopeForSession hashing "weekly run" := by
  have unspelled (s t : String) (blank : ' ' ∈ (Text.strip t).toList) : ¬SpellsDigest hashing s t := by
    rintro ⟨-, spelled⟩
    rw [spelled, sessionDigest, String.toList_ofList] at blank
    have digit := (hashingHex (Text.strip s)).digits _ (List.mem_of_mem_take blank)
    revert digit
    decide
  exact (runScopesPrivate hashingHex (by decide) (by decide)).2.mpr
    ⟨unspelled _ _ (by decide), unspelled _ _ (by decide)⟩

-- a session whose id is the other one's digits shares its scope
theorem spelledDigestShared : ¬∀ a b : String, Text.strip a ≠ "" → Text.strip b ≠ "" → Text.strip a ≠ Text.strip b →
    sessionDigest hashing (Text.strip a) ≠ sessionDigest hashing (Text.strip b) →
      runScopeForSession hashing a ≠ runScopeForSession hashing b := by
  intro apart
  exact apart "nightly run" "b0310bb970e9f9b593954434" (by decide) (by decide) (by decide) (by decide) (by decide)

end Example
end Enfold
