import Mathlib.Data.List.Basic
import Mathlib.Data.List.Infix

/-! The query language of a full-text index. Barewords and quoted strings make phrases; operators, column
filters and parentheses make queries of them. -/
namespace MatchQuery

/-! ## Lexemes -/

/-- Letters, digits, the underscore and all that is not ASCII; other characters have to be quoted. -/
def bareChar (c : Char) : Bool := c.isAlphanum || c = '_' || 128 ≤ c.toNat

def blankChar (c : Char) : Bool := c = ' ' || c = '\t' || c = '\n' || c = '\r'

def markChar (c : Char) : Bool := ['(', ')', '\x7b', '\x7d', ':', ',', '+', '*', '-', '^'].contains c

inductive Lexeme where
  | word (text : List Char)
  | quoted (text : List Char)
  | and | or | not | near
  | mark (c : Char)
  deriving DecidableEq, Repr

def Lexeme.ofWord (text : List Char) : Lexeme :=
  if text = ['A', 'N', 'D'] then .and
  else if text = ['O', 'R'] then .or
  else if text = ['N', 'O', 'T'] then .not
  else if text = ['N', 'E', 'A', 'R'] then .near
  else .word text

inductive Scan where
  | between
  | bare (text : List Char)
  | quote (text : List Char)
  | closing (text : List Char)
  deriving DecidableEq, Repr

def enter (c : Char) : Option (List Lexeme × Scan) :=
  if blankChar c then some ([], .between)
  else if c = '"' then some ([], .quote [])
  else if markChar c then some ([.mark c], .between)
  else if bareChar c then some ([], .bare [c])
  else none

def Scan.next (c : Char) : Scan → Option (List Lexeme × Scan)
  | .between => enter c
  | .bare text =>
    if bareChar c then some ([], .bare (text ++ [c]))
    else (enter c).map fun r => (.ofWord text :: r.1, r.2)
  | .quote text => if c = '"' then some ([], .closing text) else some ([], .quote (text ++ [c]))
  | .closing text =>
    -- a doubled quote stands for one
    if c = '"' then some ([], .quote (text ++ ['"']))
    else (enter c).map fun r => (.quoted text :: r.1, r.2)

def Scan.finish : Scan → Option (List Lexeme)
  | .between => some []
  | .bare text => some [.ofWord text]
  | .quote _ => none
  | .closing text => some [.quoted text]

def lexFrom : Scan → List Char → Option (List Lexeme)
  | scan, [] => scan.finish
  | scan, c :: cs => (scan.next c).bind fun r => (lexFrom r.2 cs).map (r.1 ++ ·)

def lex (text : List Char) : Option (List Lexeme) := lexFrom .between text

/-! ## Queries -/

structure ColumnFilter where
  excluded : Bool
  names : List (List Char)
  deriving DecidableEq, Repr

/-- What a single row is asked for: phrases, each of strings that may stand for a prefix. -/
structure Atom where
  filters : List ColumnFilter
  initial : Bool
  near : Option (Option (List Char))
  phrases : List (List (List Char × Bool))
  deriving DecidableEq, Repr

def Atom.within (filter : ColumnFilter) (a : Atom) : Atom := { a with filters := filter :: a.filters }

def Atom.term (text : List Char) : Atom := ⟨[], false, none, [[(text, false)]]⟩

inductive Query where
  | atom (a : Atom)
  | and (left right : Query)
  | or (left right : Query)
  | not (left right : Query)
  | columns (filter : ColumnFilter) (q : Query)

def Query.Matches : Query → (Atom → Prop) → Prop
  | .atom a, holds => holds a
  | .and left right, holds => left.Matches holds ∧ right.Matches holds
  | .or left right, holds => left.Matches holds ∨ right.Matches holds
  | .not left right, holds => left.Matches holds ∧ ¬ right.Matches holds
  | .columns filter q, holds => q.Matches fun a => holds (a.within filter)

def Query.atoms : Query → List Atom
  | .atom a => [a]
  | .and left right => left.atoms ++ right.atoms
  | .or left right => left.atoms ++ right.atoms
  | .not left right => left.atoms ++ right.atoms
  | .columns filter q => q.atoms.map (Atom.within filter)

/-! ## The grammar -/

inductive Stated : Lexeme → List Char → Prop
  | word (text : List Char) : Stated (.word text) text
  | quoted (text : List Char) : Stated (.quoted text) text

inductive Starred : List Lexeme → Bool → Prop
  | none : Starred [] false
  | star : Starred [.mark '*'] true

inductive Phrase : List Lexeme → List (List Char × Bool) → Prop
  | one {l : Lexeme} {text : List Char} {star : List Lexeme} {starred : Bool} (stated : Stated l text)
      (tail : Starred star starred) : Phrase (l :: star) [(text, starred)]
  | plus {xs : List Lexeme} {p : List (List Char × Bool)} {l : Lexeme} {text : List Char} {star : List Lexeme}
      {starred : Bool} (before : Phrase xs p) (stated : Stated l text) (tail : Starred star starred) :
      Phrase (xs ++ .mark '+' :: l :: star) (p ++ [(text, starred)])

inductive Phrases : List Lexeme → List (List (List Char × Bool)) → Prop
  | one {xs : List Lexeme} {p : List (List Char × Bool)} (phrase : Phrase xs p) : Phrases xs [p]
  | more {xs ys : List Lexeme} {ps : List (List (List Char × Bool))} {p : List (List Char × Bool)}
      (before : Phrases xs ps) (phrase : Phrase ys p) : Phrases (xs ++ ys) (ps ++ [p])

inductive Distance : List Lexeme → Option (List Char) → Prop
  | none : Distance [] none
  | within {l : Lexeme} {text : List Char} (stated : Stated l text) : Distance [.mark ',', l] (some text)

inductive Names : List Lexeme → List (List Char) → Prop
  | one {l : Lexeme} {text : List Char} (stated : Stated l text) : Names [l] [text]
  | more {xs : List Lexeme} {names : List (List Char)} {l : Lexeme} {text : List Char} (before : Names xs names)
      (stated : Stated l text) : Names (xs ++ [l]) (names ++ [text])

inductive Filter : List Lexeme → ColumnFilter → Prop
  | one {l : Lexeme} {text : List Char} (stated : Stated l text) : Filter [l] ⟨false, [text]⟩
  | set {xs : List Lexeme} {names : List (List Char)} (listed : Names xs names) :
      Filter (.mark '\x7b' :: xs ++ [.mark '\x7d']) ⟨false, names⟩
  | except {l : Lexeme} {text : List Char} (stated : Stated l text) : Filter [.mark '-', l] ⟨true, [text]⟩
  | exceptSet {xs : List Lexeme} {names : List (List Char)} (listed : Names xs names) :
      Filter (.mark '-' :: .mark '\x7b' :: xs ++ [.mark '\x7d']) ⟨true, names⟩

inductive Near : List Lexeme → Atom → Prop
  | phrase {xs : List Lexeme} {p : List (List Char × Bool)} (phrase : Phrase xs p) : Near xs ⟨[], false, none, [p]⟩
  | initial {xs : List Lexeme} {p : List (List Char × Bool)} (phrase : Phrase xs p) :
      Near (.mark '^' :: xs) ⟨[], true, none, [p]⟩
  | group {xs ys : List Lexeme} {ps : List (List (List Char × Bool))} {distance : Option (List Char)}
      (phrases : Phrases xs ps) (tail : Distance ys distance) :
      Near (.near :: .mark '(' :: xs ++ ys ++ [.mark ')']) ⟨[], false, some distance, ps⟩

/-- Terms beside each other stand for their conjunction. -/
inductive Terms : List Lexeme → Query → Prop
  | one {xs : List Lexeme} {a : Atom} (near : Near xs a) : Terms xs (.atom a)
  | filtered {cs xs : List Lexeme} {filter : ColumnFilter} {a : Atom} (columns : Filter cs filter) (near : Near xs a) :
      Terms (cs ++ .mark ':' :: xs) (.atom (a.within filter))
  | more {xs ys : List Lexeme} {q : Query} {a : Atom} (before : Terms xs q) (near : Near ys a) :
      Terms (xs ++ ys) (.and q (.atom a))
  | moreFiltered {xs cs ys : List Lexeme} {q : Query} {filter : ColumnFilter} {a : Atom} (before : Terms xs q)
      (columns : Filter cs filter) (near : Near ys a) :
      Terms (xs ++ (cs ++ .mark ':' :: ys)) (.and q (.atom (a.within filter)))

/-- `OR` binds least, then `AND`, then `NOT`; operators of one level are read from the left. -/
inductive Expr : Nat → List Lexeme → Query → Prop
  | terms {xs : List Lexeme} {q : Query} (terms : Terms xs q) : Expr 3 xs q
  | group {xs : List Lexeme} {q : Query} (inner : Expr 0 xs q) : Expr 3 (.mark '(' :: xs ++ [.mark ')']) q
  | columns {cs xs : List Lexeme} {filter : ColumnFilter} {q : Query} (columns : Filter cs filter)
      (inner : Expr 0 xs q) : Expr 3 (cs ++ .mark ':' :: .mark '(' :: xs ++ [.mark ')']) (.columns filter q)
  | not {xs ys : List Lexeme} {p q : Query} (left : Expr 2 xs p) (right : Expr 3 ys q) :
      Expr 2 (xs ++ .not :: ys) (.not p q)
  | and {xs ys : List Lexeme} {p q : Query} (left : Expr 1 xs p) (right : Expr 2 ys q) :
      Expr 1 (xs ++ .and :: ys) (.and p q)
  | or {xs ys : List Lexeme} {p q : Query} (left : Expr 0 xs p) (right : Expr 1 ys q) :
      Expr 0 (xs ++ .or :: ys) (.or p q)
  | tighter {level : Nat} {xs : List Lexeme} {q : Query} (inner : Expr (level + 1) xs q) : Expr level xs q

def Reads (text : List Char) (q : Query) : Prop := ∃ lexemes, lex text = some lexemes ∧ Expr 0 lexemes q

/-- A query asks for all of some terms, whatever a row holds. -/
def Query.Conjunction (q : Query) (terms : List (List Char)) : Prop :=
  ∀ holds, q.Matches holds ↔ ∀ text ∈ terms, holds (.term text)

/-- A bareword that is no operator. -/
def Plain (text : List Char) : Prop :=
  text ≠ [] ∧ text.all bareChar = true ∧ Lexeme.ofWord text = .word text
instance (text : List Char) : Decidable (Plain text) := by unfold Plain; infer_instance

/-! ## What a query rests on -/

theorem matchesCongr {q : Query} {holds holds' : Atom → Prop} (same : ∀ a ∈ q.atoms, holds a ↔ holds' a) :
    q.Matches holds ↔ q.Matches holds' := by
  induction q generalizing holds holds' with
  | atom a => exact same a (List.mem_singleton.mpr rfl)
  | and left right ihl ihr =>
    exact and_congr (ihl fun a ha => same a (List.mem_append_left _ ha))
      (ihr fun a ha => same a (List.mem_append_right _ ha))
  | or left right ihl ihr =>
    exact or_congr (ihl fun a ha => same a (List.mem_append_left _ ha))
      (ihr fun a ha => same a (List.mem_append_right _ ha))
  | not left right ihl ihr =>
    exact and_congr (ihl fun a ha => same a (List.mem_append_left _ ha))
      (not_congr (ihr fun a ha => same a (List.mem_append_right _ ha)))
  | columns filter q ih => exact ih fun a ha => same _ (List.mem_map_of_mem ha)

theorem Query.Conjunction.asks {q : Query} {terms : List (List Char)} (conjunction : q.Conjunction terms)
    {text : List Char} (listed : text ∈ terms) : .term text ∈ q.atoms := by
  by_contra absent
  have full := (conjunction fun _ => True).mpr fun _ _ => trivial
  have rest : q.Matches fun a => a ≠ .term text := by
    refine (matchesCongr fun a ha => iff_of_true trivial ?_).mp full
    rintro rfl
    exact absent ha
  exact (conjunction fun a => a ≠ .term text).mp rest text listed rfl

def Sourced (lexemes : List Lexeme) (text : List Char) : Prop := .word text ∈ lexemes ∨ .quoted text ∈ lexemes

theorem Sourced.mono {xs ys : List Lexeme} {text : List Char} (sourced : Sourced xs text) (sub : xs ⊆ ys) :
    Sourced ys text := sourced.imp (sub ·) (sub ·)

theorem statedSource {l : Lexeme} {text : List Char} {xs : List Lexeme} (stated : Stated l text) (listed : l ∈ xs) :
    Sourced xs text := by
  cases stated with
  | word => exact .inl listed
  | quoted => exact .inr listed

theorem phraseSource {xs : List Lexeme} {p : List (List Char × Bool)} (phrase : Phrase xs p) :
    ∀ s ∈ p, Sourced xs s.1 := by
  induction phrase with
  | one stated tail =>
    intro s hs
    rw [List.mem_singleton.mp hs]
    exact statedSource stated List.mem_cons_self
  | plus before stated tail ih =>
    intro s hs
    rcases List.mem_append.mp hs with old | new
    · exact (ih s old).mono (List.subset_append_left _ _)
    · rw [List.mem_singleton.mp new]
      exact statedSource stated (List.mem_append_right _ (List.mem_cons_of_mem _ List.mem_cons_self))

theorem phrasesSource {xs : List Lexeme} {ps : List (List (List Char × Bool))} (phrases : Phrases xs ps) :
    ∀ p ∈ ps, ∀ s ∈ p, Sourced xs s.1 := by
  induction phrases with
  | one phrase =>
    intro p hp
    rw [List.mem_singleton.mp hp]
    exact phraseSource phrase
  | more before phrase ih =>
    intro p hp s hs
    rcases List.mem_append.mp hp with old | new
    · exact (ih p old s hs).mono (List.subset_append_left _ _)
    · rw [List.mem_singleton.mp new] at hs
      exact (phraseSource phrase s hs).mono (List.subset_append_right _ _)

theorem nearSource {xs : List Lexeme} {a : Atom} (near : Near xs a) : ∀ p ∈ a.phrases, ∀ s ∈ p, Sourced xs s.1 := by
  cases near with
  | phrase phrase =>
    intro p hp
    rw [List.mem_singleton.mp hp]
    exact phraseSource phrase
  | initial phrase =>
    intro p hp s hs
    rw [List.mem_singleton.mp hp] at hs
    exact (phraseSource phrase s hs).mono (List.subset_cons_self _ _)
  | group phrases tail =>
    intro p hp s hs
    refine (phrasesSource phrases p hp s hs).mono fun l hl => ?_
    exact List.mem_append_left _ (List.mem_append_left _ (List.mem_cons_of_mem _ (List.mem_cons_of_mem _ hl)))

def AtomsSourced (xs : List Lexeme) (q : Query) : Prop := ∀ a ∈ q.atoms, ∀ p ∈ a.phrases, ∀ s ∈ p, Sourced xs s.1

theorem AtomsSourced.mono {xs ys : List Lexeme} {q : Query} (sourced : AtomsSourced xs q) (sub : xs ⊆ ys) :
    AtomsSourced ys q := fun a ha p hp s hs => (sourced a ha p hp s hs).mono sub

theorem AtomsSourced.one {xs ys : List Lexeme} {a b : Atom} (near : Near xs a) (phrases : b.phrases = a.phrases)
    (sub : xs ⊆ ys) : AtomsSourced ys (.atom b) := by
  intro c hc p hp s hs
  rw [List.mem_singleton.mp hc, phrases] at hp
  exact (nearSource near p hp s hs).mono sub

theorem AtomsSourced.both {xs : List Lexeme} {p q r : Query} (left : AtomsSourced xs p) (right : AtomsSourced xs q)
    (atoms : r.atoms = p.atoms ++ q.atoms) : AtomsSourced xs r := by
  intro a ha
  rw [atoms] at ha
  exact (List.mem_append.mp ha).elim (left a) (right a)

theorem termsSource {xs : List Lexeme} {q : Query} (terms : Terms xs q) : AtomsSourced xs q := by
  induction terms with
  | one near => exact .one near rfl (List.Subset.refl _)
  | filtered columns near =>
    exact .one near rfl fun l hl => List.mem_append_right _ (List.mem_cons_of_mem _ hl)
  | more before near ih =>
    exact (ih.mono (List.subset_append_left _ _)).both (.one near rfl (List.subset_append_right _ _)) rfl
  | moreFiltered before columns near ih =>
    rename_i xs cs ys q filter a
    have sub : ys ⊆ xs ++ (cs ++ .mark ':' :: ys) := fun l hl =>
      List.mem_append_right _ (List.mem_append_right _ (List.mem_cons_of_mem _ hl))
    have last : AtomsSourced (xs ++ (cs ++ .mark ':' :: ys)) (.atom (a.within filter)) := .one near rfl sub
    exact (ih.mono (List.subset_append_left _ _)).both last rfl

theorem exprSource {level : Nat} {xs : List Lexeme} {q : Query} (expr : Expr level xs q) : AtomsSourced xs q := by
  induction expr with
  | terms terms => exact termsSource terms
  | group inner ih => exact ih.mono fun l hl => List.mem_append_left _ (List.mem_cons_of_mem _ hl)
  | columns columns inner ih =>
    intro a ha p hp s hs
    obtain ⟨b, hb, rfl⟩ := List.mem_map.mp ha
    refine (ih b hb p hp s hs).mono fun l hl => List.mem_append_left _ ?_
    exact List.mem_append_right _ (List.mem_cons_of_mem _ (List.mem_cons_of_mem _ hl))
  | not left right ihl ihr | and left right ihl ihr | or left right ihl ihr =>
    exact (ihl.mono (List.subset_append_left _ _)).both
      (ihr.mono fun l hl => List.mem_append_right _ (List.mem_cons_of_mem _ hl)) rfl
  | tighter inner ih => exact ih

theorem Expr.states {q : Query} {term : List Char} {lexemes : List Lexeme} (expr : Expr 0 lexemes q) (asked : .term term ∈ q.atoms) :
    Sourced lexemes term :=
  exprSource expr _ asked _ (List.mem_singleton.mpr rfl) (term, false) (List.mem_singleton.mpr rfl)

/-! ## What a scan finds -/

theorem enterSource {c : Char} {out : List Lexeme} {scan : Scan} (entered : enter c = some (out, scan)) :
    (out = [] ∧ (scan = .between ∨ scan = .quote [] ∧ c = '"' ∨ scan = .bare [c] ∧ bareChar c = true)) ∨
      (out = [.mark c] ∧ scan = .between) := by
  unfold enter at entered
  split at entered
  · cases entered
    exact .inl ⟨rfl, .inl rfl⟩
  · split at entered
    · rename_i quote
      cases entered
      exact .inl ⟨rfl, .inr (.inl ⟨rfl, quote⟩)⟩
    · split at entered
      · cases entered
        exact .inr ⟨rfl, rfl⟩
      · split at entered
        · rename_i bare
          cases entered
          exact .inl ⟨rfl, .inr (.inr ⟨rfl, bare⟩)⟩
        · cases entered

theorem ofWordPlain {text other : List Char} (word : Lexeme.ofWord text = .word other) : other = text := by
  unfold Lexeme.ofWord at word
  split at word
  · cases word
  · split at word
    · cases word
    · split at word
      · cases word
      · split at word
        · cases word
        · exact (Lexeme.word.inj word).symm

theorem ofWordQuoted {text other : List Char} : Lexeme.ofWord text ≠ .quoted other := by
  unfold Lexeme.ofWord
  split
  · nofun
  · split
    · nofun
    · split
      · nofun
      · split <;> nofun

def Scan.Bare : Scan → Prop
  | .bare text => text ≠ [] ∧ text.all bareChar = true
  | _ => True

def escape (text : List Char) : List Char := text.flatMap fun c => if c = '"' then ['"', '"'] else [c]

def quotation (text : List Char) : List Char := '"' :: escape text ++ ['"']

def Scan.raw : Scan → List Char
  | .between => []
  | .bare text => text
  | .quote text => '"' :: escape text
  | .closing text => quotation text

def Scan.flush : Scan → List Lexeme
  | .bare text => [.ofWord text]
  | .closing text => [.quoted text]
  | _ => []

theorem nextSource {c : Char} {scan next : Scan} {out : List Lexeme} (step : scan.next c = some (out, next)) :
    (out = [] ∧ next.raw = scan.raw ++ [c] ∧ (scan.Bare → next.Bare)) ∨
      ∃ fresh, enter c = some (fresh, next) ∧ out = scan.flush ++ fresh := by
  cases scan with
  | between => exact .inr ⟨out, step, rfl⟩
  | bare text =>
    unfold Scan.next at step
    dsimp only at step
    split at step
    · rename_i bare
      cases step
      exact .inl ⟨rfl, rfl, fun before => ⟨by simp, by simp [before.2, bare]⟩⟩
    · obtain ⟨⟨fresh, scan⟩, entered, last⟩ := Option.map_eq_some_iff.mp step
      cases last
      exact .inr ⟨fresh, entered, rfl⟩
  | quote text =>
    unfold Scan.next at step
    dsimp only at step
    split at step
    · rename_i quote
      cases step
      exact .inl ⟨rfl, by rw [quote]; rfl, fun _ => trivial⟩
    · rename_i other
      cases step
      refine .inl ⟨rfl, ?_, fun _ => trivial⟩
      simp only [Scan.raw, escape, List.flatMap_append, List.flatMap_singleton, if_neg other, List.cons_append]
  | closing text =>
    unfold Scan.next at step
    dsimp only at step
    split at step
    · rename_i quote
      cases step
      refine .inl ⟨rfl, ?_, fun _ => trivial⟩
      simp only [quote, Scan.raw, quotation, escape, List.flatMap_append, List.flatMap_singleton, if_true,
        List.cons_append, List.append_assoc, List.nil_append]
    · obtain ⟨⟨fresh, scan⟩, entered, last⟩ := Option.map_eq_some_iff.mp step
      cases last
      exact .inr ⟨fresh, entered, rfl⟩

theorem finishSource {scan : Scan} {lexemes : List Lexeme} (done : scan.finish = some lexemes) :
    lexemes = scan.flush := by
  cases scan <;> cases done <;> rfl

theorem lexFromCons {scan : Scan} {c : Char} {cs : List Char} {lexemes : List Lexeme}
    (lexed : lexFrom scan (c :: cs) = some lexemes) :
    ∃ out next later, scan.next c = some (out, next) ∧ lexFrom next cs = some later ∧ lexemes = out ++ later := by
  rw [lexFrom, Option.bind_eq_some_iff] at lexed
  obtain ⟨⟨out, next⟩, step, rest⟩ := lexed
  obtain ⟨later, found, rfl⟩ := Option.map_eq_some_iff.mp rest
  exact ⟨out, next, later, step, found, rfl⟩

theorem flushWord {scan : Scan} {text : List Char} (bare : scan.Bare) (listed : .word text ∈ scan.flush) : Plain text := by
  cases scan with
  | bare word =>
    have same := (List.mem_singleton.mp listed).symm
    obtain rfl := ofWordPlain same
    exact ⟨bare.1, bare.2, same⟩
  | closing word => exact absurd (List.mem_singleton.mp listed) nofun
  | between | quote => exact absurd listed List.not_mem_nil

theorem wordPlain {scan : Scan} {cs : List Char} {lexemes : List Lexeme} {text : List Char} (bare : scan.Bare)
    (lexed : lexFrom scan cs = some lexemes) (listed : .word text ∈ lexemes) : Plain text := by
  induction cs generalizing scan lexemes with
  | nil => exact flushWord bare (finishSource lexed ▸ listed)
  | cons c cs ih =>
    obtain ⟨out, next, later, step, rest, rfl⟩ := lexFromCons lexed
    rcases nextSource step with ⟨rfl, -, kept⟩ | ⟨fresh, entered, rfl⟩
    · exact ih (kept bare) rest listed
    · have begun : .word text ∉ fresh ∧ next.Bare := by
        rcases enterSource entered with ⟨rfl, rfl | ⟨rfl, -⟩ | ⟨rfl, fine⟩⟩ | ⟨rfl, rfl⟩
        · exact ⟨List.not_mem_nil, trivial⟩
        · exact ⟨List.not_mem_nil, trivial⟩
        · exact ⟨List.not_mem_nil, List.cons_ne_nil _ _, by simpa using fine⟩
        · exact ⟨by simp, trivial⟩
      rcases List.mem_append.mp listed with early | late
      · rcases List.mem_append.mp early with flushed | entered'
        · exact flushWord bare flushed
        · exact absurd entered' begun.1
      · exact ih begun.2 rest late

theorem quotedInside {scan : Scan} {cs : List Char} {lexemes : List Lexeme} {text : List Char}
    (lexed : lexFrom scan cs = some lexemes) (listed : .quoted text ∈ lexemes) :
    quotation text <:+: scan.raw ++ cs := by
  have flushed {scan : Scan} (here : .quoted text ∈ scan.flush) : quotation text = scan.raw := by
    cases scan with
    | bare word => exact absurd (List.mem_singleton.mp here).symm ofWordQuoted
    | closing word => exact congrArg quotation (Lexeme.quoted.inj (List.mem_singleton.mp here))
    | between | quote => exact absurd here List.not_mem_nil
  induction cs generalizing scan lexemes with
  | nil =>
    rw [List.append_nil, flushed (finishSource lexed ▸ listed)]
  | cons c cs ih =>
    obtain ⟨out, next, later, step, rest, rfl⟩ := lexFromCons lexed
    rcases nextSource step with ⟨rfl, grown, -⟩ | ⟨fresh, entered, rfl⟩
    · have inside := ih rest listed
      rwa [grown, List.append_assoc] at inside
    · have begun : .quoted text ∉ fresh ∧ next.raw <:+ [c] := by
        rcases enterSource entered with ⟨rfl, rfl | ⟨rfl, rfl⟩ | ⟨rfl, fine⟩⟩ | ⟨rfl, rfl⟩
        · exact ⟨List.not_mem_nil, List.nil_suffix⟩
        · exact ⟨List.not_mem_nil, List.suffix_refl _⟩
        · exact ⟨List.not_mem_nil, List.suffix_refl _⟩
        · exact ⟨by simp, List.nil_suffix⟩
      rcases List.mem_append.mp listed with early | late
      · rcases List.mem_append.mp early with here | entered'
        · rw [flushed here]
          exact (List.prefix_append _ _).isInfix
        · exact absurd entered' begun.1
      · obtain ⟨before, shape⟩ := begun.2
        refine (ih rest late).trans ⟨scan.raw ++ before, [], ?_⟩
        rw [List.append_nil, List.append_assoc, ← List.append_assoc before, shape]
        rfl

/-! ## Conjunctions -/

def conjoined (terms : List (List Char)) : List Char := [' ', 'A', 'N', 'D', ' '].intercalate terms

theorem conjoinedNext {term next : List Char} {rest : List (List Char)} :
    conjoined (term :: next :: rest) = term ++ ' ' :: (['A', 'N', 'D'] ++ ' ' :: conjoined (next :: rest)) := by
  rw [conjoined, List.intercalate_cons_of_ne_nil (List.cons_ne_nil _ _), List.append_assoc]
  rfl

theorem bareOther {c : Char} (bare : bareChar c = true) : blankChar c = false ∧ c ≠ '"' ∧ markChar c = false := by
  refine ⟨Bool.eq_false_iff.mpr fun blank => ?_, fun quote => ?_, Bool.eq_false_iff.mpr fun mark => ?_⟩
  · simp only [blankChar, Bool.or_eq_true, decide_eq_true_eq] at blank
    rcases blank with ((rfl | rfl) | rfl) | rfl <;> exact absurd bare (by decide)
  · subst quote
    exact absurd bare (by decide)
  · have plain : ['(', ')', '\x7b', '\x7d', ':', ',', '+', '*', '-', '^'].all (fun c => !bareChar c) = true := by decide
    have other := List.all_eq_true.mp plain c (List.contains_iff_mem.mp mark)
    rw [bare] at other
    cases other

theorem lexStep {scan next : Scan} {c : Char} {out : List Lexeme} (step : scan.next c = some (out, next))
    (cs : List Char) : lexFrom scan (c :: cs) = (lexFrom next cs).map (out ++ ·) := by
  rw [lexFrom, step, Option.bind_some]

theorem lexBare {text taken rest : List Char} (bare : text.all bareChar = true) :
    lexFrom (.bare taken) (text ++ rest) = lexFrom (.bare (taken ++ text)) rest := by
  induction text generalizing taken with
  | nil => rw [List.nil_append, List.append_nil]
  | cons c cs ih =>
    rw [List.all_cons, Bool.and_eq_true] at bare
    have step : Scan.next c (.bare taken) = some ([], .bare (taken ++ [c])) := if_pos bare.1
    rw [List.cons_append, lexStep step, ih bare.2, List.append_assoc]
    exact Option.map_id'

theorem lexPlain {text rest : List Char} (plain : Plain text) :
    lexFrom .between (text ++ rest) = lexFrom (.bare text) rest := by
  obtain ⟨some, bare, -⟩ := plain
  cases text with
  | nil => exact absurd rfl some
  | cons c cs =>
    rw [List.all_cons, Bool.and_eq_true] at bare
    obtain ⟨blank, quote, mark⟩ := bareOther bare.1
    have entered : Scan.next c .between = .some ([], .bare [c]) := by
      simp only [Scan.next, enter, blank, quote, mark, bare.1, Bool.false_eq_true, if_false, if_true]
    rw [List.cons_append, lexStep entered, lexBare bare.2]
    exact Option.map_id'

theorem bareBlank (text rest : List Char) :
    lexFrom (.bare text) (' ' :: rest) = (lexFrom .between rest).map (.ofWord text :: ·) :=
  lexStep (rfl : Scan.next ' ' (.bare text) = some ([.ofWord text], .between)) rest

theorem lexOperator (rest : List Char) :
    lexFrom .between (['A', 'N', 'D'] ++ ' ' :: rest) = (lexFrom .between rest).map (.and :: ·) := by
  have word : lexFrom .between (['A', 'N', 'D'] ++ ' ' :: rest) = lexFrom (.bare ['A', 'N', 'D']) (' ' :: rest) := by
    have entered : Scan.next 'A' .between = some ([], .bare ['A']) := by decide
    have bare : ['N', 'D'].all bareChar = true := by decide
    rw [List.cons_append, lexStep entered, lexBare bare]
    exact Option.map_id'
  rw [word, bareBlank]
  rfl

def conjunctionLexemes : List (List Char) → List Lexeme
  | [] => []
  | [term] => [.word term]
  | term :: next :: rest => .word term :: .and :: conjunctionLexemes (next :: rest)

theorem lexConjoined {terms : List (List Char)} (plain : ∀ term ∈ terms, Plain term) :
    lex (conjoined terms) = some (conjunctionLexemes terms) := by
  unfold lex
  induction terms with
  | nil => rfl
  | cons term rest ih =>
    have first := plain term List.mem_cons_self
    have later := ih fun t ht => plain t (List.mem_cons_of_mem _ ht)
    cases rest with
    | nil =>
      have single : lexFrom .between (term ++ []) = lexFrom (.bare term) [] := lexPlain first
      rw [List.append_nil] at single
      rw [conjoined, List.intercalate_singleton, single]
      exact congrArg (fun l => some [l]) first.2.2
    | cons next rest =>
      rw [conjoinedNext, lexPlain first, bareBlank, lexOperator, later, first.2.2]
      rfl

theorem termExpr (term : List Char) : Expr 2 [.word term] (.atom (.term term)) :=
  .tighter (.terms (.one (.phrase (.one (.word term) .none))))

theorem conjunctionExpr {terms : List (List Char)} {xs : List Lexeme} {p : Query} (some : terms ≠ [])
    (left : Expr 1 xs p) : ∃ q, Expr 1 (xs ++ .and :: conjunctionLexemes terms) q ∧
      ∀ holds, q.Matches holds ↔ p.Matches holds ∧ ∀ term ∈ terms, holds (.term term) := by
  induction terms generalizing xs p with
  | nil => exact absurd rfl some
  | cons term rest ih =>
    have joined := Expr.and left (termExpr term)
    cases rest with
    | nil =>
      refine ⟨_, joined, fun holds => ?_⟩
      rw [List.forall_mem_singleton]
      rfl
    | cons next rest =>
      obtain ⟨q, expr, asks⟩ := ih (List.cons_ne_nil _ _) joined
      refine ⟨q, by rwa [List.append_assoc] at expr, fun holds => ?_⟩
      rw [asks holds, List.forall_mem_cons (l := next :: rest), ← and_assoc]
      rfl

theorem conjunctionReads {terms : List (List Char)} (some : terms ≠ []) (plain : ∀ term ∈ terms, Plain term) :
    ∃ q, Reads (conjoined terms) q ∧ q.Conjunction terms := by
  have lexed := lexConjoined plain
  cases terms with
  | nil => exact absurd rfl some
  | cons term rest =>
    cases rest with
    | nil =>
      refine ⟨_, ⟨_, lexed, .tighter (.tighter (termExpr term))⟩, fun holds => ?_⟩
      rw [List.forall_mem_singleton]
      rfl
    | cons next rest =>
      obtain ⟨q, expr, asks⟩ := conjunctionExpr (List.cons_ne_nil next rest) (.tighter (termExpr term))
      refine ⟨q, ⟨_, lexed, .tighter expr⟩, fun holds => ?_⟩
      rw [asks holds, List.forall_mem_cons (l := next :: rest)]
      rfl

theorem infixSplit {r xs ys : List Char} (inside : r <:+: xs ++ ' ' :: ys) (whole : ' ' ∉ r) :
    r <:+: xs ∨ r <:+: ys := by
  obtain ⟨a, b, shape⟩ := inside
  rcases List.append_eq_append_iff.mp shape with ⟨c, split, -⟩ | ⟨c, split, rest⟩
  · exact .inl ⟨a, c, split.symm⟩
  · cases c with
    | nil => exact .inl ⟨a, [], by rw [split, List.append_nil, List.append_nil]⟩
    | cons d c =>
      obtain ⟨rfl, tail⟩ := List.cons.inj rest
      rcases List.append_eq_append_iff.mp split with ⟨e, -, taken⟩ | ⟨e, -, taken⟩
      · exact absurd (taken ▸ List.mem_append_right _ List.mem_cons_self) whole
      · cases e with
        | nil => exact absurd (List.mem_of_mem_head? (congrArg List.head? taken).symm) whole
        | cons f e =>
          obtain ⟨-, behind⟩ := List.cons.inj taken
          exact .inr ⟨e, b, by rw [tail, behind]; rfl⟩

theorem infixTerm {r : List Char} {terms : List (List Char)} (inside : r <:+: conjoined terms) (whole : ' ' ∉ r)
    (other : ¬ r <:+: ['A', 'N', 'D']) (full : r ≠ []) : ∃ term ∈ terms, r <:+: term := by
  induction terms with
  | nil => exact absurd (List.infix_nil.mp inside) full
  | cons term rest ih =>
    cases rest with
    | nil => exact ⟨term, List.mem_cons_self, by rwa [conjoined, List.intercalate_singleton] at inside⟩
    | cons next rest =>
      rw [conjoinedNext] at inside
      rcases infixSplit inside whole with here | behind
      · exact ⟨term, List.mem_cons_self, here⟩
      · rcases infixSplit behind whole with operator | later
        · exact absurd operator other
        · obtain ⟨found, listed, within⟩ := ih later
          exact ⟨found, List.mem_cons_of_mem _ listed, within⟩

theorem quotationSpec (text : List Char) :
    '"' ∈ quotation text ∧ text.length + 2 ≤ (quotation text).length ∧ (' ' ∉ text → ' ' ∉ quotation text) := by
  refine ⟨List.mem_append_left _ List.mem_cons_self, ?_, fun whole => ?_⟩
  · have grown : text.length ≤ (escape text).length := by
      induction text with
      | nil => exact le_refl _
      | cons c cs ih =>
        rw [escape, List.flatMap_cons, List.length_append]
        change _ ≤ _ + (escape cs).length
        split <;> simp only [List.length_cons, List.length_nil] <;> omega
    simp only [quotation, List.length_append, List.length_cons, List.length_nil]
    omega
  · intro listed
    simp only [quotation, escape, List.cons_append, List.mem_cons, List.mem_append, List.mem_flatMap,
      List.not_mem_nil, or_false] at listed
    rcases listed with quote | ⟨c, hc, blank⟩ | quote
    · exact absurd quote (by decide)
    · split at blank
      · exact absurd blank (by decide)
      · exact whole (List.mem_singleton.mp blank ▸ hc)
    · exact absurd quote (by decide)

theorem longerTerm {terms : List (List Char)} {q : Query} {term : List Char} (reads : Reads (conjoined terms) q)
    (conjunction : q.Conjunction terms) (spaced : ∀ t ∈ terms, ' ' ∉ t) (listed : term ∈ terms)
    (odd : ¬ Plain term) : ∃ longer ∈ terms, ¬ Plain longer ∧ term.length < longer.length := by
  obtain ⟨lexemes, lexed, expr⟩ := reads
  obtain ⟨quote, long, blank⟩ := quotationSpec term
  have begun : Scan.between.Bare := trivial
  rcases expr.states (conjunction.asks listed) with word | quoted
  · exact absurd (wordPlain begun lexed word) odd
  · have inside := quotedInside lexed quoted
    rw [Scan.raw, List.nil_append] at inside
    have other : ¬ quotation term <:+: ['A', 'N', 'D'] := fun within => absurd (within.subset quote) (by decide)
    obtain ⟨longer, found, within⟩ := infixTerm inside (blank (spaced term listed)) other (List.ne_nil_of_mem quote)
    refine ⟨longer, found, fun plain => ?_, Nat.lt_of_lt_of_le (by omega) within.length_le⟩
    have bare := List.all_eq_true.mp plain.2.1 _ (within.subset quote)
    exact absurd bare (by decide)

/-- Joined terms are read as their conjunction just when each is a bareword that is no operator. -/
theorem conjunctionRead {terms : List (List Char)} (some : terms ≠ []) (spaced : ∀ t ∈ terms, ' ' ∉ t) :
    (∃ q, Reads (conjoined terms) q ∧ q.Conjunction terms) ↔ ∀ term ∈ terms, Plain term := by
  refine ⟨fun ⟨q, reads, conjunction⟩ => ?_, conjunctionReads some⟩
  -- there is no longest term among those that are no barewords
  have descent : ∀ room, ∀ term ∈ terms, terms.flatten.length < term.length + room → Plain term := by
    intro room
    induction room with
    | zero =>
      intro term listed short
      have bound := (List.sublist_flatten_of_mem listed).length_le
      omega
    | succ room ih =>
      intro term listed short
      by_contra odd
      obtain ⟨longer, found, odd', grown⟩ := longerTerm reads conjunction spaced listed odd
      exact odd' (ih longer found (by omega))
  exact fun term listed => descent (terms.flatten.length + 1) term listed (by omega)

end MatchQuery
