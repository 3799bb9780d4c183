import Mathlib.Data.List.Basic
import Mathlib.Data.List.DropRight

/-! The Python text operations the store's rules rest on: white space, case mapping, the
`[a-z0-9]+` tokens and the key grammars. Non-ASCII letters are mapped only where the
mapping can reach an ASCII letter; every rule below reads nothing but ASCII afterwards. -/
namespace Enfold.Text

/-- `str.isspace` on one character, which is also the regular expression class `\s`. -/
def isSpace (c : Char) : Bool :=
  let n := c.toNat
  (9 ≤ n && n ≤ 13) || (28 ≤ n && n ≤ 32) || n == 0x85 || n == 0xA0 || n == 0x1680 ||
    (0x2000 ≤ n && n ≤ 0x200A) || n == 0x2028 || n == 0x2029 || n == 0x202F || n == 0x205F ||
    n == 0x3000

def stripWith (drop : Char → Bool) (text : List Char) : List Char :=
  ((text.dropWhile drop).reverse.dropWhile drop).reverse

/-- `str.strip()`. -/
def strip (text : String) : String := String.ofList (stripWith isSpace text.toList)

def isLowerAscii (c : Char) : Bool := 'a' ≤ c && c ≤ 'z'
def isUpperAscii (c : Char) : Bool := 'A' ≤ c && c ≤ 'Z'
def isDigitAscii (c : Char) : Bool := '0' ≤ c && c ≤ '9'
def isWordChar (c : Char) : Bool := isLowerAscii c || isDigitAscii c

/-- `str.lower()`: besides `A`–`Z`, only the dotted capital I and the Kelvin sign lower to
something that holds an ASCII letter. -/
def lowerChar (c : Char) : List Char :=
  if isUpperAscii c then [Char.ofNat (c.toNat + 32)]
  else if c.toNat = 0x130 then ['i', Char.ofNat 0x307]
  else if c.toNat = 0x212A then ['k']
  else [c]

def lower (text : String) : List Char := text.toList.flatMap lowerChar

/-- `str.casefold()`: the listed letters are the non-ASCII ones that fold to ASCII alone. -/
def casefoldChar (c : Char) : List Char :=
  if isUpperAscii c then [Char.ofNat (c.toNat + 32)]
  else match c.toNat with
    | 0xDF | 0x1E9E => ['s', 's']
    | 0x130 => ['i', Char.ofNat 0x307]
    | 0x17F => ['s']
    | 0x212A => ['k']
    | 0xFB00 => ['f', 'f']
    | 0xFB01 => ['f', 'i']
    | 0xFB02 => ['f', 'l']
    | 0xFB03 => ['f', 'f', 'i']
    | 0xFB04 => ['f', 'f', 'l']
    | 0xFB05 | 0xFB06 => ['s', 't']
    | _ => [c]

def casefold (text : List Char) : List Char := text.flatMap casefoldChar

/-- The maximal runs of characters in a class, in order: `re.findall("[class]+", text)`. -/
def runs (member : Char → Bool) : List Char → List (List Char)
  | [] => []
  | c :: rest =>
    if member c then
      if (rest.head?.map member).getD false then
        match runs member rest with
        | head :: tail => (c :: head) :: tail
        | [] => [[c]]
      else [c] :: runs member rest
    else runs member rest

/-- `re.findall("[a-z0-9]+", text.lower())`, the store's token sequence. -/
def normTokenSequence (text : String) : List String :=
  (runs isWordChar (lower text)).map String.ofList

/-- `re.sub("[class]+", mark, text)`. -/
def collapse (member : Char → Bool) (mark : Char) : List Char → List Char
  | [] => []
  | c :: rest =>
    if member c then
      if (rest.head?.map member).getD false then collapse member mark rest
      else mark :: collapse member mark rest
    else c :: collapse member mark rest

/-- A grammar of the form `[first][rest]{0,limit - 1}`. -/
def shaped (first rest : Char → Bool) (limit : Nat) : List Char → Bool
  | [] => false
  | c :: cs => first c && cs.all rest && cs.length + 1 ≤ limit

/-- `text.startswith(prefix)`, with what follows. -/
def after : List Char → List Char → Option (List Char)
  | [], text => some text
  | _ :: _, [] => none
  | p :: ps, c :: cs => if p = c then after ps cs else none

/-- `text.split(marker, 1)[1]` when the marker occurs. -/
def afterFirst (marker : List Char) : List Char → Option (List Char)
  | [] => after marker []
  | c :: cs => match after marker (c :: cs) with
    | some rest => some rest
    | none => afterFirst marker cs

/-- `text.split(separator)` on one character. -/
def splitOn (separator : Char) : List Char → List (List Char)
  | [] => [[]]
  | c :: cs => match splitOn separator cs with
    | head :: tail => if c = separator then [] :: head :: tail else (c :: head) :: tail
    | [] => [[c]]

/-! ## Kept texts -/

theorem stripWithKept {drop : Char → Bool} {text : List Char} (kept : ∀ c ∈ text, drop c = false) :
    stripWith drop text = text := by
  have ahead : text.dropWhile drop = text := by
    cases text with
    | nil => rfl
    | cons c rest => simp [kept c List.mem_cons_self]
  have behind : text.reverse.dropWhile drop = text.reverse := by
    cases h : text.reverse with
    | nil => rfl
    | cons c rest =>
      have inside : c ∈ text := List.mem_reverse.mp (h ▸ List.mem_cons_self)
      simp [kept c inside]
  rw [stripWith, ahead, behind, List.reverse_reverse]

theorem shapedAll {first rest : Char → Bool} {limit : Nat} {text : List Char}
    (wide : ∀ c, first c = true → rest c = true) (h : shaped first rest limit text = true) :
    ∀ c ∈ text, rest c = true := by
  cases text with
  | nil => simp
  | cons c cs =>
    simp only [shaped, Bool.and_eq_true, List.all_eq_true] at h
    intro d inside
    rcases List.mem_cons.mp inside with same | inside
    · rw [same]
      exact wide c h.1.1
    · exact h.1.2 d inside

theorem afterSource {mark text rest : List Char} (h : after mark text = some rest) :
    text = mark ++ rest := by
  induction mark generalizing text with
  | nil => exact Option.some.inj h
  | cons c marks ih =>
    cases text with
    | nil => cases h
    | cons d text =>
      rw [after] at h
      split at h
      · rename_i same
        rw [same, ih h]
        rfl
      · cases h

theorem wordSpace {c : Char} (h : isWordChar c = true) : isSpace c = false := by
  simp only [isWordChar, isLowerAscii, isDigitAscii, Bool.or_eq_true, Bool.and_eq_true,
    decide_eq_true_eq, Char.le_def, UInt32.le_iff_toNat_le] at h
  have value : c.toNat = c.val.toNat := rfl
  simp only [isSpace, value]
  have bounds : 48 ≤ c.val.toNat ∧ c.val.toNat ≤ 122 := by
    rcases h with h | h <;> simp at h <;> omega
  simp
  omega

theorem stripWithTwice (drop : Char → Bool) (text : List Char) :
    stripWith drop (stripWith drop text) = stripWith drop text := by
  have behind : stripWith drop text = (text.dropWhile drop).rdropWhile drop := rfl
  have ahead : (stripWith drop text).dropWhile drop = stripWith drop text := by
    rw [behind]
    cases kept : (text.dropWhile drop).rdropWhile drop with
    | nil => rfl
    | cons c rest =>
      obtain ⟨tail, shape⟩ := List.rdropWhile_prefix drop (l := text.dropWhile drop)
      rw [kept, List.cons_append] at shape
      have first : drop c = false := by
        have head := List.head?_dropWhile_not drop text
        simpa [← shape] using head
      simp [first]
  have again : (stripWith drop text).rdropWhile drop = stripWith drop text := by
    rw [behind]
    exact List.rdropWhile_idempotent drop _
  calc stripWith drop (stripWith drop text)
      = ((stripWith drop text).dropWhile drop).rdropWhile drop := rfl
    _ = stripWith drop text := by rw [ahead, again]

theorem stripTwice (text : String) : strip (strip text) = strip text := by
  simp only [strip, String.toList_ofList, stripWithTwice]

theorem stripKept {text : List Char} (spaceless : ∀ c ∈ text, isSpace c = false) :
    strip (String.ofList text) = String.ofList text := by
  rw [strip, String.toList_ofList, stripWithKept spaceless]

end Enfold.Text
namespace Enfold

/-- The digits `int` and `str` convert at most. -/
def maxStrDigits : Nat := 4300

end Enfold
