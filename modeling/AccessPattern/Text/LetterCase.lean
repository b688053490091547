/-!
# Lower case as far as it is ASCII

Sizes and strategy names are compared with ASCII texts after lower-casing. Only the twenty-six
ASCII capitals and two further characters have a lower case that contains an ASCII character: the
Kelvin sign, whose lower case is `k`, and the dotted capital I, whose lower case is `i` followed
by a combining dot. All others are kept as they are; that cannot be told apart by a comparison
with an ASCII text, nor by asking whether a character is alphabetic.
-/

namespace AccessPattern.Text

/-- The lower case of one character where it contains ASCII, and the character itself elsewhere. -/
def lowerLetter (c : Char) : List Char :=
  if c = '\u212a' then ['k']
  else if c = '\u0130' then ['i', '\u0307']
  else [c.toLower]

/-- A text with each character lower-cased as far as its lower case contains ASCII. -/
def lower (text : List Char) : List Char :=
  text.flatMap lowerLetter

/-- Whether a character is an ASCII letter. -/
def isAsciiLetter (c : Char) : Bool :=
  ('a' ≤ c && c ≤ 'z') || ('A' ≤ c && c ≤ 'Z')

/-- Lower-casing leaves a lower-case ASCII letter, a digit or a sign alone. -/
theorem lower_eq_self {text : List Char} (h : ∀ c ∈ text, lowerLetter c = [c]) :
    lower text = text := by
  induction text with
  | nil => rfl
  | cons c rest ih =>
    simp only [lower, List.flatMap_cons, h c List.mem_cons_self]
    exact congrArg (c :: ·) (ih fun d hd => h d (List.mem_cons_of_mem _ hd))

end AccessPattern.Text
