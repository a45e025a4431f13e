import JoinPlan.Text.LetterCase

/-!
# Words in identifiers

Identifiers run words together, by capitals, hyphens, blanks or underscores. `Text.snakeCase`
brings them to one form, words in small letters between underscores, and `Text.plural` forms the
English plural of a word.
-/

namespace JoinPlan

namespace Text

/-- The rest of an identifier with its words parted by underscores. `afterSmall` tells that the
character before ended a word's small letters, so that a capital begins a new word. -/
def snakeCaseFrom (afterSmall : Bool) : List Char → List Char
  | [] => []
  | c :: rest =>
    if c = '-' || c = ' ' then '_' :: snakeCaseFrom false rest
    else if isUpper c then
      (if afterSmall then ['_'] else []) ++ lowered c ++ snakeCaseFrom false rest
    else c :: snakeCaseFrom (isLower c || c.isDigit) rest

/-- An identifier in small letters, its words parted by underscores. -/
def snakeCase (name : String) : List Char :=
  snakeCaseFrom false name.toList

/-- The first word between underscores that is not empty. -/
def firstWord? (name : List Char) : Option (List Char) :=
  let word := (name.dropWhile (· = '_')).takeWhile (· ≠ '_')
  if word.isEmpty then none else some word

/-- The plurals that follow no rule. -/
def irregularPlurals : List (String × String) :=
  [("person", "people"), ("child", "children"), ("man", "men"), ("woman", "women"),
    ("mouse", "mice"), ("goose", "geese"), ("tooth", "teeth"), ("foot", "feet"), ("ox", "oxen")]

/-- The word ends so. -/
def endsWith (word : List Char) (ending : String) : Bool :=
  ending.toList.isSuffixOf word

/-- The word without its last `n` letters, followed by another ending. -/
def withEnding (word : List Char) (n : Nat) (ending : String) : List Char :=
  word.take (word.length - n) ++ ending.toList

/-- The vowels of English, in small letters. -/
def vowels : List Char := ['a', 'e', 'i', 'o', 'u']

/-- The word ends in a `y` that follows a letter other than a vowel. -/
def endsInConsonantY (word : List Char) : Bool :=
  match word.reverse with
  | 'y' :: before :: _ => !vowels.contains before
  | _ => false

/-- The English plural of a word in small letters. -/
def plural (word : List Char) : List Char :=
  match irregularPlurals.lookup (String.ofList word) with
  | some plural => plural.toList
  | none =>
    if ["s", "x", "z", "ch", "sh"].any (endsWith word) then withEnding word 0 "es"
    else if endsInConsonantY word then withEnding word 1 "ies"
    else if endsWith word "fe" then withEnding word 2 "ves"
    else if endsWith word "f" then withEnding word 1 "ves"
    else withEnding word 0 "s"

/-- The first text occurs somewhere in the second. -/
def occursIn (part : List Char) : List Char → Bool
  | [] => part.isEmpty
  | c :: rest => part.isPrefixOf (c :: rest) || occursIn part rest

end Text

end JoinPlan
