import FormSchema.Text.Digits

/-!
# Labels from names

The words of a name are its runs of ASCII letters and digits, cut where digits
meet letters, where a capital follows a small letter, and before the last of
several capitals when a small letter comes next.  A label is these words in
small letters with a capital at the start.
-/

namespace FormSchema.Text

def isUpper (c : Char) : Bool := 'A' ≤ c && c ≤ 'Z'

def isLower (c : Char) : Bool := 'a' ≤ c && c ≤ 'z'

def inWord (c : Char) : Bool := isUpper c || isLower c || isDigit c

def cutsBetween (first second : Char) (next : Option Char) : Bool :=
  isDigit first != isDigit second ||
    isLower first && isUpper second ||
    isUpper first && isUpper second && next.any isLower

def words : List Char → List (List Char)
  | [] => []
  | c :: rest =>
      if inWord c then
        match words rest, rest with
        | word :: more, d :: after =>
            if inWord d && !cutsBetween c d after.head? then (c :: word) :: more
            else [c] :: word :: more
        | found, _ => [c] :: found
      else words rest

def joinWords : List (List Char) → List Char
  | [] => []
  | [word] => word
  | word :: rest => word ++ ' ' :: joinWords rest

def capitalize : List Char → List Char
  | [] => []
  | c :: rest => c.toUpper :: rest

def label (name : String) : String :=
  String.ofList (capitalize ((joinWords (words name.toList)).map Char.toLower))

example : ["firstName", "XMLHttpRequest2", "first_name", "aB1c", "É", "ABc"].map
    label = ["First name", "Xml http request 2", "First name", "A b 1 c", "",
      "A bc"] := by
  decide

end FormSchema.Text
