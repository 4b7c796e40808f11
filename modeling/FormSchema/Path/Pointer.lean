/-!
# Pointer notation

A pointer separates its segments by `/`.  Within a segment `/` is written `~1`
and `~` is written `~0`; empty pieces are dropped.
-/

namespace FormSchema.Path

def splitAt (separator : Char) : List Char → List (List Char)
  | [] => [[]]
  | c :: rest =>
      if c = separator then [] :: splitAt separator rest
      else match splitAt separator rest with
        | [] => [[c]]
        | piece :: pieces => (c :: piece) :: pieces

def escape : List Char → List Char
  | [] => []
  | c :: rest =>
      if c = '~' then '~' :: '0' :: escape rest
      else if c = '/' then '~' :: '1' :: escape rest
      else c :: escape rest

/-- Undoes both escapes; any other `~` stands for itself. -/
def unescape : List Char → List Char
  | '~' :: '1' :: rest => '/' :: unescape rest
  | '~' :: '0' :: rest => '~' :: unescape rest
  | c :: rest => c :: unescape rest
  | [] => []

theorem unescape_cons {c : Char} (h : c ≠ '~') (rest : List Char) :
    unescape (c :: rest) = c :: unescape rest := by
  conv => lhs; unfold unescape
  split <;> simp_all

theorem unescape_escape (text : List Char) : unescape (escape text) = text := by
  induction text with
  | nil => rfl
  | cons c rest ih =>
      unfold escape
      by_cases htilde : c = '~'
      · simp [htilde, unescape, ih]
      · by_cases hslash : c = '/'
        · simp [hslash, unescape, ih]
        · simp [htilde, hslash, unescape_cons htilde, ih]

def pointerSegments (text : List Char) : List String :=
  ((splitAt '/' text).filter fun piece => !piece.isEmpty).map fun piece =>
    String.ofList (unescape piece)

example : pointerSegments "a//~1~0~01/b~2~".toList = ["a", "/~~1", "b~2~"] := by
  decide

end FormSchema.Path
