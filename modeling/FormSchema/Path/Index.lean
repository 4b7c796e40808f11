import FormSchema.Failure
import FormSchema.Text.Digits

/-!
# Index segments

An index segment is the decimal numeral of a natural number without leading
zeros.  It selects a position of a list; any other segment selects none.
-/

namespace FormSchema.Path

open FormSchema.Text

def isNumeral : List Char → Bool
  | [] => false
  | c :: rest =>
      if c = '0' then rest.isEmpty else isDigit c && rest.all isDigit

def isIndex (segment : String) : Bool := isNumeral segment.toList

def indexValue (segment : String) : Nat := decimalValue segment.toList

def element? {α : Type} (elements : List α) (segment : String) :
    Except Fault (Option α) :=
  if isIndex segment then
    if segment.length ≤ maxDigits then .ok elements[indexValue segment]?
    else .error .longNumeral
  else .ok none

theorem mem_of_element? {α : Type} {elements : List α} {segment : String}
    {found : α} (h : element? elements segment = .ok (some found)) :
    found ∈ elements := by
  unfold element? at h
  split at h
  · split at h
    · exact List.mem_of_getElem? (Except.ok.inj h)
    · cases h
  · cases h

example : ["0", "7", "10", "", "00", "07", "-1", " 1", "1\n", "²"].map isIndex =
    [true, true, true, false, false, false, false, false, false, false] := by
  decide

end FormSchema.Path
