import FormSchema.Json
import FormSchema.Text.Digits

/-!
# Reading JSON text

Reading stops at the first character that can not go on, and the characters left
there give the position of the problem.  A repeated key keeps its first place
and its last value.  Besides JSON proper, `NaN`, `Infinity` and `-Infinity` are
numbers.  There is room for so many lists and objects within each other and no more.
-/

namespace FormSchema.Json

inductive Problem where
  | expectingValue
  | expectingName
  | expectingColon
  | expectingComma
  | extraData
  | unterminatedString
  | controlCharacter
  | unknownEscape
  | unknownUnit
  | byteOrderMark
  | longNumeral
  | tooDeep
  deriving DecidableEq, Repr

structure Stop where
  problem : Problem
  rest : List Char
  deriving DecidableEq, Repr

namespace Reader

open FormSchema.Text

abbrev Reading (α : Type) := Except Stop (α × List Char)

def isSpace (c : Char) : Bool :=
  c == ' ' || c == '\t' || c == '\n' || c == '\r'

def skip (text : List Char) : List Char := text.dropWhile isSpace

/-! ## Strings -/

def hexValue? (c : Char) : Option Nat :=
  if isDigit c then some (digitValue c)
  else if 'a' ≤ c && c ≤ 'f' then some (c.toNat - 'a'.toNat + 10)
  else if 'A' ≤ c && c ≤ 'F' then some (c.toNat - 'A'.toNat + 10)
  else none

def unit? (a b c d : Char) : Option Nat := do
  some ((((← hexValue? a) * 16 + (← hexValue? b)) * 16 + (← hexValue? c)) * 16 +
    (← hexValue? d))

def escaped? : Char → Option Char
  | '\x22' => some '\x22'
  | '\\' => some '\\'
  | '/' => some '/'
  | 'b' => some '\x08'
  | 'f' => some '\x0c'
  | 'n' => some '\n'
  | 'r' => some '\r'
  | 't' => some '\t'
  | _ => none

/-- The code points and surrogates up to the closing quote.  A numeric escape is
read only if more text follows its four digits. -/
def units (start : List Char) : List Char → Reading (List Nat)
  | [] => .error ⟨.unterminatedString, start⟩
  | '\x22' :: rest => .ok ([], rest)
  | '\\' :: rest =>
      match rest with
      | [] => .error ⟨.unterminatedString, start⟩
      | 'u' :: a :: b :: c :: d :: after =>
          match unit? a b c d with
          | some unit =>
              if after.isEmpty then .error ⟨.unknownUnit, rest⟩
              else (units start after).map fun read => (unit :: read.1, read.2)
          | none => .error ⟨.unknownUnit, rest⟩
      | 'u' :: _ => .error ⟨.unknownUnit, rest⟩
      | c :: after =>
          match escaped? c with
          | some meant =>
              (units start after).map fun read => (meant.toNat :: read.1, read.2)
          | none => .error ⟨.unknownEscape, '\\' :: rest⟩
  | c :: rest =>
      if c < ' ' then .error ⟨.controlCharacter, c :: rest⟩
      else (units start rest).map fun read => (c.toNat :: read.1, read.2)

def isHigh (unit : Nat) : Bool := 0xd800 ≤ unit && unit < 0xdc00

def isLow (unit : Nat) : Bool := 0xdc00 ≤ unit && unit < 0xe000

/-- The replacement character stands for a surrogate without its partner. -/
def character (unit : Nat) : Char :=
  if unit.isValidChar then Char.ofNat unit else '\ufffd'

def joinSurrogates : List Nat → List Char
  | [] => []
  | [unit] => [character unit]
  | high :: low :: rest =>
      if isHigh high && isLow low then
        character (0x10000 + (high - 0xd800) * 0x400 + (low - 0xdc00)) ::
          joinSurrogates rest
      else character high :: joinSurrogates (low :: rest)

def string (rest : List Char) : Reading String :=
  (units ('\x22' :: rest) rest).map fun read =>
    (String.ofList (joinSurrogates read.1), read.2)

/-! ## Numbers -/

def whole? : List Char → Option (List Char × List Char)
  | [] => none
  | c :: rest =>
      if c = '0' then some (['0'], rest)
      else if isDigit c then
        some (c :: rest.takeWhile isDigit, rest.dropWhile isDigit)
      else none

def fraction (text : List Char) : List Char × List Char :=
  match text with
  | '.' :: c :: rest =>
      if isDigit c then (c :: rest.takeWhile isDigit, rest.dropWhile isDigit)
      else ([], text)
  | _ => ([], text)

def signed : List Char → Bool × List Char
  | '-' :: rest => (true, rest)
  | '+' :: rest => (false, rest)
  | text => (false, text)

def exponent (text : List Char) : Option Int × List Char :=
  match text with
  | c :: rest =>
      if c = 'e' || c = 'E' then
        let (negative, rest) := signed rest
        match rest.takeWhile isDigit with
        | [] => (none, text)
        | digits =>
            let value : Int := decimalValue digits
            (some (if negative then -value else value), rest.dropWhile isDigit)
      else (none, text)
  | [] => (none, text)

def number (negative : Bool) (start text : List Char) : Reading Json :=
  match whole? text with
  | none => .error ⟨.expectingValue, start⟩
  | some (digits, rest) =>
      let (decimals, rest) := fraction rest
      let (power, rest) := exponent rest
      if decimals.isEmpty && power.isNone then
        if digits.length ≤ maxDigits then
          let value : Int := decimalValue digits
          .ok (int (if negative then -value else value), rest)
        else .error ⟨.longNumeral, start⟩
      else
        .ok (real (Binary64.ofDecimal negative (decimalValue (digits ++ decimals))
          (power.getD 0 - decimals.length)), rest)

/-! ## Values -/

def after? : List Char → List Char → Option (List Char)
  | [], text => some text
  | _ :: _, [] => none
  | c :: word, d :: text => if c = d then after? word text else none

def words : List (String × Json) :=
  [("null", null), ("true", bool true), ("false", bool false),
    ("NaN", real .nan), ("Infinity", real (.infinite false)),
    ("-Infinity", real (.infinite true))]

def scalar (text : List Char) : Reading Json :=
  match words.findSome? fun word =>
      (after? word.1.toList text).map fun rest => (word.2, rest) with
  | some read => .ok read
  | none =>
      match text with
      | '-' :: rest => number true text rest
      | _ => number false text text

mutual

/-- Reads a value.  One more than twice the length of the text is enough fuel, since
no character takes more than two steps. -/
def value : Nat → Nat → List Char → Reading Json
  | 0, _, text => .error ⟨.expectingValue, text⟩
  | fuel + 1, room, text =>
      match text with
      | '\x22' :: rest =>
          (string rest).map fun read => (str read.1, read.2)
      | '[' :: rest =>
          match room with
          | 0 => .error ⟨.tooDeep, text⟩
          | room + 1 =>
              match skip rest with
              | ']' :: rest => .ok (arr [], rest)
              | rest => elements fuel room [] rest
      | '\x7b' :: rest =>
          match room with
          | 0 => .error ⟨.tooDeep, text⟩
          | room + 1 =>
              match skip rest with
              | '\x7d' :: rest => .ok (obj [], rest)
              | rest => fields fuel room [] rest
      | text => scalar text

def elements : Nat → Nat → List Json → List Char → Reading Json
  | 0, _, _, text => .error ⟨.expectingValue, text⟩
  | fuel + 1, room, before, text =>
      match value fuel room text with
      | .error stop => .error stop
      | .ok (element, rest) =>
          match skip rest with
          | ']' :: rest => .ok (arr (element :: before).reverse, rest)
          | ',' :: rest => elements fuel room (element :: before) (skip rest)
          | rest => .error ⟨.expectingComma, rest⟩

def fields : Nat → Nat → Node → List Char → Reading Json
  | 0, _, _, text => .error ⟨.expectingValue, text⟩
  | fuel + 1, room, before, text =>
      match text with
      | '\x22' :: rest =>
          match string rest with
          | .error stop => .error stop
          | .ok (name, rest) =>
              match skip rest with
              | ':' :: rest =>
                  match value fuel room (skip rest) with
                  | .error stop => .error stop
                  | .ok (found, rest) =>
                      let now := before.insert name found
                      match skip rest with
                      | '\x7d' :: rest => .ok (obj now, rest)
                      | ',' :: rest => fields fuel room now (skip rest)
                      | rest => .error ⟨.expectingComma, rest⟩
              | rest => .error ⟨.expectingColon, rest⟩
      | text => .error ⟨.expectingName, text⟩

end

end Reader

def read (room : Nat) (text : List Char) : Except Stop Json :=
  match text with
  | '\ufeff' :: _ => .error ⟨.byteOrderMark, text⟩
  | _ => do
      let (found, rest) ← Reader.value (2 * text.length + 1) room (Reader.skip text)
      match Reader.skip rest with
      | [] => .ok found
      | rest => .error ⟨.extraData, rest⟩

end FormSchema.Json
