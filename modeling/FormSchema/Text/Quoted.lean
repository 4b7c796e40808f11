import FormSchema.Text.Printable

/-!
# Quoted text

Within a list or an object a text is written between quotation marks, and what could
not be read there is escaped.  The marks are single ones unless the text has such
marks itself and no double ones.
-/

namespace FormSchema.Text

def quotationMark (text : List Char) : Char :=
  if text.contains '\x27' && !text.contains '\x22' then '\x22' else '\x27'

def hexadecimal (width number : Nat) : List Char :=
  (Nat.toDigits 16 number).leftpad width '0'

def escaped (mark c : Char) : List Char :=
  if c = mark ∨ c = '\\' then ['\\', c]
  else if c = '\t' then ['\\', 't']
  else if c = '\n' then ['\\', 'n']
  else if c = '\r' then ['\\', 'r']
  else if isPrintable c then [c]
  else if c.toNat ≤ 0xff then '\\' :: 'x' :: hexadecimal 2 c.toNat
  else if c.toNat ≤ 0xffff then '\\' :: 'u' :: hexadecimal 4 c.toNat
  else '\\' :: 'U' :: hexadecimal 8 c.toNat

def quoted (text : String) : String :=
  let mark := quotationMark text.toList
  String.ofList (mark :: text.toList.flatMap (escaped mark) ++ [mark])

example : quoted "it's" = "\"it's\"" ∧ quoted "a\\\"b'\n" = "'a\\\\\"b\\'\\n'" ∧
    quoted "\x07~" = "'\\x07~'" := by decide

example : quoted "\u00e9\u200b" = "'\u00e9\\u200b'" := by decide +kernel

end FormSchema.Text
