/-!
# Canonical keys

The key of a path is its shortest dotted text without the leading dot: plain
segments are joined by dots, and every other segment stands in quoted brackets.
Equal keys belong to equal paths.
-/

namespace FormSchema.Path

def inPlain (c : Char) : Bool :=
  c != '.' && c != '[' && c != ']' && c != '\x27' && c != '\\'

def isPlain : List Char → Bool
  | [] => false
  | c :: rest => inPlain c && c != '/' && rest.all inPlain

def escapeQuoted : List Char → List Char
  | [] => []
  | c :: rest =>
      if c = '\\' ∨ c = '\x27' then '\\' :: c :: escapeQuoted rest
      else c :: escapeQuoted rest

def bracketed (segment : List Char) : List Char :=
  '[' :: '\x27' :: escapeQuoted segment ++ ['\x27', ']']

def writeSegments : List String → List Char
  | [] => []
  | segment :: rest =>
      (if isPlain segment.toList then '.' :: segment.toList
        else bracketed segment.toList) ++ writeSegments rest

def key (segments : List String) : String :=
  match writeSegments segments with
  | '.' :: text => String.ofList text
  | text => String.ofList text

example : key ["a", "0", "b.c", "", "it's", "$"] =
    "a.0['b.c']['']['it\\'s'].$" := by decide

end FormSchema.Path
