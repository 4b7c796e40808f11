import FormSchema.Json
import FormSchema.Path.Dotted
import FormSchema.Path.Key
import FormSchema.Path.Pointer

/-!
# Spellings of a path

A path is the list of its segments.  It is given as such a list, or as a literal
text: a pointer when it starts with `/`, a dotted text otherwise, whose first
dot may be left out.
-/

namespace FormSchema

inductive Spelling where
  | root
  | literal (text : String)
  | listed (segments : List String)
  /-- A value that is neither a text nor made of members. -/
  | unreadable
  deriving DecidableEq, Repr

namespace Spelling

def ofJson : Json → Except Fault Spelling
  | .null => .ok root
  | .str text => .ok (literal text)
  | .bool value => do .ok (listed [← Json.text (.bool value)])
  | .int value => do .ok (listed [← Json.text (.int value)])
  | .arr elements => do .ok (listed (← elements.mapM Json.text))
  | .obj fields => .ok (listed (Table.keys fields))
  | .real _ => .ok unreadable

def dotted : List Char → List Char
  | '.' :: text => '.' :: text
  | text => '.' :: text

def ofLiteral : List Char → Except Failure (List String)
  | [] => .ok []
  | '/' :: text => .ok (Path.pointerSegments text)
  | text =>
      match Path.dottedSegments (dotted text) with
      | .ok segments => .ok segments
      | .error position =>
          .error ⟨.malformedPath position, some (String.ofList (dotted text))⟩

def path : Spelling → Except Failure (List String)
  | root => .ok []
  | literal text => ofLiteral text.toList
  | listed segments => .ok segments
  | unreadable => .error ⟨.fault .notIterable, none⟩

def pathOf (value : Json) : Except Failure (List String) := do
  (← reportAt none (Fault.orOk (ofJson value))).path

def joined : List Spelling → Except Failure (List String)
  | [] => .ok []
  | spelling :: rest => do
      let first ← spelling.path
      .ok (first ++ (← joined rest))

def joinedKey (spellings : List Spelling) : Except Failure String := do
  .ok (Path.key (← joined spellings))

end Spelling

end FormSchema
