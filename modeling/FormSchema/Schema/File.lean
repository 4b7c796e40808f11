import FormSchema.Json.Reader
import FormSchema.Path.Pointer

/-!
# Schema files

A schema document is a JSON object in a file of UTF-8 text whose lines end in a
line feed, a carriage return or both.
-/

namespace FormSchema

inductive FileState where
  | absent
  /-- A name is too long to be looked up, or its directory may not be searched. -/
  | unreachable
  | directory
  | file (content : ByteArray)

structure Place where
  position : Nat
  line : Nat
  column : Nat
  deriving DecidableEq, Repr

inductive LoadError where
  | notFound (path : String)
  | unreachable
  | isDirectory (path : String)
  | notText
  | longNumeral
  | tooDeep
  | malformed (problem : Json.Problem) (place : Place)
  | notAnObject
  deriving DecidableEq, Repr

namespace LoadError

def problemText : Json.Problem → String
  | .expectingValue => "Expecting value"
  | .expectingName => "Expecting property name enclosed in double quotes"
  | .expectingColon => "Expecting ':' delimiter"
  | .expectingComma => "Expecting ',' delimiter"
  | .extraData => "Extra data"
  | .unterminatedString => "Unterminated string starting at"
  | .controlCharacter => "Invalid control character at"
  | .unknownEscape => "Invalid \\escape"
  | .unknownUnit => "Invalid \\uXXXX escape"
  | .byteOrderMark => "Unexpected UTF-8 BOM (decode using utf-8-sig)"
  | .longNumeral => "Numeral is too long"
  | .tooDeep => "Lists and objects are nested too deeply"

def message : LoadError → String
  | notFound path => "Schema file not found: " ++ path
  | unreachable => "path can not be looked up"
  | isDirectory path =>
      "Failed to read schema file " ++ path ++
        ": [Errno 21] Is a directory: " ++ Text.quoted path
  | notText => "file is not UTF-8 text"
  | longNumeral => Fault.longNumeral.message
  | tooDeep => problemText .tooDeep
  | malformed problem place =>
      "Failed to parse JSON schema: " ++ problemText problem ++ ": line " ++
        toString place.line ++ " column " ++ toString place.column ++
        " (char " ++ toString place.position ++ ")"
  | notAnObject => "Top-level schema must be a JSON object"

def isReported : LoadError → Bool
  | unreachable | notText | longNumeral | tooDeep => false
  | _ => true

end LoadError

namespace SchemaFile

/-- The root of a path: none, or one or exactly two leading slashes. -/
def pathRoot : List Char → List Char
  | '/' :: '/' :: '/' :: _ => ['/']
  | '/' :: '/' :: _ => ['/', '/']
  | '/' :: _ => ['/']
  | _ => []

def pathParts (path : List Char) : List (List Char) :=
  (Path.splitAt '/' path).filter fun part => !part.isEmpty && part != ['.']

def normalPath (path : String) : String :=
  match pathRoot path.toList ++ ['/'].intercalate (pathParts path.toList) with
  | [] => "."
  | text => String.ofList text

def unifyLines : List Char → List Char
  | '\r' :: '\n' :: rest => '\n' :: unifyLines rest
  | '\r' :: rest => '\n' :: unifyLines rest
  | c :: rest => c :: unifyLines rest
  | [] => []

def placeAfter (text : List Char) : Place :=
  ⟨text.length, text.count '\n' + 1,
    (text.reverse.takeWhile (· != '\n')).length + 1⟩

def ofText (room : Nat) (text : List Char) : Except LoadError Node :=
  match Json.read room text with
  | .ok (.obj document) => .ok document
  | .ok _ => .error .notAnObject
  | .error ⟨.longNumeral, _⟩ => .error .longNumeral
  | .error ⟨.tooDeep, _⟩ => .error .tooDeep
  | .error ⟨problem, rest⟩ =>
      .error (.malformed problem
        (placeAfter (text.take (text.length - rest.length))))

/-- Loads a document.  How many lists and objects there is room for depends on how
deep the calls are from which it is loaded. -/
def load (room : Nat) (path : String) : FileState → Except LoadError Node
  | .absent => .error (.notFound (normalPath path))
  | .unreachable => .error .unreachable
  | .directory => .error (.isDirectory (normalPath path))
  | .file content =>
      match String.fromUTF8? content with
      | none => .error .notText
      | some text => ofText room (unifyLines text.toList)

end SchemaFile

end FormSchema
