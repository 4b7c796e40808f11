import FormSchema.Json

/-!
# Choices of a field

A choice is given by a table from values to labels or by a list of options, each
an object with a `value` and a `label`.
-/

namespace FormSchema

inductive Options where
  | labels (table : Node)
  | listed (options : List Node)

namespace Options

def option (member : Json) : Except Fault Node :=
  match member with
  | .obj option =>
      if Table.contains option "value" then .ok option else .error .missingKey
  | _ => .error .notAnOption

def ofJson : Json → Except Fault Options
  | .obj table => .ok (labels table)
  | other => do .ok (listed (← (← other.members).mapM option))

def allowedValues : Options → List Json
  | labels table => table.keys.map .str
  | listed options => options.filterMap fun option => option.get? "value"

def label (value : Json) : Options → Except Fault Json
  | labels table =>
      match value with
      | .arr _ | .obj _ => .error .compositeKey
      | .str key =>
          match table.get? key with
          | some label => .ok label
          | none => .error .missingKey
      | _ => .error .missingKey
  | listed options =>
      match options.find? fun option =>
          (option.get? "value").any (·.same value) with
      | none => .error .noSuchOption
      | some option =>
          match option.get? "label" with
          | some label => .ok label
          | none => .error .missingKey

end Options

end FormSchema
