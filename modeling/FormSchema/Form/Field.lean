import FormSchema.Form.Session

/-!
# Fields of a form

The node, the entry, the subfields and the type of the field at a path.
-/

namespace FormSchema

namespace FieldType

def ofDeclared : Option Json → Except Cause FieldType
  | none => .ok (.declared .null)
  | some type =>
      if type.isText "string" then .ok .text
      else if type.isText "number" then .ok .decimal
      else if type.isText "integer" then .ok .integer
      else if type.isText "object" then .ok .record
      else if type.isText "array" then .ok .list
      else if type.isText "boolean" then .ok .flag
      else if type.isText "null" then .error .unrepresentable
      else .ok (.declared type)

def ofField (node : Node) (entry : Entry) : Except Cause FieldType :=
  if (node.get? "format").any (·.isText "date-time") then .ok .instant
  else ofDeclared (entry.effectiveType node)

end FieldType

namespace Form

def visit (form : Form) (segments : List String) : Action Node := do
  let session ← get
  let (outcome, ledger) :=
    walk (.obj form.document) form.root segments session.ledger
  set { session with ledger }
  Action.ofExcept outcome

def field (form : Form) (segments : List String) : Action Node :=
  Memo.field.answer (Path.key segments) (form.visit segments)

/-- The root has no parent and therefore an empty entry. -/
def entry (form : Form) (segments : List String) : Action Entry := do
  if segments.isEmpty then return {}
  else
    let _ ← form.field segments
    match (← get).ledger.entries.get? (Path.key segments) with
    | some entry => return entry
    | none => throw ⟨.fault .missingKey, none⟩

def rootNames (root : Node) : Except Fault (List Json) :=
  match root.get? "properties" with
  | some properties => (Properties.stated properties).names
  | none => .ok []

def namesOf (node : Node) (entry : Entry) : Except Fault (List Json) :=
  if (entry.effectiveType node).any (·.isText "object") then
    let own := (node.given? "properties").map Properties.stated
    match entry.properties.or own with
    | some properties => properties.names
    | none => .ok []
  else .ok []

def subfields (form : Form) (segments : List String) : Action (List Json) :=
  Memo.subfields.answer (Path.key segments) do
    if segments.isEmpty then Action.ofFault (rootNames form.root)
    else
      let node ← form.field segments
      let entry ← form.entry segments
      Action.ofFault (namesOf node entry)

def type (form : Form) (segments : List String) : Action FieldType :=
  Memo.type.answer (Path.key segments) do
    let node ← form.field segments
    let entry ← form.entry segments
    Action.ofExcept
      (reportAt (some (Path.key segments)) (FieldType.ofField node entry))

end Form

end FormSchema
