import FormSchema.Schema.Entry

/-!
# One step down a schema

An index or the wildcard leads from an array to its items.  A name leads from
an object to a property, and from any other node to the first property of that
name among the members of its combinators.
-/

namespace FormSchema.Node

def wildcard : String := "$"

def requiredNames (node : Node) (parent : Option Entry) : List Json :=
  match node.given? "required" with
  | some names => names.list?.getD []
  | none => (parent.bind Entry.required).getD []

def requires (node : Node) (parent : Option Entry) (segment : String) : Bool :=
  (requiredNames node parent).any (·.isText segment)

def property? (name : String) : Json → Option Json
  | .obj member =>
      ((Table.get? member "properties").bind Json.node?).bind fun properties =>
        Table.given? properties name
  | _ => none

def searchMembers (document : Json) (name : String) :
    List Json → Except Cause (Option Json)
  | [] => .ok none
  | member :: rest => do
      match property? name (← Reference.dereference document member) with
      | some found => .ok (some found)
      | none => searchMembers document name rest

def searched (node : Node) (combinator : Combinator) : Except Cause (List Json) :=
  match node.get? combinator.key with
  | some value => if value.truthy then Fault.orOk value.members else .ok []
  | none => .ok []

/-- Members behind the first find are not looked at. -/
def searchCombinators (document : Json) (node : Node) (name : String) :
    List Combinator → Except Cause (Option Json)
  | [] => .ok none
  | combinator :: rest => do
      match ← searchMembers document name (← searched node combinator) with
      | some found => .ok (some found)
      | none => searchCombinators document node name rest

def item? (node : Node) (segment : String) : Except Cause (Option Json) :=
  match node.given? "items" with
  | some (.arr items) =>
      if segment = wildcard then .ok none
      else do
        .ok ((← Fault.orOk (Path.element? items segment)).filter (!·.isNull))
  | items => .ok items

def descend (document : Json) (node : Node) (segment : String) :
    Except Cause (Option Json) :=
  if segment = wildcard || Path.isIndex segment then
    if shape node = .array then item? node segment
    else .error (.notAnArray segment)
  else if shape node = .object then
    match node.given? "properties" with
    | none => .error .noProperties
    | some (.obj properties) => .ok (Table.given? properties segment)
    | some _ => .error (.fault .notAnObject)
  else searchCombinators document node segment Combinator.all

def child (document : Json) (node : Node) (segment : String) :
    Except Cause Node := do
  match ← descend document node segment with
  | none => .error .fieldNotFound
  | some found =>
      match ← Reference.dereference document found with
      | .obj next => .ok next
      | _ => .error .fieldNotFound

end FormSchema.Node
