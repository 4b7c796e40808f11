import FormSchema.Pairs
import FormSchema.Schema.Shape

/-!
# Compiled entries

The entry of a node holds what the members of its combinators say together:
later properties win, required names add up, and the first declared type counts
where the node itself declares none.  Members are not checked against each
other; declared types that differ from the one that counts are a conflict.
-/

namespace FormSchema

/-- Properties as a node states them, or merged from the members. -/
inductive Properties where
  | stated (value : Json)
  | merged (pairs : Pairs)

namespace Properties

def toJson : Properties → Json
  | stated value => value
  | merged pairs => .obj (Pairs.toNode pairs)

def toPairs : Properties → Except Fault Pairs
  | stated value => Pairs.ofJson value
  | merged pairs => .ok pairs

def names : Properties → Except Fault (List Json)
  | stated value => if value.truthy then value.members else .ok []
  | merged pairs => .ok (Pairs.keys pairs)

end Properties

structure Entry where
  type : Option Json := none
  properties : Option Properties := none
  required : Option (List Json) := none
  allOf : Option (List Json) := none
  anyOf : Option (List Json) := none
  oneOf : Option (List Json) := none
  isRequired : Bool := false

structure Conflict where
  declared : List Json
  winner : Json

namespace Json

def list? : Json → Option (List Json)
  | arr elements => some elements
  | _ => none

def node? : Json → Option Node
  | obj fields => some fields
  | _ => none

end Json

namespace Entry

def members (document : Json) (node : Node) (combinator : Combinator) :
    Except Cause (Option (List Json)) :=
  match node.given? combinator.key with
  | none => .ok none
  | some value => do
      let found ← Fault.orOk value.members
      .ok (some (← found.mapM (Reference.dereference document)))

def mergeProperties (merged : Pairs) (member : Node) : Except Fault Pairs :=
  match member.get? "properties" with
  | none => .ok merged
  | some properties =>
      if properties.truthy then do
        .ok (Pairs.overlay merged (← Pairs.ofJson properties))
      else .ok merged

def requiredNames (member : Node) : List Json :=
  ((member.get? "required").bind Json.list?).getD []

def conflict? (winner : Option Json) (declared : List Json) : Option Conflict :=
  match winner with
  | none => none
  | some winner =>
      match declared.filter fun type => !type.same winner with
      | [] => none
      | others => some ⟨others, winner⟩

/-- The entry of an already dereferenced node. -/
def compile (document : Json) (node : Node) (isRequired : Bool) :
    Except Cause (Entry × Option Conflict) := do
  let allOf ← members document node .allOf
  let anyOf ← members document node .anyOf
  let oneOf ← members document node .oneOf
  let objects :=
    (allOf.getD [] ++ anyOf.getD [] ++ oneOf.getD []).filterMap Json.node?
  if objects.isEmpty then
    let properties := (node.given? "properties").map Properties.stated
    .ok ({ properties, allOf, anyOf, oneOf, isRequired }, none)
  else
    let properties ← Fault.orOk (objects.foldlM mergeProperties [])
    let declared := objects.filterMap (·.given? "type")
    let own := node.given? "type"
    let type := if own.isSome then none else declared.head?
    .ok ({ type, properties := some (.merged properties),
           required := some (objects.flatMap requiredNames),
           allOf, anyOf, oneOf, isRequired },
      conflict? (own.or type) declared)

def effectiveType (entry : Entry) (node : Node) : Option Json :=
  entry.type.or (node.given? "type")

def given (key : String) : Option Json → Node
  | none => []
  | some value => [(key, value)]

def toNode (entry : Entry) : Except Fault Node := do
  let properties ← match entry.properties with
    | none => .ok none
    | some stated => do .ok (some (Json.obj (Pairs.toNode (← stated.toPairs))))
  .ok (given "type" entry.type ++ given "properties" properties ++
    given "required" (entry.required.map .arr) ++
    given "allOf" (entry.allOf.map .arr) ++
    given "anyOf" (entry.anyOf.map .arr) ++
    given "oneOf" (entry.oneOf.map .arr) ++
    [("isRequired", .bool entry.isRequired)])

end Entry

end FormSchema
