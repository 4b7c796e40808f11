import FormSchema.Form.Field
import FormSchema.Form.Options
import FormSchema.Text.Label

/-!
# Props of a field

The props of a field are its own keys, overlaid by its `uniforms` and then by
its compiled entry.  Keys that only describe the data are dropped, and the ones
that an input needs are derived from all three.
-/

namespace FormSchema

structure Props where
  values : Node
  options : Option Options := none

namespace Props

/-- The first candidate that decides: `false` and null decide for no text,
`true` and a missing value leave it to the next one. -/
def decisive : List (Option Json) → Json → Json
  | [], last => last
  | none :: rest, last => decisive rest last
  | some (.bool true) :: rest, last => decisive rest last
  | some (.bool false) :: _, _ => .str ""
  | some .null :: _, _ => .str ""
  | some value :: _, _ => value

def uniforms (node : Node) : Except Fault Node :=
  match node.get? "uniforms" with
  | none => .ok []
  | some value =>
      if value.truthy then
        match value with
        | .obj fields => .ok fields
        | _ => .error .notMergeable
      else .ok []

def dropped : List String :=
  ["default", "format", "type", "enum", "isRequired", "title"]

def isBool : Json → Bool
  | .bool _ => true
  | _ => false

def settle (table : Node) (key : String) : Option Json → Node
  | none => table
  | some value => table.insert key value

def defaultLabel (segments : List String) : Json :=
  .str ((segments.getLast?.map Text.label).getD "")

def derive (node uniforms overlaid : Node) (segments : List String) : Node :=
  let kept := dropped.foldl Table.erase overlaid
  let allowed := (overlaid.get? "enum").filter Json.truthy
  let decimal :=
    if Node.declares node "number" then some (.bool true) else none
  let required :=
    if (kept.get? "required").any isBool then none
    else some ((overlaid.get? "isRequired").getD (.bool false))
  let label := decisive [kept.get? "label", overlaid.get? "title"]
    (defaultLabel segments)
  let ready := settle kept "allowedValues" allowed
  let ready := settle ready "decimal" decimal
  let ready := settle ready "type" (uniforms.given? "type")
  let ready := settle ready "required" required
  ready.insert "label" label

def chosen (given ready : Node) : Option Json :=
  ((given.get? "options").filter Json.truthy).or
    ((ready.get? "options").filter Json.truthy)

def withOptions (given ready : Node) : Except Fault Props :=
  match chosen given ready with
  | none => .ok ⟨ready, none⟩
  | some value => do
      let options ← Options.ofJson value
      let values := (ready.erase "transform").insert "allowedValues"
        (.arr options.allowedValues)
      .ok ⟨values, some options⟩

def build (node : Node) (entry : Entry) (segments : List String)
    (given : Node) : Except Fault Props := do
  let uniforms ← uniforms node
  let own := node.erase "uniforms"
  let overlaid := (own.overlay uniforms).overlay (← entry.toNode)
  withOptions given (derive own uniforms overlaid segments)

end Props

def Form.props (form : Form) (segments : List String) (given : Node) :
    Action Props := do
  let node ← form.field segments
  let entry ← form.entry segments
  Action.ofFault (Props.build node entry segments given)

end FormSchema
