import FormSchema.Form.Field

/-!
# Initial values

A field starts with its own default, or else with what the default of the root
holds at its path.  Without a default an array starts with copies of the value
its items start with, an object starts empty and anything else with null.
-/

namespace FormSchema

def itemCount : Option Json → Except Fault Nat
  | none => .ok 0
  | some value =>
      if value.truthy then
        match value with
        | .int count => .ok count.toNat
        | .bool _ => .ok 1
        | _ => .error .notACount
      else .ok 0

namespace Form

def defaultOf (form : Form) (node : Node) (segments : List String) :
    Except Fault (Option Json) :=
  match node.get? "default" with
  | some value => .ok (some value)
  | none =>
      match form.root.get? "default" with
      | some value => value.lookup segments
      | none => .ok none

/--
The initial value of a field with at most `depth` arrays of arrays below it.
The value of the items is settled before their number.
-/
def initialWithin (form : Form) :
    Nat → List String → Option Json → Action Json
  | 0, _, _ => throw ⟨.fault .endless, none⟩
  | depth + 1, segments, count => do
      let node ← form.field segments
      let entry ← form.entry segments
      match ← Action.ofFault (form.defaultOf node segments) with
      | some value => return value
      | none =>
          let type := entry.effectiveType node
          if type.any (·.isText "array") then
            let item ← form.initialWithin depth (segments ++ ["0"]) none
            let count ← Action.ofFault (itemCount count)
            return .arr (List.replicate count item)
          else if type.any (·.isText "object") then return .obj []
          else return .null

/-- The items of an array are a value of the document, so arrays that are nested
deeper than the document has values never end. -/
def initial (form : Form) (segments : List String) (count : Option Json) :
    Action Json :=
  form.initialWithin ((Json.obj form.document).size + 2) segments count

end Form

end FormSchema
