import FormSchema.Form.Initial
import FormSchema.Form.Props

/-!
# Calls on a form

A form is asked one thing after another.  A call is answered by the session that
the calls before it have left, those that failed included.
-/

namespace FormSchema

inductive Call where
  | field (name : Spelling)
  | entry (name : Spelling)
  | subfields (name : Spelling)
  | type (name : Spelling)
  | initial (name : Spelling) (given : Node)
  | props (name : Spelling) (given : Node)

inductive Answer where
  | field (node : Node)
  | entry (entry : Entry)
  | subfields (names : List Json)
  | type (type : FieldType)
  | initial (value : Json)
  | props (props : Props)

namespace Form

def perform (form : Form) : Call → Action Answer
  | .field name => do
      return .field (← form.field (← Action.ofExcept name.path))
  | .entry name => do
      return .entry (← form.entry (← Action.ofExcept name.path))
  | .subfields name => do
      return .subfields (← form.subfields (← Action.ofExcept name.path))
  | .type name => do
      return .type (← form.type (← Action.ofExcept name.path))
  | .initial name given => do
      let segments ← Action.ofExcept name.path
      return .initial (← form.initial segments (given.get? "initialCount"))
  | .props name given => do
      return .props (← form.props (← Action.ofExcept name.path) given)

def after (form : Form) (calls : List Call) : Session :=
  calls.foldl (fun session call => ((form.perform call).runOn session).2) {}

/-- What a call is answered when other calls were made before it. -/
def reply (form : Form) (calls : List Call) (call : Call) :
    Except Failure Answer :=
  ((form.perform call).runOn (form.after calls)).1

end Form

end FormSchema
