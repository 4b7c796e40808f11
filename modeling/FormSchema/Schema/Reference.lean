import FormSchema.Path.Pointer
import FormSchema.Schema.Lookup

/-!
# References within a document

A reference starts with `#` and goes on as a pointer into its own document.  A
node with a reference stands for the target; what the node says beside the
reference holds where the target is silent.
-/

namespace FormSchema.Reference

/-- The pieces of a reference that select a step; `#` by itself selects none. -/
def parts (reference : List Char) : List String :=
  ((Path.splitAt '/' reference).filter fun piece =>
    !piece.isEmpty && piece != ['#']).map fun piece =>
      String.ofList (Path.unescape piece)

def follow (reference : String) : Json → List String → Except Cause Json
  | node, [] => .ok node
  | node, part :: rest =>
      match node.step part with
      | .error fault => .error (.fault fault)
      | .ok none | .ok (some .null) => .error (.danglingReference reference)
      | .ok (some next) => follow reference next rest

def isInternal : List Char → Bool
  | '#' :: _ => true
  | _ => false

def resolve (document : Json) : Json → Except Cause Json
  | .str reference =>
      if isInternal reference.toList then
        follow reference document (parts reference.toList)
      else .error (.externalReference reference)
  | other => do .error (.externalReference (← Fault.orOk other.text))

/-- A target completed by what stands beside the reference to it. -/
def complete (siblings : Node) : Json → Json
  | .obj target =>
      .obj (if siblings.isEmpty then target else Table.overlay siblings target)
  | target => target

def dereference (document : Json) : Json → Except Cause Json
  | .obj node =>
      match Table.get? node "$ref" with
      | none => .ok (.obj node)
      | some reference => do
          .ok (complete (Table.erase node "$ref") (← resolve document reference))
  | other => .ok other

end FormSchema.Reference
