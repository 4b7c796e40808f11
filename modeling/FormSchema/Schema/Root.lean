import FormSchema.Schema.Reference

/-!
# The working root

Paths start at the working root of a document: the document itself, or, where
it is only a reference, the target written over the document.
-/

namespace FormSchema

def Node.declares (node : Node) (type : String) : Bool :=
  (node.get? "type").any (·.isText type)

def workingRoot (document : Node) : Except Cause Node :=
  if Node.declares document "object" then .ok document
  else
    match document.get? "$ref" with
    | none => .ok document
    | some reference =>
        if reference.truthy then do
          match ← Reference.resolve (.obj document) reference with
          | .obj target => .ok (document.overlay target)
          | _ => .error (.fault .notMergeable)
        else .ok document

end FormSchema
