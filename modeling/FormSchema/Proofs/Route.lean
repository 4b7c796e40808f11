import FormSchema.Proofs.Ledger

/-!
# Routes

A walk carries a ledger, the entry of the node it is at and the path it was
asked for.  None of them has a say in where it goes or in why it stops: whether
a node compiles does not depend on its being required.  What is left is a route
from node to node, and a route along two paths, one behind the other, is the
second route taken from where the first one ends.
-/

namespace FormSchema

theorem Entry.compile_eq_map (document : Json) (node : Node) (isRequired : Bool) :
    compile document node isRequired =
      (compile document node false).map fun compiled =>
        ({ compiled.1 with isRequired }, compiled.2) := by
  unfold compile
  cases members document node .allOf with
  | error cause => rfl
  | ok allOf =>
      cases members document node .anyOf with
      | error cause => rfl
      | ok anyOf =>
          cases members document node .oneOf with
          | error cause => rfl
          | ok oneOf =>
              simp only [ok_bind]
              split
              · rfl
              · cases Fault.orOk (List.foldlM mergeProperties [] _) with
                | error cause => rfl
                | ok properties => rfl

namespace Node

def next (document : Json) (node : Node) (segment : String) :
    Except Cause Node := do
  let child ← child document node segment
  let _ ← Entry.compile document child false
  .ok child

def route (document : Json) (node : Node) (segments : List String) :
    Except Cause Node :=
  segments.foldlM (next document) node

theorem route_append (document : Json) (node : Node)
    (first second : List String) :
    node.route document (first ++ second) =
      (node.route document first >>= fun last => last.route document second) :=
  List.foldlM_append

end Node

namespace Stop

variable (document : Json) (stop : Stop)

theorem map_node_step (segment : String) :
    (stop.step document segment).map Stop.node =
      stop.node.next document segment := by
  unfold step Node.next
  cases Node.child document stop.node segment with
  | error cause => rfl
  | ok child =>
      simp only [ok_bind]
      rw [Entry.compile_eq_map]
      cases Entry.compile document child false with
      | error cause => rfl
      | ok compiled => rfl

theorem map_node_along (segments : List String) :
    (stop.along document segments).map Stop.node =
      stop.node.route document segments := by
  induction segments generalizing stop with
  | nil => rfl
  | cons segment rest ih =>
      rw [along_cons, Node.route, List.foldlM_cons, ← map_node_step]
      cases stop.step document segment with
      | error cause => rfl
      | ok next => exact ih next

end Stop

theorem walk_eq_route (document : Json) (root : Node) (segments : List String) :
    (walk document root segments {}).1 =
      reportAt (some (Path.key segments)) (root.route document segments) := by
  have hempty : Traced document root ({} : Ledger).entries := .nil
  obtain ⟨after, hwalk, _⟩ := walk_eq_along hempty segments
  rw [hwalk, Stop.map_node_along]
  rfl

def Failure.reportedFor (path : String) (failure : Failure) : Failure :=
  { failure with path := some path }

/-- A walk along two paths goes on where the walk along the first ends, and
fails for the cause that stops either; only the path that is reported differs. -/
theorem walk_append (document : Json) (root : Node) (first second : List String) :
    (walk document root (first ++ second) {}).1 =
      ((walk document root first {}).1 >>= fun node =>
        (walk document node second {}).1).mapError
          (Failure.reportedFor (Path.key (first ++ second))) := by
  rw [walk_eq_route, walk_eq_route, Node.route_append]
  cases root.route document first with
  | error cause => rfl
  | ok node =>
      change reportAt _ (node.route document second) =
        (walk document node second {}).1.mapError _
      rw [walk_eq_route]
      cases node.route document second with
      | error cause => rfl
      | ok last => rfl

end FormSchema
