import FormSchema.Proofs.Descent
import FormSchema.Proofs.Stop

/-!
# Plain schemas

A schema is plain when no object within it has a reference.  Everything within it
stands for itself, so that no step from a plain node asks the document, and a path
leads to the same stop whatever document it is walked in.
-/

namespace FormSchema

def Node.isPlain (node : Node) : Bool := (node.get? "$ref").isNone

theorem Node.get?_ref_of_isPlain {node : Node} (h : node.isPlain = true) :
    node.get? "$ref" = none :=
  Option.isNone_iff_eq_none.1 h

namespace Reference

variable (document : Json)

theorem dereference_of_plain {value : Json}
    (h : value.everyNode Node.isPlain = true) :
    dereference document value = .ok value := by
  cases value with
  | obj fields =>
      have hnone := Node.get?_ref_of_isPlain (Json.check_of_everyNode h)
      unfold dereference
      dsimp only
      rw [hnone]
  | _ => rfl

theorem mapM_dereference_of_plain {values : List Json}
    (h : ∀ value ∈ values, value.everyNode Node.isPlain = true) :
    values.mapM (dereference document) = .ok values := by
  induction values with
  | nil => rfl
  | cons value values ih =>
      have hrest := ih fun other hother => h other (by simp [hother])
      rw [List.mapM_cons, dereference_of_plain document (h value (by simp)),
        ok_bind, hrest]
      rfl

end Reference

section

variable {node : Node} (h : node.Sourced Node.isPlain) (document other : Json)

include h

namespace Entry

theorem members_of_plain (combinator : Combinator) :
    members document node combinator = members other node combinator := by
  unfold members
  cases hgiven : node.given? combinator.key with
  | none => rfl
  | some value =>
      dsimp only
      cases hraw : value.members with
      | error misuse => rw [Fault.orOk, error_bind, error_bind]
      | ok raw =>
          have hstated := (Table.given?_eq_some_iff.1 hgiven).1
          have hplain : ∀ member ∈ raw, member.everyNode Node.isPlain = true :=
            fun member hmember =>
              h.everyNode_of_part (.member hstated hraw hmember)
          rw [Fault.orOk, ok_bind, ok_bind,
            Reference.mapM_dereference_of_plain document hplain,
            Reference.mapM_dereference_of_plain other hplain]

theorem compile_of_plain (isRequired : Bool) :
    compile document node isRequired = compile other node isRequired := by
  unfold compile
  rw [members_of_plain h document other .allOf,
    members_of_plain h document other .anyOf,
    members_of_plain h document other .oneOf]

end Entry

namespace Node

theorem searchCombinators_of_plain (name : String)
    (combinators : List Combinator) :
    searchCombinators document node name combinators =
      searchCombinators other node name combinators := by
  induction combinators with
  | nil => rfl
  | cons combinator rest ih =>
      unfold searchCombinators
      cases hsearched : searched node combinator with
      | error cause => rw [error_bind, error_bind]
      | ok members =>
          have hplain := everyNode_of_searched h hsearched
          rw [ok_bind, ok_bind,
            searchMembers_eq name (Reference.mapM_dereference_of_plain document hplain),
            searchMembers_eq name (Reference.mapM_dereference_of_plain other hplain),
            ih]

theorem descend_of_plain (segment : String) :
    descend document node segment = descend other node segment := by
  unfold descend
  rw [searchCombinators_of_plain h document other]

theorem child_of_plain (hother : other.everyNode isPlain = true)
    (segment : String) :
    child document node segment = child other node segment := by
  unfold child
  rw [descend_of_plain h document other]
  cases hdescend : descend other node segment with
  | error cause => rw [error_bind, error_bind]
  | ok found =>
      cases found with
      | none => simp only [ok_bind]
      | some found =>
          have hplain := everyNode_of_descend hother h hdescend
          simp only [ok_bind, Reference.dereference_of_plain _ hplain]

end Node

end

namespace Stop

variable {document other : Json} {stop : Stop}

theorem step_of_plain (hother : other.everyNode Node.isPlain = true)
    (h : stop.node.Sourced Node.isPlain) (segment : String) :
    stop.step document segment = stop.step other segment := by
  unfold step
  rw [Node.child_of_plain h document other hother]
  cases hchild : Node.child other stop.node segment with
  | error cause => rw [error_bind, error_bind]
  | ok next =>
      have hnext := h.of_child hother hchild
      rw [ok_bind, ok_bind, Entry.compile_of_plain hnext document other]

/-- Below a plain node a path leads to the same stop in every document. -/
theorem along_of_plain (hother : other.everyNode Node.isPlain = true)
    (h : stop.node.Sourced Node.isPlain) (path : List String) :
    stop.along document path = stop.along other path := by
  induction path generalizing stop with
  | nil => rw [along_nil, along_nil]
  | cons segment rest ih =>
      rw [along_cons, along_cons, step_of_plain hother h]
      cases hstep : stop.step other segment with
      | error cause => rw [error_bind, error_bind]
      | ok next => exact ih (sourced_of_step hother h hstep)

end Stop

end FormSchema
