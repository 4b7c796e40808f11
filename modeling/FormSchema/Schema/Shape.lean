import FormSchema.Schema.Root

/-!
# The shape of a node

A declared type settles the shape of a node; without one, the members of its
combinators do.
-/

namespace FormSchema

inductive Combinator where
  | allOf
  | anyOf
  | oneOf
  deriving DecidableEq, Repr

namespace Combinator

def key : Combinator → String
  | allOf => "allOf"
  | anyOf => "anyOf"
  | oneOf => "oneOf"

def all : List Combinator := [allOf, anyOf, oneOf]

end Combinator

inductive Shape where
  | object
  | array
  | combinator
  | scalar
  deriving DecidableEq, Repr

namespace Node

def shape (node : Node) : Shape :=
  if declares node "object" then .object
  else if declares node "array" then .array
  else if Combinator.all.any fun combinator =>
      (node.given? combinator.key).isSome then .combinator
  else .scalar

variable {node : Node}

theorem shape_of_declares (h : declares node "object" = true) :
    node.shape = .object := by
  rw [shape, if_pos h]

theorem shape_ne_object (h : declares node "object" = false) :
    node.shape ≠ .object := by
  intro hshape
  unfold shape at hshape
  rw [if_neg (by simp [h])] at hshape
  split at hshape
  · cases hshape
  · split at hshape <;> cases hshape

theorem declares_inj {type other : String} (h : declares node type = true)
    (hother : declares node other = true) : type = other := by
  unfold declares at h hother
  cases hget : node.get? "type" with
  | none =>
      rw [hget] at h
      cases h
  | some value =>
      rw [hget] at h hother
      cases value with
      | str text =>
          simp only [Option.any_some, Json.isText, beq_iff_eq] at h hother
          rw [← h, hother]
      | _ => cases h

theorem shape_of_declares_array (h : declares node "array" = true) :
    node.shape = .array := by
  have hobject : ¬declares node "object" = true := fun hobject =>
    absurd (declares_inj h hobject) (by decide)
  rw [shape, if_neg hobject, if_pos h]

end Node

end FormSchema
