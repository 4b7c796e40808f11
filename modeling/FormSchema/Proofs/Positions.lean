import FormSchema.Proofs.Flags
import FormSchema.Proofs.History

/-!
# Positions of an array

Where the items of an array are one schema, the wildcard and all indices lead to
the same child.  Whether a position is required is still read off its segment, but
only the entry of the position itself notes this.  Paths that differ in the
position alone lead to the same node or stop for the same cause, and below the
position the entries agree as well.
-/

namespace FormSchema

namespace Node

def IsPosition (segment : String) : Prop :=
  segment = wildcard ∨ Path.isIndex segment = true

variable {document : Json} {node : Node} {first second : String}

theorem IsPosition.tested (h : IsPosition first) :
    (decide (first = wildcard) || Path.isIndex first) = true := by
  simpa [IsPosition] using h

theorem descend_of_array (harray : declares node "array" = true)
    (h : IsPosition first) : descend document node first = item? node first := by
  unfold descend
  rw [if_pos h.tested, if_pos (shape_of_declares_array harray)]

theorem descend_of_position (harray : declares node "array" = true)
    (hitems : ∀ elements, node.get? "items" ≠ some (.arr elements))
    (h : IsPosition first) :
    descend document node first = .ok (node.given? "items") := by
  rw [descend_of_array harray h]
  unfold item?
  split
  · next elements hgiven =>
      exact absurd (Table.given?_eq_some_iff.1 hgiven).1 (hitems elements)
  · rfl

theorem child_of_position (harray : declares node "array" = true)
    (hitems : ∀ elements, node.get? "items" ≠ some (.arr elements))
    (hfirst : IsPosition first) (hsecond : IsPosition second) :
    child document node first = child document node second := by
  unfold child
  rw [descend_of_position harray hitems hfirst,
    descend_of_position harray hitems hsecond]

end Node

theorem reportAt_eq_mapError {α : Type} (path other : String)
    (outcome : Except Cause α) :
    reportAt (some other) outcome =
      (reportAt (some path) outcome).mapError (Failure.reportedFor other) := by
  cases outcome <;> rfl

namespace Form

variable {form : Form} {first second : List String}

theorem reply_field_congr
    (h : ((Stop.start form.root).along (.obj form.document) first).map Stop.node =
      ((Stop.start form.root).along (.obj form.document) second).map Stop.node)
    (calls others : List Call) :
    form.reply others (.field (.listed second)) =
      (form.reply calls (.field (.listed first))).mapError
        (Failure.reportedFor (Path.key second)) := by
  simp only [reply_field, Spelling.path, ok_bind, nodeAt, stopAt, ← reportAt_map]
  rw [← h, reportAt_eq_mapError (Path.key first) (Path.key second)]
  cases reportAt (some (Path.key first)) (Except.map Stop.node _) with
  | error failure => rfl
  | ok node => rfl

theorem reply_entry_congr
    (h : (Stop.start form.root).along (.obj form.document) first =
      (Stop.start form.root).along (.obj form.document) second)
    (calls others : List Call) :
    form.reply others (.entry (.listed second)) =
      (form.reply calls (.entry (.listed first))).mapError
        (Failure.reportedFor (Path.key second)) := by
  simp only [reply_entry, Spelling.path, ok_bind, entryAt, stopAt]
  rw [← h, reportAt_eq_mapError (Path.key first) (Path.key second)]
  cases reportAt (some (Path.key first)) _ with
  | error failure => rfl
  | ok stop => rfl

/-- Paths that differ in one position of an array whose items are no list have
the same node or fail for the same cause; only the path that a failure tells
differs.  So have the entries below the position. -/
theorem reply_position {calls : List Call} {path : List String} {node : Node}
    {i j : String}
    (hfield : form.reply calls (.field (.listed path)) = .ok (.field node))
    (harray : Node.declares node "array" = true)
    (hitems : ∀ elements, node.get? "items" ≠ some (.arr elements))
    (hi : Node.IsPosition i) (hj : Node.IsPosition j) (tail : List String)
    (others : List Call) :
    form.reply others (.field (.listed (path ++ j :: tail))) =
      (form.reply calls (.field (.listed (path ++ i :: tail)))).mapError
        (Failure.reportedFor (Path.key (path ++ j :: tail))) ∧
    (tail ≠ [] →
      form.reply others (.entry (.listed (path ++ j :: tail))) =
        (form.reply calls (.entry (.listed (path ++ i :: tail)))).mapError
          (Failure.reportedFor (Path.key (path ++ j :: tail)))) := by
  obtain ⟨stop, hstop, rfl⟩ := reply_field_listed_eq_ok_iff.1 hfield
  have hstep : (stop.step (.obj form.document) i).map Stop.unflagged =
      (stop.step (.obj form.document) j).map Stop.unflagged :=
    Stop.map_unflagged_step (Node.child_of_position harray hitems hi hj)
  have halong : ∀ segment : String,
      (Stop.start form.root).along (.obj form.document) (path ++ segment :: tail) =
        (stop.step (.obj form.document) segment >>= fun next =>
          next.along (.obj form.document) tail) := by
    intro segment
    rw [Stop.along_append, hstop, ok_bind, Stop.along_cons]
  constructor
  · apply reply_field_congr
    rw [halong i, halong j]
    exact Stop.map_node_of_unflagged (Stop.map_unflagged_along hstep tail)
  · intro htail
    apply reply_entry_congr
    rw [halong i, halong j]
    exact Stop.along_of_unflagged hstep htail

end Form

def grid : Node :=
  [("type", .str "object"),
   ("properties", .obj
     [("rows", .obj
       [("type", .str "array"),
        ("required", .arr [.str "0"]),
        ("items", .obj [("$ref", .str "#/definitions/Row")])])]),
   ("definitions", .obj
     [("Row", .obj
       [("allOf", .arr
         [.obj
           [("required", .arr [.str "cells"]),
            ("properties", .obj
              [("cells", .obj
                [("type", .str "array"),
                 ("items", .arr [.obj [("type", .str "string")]])])])]])])])]

theorem grid_rows :
    Form.reply ⟨grid, grid, .null⟩ [] (.field (.listed ["rows", "$", "cells", "0"])) =
      .ok (.field [("type", .str "string")]) ∧
    Form.reply ⟨grid, grid, .null⟩ [] (.entry (.listed ["rows", "7", "cells"])) =
      Form.reply ⟨grid, grid, .null⟩ [] (.entry (.listed ["rows", "$", "cells"])) := by
  have hfield : Form.reply ⟨grid, grid, .null⟩ [] (.field (.listed ["rows"])) =
      .ok (.field _) := rfl
  have hzero : Node.IsPosition "0" := .inr (by decide)
  have hseven : Node.IsPosition "7" := .inr (by decide)
  have hwildcard : Node.IsPosition "$" := .inl rfl
  obtain ⟨hnode, _⟩ :=
    Form.reply_position hfield rfl nofun hzero hwildcard ["cells", "0"] []
  obtain ⟨_, hentry⟩ :=
    Form.reply_position hfield rfl nofun hwildcard hseven ["cells"] []
  exact ⟨hnode, hentry (by decide)⟩

end FormSchema
