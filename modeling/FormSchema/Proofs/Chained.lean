import FormSchema.Proofs.Descent
import FormSchema.Proofs.History

/-!
# References to references

A reference is followed once.  The target is taken as the document has it: where
the target is a reference itself, the reference of the target is what a path
leads to.  The last step of a path tells whether that happens, since the value
found there is all that is dereferenced for the node.
-/

namespace FormSchema

namespace Reference

def Chained (document value reference : Json) : Prop :=
  ∃ (fields : Node) (first : Json) (target : Node), value = .obj fields ∧
    fields.get? "$ref" = some first ∧
    resolve document first = .ok (.obj target) ∧
    target.get? "$ref" = some reference

variable {document value reference : Json} {node : Node}

theorem get?_ref_of_complete {fields target : Node}
    (h : complete (fields.erase "$ref") (.obj target) = .obj node) :
    node.get? "$ref" = target.get? "$ref" := by
  have hnode := Json.obj.inj h
  split at hnode
  · rw [hnode]
  · rw [← hnode, Table.get?_overlay, Table.get?_erase, if_pos rfl, Option.or_none]

theorem get?_ref_of_dereference (h : dereference document value = .ok (.obj node)) :
    node.get? "$ref" = some reference ↔ Chained document value reference := by
  cases value with
  | obj fields =>
      unfold dereference at h
      dsimp only at h
      split at h
      · next habsent =>
          cases h
          constructor
          · intro hget
            cases habsent.symm.trans hget
          · rintro ⟨_, _, _, heq, hfirst, _⟩
            cases heq
            cases habsent.symm.trans hfirst
      · next first hfirst =>
          obtain ⟨target, hresolve, hcomplete⟩ := bind_eq_ok_iff.1 h
          cases target with
          | obj target =>
              rw [get?_ref_of_complete (Except.ok.inj hcomplete)]
              constructor
              · exact fun hget => ⟨fields, first, target, rfl, hfirst, hresolve, hget⟩
              · rintro ⟨_, _, _, heq, hother, htarget, hget⟩
                cases heq
                cases hfirst.symm.trans hother
                cases hresolve.symm.trans htarget
                exact hget
          | _ => cases hcomplete
  | _ => cases h

end Reference

def Node.isDirect (document : Json) (node : Node) : Bool :=
  match node.get? "$ref" with
  | none => true
  | some first =>
      match Reference.resolve document first with
      | .ok (.obj target) => (Table.get? target "$ref").isNone
      | _ => true

theorem Reference.not_chained_of_isDirect {document value reference : Json}
    (h : value.everyNode (Node.isDirect document) = true) :
    ¬ Chained document value reference := by
  rintro ⟨fields, first, target, rfl, hfirst, hresolve, hget⟩
  have hdirect := Json.check_of_everyNode h
  unfold Node.isDirect at hdirect
  rw [hfirst] at hdirect
  dsimp only at hdirect
  rw [hresolve] at hdirect
  dsimp only at hdirect
  rw [hget] at hdirect
  cases hdirect

theorem Stop.exists_descend_of_along {document : Json} {stop last : Stop}
    {path : List String} {segment : String}
    (h : stop.along document (path ++ [segment]) = .ok last) :
    ∃ parent found, stop.along document path = .ok parent ∧
      Node.descend document parent.node segment = .ok (some found) ∧
      Reference.dereference document found = .ok (.obj last.node) := by
  obtain ⟨parent, hparent, hstep⟩ := exists_along_of_snoc h
  obtain ⟨_, _, hchild, _⟩ := step_eq_ok_iff.1 hstep
  obtain ⟨found, hfound, htarget⟩ := Node.child_eq_ok_iff.1 hchild
  exact ⟨parent, found, hparent, hfound, htarget⟩

/-- The node at a path has a reference exactly where the value found at the last
step refers to a reference, and then it has the reference of the target. -/
theorem Form.reply_field_followed_once {document : Node} {validator : Json}
    {form : Form} {calls : List Call} {name : Spelling} {path : List String}
    {segment : String} {node : Node}
    (hopen : Form.open document validator = .ok form)
    (hpath : name.path = .ok (path ++ [segment]))
    (hfield : form.reply calls (.field name) = .ok (.field node)) :
    (∃ parent found,
      form.reply calls (.field (.listed path)) = .ok (.field parent) ∧
      Node.descend (.obj document) parent segment = .ok (some found) ∧
      ∀ reference, node.get? "$ref" = some reference ↔
        Reference.Chained (.obj document) found reference) ∧
    ((Json.obj document).everyNode (Node.isDirect (.obj document)) = true →
      node.get? "$ref" = none) := by
  have hlisted : form.reply calls (.field (.listed (path ++ [segment]))) =
      .ok (.field node) := by
    rw [reply_field, hpath] at hfield
    rw [reply_field]
    exact hfield
  obtain ⟨stop, hstop, rfl⟩ := reply_field_listed_eq_ok_iff.1 hlisted
  obtain ⟨parent, found, hparent, hfound, htarget⟩ :=
    Stop.exists_descend_of_along hstop
  have hreply : form.reply calls (.field (.listed path)) = .ok (.field parent.node) :=
    reply_field_listed_eq_ok_iff.2 ⟨parent, hparent, rfl⟩
  obtain rfl := document_of_open hopen
  refine ⟨⟨parent.node, found, hreply, hfound, fun _ =>
    Reference.get?_ref_of_dereference htarget⟩, fun hdirect => ?_⟩
  have hsourced := Stop.sourced_of_along hdirect (sourced_of_open hopen hdirect) hparent
  have heach := Node.everyNode_of_descend hdirect hsourced hfound
  refine Option.eq_none_iff_forall_not_mem.2 fun reference hget => ?_
  exact Reference.not_chained_of_isDirect heach
    ((Reference.get?_ref_of_dereference htarget).1 hget)

def linked (reference : String) : Node :=
  [("type", .str "object"),
   ("properties", .obj [("a", .obj [("$ref", .str reference)])]),
   ("definitions", .obj
     [("B", .obj [("$ref", .str "#/definitions/C")]),
      ("C", .obj [("type", .str "string")])])]

def linkedForm (reference : String) : Form :=
  ⟨linked reference, linked reference, .null⟩

theorem open_linked (reference : String) :
    Form.open (linked reference) .null = .ok (linkedForm reference) :=
  rfl

theorem linked_followed_once :
    (∃ parent found,
      (linkedForm "#/definitions/B").reply [] (.field (.listed [])) =
        .ok (.field parent) ∧
      Node.descend (.obj (linked "#/definitions/B")) parent "a" = .ok (some found) ∧
      Reference.Chained (.obj (linked "#/definitions/B")) found
        (.str "#/definitions/C")) ∧
    ∃ node, (linkedForm "#/definitions/C").reply [] (.field (.listed ["a"])) =
        .ok (.field node) ∧ node.get? "$ref" = none := by
  have hpath : Spelling.path (.listed ["a"]) = .ok ([] ++ ["a"]) := rfl
  constructor
  · have hfield : (linkedForm "#/definitions/B").reply [] (.field (.listed ["a"])) =
        .ok (.field [("$ref", .str "#/definitions/C")]) := rfl
    obtain ⟨⟨parent, found, hparent, hfound, hchained⟩, _⟩ :=
      Form.reply_field_followed_once (open_linked _) hpath hfield
    exact ⟨parent, found, hparent, hfound, (hchained _).1 rfl⟩
  · have hfield : (linkedForm "#/definitions/C").reply [] (.field (.listed ["a"])) =
        .ok (.field [("type", .str "string")]) := rfl
    obtain ⟨_, hdirect⟩ :=
      Form.reply_field_followed_once (open_linked _) hpath hfield
    exact ⟨_, hfield, hdirect (by decide)⟩

theorem linked_keeps_a_reference :
    ¬ ∀ (document : Node) (validator : Json) (form : Form) (calls : List Call)
        (name : Spelling) (path : List String) (node : Node),
      Form.open document validator = .ok form → name.path = .ok path →
      path ≠ [] → form.reply calls (.field name) = .ok (.field node) →
      node.get? "$ref" = none := by
  intro h
  have hpath : Spelling.path (.listed ["a"]) = .ok ["a"] := rfl
  have hfield : (linkedForm "#/definitions/B").reply [] (.field (.listed ["a"])) =
      .ok (.field [("$ref", .str "#/definitions/C")]) := rfl
  cases h _ _ _ _ _ _ _ (open_linked _) hpath (by decide) hfield

end FormSchema
