import FormSchema.Proofs.Layers
import FormSchema.Proofs.ListFields

/-!
# Fields of decimal numbers

The type of a field may be that of a member of its combinators, where the field
declares none.  Its props are told that it is decimal by the type it declares itself.
So a field of decimal numbers that declares its type is always decimal there, and one
that has it from a member is only if its own keys or its `uniforms` say so.
-/

namespace FormSchema

namespace Form

variable {form : Form} {calls others : List Call} {name : Spelling} {given : Node}
  {props : Props}

theorem reply_props_of_decimal
    (htype : form.reply calls (.type name) = .ok (.type .decimal))
    (hprops : form.reply others (.props name given) = .ok (.props props)) :
    ∃ node, form.reply others (.field name) = .ok (.field node) ∧
      ((node.given? "type").isSome →
        props.values.get? "decimal" = some (.bool true)) ∧
      (node.given? "type" = none →
        (∃ members, node.combined (.obj form.document) = .ok members ∧
          ((members.filterMap (·.given? "type")).head?).any (·.isText "number") =
            true) ∧
        ∃ uniforms, Props.uniforms node = .ok uniforms ∧
          props.values.get? "decimal" =
            (uniforms.get? "decimal").or (node.get? "decimal")) := by
  obtain ⟨path, node, entry, hpath, hfield, _, hbuild⟩ :=
    exists_build_of_reply_props hprops
  obtain ⟨layers, hlayers, hlaid⟩ := Props.laid_of_build hbuild
  obtain ⟨stop, hstop, hkind⟩ := exists_stop_of_reply_type hpath htype
  have hnumber := FieldType.isText_of_ofField hkind rfl
  -- Both answers are about one node, whatever was asked before either of them.
  obtain rfl : stop.node = node := by
    have hstopped : form.reply others (.field name) = .ok (.field stop.node) := by
      rw [reply_field, hpath, ok_bind, nodeAt, stopAt_eq_ok_iff.2 hstop]
      rfl
    cases hstopped.symm.trans hfield
    rfl
  obtain ⟨_, huniforms, hstated⟩ := Props.Layers.ofField_eq_ok_iff.1 hlayers
  have hdeclares : Node.declares layers.own "number" =
      Node.declares stop.node "number" := by
    rw [Node.declares, Node.declares, Props.Layers.get?_own hlayers (by decide)]
  have hdecimal := hlaid.decimal
  rw [hdeclares] at hdecimal
  refine ⟨stop.node, hfield, ?_, ?_⟩
  · intro hsome
    rw [hdecimal, if_pos (declares_of_effectiveType hstop hsome hnumber)]
  · intro hnone
    refine ⟨exists_members_of_effectiveType hstop hnone hnumber, layers.uniforms,
      huniforms, ?_⟩
    have hnot : ¬Node.declares stop.node "number" = true := by
      rw [Node.declares_eq_given?, hnone]
      exact Bool.false_ne_true
    rw [hdecimal, if_neg hnot, Props.Layers.value,
      Entry.get?_of_toNode hstated (by decide), Option.none_or,
      Props.Layers.get?_own hlayers (by decide)]

end Form

def invoice : Node :=
  [("type", .str "object"),
   ("properties", .obj
     [("price", .obj
       [("type", .str "number"), ("uniforms", .obj [("decimal", .bool false)])]),
      ("total", .obj [("allOf", .arr [.obj [("type", .str "number")]])])])]

def invoiceForm : Form := ⟨invoice, invoice, .null⟩

theorem type_invoice_total :
    invoiceForm.reply [] (.type (.listed ["total"])) = .ok (.type .decimal) := rfl

theorem exists_props_invoice_total :
    ∃ props, invoiceForm.reply [] (.props (.listed ["total"]) []) =
      .ok (.props props) ∧ props.values.get? "decimal" = none := ⟨_, rfl, rfl⟩

theorem invoice_decimals :
    (∃ props, invoiceForm.reply [] (.props (.listed ["price"]) []) =
      .ok (.props props) ∧ props.values.get? "decimal" = some (.bool true)) ∧
    ∃ props, invoiceForm.reply [] (.props (.listed ["total"]) []) =
      .ok (.props props) ∧ props.values.get? "decimal" = none := by
  have hprice : invoiceForm.reply [] (.type (.listed ["price"])) =
      .ok (.type .decimal) := rfl
  obtain ⟨price, hpriceprops⟩ : ∃ props,
      invoiceForm.reply [] (.props (.listed ["price"]) []) = .ok (.props props) :=
    ⟨_, rfl⟩
  obtain ⟨total, htotalprops, _⟩ := exists_props_invoice_total
  obtain ⟨_, hfield, hdeclared, _⟩ := Form.reply_props_of_decimal hprice hpriceprops
  obtain ⟨_, hother, _, hundeclared⟩ :=
    Form.reply_props_of_decimal type_invoice_total htotalprops
  cases hfield
  cases hother
  obtain ⟨_, uniforms, huniforms, htotal⟩ := hundeclared rfl
  cases huniforms
  exact ⟨⟨price, hpriceprops, hdeclared rfl⟩, ⟨total, htotalprops, htotal⟩⟩

theorem invoice_total_not_decimal :
    ¬ ∀ (document : Node) (validator : Json) (form : Form) (calls others : List Call)
        (name : Spelling) (given : Node) (props : Props),
      Form.open document validator = .ok form →
      form.reply calls (.type name) = .ok (.type .decimal) →
      form.reply others (.props name given) = .ok (.props props) →
      props.values.get? "decimal" = some (.bool true) := by
  intro h
  have hopen : Form.open invoice .null = .ok invoiceForm := rfl
  obtain ⟨props, hprops, hnone⟩ := exists_props_invoice_total
  have hsome := h _ _ _ [] [] _ _ props hopen type_invoice_total hprops
  rw [hnone] at hsome
  cases hsome

end FormSchema
