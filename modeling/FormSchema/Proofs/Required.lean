import FormSchema.Proofs.Flags
import FormSchema.Proofs.History

/-!
# Where required flags come from

The flag of a field is settled by the walk that comes first to it, from the entry
of its parent as that walk finds it in the ledger.  It can be said without either:
the node of the parent requires the field by a list of its own, or, where it states
nothing, by the lists of its members.
-/

namespace FormSchema

namespace Node

/-- What a node with these members requires.  Null is no statement and leaves it to
the members; anything else that is no list requires nothing. -/
def requiredWith (node : Node) (members : List Node) : List Json :=
  match node.given? "required" with
  | some (.arr names) => names
  | some _ => []
  | none => members.flatMap Entry.requiredNames

variable {document : Json} {node : Node} {parent : Option Entry} {segment : String}

theorem requires_iff :
    requires node parent segment = true ↔
      .str segment ∈ requiredNames node parent := by
  rw [requires, List.any_eq_true]
  constructor
  · rintro ⟨name, hname, htext⟩
    rwa [← Json.isText_eq_true_iff.1 htext]
  · exact fun h => ⟨_, h, Json.isText_eq_true_iff.2 rfl⟩

theorem requiredNames_of_compile {isRequired : Bool} {entry : Entry}
    {conflict : Option Conflict}
    (h : Entry.compile document node isRequired = .ok (entry, conflict)) :
    ∃ members, node.combined document = .ok members ∧
      requiredNames node (some entry) = node.requiredWith members := by
  obtain ⟨members, hcombined, hrequired⟩ := Entry.exists_combined_of_compile h
  refine ⟨members, hcombined, ?_⟩
  unfold requiredNames requiredWith
  cases hgiven : node.given? "required" with
  | none => exact hrequired
  | some names => cases names <;> rfl

end Node

theorem Stop.isRequired_iff_of_step {document : Json} {root : Node}
    {path : List String} {parent stop : Stop} {segment : String} (hne : path ≠ [])
    (hparent : (Stop.start root).along document path = .ok parent)
    (hstep : parent.step document segment = .ok stop) :
    ∃ members, parent.node.combined document = .ok members ∧
      ((stop.entry.getD {}).isRequired = true ↔
        .str segment ∈ parent.node.requiredWith members) := by
  obtain ⟨above, habove⟩ := Stop.exists_entry_of_along hne hparent
  rw [← List.dropLast_concat_getLast hne] at hparent
  obtain ⟨_, _, hlast⟩ := Stop.exists_along_of_snoc hparent
  obtain ⟨compiled, _, _, hcompiled, hsome⟩ := Stop.step_eq_ok_iff.1 hlast
  obtain rfl : above = compiled := Option.some.inj (habove.symm.trans hsome)
  obtain ⟨members, hcombined, hnames⟩ := Node.requiredNames_of_compile hcompiled
  obtain ⟨entry, _, _, hcompile, hentry⟩ := Stop.step_eq_ok_iff.1 hstep
  refine ⟨members, hcombined, ?_⟩
  rw [hentry, Option.getD_some, Entry.isRequired_of_compile hcompile, habove,
    Node.requires_iff, hnames]

namespace Form

variable {form : Form} {calls : List Call} {name : Spelling} {path : List String}
  {segment : String} {entry : Entry}

/-- The entry that is answered below a field is required if and only if the node of
that field, with its members, requires it, whatever was asked before. -/
theorem reply_entry_isRequired_iff (hne : path ≠ [])
    (hname : name.path = .ok (path ++ [segment]))
    (h : form.reply calls (.entry name) = .ok (.entry entry)) :
    ∃ node members,
      (∀ others, form.reply others (.field (.listed path)) = .ok (.field node)) ∧
      node.combined (.obj form.document) = .ok members ∧
      (entry.isRequired = true ↔ .str segment ∈ node.requiredWith members) := by
  have hlisted : form.reply calls (.entry (.listed (path ++ [segment]))) =
      .ok (.entry entry) := by
    rw [← h, reply_entry, reply_entry, hname]
    rfl
  obtain ⟨stop, hstop, rfl⟩ := reply_entry_listed_eq_ok_iff.1 hlisted
  obtain ⟨parent, hparent, hstep⟩ := Stop.exists_along_of_snoc hstop
  obtain ⟨members, hcombined, hflag⟩ := Stop.isRequired_iff_of_step hne hparent hstep
  exact ⟨parent.node, members,
    fun _ => reply_field_listed_eq_ok_iff.2 ⟨parent, hparent, rfl⟩, hcombined, hflag⟩

end Form

def referring : Node :=
  [("type", .str "object"),
   ("properties", .obj [("p", .obj
     [("required", .null),
      ("anyOf", .arr [.obj [("$ref", .str "#/definitions/a")], .bool true,
        .obj [("$ref", .str "#/definitions/b")]])])]),
   ("definitions", .obj
     [("a", .obj [("properties", .obj [("a", .obj [])]), ("required", .str "b")]),
      ("b", .obj [("properties", .obj [("b", .obj [])]),
        ("required", .arr [.str "b"])])])]

theorem referring_requires_second :
    ∃ form entry, Form.open referring .null = .ok form ∧
      form.reply [.type (.listed ["p", "a"]), .field (.listed ["p", "b", "c"])]
        (.entry (.literal "p.b")) = .ok (.entry entry) ∧
      entry.isRequired = true := by
  have hname : (Spelling.literal "p.b").path = .ok (["p"] ++ ["b"]) := by cbv
  obtain ⟨entry, hreply⟩ : ∃ entry, Form.reply ⟨referring, referring, .null⟩
      [.type (.listed ["p", "a"]), .field (.listed ["p", "b", "c"])]
      (.entry (.literal "p.b")) = .ok (.entry entry) := by
    rw [Form.reply_entry, hname]
    exact ⟨_, rfl⟩
  obtain ⟨node, members, hfield, hcombined, hflag⟩ :=
    Form.reply_entry_isRequired_iff (by decide) hname hreply
  refine ⟨_, entry, rfl, hreply, hflag.2 ?_⟩
  cases hfield []
  cases hcombined
  exact List.mem_singleton_self _

end FormSchema
