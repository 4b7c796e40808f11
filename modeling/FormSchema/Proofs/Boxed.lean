import FormSchema.Proofs.Flags
import FormSchema.Proofs.History
import FormSchema.Proofs.Plain

/-!
# A schema by itself and as a property

A plain schema can be asked by itself or as the only property of an object.  Both
forms lead to the same stops, with one difference: the root of a form has no
entry, so that required names which only its members state do not reach its
children, while they reach the children of a property.
-/

namespace FormSchema

namespace Node

def boxed (schema : Node) : Node :=
  [("type", .str "object"), ("properties", .obj [("x", .obj schema)])]

/-- The members of a node that states no required names require a child. -/
def RequiredByMembers (document : Json) (node : Node) (segment : String) : Prop :=
  node.given? "required" = none ∧
    ∃ members, node.combined document = .ok members ∧
      ∃ member ∈ members, (Entry.requiredNames member).any (·.isText segment) = true

variable {document : Json} {node schema : Node} {segment : String}

theorem requires_of_requiredByMembers
    (h : node.RequiredByMembers document segment) :
    requires node none segment = false := by
  unfold requires requiredNames
  rw [h.1]
  rfl

theorem requires_entry_iff {isRequired : Bool} {entry : Entry}
    {conflict : Option Conflict}
    (hcompile : Entry.compile document node isRequired = .ok (entry, conflict)) :
    requires node (some entry) segment = true ↔
      requires node none segment = true ∨ node.RequiredByMembers document segment := by
  obtain ⟨members, hcombined, hrequired⟩ :=
    Entry.exists_combined_of_compile hcompile
  unfold requires requiredNames RequiredByMembers
  cases hgiven : node.given? "required" with
  | some names => simp
  | none =>
      rw [hcombined, Option.bind_some, hrequired]
      simp

theorem child_boxed (document : Json)
    (h : (Json.obj schema).everyNode isPlain = true) :
    child document schema.boxed "x" = .ok schema := by
  refine child_eq_ok_iff.2 ⟨.obj schema, ?_, ?_⟩
  · have hindex : Path.isIndex "x" = false := by decide
    unfold descend
    rw [if_neg (not_position hindex (by decide)),
      if_pos (shape_of_declares rfl)]
    rfl
  · exact Reference.dereference_of_plain document h

end Node

variable {schema : Node}

theorem workingRoot_of_isPlain (h : schema.isPlain = true) :
    workingRoot schema = .ok schema := by
  unfold workingRoot
  rw [Node.get?_ref_of_isPlain h]
  split <;> rfl

theorem Form.open_of_isPlain (h : schema.isPlain = true) (validator : Json) :
    Form.open schema validator = .ok ⟨schema, schema, validator⟩ := by
  unfold Form.open
  rw [workingRoot_of_isPlain h]
  rfl

theorem Stop.along_boxed {path : List String} {stop : Stop}
    (hplain : (Json.obj schema).everyNode Node.isPlain = true)
    (h : (Stop.start schema.boxed).along (.obj schema.boxed) ("x" :: path) =
      .ok stop) :
    ∃ isRequired entry conflict,
      Entry.compile (.obj schema) schema isRequired = .ok (entry, conflict) ∧
      (Stop.mk schema (some entry)).along (.obj schema) path = .ok stop := by
  rw [along_cons, bind_eq_ok_iff] at h
  obtain ⟨⟨node, stored⟩, hstep, halong⟩ := h
  obtain ⟨entry, conflict, hchild, hcompile, hentry⟩ := step_eq_ok_iff.1 hstep
  have hsame := (Node.child_boxed (.obj schema.boxed) hplain).symm.trans hchild
  obtain rfl : schema = node := Except.ok.inj hsame
  cases hentry
  have hsourced := Node.Sourced.of_everyNode hplain
  rw [Entry.compile_of_plain hsourced _ (.obj schema)] at hcompile
  refine ⟨_, entry, conflict, hcompile, ?_⟩
  rwa [along_of_plain hplain hsourced] at halong

/-- What is asked below the property can be asked of the schema itself and has the
same entry, unless the members of the schema alone require a child: then the child
of the property is required and that of the root is not. -/
theorem Form.reply_entry_boxed {validator : Json} {outer : Form} {calls : List Call}
    {path : List String} {entry : Entry}
    (hplain : (Json.obj schema).everyNode Node.isPlain = true)
    (hopen : Form.open schema.boxed validator = .ok outer) (hne : path ≠ [])
    (h : outer.reply calls (.entry (.listed ("x" :: path))) = .ok (.entry entry))
    (others : List Call) :
    ∃ form own, Form.open schema validator = .ok form ∧
      form.reply others (.entry (.listed path)) = .ok (.entry own) ∧
      ((∀ segment, path = [segment] →
        ¬schema.RequiredByMembers (.obj schema) segment) → own = entry) ∧
      ∀ segment, path = [segment] → schema.RequiredByMembers (.obj schema) segment →
        own = { entry with isRequired := false } ∧ entry.isRequired = true := by
  have houter : outer = ⟨schema.boxed, schema.boxed, validator⟩ := by
    rw [open_of_isPlain rfl] at hopen
    exact (Except.ok.inj hopen).symm
  subst houter
  obtain ⟨stop, hstop, rfl⟩ := reply_entry_listed_eq_ok_iff.1 h
  obtain ⟨isRequired, first, conflict, hcompile, halong⟩ :=
    Stop.along_boxed hplain hstop
  have hsame : (Stop.mk schema (some first)).node = (Stop.start schema).node := rfl
  obtain ⟨other, hother, hunflagged, hlong⟩ :=
    Stop.exists_along_of_node hsame hne halong
  have hentry := Stop.entry_unflagged hunflagged
  refine ⟨_, other.entry.getD {}, open_of_isPlain (Json.check_of_everyNode hplain) _,
    reply_entry_listed_eq_ok_iff.2 ⟨other, hother, rfl⟩, ?_, ?_⟩
  · intro hunless
    by_cases hsingle : ∃ segment, path = [segment]
    · obtain ⟨segment, rfl⟩ := hsingle
      have hflags : Node.requires schema (some first) segment = true ↔
          Node.requires schema none segment = true ∨
            schema.RequiredByMembers (.obj schema) segment :=
        Node.requires_entry_iff hcompile
      have hnot := hunless segment rfl
      apply Entry.eq_of_unflagged hentry
      rw [Stop.isRequired_of_along_singleton hother,
        Stop.isRequired_of_along_singleton halong]
      exact Bool.eq_iff_iff.2 (hflags.trans (or_iff_left hnot)).symm
    · have hstop : other = stop := hlong fun segment hpath => hsingle ⟨segment, hpath⟩
      rw [hstop]
  · rintro segment rfl hmembers
    have hown : (other.entry.getD {}).isRequired = Node.requires schema none segment :=
      Stop.isRequired_of_along_singleton hother
    have hproperty :
        (stop.entry.getD {}).isRequired = Node.requires schema (some first) segment :=
      Stop.isRequired_of_along_singleton halong
    rw [Node.requires_of_requiredByMembers hmembers] at hown
    rw [(Node.requires_entry_iff hcompile).2 (.inr hmembers)] at hproperty
    exact ⟨Entry.eq_of_unflagged hentry hown, hproperty⟩

def branched : Node :=
  [("allOf", .arr [.obj
    [("properties", .obj [("a", .obj [("type", .str "string")])]),
     ("required", .arr [.str "a"])]])]

def branchedEntry : Entry := { isRequired := true }

theorem reply_boxed_branched :
    Form.reply ⟨branched.boxed, branched.boxed, .null⟩ []
      (.entry (.listed ["x", "a"])) = .ok (.entry branchedEntry) :=
  rfl

theorem requiredByMembers_branched :
    branched.RequiredByMembers (.obj branched) "a" :=
  ⟨rfl, _, rfl, _, List.mem_singleton_self _, rfl⟩

theorem branched_requires_below_property :
    ∃ form own, Form.open branched .null = .ok form ∧
      form.reply [] (.entry (.listed ["a"])) = .ok (.entry own) ∧
      own = { branchedEntry with isRequired := false } := by
  have hplain : (Json.obj branched).everyNode Node.isPlain = true := by decide
  have hopen : Form.open branched.boxed .null =
      .ok ⟨branched.boxed, branched.boxed, .null⟩ := rfl
  obtain ⟨form, own, hform, hreply, _, hroot⟩ :=
    Form.reply_entry_boxed hplain hopen (by decide) reply_boxed_branched []
  exact ⟨form, own, hform, hreply, (hroot "a" rfl requiredByMembers_branched).1⟩

theorem branched_root_differs :
    ¬ ∀ (schema : Node) (validator : Json) (outer : Form) (calls : List Call)
        (path : List String) (entry : Entry),
      (Json.obj schema).everyNode Node.isPlain = true →
      Form.open schema.boxed validator = .ok outer → path ≠ [] →
      outer.reply calls (.entry (.listed ("x" :: path))) = .ok (.entry entry) →
      ∃ form, Form.open schema validator = .ok form ∧
        form.reply calls (.entry (.listed path)) = .ok (.entry entry) := by
  intro h
  have hplain : (Json.obj branched).everyNode Node.isPlain = true := by decide
  obtain ⟨form, hopen, hreply⟩ := h branched .null _ [] ["a"] _ hplain rfl
    (by decide) reply_boxed_branched
  cases hopen
  cases hreply

end FormSchema
