import FormSchema.Proofs.Positions
import FormSchema.Proofs.Subfields

/-!
# Fields whose type is a list

The type of a field may be that of a member of its combinators, where the field
declares none.  The walk goes by what a node declares itself.  So a field that is
a list by its own declaration can be walked at every position, as far as its being
an array goes, and one that is a list by a member can not be walked at any.
-/

namespace FormSchema

/-! ## What the content of a document can fail for -/

/-- The causes that lie in what a document says and not in where a path goes. -/
def Cause.inContent : Cause → Bool
  | externalReference _ | danglingReference _ | fault _ => true
  | _ => false

theorem Fault.orOk_inContent {α : Type} (outcome : Except Fault α) :
    Blames Cause.inContent (orOk outcome) :=
  .orOk fun _ _ => rfl

namespace Reference

theorem follow_inContent (reference : String) (node : Json) (parts : List String) :
    Blames Cause.inContent (follow reference node parts) := by
  induction parts generalizing node with
  | nil => exact .ok _
  | cons part rest ih =>
      unfold follow
      split
      · exact .error rfl
      · exact .error rfl
      · exact .error rfl
      · exact ih _

theorem resolve_inContent (document reference : Json) :
    Blames Cause.inContent (resolve document reference) := by
  unfold resolve
  split
  · exact .ite (follow_inContent _ _ _) (.error rfl)
  · exact .bind (Fault.orOk_inContent _) fun _ _ => .error rfl

theorem dereference_inContent (document value : Json) :
    Blames Cause.inContent (dereference document value) := by
  unfold dereference
  split
  · split
    · exact .ok _
    · exact .bind (resolve_inContent document _) fun _ _ => .ok _
  · exact .ok _

end Reference

namespace Entry

variable {document : Json} {node : Node} {isRequired : Bool} {entry : Entry}
  {conflict : Option Conflict}

theorem members_inContent (document : Json) (node : Node) (combinator : Combinator) :
    Blames Cause.inContent (members document node combinator) := by
  unfold members
  split
  · exact .ok _
  · exact .bind (Fault.orOk_inContent _) fun _ _ =>
      .bind (.mapM fun member _ => Reference.dereference_inContent document member)
        fun _ _ => .ok _

theorem compile_inContent (document : Json) (node : Node) (isRequired : Bool) :
    Blames Cause.inContent (compile document node isRequired) := by
  apply Blames.bind (members_inContent document node .allOf)
  intro allOf _
  apply Blames.bind (members_inContent document node .anyOf)
  intro anyOf _
  apply Blames.bind (members_inContent document node .oneOf)
  intro oneOf _
  exact .ite (.ok _) (.bind (Fault.orOk_inContent _) fun _ _ => .ok _)

theorem type_of_compile
    (h : compile document node isRequired = .ok (entry, conflict)) :
    ∃ members, node.combined document = .ok members ∧
      entry.type = if (node.given? "type").isSome then none
        else (members.filterMap (·.given? "type")).head? := by
  have hcompiled := compiled h
  refine ⟨entry.objects, hcompiled.combined, ?_⟩
  by_cases hnil : entry.objects = []
  · obtain ⟨htype, _⟩ := hcompiled.stated hnil
    rw [hnil, htype]
    split <;> rfl
  · obtain ⟨_, _, _, _, htype, _⟩ := hcompiled.merged hnil
    exact htype

end Entry

/-! ## Steps to a position -/

def Cause.isMisplaced : Cause → Bool
  | notAnArray _ => true
  | _ => false

theorem Blames.not_misplaced {α : Type} {outcome : Except Cause α}
    (h : Blames Cause.inContent outcome) :
    Blames (fun cause => !cause.isMisplaced) outcome := by
  apply h.mono
  intro cause hcause
  cases cause with
  | notAnArray segment => cases hcause
  | _ => rfl

namespace Node

variable {document : Json} {node : Node} {position : String}

theorem descend_of_not_array (hnot : declares node "array" = false)
    (hposition : IsPosition position) :
    descend document node position = .error (.notAnArray position) := by
  have hshape : node.shape ≠ .array := by
    unfold shape
    rw [hnot]
    split
    · nofun
    · rw [if_neg (by decide)]
      split <;> nofun
  unfold descend
  rw [if_pos hposition.tested, if_neg hshape]

theorem item?_inContent (node : Node) (position : String) :
    Blames Cause.inContent (item? node position) := by
  unfold item?
  split
  · exact .ite (.ok _) (.bind (Fault.orOk_inContent _) fun _ _ => .ok _)
  · exact .ok _

theorem child_not_misplaced (harray : declares node "array" = true)
    (hposition : IsPosition position) :
    Blames (fun cause => !cause.isMisplaced) (child document node position) := by
  unfold child
  rw [descend_of_array harray hposition]
  apply Blames.bind (item?_inContent node position).not_misplaced
  intro found _
  split
  · exact .error rfl
  · apply Blames.bind (Reference.dereference_inContent document _).not_misplaced
    intro target _
    split
    · exact .ok _
    · exact .error rfl

end Node

namespace Stop

variable {document : Json} {stop : Stop} {position : String}

theorem step_not_misplaced (harray : Node.declares stop.node "array" = true)
    (hposition : Node.IsPosition position) :
    Blames (fun cause => !cause.isMisplaced) (stop.step document position) :=
  .bind (Node.child_not_misplaced harray hposition) fun child _ =>
    .bind (Entry.compile_inContent document child _).not_misplaced fun _ _ => .ok _

theorem step_of_not_array (hnot : Node.declares stop.node "array" = false)
    (hposition : Node.IsPosition position) :
    stop.step document position = .error (.notAnArray position) := by
  unfold step Node.child
  rw [Node.descend_of_not_array hnot hposition]
  rfl

end Stop

/-! ## The type of a field -/

namespace FieldType

def name? : FieldType → Option String
  | text => some "string"
  | decimal => some "number"
  | integer => some "integer"
  | record => some "object"
  | list => some "array"
  | flag => some "boolean"
  | instant | declared _ => none

theorem isText_of_ofField {node : Node} {entry : Entry} {type : FieldType}
    {name : String} (h : ofField node entry = .ok type)
    (hname : type.name? = some name) :
    (entry.effectiveType node).any (·.isText name) = true := by
  unfold ofField at h
  split at h
  · cases h
    cases hname
  · cases htype : entry.effectiveType node with
    | none =>
        rw [htype] at h
        cases h
        cases hname
    | some declared =>
        rw [htype] at h
        dsimp only [ofDeclared] at h
        -- Each kind is answered behind the test for its own name.
        repeat' split at h
        all_goals cases h
        all_goals cases hname
        all_goals assumption

theorem isText_of_list {node : Node} {entry : Entry}
    (h : ofField node entry = .ok .list) :
    (entry.effectiveType node).any (·.isText "array") = true :=
  isText_of_ofField h rfl

end FieldType

namespace Form

variable {form : Form} {calls : List Call} {name : Spelling} {path : List String}
  {position : String}

theorem exists_stop_of_reply_type {type : FieldType} (hpath : name.path = .ok path)
    (htype : form.reply calls (.type name) = .ok (.type type)) :
    ∃ stop, (Stop.start form.root).along (.obj form.document) path = .ok stop ∧
      FieldType.ofField stop.node (stop.entry.getD {}) = .ok type := by
  simp only [reply_type, hpath, ok_bind, typeAt, nodeAt, entryAt, bind_eq_ok_iff,
    map_eq_ok_iff, stopAt_eq_ok_iff, reportAt_eq_ok_iff, Except.ok.injEq,
    Answer.type.injEq] at htype
  obtain ⟨_, ⟨_, ⟨stop, hstop, rfl⟩, _, ⟨again, hagain, rfl⟩, hfield⟩, rfl⟩ := htype
  rw [hstop] at hagain
  cases hagain
  exact ⟨stop, hstop, hfield⟩

theorem reply_field_snoc {stop : Stop}
    (hstop : (Stop.start form.root).along (.obj form.document) path = .ok stop)
    (segment : String) (calls : List Call) :
    form.reply calls (.field (.listed (path ++ [segment]))) =
      reportAt (some (Path.key (path ++ [segment])))
        ((stop.step (.obj form.document) segment).map fun next =>
          .field next.node) := by
  simp only [reply_field, Spelling.path, ok_bind, nodeAt, stopAt,
    Stop.along_snoc hstop]
  cases stop.step (.obj form.document) segment <;> rfl

theorem type_of_along {stop : Stop}
    (hstop : (Stop.start form.root).along (.obj form.document) path = .ok stop) :
    (stop.entry.getD {}).type = none ∨
      stop.node.given? "type" = none ∧
        ∃ members, stop.node.combined (.obj form.document) = .ok members ∧
          (stop.entry.getD {}).type = (members.filterMap (·.given? "type")).head? := by
  cases hentry : stop.entry with
  | none => exact .inl rfl
  | some entry =>
      have hne : path ≠ [] := by
        rintro rfl
        cases hstop
        cases hentry
      obtain ⟨isRequired, conflict, hcompile⟩ :=
        exists_compile_of_stopAt hne (stopAt_eq_ok_iff.2 hstop) hentry
      obtain ⟨members, hcombined, htype⟩ := Entry.type_of_compile hcompile
      cases hown : stop.node.given? "type" with
      | none =>
          rw [hown] at htype
          exact .inr ⟨rfl, members, hcombined, htype⟩
      | some own =>
          rw [hown] at htype
          exact .inl htype

theorem declares_of_effectiveType {stop : Stop} {type : String}
    (hstop : (Stop.start form.root).along (.obj form.document) path = .ok stop)
    (hsome : (stop.node.given? "type").isSome)
    (htype : ((stop.entry.getD {}).effectiveType stop.node).any (·.isText type) =
      true) :
    Node.declares stop.node type = true := by
  rcases type_of_along hstop with hentry | ⟨hnone, _⟩
  · rw [Entry.effectiveType, hentry, Option.none_or] at htype
    rw [Node.declares_eq_given?, htype]
  · rw [hnone] at hsome
    cases hsome

theorem exists_members_of_effectiveType {stop : Stop} {test : Json → Bool}
    (hstop : (Stop.start form.root).along (.obj form.document) path = .ok stop)
    (hnone : stop.node.given? "type" = none)
    (htype : ((stop.entry.getD {}).effectiveType stop.node).any test = true) :
    ∃ members, stop.node.combined (.obj form.document) = .ok members ∧
      ((members.filterMap (·.given? "type")).head?).any test = true := by
  rw [Entry.effectiveType, hnone, Option.or_none] at htype
  rcases type_of_along hstop with hentry | ⟨_, members, hcombined, hmember⟩
  · rw [hentry] at htype
    cases htype
  · rw [hmember] at htype
    exact ⟨members, hcombined, htype⟩

/-- Every position of a field that is a list can be asked for without the answer
that it is no array, if the field declares its type; if the type is that of a
member, this is the answer at every position. -/
theorem reply_position_of_list (hpath : name.path = .ok path)
    (htype : form.reply calls (.type name) = .ok (.type .list))
    (hposition : Node.IsPosition position) (others : List Call) :
    ∃ node, form.reply others (.field (.listed path)) = .ok (.field node) ∧
      ((node.given? "type").isSome → ∀ segment reported,
        form.reply others (.field (.listed (path ++ [position]))) ≠
          .error ⟨.notAnArray segment, reported⟩) ∧
      (node.given? "type" = none →
        form.reply others (.field (.listed (path ++ [position]))) =
          .error ⟨.notAnArray position,
            some (Path.key (path ++ [position]))⟩ ∧
        ∃ members, node.combined (.obj form.document) = .ok members ∧
          ((members.filterMap (·.given? "type")).head?).any (·.isText "array") =
            true) := by
  obtain ⟨stop, hstop, hfield⟩ := exists_stop_of_reply_type hpath htype
  have harray := FieldType.isText_of_list hfield
  refine ⟨stop.node, reply_field_listed_eq_ok_iff.2 ⟨stop, hstop, rfl⟩, ?_, ?_⟩
  · intro hsome segment reported hfail
    have hdeclared := declares_of_effectiveType hstop hsome harray
    rw [reply_field_snoc hstop] at hfail
    cases hstep : stop.step (.obj form.document) position with
    | ok next =>
        rw [hstep] at hfail
        cases hfail
    | error cause =>
        rw [hstep] at hfail
        cases hfail
        cases Stop.step_not_misplaced hdeclared hposition _ hstep
  · intro hnone
    have hnot : Node.declares stop.node "array" = false := by
      rw [Node.declares_eq_given?, hnone]
      rfl
    refine ⟨?_, exists_members_of_effectiveType hstop hnone harray⟩
    rw [reply_field_snoc hstop, Stop.step_of_not_array hnot hposition]
    rfl

end Form

def shelves : Node :=
  [("type", .str "object"),
   ("properties", .obj
     [("own", .obj
       [("type", .str "array"),
        ("allOf", .arr [.obj [("type", .str "string")]]),
        ("items", .obj [("$ref", .str "#/definitions/Item")])]),
      ("taken", .obj
       [("allOf", .arr [.obj
          [("type", .str "array"),
           ("items", .obj [("type", .str "string")])]])])])]

theorem shelves_positions :
    (∀ segment reported, Form.reply ⟨shelves, shelves, .null⟩ []
      (.field (.listed ["own", "0"])) ≠ .error ⟨.notAnArray segment, reported⟩) ∧
    Form.reply ⟨shelves, shelves, .null⟩ [] (.field (.listed ["taken", "$"])) =
      .error ⟨.notAnArray "$", some "taken.$"⟩ := by
  have hown : Form.reply ⟨shelves, shelves, .null⟩ [] (.type (.listed ["own"])) =
      .ok (.type .list) := rfl
  have htaken : Form.reply ⟨shelves, shelves, .null⟩ [] (.type (.listed ["taken"])) =
      .ok (.type .list) := rfl
  have hindex : Node.IsPosition "0" := .inr (by decide)
  have hwildcard : Node.IsPosition "$" := .inl rfl
  obtain ⟨_, hfield, hnever, _⟩ := Form.reply_position_of_list rfl hown hindex []
  obtain ⟨_, hother, _, halways⟩ :=
    Form.reply_position_of_list rfl htaken hwildcard []
  cases hfield
  cases hother
  exact ⟨hnever rfl, (halways rfl).1⟩

theorem shelves_list_without_positions :
    ¬ ∀ (document : Node) (validator : Json) (form : Form) (calls others : List Call)
        (name : Spelling) (path : List String) (position : String),
      Form.open document validator = .ok form → name.path = .ok path →
      form.reply calls (.type name) = .ok (.type .list) →
      Node.IsPosition position → ∀ segment reported,
        form.reply others (.field (.listed (path ++ [position]))) ≠
          .error ⟨.notAnArray segment, reported⟩ := by
  intro h
  have hopen : Form.open shelves .null = .ok ⟨shelves, shelves, .null⟩ := rfl
  have htype : Form.reply ⟨shelves, shelves, .null⟩ [] (.type (.listed ["taken"])) =
      .ok (.type .list) := rfl
  exact h _ _ _ [] [] _ _ "0" hopen rfl htype (.inr (by decide)) "0" (some "taken.0")
    rfl

end FormSchema
