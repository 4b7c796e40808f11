import FormSchema.Proofs.History
import FormSchema.Proofs.Sound

/-!
# Failures that are reported

Over a document of sound objects a question about a field has an answer, or the
name can not be read, or the failure is of a cause that is reported and tells
the key of the path that was asked for.  No fault is among these causes: what
is done with a node after the walk is as safe as the walk itself.
-/

namespace FormSchema

def Failure.isAt (path : List String) (kind : Cause → Bool) (failure : Failure) :
    Bool :=
  failure.path == some (Path.key path) && kind failure.cause

theorem Blames.reportAt {α : Type} {kind : Cause → Bool} {outcome : Except Cause α}
    (h : Blames kind outcome) (path : List String) :
    Blames (Failure.isAt path kind)
      (FormSchema.reportAt (some (Path.key path)) outcome) := by
  cases outcome with
  | ok value => exact .ok _
  | error cause =>
      apply Blames.error
      simp [Failure.isAt, h cause rfl]

/-! ## What is done with a node -/

theorem Properties.exists_names_obj (table : Node) :
    ∃ names, (stated (.obj table)).names = .ok names := by
  unfold names
  dsimp only
  split
  · exact ⟨_, rfl⟩
  · exact ⟨[], rfl⟩

namespace Form

theorem exists_namesOf {document : Json} {node : Node} {entry : Entry}
    {conflict : Option Conflict} {isRequired : Bool}
    (hnode : node.Sourced Node.isSound)
    (hcompile : Entry.compile document node isRequired = .ok (entry, conflict)) :
    ∃ names, namesOf node entry = .ok names := by
  unfold namesOf
  split
  · dsimp only
    rcases Entry.properties_of_compile hcompile with hstated | ⟨pairs, hmerged⟩
    · rw [hstated, Option.or_self]
      cases hgiven : node.given? "properties" with
      | none => exact ⟨[], rfl⟩
      | some value =>
          obtain ⟨table, rfl⟩ := hnode.exists_table hgiven
          exact Properties.exists_names_obj table
    · rw [hmerged]
      exact ⟨_, rfl⟩
  · exact ⟨[], rfl⟩

theorem exists_rootNames {root : Node} (hroot : root.Sourced Node.isSound) :
    ∃ names, rootNames root = .ok names := by
  unfold rootNames
  cases hget : root.get? "properties" with
  | none => exact ⟨[], rfl⟩
  | some value =>
      cases hnull : value.isNull with
      | true =>
          cases value with
          | null => exact ⟨[], rfl⟩
          | _ => cases hnull
      | false =>
          obtain ⟨table, rfl⟩ :=
            hroot.exists_table (Table.given?_eq_some_iff.2 ⟨hget, hnull⟩)
          exact Properties.exists_names_obj table

end Form

namespace FieldType

def isUnrepresentable : Cause → Bool
  | .unrepresentable => true
  | _ => false

theorem ofDeclared_blames (type : Option Json) :
    Blames isUnrepresentable (ofDeclared type) := by
  cases type with
  | none => exact .ok _
  | some type =>
      -- Of all types only `null`, the last that is tried, is refused.
      exact .ite (.ok _) (.ite (.ok _) (.ite (.ok _) (.ite (.ok _) (.ite (.ok _)
        (.ite (.ok _) (.ite (.error rfl) (.ok _)))))))

theorem ofField_blames (node : Node) (entry : Entry) :
    Blames isUnrepresentable (ofField node entry) :=
  .ite (.ok _) (ofDeclared_blames _)

end FieldType

/-! ## Answers of a form -/

namespace Form

structure Sound (form : Form) : Prop where
  document : (Json.obj form.document).everyNode Node.isSound = true
  root : form.root.Sourced Node.isSound

theorem sound_of_open {document : Node} {validator : Json} {form : Form}
    (hopen : Form.open document validator = .ok form)
    (h : (Json.obj document).everyNode Node.isSound = true) : form.Sound := by
  obtain rfl := document_of_open hopen
  exact ⟨h, sourced_of_open hopen h⟩

namespace Sound

variable {form : Form} {path : List String}

theorem stopAt_blames (h : form.Sound)
    (hshort : ∀ segment ∈ path, Path.isShort segment = true) :
    Blames (Failure.isAt path Cause.isDeadEnd) (form.stopAt path) :=
  .reportAt (Stop.along_blames .isDeadEnd h.document h.root hshort) path

theorem nodeAt_blames (h : form.Sound)
    (hshort : ∀ segment ∈ path, Path.isShort segment = true) :
    Blames (Failure.isAt path Cause.isDeadEnd) (form.nodeAt path) :=
  (h.stopAt_blames hshort).map _

theorem entryAt_blames (h : form.Sound)
    (hshort : ∀ segment ∈ path, Path.isShort segment = true) :
    Blames (Failure.isAt path Cause.isDeadEnd) (form.entryAt path) :=
  (h.stopAt_blames hshort).map _

theorem namesAt_blames (h : form.Sound)
    (hshort : ∀ segment ∈ path, Path.isShort segment = true) :
    Blames (Failure.isAt path Cause.isDeadEnd) (form.namesAt path) := by
  unfold namesAt
  split
  · obtain ⟨names, hnames⟩ := exists_rootNames h.root
    rw [hnames]
    exact .ok _
  · next hroot =>
      apply Blames.bind (h.nodeAt_blames hshort)
      intro node hnode
      apply Blames.bind (h.entryAt_blames hshort)
      intro entry hentry
      obtain ⟨stop, hstop, rfl⟩ := map_eq_ok_iff.1 hnode
      obtain ⟨again, hagain, rfl⟩ := map_eq_ok_iff.1 hentry
      rw [hstop] at hagain
      cases hagain
      have hne : path ≠ [] := fun hnil => hroot (by rw [hnil]; rfl)
      obtain ⟨entry, hentry⟩ :=
        Stop.exists_entry_of_along hne (stopAt_eq_ok_iff.1 hstop)
      obtain ⟨isRequired, conflict, hcompile⟩ :=
        exists_compile_of_stopAt hne hstop hentry
      have hnode := Stop.sourced_of_along h.document h.root
        (stopAt_eq_ok_iff.1 hstop)
      obtain ⟨names, hnames⟩ := exists_namesOf hnode hcompile
      rw [hentry, Option.getD_some, hnames]
      exact .ok _

theorem typeAt_blames (h : form.Sound)
    (hshort : ∀ segment ∈ path, Path.isShort segment = true) :
    Blames (Failure.isAt path fun cause =>
      cause.isDeadEnd || FieldType.isUnrepresentable cause) (form.typeAt path) := by
  have hkind : ∀ failure, Failure.isAt path Cause.isDeadEnd failure = true →
      Failure.isAt path (fun cause =>
        cause.isDeadEnd || FieldType.isUnrepresentable cause) failure = true := by
    intro failure hfailure
    simp only [Failure.isAt, Bool.and_eq_true] at hfailure ⊢
    exact ⟨hfailure.1, by rw [hfailure.2]; rfl⟩
  apply Blames.bind ((h.nodeAt_blames hshort).mono hkind)
  intro node _
  apply Blames.bind ((h.entryAt_blames hshort).mono hkind)
  intro entry _
  apply Blames.reportAt
  exact (FieldType.ofField_blames node entry).mono fun cause hcause => by
    rw [hcause, Bool.or_true]

end Sound

end Form

namespace Spelling

theorem malformed_of_path {name : Spelling} {failure : Failure}
    (hname : name ≠ .unreadable) (h : name.path = .error failure) :
    ∃ position, failure.cause = .malformedPath position := by
  cases name with
  | root => cases h
  | listed segments => cases h
  | unreadable => exact absurd rfl hname
  | literal text =>
      change ofLiteral text.toList = _ at h
      unfold ofLiteral at h
      split at h
      · cases h
      · cases h
      · split at h
        · cases h
        · cases h
          exact ⟨_, rfl⟩

/-- Either the name can not be read, or a failure of this kind tells the key of
the path. -/
def Reports (name : Spelling) (kind : Cause → Bool) (failure : Failure) : Prop :=
  (name.path = .error failure ∧
    ∃ position, failure.cause = .malformedPath position) ∨
  ∃ path, name.path = .ok path ∧ failure.path = some (Path.key path) ∧
    kind failure.cause = true

theorem reports_of_blames {α β : Type} {name : Spelling} {kind : Cause → Bool}
    {answer : List String → Except Failure α} {wrap : α → β} {failure : Failure}
    (hname : name ≠ .unreadable)
    (h : ∀ path, name.path = .ok path →
      Blames (Failure.isAt path kind) (answer path))
    (hfail : (name.path >>= fun path => answer path >>= fun value =>
      .ok (wrap value)) = .error failure) : name.Reports kind failure := by
  rcases bind_eq_error_iff.1 hfail with hpath | ⟨path, hpath, hrest⟩
  · exact .inl ⟨hpath, malformed_of_path hname hpath⟩
  · rcases bind_eq_error_iff.1 hrest with hanswer | ⟨_, _, hok⟩
    · have hfailure := h path hpath failure hanswer
      simp only [Failure.isAt, Bool.and_eq_true, beq_iff_eq] at hfailure
      exact .inr ⟨path, hpath, hfailure.1, hfailure.2⟩
    · cases hok

end Spelling

/-! ## Names of fields -/

namespace Json

def isSegment : Json → Bool
  | str _ | int _ => true
  | _ => false

def isFieldName : Json → Bool
  | null | str _ | int _ => true
  | arr segments => segments.all isSegment
  | _ => false

theorem isWritable_of_mem {elements : List Json} (h : (arr elements).isWritable = true)
    {element : Json} (hmem : element ∈ elements) : element.isWritable = true := by
  change areWritable elements = true at h
  induction elements with
  | nil => cases hmem
  | cons first rest ih =>
      rw [areWritable, Bool.and_eq_true] at h
      rcases List.mem_cons.1 hmem with rfl | hmem
      · exact h.1
      · exact ih hmem h.2

end Json

theorem Spelling.exists_ofJson {value : Json} (hfield : value.isFieldName = true)
    (hwritable : value.isWritable = true) :
    ∃ name, ofJson value = .ok name ∧ name ≠ .unreadable := by
  cases value with
  | null => exact ⟨.root, rfl, nofun⟩
  | str text => exact ⟨.literal text, rfl, nofun⟩
  | int value =>
      obtain ⟨text, htext⟩ := (Json.exists_text_iff _).2 hwritable
      exact ⟨.listed [text], by rw [ofJson, htext]; rfl, nofun⟩
  | arr segments =>
      obtain ⟨texts, htexts⟩ := exists_mapM fun segment hmem =>
        (Json.exists_text_iff segment).2 (Json.isWritable_of_mem hwritable hmem)
      exact ⟨.listed texts, by rw [ofJson, htexts]; rfl, nofun⟩
  | _ => cases hfield

theorem Spelling.pathOf_eq {value : Json} {name : Spelling}
    (h : ofJson value = .ok name) : pathOf value = name.path := by
  rw [pathOf, h]
  rfl

/-- Asked for a field, its entry, its subfields or its type, a form over sound
objects answers, or it fails for a cause that is reported and tells the key of the
path, or else the name of the field can not be read. -/
theorem Form.reply_reported {document : Node} {validator value : Json} {form : Form}
    (hopen : Form.open document validator = .ok form)
    (hsound : (Json.obj document).everyNode Node.isSound = true)
    (hfield : value.isFieldName = true) (hwritable : value.isWritable = true)
    (hshort : ∀ path, Spelling.pathOf value = .ok path →
      ∀ segment ∈ path, Path.isShort segment = true) (calls : List Call) :
    ∃ name, Spelling.ofJson value = .ok name ∧
      (∀ answer, form.reply calls (.field name) = .ok answer →
        ∃ node, answer = .field node) ∧
      (∀ failure, form.reply calls (.field name) = .error failure →
        name.Reports Cause.isDeadEnd failure) ∧
      (∀ failure, form.reply calls (.entry name) = .error failure →
        name.Reports Cause.isDeadEnd failure) ∧
      (∀ failure, form.reply calls (.subfields name) = .error failure →
        name.Reports Cause.isDeadEnd failure) ∧
      (∀ failure, form.reply calls (.type name) = .error failure →
        name.Reports (fun cause =>
          cause.isDeadEnd || FieldType.isUnrepresentable cause) failure) := by
  have h := sound_of_open hopen hsound
  obtain ⟨name, hspelled, hname⟩ := Spelling.exists_ofJson hfield hwritable
  rw [Spelling.pathOf_eq hspelled] at hshort
  refine ⟨name, hspelled, ?_⟩
  rw [reply_field, reply_entry, reply_subfields, reply_type]
  refine ⟨?_, fun failure => ?_, fun failure => ?_, fun failure => ?_,
    fun failure => ?_⟩
  · intro answer hanswer
    obtain ⟨path, _, hrest⟩ := bind_eq_ok_iff.1 hanswer
    obtain ⟨node, _, heq⟩ := bind_eq_ok_iff.1 hrest
    exact ⟨node, (Except.ok.inj heq).symm⟩
  · exact Spelling.reports_of_blames hname fun path hpath =>
      h.nodeAt_blames (hshort path hpath)
  · exact Spelling.reports_of_blames hname fun path hpath =>
      h.entryAt_blames (hshort path hpath)
  · exact Spelling.reports_of_blames hname fun path hpath =>
      h.namesAt_blames (hshort path hpath)
  · exact Spelling.reports_of_blames hname fun path hpath =>
      h.typeAt_blames (hshort path hpath)

def scattered : Node :=
  [("type", .str "object"),
   ("properties", .obj
     [("a", .obj [("$ref", .str "#/properties/b/default/1")]),
      ("b", .obj
       [("default", .arr [.null, .int 3]),
        ("anyOf", .arr [.obj [("$ref", .str "#/properties/c")], .int 5])]),
      ("c", .obj [("type", .str "null"), ("properties", .null)])])]

theorem scattered_reports :
    (Json.obj scattered).everyNode Node.isSound = true ∧
    Spelling.ofJson (.arr [.str "a"]) = .ok (.listed ["a"]) ∧
    Form.reply ⟨scattered, scattered, .null⟩ [] (.field (.listed ["a"])) =
      .error ⟨.fieldNotFound, some "a"⟩ ∧
    Spelling.Reports (.listed ["a"]) Cause.isDeadEnd ⟨.fieldNotFound, some "a"⟩ := by
  have hopen : Form.open scattered .null = .ok ⟨scattered, scattered, .null⟩ := rfl
  have hsound : (Json.obj scattered).everyNode Node.isSound = true := by decide
  have hshort : ∀ path, Spelling.pathOf (.arr [.str "a"]) = .ok path →
      ∀ segment ∈ path, Path.isShort segment = true := by
    intro path hpath
    cases hpath
    decide
  have hfail : Form.reply ⟨scattered, scattered, .null⟩ [] (.field (.listed ["a"])) =
      .error ⟨.fieldNotFound, some "a"⟩ := rfl
  obtain ⟨name, hspelled, _, hfield, _⟩ :=
    @Form.reply_reported _ _ (.arr [.str "a"]) _ hopen hsound rfl rfl hshort []
  cases hspelled
  exact ⟨hsound, rfl, hfail, hfield _ hfail⟩

def numbered (number : Int) : Node :=
  [("type", .str "object"),
   ("properties", .obj [("a", .obj [("$ref", .int number)])])]

section

variable {number : Int}

theorem child_numbered (h : Json.integerText number = .error .longNumeral) :
    Node.child (.obj (numbered number)) (numbered number) "a" =
      .error (.fault .longNumeral) := by
  have hdescend : Node.descend (.obj (numbered number)) (numbered number) "a" =
      .ok (some (.obj [("$ref", .int number)])) := rfl
  have hresolve : Reference.resolve (.obj (numbered number)) (.int number) =
      .error (.fault .longNumeral) := by
    change (Fault.orOk (Json.integerText number) >>= _) = _
    rw [h]
    rfl
  rw [Node.child, hdescend, ok_bind]
  change ((Reference.resolve (.obj (numbered number)) (.int number) >>= _) >>= _) = _
  rw [hresolve]
  rfl

theorem reply_numbered (h : Json.integerText number = .error .longNumeral) :
    Form.reply ⟨numbered number, numbered number, .null⟩ [] (.field (.listed ["a"])) =
      .error ⟨.fault .longNumeral, some "a"⟩ := by
  have halong : (Stop.start (numbered number)).along (.obj (numbered number)) ["a"] =
      .error (.fault .longNumeral) := by
    change ((Node.child (.obj (numbered number)) (numbered number) "a" >>= _) >>= _) = _
    rw [child_numbered h]
    rfl
  rw [Form.reply_field, Spelling.path, ok_bind, Form.nodeAt, Form.stopAt, halong]
  rfl

theorem pathOf_int (h : Json.integerText number = .error .longNumeral) :
    Spelling.pathOf (.int number) = .error ⟨.fault .longNumeral, none⟩ := by
  rw [Spelling.pathOf, Spelling.ofJson, Json.text, Json.nestedText, h]
  · rfl
  · exact nofun

end

def overlong : Int := Int.negOfNat (Nat.pow 10 Text.maxDigits)

theorem integerText_overlong : Json.integerText overlong = .error .longNumeral := by
  have hlong : ¬ (Nat.toDigits 10 (10 ^ Text.maxDigits)).length ≤ Text.maxDigits := by
    rw [Nat.length_toDigits_le_iff (by decide) (by decide)]
    exact Nat.lt_irrefl (10 ^ Text.maxDigits)
  rw [Json.integerText, overlong, Int.natAbs_negOfNat, Nat.pow_eq, if_neg hlong]

theorem numbered_not_reported :
    (Json.obj (numbered overlong)).everyNode Node.isShaped = true ∧
    Form.open (numbered overlong) .null =
      .ok ⟨numbered overlong, numbered overlong, .null⟩ ∧
    Form.reply ⟨numbered overlong, numbered overlong, .null⟩ []
      (.field (.listed ["a"])) = .error ⟨.fault .longNumeral, some "a"⟩ ∧
    ¬ Spelling.Reports (.listed ["a"]) Cause.isDeadEnd
      ⟨.fault .longNumeral, some "a"⟩ ∧
    Spelling.pathOf (.int overlong) = .error ⟨.fault .longNumeral, none⟩ := by
  refine ⟨by decide, rfl, reply_numbered integerText_overlong, ?_,
    pathOf_int integerText_overlong⟩
  rintro (⟨hpath, _⟩ | ⟨_, _, _, hkind⟩)
  · cases hpath
  · cases hkind

end FormSchema
