import FormSchema.Proofs.Causes

/-!
# Sound documents

An object is shaped when its properties are a table, its combinators are lists
and its reference has no position that is too long to be read.  It is sound when
besides no integer in its reference is too long to be told.  References may lead to
any value of a document, but where all objects of a document are sound, the nodes
that paths lead to have their fields from sound objects.  A walk then puts no value
to a use that its kind does not allow.
-/

namespace FormSchema

/-- A segment that selects a position has few enough digits to be read. -/
def Path.isShort (segment : String) : Bool :=
  !isIndex segment || segment.length ≤ Text.maxDigits

def Reference.isShort : Json → Bool
  | .str reference => (parts reference.toList).all Path.isShort
  | _ => true

/-! ## Texts of values -/

namespace Json

mutual

/-- No integer has more digits than are written. -/
def isWritable : Json → Bool
  | int value => (Nat.toDigits 10 value.natAbs).length ≤ Text.maxDigits
  | arr elements => areWritable elements
  | obj fields => haveWritable fields
  | _ => true

def areWritable : List Json → Bool
  | [] => true
  | element :: elements => isWritable element && areWritable elements

def haveWritable : List (String × Json) → Bool
  | [] => true
  | (_, value) :: fields => isWritable value && haveWritable fields

end

theorem exists_integerText_iff (value : Int) :
    (∃ text, integerText value = .ok text) ↔ (int value).isWritable = true := by
  unfold integerText
  split
  · next h => exact iff_of_true ⟨_, rfl⟩ (decide_eq_true h)
  · next h => exact iff_of_false nofun (mt of_decide_eq_true h)

mutual

theorem exists_nestedText_iff : ∀ value : Json,
    (∃ text, value.nestedText = .ok text) ↔ value.isWritable = true
  | null => iff_of_true ⟨_, rfl⟩ rfl
  | bool _ => iff_of_true ⟨_, rfl⟩ rfl
  | int value => exists_integerText_iff value
  | real _ => iff_of_true ⟨_, rfl⟩ rfl
  | str _ => iff_of_true ⟨_, rfl⟩ rfl
  | arr elements => exists_bind_ok_iff.trans (exists_elementTexts_iff elements)
  | obj fields => exists_bind_ok_iff.trans (exists_fieldTexts_iff fields)

theorem exists_elementTexts_iff : ∀ elements : List Json,
    (∃ texts, elementTexts elements = .ok texts) ↔ areWritable elements = true
  | [] => iff_of_true ⟨_, rfl⟩ rfl
  | element :: elements => by
      rw [areWritable, Bool.and_eq_true, ← exists_nestedText_iff element,
        ← exists_elementTexts_iff elements]
      exact exists_bind_bind_ok_iff

theorem exists_fieldTexts_iff : ∀ fields : List (String × Json),
    (∃ texts, fieldTexts fields = .ok texts) ↔ haveWritable fields = true
  | [] => iff_of_true ⟨_, rfl⟩ rfl
  | (_, value) :: fields => by
      rw [haveWritable, Bool.and_eq_true, ← exists_nestedText_iff value,
        ← exists_fieldTexts_iff fields]
      exact exists_bind_bind_ok_iff

end

/-- The values that have a text are those whose integers can be written. -/
theorem exists_text_iff (value : Json) :
    (∃ text, value.text = .ok text) ↔ value.isWritable = true := by
  cases value with
  | str text => exact iff_of_true ⟨_, rfl⟩ rfl
  | _ => exact exists_nestedText_iff _

end Json

/-! ## Objects -/

def Node.isShaped (node : Node) : Bool :=
  (node.given? "properties").all (·.node?.isSome) &&
    Combinator.all.all (fun combinator =>
      (node.given? combinator.key).all (·.list?.isSome)) &&
    (node.get? "$ref").all Reference.isShort

def Node.isSound (node : Node) : Bool :=
  node.isShaped && (node.get? "$ref").all Json.isWritable

namespace Node.Sourced

variable {node : Node}

theorem exists_table (h : Sourced isSound node) {value : Json}
    (hgiven : node.given? "properties" = some value) :
    ∃ table, value = .obj table := by
  obtain ⟨hget, hnull⟩ := Table.given?_eq_some_iff.1 hgiven
  obtain ⟨⟨source, hsound, hsource⟩, _⟩ := h _ _ hget
  simp only [isSound, isShaped, Bool.and_eq_true] at hsound
  have hnode := hsound.1.1.1
  rw [Table.given?_eq_some_iff.2 ⟨hsource, hnull⟩] at hnode
  cases value with
  | obj table => exact ⟨table, rfl⟩
  | _ => cases hnode

theorem exists_list (h : Sourced isSound node) {combinator : Combinator}
    {value : Json} (hgiven : node.given? combinator.key = some value) :
    ∃ elements, value = .arr elements := by
  obtain ⟨hget, hnull⟩ := Table.given?_eq_some_iff.1 hgiven
  obtain ⟨⟨source, hsound, hsource⟩, _⟩ := h _ _ hget
  simp only [isSound, isShaped, Bool.and_eq_true, List.all_eq_true] at hsound
  have hlist := hsound.1.1.2 combinator (by cases combinator <;> decide)
  rw [Table.given?_eq_some_iff.2 ⟨hsource, hnull⟩] at hlist
  cases value with
  | arr elements => exact ⟨elements, rfl⟩
  | _ => cases hlist

theorem mergeable (h : Sourced isSound node) : Entry.Mergeable node :=
  fun _ hgiven => h.exists_table hgiven

end Node.Sourced

theorem Node.reference_of_isSound {node : Node} (h : node.isSound = true)
    {reference : Json} (hget : node.get? "$ref" = some reference) :
    Reference.isShort reference = true ∧ reference.isWritable = true := by
  simp only [isSound, isShaped, Bool.and_eq_true] at h
  rw [hget] at h
  exact ⟨h.1.2, h.2⟩

theorem Path.exists_element? {α : Type} (elements : List α) {segment : String}
    (h : isShort segment = true) :
    ∃ found, element? elements segment = .ok found := by
  unfold element?
  split
  · next hindex =>
      rw [isShort, hindex] at h
      rw [if_pos (by simpa using h)]
      exact ⟨_, rfl⟩
  · exact ⟨none, rfl⟩

/-- The kind has no fault, and sound objects leave none open. -/
theorem Covers.isDeadEnd : Covers Cause.isDeadEnd Node.isSound Path.isShort where
  deadEnd _ h := h
  element elements _ hshort := by
    obtain ⟨found, hfound⟩ := Path.exists_element? elements hshort
    rw [hfound]
    exact .ok _
  parts hsound hget :=
    List.all_eq_true.1 (Node.reference_of_isSound hsound hget).1
  told hsound hget := by
    obtain ⟨text, htext⟩ :=
      (Json.exists_text_iff _).2 (Node.reference_of_isSound hsound hget).2
    rw [htext]
    exact .ok _
  listed hnode hgiven := by
    obtain ⟨elements, rfl⟩ := hnode.exists_list hgiven
    exact .ok _
  properties hnode hgiven hnone := by
    obtain ⟨table, rfl⟩ := hnode.exists_table hgiven
    cases hnone
  merge merged _ hmember := by
    rw [Entry.mergeProperties_eq hmember.mergeable.isTabular]
    exact .ok _

theorem Entry.properties_of_compile {document : Json} {node : Node}
    {isRequired : Bool} {entry : Entry} {conflict : Option Conflict}
    (h : compile document node isRequired = .ok (entry, conflict)) :
    entry.properties = (node.given? "properties").map .stated ∨
      ∃ pairs, entry.properties = some (.merged pairs) := by
  have hcompiled := Entry.compiled h
  by_cases hnil : entry.objects = []
  · exact .inl (hcompiled.stated hnil).2.1
  · obtain ⟨pairs, _, hproperties, _⟩ := hcompiled.merged hnil
    exact .inr ⟨pairs, hproperties⟩

end FormSchema
