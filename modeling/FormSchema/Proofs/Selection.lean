import FormSchema.Proofs.Numerals
import FormSchema.Proofs.Positions

/-!
# Positions that segments select

A list is entered at three places: by a part of a reference, by a segment that goes to
an item of an array, and by a segment that goes down into data.  Each of them reads an
index segment as a number and takes the element at that position.  Since the number
tells its numeral, a position is selected by one segment only.
-/

namespace FormSchema

inductive Selection where
  | reference
  /-- Any node, once it is an array with a list of items. -/
  | items (document : Json) (node : Node)
  | data

namespace Selection

def listing (node : Node) (elements : List Json) : Node :=
  Table.insert (Table.insert node "type" (.str "array")) "items" (.arr elements)

def select (elements : List Json) (segment : String) :
    Selection → Except Cause (Option Json)
  | reference => Fault.orOk ((Json.arr elements).step segment)
  | items document node => Node.descend document (listing node elements) segment
  | data => Fault.orOk ((Json.arr elements).lookup [segment])

def counts : Selection → Json → Bool
  | items _ _, value => !value.isNull
  | _, _ => true

/-- Whatever is listed, the segment leads to what is listed at this position. -/
def Selects (place : Selection) (segment : String) (position : Nat) : Prop :=
  ∀ elements : List Json,
    place.select elements segment = .ok (elements[position]?.filter place.counts)

section

variable (node : Node) (elements others : List Json)

theorem declares_listing : Node.declares (listing node elements) "array" = true := by
  simp [Node.declares, listing, Table.get?_insert, Json.isText]

theorem get?_items_listing :
    Table.get? (listing node elements) "items" = some (.arr elements) := by
  simp [listing, Table.get?_insert]

theorem get?_listing {key : String} (h : key ≠ "items") :
    Table.get? (listing node elements) key = Table.get? (listing node others) key := by
  simp [listing, Table.get?_insert, Ne.symm h]

theorem searchCombinators_listing (document : Json) (name : String)
    (combinators : List Combinator) :
    Node.searchCombinators document (listing node elements) name combinators =
      Node.searchCombinators document (listing node others) name combinators := by
  induction combinators with
  | nil => rfl
  | cons combinator rest ih =>
      have hkey : combinator.key ≠ "items" := by cases combinator <;> decide
      simp only [Node.searchCombinators, Node.searched,
        get?_listing node elements others hkey, ih]

end

variable {place : Selection} {segment : String} {position : Nat}
  {elements : List Json}

theorem given?_items_listing (node : Node) (elements : List Json) :
    Table.given? (listing node elements) "items" = some (.arr elements) := by
  simp [Table.given?, get?_items_listing, Json.isNull]

theorem select_of_isIndex (h : Path.isIndex segment = true) :
    place.select elements segment =
      (Fault.orOk (Path.element? elements segment)).map (·.filter place.counts) := by
  cases place with
  | reference =>
      simp only [select, Json.step]
      rcases Path.element? elements segment with _ | _ | _ <;> rfl
  | data =>
      simp only [select, Json.lookup, Json.step]
      rcases Path.element? elements segment with _ | _ | _ <;> rfl
  | items document node =>
      have hwildcard : segment ≠ Node.wildcard := by
        rintro rfl
        revert h
        decide
      rw [select, Node.descend_of_array (declares_listing node elements) (.inr h)]
      simp only [Node.item?, given?_items_listing, if_neg hwildcard]
      rcases Path.element? elements segment with _ | _ <;> rfl

theorem select_of_not_isIndex (h : Path.isIndex segment = false)
    (elements others : List Json) :
    place.select elements segment = place.select others segment := by
  cases place with
  | reference => simp [select, Json.step, Path.element?, h]
  | data => simp [select, Json.lookup, Json.step, Path.element?, h]
  | items document node =>
      have hshape : ∀ elements, (listing node elements).shape = .array :=
        fun elements => Node.shape_of_declares_array (declares_listing node elements)
      have hsearch := searchCombinators_listing node elements others document segment
      by_cases hwildcard : segment = Node.wildcard
      · simp [select, Node.descend, Node.item?, given?_items_listing, hshape, hwildcard]
      · simp [select, Node.descend, hshape, hwildcard, h, hsearch Combinator.all]

theorem eq_of_getElem?_mark {index : Nat}
    (h : (List.replicate position (Json.bool false) ++ [.bool true])[index]? =
      some (.bool true)) : index = position := by
  rw [List.getElem?_append] at h
  split at h
  · simp [List.getElem?_replicate] at h
  · next hle =>
      rw [List.length_replicate] at hle h
      have := (List.getElem?_eq_some_iff.1 h).1
      simp only [List.length_singleton] at this
      omega

theorem selects_iff (place : Selection) (segment : String) (position : Nat) :
    place.Selects segment position ↔
      segment = toString position ∧ segment.length ≤ Text.maxDigits := by
  constructor
  · intro h
    have hmark := h (List.replicate position (.bool false) ++ [.bool true])
    have hcounts : place.counts (.bool true) = true := by cases place <;> rfl
    have hlisted : ((List.replicate position (Json.bool false) ++
        [.bool true])[position]?.filter place.counts) = some (.bool true) := by
      simp [hcounts]
    rw [hlisted] at hmark
    cases hindex : Path.isIndex segment with
    | false =>
        rw [select_of_not_isIndex hindex _ [], h []] at hmark
        simp at hmark
    | true =>
        rw [select_of_isIndex hindex, Path.element?, if_pos hindex] at hmark
        split at hmark
        · next hlength =>
            obtain ⟨found, hfound, hfilter⟩ := map_eq_ok_iff.1 hmark
            cases hfound
            have hvalue := eq_of_getElem?_mark (Option.filter_eq_some_iff.1 hfilter).1
            rw [← hvalue, Path.toString_indexValue hindex]
            exact ⟨rfl, hlength⟩
        · cases hmark
  · rintro ⟨rfl, hlength⟩ elements
    have hindex := Path.isIndex_toString position
    rw [select_of_isIndex hindex, Path.element?, if_pos hindex, if_pos hlength,
      Path.indexValue_toString]
    rfl

/-- The index segments are the numerals of the natural numbers, and each is the numeral
of the number that is read from it.  Wherever a list is entered, a segment selects a
position if and only if it is the numeral of that position and not too long to be read,
so that no two segments select the same one. -/
theorem position_selected_by_numeral :
    (∀ segment, Path.isIndex segment = true ↔
      ∃ value : Nat, segment = toString value) ∧
    (∀ segment, Path.isIndex segment = true ↔
      toString (Path.indexValue segment) = segment) ∧
    ∀ (place : Selection) (position : Nat),
      (∀ segment, place.Selects segment position ↔
        segment = toString position ∧ segment.length ≤ Text.maxDigits) ∧
      ∀ first second, place.Selects first position → place.Selects second position →
        first = second := by
  refine ⟨fun _ => Path.isIndex_iff_exists_toString, fun segment => ?_,
    fun place position => ⟨fun segment => selects_iff place segment position, ?_⟩⟩
  · constructor
    · exact Path.toString_indexValue
    · intro h
      rw [← h]
      exact Path.isIndex_toString _
  · intro first second hfirst hsecond
    rw [selects_iff] at hfirst hsecond
    rw [hfirst.1, hsecond.1]

theorem tenth_selected :
    Path.isIndex "10" = true ∧ Selects .data "10" 10 ∧ ¬Selects .data "010" 10 ∧
      Path.isIndex "1⁰" = false := by
  obtain ⟨hnumeral, -, hselects⟩ := position_selected_by_numeral
  have hten : Selects .data "10" 10 := ((hselects .data 10).1 "10").2 (by decide)
  refine ⟨(hnumeral "10").2 ⟨10, by decide⟩, hten, fun h => ?_, by decide⟩
  have hsame : "10" = "010" := (hselects .data 10).2 "10" "010" hten h
  exact absurd hsame (by decide)

end Selection

end FormSchema
