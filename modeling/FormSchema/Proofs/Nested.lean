import Mathlib.Data.Finset.Card
import Mathlib.Data.Nat.Find
import FormSchema.Proofs.Descent
import FormSchema.Proofs.Flags
import FormSchema.Proofs.Initial
import FormSchema.Proofs.Positions

/-!
# Arrays nested within arrays

Whether the first items of an array are arrays again, however deep, shows within as
many levels as the document has values.  An item is one of these values, so that
below that depth one of them has come twice.  What follows an item depends on the
item alone: from there on everything repeats.
-/

namespace FormSchema

theorem exists_repeat {α : Type} {values : List α} {answers : Nat → α → Prop}
    (h : ∀ place ≤ values.length, ∃ value ∈ values, answers place value) :
    ∃ first second value, first < second ∧ second ≤ values.length ∧
      answers first value ∧ answers second value := by
  classical
  obtain ⟨some, _, _⟩ := h 0 (Nat.zero_le _)
  have hnonempty : Nonempty α := ⟨some⟩
  choose! value hmem hanswers using h
  have hcard : values.toFinset.card < (Finset.range (values.length + 1)).card := by
    rw [Finset.card_range]
    exact Nat.lt_succ_of_le (List.toFinset_card_le values)
  have hmaps : ∀ place ∈ Finset.range (values.length + 1),
      value place ∈ values.toFinset := by
    intro place hplace
    rw [List.mem_toFinset]
    exact hmem place (Nat.lt_succ_iff.1 (Finset.mem_range.1 hplace))
  obtain ⟨first, hfirst, second, hsecond, hne, heq⟩ :=
    Finset.exists_ne_map_eq_of_card_lt_of_maps_to hcard hmaps
  rw [Finset.mem_range, Nat.lt_succ_iff] at hfirst hsecond
  rcases Nat.lt_or_gt_of_ne hne with hlt | hlt
  · exact ⟨first, second, value first, hlt, hsecond, hanswers first hfirst,
      heq ▸ hanswers second hsecond⟩
  · exact ⟨second, first, value first, hlt, hfirst, heq ▸ hanswers second hsecond,
      hanswers first hfirst⟩

namespace Json

/-! ## The values within a value -/

mutual

def values : Json → List Json
  | arr elements => arr elements :: valuesOfElements elements
  | obj fields => obj fields :: valuesOfFields fields
  | other => [other]

def valuesOfElements : List Json → List Json
  | [] => []
  | element :: elements => values element ++ valuesOfElements elements

def valuesOfFields : List (String × Json) → List Json
  | [] => []
  | (_, value) :: fields => values value ++ valuesOfFields fields

end

mutual

theorem length_values : ∀ value : Json, (values value).length = size value
  | null | bool _ | int _ | real _ | str _ => rfl
  | arr elements => congrArg (· + 1) (length_valuesOfElements elements)
  | obj fields => congrArg (· + 1) (length_valuesOfFields fields)

theorem length_valuesOfElements :
    ∀ elements : List Json, (valuesOfElements elements).length = sizeElements elements
  | [] => rfl
  | element :: elements => by
      rw [valuesOfElements, sizeElements, List.length_append, length_values element,
        length_valuesOfElements elements]

theorem length_valuesOfFields :
    ∀ fields : List (String × Json), (valuesOfFields fields).length = sizeFields fields
  | [] => rfl
  | (_, value) :: fields => by
      rw [valuesOfFields, sizeFields, List.length_append, length_values value,
        length_valuesOfFields fields]

end

theorem mem_values (value : Json) : value ∈ value.values := by
  cases value <;> simp [values]

theorem values_subset_of_mem {elements : List Json} {element : Json}
    (h : element ∈ elements) : element.values ⊆ valuesOfElements elements := by
  induction elements with
  | nil => cases h
  | cons first elements ih =>
      rw [valuesOfElements]
      rcases List.mem_cons.1 h with rfl | h
      · exact List.subset_append_left _ _
      · exact List.Subset.trans (ih h) (List.subset_append_right _ _)

theorem values_subset_of_get? {fields : Node} {key : String} {value : Json}
    (h : fields.get? key = some value) : value.values ⊆ valuesOfFields fields := by
  have hmem := Table.mem_of_get? h
  clear h
  induction fields with
  | nil => cases hmem
  | cons field fields ih =>
      obtain ⟨name, first⟩ := field
      rw [valuesOfFields]
      rcases List.mem_cons.1 hmem with heq | hmem
      · cases heq
        exact List.subset_append_left _ _
      · exact List.Subset.trans (ih hmem) (List.subset_append_right _ _)

variable {check : Node → Bool} {all : List Json}

mutual

theorem everyNode_of_values
    (h : ∀ fields : Node, (obj fields).values ⊆ all → check fields = true) :
    ∀ value : Json, value.values ⊆ all → everyNode check value = true
  | null, _ | bool _, _ | int _, _ | real _, _ | str _, _ => rfl
  | arr elements, hsub =>
      everyNodeOfElements_of_values h elements (List.subset_of_cons_subset hsub)
  | obj fields, hsub =>
      Bool.and_eq_true_iff.2 ⟨h fields hsub,
        everyNodeOfFields_of_values h fields (List.subset_of_cons_subset hsub)⟩

theorem everyNodeOfElements_of_values
    (h : ∀ fields : Node, (obj fields).values ⊆ all → check fields = true) :
    ∀ elements : List Json, valuesOfElements elements ⊆ all →
      everyNodeOfElements check elements = true
  | [], _ => rfl
  | element :: elements, hsub =>
      Bool.and_eq_true_iff.2
        ⟨everyNode_of_values h element (List.append_subset.1 hsub).1,
          everyNodeOfElements_of_values h elements (List.append_subset.1 hsub).2⟩

theorem everyNodeOfFields_of_values
    (h : ∀ fields : Node, (obj fields).values ⊆ all → check fields = true) :
    ∀ fields : List (String × Json), valuesOfFields fields ⊆ all →
      everyNodeOfFields check fields = true
  | [], _ => rfl
  | (_, value) :: fields, hsub =>
      Bool.and_eq_true_iff.2
        ⟨everyNode_of_values h value (List.append_subset.1 hsub).1,
          everyNodeOfFields_of_values h fields (List.append_subset.1 hsub).2⟩

end

end Json

/-! ## Items that come again -/

namespace Node

def HasItemsIn (values : List Json) (node : Node) : Prop :=
  ∀ value, node.Item value → value ∈ values

variable {document : Json} {node : Node} {segment : String} {found : Json}

theorem hasItemsIn_values (node : Node) : node.HasItemsIn (Json.obj node).values := by
  intro value hitem
  apply List.mem_cons_of_mem
  cases hitem with
  | all hstated => exact Json.values_subset_of_get? hstated value.mem_values
  | position hstated hfound =>
      apply Json.values_subset_of_get? hstated
      exact List.mem_cons_of_mem _
        (Json.values_subset_of_mem hfound value.mem_values)

section

open Classical

theorem everyNode_hasItemsIn (document : Json) :
    document.everyNode (fun node => decide (node.HasItemsIn document.values)) = true := by
  refine Json.everyNode_of_values (fun fields hsub => decide_eq_true ?_) document
    (List.Subset.refl _)
  exact fun value hitem => hsub (hasItemsIn_values fields value hitem)

theorem Sourced.hasItemsIn {values : List Json}
    (h : node.Sourced fun source => decide (source.HasItemsIn values)) :
    node.HasItemsIn values := by
  intro value hitem
  cases hitem with
  | all hstated =>
      obtain ⟨⟨source, hcheck, hsource⟩, _⟩ := h _ _ hstated
      exact of_decide_eq_true hcheck _ (.all hsource)
  | position hstated hfound =>
      obtain ⟨⟨source, hcheck, hsource⟩, _⟩ := h _ _ hstated
      exact of_decide_eq_true hcheck _ (.position hsource hfound)

end

theorem item_of_descend (hposition : IsPosition segment)
    (h : descend document node segment = .ok (some found)) : node.Item found := by
  unfold descend at h
  rw [if_pos hposition.tested] at h
  split at h
  · exact item_of_item? h
  · cases h

end Node

namespace Form

variable {form : Form} {document : Node} {validator : Json} {path : List String}
  {first second : List String} {found : Json}

theorem hasItemsIn_of_along {stop : Stop}
    (hopen : Form.open document validator = .ok form)
    (hstop : (Stop.start form.root).along (.obj form.document) path = .ok stop) :
    stop.node.HasItemsIn (Json.obj form.document).values := by
  obtain rfl : form.document = document := document_of_open hopen
  have hdocument := Node.everyNode_hasItemsIn (.obj form.document)
  have hroot := sourced_of_open hopen hdocument
  exact (Stop.sourced_of_along hdocument hroot hstop).hasItemsIn

/-- This is the item that the first position of the field at a path leads to. -/
def LeadsOn (form : Form) (path : List String) (found : Json) : Prop :=
  ∃ stop, (Stop.start form.root).along (.obj form.document) path = .ok stop ∧
    Node.descend (.obj form.document) stop.node "0" = .ok (some found)

theorem exists_leadsOn_of_bare (hopen : Form.open document validator = .ok form)
    (h : form.Bare (path ++ ["0"])) :
    ∃ found ∈ (Json.obj form.document).values, form.LeadsOn path found := by
  obtain ⟨next, hnext, _⟩ := bare_iff.1 h
  obtain ⟨stop, hstop, hstep⟩ := Stop.exists_along_of_snoc (stopAt_eq_ok_iff.1 hnext)
  obtain ⟨_, _, hchild, _⟩ := Stop.step_eq_ok_iff.1 hstep
  obtain ⟨found, hdescend, _⟩ := Node.child_eq_ok_iff.1 hchild
  have hitem := Node.item_of_descend (.inr (by decide)) hdescend
  exact ⟨found, hasItemsIn_of_along hopen hstop found hitem, stop, hstop, hdescend⟩

theorem Bare.of_unflagged (h : form.Bare first)
    (hsame : ((Stop.start form.root).along (.obj form.document) first).map
        Stop.unflagged =
      ((Stop.start form.root).along (.obj form.document) second).map
        Stop.unflagged) : form.Bare second := by
  obtain ⟨stop, hstop, htype, hdefault⟩ := bare_iff.1 h
  obtain ⟨other, hother, hnode, hsametype⟩ :=
    Stop.exists_of_map_unflagged hsame (stopAt_eq_ok_iff.1 hstop)
  exact bare_iff.2 ⟨other, stopAt_eq_ok_iff.2 hother, hsametype ▸ htype,
    hnode ▸ hdefault⟩

theorem Bare.of_leadsOn {depth : Nat}
    (h : form.Bare (Path.firstBelow first (depth + 1)))
    (hfirst : form.LeadsOn first found) (hsecond : form.LeadsOn second found) :
    form.Bare (Path.firstBelow second (depth + 1)) := by
  obtain ⟨stop, hstop, hdescend⟩ := hfirst
  obtain ⟨other, hother, hagain⟩ := hsecond
  have hchild : Node.child (.obj form.document) stop.node "0" =
      Node.child (.obj form.document) other.node "0" := by
    rw [Node.child, Node.child, hdescend, hagain]
  refine h.of_unflagged ?_
  rw [Path.firstBelow, Path.firstBelow, List.replicate_succ, Stop.along_append,
    Stop.along_append, hstop, hother, ok_bind, ok_bind, Stop.along_cons,
    Stop.along_cons]
  exact Stop.map_unflagged_along (Stop.map_unflagged_step hchild) _

/-- Nesting that goes on for as many levels as the document has values has no end. -/
theorem endless_of_bare (hopen : Form.open document validator = .ok form)
    (h : ∀ depth ≤ (Json.obj form.document).size + 1,
      form.Bare (Path.firstBelow path depth)) : form.Endless path := by
  have hitems : ∀ depth ≤ (Json.obj form.document).values.length,
      ∃ found ∈ (Json.obj form.document).values,
        form.LeadsOn (Path.firstBelow path depth) found := by
    intro depth hdepth
    rw [Json.length_values] at hdepth
    have hbare := h (depth + 1) (Nat.succ_le_succ hdepth)
    rw [Path.firstBelow_add] at hbare
    exact exists_leadsOn_of_bare hopen hbare
  obtain ⟨first, second, found, hlt, hle, hfirst, hsecond⟩ := exists_repeat hitems
  rw [Json.length_values] at hle
  intro depth
  induction depth using Nat.strong_induction_on with
  | _ depth ih =>
      by_cases hshallow : depth ≤ (Json.obj form.document).size + 1
      · exact h depth hshallow
      · -- as deep below the second of the two items as the depth is
        obtain ⟨below, rfl⟩ : ∃ below, depth = second + (below + 1) :=
          ⟨depth - second - 1, by omega⟩
        have habove := ih (first + (below + 1)) (by omega)
        rw [Path.firstBelow_add] at habove ⊢
        exact habove.of_leadsOn hfirst hsecond

theorem exists_end_of_not_endless (hopen : Form.open document validator = .ok form)
    (hbare : form.Bare path) (h : ¬form.Endless path) :
    ∃ depth ≤ (Json.obj form.document).size,
      (∀ above ≤ depth, form.Bare (Path.firstBelow path above)) ∧
      ¬form.Bare (Path.firstBelow path (depth + 1)) := by
  classical
  have hexists : ∃ depth, ¬form.Bare (Path.firstBelow path depth) := not_forall.1 h
  have hmin : ∀ above < Nat.find hexists, form.Bare (Path.firstBelow path above) :=
    fun above habove => Decidable.not_not.1 (Nat.find_min hexists habove)
  have hend := Nat.find_spec hexists
  obtain ⟨depth, hdepth⟩ : ∃ depth, Nat.find hexists = depth + 1 := by
    refine Nat.exists_eq_succ_of_ne_zero fun hzero => ?_
    rw [hzero, Path.firstBelow_zero] at hend
    exact hend hbare
  rw [hdepth] at hmin hend
  refine ⟨depth, ?_, fun above habove => hmin above (Nat.lt_succ_of_le habove), hend⟩
  by_contra hdeep
  exact h (endless_of_bare hopen fun above habove => hmin above (by omega))

variable {name : Spelling} {given : Node}

theorem reply_initial_of_endless (hname : name.path = .ok path)
    (hunset : form.Unset path) (h : form.Endless path) (calls : List Call) :
    form.reply calls (.initial name given) = .error ⟨.fault .endless, none⟩ := by
  rw [reply_initial, hname, ok_bind, initialAt_of_endless hunset h]
  rfl

/-- An array without a default, of which no items are wanted, starts empty where the
walk to the first item below it that is no such array arrives.  Where that walk fails
there is its failure instead. -/
theorem reply_initial_of_bare (hopen : Form.open document validator = .ok form)
    (hname : name.path = .ok path) (hbare : form.Bare path)
    (hunset : form.Unset path) (hends : ¬form.Endless path)
    (hcount : given.get? "initialCount" = none) :
    ∃ depth,
      (∀ above ≤ depth, form.Bare (Path.firstBelow path above)) ∧
      ¬form.Bare (Path.firstBelow path (depth + 1)) ∧
      ∀ calls, form.reply calls (.initial name given) =
        (form.reply calls
          (.field (.listed (Path.firstBelow path (depth + 1))))).map
            fun _ => .initial (.arr []) := by
  obtain ⟨depth, hdepth, habove, hend⟩ := exists_end_of_not_endless hopen hbare hends
  refine ⟨depth, habove, hend, fun calls => ?_⟩
  obtain ⟨more, hmore⟩ := Nat.exists_eq_add_of_le' hdepth
  rw [reply_initial, hname, ok_bind, hcount, hmore,
    initialAt_of_bare_until hunset habove hend rfl, reply_field]
  change _ = (form.nodeAt (Path.firstBelow path (depth + 1)) >>= _).map _
  cases form.nodeAt (Path.firstBelow path (depth + 1)) <;> rfl

end Form

def tabulated : Node :=
  [("type", .str "object"),
   ("properties", .obj
     [("rows", .obj [("type", .str "array"),
        ("items", .obj [("type", .str "array"),
          ("items", .obj [("type", .str "string")])])]),
      ("tags", .obj [("type", .str "array")])])]

def tabulatedForm : Form := ⟨tabulated, tabulated, .null⟩

theorem open_tabulated : Form.open tabulated .null = .ok tabulatedForm := rfl

theorem unset_tabulated (path : List String) : tabulatedForm.Unset path := nofun

theorem rows_start_empty :
    tabulatedForm.reply [] (.initial (.listed ["rows"]) []) =
      .ok (.initial (.arr [])) := by
  have hname : (Spelling.listed ["rows"]).path = .ok ["rows"] := rfl
  have hcount : Table.get? ([] : Node) "initialCount" = none := rfl
  have hrows : tabulatedForm.Bare ["rows"] := ⟨_, _, rfl, rfl, rfl, rfl⟩
  have hrow : tabulatedForm.Bare ["rows", "0"] := ⟨_, _, rfl, rfl, rfl, rfl⟩
  have htext : ¬tabulatedForm.Bare ["rows", "0", "0"] := by
    rintro ⟨_, _, hfield, hentry, htype, _⟩
    cases hfield
    cases hentry
    cases htype
  have hends : ¬tabulatedForm.Endless ["rows"] := fun hendless => htext (hendless 2)
  obtain ⟨depth, habove, hend, hreply⟩ :=
    Form.reply_initial_of_bare open_tabulated hname hrows (unset_tabulated _) hends
      hcount
  obtain rfl : depth = 1 := by
    have hdeep : ¬2 ≤ depth := fun hdeep => htext (habove 2 hdeep)
    have hshallow : depth ≠ 0 := by
      rintro rfl
      exact hend hrow
    omega
  exact hreply []

/-- No item is wanted, and yet the one that nothing is said of is missed. -/
theorem tags_start_with_failure :
    ¬ ∀ (document : Node) (validator : Json) (form : Form) (calls : List Call)
        (name : Spelling) (path : List String) (given : Node),
      Form.open document validator = .ok form → name.path = .ok path →
      form.Bare path → form.Unset path → ¬form.Endless path →
      given.get? "initialCount" = none →
      form.reply calls (.initial name given) = .ok (.initial (.arr [])) := by
  intro h
  have htags : tabulatedForm.Bare ["tags"] := ⟨_, _, rfl, rfl, rfl, rfl⟩
  have hends : ¬tabulatedForm.Endless ["tags"] := by
    intro hendless
    obtain ⟨_, _, hfield, _⟩ := hendless 1
    cases hfield
  have hreply := h tabulated .null tabulatedForm [] (.listed ["tags"]) ["tags"] []
    open_tabulated rfl htags (unset_tabulated _) hends rfl
  cases hreply

end FormSchema
