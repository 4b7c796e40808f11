import FormSchema.Proofs.Descent

/-!
# What a walk can fail for

A walk fails where a path leads nowhere, and where a value is put to a use that
its kind does not allow.  The faults are those of a few uses: a segment selects
an element, a reference is told, a combinator is listed, properties are taken for a
table or merged.
Once these are covered by a kind of causes, no part of a walk fails for a cause
of another kind.  A check that the objects of the document pass can rule faults
out, so the kind is covered relative to it.
-/

namespace FormSchema

/-- The causes for which a path leads nowhere. -/
def Cause.isDeadEnd : Cause → Bool
  | externalReference _ | danglingReference _ | notAnArray _ | noProperties
  | fieldNotFound => true
  | _ => false

/-- An outcome that fails for no cause but those of one kind. -/
def Blames {ε α : Type} (kind : ε → Bool) (outcome : Except ε α) : Prop :=
  ∀ cause, outcome = .error cause → kind cause = true

namespace Blames

variable {ε α β : Type} {kind : ε → Bool}

theorem ok (value : α) : Blames kind (.ok value) := nofun

theorem error {cause : ε} (h : kind cause = true) :
    Blames kind (.error cause : Except ε α) := by
  rintro _ ⟨⟩
  exact h

theorem bind {first : Except ε α} {next : α → Except ε β}
    (hfirst : Blames kind first)
    (hnext : ∀ value, first = .ok value → Blames kind (next value)) :
    Blames kind (first >>= next) := by
  intro cause h
  rcases bind_eq_error_iff.1 h with hfail | ⟨value, hvalue, hfail⟩
  · exact hfirst cause hfail
  · exact hnext value hvalue cause hfail

theorem mapM {f : α → Except ε β} {values : List α}
    (hf : ∀ value ∈ values, Blames kind (f value)) :
    Blames kind (values.mapM f) := by
  induction values with
  | nil => exact ok _
  | cons value values ih =>
      have hrest := ih fun other hother => hf other (by simp [hother])
      rw [List.mapM_cons]
      exact bind (hf value (by simp)) fun _ _ => bind hrest fun _ _ => ok _

theorem foldlM {f : β → α → Except ε β} {values : List α}
    (hf : ∀ value ∈ values, ∀ state, Blames kind (f state value)) (state : β) :
    Blames kind (values.foldlM f state) := by
  induction values generalizing state with
  | nil => exact ok _
  | cons value values ih =>
      rw [List.foldlM_cons]
      exact bind (hf value (by simp) state) fun next _ =>
        ih (fun other hother => hf other (by simp [hother])) next

theorem mono {other : ε → Bool} {outcome : Except ε α}
    (h : Blames kind outcome)
    (hkind : ∀ cause, kind cause = true → other cause = true) :
    Blames other outcome :=
  fun cause hcause => hkind cause (h cause hcause)

theorem ite {condition : Prop} [Decidable condition] {first second : Except ε α}
    (hfirst : Blames kind first) (hsecond : Blames kind second) :
    Blames kind (if condition then first else second) := by
  split
  · exact hfirst
  · exact hsecond

theorem map {outcome : Except ε α} (h : Blames kind outcome) (f : α → β) :
    Blames kind (outcome.map f) := by
  cases outcome with
  | ok value => exact .ok _
  | error cause => exact .error (h cause rfl)

theorem orOk {kind : Cause → Bool} {outcome : Except Fault α}
    (h : Blames (kind ∘ Cause.fault) outcome) : Blames kind (Fault.orOk outcome) := by
  cases outcome with
  | ok value => exact ok _
  | error misuse => exact error (h misuse rfl)

end Blames

/-- The kind has the causes for which a path leads nowhere, and the faults of all
uses of fields whose objects pass the check and of segments that are legible. -/
structure Covers (kind : Cause → Bool) (check : Node → Bool)
    (legible : String → Bool) : Prop where
  deadEnd : ∀ cause, cause.isDeadEnd = true → kind cause = true
  element : ∀ {α : Type} (elements : List α) {segment : String},
    legible segment = true →
      Blames (kind ∘ Cause.fault) (Path.element? elements segment)
  parts : ∀ {node : Node} {reference : String}, check node = true →
    node.get? "$ref" = some (.str reference) →
      ∀ part ∈ Reference.parts reference.toList, legible part = true
  told : ∀ {node : Node} {reference : Json}, check node = true →
    node.get? "$ref" = some reference →
      Blames (kind ∘ Cause.fault) reference.text
  listed : ∀ {node : Node} {combinator : Combinator} {value : Json},
    node.Sourced check → node.given? combinator.key = some value →
      Blames (kind ∘ Cause.fault) value.members
  properties : ∀ {node : Node} {value : Json}, node.Sourced check →
    node.given? "properties" = some value → value.node? = none →
      kind (.fault .notAnObject) = true
  merge : ∀ (merged : Pairs) {member : Node}, member.Sourced check →
    Blames (kind ∘ Cause.fault) (Entry.mergeProperties merged member)

/-! ## The parts of a walk -/

section

variable {kind : Cause → Bool} {check : Node → Bool} {legible : String → Bool}
  {document : Json} {node : Node}

theorem Json.step_blames (h : Covers kind check legible) (value : Json)
    {segment : String} (hsegment : legible segment = true) :
    Blames (kind ∘ Cause.fault) (value.step segment) := by
  unfold Json.step
  split
  · exact .ok _
  · exact h.element _ hsegment
  · exact .ok _

namespace Reference

theorem follow_blames (h : Covers kind check legible) (reference : String)
    (node : Json) {parts : List String}
    (hparts : ∀ part ∈ parts, legible part = true) :
    Blames kind (follow reference node parts) := by
  induction parts generalizing node with
  | nil => exact .ok _
  | cons part rest ih =>
      have hstep := Json.step_blames h node (hparts part (by simp))
      have hrest := fun next => ih next fun other hother =>
        hparts other (by simp [hother])
      unfold follow
      cases hfound : node.step part with
      | error misuse => exact .error (hstep misuse hfound)
      | ok found =>
          cases found with
          | none => exact .error (h.deadEnd _ rfl)
          | some next =>
              cases next with
              | null => exact .error (h.deadEnd _ rfl)
              | _ => exact hrest _

theorem resolve_blames (h : Covers kind check legible) (document : Json)
    {reference : Json} (htold : Blames (kind ∘ Cause.fault) reference.text)
    (hparts : ∀ text, reference = .str text →
      ∀ part ∈ parts text.toList, legible part = true) :
    Blames kind (resolve document reference) := by
  unfold resolve
  split
  · next text =>
      split
      · exact follow_blames h _ _ (hparts text rfl)
      · exact .error (h.deadEnd _ rfl)
  · exact .bind (.orOk htold) fun _ _ => .error (h.deadEnd _ rfl)

theorem dereference_blames (h : Covers kind check legible) (document : Json)
    {value : Json} (hvalue : value.everyNode check = true) :
    Blames kind (dereference document value) := by
  unfold dereference
  split
  · split
    · exact .ok _
    · next reference hget =>
        have hcheck := Json.check_of_everyNode hvalue
        refine .bind (resolve_blames h document (h.told hcheck hget) ?_) fun _ _ =>
          .ok _
        rintro text rfl
        exact h.parts hcheck hget
  · exact .ok _

end Reference

namespace Entry

theorem members_blames (h : Covers kind check legible) (hnode : node.Sourced check)
    (combinator : Combinator) : Blames kind (members document node combinator) := by
  unfold members
  split
  · exact .ok _
  · next value hgiven =>
      apply Blames.bind (.orOk (h.listed hnode hgiven))
      intro raw hraw
      refine .bind (.mapM fun member hmember => ?_) fun _ _ => .ok _
      have hstated := (Table.given?_eq_some_iff.1 hgiven).1
      have hlisted := Fault.orOk_eq_ok_iff.1 hraw
      exact Reference.dereference_blames h document
        (hnode.everyNode_of_part (.member hstated hlisted hmember))

theorem compile_blames (h : Covers kind check legible)
    (hdocument : document.everyNode check = true) (hnode : node.Sourced check)
    (isRequired : Bool) : Blames kind (compile document node isRequired) := by
  apply Blames.bind (members_blames h hnode .allOf)
  intro allOf hallOf
  apply Blames.bind (members_blames h hnode .anyOf)
  intro anyOf hanyOf
  apply Blames.bind (members_blames h hnode .oneOf)
  intro oneOf honeOf
  have hsourced : ∀ member ∈ (allOf.getD [] ++ anyOf.getD [] ++
      oneOf.getD []).filterMap Json.node?, member.Sourced check := by
    intro member hmember
    obtain ⟨target, htarget, hobj⟩ := List.mem_filterMap.1 hmember
    cases target with
    | obj fields =>
        cases hobj
        rw [List.mem_append, List.mem_append] at htarget
        rcases htarget with (htarget | htarget) | htarget
        · exact .of_members hdocument hnode hallOf htarget
        · exact .of_members hdocument hnode hanyOf htarget
        · exact .of_members hdocument hnode honeOf htarget
    | _ => cases hobj
  dsimp only
  split
  · exact .ok _
  · refine .bind (.orOk (.foldlM (fun member hmember merged => ?_) [])) fun _ _ =>
      .ok _
    exact h.merge merged (hsourced member hmember)

end Entry

namespace Node

theorem searchMembers_blames (h : Covers kind check legible) (name : String)
    {members : List Json}
    (hmembers : ∀ member ∈ members, member.everyNode check = true) :
    Blames kind (searchMembers document name members) := by
  induction members with
  | nil => exact .ok _
  | cons member rest ih =>
      apply Blames.bind
        (Reference.dereference_blames h document (hmembers member (by simp)))
      intro target _
      split
      · exact .ok _
      · exact ih fun other hother => hmembers other (by simp [hother])

theorem searched_blames (h : Covers kind check legible) (hnode : Sourced check node)
    (combinator : Combinator) : Blames kind (searched node combinator) := by
  unfold searched
  split
  · next value hvalue =>
      split
      · next htruthy =>
          have hnull : value.isNull = false := by
            cases value with
            | null => cases htruthy
            | _ => rfl
          exact .orOk (h.listed hnode (Table.given?_eq_some_iff.2 ⟨hvalue, hnull⟩))
      · exact .ok _
  · exact .ok _

theorem searchCombinators_blames (h : Covers kind check legible)
    (hnode : Sourced check node) (name : String) (combinators : List Combinator) :
    Blames kind (searchCombinators document node name combinators) := by
  induction combinators with
  | nil => exact .ok _
  | cons combinator rest ih =>
      apply Blames.bind (searched_blames h hnode combinator)
      intro members hmembers
      apply Blames.bind
        (searchMembers_blames h name (everyNode_of_searched hnode hmembers))
      intro found _
      split
      · exact .ok _
      · exact ih

theorem item?_blames (h : Covers kind check legible) (node : Node)
    {segment : String} (hsegment : legible segment = true) :
    Blames kind (item? node segment) := by
  unfold item?
  split
  · split
    · exact .ok _
    · exact .bind (.orOk (h.element _ hsegment)) fun _ _ => .ok _
  · exact .ok _

theorem descend_blames (h : Covers kind check legible) (hnode : Sourced check node)
    {segment : String} (hsegment : legible segment = true) :
    Blames kind (descend document node segment) := by
  unfold descend
  split
  · split
    · exact item?_blames h node hsegment
    · exact .error (h.deadEnd _ rfl)
  · split
    · split
      · exact .error (h.deadEnd _ rfl)
      · exact .ok _
      · next value hother hgiven =>
          have hnone : value.node? = none := by
            cases value with
            | obj properties => exact absurd rfl (hother properties)
            | _ => rfl
          exact .error (h.properties hnode hgiven hnone)
    · exact searchCombinators_blames h hnode segment Combinator.all

theorem child_blames (h : Covers kind check legible)
    (hdocument : document.everyNode check = true) (hnode : Sourced check node)
    {segment : String} (hsegment : legible segment = true) :
    Blames kind (child document node segment) := by
  apply Blames.bind (descend_blames h hnode hsegment)
  intro found hfound
  split
  · exact .error (h.deadEnd _ rfl)
  · apply Blames.bind (Reference.dereference_blames h document
      (everyNode_of_descend hdocument hnode hfound))
    intro target _
    split
    · exact .ok _
    · exact .error (h.deadEnd _ rfl)

end Node

namespace Stop

variable {stop : Stop}

theorem step_blames (h : Covers kind check legible)
    (hdocument : document.everyNode check = true)
    (hnode : stop.node.Sourced check) {segment : String}
    (hsegment : legible segment = true) :
    Blames kind (stop.step document segment) := by
  apply Blames.bind (Node.child_blames h hdocument hnode hsegment)
  intro child hchild
  apply Blames.bind
    (Entry.compile_blames h hdocument (hnode.of_child hdocument hchild) _)
  intro _ _
  exact .ok _

theorem along_blames (h : Covers kind check legible)
    (hdocument : document.everyNode check = true)
    (hnode : stop.node.Sourced check) {path : List String}
    (hpath : ∀ segment ∈ path, legible segment = true) :
    Blames kind (stop.along document path) := by
  induction path generalizing stop with
  | nil => exact .ok _
  | cons segment rest ih =>
      rw [along_cons]
      apply Blames.bind (step_blames h hdocument hnode (hpath segment (by simp)))
      intro middle hstep
      exact ih (sourced_of_step hdocument hnode hstep)
        fun other hother => hpath other (by simp [hother])

end Stop

end

/-! ## Walks over any document -/

def Fault.inWalk : Fault → Bool
  | notAnObject | notIterable | notAPair | compositeKey | longNumeral => true
  | _ => false

def Cause.inWalk : Cause → Bool
  | externalReference _ | danglingReference _ | notAnArray _ | noProperties
  | fieldNotFound => true
  | unrepresentable | malformedPath _ => false
  | fault misuse => misuse.inWalk

namespace Json

theorem members_blames (value : Json) : Blames Fault.inWalk value.members := by
  cases value with
  | arr elements => exact .ok _
  | str text => exact .ok _
  | obj fields => exact .ok _
  | _ => exact .error rfl

mutual

theorem nestedText_blames : ∀ value : Json, Blames Fault.inWalk value.nestedText
  | null => .ok _
  | bool _ => .ok _
  | int _ => .ite (.ok _) (.error rfl)
  | real _ => .ok _
  | str _ => .ok _
  | arr elements => .bind (elementTexts_blames elements) fun _ _ => .ok _
  | obj fields => .bind (fieldTexts_blames fields) fun _ _ => .ok _

theorem elementTexts_blames : ∀ elements : List Json,
    Blames Fault.inWalk (elementTexts elements)
  | [] => .ok _
  | element :: elements =>
      .bind (nestedText_blames element) fun _ _ =>
        .bind (elementTexts_blames elements) fun _ _ => .ok _

theorem fieldTexts_blames : ∀ fields : List (String × Json),
    Blames Fault.inWalk (fieldTexts fields)
  | [] => .ok _
  | (_, value) :: fields =>
      .bind (nestedText_blames value) fun _ _ =>
        .bind (fieldTexts_blames fields) fun _ _ => .ok _

end

theorem text_blames (value : Json) : Blames Fault.inWalk value.text := by
  cases value with
  | str text => exact .ok _
  | _ => exact nestedText_blames _

end Json

theorem Path.element?_blames {α : Type} (elements : List α) (segment : String) :
    Blames Fault.inWalk (Path.element? elements segment) := by
  unfold Path.element?
  split
  · split
    · exact .ok _
    · exact .error rfl
  · exact .ok _

namespace Pairs

theorem pair_blames (member : Json) : Blames Fault.inWalk (pair member) := by
  apply Blames.bind member.members_blames
  intro parts _
  split
  · split
    · exact .ok _
    · exact .error rfl
  · exact .error rfl

theorem ofJson_blames (value : Json) : Blames Fault.inWalk (ofJson value) := by
  unfold ofJson
  split
  · exact .ok _
  · exact .bind (Json.members_blames _) fun _ _ =>
      .bind (.mapM fun member _ => pair_blames member) fun _ _ => .ok _

end Pairs

theorem Entry.mergeProperties_blames (merged : Pairs) (member : Node) :
    Blames Fault.inWalk (mergeProperties merged member) := by
  unfold mergeProperties
  split
  · exact .ok _
  · split
    · exact .bind (Pairs.ofJson_blames _) fun _ _ => .ok _
    · exact .ok _

theorem Covers.inWalk : Covers Cause.inWalk (fun _ => true) (fun _ => true) where
  deadEnd cause h := by
    cases cause with
    | fault misuse => cases h
    | _ => exact h
  element elements _ _ := Path.element?_blames elements _
  parts _ _ _ _ := rfl
  told _ _ := Json.text_blames _
  listed _ _ := Json.members_blames _
  properties _ _ _ := rfl
  merge merged _ _ := Entry.mergeProperties_blames merged _

theorem Stop.along_inWalk (document : Json) (stop : Stop) (path : List String) :
    Blames Cause.inWalk (stop.along document path) :=
  along_blames .inWalk (Json.everyNode_of_forall (fun _ => rfl) document)
    (.of_everyNode (Json.everyNode_of_forall (fun _ => rfl) (.obj stop.node)))
    fun _ _ => rfl

end FormSchema
