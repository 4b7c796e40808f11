import FormSchema.Proofs.Regular

/-!
# Nodes below sourced nodes

Where all objects of a document pass a check, the objects within every node that
a path leads to pass it too.  A child is held by its parent or by a member of a
combinator of the parent, and a reference leads to a part of the document.
-/

namespace FormSchema

namespace Node

variable {check : Node → Bool} {document : Json} {node : Node} {name : String}
  {found : Json}

theorem everyNode_of_property? {member : Json}
    (h : ∀ fields, member = .obj fields → Sourced check fields)
    (hfound : property? name member = some found) :
    found.everyNode check = true := by
  cases member with
  | obj fields =>
      rw [property?_obj] at hfound
      have hget := (Table.given?_eq_some_iff.1 hfound).1
      exact (h fields rfl).everyNode_of_part (.ofOwn hget)
  | _ => cases hfound

theorem everyNode_of_searchMembers {members : List Json}
    (hdocument : document.everyNode check = true)
    (hmembers : ∀ member ∈ members, member.everyNode check = true)
    (h : searchMembers document name members = .ok (some found)) :
    found.everyNode check = true := by
  induction members with
  | nil => cases h
  | cons member members ih =>
      obtain ⟨target, htarget, hrest⟩ := bind_eq_ok_iff.1 h
      split at hrest
      · next property hproperty =>
          cases hrest
          refine everyNode_of_property? (fun fields heq => ?_) hproperty
          subst heq
          exact .of_dereference hdocument (hmembers member (by simp)) htarget
      · exact ih (fun other hother => hmembers other (by simp [hother])) hrest

theorem everyNode_of_searched {combinator : Combinator} {members : List Json}
    (h : Sourced check node) (hsearched : searched node combinator = .ok members) :
    ∀ member ∈ members, member.everyNode check = true := by
  intro member hmember
  unfold searched at hsearched
  split at hsearched
  · next value hvalue =>
      split at hsearched
      · have hlisted := Fault.orOk_eq_ok_iff.1 hsearched
        exact h.everyNode_of_part (.member hvalue hlisted hmember)
      · cases hsearched
        cases hmember
  · cases hsearched
    cases hmember

theorem everyNode_of_searchCombinators {combinators : List Combinator}
    (hdocument : document.everyNode check = true) (hnode : Sourced check node)
    (h : searchCombinators document node name combinators = .ok (some found)) :
    found.everyNode check = true := by
  induction combinators with
  | nil => cases h
  | cons combinator rest ih =>
      obtain ⟨members, hmembers, hsearch⟩ := bind_eq_ok_iff.1 h
      obtain ⟨first, hfirst, hrest⟩ := bind_eq_ok_iff.1 hsearch
      split at hrest
      · cases hrest
        exact everyNode_of_searchMembers hdocument
          (everyNode_of_searched hnode hmembers) hfirst
      · exact ih hrest

theorem everyNode_of_descend {segment : String}
    (hdocument : document.everyNode check = true) (hnode : Sourced check node)
    (h : descend document node segment = .ok (some found)) :
    found.everyNode check = true := by
  unfold descend at h
  split at h
  · split at h
    · exact hnode.everyNode_of_part (part_of_item? h)
    · cases h
  · split at h
    · split at h
      · cases h
      · next properties hgiven =>
          have hstated := (Table.given?_eq_some_iff.1 hgiven).1
          have hfound := (Table.given?_eq_some_iff.1 (Except.ok.inj h)).1
          exact hnode.everyNode_of_part (.property hstated hfound)
      · cases h
    · exact everyNode_of_searchCombinators hdocument hnode h

theorem Sourced.of_child {segment : String} {next : Node}
    (hdocument : document.everyNode check = true) (hnode : Sourced check node)
    (h : child document node segment = .ok next) : Sourced check next := by
  obtain ⟨found, hdescend, htarget⟩ := child_eq_ok_iff.1 h
  exact .of_dereference hdocument (everyNode_of_descend hdocument hnode hdescend)
    htarget

theorem Sourced.of_members {combinator : Combinator} {members : Option (List Json)}
    {member : Node} (hdocument : document.everyNode check = true)
    (hnode : Sourced check node)
    (h : Entry.members document node combinator = .ok members)
    (hmember : .obj member ∈ members.getD []) : Sourced check member := by
  unfold Entry.members at h
  split at h
  · cases h
    cases hmember
  · next value hgiven =>
      obtain ⟨raw, hraw, hrest⟩ := bind_eq_ok_iff.1 h
      obtain ⟨targets, htargets, heq⟩ := bind_eq_ok_iff.1 hrest
      cases heq
      obtain ⟨source, hsource, hderef⟩ := exists_of_mem_mapM htargets hmember
      have hstated := (Table.given?_eq_some_iff.1 hgiven).1
      have hlisted := Fault.orOk_eq_ok_iff.1 hraw
      exact .of_dereference hdocument
        (hnode.everyNode_of_part (.member hstated hlisted hsource)) hderef

end Node

namespace Stop

variable {check : Node → Bool} {document : Json} {stop next : Stop}

theorem sourced_of_step (hdocument : document.everyNode check = true)
    (hnode : stop.node.Sourced check) {segment : String}
    (h : stop.step document segment = .ok next) : next.node.Sourced check := by
  obtain ⟨_, _, hchild, _⟩ := step_eq_ok_iff.1 h
  exact hnode.of_child hdocument hchild

theorem sourced_of_along (hdocument : document.everyNode check = true)
    (hnode : stop.node.Sourced check) {path : List String}
    (h : stop.along document path = .ok next) : next.node.Sourced check := by
  refine along_induction (P := fun stop => stop.node.Sourced check) ?_ hnode h
  intro stop next segment hsourced hstep
  exact sourced_of_step hdocument hsourced hstep

end Stop

end FormSchema
