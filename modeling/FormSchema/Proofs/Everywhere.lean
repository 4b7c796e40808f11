import FormSchema.Schema.Reference
import FormSchema.Schema.Root

/-!
# What holds of every object of a document

A check that all objects within a document pass is passed by all objects within
each value that a look-up or a reference reaches.  Where a reference is completed
by what stands beside it, the new node has its fields from two objects that
passed.
-/

namespace FormSchema

namespace Json

mutual

def everyNode (check : Node → Bool) : Json → Bool
  | arr elements => everyNodeOfElements check elements
  | obj fields => check fields && everyNodeOfFields check fields
  | _ => true

def everyNodeOfElements (check : Node → Bool) : List Json → Bool
  | [] => true
  | element :: elements =>
      everyNode check element && everyNodeOfElements check elements

def everyNodeOfFields (check : Node → Bool) : List (String × Json) → Bool
  | [] => true
  | (_, value) :: fields => everyNode check value && everyNodeOfFields check fields

end

variable {check : Node → Bool}

mutual

theorem everyNode_of_forall (h : ∀ node, check node = true) :
    ∀ value : Json, everyNode check value = true
  | null | bool _ | int _ | real _ | str _ => rfl
  | arr elements => everyNodeOfElements_of_forall h elements
  | obj fields =>
      Bool.and_eq_true_iff.2 ⟨h fields, everyNodeOfFields_of_forall h fields⟩

theorem everyNodeOfElements_of_forall (h : ∀ node, check node = true) :
    ∀ elements : List Json, everyNodeOfElements check elements = true
  | [] => rfl
  | element :: elements =>
      Bool.and_eq_true_iff.2
        ⟨everyNode_of_forall h element, everyNodeOfElements_of_forall h elements⟩

theorem everyNodeOfFields_of_forall (h : ∀ node, check node = true) :
    ∀ fields : List (String × Json), everyNodeOfFields check fields = true
  | [] => rfl
  | (_, value) :: fields =>
      Bool.and_eq_true_iff.2
        ⟨everyNode_of_forall h value, everyNodeOfFields_of_forall h fields⟩

end

theorem everyNode_of_mem {elements : List Json} {value : Json}
    (h : everyNode check (.arr elements) = true) (hmem : value ∈ elements) :
    everyNode check value = true := by
  change everyNodeOfElements check elements = true at h
  induction elements with
  | nil => cases hmem
  | cons element elements ih =>
      rw [everyNodeOfElements, Bool.and_eq_true] at h
      rcases List.mem_cons.1 hmem with rfl | hmem
      · exact h.1
      · exact ih hmem h.2

theorem everyNode_of_get? {fields : Node} {key : String} {value : Json}
    (h : everyNode check (.obj fields) = true)
    (hget : fields.get? key = some value) : everyNode check value = true := by
  rw [everyNode, Bool.and_eq_true] at h
  have hfields := h.2
  have hmem := Table.mem_of_get? hget
  clear h hget
  induction fields with
  | nil => cases hmem
  | cons field fields ih =>
      obtain ⟨name, first⟩ := field
      rw [everyNodeOfFields, Bool.and_eq_true] at hfields
      rcases List.mem_cons.1 hmem with heq | hmem
      · cases heq
        exact hfields.1
      · exact ih hfields.2 hmem

theorem everyNode_of_members {value member : Json} {members : List Json}
    (h : everyNode check value = true) (hmembers : value.members = .ok members)
    (hmem : member ∈ members) : everyNode check member = true := by
  cases value with
  | arr elements =>
      cases hmembers
      exact everyNode_of_mem h hmem
  | obj fields =>
      cases hmembers
      obtain ⟨field, _, rfl⟩ := List.mem_map.1 hmem
      rfl
  | str text =>
      cases hmembers
      obtain ⟨char, _, rfl⟩ := List.mem_map.1 hmem
      rfl
  | _ => cases hmembers

theorem check_of_everyNode {fields : Node}
    (h : everyNode check (.obj fields) = true) : check fields = true := by
  rw [everyNode, Bool.and_eq_true] at h
  exact h.1

theorem everyNode_of_step {value next : Json} {segment : String}
    (h : everyNode check value = true)
    (hstep : value.step segment = .ok (some next)) :
    everyNode check next = true := by
  unfold step at hstep
  split at hstep
  · exact everyNode_of_get? h (Except.ok.inj hstep)
  · exact everyNode_of_mem h (Path.mem_of_element? hstep)
  · cases hstep

end Json

namespace Reference

variable {check : Node → Bool}

theorem everyNode_of_follow {reference : String} {node target : Json}
    {parts : List String} (h : node.everyNode check = true)
    (hfollow : follow reference node parts = .ok target) :
    target.everyNode check = true := by
  induction parts generalizing node with
  | nil =>
      cases hfollow
      exact h
  | cons part rest ih =>
      unfold follow at hfollow
      split at hfollow
      · cases hfollow
      · cases hfollow
      · cases hfollow
      · next next _ hstep => exact ih (Json.everyNode_of_step h hstep) hfollow

theorem everyNode_of_resolve {document reference target : Json}
    (h : document.everyNode check = true)
    (hresolve : resolve document reference = .ok target) :
    target.everyNode check = true := by
  unfold resolve at hresolve
  split at hresolve
  · split at hresolve
    · exact everyNode_of_follow h hresolve
    · cases hresolve
  · obtain ⟨_, _, hfail⟩ := bind_eq_ok_iff.1 hresolve
    cases hfail

end Reference

namespace Node

/-- Every field is that of an object that passes, and has such objects within. -/
def Sourced (check : Node → Bool) (node : Node) : Prop :=
  ∀ key value, node.get? key = some value →
    (∃ source : Node, check source = true ∧ source.get? key = some value) ∧
      value.everyNode check = true

namespace Sourced

variable {check : Node → Bool} {node base top : Node}

theorem of_everyNode (h : (Json.obj node).everyNode check = true) :
    Sourced check node := fun _ _ hget =>
  ⟨⟨node, Json.check_of_everyNode h, hget⟩, Json.everyNode_of_get? h hget⟩

theorem erase (h : Sourced check node) (key : String) :
    Sourced check (node.erase key) := by
  intro other value hget
  rw [Table.get?_erase] at hget
  split at hget
  · cases hget
  · exact h other value hget

theorem overlay (hbase : Sourced check base) (htop : Sourced check top) :
    Sourced check (base.overlay top) := by
  intro key value hget
  rw [Table.get?_overlay, Option.or_eq_some_iff] at hget
  rcases hget with hget | ⟨_, hget⟩
  · exact htop key value hget
  · exact hbase key value hget

theorem of_dereference {document value : Json} {next : Node}
    (hdocument : document.everyNode check = true)
    (hvalue : value.everyNode check = true)
    (h : Reference.dereference document value = .ok (.obj next)) :
    Sourced check next := by
  unfold Reference.dereference at h
  split at h
  · next node =>
      split at h
      · cases h
        exact of_everyNode hvalue
      · obtain ⟨target, hresolve, heq⟩ := bind_eq_ok_iff.1 h
        have htarget := Reference.everyNode_of_resolve hdocument hresolve
        cases target with
        | obj fields =>
            have hobj := Json.obj.inj (Except.ok.inj heq)
            subst hobj
            split
            · exact of_everyNode htarget
            · exact ((of_everyNode hvalue).erase "$ref").overlay
                (of_everyNode htarget)
        | _ => cases heq
  · next hobj =>
      cases h
      exact absurd rfl (hobj next)

end Sourced

theorem sourced_workingRoot {check : Node → Bool} {document root : Node}
    (hdocument : (Json.obj document).everyNode check = true)
    (h : workingRoot document = .ok root) : Sourced check root := by
  have hsourced := Sourced.of_everyNode hdocument
  unfold workingRoot at h
  split at h
  · cases h
    exact hsourced
  · split at h
    · cases h
      exact hsourced
    · split at h
      · obtain ⟨target, hresolve, hrest⟩ := bind_eq_ok_iff.1 h
        have htarget := Reference.everyNode_of_resolve hdocument hresolve
        cases target with
        | obj fields =>
            cases hrest
            exact hsourced.overlay (.of_everyNode htarget)
        | _ => cases hrest
      · cases h
        exact hsourced

end Node

end FormSchema
