import FormSchema.Schema.Child

/-!
# Members of combinators

The search for a property and the entry of a node read the same members in the
same order: the search stops at the first member that gives the property, while
the entry writes the properties of all members over each other.  Both are said
here of the list of the members, so that they can be compared name by name.
-/

namespace FormSchema

namespace Table

variable {α : Type}

theorem mem_keys_overlay {base top : Table α} {key : String} :
    key ∈ (base.overlay top).keys ↔ key ∈ top.keys ∨ key ∈ base.keys := by
  rw [← isSome_get?_iff, get?_overlay, Option.isSome_or, Bool.or_eq_true,
    isSome_get?_iff, isSome_get?_iff]

theorem given?_eq_some_iff {node : Node} {key : String} {value : Json} :
    node.given? key = some value ↔
      node.get? key = some value ∧ value.isNull = false := by
  rw [given?, Option.filter_eq_some_iff, Bool.not_eq_true']

theorem given?_eq_get? {node : Node} {key : String}
    (h : node.get? key ≠ some .null) : node.given? key = node.get? key := by
  unfold given?
  cases hget : node.get? key with
  | none => rfl
  | some value =>
      cases value with
      | null => exact absurd hget h
      | _ => rfl

end Table

namespace Node

def ownProperties (node : Node) : Node :=
  ((node.get? "properties").bind Json.node?).getD []

theorem exists_of_get?_ownProperties {node : Node} {name : String} {value : Json}
    (h : node.ownProperties.get? name = some value) :
    ∃ properties : Node, node.get? "properties" = some (.obj properties) ∧
      properties.get? name = some value := by
  unfold ownProperties at h
  cases hget : node.get? "properties" with
  | none =>
      rw [hget] at h
      cases h
  | some stated =>
      rw [hget] at h
      cases stated with
      | obj properties => exact ⟨properties, rfl, h⟩
      | _ => cases h

theorem ownProperties_of_given? {node properties : Node}
    (h : node.given? "properties" = some (.obj properties)) :
    node.ownProperties = properties := by
  unfold ownProperties
  rw [(Table.given?_eq_some_iff.1 h).1]
  rfl

theorem ownProperties_of_given?_eq_none {node : Node}
    (h : node.given? "properties" = none) :
    node.ownProperties = [] := by
  unfold ownProperties
  cases hget : node.get? "properties" with
  | none => rfl
  | some value =>
      cases value with
      | null => rfl
      | _ =>
          rw [Table.given?, hget] at h
          cases h

def combined (document : Json) (node : Node) : Except Cause (List Node) := do
  let allOf ← Entry.members document node .allOf
  let anyOf ← Entry.members document node .anyOf
  let oneOf ← Entry.members document node .oneOf
  .ok ((allOf.getD [] ++ anyOf.getD [] ++ oneOf.getD []).filterMap Json.node?)

theorem combined_eq_ok_iff {document : Json} {node : Node} {members : List Node} :
    node.combined document = .ok members ↔
      ∃ allOf anyOf oneOf,
        Entry.members document node .allOf = .ok allOf ∧
        Entry.members document node .anyOf = .ok anyOf ∧
        Entry.members document node .oneOf = .ok oneOf ∧
        (allOf.getD [] ++ anyOf.getD [] ++ oneOf.getD []).filterMap Json.node? =
          members := by
  simp only [combined, bind_eq_ok_iff, Except.ok.injEq]
  constructor
  · rintro ⟨allOf, hallOf, anyOf, hanyOf, oneOf, honeOf, heq⟩
    exact ⟨allOf, anyOf, oneOf, hallOf, hanyOf, honeOf, heq⟩
  · rintro ⟨allOf, anyOf, oneOf, hallOf, hanyOf, honeOf, heq⟩
    exact ⟨allOf, hallOf, anyOf, hanyOf, oneOf, honeOf, heq⟩

end Node

/-! ## The entry -/

namespace Entry

variable {document : Json} {node : Node} {members : List Node}
  {entry : Entry} {conflict : Option Conflict} {isRequired : Bool}

def objects (entry : Entry) : List Node :=
  (entry.allOf.getD [] ++ entry.anyOf.getD [] ++ entry.oneOf.getD []).filterMap
    Json.node?

/-- What compiling a node says of the entry and of the conflict. -/
structure Compiled (document : Json) (node : Node) (isRequired : Bool)
    (entry : Entry) (conflict : Option Conflict) : Prop where
  allOf : Entry.members document node .allOf = .ok entry.allOf
  anyOf : Entry.members document node .anyOf = .ok entry.anyOf
  oneOf : Entry.members document node .oneOf = .ok entry.oneOf
  flag : entry.isRequired = isRequired
  stated : entry.objects = [] →
    entry.type = none ∧ entry.properties = (node.given? "properties").map .stated ∧
      entry.required = none ∧ conflict = none
  merged : entry.objects ≠ [] → ∃ pairs,
    entry.objects.foldlM mergeProperties [] = .ok pairs ∧
      entry.properties = some (.merged pairs) ∧
      entry.required = some (entry.objects.flatMap requiredNames) ∧
      entry.type = (if (node.given? "type").isSome then none
        else (entry.objects.filterMap (·.given? "type")).head?) ∧
      conflict = conflict? ((node.given? "type").or entry.type)
        (entry.objects.filterMap (·.given? "type"))

theorem compiled (h : compile document node isRequired = .ok (entry, conflict)) :
    Compiled document node isRequired entry conflict := by
  obtain ⟨allOf, hallOf, h⟩ := bind_eq_ok_iff.1 h
  obtain ⟨anyOf, hanyOf, h⟩ := bind_eq_ok_iff.1 h
  obtain ⟨oneOf, honeOf, h⟩ := bind_eq_ok_iff.1 h
  dsimp only at h
  split at h
  · next hnone =>
      cases h
      exact ⟨hallOf, hanyOf, honeOf, rfl, fun _ => ⟨rfl, rfl, rfl, rfl⟩,
        fun hne => absurd (List.isEmpty_iff.1 hnone) hne⟩
  · next hsome =>
      obtain ⟨pairs, hpairs, heq⟩ := bind_eq_ok_iff.1 h
      cases heq
      exact ⟨hallOf, hanyOf, honeOf, rfl,
        fun hnil => absurd (List.isEmpty_iff.2 hnil) hsome,
        fun _ => ⟨pairs, Fault.orOk_eq_ok_iff.1 hpairs, rfl, rfl, rfl, rfl⟩⟩

theorem Compiled.combined (h : Compiled document node isRequired entry conflict) :
    node.combined document = .ok entry.objects :=
  Node.combined_eq_ok_iff.2 ⟨_, _, _, h.allOf, h.anyOf, h.oneOf, rfl⟩

theorem compile_of_nil (h : node.combined document = .ok []) (isRequired : Bool) :
    ∃ entry, compile document node isRequired = .ok (entry, none) ∧
      entry.type = none ∧
      entry.properties = (node.given? "properties").map .stated := by
  obtain ⟨allOf, anyOf, oneOf, hallOf, hanyOf, honeOf, hnil⟩ :=
    Node.combined_eq_ok_iff.1 h
  unfold compile
  rw [hallOf, ok_bind, hanyOf, ok_bind, honeOf, ok_bind]
  dsimp only
  rw [hnil]
  exact ⟨_, rfl, rfl, rfl⟩

theorem stated_of_compile (h : node.combined document = .ok [])
    (hcompile : compile document node isRequired = .ok (entry, conflict)) :
    entry.type = none ∧
      entry.properties = (node.given? "properties").map .stated := by
  have hcompiled := compiled hcompile
  have hnil : [] = entry.objects := Except.ok.inj (h.symm.trans hcompiled.combined)
  obtain ⟨htype, hproperties, _⟩ := hcompiled.stated hnil.symm
  exact ⟨htype, hproperties⟩

def Mergeable (member : Node) : Prop :=
  ∀ value, member.given? "properties" = some value → ∃ table, value = .obj table

def merged (members : List Node) : Node :=
  members.foldl (fun table member => table.overlay member.ownProperties) []

/-- Properties that do not hold are passed over, and others are to be a table. -/
def isTabular (member : Node) : Bool :=
  match member.get? "properties" with
  | none => true
  | some value => !value.truthy || value.node?.isSome

theorem Mergeable.isTabular {member : Node} (h : Mergeable member) :
    isTabular member = true := by
  unfold Entry.isTabular
  cases hget : member.get? "properties" with
  | none => rfl
  | some value =>
      cases hnull : value.isNull with
      | true =>
          cases value with
          | null => rfl
          | _ => cases hnull
      | false =>
          obtain ⟨table, rfl⟩ := h value (Table.given?_eq_some_iff.2 ⟨hget, hnull⟩)
          simp [Json.node?]

theorem getD_node?_of_not_truthy {value : Json} (h : value.truthy = false) :
    value.node?.getD [] = [] := by
  cases value with
  | obj fields =>
      cases fields with
      | nil => rfl
      | cons field fields => cases h
  | _ => rfl

theorem mergeProperties_eq {member : Node} (h : isTabular member = true)
    (merged : Pairs) :
    mergeProperties merged member =
      .ok (Pairs.overlay merged (Pairs.ofNode member.ownProperties)) := by
  unfold isTabular at h
  unfold mergeProperties Node.ownProperties
  cases hget : member.get? "properties" with
  | none => rfl
  | some value =>
      rw [hget] at h
      dsimp only [Option.bind_some] at h ⊢
      cases htruthy : value.truthy with
      | false =>
          rw [getD_node?_of_not_truthy htruthy]
          rfl
      | true =>
          rw [htruthy] at h
          cases value with
          | obj properties => rfl
          | _ => cases h

theorem foldlM_mergeProperties (h : ∀ member ∈ members, isTabular member = true)
    (table : Node) :
    members.foldlM mergeProperties (Pairs.ofNode table) =
      .ok (Pairs.ofNode (members.foldl
        (fun table member => table.overlay member.ownProperties) table)) := by
  induction members generalizing table with
  | nil => rfl
  | cons member members ih =>
      rw [List.foldlM_cons, mergeProperties_eq (h member (by simp)), ok_bind,
        Pairs.overlay_ofNode, ih fun other hother => h other (by simp [hother])]
      rfl

theorem mem_keys_foldl_overlay (table : Node) (name : String) :
    name ∈ Table.keys (members.foldl
        (fun table member => table.overlay member.ownProperties) table) ↔
      name ∈ table.keys ∨ ∃ member ∈ members, name ∈ member.ownProperties.keys := by
  induction members generalizing table with
  | nil => simp
  | cons member members ih =>
      rw [List.foldl_cons, ih, Table.mem_keys_overlay]
      simp only [List.mem_cons, exists_eq_or_imp]
      constructor
      · rintro ((hmember | htable) | hrest)
        · exact .inr (.inl hmember)
        · exact .inl htable
        · exact .inr (.inr hrest)
      · rintro (htable | hmember | hrest)
        · exact .inl (.inr htable)
        · exact .inl (.inl hmember)
        · exact .inr hrest

theorem foldlM_mergeProperties_nil
    (h : ∀ member ∈ members, isTabular member = true) :
    members.foldlM mergeProperties [] = .ok (Pairs.ofNode (merged members)) :=
  foldlM_mergeProperties h []

theorem mem_keys_merged {name : String} :
    name ∈ (merged members).keys ↔
      ∃ member ∈ members, name ∈ member.ownProperties.keys := by
  rw [merged, mem_keys_foldl_overlay]
  simp [Table.keys]

theorem compile_of_members (h : node.combined document = .ok members)
    (hne : members ≠ []) (hmergeable : ∀ member ∈ members, Mergeable member)
    (isRequired : Bool) :
    ∃ entry conflict, compile document node isRequired = .ok (entry, conflict) ∧
      entry.type = (if (node.given? "type").isSome then none
        else (members.filterMap (·.given? "type")).head?) ∧
      entry.properties = some (.merged (Pairs.ofNode (merged members))) := by
  obtain ⟨allOf, anyOf, oneOf, hallOf, hanyOf, honeOf, hmembers⟩ :=
    Node.combined_eq_ok_iff.1 h
  unfold compile
  rw [hallOf, ok_bind, hanyOf, ok_bind, honeOf, ok_bind]
  dsimp only
  rw [hmembers, if_neg (by simpa using hne),
    foldlM_mergeProperties_nil fun member hmember =>
      (hmergeable member hmember).isTabular]
  exact ⟨_, _, rfl, rfl, rfl⟩

theorem merged_of_compile (h : node.combined document = .ok members)
    (hne : members ≠ []) (hmergeable : ∀ member ∈ members, Mergeable member)
    (hcompile : compile document node isRequired = .ok (entry, conflict)) :
    entry.properties = some (.merged (Pairs.ofNode (merged members))) := by
  have hcompiled := compiled hcompile
  obtain rfl : members = entry.objects :=
    Except.ok.inj (h.symm.trans hcompiled.combined)
  obtain ⟨pairs, hpairs, hproperties, _⟩ := hcompiled.merged hne
  rw [foldlM_mergeProperties_nil fun member hmember =>
    (hmergeable member hmember).isTabular] at hpairs
  cases hpairs
  exact hproperties

theorem exists_combined_of_compile
    (h : compile document node isRequired = .ok (entry, conflict)) :
    ∃ members, node.combined document = .ok members ∧
      entry.required.getD [] = members.flatMap requiredNames := by
  have hcompiled := compiled h
  refine ⟨entry.objects, hcompiled.combined, ?_⟩
  by_cases hnil : entry.objects = []
  · obtain ⟨_, _, hrequired, _⟩ := hcompiled.stated hnil
    rw [hnil, hrequired]
    rfl
  · obtain ⟨_, _, _, hrequired, _⟩ := hcompiled.merged hnil
    rw [hrequired]
    rfl

end Entry

/-! ## The search -/

namespace Node

variable {document : Json} {node : Node} {members : List Node}

theorem searchMembers_eq {raw targets : List Json} (name : String)
    (h : raw.mapM (Reference.dereference document) = .ok targets) :
    searchMembers document name raw = .ok (targets.findSome? (property? name)) := by
  induction raw generalizing targets with
  | nil =>
      cases h
      rfl
  | cons member raw ih =>
      rw [List.mapM_cons, bind_eq_ok_iff] at h
      obtain ⟨target, htarget, hrest⟩ := h
      obtain ⟨following, hfollowing, heq⟩ := bind_eq_ok_iff.1 hrest
      cases heq
      rw [searchMembers, htarget, ok_bind, List.findSome?_cons]
      cases property? name target with
      | some found => rfl
      | none => exact ih hfollowing

theorem members_of_not_truthy {value : Json} {raw : List Json}
    (htruthy : ¬value.truthy = true) (h : value.members = .ok raw) : raw = [] := by
  cases value with
  | arr elements =>
      cases elements with
      | nil => exact (Except.ok.inj h).symm
      | cons element elements => exact absurd rfl htruthy
  | obj fields =>
      cases fields with
      | nil => exact (Except.ok.inj h).symm
      | cons field fields => exact absurd rfl htruthy
  | str text =>
      have htext : text = "" := by simpa [Json.truthy] using htruthy
      subst htext
      exact (Except.ok.inj h).symm
  | _ => cases h

theorem searched_of_members {combinator : Combinator} {found : Option (List Json)}
    (h : Entry.members document node combinator = .ok found) :
    ∃ raw, searched node combinator = .ok raw ∧
      raw.mapM (Reference.dereference document) = .ok (found.getD []) := by
  unfold Entry.members at h
  unfold searched
  cases hget : node.get? combinator.key with
  | none =>
      rw [Table.given?, hget] at h
      cases h
      exact ⟨[], rfl, rfl⟩
  | some value =>
      cases hnull : value.isNull with
      | true =>
          rw [Table.given?, hget] at h
          simp only [Option.filter_some, hnull, Bool.not_true, Bool.false_eq_true,
            if_false] at h
          cases h
          cases value with
          | null => exact ⟨[], rfl, rfl⟩
          | _ => cases hnull
      | false =>
          rw [Table.given?_eq_some_iff.2 ⟨hget, hnull⟩] at h
          obtain ⟨raw, hraw, hrest⟩ := bind_eq_ok_iff.1 h
          obtain ⟨targets, htargets, heq⟩ := bind_eq_ok_iff.1 hrest
          cases heq
          dsimp only
          split
          · exact ⟨raw, hraw, htargets⟩
          · next htruthy =>
              cases hmembers : value.members with
              | error misuse =>
                  rw [hmembers] at hraw
                  cases hraw
              | ok list =>
                  rw [hmembers] at hraw
                  cases hraw
                  have hnil := members_of_not_truthy htruthy hmembers
                  subst hnil
                  exact ⟨[], rfl, htargets⟩

theorem searchCombinators_cons {combinator : Combinator}
    {found : Option (List Json)} (name : String) (rest : List Combinator)
    (h : Entry.members document node combinator = .ok found) :
    searchCombinators document node name (combinator :: rest) =
      match (found.getD []).findSome? (property? name) with
      | some property => .ok (some property)
      | none => searchCombinators document node name rest := by
  obtain ⟨raw, hraw, htargets⟩ := searched_of_members h
  rw [searchCombinators, hraw, ok_bind, searchMembers_eq name htargets]
  rfl

theorem property?_obj (name : String) (member : Node) :
    property? name (.obj member) = member.ownProperties.given? name := by
  change ((member.get? "properties").bind Json.node?).bind _ = _
  unfold ownProperties
  cases (member.get? "properties").bind Json.node? with
  | none => rfl
  | some properties => rfl

theorem findSome?_property? (name : String) (targets : List Json) :
    targets.findSome? (property? name) =
      (targets.filterMap Json.node?).findSome? fun member =>
        member.ownProperties.given? name := by
  induction targets with
  | nil => rfl
  | cons target targets ih =>
      rw [List.findSome?_cons, List.filterMap_cons]
      cases target with
      | obj member =>
          rw [property?_obj]
          simp only [Json.node?, List.findSome?_cons]
          cases Table.given? (ownProperties member) name with
          | some found => rfl
          | none => exact ih
      | _ => exact ih

/-- Where all members dereference, the search finds what the first of them gives. -/
theorem searchCombinators_eq (h : node.combined document = .ok members)
    (name : String) :
    searchCombinators document node name Combinator.all =
      .ok (members.findSome? fun member => member.ownProperties.given? name) := by
  obtain ⟨allOf, anyOf, oneOf, hallOf, hanyOf, honeOf, rfl⟩ :=
    combined_eq_ok_iff.1 h
  rw [← findSome?_property?, List.findSome?_append, List.findSome?_append,
    Combinator.all, searchCombinators_cons name _ hallOf]
  cases (allOf.getD []).findSome? (property? name) with
  | some found => rfl
  | none =>
      rw [searchCombinators_cons name _ hanyOf]
      cases (anyOf.getD []).findSome? (property? name) with
      | some found => rfl
      | none =>
          rw [searchCombinators_cons name _ honeOf]
          cases (oneOf.getD []).findSome? (property? name) with
          | some found => rfl
          | none => rfl

theorem not_position {name : String} (hindex : Path.isIndex name = false)
    (hwildcard : name ≠ wildcard) :
    ¬(decide (name = wildcard) || Path.isIndex name) = true := by
  simp [hindex, hwildcard]

theorem descend_of_members (hcombined : node.combined document = .ok members)
    (hshape : node.shape ≠ .object) {name : String}
    (hindex : Path.isIndex name = false) (hwildcard : name ≠ wildcard) :
    descend document node name =
      .ok (members.findSome? fun member => member.ownProperties.given? name) := by
  unfold descend
  rw [if_neg (not_position hindex hwildcard), if_neg hshape,
    searchCombinators_eq hcombined]

end Node

end FormSchema
