import FormSchema.Form.Session
import FormSchema.Proofs.Everywhere
import FormSchema.Proofs.Members
import FormSchema.Proofs.Stop

/-!
# Regular schemas

A value is a schema when it is an object and its reference, if it has one, leads
to an object.  In a regular schema the properties of every node that is read
are a table of schemas, and the members of its combinators are schemas.  From a node
that is read a step leads to such a node again, and every such node compiles.
-/

namespace FormSchema

def Json.isSchema (document value : Json) : Bool :=
  match Reference.dereference document value with
  | .ok (.obj _) => true
  | _ => false

def Json.fits (document : Json) (key : String) (value : Json) : Bool :=
  if key = "properties" then
    match value with
    | .obj properties => properties.all fun field => isSchema document field.2
    | _ => false
  else if Combinator.all.any (·.key = key) then
    match value.members with
    | .ok members => members.all (isSchema document)
    | .error _ => false
  else true

namespace Node

def Regular (document : Json) (node : Node) : Prop :=
  ∀ key value, node.given? key = some value → Json.fits document key value = true

inductive Item (node : Node) : Json → Prop
  | all {value : Json} (stated : node.get? "items" = some value) : Item node value
  | position {elements : List Json} {value : Json}
      (stated : node.get? "items" = some (.arr elements))
      (found : value ∈ elements) : Item node value

inductive Part (node : Node) : Json → Prop
  | property {properties : Node} {name : String} {value : Json}
      (stated : node.get? "properties" = some (.obj properties))
      (found : properties.get? name = some value) : Part node value
  | member {combinator : Combinator} {stated : Json} {members : List Json}
      {value : Json} (given : node.get? combinator.key = some stated)
      (listed : stated.members = .ok members) (found : value ∈ members) :
      Part node value
  | items {value : Json} (stated : node.get? "items" = some value) :
      Part node value
  | position {elements : List Json} {value : Json}
      (stated : node.get? "items" = some (.arr elements))
      (found : value ∈ elements) : Part node value

end Node

namespace Form

/-- The nodes that are read on some way down from the root. -/
inductive Reads (form : Form) : Node → Prop
  | root : Reads form form.root
  | part {node next : Node} {value : Json} (read : Reads form node)
      (held : node.Part value)
      (target : Reference.dereference (.obj form.document) value =
        .ok (.obj next)) : Reads form next

def Regular (form : Form) : Prop :=
  ∀ node, form.Reads node → node.Regular (.obj form.document)

end Form

theorem Json.isSchema_iff {document value : Json} :
    isSchema document value = true ↔
      ∃ node, Reference.dereference document value = .ok (.obj node) := by
  unfold isSchema
  constructor
  · intro h
    split at h
    · next node hnode => exact ⟨node, hnode⟩
    · cases h
  · rintro ⟨node, hnode⟩
    rw [hnode]

namespace Node

variable {document : Json} {node : Node}

theorem Part.ofOwn {name : String} {value : Json}
    (h : node.ownProperties.get? name = some value) : node.Part value := by
  obtain ⟨properties, hstated, hfound⟩ := exists_of_get?_ownProperties h
  exact .property hstated hfound

namespace Regular

theorem properties (h : node.Regular document) {value : Json}
    (hgiven : node.given? "properties" = some value) :
    ∃ properties : Node, value = .obj properties ∧
      ∀ name property, properties.get? name = some property →
        Json.isSchema document property = true := by
  have hfits := h _ _ hgiven
  simp only [Json.fits, if_true] at hfits
  split at hfits
  · next properties =>
      refine ⟨properties, rfl, fun name property hget => ?_⟩
      exact List.all_eq_true.1 hfits _ (Table.mem_of_get? hget)
  · cases hfits

theorem members (h : node.Regular document) {combinator : Combinator}
    {value : Json} (hgiven : node.given? combinator.key = some value) :
    ∃ members, value.members = .ok members ∧
      ∀ member ∈ members, Json.isSchema document member = true := by
  have hfits := h _ _ hgiven
  have hkey : combinator.key ≠ "properties" := by cases combinator <;> decide
  have hcombinator : (Combinator.all.any (·.key = combinator.key)) = true := by
    cases combinator <;> decide
  simp only [Json.fits, if_neg hkey, hcombinator, if_true] at hfits
  split at hfits
  · next members hmembers =>
      exact ⟨members, hmembers, List.all_eq_true.1 hfits⟩
  · cases hfits

theorem isSchema_of_own (h : node.Regular document) {name : String} {value : Json}
    (hget : node.ownProperties.get? name = some value) :
    Json.isSchema document value = true := by
  obtain ⟨properties, hstated, hfound⟩ := exists_of_get?_ownProperties hget
  obtain ⟨table, heq, hschema⟩ :=
    h.properties (Table.given?_eq_some_iff.2 ⟨hstated, rfl⟩)
  cases heq
  exact hschema name value hfound

theorem mergeable (h : node.Regular document) : Entry.Mergeable node := by
  intro value hgiven
  obtain ⟨properties, heq, _⟩ := h.properties hgiven
  exact ⟨properties, heq⟩

theorem exists_members (h : node.Regular document) (combinator : Combinator) :
    ∃ found, Entry.members document node combinator = .ok found ∧
      ∀ target ∈ found.getD [], ∃ value, node.Part value ∧
        Reference.dereference document value = .ok target := by
  unfold Entry.members
  cases hgiven : node.given? combinator.key with
  | none => exact ⟨none, rfl, nofun⟩
  | some value =>
      obtain ⟨members, hlisted, hschema⟩ := h.members hgiven
      have hall : ∀ member ∈ members, ∃ target,
          Reference.dereference document member = .ok target := by
        intro member hmember
        obtain ⟨target, htarget⟩ := Json.isSchema_iff.1 (hschema member hmember)
        exact ⟨.obj target, htarget⟩
      obtain ⟨targets, htargets⟩ := exists_mapM hall
      refine ⟨some targets, ?_, ?_⟩
      · dsimp only
        rw [hlisted, Fault.orOk, ok_bind, htargets]
        rfl
      · intro target htarget
        obtain ⟨member, hmember, hderef⟩ := exists_of_mem_mapM htargets htarget
        have hstated := (Table.given?_eq_some_iff.1 hgiven).1
        exact ⟨member, .member hstated hlisted hmember, hderef⟩

theorem exists_combined (h : node.Regular document) :
    ∃ members, node.combined document = .ok members ∧
      ∀ member ∈ members, ∃ value, node.Part value ∧
        Reference.dereference document value = .ok (.obj member) := by
  obtain ⟨allOf, hallOf, hall⟩ := h.exists_members .allOf
  obtain ⟨anyOf, hanyOf, hany⟩ := h.exists_members .anyOf
  obtain ⟨oneOf, honeOf, hone⟩ := h.exists_members .oneOf
  refine ⟨_, combined_eq_ok_iff.2 ⟨allOf, anyOf, oneOf, hallOf, hanyOf, honeOf,
    rfl⟩, ?_⟩
  intro member hmember
  obtain ⟨target, htarget, hnode⟩ := List.mem_filterMap.1 hmember
  have hobj : target = .obj member := by
    cases target with
    | obj fields => exact congrArg Json.obj (Option.some.inj hnode)
    | _ => cases hnode
  subst hobj
  rw [List.mem_append, List.mem_append] at htarget
  rcases htarget with (htarget | htarget) | htarget
  · exact hall _ htarget
  · exact hany _ htarget
  · exact hone _ htarget

end Regular

theorem child_eq_ok_iff {segment : String} {next : Node} :
    child document node segment = .ok next ↔
      ∃ found, descend document node segment = .ok (some found) ∧
        Reference.dereference document found = .ok (.obj next) := by
  unfold child
  rw [bind_eq_ok_iff]
  constructor
  · rintro ⟨found, hdescend, hrest⟩
    cases found with
    | none => cases hrest
    | some found =>
        obtain ⟨target, htarget, hobj⟩ := bind_eq_ok_iff.1 hrest
        cases target with
        | obj fields =>
            cases hobj
            exact ⟨found, hdescend, htarget⟩
        | _ => cases hobj
  · rintro ⟨found, hdescend, htarget⟩
    refine ⟨some found, hdescend, ?_⟩
    dsimp only
    rw [htarget]
    rfl

theorem Item.part {value : Json} (h : node.Item value) : node.Part value := by
  cases h with
  | all hstated => exact .items hstated
  | position hstated hfound => exact .position hstated hfound

theorem item_of_item? {segment : String} {found : Json}
    (h : item? node segment = .ok (some found)) : node.Item found := by
  unfold item? at h
  split at h
  · next elements hgiven =>
      have hstated := (Table.given?_eq_some_iff.1 hgiven).1
      split at h
      · cases h
      · obtain ⟨element, helement, hfilter⟩ := bind_eq_ok_iff.1 h
        obtain ⟨heq, _⟩ := Option.filter_eq_some_iff.1 (Except.ok.inj hfilter)
        subst heq
        have hfound := Fault.orOk_eq_ok_iff.1 helement
        exact .position hstated (Path.mem_of_element? hfound)
  · exact .all (Table.given?_eq_some_iff.1 (Except.ok.inj h)).1

theorem part_of_item? {segment : String} {found : Json}
    (h : item? node segment = .ok (some found)) : node.Part found :=
  (item_of_item? h).part

end Node

namespace Form

variable {form : Form} {node : Node}

theorem Regular.combined (h : form.Regular) (hread : form.Reads node) :
    ∃ members, node.combined (.obj form.document) = .ok members ∧
      ∀ member ∈ members, form.Reads member := by
  obtain ⟨members, hcombined, hparts⟩ := (h node hread).exists_combined
  refine ⟨members, hcombined, fun member hmember => ?_⟩
  obtain ⟨value, hpart, htarget⟩ := hparts member hmember
  exact .part hread hpart htarget

theorem Regular.reads_of_mem (h : form.Regular) (hread : form.Reads node)
    {members : List Node} {member : Node}
    (hcombined : node.combined (.obj form.document) = .ok members)
    (hmember : member ∈ members) : form.Reads member := by
  obtain ⟨found, hfound, hreads⟩ := h.combined hread
  have hsame := hcombined.symm.trans hfound
  cases hsame
  exact hreads member hmember

theorem Regular.exists_compile (h : form.Regular) (hread : form.Reads node)
    (isRequired : Bool) :
    ∃ compiled, Entry.compile (.obj form.document) node isRequired =
      .ok compiled := by
  obtain ⟨members, hcombined, hreads⟩ := h.combined hread
  by_cases hnil : members = []
  · subst hnil
    obtain ⟨entry, hcompile, _⟩ := Entry.compile_of_nil hcombined isRequired
    exact ⟨_, hcompile⟩
  · have hmergeable : ∀ member ∈ members, Entry.Mergeable member :=
      fun member hmember => (h member (hreads member hmember)).mergeable
    obtain ⟨entry, conflict, hcompile, _⟩ :=
      Entry.compile_of_members hcombined hnil hmergeable isRequired
    exact ⟨_, hcompile⟩

theorem Regular.holder_of_descend (h : form.Regular) (hread : form.Reads node)
    {segment : String} {found : Json}
    (hdescend : Node.descend (.obj form.document) node segment =
      .ok (some found)) :
    ∃ holder, form.Reads holder ∧ holder.Part found := by
  unfold Node.descend at hdescend
  split at hdescend
  · split at hdescend
    · exact ⟨node, hread, Node.part_of_item? hdescend⟩
    · cases hdescend
  · split at hdescend
    · split at hdescend
      · cases hdescend
      · next properties hgiven =>
          have hstated := (Table.given?_eq_some_iff.1 hgiven).1
          have hfound := (Table.given?_eq_some_iff.1 (Except.ok.inj hdescend)).1
          exact ⟨node, hread, .property hstated hfound⟩
      · cases hdescend
    · obtain ⟨members, hcombined, hreads⟩ := h.combined hread
      rw [Node.searchCombinators_eq hcombined] at hdescend
      obtain ⟨member, hmember, hgiven⟩ :=
        List.exists_of_findSome?_eq_some (Except.ok.inj hdescend)
      exact ⟨member, hreads member hmember,
        .ofOwn (Table.given?_eq_some_iff.1 hgiven).1⟩

theorem Reads.child (h : form.Regular) (hread : form.Reads node)
    {segment : String} {next : Node}
    (hchild : Node.child (.obj form.document) node segment = .ok next) :
    form.Reads next := by
  obtain ⟨found, hdescend, htarget⟩ := Node.child_eq_ok_iff.1 hchild
  obtain ⟨holder, hholder, hpart⟩ := h.holder_of_descend hread hdescend
  exact .part hholder hpart htarget

theorem Reads.along (h : form.Regular) {path : List String} {stop next : Stop}
    (hread : form.Reads stop.node)
    (halong : stop.along (.obj form.document) path = .ok next) :
    form.Reads next.node := by
  refine Stop.along_induction (P := fun stop => form.Reads stop.node) ?_ hread halong
  intro stop next segment hstop hstep
  obtain ⟨_, _, hchild, _⟩ := Stop.step_eq_ok_iff.1 hstep
  exact hstop.child h hchild

end Form

/-! ## Schemas whose objects are all regular -/

namespace Node

variable {check : Node → Bool} {node : Node}

def isRegular (document : Json) (node : Node) : Bool :=
  node.all fun field => field.2.isNull || Json.fits document field.1 field.2

theorem regular_of_sourced {document : Json}
    (h : Sourced (isRegular document) node) : node.Regular document := by
  intro key value hgiven
  obtain ⟨hget, hnull⟩ := Table.given?_eq_some_iff.1 hgiven
  obtain ⟨⟨source, hregular, hsource⟩, _⟩ := h key value hget
  have hfits := List.all_eq_true.1 hregular _ (Table.mem_of_get? hsource)
  simpa [hnull] using hfits

theorem Sourced.everyNode_of_part {value : Json} (h : Sourced check node)
    (hpart : node.Part value) : value.everyNode check = true := by
  cases hpart with
  | property stated found => exact Json.everyNode_of_get? (h _ _ stated).2 found
  | member given listed found =>
      exact Json.everyNode_of_members (h _ _ given).2 listed found
  | items stated => exact (h _ _ stated).2
  | position stated found => exact Json.everyNode_of_mem (h _ _ stated).2 found

end Node

namespace Form

theorem Reads.sourced {form : Form} {check : Node → Bool} {node : Node}
    (hdocument : (Json.obj form.document).everyNode check = true)
    (hroot : Node.Sourced check form.root) (hread : form.Reads node) :
    Node.Sourced check node := by
  induction hread with
  | root => exact hroot
  | part read held target ih =>
      exact .of_dereference hdocument (ih.everyNode_of_part held) target

theorem document_of_open {form : Form} {document : Node} {validator : Json}
    (h : Form.open document validator = .ok form) : form.document = document := by
  obtain ⟨root, _, heq⟩ := bind_eq_ok_iff.1 h
  cases heq
  rfl

theorem sourced_of_open {form : Form} {document : Node} {validator : Json}
    {check : Node → Bool} (hopen : Form.open document validator = .ok form)
    (h : (Json.obj document).everyNode check = true) :
    Node.Sourced check form.root := by
  obtain ⟨root, hroot, heq⟩ := bind_eq_ok_iff.1 hopen
  cases heq
  exact Node.sourced_workingRoot h (reportAt_eq_ok_iff.1 hroot)

/-- It is enough that every object of the document is regular. -/
theorem regular_of_everyNode {form : Form} {document : Node} {validator : Json}
    (hopen : Form.open document validator = .ok form)
    (h : (Json.obj document).everyNode (Node.isRegular (.obj document)) = true) :
    form.Regular := by
  obtain rfl := document_of_open hopen
  intro node hread
  exact Node.regular_of_sourced (hread.sourced h (sourced_of_open hopen h))

end Form

end FormSchema
