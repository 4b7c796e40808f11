import FormSchema.Proofs.Members

/-!
# The first and the last definition of a name

The members of a node may define the same name more than once.  The search stops
at the first definition in the order of the members, and the entry keeps the
last, because later members are written over earlier ones.  Both see the same
definitions: a name is found exactly if the entry has it, and a name that is
defined once means the same to both.
-/

namespace FormSchema

namespace Node

def definitions (members : List Node) (name : String) : List Json :=
  members.filterMap fun member => member.ownProperties.get? name

/-- A member leaves its properties out, or states a table without null. -/
def isDefinite (member : Node) : Bool :=
  match member.given? "properties" with
  | none => true
  | some (.obj properties) => properties.all fun field => !field.2.isNull
  | some _ => false

variable {document : Json} {node member : Node} {members : List Node}
  {name : String}

theorem mergeable_of_isDefinite (h : member.isDefinite = true) :
    Entry.Mergeable member := by
  intro value hgiven
  unfold isDefinite at h
  rw [hgiven] at h
  cases value with
  | obj properties => exact ⟨properties, rfl⟩
  | _ => cases h

theorem given?_own_of_isDefinite (h : member.isDefinite = true) (name : String) :
    member.ownProperties.given? name = member.ownProperties.get? name := by
  apply Table.given?_eq_get?
  intro hnull
  obtain ⟨properties, hstated, hfound⟩ := exists_of_get?_ownProperties hnull
  unfold isDefinite at h
  rw [Table.given?_eq_some_iff.2 ⟨hstated, rfl⟩] at h
  cases List.all_eq_true.1 h _ (Table.mem_of_get? hfound)

theorem findSome?_eq_head?_definitions
    (h : ∀ member ∈ members, member.isDefinite = true) (name : String) :
    (members.findSome? fun member => member.ownProperties.given? name) =
      (definitions members name).head? := by
  rw [definitions, List.head?_filterMap]
  induction members with
  | nil => rfl
  | cons member members ih =>
      rw [List.findSome?_cons, List.findSome?_cons,
        given?_own_of_isDefinite (h member (by simp)),
        ih fun other hother => h other (by simp [hother])]

theorem get?_foldl_overlay (members : List Node) (table : Node) (name : String) :
    Table.get? (members.foldl
        (fun table member => table.overlay member.ownProperties) table) name =
      (definitions members name).getLast?.or (table.get? name) := by
  induction members generalizing table with
  | nil => rfl
  | cons member members ih =>
      rw [List.foldl_cons, ih, Table.get?_overlay]
      unfold definitions
      rw [List.filterMap_cons]
      cases member.ownProperties.get? name with
      | none => rfl
      | some value =>
          rw [List.getLast?_cons, Option.some_or]
          cases (members.filterMap fun member =>
              member.ownProperties.get? name).getLast? with
          | none => rfl
          | some last => rfl

theorem get?_merged (members : List Node) (name : String) :
    (Entry.merged members).get? name = (definitions members name).getLast? := by
  rw [Entry.merged, get?_foldl_overlay, Table.get?_nil, Option.or_none]

theorem mem_keys_merged_iff_definitions :
    name ∈ (Entry.merged members).keys ↔ definitions members name ≠ [] := by
  rw [← Table.isSome_get?_iff, get?_merged, List.getLast?_isSome]

/-- Below a node that is no object a name leads to its first definition, and the
entry holds the last one; so a name leads somewhere exactly if the entry has it. -/
theorem descend_first_compile_last (hshape : node.shape ≠ .object)
    (hcombined : node.combined document = .ok members) (hne : members ≠ [])
    (hdefinite : ∀ member ∈ members, member.isDefinite = true)
    (hindex : Path.isIndex name = false) (hwildcard : name ≠ wildcard)
    (isRequired : Bool) :
    ∃ entry conflict properties,
      Entry.compile document node isRequired = .ok (entry, conflict) ∧
      entry.properties = some (.merged (Pairs.ofNode properties)) ∧
      ((∃ found, descend document node name = .ok (some found)) ↔
        name ∈ properties.keys) ∧
      descend document node name = .ok (definitions members name).head? ∧
      properties.get? name = (definitions members name).getLast? ∧
      ((definitions members name).length = 1 →
        descend document node name = .ok (properties.get? name)) := by
  have hmergeable : ∀ member ∈ members, Entry.Mergeable member :=
    fun member hmember => mergeable_of_isDefinite (hdefinite member hmember)
  obtain ⟨entry, conflict, hcompile, _, hproperties⟩ :=
    Entry.compile_of_members hcombined hne hmergeable isRequired
  have hdescend := descend_of_members hcombined hshape hindex hwildcard
  rw [findSome?_eq_head?_definitions hdefinite] at hdescend
  have hmerged := get?_merged members name
  refine ⟨entry, conflict, Entry.merged members, hcompile, hproperties, ?_,
    hdescend, hmerged, ?_⟩
  · rw [mem_keys_merged_iff_definitions, hdescend, ← List.isSome_head?,
      Option.isSome_iff_exists]
    simp only [Except.ok.injEq]
  · intro hlength
    obtain ⟨only, honly⟩ := List.length_eq_one_iff.1 hlength
    rw [hdescend, hmerged, honly]
    rfl

end Node

def layered : Node :=
  [("oneOf", .arr [.obj [("properties", .obj [("a", .bool true)])]]),
   ("type", .str "array"),
   ("allOf", .arr [.int 7, .obj [("$ref", .str "#/definitions/P")]])]

def layeredDocument : Json :=
  .obj [("definitions", .obj
    [("P", .obj [("properties", .obj [("a", .str "first"), ("b", .arr [])])])])]

theorem layered_descend_compile :
    layered.shape = .array ∧
    ∃ entry conflict properties,
      Entry.compile layeredDocument layered true = .ok (entry, conflict) ∧
      entry.properties = some (.merged (Pairs.ofNode properties)) ∧
      Node.descend layeredDocument layered "a" = .ok (some (.str "first")) ∧
      properties.get? "a" = some (.bool true) := by
  have hshape : layered.shape = .array := by decide
  have hcombined : layered.combined layeredDocument = .ok
      [[("properties", .obj [("a", .str "first"), ("b", .arr [])])],
        [("properties", .obj [("a", .bool true)])]] := rfl
  have hindex : Path.isIndex "a" = false := by decide
  obtain ⟨entry, conflict, properties, hcompile, hproperties, _, hfirst, hlast, _⟩ :=
    Node.descend_first_compile_last (by rw [hshape]; decide) hcombined (by simp)
      (by decide) hindex (by decide) true
  exact ⟨hshape, entry, conflict, properties, hcompile, hproperties, hfirst, hlast⟩

end FormSchema
