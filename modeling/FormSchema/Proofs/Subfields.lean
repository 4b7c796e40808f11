import FormSchema.Proofs.History
import FormSchema.Proofs.Regular

/-!
# Names that are listed and names that are found

The subfields of an object field are listed from its entry, where the members of
its combinators come before its own properties.  A name is found from its node,
where a declared type `object` comes before the members.  In a regular schema
the two agree, except where a node declares the type and has members as well:
there its own properties are found, and those of the members are listed.
-/

namespace FormSchema

/-! ## Names that are found -/

namespace Node

variable {document : Json} {node : Node} {members : List Node} {name : String}

theorem declares_eq_given? (node : Node) (type : String) :
    declares node type = (node.given? "type").any (·.isText type) := by
  unfold declares Table.given?
  cases node.get? "type" with
  | none => rfl
  | some value => cases value <;> rfl

theorem Regular.given?_own (h : node.Regular document) (name : String) :
    node.ownProperties.given? name = node.ownProperties.get? name := by
  apply Table.given?_eq_get?
  intro hnull
  obtain ⟨target, htarget⟩ := Json.isSchema_iff.1 (h.isSchema_of_own hnull)
  cases htarget

theorem Regular.descend_of_object (h : node.Regular document)
    (hobject : declares node "object" = true)
    (hindex : Path.isIndex name = false) (hwildcard : name ≠ wildcard)
    {found : Json} :
    descend document node name = .ok (some found) ↔
      node.ownProperties.get? name = some found := by
  unfold descend
  rw [if_neg (not_position hindex hwildcard),
    if_pos (shape_of_declares hobject), ← h.given?_own]
  cases hgiven : node.given? "properties" with
  | none =>
      rw [ownProperties_of_given?_eq_none hgiven]
      constructor
      · intro hdescend
        cases hdescend
      · intro hget
        cases hget
  | some stated =>
      obtain ⟨properties, rfl, _⟩ := h.properties hgiven
      rw [ownProperties_of_given? hgiven]
      exact ⟨Except.ok.inj, congrArg Except.ok⟩

theorem Regular.exists_child_of_own {holder : Node}
    (h : holder.Regular document) {found : Json}
    (hget : holder.ownProperties.get? name = some found)
    (hdescend : descend document node name = .ok (some found)) :
    ∃ next, child document node name = .ok next := by
  obtain ⟨next, htarget⟩ := Json.isSchema_iff.1 (h.isSchema_of_own hget)
  exact ⟨next, child_eq_ok_iff.2 ⟨found, hdescend, htarget⟩⟩

theorem Regular.exists_child_iff_of_object (h : node.Regular document)
    (hobject : declares node "object" = true)
    (hindex : Path.isIndex name = false) (hwildcard : name ≠ wildcard) :
    (∃ next, child document node name = .ok next) ↔
      name ∈ node.ownProperties.keys := by
  constructor
  · rintro ⟨next, hchild⟩
    obtain ⟨found, hdescend, _⟩ := child_eq_ok_iff.1 hchild
    have hget := (h.descend_of_object hobject hindex hwildcard).1 hdescend
    exact Table.mem_keys_of_get? hget
  · intro hmem
    obtain ⟨found, hget⟩ := Table.exists_get? hmem
    have hdescend := (h.descend_of_object hobject hindex hwildcard).2 hget
    exact h.exists_child_of_own hget hdescend

theorem exists_child_iff_of_members
    (hcombined : node.combined document = .ok members)
    (hregular : ∀ member ∈ members, member.Regular document)
    (hobject : declares node "object" = false)
    (hindex : Path.isIndex name = false) (hwildcard : name ≠ wildcard) :
    (∃ next, child document node name = .ok next) ↔
      ∃ member ∈ members, name ∈ member.ownProperties.keys := by
  have hsearch := descend_of_members hcombined (shape_ne_object hobject) hindex
    hwildcard
  constructor
  · rintro ⟨next, hchild⟩
    obtain ⟨found, hdescend, _⟩ := child_eq_ok_iff.1 hchild
    rw [hsearch] at hdescend
    obtain ⟨member, hmember, hgiven⟩ :=
      List.exists_of_findSome?_eq_some (Except.ok.inj hdescend)
    rw [(hregular member hmember).given?_own] at hgiven
    exact ⟨member, hmember, Table.mem_keys_of_get? hgiven⟩
  · rintro ⟨member, hmember, hmem⟩
    obtain ⟨value, hget⟩ := Table.exists_get? hmem
    rw [← (hregular member hmember).given?_own] at hget
    have hsome : (members.findSome? fun member =>
        member.ownProperties.given? name).isSome = true :=
      List.findSome?_isSome_iff.2 ⟨member, hmember, by rw [hget]; rfl⟩
    obtain ⟨found, hfound⟩ := Option.isSome_iff_exists.1 hsome
    -- The first member that gives the name need not be the one at hand.
    obtain ⟨first, hfirst, hgiven⟩ := List.exists_of_findSome?_eq_some hfound
    rw [(hregular first hfirst).given?_own] at hgiven
    rw [hfound] at hsearch
    exact (hregular first hfirst).exists_child_of_own hgiven hsearch

end Node

/-! ## Names that are listed -/

namespace Properties

theorem names_stated_obj (table : Node) :
    (stated (.obj table)).names = .ok (table.keys.map Json.str) := by
  cases table with
  | nil => rfl
  | cons field table =>
      change Except.ok (List.map _ _) = Except.ok _
      simp [Table.keys]

theorem names_merged_ofNode (table : Node) :
    (merged (Pairs.ofNode table)).names = .ok (table.keys.map Json.str) := by
  simp [names, Pairs.keys, Pairs.ofNode, Table.keys]

end Properties

namespace Form

variable {form : Form} {document : Json} {node : Node} {members : List Node}
  {entry : Entry} {conflict : Option Conflict} {isRequired : Bool}

theorem namesOf_own (hregular : node.Regular document)
    (htype : (entry.effectiveType node).any (·.isText "object") = true)
    (hentry : entry.properties = (node.given? "properties").map .stated) :
    namesOf node entry = .ok (node.ownProperties.keys.map Json.str) := by
  unfold namesOf
  rw [if_pos htype, hentry]
  dsimp only
  rw [Option.or_self]
  cases hgiven : node.given? "properties" with
  | none => rw [Node.ownProperties_of_given?_eq_none hgiven]; rfl
  | some value =>
      obtain ⟨table, rfl, _⟩ := hregular.properties hgiven
      rw [Node.ownProperties_of_given? hgiven]
      exact Properties.names_stated_obj table

theorem namesOf_merged {table : Node}
    (htype : (entry.effectiveType node).any (·.isText "object") = true)
    (hentry : entry.properties = some (.merged (Pairs.ofNode table))) :
    namesOf node entry = .ok (table.keys.map Json.str) := by
  unfold namesOf
  rw [if_pos htype, hentry]
  exact Properties.names_merged_ofNode table

theorem str_mem_map_iff {names : List String} {name : String} :
    Json.str name ∈ names.map Json.str ↔ name ∈ names := by
  simp

theorem Regular.listing_of_nil (h : form.Regular) (hread : form.Reads node)
    (hcombined : node.combined (.obj form.document) = .ok [])
    (hcompile : Entry.compile (.obj form.document) node isRequired =
      .ok (entry, conflict))
    (htype : (entry.effectiveType node).any (·.isText "object") = true) :
    ∃ names, namesOf node entry = .ok names ∧
      ∀ name, Json.str name ∈ names ↔ name ∈ node.ownProperties.keys := by
  obtain ⟨_, hproperties⟩ := Entry.stated_of_compile hcombined hcompile
  refine ⟨_, namesOf_own (h node hread) htype hproperties, fun name => ?_⟩
  rw [str_mem_map_iff]

theorem Regular.listing_of_members (h : form.Regular) (hread : form.Reads node)
    (hcombined : node.combined (.obj form.document) = .ok members)
    (hne : members ≠ [])
    (hcompile : Entry.compile (.obj form.document) node isRequired =
      .ok (entry, conflict))
    (htype : (entry.effectiveType node).any (·.isText "object") = true) :
    ∃ names, namesOf node entry = .ok names ∧
      ∀ name, Json.str name ∈ names ↔
        ∃ member ∈ members, name ∈ member.ownProperties.keys := by
  have hmergeable : ∀ member ∈ members, Entry.Mergeable member := by
    intro member hmember
    exact (h member (h.reads_of_mem hread hcombined hmember)).mergeable
  have hproperties :=
    Entry.merged_of_compile hcombined hne hmergeable hcompile
  refine ⟨_, namesOf_merged htype hproperties, fun name => ?_⟩
  rw [str_mem_map_iff, Entry.mem_keys_merged]

theorem members_ne_nil_of_type
    (hcombined : node.combined (.obj form.document) = .ok members)
    (hcompile : Entry.compile (.obj form.document) node isRequired =
      .ok (entry, conflict))
    (htype : (entry.effectiveType node).any (·.isText "object") = true)
    (hobject : Node.declares node "object" = false) : members ≠ [] := by
  rintro rfl
  obtain ⟨hnone, _⟩ := Entry.stated_of_compile hcombined hcompile
  rw [Entry.effectiveType, hnone, Option.none_or, ← Node.declares_eq_given?,
    hobject] at htype
  cases htype

end Form

/-! ## The two compared -/

namespace Form

def Lists (form : Form) (calls : List Call) (field : Spelling) (name : String) :
    Prop :=
  ∃ names, form.reply calls (.subfields field) = .ok (.subfields names) ∧
    Json.str name ∈ names

def Finds (form : Form) (calls : List Call) (path : List String) : Prop :=
  ∃ node, form.reply calls (.field (.listed path)) = .ok (.field node)

variable {form : Form} {calls : List Call} {field : Spelling}
  {path : List String} {stop : Stop} {entry : Entry} {name : String}

theorem finds_iff :
    form.Finds calls path ↔ ∃ stop, form.stopAt path = .ok stop := by
  unfold Finds
  simp only [reply_field, nodeAt, Spelling.path, ok_bind, bind_eq_ok_iff,
    map_eq_ok_iff]
  constructor
  · rintro ⟨_, _, ⟨stop, hstop, _⟩, _⟩
    exact ⟨stop, hstop⟩
  · rintro ⟨stop, hstop⟩
    exact ⟨stop.node, stop.node, ⟨stop, hstop, rfl⟩, rfl⟩

theorem lists_iff (hpath : field.path = .ok path) (hne : path ≠ [])
    (hstop : form.stopAt path = .ok stop) (hentry : stop.entry = some entry)
    {names : List Json} (hnames : namesOf stop.node entry = .ok names) :
    form.Lists calls field name ↔ Json.str name ∈ names := by
  have hempty : path.isEmpty = false := by simpa using hne
  have hlisted : form.namesAt path = .ok names := by
    simp [namesAt, hempty, nodeAt, entryAt, hstop, Except.map, hentry, hnames,
      Fault.orOk, reportAt]
  have hreply : form.reply calls (.subfields field) = .ok (.subfields names) := by
    rw [reply_subfields, hpath, ok_bind, hlisted, ok_bind]
  unfold Lists
  rw [hreply]
  constructor
  · rintro ⟨_, ⟨⟩, hmem⟩
    exact hmem
  · intro hmem
    exact ⟨names, rfl, hmem⟩

theorem Regular.reads_of_stopAt (h : form.Regular)
    (hstop : form.stopAt path = .ok stop) : form.Reads stop.node := by
  have halong := stopAt_eq_ok_iff.1 hstop
  apply Reads.along h _ halong
  exact .root

theorem Regular.finds_snoc_iff (h : form.Regular)
    (hstop : form.stopAt path = .ok stop) (hread : form.Reads stop.node) :
    form.Finds calls (path ++ [name]) ↔
      ∃ next, Node.child (.obj form.document) stop.node name = .ok next := by
  rw [finds_iff]
  constructor
  · rintro ⟨next, hnext⟩
    rw [stopAt_eq_ok_iff, Stop.along_snoc (stopAt_eq_ok_iff.1 hstop)] at hnext
    obtain ⟨_, _, hchild, _⟩ := Stop.step_eq_ok_iff.1 hnext
    exact ⟨next.node, hchild⟩
  · rintro ⟨next, hchild⟩
    obtain ⟨⟨compiled, conflict⟩, hcompile⟩ := h.exists_compile
      (hread.child h hchild) (Node.requires stop.node stop.entry name)
    refine ⟨⟨next, some compiled⟩, ?_⟩
    rw [stopAt_eq_ok_iff, Stop.along_snoc (stopAt_eq_ok_iff.1 hstop)]
    exact Stop.step_eq_ok_iff.2 ⟨compiled, conflict, hchild, hcompile, rfl⟩

theorem exists_stopAt_of_replies {node : Node} (hpath : field.path = .ok path)
    (hne : path ≠ [])
    (hfield : form.reply calls (.field field) = .ok (.field node))
    (hentry : form.reply calls (.entry field) = .ok (.entry entry)) :
    ∃ stop, form.stopAt path = .ok stop ∧ stop.node = node ∧
      stop.entry = some entry := by
  simp only [reply_field, reply_entry, hpath, ok_bind, nodeAt, entryAt,
    bind_eq_ok_iff, map_eq_ok_iff] at hfield hentry
  obtain ⟨_, ⟨stop, hstop, rfl⟩, hnode⟩ := hfield
  obtain ⟨_, ⟨again, hagain, rfl⟩, hcompiled⟩ := hentry
  rw [hstop] at hagain
  cases hagain
  cases hnode
  obtain ⟨own, hown⟩ :=
    Stop.exists_entry_of_along hne (stopAt_eq_ok_iff.1 hstop)
  rw [hown] at hcompiled
  cases hcompiled
  exact ⟨stop, hstop, rfl, hown⟩

/-- A name is listed where it is found, unless the field declares the type of an
object and has members as well. -/
theorem Regular.lists_iff_finds_unless_mixed (h : form.Regular) {node : Node}
    (hpath : field.path = .ok path) (hne : path ≠ [])
    (hfield : form.reply calls (.field field) = .ok (.field node))
    (hentry : form.reply calls (.entry field) = .ok (.entry entry))
    (htype : (entry.effectiveType node).any (·.isText "object") = true)
    (hindex : Path.isIndex name = false) (hwildcard : name ≠ Node.wildcard) :
    ∃ members, node.combined (.obj form.document) = .ok members ∧
      (Node.declares node "object" = false ∨ members = [] →
        (form.Lists calls field name ↔ form.Finds calls (path ++ [name]))) ∧
      (Node.declares node "object" = true → members ≠ [] →
        (form.Lists calls field name ↔
          ∃ member ∈ members, name ∈ member.ownProperties.keys) ∧
        (form.Finds calls (path ++ [name]) ↔ name ∈ node.ownProperties.keys)) := by
  obtain ⟨stop, hstop, rfl, hstored⟩ :=
    exists_stopAt_of_replies hpath hne hfield hentry
  obtain ⟨isRequired, conflict, hcompile⟩ :=
    exists_compile_of_stopAt hne hstop hstored
  have hread := h.reads_of_stopAt hstop
  have hregular := h stop.node hread
  obtain ⟨members, hcombined, hmembers⟩ := h.combined hread
  have hchild : form.Finds calls (path ++ [name]) ↔ _ :=
    h.finds_snoc_iff hstop hread
  refine ⟨members, hcombined, ?_⟩
  cases hobject : Node.declares stop.node "object" with
  | false =>
      have hsome := members_ne_nil_of_type hcombined hcompile htype hobject
      obtain ⟨names, hnames, hlisted⟩ :=
        h.listing_of_members hread hcombined hsome hcompile htype
      have hfound := Node.exists_child_iff_of_members hcombined
        (fun member hmember => h member (hmembers member hmember)) hobject
        hindex hwildcard
      refine ⟨fun _ => ?_, nofun⟩
      rw [lists_iff hpath hne hstop hstored hnames, hlisted, hchild, hfound]
  | true =>
      have hfound := hregular.exists_child_iff_of_object hobject hindex hwildcard
      constructor
      · rintro (hfalse | rfl)
        · cases hfalse
        · obtain ⟨names, hnames, hlisted⟩ :=
            h.listing_of_nil hread hcombined hcompile htype
          rw [lists_iff hpath hne hstop hstored hnames, hlisted, hchild, hfound]
      · intro _ hsome
        obtain ⟨names, hnames, hlisted⟩ :=
          h.listing_of_members hread hcombined hsome hcompile htype
        rw [lists_iff hpath hne hstop hstored hnames, hlisted, hchild, hfound]
        exact ⟨Iff.rfl, Iff.rfl⟩

end Form

def mixed : Node :=
  [("type", .str "object"),
   ("properties", .obj
     [("p", .obj
       [("type", .str "object"),
        ("properties", .obj [("a", .obj [("type", .str "string")])]),
        ("allOf", .arr
          [.obj [("properties", .obj [("b", .obj [("type", .str "string")])])]])]),
      ("q", .obj
       [("allOf", .arr
          [.obj
            [("type", .str "object"),
             ("properties", .obj [("c", .obj [("type", .str "string")])])]])])])]

theorem open_mixed : Form.open mixed .null = .ok ⟨mixed, mixed, .null⟩ := rfl

theorem regular_mixed : Form.Regular ⟨mixed, mixed, .null⟩ :=
  Form.regular_of_everyNode open_mixed (by decide)

theorem mixed_finds_what_it_does_not_list :
    Form.Lists ⟨mixed, mixed, .null⟩ [] (.listed ["q"]) "c" ∧
    Form.Finds ⟨mixed, mixed, .null⟩ [] ["q", "c"] ∧
    Form.Finds ⟨mixed, mixed, .null⟩ [] ["p", "a"] ∧
    ¬ Form.Lists ⟨mixed, mixed, .null⟩ [] (.listed ["p"]) "a" := by
  have hlists : Form.Lists ⟨mixed, mixed, .null⟩ [] (.listed ["q"]) "c" :=
    ⟨_, rfl, List.mem_singleton_self _⟩
  refine ⟨hlists, ?_, ?_⟩
  · have hpath : Spelling.path (.listed ["q"]) = .ok ["q"] := rfl
    have hfield : Form.reply ⟨mixed, mixed, .null⟩ [] (.field (.listed ["q"])) =
        .ok (.field _) := rfl
    have hentry : Form.reply ⟨mixed, mixed, .null⟩ [] (.entry (.listed ["q"])) =
        .ok (.entry _) := rfl
    have hindex : Path.isIndex "c" = false := by decide
    obtain ⟨_, _, hagree, _⟩ := regular_mixed.lists_iff_finds_unless_mixed
      hpath (by decide) hfield hentry rfl hindex (by decide)
    exact (hagree (.inl rfl)).1 hlists
  · have hpath : Spelling.path (.listed ["p"]) = .ok ["p"] := rfl
    have hfield : Form.reply ⟨mixed, mixed, .null⟩ [] (.field (.listed ["p"])) =
        .ok (.field _) := rfl
    have hentry : Form.reply ⟨mixed, mixed, .null⟩ [] (.entry (.listed ["p"])) =
        .ok (.entry _) := rfl
    have hindex : Path.isIndex "a" = false := by decide
    obtain ⟨members, hcombined, _, hmixed⟩ :=
      regular_mixed.lists_iff_finds_unless_mixed
        hpath (by decide) hfield hentry rfl hindex (by decide)
    cases hcombined
    obtain ⟨hlisted, hfound⟩ := hmixed rfl (by decide)
    rw [hlisted]
    exact ⟨hfound.2 (by decide), by decide⟩

theorem mixed_lists_what_it_does_not_find :
    ¬ ∀ (document : Node) (validator : Json) (form : Form) (calls : List Call)
        (field : Spelling) (path : List String) (node : Node) (entry : Entry)
        (name : String),
      Form.open document validator = .ok form → form.Regular →
      field.path = .ok path → path ≠ [] →
      form.reply calls (.field field) = .ok (.field node) →
      form.reply calls (.entry field) = .ok (.entry entry) →
      (entry.effectiveType node).any (·.isText "object") = true →
      Path.isIndex name = false → name ≠ Node.wildcard →
      (form.Lists calls field name ↔ form.Finds calls (path ++ [name])) := by
  intro h
  have hiff := h mixed .null _ [] (.listed ["p"]) ["p"] _ _ "b" open_mixed
    regular_mixed rfl (by decide) rfl rfl rfl (by decide) (by decide)
  have hlists : Form.Lists ⟨mixed, mixed, .null⟩ [] (.listed ["p"]) "b" :=
    ⟨_, rfl, List.mem_singleton_self _⟩
  obtain ⟨node, hnode⟩ := hiff.1 hlists
  cases hnode

end FormSchema
