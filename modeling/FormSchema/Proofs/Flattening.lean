import FormSchema.Proofs.Precedence
import Mathlib.Data.List.Forall2

/-!
# What the members of a node say together

The entry of a node puts the members of its combinators on one level.  Four rules
say how: of the definitions of a property the last one counts, required names add
up, the first type counts where the node has none, and the types that differ from
the one that counts are a conflict.  Each is said here of the list of the members
that are objects, and the members are those that the node lists, in the order of
the combinators, whatever the order of the fields of the node.
-/

namespace FormSchema

theorem mapM_eq_ok_iff {ε α β : Type} {f : α → Except ε β} {values : List α}
    {results : List β} :
    values.mapM f = .ok results ↔
      List.Forall₂ (fun value result => f value = .ok result) values results := by
  induction values generalizing results with
  | nil =>
      rw [List.mapM_nil, List.forall₂_nil_left_iff]
      constructor
      · rintro ⟨⟩
        rfl
      · rintro rfl
        rfl
  | cons value values ih =>
      rw [List.mapM_cons, List.forall₂_cons_left_iff, bind_eq_ok_iff]
      constructor
      · rintro ⟨first, hfirst, hrest⟩
        obtain ⟨rest, hvalues, heq⟩ := bind_eq_ok_iff.1 hrest
        cases heq
        exact ⟨first, rest, hfirst, ih.1 hvalues, rfl⟩
      · rintro ⟨first, rest, hfirst, hvalues, rfl⟩
        refine ⟨first, hfirst, ?_⟩
        rw [ih.2 hvalues]
        rfl

/-! ## Keys in the order of their first occurrence -/

namespace Table

variable {α : Type}

theorem keys_overlay (base top : Table α) :
    (base.overlay top).keys =
      base.keys ++ (top.keys.filter fun key => !base.keys.contains key).eraseDups := by
  unfold overlay
  induction top generalizing base with
  | nil => simp [keys]
  | cons pair top ih =>
      rw [List.foldl_cons, ih, keys_insert, keys_cons]
      by_cases hmem : pair.1 ∈ base.keys
      · rw [if_pos hmem, List.filter_cons_of_neg (by simpa using hmem)]
      · have hfilter :
            ((keys top).filter fun key => !(base.keys ++ [pair.1]).contains key) =
              (keys top).filter fun key => !key == pair.1 && !base.keys.contains key := by
          apply List.filter_congr
          intro key _
          by_cases hsame : key = pair.1 <;> simp [hsame]
        rw [if_neg hmem, List.filter_cons_of_pos (by simpa using hmem),
          List.eraseDups_cons, List.filter_filter, hfilter, List.append_assoc,
          List.singleton_append]

end Table

namespace Entry

variable {members : List Node}

theorem merged_eq_overlay (members : List Node) :
    merged members = Table.overlay [] (members.flatMap Node.ownProperties) := by
  rw [Table.overlay, List.foldl_flatMap]
  rfl

theorem keys_merged (members : List Node) :
    (merged members).keys =
      (members.flatMap fun member => member.ownProperties.keys).eraseDups := by
  rw [merged_eq_overlay, Table.keys_overlay]
  simp [Table.keys, List.map_flatMap]

/-! ## The members behind an entry -/

end Entry

/-- What a node lists under a combinator, each member replaced by what it stands
for.  A node that has null there, or nothing, lists nothing. -/
inductive Node.Lists (document : Json) (node : Node) (combinator : Combinator) :
    Option (List Json) → Prop
  | none (h : node.given? combinator.key = none) : Lists document node combinator none
  | some {value : Json} {raw targets : List Json}
      (hgiven : node.given? combinator.key = some value)
      (hraw : value.members = .ok raw)
      (htargets : List.Forall₂
        (fun member target => Reference.dereference document member = .ok target)
        raw targets) : Lists document node combinator (some targets)

namespace Entry

variable {document : Json} {node : Node} {isRequired : Bool} {entry : Entry}
  {conflict : Option Conflict} {combinator : Combinator}

theorem lists_of_members {found : Option (List Json)}
    (h : members document node combinator = .ok found) :
    node.Lists document combinator found := by
  unfold members at h
  split at h
  · next hnone =>
      cases h
      exact .none hnone
  · next value hgiven =>
      obtain ⟨raw, hraw, hrest⟩ := bind_eq_ok_iff.1 h
      obtain ⟨targets, htargets, heq⟩ := bind_eq_ok_iff.1 hrest
      cases heq
      exact .some hgiven (Fault.orOk_eq_ok_iff.1 hraw) (mapM_eq_ok_iff.1 htargets)

theorem compile_congr {other : Node} (h : ∀ key, other.get? key = node.get? key)
    (isRequired : Bool) :
    compile document other isRequired = compile document node isRequired := by
  have hgiven : ∀ key, other.given? key = node.given? key := fun key => by
    rw [Table.given?, h, Table.given?]
  have hmembers : ∀ combinator,
      members document other combinator = members document node combinator :=
    fun combinator => by rw [members, hgiven, members]
  unfold compile
  simp only [hmembers, hgiven]

def declaredTypes (members : List Node) : List Json :=
  members.filterMap (·.given? "type")

/-- The entry of a node and its conflict, said of the members behind them. -/
structure Flattens (document : Json) (node : Node) (entry : Entry)
    (conflict : Option Conflict) : Prop where
  allOf : node.Lists document .allOf entry.allOf
  anyOf : node.Lists document .anyOf entry.anyOf
  oneOf : node.Lists document .oneOf entry.oneOf
  alone : entry.objects = [] →
    entry.properties = (node.given? "properties").map .stated ∧
      entry.type = none ∧ entry.required = none ∧ conflict = none
  properties : entry.objects ≠ [] →
    (∀ member ∈ entry.objects, isTabular member = true) →
      ∃ properties : Node,
        entry.properties = some (.merged (Pairs.ofNode properties)) ∧
        properties.keys =
          (entry.objects.flatMap fun member => member.ownProperties.keys).eraseDups ∧
        ∀ name, properties.get? name =
          (Node.definitions entry.objects name).getLast?
  required : entry.objects ≠ [] →
    entry.required = some (entry.objects.flatMap requiredNames)
  type : entry.objects ≠ [] →
    entry.type = if (node.given? "type").isSome then none
      else (declaredTypes entry.objects).head?
  disputed : entry.objects ≠ [] → ∀ declared winner,
    conflict = some ⟨declared, winner⟩ ↔
      (node.given? "type").or (declaredTypes entry.objects).head? = some winner ∧
        declared = (declaredTypes entry.objects).filter
          (fun type => !type.same winner) ∧ declared ≠ []

theorem conflict?_eq_some_iff {counting : Option Json} {types declared : List Json}
    {winner : Json} :
    conflict? counting types = some ⟨declared, winner⟩ ↔
      counting = some winner ∧
        declared = types.filter (fun type => !type.same winner) ∧ declared ≠ [] := by
  unfold conflict?
  cases counting with
  | none => simp
  | some counted =>
      dsimp only
      cases hothers : types.filter fun type => !type.same counted with
      | nil =>
          constructor
          · nofun
          · rintro ⟨hwinner, rfl, hne⟩
            cases hwinner
            exact absurd hothers hne
      | cons first others =>
          constructor
          · intro h
            cases h
            exact ⟨rfl, hothers.symm, List.cons_ne_nil first others⟩
          · rintro ⟨hwinner, rfl, _⟩
            cases hwinner
            rw [hothers]

/-- The entry that compiling gives is the four rules applied to the members, and the
order of the fields of the node has no part in it. -/
theorem compile_flattens
    (h : compile document node isRequired = .ok (entry, conflict)) :
    Flattens document node entry conflict ∧ entry.isRequired = isRequired ∧
      ∀ other : Node, (∀ key, other.get? key = node.get? key) →
        compile document other isRequired = .ok (entry, conflict) := by
  have hcompiled := compiled h
  refine ⟨?_, hcompiled.flag, fun other hother => (compile_congr hother _).trans h⟩
  refine
    { allOf := lists_of_members hcompiled.allOf
      anyOf := lists_of_members hcompiled.anyOf
      oneOf := lists_of_members hcompiled.oneOf
      alone := ?_, properties := ?_, required := ?_, type := ?_, disputed := ?_ }
  · intro hnil
    obtain ⟨htype, hproperties, hrequired, hconflict⟩ := hcompiled.stated hnil
    exact ⟨hproperties, htype, hrequired, hconflict⟩
  · intro hne htabular
    obtain ⟨pairs, hpairs, hproperties, _⟩ := hcompiled.merged hne
    rw [foldlM_mergeProperties_nil htabular] at hpairs
    cases hpairs
    exact ⟨merged entry.objects, hproperties, keys_merged _,
      Node.get?_merged entry.objects⟩
  · intro hne
    obtain ⟨_, _, _, hrequired, _⟩ := hcompiled.merged hne
    exact hrequired
  · intro hne
    obtain ⟨_, _, _, _, htype, _⟩ := hcompiled.merged hne
    exact htype
  · intro hne declared winner
    obtain ⟨_, _, _, _, htype, hconflict⟩ := hcompiled.merged hne
    have hcounting : (node.given? "type").or entry.type =
        (node.given? "type").or (declaredTypes entry.objects).head? := by
      rw [htype]
      cases node.given? "type" with
      | none => rfl
      | some own => rfl
    rw [hconflict, hcounting]
    exact conflict?_eq_some_iff

end Entry

def blendedMembers : List Node :=
  [[("type", .str "array"), ("required", .arr [.str "a"]),
    ("properties", .obj [("a", .str "first"), ("b", .obj [])])],
   [("type", .str "string"), ("properties", .bool false),
    ("required", .arr [.str "a", .str "a"])],
   [("type", .str "array"),
    ("properties", .obj [("c", .obj []), ("a", .null)])]]

def blended : Node :=
  [("oneOf", .arr ((blendedMembers.drop 2).map .obj)),
   ("type", .null),
   ("anyOf", .arr (.int 7 :: ((blendedMembers.drop 1).take 1).map .obj)),
   ("allOf", .arr [.obj [("$ref", .str "#/definitions/0")]])]

def blendedDocument : Json :=
  .obj [("definitions", .arr (blendedMembers.map .obj))]

theorem blended_flattened :
    ∃ entry conflict,
      Entry.compile blendedDocument blended true = .ok (entry, conflict) ∧
      entry.type = some (.str "array") ∧
      entry.required = some [.str "a", .str "a", .str "a"] ∧
      conflict = some ⟨[.str "string"], .str "array"⟩ ∧
      ∃ properties : Node,
        entry.properties = some (.merged (Pairs.ofNode properties)) ∧
        properties.keys = ["a", "b", "c"] ∧ properties.get? "a" = some .null := by
  obtain ⟨⟨entry, conflict⟩, hcompile⟩ :
      ∃ compiled, Entry.compile blendedDocument blended true = .ok compiled := ⟨_, rfl⟩
  have hcombined : blended.combined blendedDocument = .ok blendedMembers := rfl
  have hobjects : entry.objects = blendedMembers :=
    Except.ok.inj ((Entry.compiled hcompile).combined.symm.trans hcombined)
  obtain ⟨hflattens, _⟩ := Entry.compile_flattens hcompile
  have hne : entry.objects ≠ [] := by simp [hobjects, blendedMembers]
  have htabular : ∀ member ∈ entry.objects, Entry.isTabular member = true := by
    rw [hobjects]
    decide
  obtain ⟨properties, hproperties, hkeys, hvalues⟩ := hflattens.properties hne htabular
  have htype := hflattens.type hne
  have hrequired := hflattens.required hne
  have hdisputed := hflattens.disputed hne [.str "string"] (.str "array")
  have hvalue := hvalues "a"
  rw [hobjects] at htype hrequired hdisputed hkeys hvalue
  exact ⟨entry, conflict, hcompile, htype, hrequired,
    hdisputed.2 ⟨rfl, rfl, List.cons_ne_nil _ _⟩, properties, hproperties, hkeys, hvalue⟩

end FormSchema
