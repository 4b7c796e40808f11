import FormSchema.Proofs.History

/-!
# Layers of props

The props of a field come from three layers: the keys of its node, those of its
`uniforms` over them, and those of its entry on top.  A key without a rule of its own
has the value of the topmost layer that states it.  The others are said one by one,
each in terms of what the layers state and not of the order in which keys are dropped,
renamed and written.
-/

namespace FormSchema

namespace Entry

variable {entry : Entry} {stated : Node}

theorem exists_properties_of_toNode (h : entry.toNode = .ok stated) :
    ∃ properties,
      stated = given "type" entry.type ++ given "properties" properties ++
        given "required" (entry.required.map .arr) ++
        given "allOf" (entry.allOf.map .arr) ++
        given "anyOf" (entry.anyOf.map .arr) ++
        given "oneOf" (entry.oneOf.map .arr) ++
        [("isRequired", .bool entry.isRequired)] := by
  unfold toNode at h
  split at h
  · exact ⟨none, (Except.ok.inj h).symm⟩
  · obtain ⟨pairs, _, hstated⟩ := bind_eq_ok_iff.1 h
    exact ⟨some (.obj (Pairs.toNode pairs)), (Except.ok.inj hstated).symm⟩

theorem get?_isRequired_of_toNode (h : entry.toNode = .ok stated) :
    stated.get? "isRequired" = some (.bool entry.isRequired) := by
  obtain ⟨properties, rfl⟩ := exists_properties_of_toNode h
  rw [Table.get?_append]
  rfl

theorem mem_keys_given {key name : String} {value : Option Json} :
    key ∈ Table.keys (given name value) ↔ value.isSome ∧ key = name := by
  cases value with
  | none => simp [given, Table.keys]
  | some value => simp [given, Table.keys]

def statedKeys : List String :=
  ["type", "properties", "required", "allOf", "anyOf", "oneOf", "isRequired"]

theorem get?_of_toNode {key : String} (h : entry.toNode = .ok stated)
    (hkey : key ∉ statedKeys) : stated.get? key = none := by
  obtain ⟨properties, rfl⟩ := exists_properties_of_toNode h
  rw [Table.get?_eq_none_iff]
  intro hmem
  simp only [Table.keys_append, List.mem_append, mem_keys_given] at hmem
  apply hkey
  simp only [statedKeys, List.mem_cons]
  grind [Table.keys]

end Entry

namespace Props

/-! ## What the layers state -/

structure Layers where
  own : Node
  uniforms : Node
  stated : Node

def Layers.ofField (node : Node) (entry : Entry) : Except Fault Layers := do
  .ok ⟨node.erase "uniforms", ← Props.uniforms node, ← entry.toNode⟩

def defers : Json → Bool
  | .bool true => true
  | _ => false

def shown : Json → Json
  | .bool false | .null => .str ""
  | value => value

namespace Layers

def value (layers : Layers) (key : String) : Option Json :=
  (layers.stated.get? key).or
    ((layers.uniforms.get? key).or (layers.own.get? key))

def choices (layers : Layers) (given : Node) : Option Json :=
  ((given.get? "options").filter Json.truthy).or
    ((layers.value "options").filter Json.truthy)

/-- What is stated as the label: the first of label and title that decides. -/
def label? (layers : Layers) : Option Json :=
  (((layers.value "label").toList ++ (layers.value "title").toList).find?
    fun value => !defers value).map shown

end Layers

def unseenKeys : List String := ["default", "format", "enum", "isRequired", "title"]

def ruledKeys : List String :=
  ["type", "required", "decimal", "allowedValues", "transform", "label"]

/-- Props that are laid out from these layers, and from the choices of a call. -/
structure Laid (layers : Layers) (entry : Entry) (path : List String) (given : Node)
    (props : Props) : Prop where
  kept : ∀ key, key ∉ unseenKeys → key ∉ ruledKeys →
    props.values.get? key = layers.value key
  unseen : ∀ key ∈ unseenKeys, props.values.get? key = none
  type : props.values.get? "type" = layers.uniforms.given? "type"
  required : ∃ flag, props.values.get? "required" = some (.bool flag) ∧
    (layers.value "required" = some (.bool flag) ∨
      (∀ other, layers.value "required" ≠ some (.bool other)) ∧
        flag = entry.isRequired)
  decimal : props.values.get? "decimal" =
    if Node.declares layers.own "number" then some (.bool true)
    else layers.value "decimal"
  chosen : ∀ value, layers.choices given = some value →
    ∃ options, Options.ofJson value = .ok options ∧ props.options = some options ∧
      props.values.get? "allowedValues" = some (.arr options.allowedValues)
  free : layers.choices given = none →
    props.options = none ∧
    props.values.get? "allowedValues" =
      ((layers.value "enum").filter Json.truthy).or (layers.value "allowedValues") ∧
    props.values.get? "transform" = layers.value "transform"
  label : props.values.get? "label" =
    some (layers.label?.getD (defaultLabel path))

/-! ## The rules one by one -/

theorem decisive_eq_find? (candidates : List (Option Json)) (last : Json) :
    decisive candidates last =
      (((candidates.filterMap id).find? fun value => !defers value).map shown).getD
        last := by
  induction candidates with
  | nil => rfl
  | cons candidate rest ih =>
      cases candidate with
      | none => exact ih
      | some value =>
          cases value with
          | bool flag =>
              cases flag with
              | true => exact ih
              | false => rfl
          | _ => rfl

theorem get?_settle (table : Node) (key other : String) (value : Option Json) :
    (settle table key value).get? other =
      if key = other then value.or (table.get? other) else table.get? other := by
  cases value with
  | none => simp [settle]
  | some value => simp [settle, Table.get?_insert]

variable {own uniforms overlaid ready given : Node} {path : List String}
  {props : Props} {key : String}

theorem get?_kept (hkey : key ∉ dropped) :
    (dropped.foldl Table.erase overlaid).get? key = overlaid.get? key := by
  rw [Table.get?_foldl_erase, if_neg hkey]

theorem get?_dropped (hkey : key ∈ dropped) :
    (dropped.foldl Table.erase overlaid).get? key = none := by
  rw [Table.get?_foldl_erase, if_pos hkey]

/-! What is derived, key by key, from what the overlaid layers hold. -/

theorem get?_derive_of_not_ruled (hkey : key ∉ ruledKeys) :
    (derive own uniforms overlaid path).get? key =
      (dropped.foldl Table.erase overlaid).get? key := by
  have hne : ∀ other ∈ ruledKeys, other ≠ key := by
    rintro other hother rfl
    exact hkey hother
  simp only [derive, Table.get?_insert, get?_settle]
  rw [if_neg (hne "label" (by decide)), if_neg (hne "required" (by decide)),
    if_neg (hne "type" (by decide)), if_neg (hne "decimal" (by decide)),
    if_neg (hne "allowedValues" (by decide))]

theorem get?_derive_label :
    (derive own uniforms overlaid path).get? "label" =
      some (decisive [overlaid.get? "label", overlaid.get? "title"]
        (defaultLabel path)) := by
  simp only [derive, Table.get?_insert, reduceIte]
  rw [get?_kept (by decide)]

theorem get?_derive_required :
    (derive own uniforms overlaid path).get? "required" =
      if (overlaid.get? "required").any isBool then overlaid.get? "required"
      else some ((overlaid.get? "isRequired").getD (.bool false)) := by
  simp only [derive, Table.get?_insert, get?_settle, String.reduceEq, reduceIte]
  rw [get?_kept (by decide)]
  split <;> rfl

theorem get?_derive_type :
    (derive own uniforms overlaid path).get? "type" = uniforms.given? "type" := by
  simp only [derive, Table.get?_insert, get?_settle, String.reduceEq, reduceIte]
  rw [get?_dropped (by decide), Option.or_none]

theorem get?_derive_decimal :
    (derive own uniforms overlaid path).get? "decimal" =
      if Node.declares own "number" then some (.bool true)
      else overlaid.get? "decimal" := by
  simp only [derive, Table.get?_insert, get?_settle, String.reduceEq, reduceIte]
  rw [get?_kept (by decide)]
  split <;> rfl

theorem get?_derive_allowedValues :
    (derive own uniforms overlaid path).get? "allowedValues" =
      ((overlaid.get? "enum").filter Json.truthy).or
        (overlaid.get? "allowedValues") := by
  simp only [derive, Table.get?_insert, get?_settle, String.reduceEq, reduceIte]
  rw [get?_kept (by decide)]

theorem get?_derive_transform :
    (derive own uniforms overlaid path).get? "transform" =
      overlaid.get? "transform" := by
  simp only [derive, Table.get?_insert, get?_settle, String.reduceEq, reduceIte]
  rw [get?_kept (by decide)]

theorem withOptions_eq_ok (h : withOptions given ready = .ok props) :
    (chosen given ready = none ∧ props = ⟨ready, none⟩) ∨
      ∃ value options, chosen given ready = some value ∧
        Options.ofJson value = .ok options ∧
        props = ⟨(ready.erase "transform").insert "allowedValues"
          (.arr options.allowedValues), some options⟩ := by
  unfold withOptions at h
  split at h
  · next hnone =>
      cases h
      exact .inl ⟨hnone, rfl⟩
  · next value hvalue =>
      obtain ⟨options, hoptions, hprops⟩ := bind_eq_ok_iff.1 h
      cases hprops
      exact .inr ⟨value, options, hvalue, hoptions, rfl⟩

def chosenKeys : List String := ["allowedValues", "transform"]

theorem get?_of_withOptions (h : withOptions given ready = .ok props)
    (hkey : key ∉ chosenKeys) : props.values.get? key = ready.get? key := by
  simp only [chosenKeys, List.mem_cons, List.not_mem_nil, or_false, not_or] at hkey
  obtain ⟨hallowed, htransform⟩ := hkey
  rcases withOptions_eq_ok h with ⟨_, rfl⟩ | ⟨_, options, _, _, rfl⟩
  · rfl
  · rw [Table.get?_insert, if_neg (Ne.symm hallowed), Table.get?_erase,
      if_neg (Ne.symm htransform)]

/-! ## The layers of a field -/

variable {layers : Layers} {entry : Entry}

theorem exists_flag_of_required (own uniforms : Node) (path : List String)
    (hflag : overlaid.get? "isRequired" = some (.bool entry.isRequired)) :
    ∃ flag, (derive own uniforms overlaid path).get? "required" =
        some (.bool flag) ∧
      (overlaid.get? "required" = some (.bool flag) ∨
        (∀ other, overlaid.get? "required" ≠ some (.bool other)) ∧
          flag = entry.isRequired) := by
  rw [get?_derive_required, hflag]
  cases hrequired : overlaid.get? "required" with
  | none => exact ⟨entry.isRequired, rfl, .inr ⟨nofun, rfl⟩⟩
  | some value =>
      cases value with
      | bool flag => exact ⟨flag, rfl, .inl rfl⟩
      | _ => exact ⟨entry.isRequired, rfl, .inr ⟨nofun, rfl⟩⟩

theorem laid_of_withOptions
    (hvalue : ∀ key, overlaid.get? key = layers.value key)
    (hflag : layers.stated.get? "isRequired" = some (.bool entry.isRequired))
    (h : withOptions given (derive layers.own layers.uniforms overlaid path) =
      .ok props) :
    props.Laid layers entry path given := by
  have hchosen : chosen given (derive layers.own layers.uniforms overlaid path) =
      layers.choices given := by
    rw [chosen, get?_derive_of_not_ruled (by decide), get?_kept (by decide), hvalue]
    rfl
  -- `type` is dropped as well, but may come back from `uniforms`.
  have hseen : ∀ key ∈ dropped, key ∈ unseenKeys ∨ key ∈ ruledKeys := by decide
  have hdrop : ∀ key ∈ unseenKeys, key ∈ dropped ∧ key ∉ ruledKeys := by decide
  have hchoose : ∀ key ∈ chosenKeys, key ∈ ruledKeys := by decide
  refine
    { kept := ?_, unseen := ?_, type := ?_, required := ?_, decimal := ?_,
      chosen := ?_, free := ?_, label := ?_ }
  · intro key hunseen hruled
    have hdropped : key ∉ dropped := fun hmem =>
      (hseen key hmem).elim hunseen hruled
    rw [get?_of_withOptions h fun hmem => hruled (hchoose key hmem),
      get?_derive_of_not_ruled hruled, get?_kept hdropped, hvalue]
  · intro key hunseen
    obtain ⟨hdropped, hruled⟩ := hdrop key hunseen
    rw [get?_of_withOptions h fun hmem => hruled (hchoose key hmem),
      get?_derive_of_not_ruled hruled, get?_dropped hdropped]
  · rw [get?_of_withOptions h (by decide), get?_derive_type]
  · rw [get?_of_withOptions h (by decide), ← hvalue]
    apply exists_flag_of_required
    rw [hvalue, Layers.value, hflag]
    rfl
  · rw [get?_of_withOptions h (by decide), get?_derive_decimal, hvalue]
  · intro value hchoices
    rw [← hchosen] at hchoices
    rcases withOptions_eq_ok h with ⟨hnone, _⟩ | ⟨_, options, hsome, hoptions, rfl⟩
    · rw [hnone] at hchoices
      cases hchoices
    · rw [hsome] at hchoices
      cases hchoices
      exact ⟨options, hoptions, rfl, by rw [Table.get?_insert, if_pos rfl]⟩
  · intro hchoices
    rw [← hchosen] at hchoices
    rcases withOptions_eq_ok h with ⟨_, rfl⟩ | ⟨_, options, hsome, _, rfl⟩
    · refine ⟨rfl, ?_, ?_⟩
      · rw [get?_derive_allowedValues, hvalue, hvalue]
      · rw [get?_derive_transform, hvalue]
    · rw [hsome] at hchoices
      cases hchoices
  · rw [get?_of_withOptions h (by decide), get?_derive_label, decisive_eq_find?,
      hvalue, hvalue, Layers.label?]
    cases layers.value "label" <;> cases layers.value "title" <;> rfl

theorem Layers.ofField_eq_ok_iff {node : Node} :
    ofField node entry = .ok layers ↔
      layers.own = node.erase "uniforms" ∧
      Props.uniforms node = .ok layers.uniforms ∧
      entry.toNode = .ok layers.stated := by
  simp only [ofField, bind_eq_ok_iff]
  constructor
  · rintro ⟨uniforms, huniforms, stated, hstated, hlayers⟩
    cases hlayers
    exact ⟨rfl, huniforms, hstated⟩
  · rintro ⟨hown, huniforms, hstated⟩
    refine ⟨layers.uniforms, huniforms, layers.stated, hstated, ?_⟩
    rw [← hown]

theorem Layers.get?_own {node : Node} (h : ofField node entry = .ok layers)
    (hkey : key ≠ "uniforms") : layers.own.get? key = node.get? key := by
  rw [(ofField_eq_ok_iff.1 h).1, Table.get?_erase, if_neg (Ne.symm hkey)]

theorem laid_of_build {node : Node} (h : build node entry path given = .ok props) :
    ∃ layers, Layers.ofField node entry = .ok layers ∧
      props.Laid layers entry path given := by
  unfold build at h
  obtain ⟨uniforms, huniforms, h⟩ := bind_eq_ok_iff.1 h
  obtain ⟨stated, hstated, h⟩ := bind_eq_ok_iff.1 h
  refine ⟨⟨node.erase "uniforms", uniforms, stated⟩,
    Layers.ofField_eq_ok_iff.2 ⟨rfl, huniforms, hstated⟩, ?_⟩
  refine laid_of_withOptions ?_ (Entry.get?_isRequired_of_toNode hstated) h
  intro key
  rw [Table.get?_overlay, Table.get?_overlay]
  rfl

end Props

namespace Form

open FormSchema.Action

variable (form : Form)

def propsAt (path : List String) (given : Node) : Except Failure Props := do
  let node ← form.nodeAt path
  let entry ← form.entryAt path
  reportAt none (Fault.orOk (Props.build node entry path given))

theorem settles_props (path : List String) (given : Node) :
    (form.props path given).Settles form (form.propsAt path given) := by
  apply Settles.bind (settles_field path)
  intro node _
  exact .bind (settles_entry path) fun entry _ => .ofFault _

theorem reply_props (calls : List Call) (name : Spelling) (given : Node) :
    form.reply calls (.props name given) =
      name.path >>= fun path => form.propsAt path given >>= fun props =>
        .ok (.props props) := by
  apply form.reply_eq_of_settles
  apply Settles.bind (Settles.ofExcept name.path)
  intro path _
  exact .bind (form.settles_props path given) fun props _ => .pure _

variable {form : Form} {calls : List Call} {name : Spelling} {given : Node}
  {props : Props}

/-- Whatever props a call gives, they are laid out from the node and the entry of
the field that is named. -/
theorem exists_build_of_reply_props
    (h : form.reply calls (.props name given) = .ok (.props props)) :
    ∃ path node entry, name.path = .ok path ∧
      form.reply calls (.field name) = .ok (.field node) ∧
      form.reply calls (.entry name) = .ok (.entry entry) ∧
      Props.build node entry path given = .ok props := by
  rw [reply_props] at h
  obtain ⟨path, hpath, h⟩ := bind_eq_ok_iff.1 h
  obtain ⟨_, hprops, hanswer⟩ := bind_eq_ok_iff.1 h
  cases hanswer
  obtain ⟨node, hnode, hprops⟩ := bind_eq_ok_iff.1 hprops
  obtain ⟨entry, hentry, hprops⟩ := bind_eq_ok_iff.1 hprops
  refine ⟨path, node, entry, hpath, ?_, ?_, ?_⟩
  · rw [reply_field, hpath, ok_bind, hnode, ok_bind]
  · rw [reply_entry, hpath, ok_bind, hentry, ok_bind]
  · exact Fault.orOk_eq_ok_iff.1 (reportAt_eq_ok_iff.1 hprops)

theorem reply_props_laid
    (h : form.reply calls (.props name given) = .ok (.props props)) :
    ∃ path node entry layers, name.path = .ok path ∧
      form.reply calls (.field name) = .ok (.field node) ∧
      form.reply calls (.entry name) = .ok (.entry entry) ∧
      Props.Layers.ofField node entry = .ok layers ∧
      props.Laid layers entry path given := by
  obtain ⟨path, node, entry, hpath, hfield, hentry, hbuild⟩ :=
    exists_build_of_reply_props h
  obtain ⟨layers, hlayers, hlaid⟩ := Props.laid_of_build hbuild
  exact ⟨path, node, entry, layers, hpath, hfield, hentry, hlayers, hlaid⟩

end Form

def bill : Node :=
  [("type", .str "object"),
   ("required", .arr [.str "amount"]),
   ("properties", .obj
     [("amount", .obj
       [("type", .str "number"),
        ("label", .bool true),
        ("title", .str "Amount due"),
        ("default", .int 1),
        ("required", .str "always"),
        ("allOf", .arr [.obj [("title", .str "Amount")]]),
        ("uniforms", .obj
          [("type", .str "money"), ("placeholder", .str "0.00"),
           ("decimal", .bool false)])])])]

theorem bill_amount_laid :
    ∃ props,
      Form.reply ⟨bill, bill, .null⟩ [] (.props (.listed ["amount"]) []) =
        .ok (.props props) ∧
      props.values.get? "label" = some (.str "Amount due") ∧
      props.values.get? "type" = some (.str "money") ∧
      props.values.get? "decimal" = some (.bool true) ∧
      props.values.get? "placeholder" = some (.str "0.00") ∧
      props.values.get? "default" = none := by
  obtain ⟨props, hprops⟩ : ∃ props,
      Form.reply ⟨bill, bill, .null⟩ [] (.props (.listed ["amount"]) []) =
        .ok (.props props) := ⟨_, rfl⟩
  obtain ⟨path, node, entry, layers, hpath, hfield, hentry, hlayers, hlaid⟩ :=
    Form.reply_props_laid hprops
  cases hpath
  cases hfield
  cases hentry
  cases hlayers
  exact ⟨props, hprops, hlaid.label, hlaid.type, hlaid.decimal,
    hlaid.kept "placeholder" (by decide) (by decide),
    hlaid.unseen "default" (by decide)⟩

end FormSchema
