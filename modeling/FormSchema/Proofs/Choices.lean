import Mathlib.Data.List.Forall2
import FormSchema.Proofs.Layers

/-!
# Choices and their labels

A field that is given choices allows their values, in the order in which they stand,
and has a label for each of them: that of the first choice with an equal value.  A
value that no choice equals has none.  Every value but the undefined number equals
itself, so that whatever else is allowed has a label.
-/

namespace FormSchema

/-! ## Values that equal themselves -/

theorem Binary64.same_self {number : Binary64} (h : number ≠ .nan) :
    number.same number = true := by
  cases number with
  | finite negative units => simp [same]
  | infinite negative => simp [same]
  | nan => exact absurd rfl h

namespace Json

theorem same_nan (value : Json) : same value (.real .nan) = false := by
  cases value with
  | real number => cases number <;> rfl
  | _ => rfl

mutual

theorem alike_self : ∀ value : Json, alike value value = true
  | null => rfl
  | bool value => beq_self_eq_true (ofBool value)
  | int value => beq_self_eq_true value
  | real .nan => rfl
  | real (.finite negative units) =>
      @Binary64.same_self (.finite negative units) nofun
  | real (.infinite negative) =>
      @Binary64.same_self (.infinite negative) nofun
  | str value => beq_self_eq_true value
  | arr elements => sameElements_self elements
  | obj fields => Bool.and_eq_true_iff.2
      ⟨beq_self_eq_true fields.length, sameFields_self fields fields fun _ _ => rfl⟩

theorem sameElements_self : ∀ elements : List Json, sameElements elements elements = true
  | [] => rfl
  | element :: elements => Bool.and_eq_true_iff.2
      ⟨alike_self element, sameElements_self elements⟩

theorem sameFields_self : ∀ fields others : List (String × Json),
    (∀ key ∈ Table.keys fields, Table.get? others key = Table.get? fields key) →
    sameFields fields others = true
  | [], _, _ => rfl
  | (key, value) :: fields, others, h => by
      rw [sameFields, Bool.and_eq_true, Bool.or_eq_true]
      constructor
      · by_cases hlater : key ∈ Table.keys fields
        · exact .inl (Table.contains_eq_true_iff.2 hlater)
        · right
          rw [h key List.mem_cons_self, Table.get?_cons, if_pos rfl,
            Table.get?_eq_none_iff.2 hlater]
          exact alike_self value
      · refine sameFields_self fields others fun other hother => ?_
        obtain ⟨found, hfound⟩ := Table.exists_get? hother
        rw [h other (List.mem_cons_of_mem _ hother), Table.get?_cons, hfound]
        rfl

end

theorem same_self {value : Json} (h : value ≠ .real .nan) : same value value = true := by
  have halike := alike_self value
  cases value with
  | real number =>
      cases number with
      | nan => exact absurd rfl h
      | _ => exact halike
  | _ => exact halike

end Json

namespace Options

/-! ## Lists of choices -/

def Offers (option : Node) (choice : Json × Json) : Prop :=
  option.get? "value" = some choice.1 ∧ option.get? "label" = some choice.2

/-- The first of the choices with this value has this label. -/
def Labels (choices : List (Json × Json)) (value label : Json) : Prop :=
  ∃ before own after, choices = before ++ (own, label) :: after ∧
    own.same value = true ∧ ∀ choice ∈ before, choice.1.same value = false

variable {options : List Node} {choices : List (Json × Json)} {value label : Json}

theorem ofJson_of_offers (h : List.Forall₂ Offers options choices) :
    ofJson (.arr (options.map .obj)) = .ok (.listed options) := by
  have hmap : (options.map Json.obj).mapM option = .ok options := by
    induction h with
    | nil => rfl
    | @cons first choice options choices hoffers _ ih =>
        have hvalue : Table.contains first "value" = true :=
          Table.contains_eq_true_iff.2 (Table.mem_keys_of_get? hoffers.1)
        rw [List.map_cons, List.mapM_cons, option, if_pos hvalue, ok_bind, ih]
        rfl
  change (do .ok (listed (← (options.map Json.obj).mapM option))) = _
  rw [hmap]
  rfl

theorem allowedValues_of_offers (h : List.Forall₂ Offers options choices) :
    (listed options).allowedValues = choices.map Prod.fst := by
  rw [allowedValues]
  induction h with
  | nil => rfl
  | cons hoffers _ ih => rw [List.filterMap_cons, hoffers.1, ih, List.map_cons]

theorem label_of_offers (h : List.Forall₂ Offers options choices) (value : Json) :
    (listed options).label value =
      match choices.find? fun choice => choice.1.same value with
      | some choice => .ok choice.2
      | none => .error .noSuchOption := by
  rw [Options.label]
  induction h with
  | nil => rfl
  | @cons first choice options choices hoffers _ ih =>
      have hsame : (first.get? "value").any (·.same value) = choice.1.same value := by
        rw [hoffers.1, Option.any_some]
      rw [List.find?_cons, List.find?_cons, hsame]
      cases choice.1.same value with
      | true =>
          dsimp only
          rw [hoffers.2]
      | false => exact ih

theorem label_eq_ok_iff (h : List.Forall₂ Offers options choices) :
    (listed options).label value = .ok label ↔ Labels choices value label := by
  rw [label_of_offers h]
  constructor
  · intro hlabel
    cases hfind : choices.find? fun choice => choice.1.same value with
    | none =>
        rw [hfind] at hlabel
        cases hlabel
    | some choice =>
        rw [hfind] at hlabel
        cases hlabel
        obtain ⟨hsame, before, after, heq, hbefore⟩ :=
          List.find?_eq_some_iff_append.1 hfind
        refine ⟨before, choice.1, after, heq, hsame, fun other hother => ?_⟩
        simpa using hbefore other hother
  · rintro ⟨before, own, after, heq, hsame, hbefore⟩
    have hfind : choices.find? (fun choice => choice.1.same value) =
        some (own, label) := by
      refine List.find?_eq_some_iff_append.2 ⟨hsame, before, after, heq, ?_⟩
      intro other hother
      rw [hbefore other hother]
      rfl
    rw [hfind]

theorem label_of_no_choice (h : List.Forall₂ Offers options choices)
    (hnone : ∀ choice ∈ choices, choice.1.same value = false) :
    (listed options).label value = .error .noSuchOption := by
  have hfind : choices.find? (fun choice => choice.1.same value) = none := by
    rw [List.find?_eq_none]
    intro choice hchoice
    rw [hnone choice hchoice]
    exact Bool.false_ne_true
  rw [label_of_offers h, hfind]

theorem exists_label_of_same {choice : Json × Json}
    (h : List.Forall₂ Offers options choices) (hmem : choice ∈ choices)
    (hsame : choice.1.same value = true) :
    ∃ label, (listed options).label value = .ok label := by
  rw [label_of_offers h]
  cases hfind : choices.find? fun choice => choice.1.same value with
  | some found => exact ⟨found.2, rfl⟩
  | none => exact absurd hsame (List.find?_eq_none.1 hfind choice hmem)

theorem label_of_table (table : Node) (key : String) :
    (labels table).label (.str key) =
      match table.get? key with
      | some label => .ok label
      | none => .error .missingKey := rfl

end Options

namespace Props

/-- Props that allow the keys of a table and have the labels that stand there. -/
structure OfTable (props : Props) (table : Node) (options : Options) : Prop where
  chosen : props.options = some options
  allowed : props.values.get? "allowedValues" = some (.arr (table.keys.map .str))
  total : ∀ key ∈ table.keys, ∃ label, table.get? key = some label ∧
    options.label (.str key) = .ok label
  missing : ∀ key, key ∉ table.keys → options.label (.str key) = .error .missingKey

/-- Props that allow the values of choices and have the label of the first that is
equal.  The undefined number, which equals nothing, has none, and all other values
have one. -/
structure OfList (props : Props) (choices : List (Json × Json)) (options : Options) :
    Prop where
  chosen : props.options = some options
  allowed : props.values.get? "allowedValues" = some (.arr (choices.map Prod.fst))
  first : ∀ value label, options.label value = .ok label ↔
    Options.Labels choices value label
  total : ∀ choice ∈ choices, choice.1 ≠ .real .nan →
    ∃ label, options.label choice.1 = .ok label
  undefined : options.label (.real .nan) = .error .noSuchOption
  missing : ∀ value, (∀ choice ∈ choices, choice.1.same value = false) →
    options.label value = .error .noSuchOption

variable {layers : Layers} {entry : Entry} {path : List String} {given : Node}
  {props : Props}

theorem Laid.ofTable {table : Node} (h : props.Laid layers entry path given)
    (hchoices : layers.choices given = some (.obj table)) :
    ∃ options, props.OfTable table options := by
  obtain ⟨_, hoptions, hprops, hallowed⟩ := h.chosen _ hchoices
  cases hoptions
  refine ⟨.labels table, hprops, hallowed, ?_, ?_⟩
  · intro key hkey
    obtain ⟨label, hlabel⟩ := Table.exists_get? hkey
    exact ⟨label, hlabel, by rw [Options.label_of_table, hlabel]⟩
  · intro key hkey
    rw [Options.label_of_table, Table.get?_eq_none_iff.2 hkey]

theorem Laid.ofList {listed : List Node} {choices : List (Json × Json)}
    (h : props.Laid layers entry path given)
    (hchoices : layers.choices given = some (.arr (listed.map .obj)))
    (hoffers : List.Forall₂ Options.Offers listed choices) :
    ∃ options, props.OfList choices options := by
  obtain ⟨_, hoptions, hprops, hallowed⟩ := h.chosen _ hchoices
  rw [Options.ofJson_of_offers hoffers] at hoptions
  cases hoptions
  rw [Options.allowedValues_of_offers hoffers] at hallowed
  refine ⟨.listed listed, hprops, hallowed, ?_, ?_, ?_, ?_⟩
  · exact fun value label => Options.label_eq_ok_iff hoffers
  · intro choice hmem hdefined
    exact Options.exists_label_of_same hoffers hmem (Json.same_self hdefined)
  · exact Options.label_of_no_choice hoffers fun choice _ => Json.same_nan choice.1
  · exact fun value hnone => Options.label_of_no_choice hoffers hnone

end Props

/-- The choices of a field, be they of the call or of a layer of the field, are what
its props allow, in their order and whatever is enumerated besides. -/
theorem Form.reply_props_choices {form : Form} {calls : List Call} {name : Spelling}
    {given : Node} {props : Props}
    (h : form.reply calls (.props name given) = .ok (.props props)) :
    ∃ path node entry layers, name.path = .ok path ∧
      form.reply calls (.field name) = .ok (.field node) ∧
      form.reply calls (.entry name) = .ok (.entry entry) ∧
      Props.Layers.ofField node entry = .ok layers ∧
      (∀ table, layers.choices given = some (.obj table) →
        ∃ options, props.OfTable table options) ∧
      ∀ listed choices, layers.choices given = some (.arr (listed.map .obj)) →
        List.Forall₂ Options.Offers listed choices →
        ∃ options, props.OfList choices options := by
  obtain ⟨path, node, entry, hpath, hfield, hentry, hbuild⟩ :=
    exists_build_of_reply_props h
  obtain ⟨layers, hlayers, hlaid⟩ := Props.laid_of_build hbuild
  exact ⟨path, node, entry, layers, hpath, hfield, hentry, hlayers,
    fun table => hlaid.ofTable, fun listed choices => hlaid.ofList⟩

def menu : Node :=
  [("type", .str "object"),
   ("properties", .obj
     [("size", .obj
       [("type", .str "string"),
        ("enum", .arr [.str "s"]),
        ("options", .obj [("s", .str "Small"), ("l", .str "Large")])]),
      ("dishes", .obj
       [("uniforms", .obj
         [("options", .arr
           [.obj [("label", .str "One"), ("value", .int 1)],
            .obj [("value", .bool true), ("label", .str "Yes")]])])])])]

theorem menu_choices_labelled :
    (∃ props options,
      Form.reply ⟨menu, menu, .null⟩ [] (.props (.listed ["size"]) []) =
        .ok (.props props) ∧
      props.values.get? "allowedValues" = some (.arr [.str "s", .str "l"]) ∧
      props.options = some options ∧
      options.label (.str "m") = .error .missingKey) ∧
    ∃ props options,
      Form.reply ⟨menu, menu, .null⟩ [] (.props (.listed ["dishes"]) []) =
        .ok (.props props) ∧
      props.values.get? "allowedValues" = some (.arr [.int 1, .bool true]) ∧
      props.options = some options ∧
      (∃ label, options.label (.int 1) = .ok label) ∧
      options.label (.bool true) = .ok (.str "One") ∧
      options.label (.int 2) = .error .noSuchOption := by
  obtain ⟨size, hsize⟩ : ∃ props,
      Form.reply ⟨menu, menu, .null⟩ [] (.props (.listed ["size"]) []) =
        .ok (.props props) := ⟨_, rfl⟩
  obtain ⟨dishes, hdishes⟩ : ∃ props,
      Form.reply ⟨menu, menu, .null⟩ [] (.props (.listed ["dishes"]) []) =
        .ok (.props props) := ⟨_, rfl⟩
  constructor
  · obtain ⟨_, _, _, _, _, hfield, hentry, hlayers, htable, _⟩ :=
      Form.reply_props_choices hsize
    cases hfield
    cases hentry
    cases hlayers
    obtain ⟨options, hoptions⟩ := htable _ rfl
    exact ⟨size, options, hsize, hoptions.allowed, hoptions.chosen,
      hoptions.missing "m" (by decide)⟩
  · obtain ⟨_, _, _, _, _, hfield, hentry, hlayers, _, hlist⟩ :=
      Form.reply_props_choices hdishes
    cases hfield
    cases hentry
    cases hlayers
    have hone : Options.Offers [("label", .str "One"), ("value", .int 1)]
        (.int 1, .str "One") := ⟨rfl, rfl⟩
    have hyes : Options.Offers [("value", .bool true), ("label", .str "Yes")]
        (.bool true, .str "Yes") := ⟨rfl, rfl⟩
    obtain ⟨options, hoptions⟩ := hlist _ _ rfl (.cons hone (.cons hyes .nil))
    refine ⟨dishes, options, hdishes, hoptions.allowed, hoptions.chosen, ?_, ?_, ?_⟩
    · exact hoptions.total (.int 1, .str "One") List.mem_cons_self nofun
    · exact (hoptions.first _ _).2 ⟨[], .int 1, _, rfl, rfl, nofun⟩
    · refine hoptions.missing _ ?_
      simp [Json.same, Json.sameInteger, Json.ofBool]

def ranks : Node :=
  [("type", .str "object"),
   ("properties", .obj
     [("rank", .obj
       [("type", .str "number"),
        ("options", .arr
          [.obj [("label", .str "None"), ("value", .real .nan)],
           .obj [("label", .str "Tied"), ("value", .arr [.real .nan])]])])])]

theorem ranks_undefined_unlabelled :
    ∃ props options,
      Form.reply ⟨ranks, ranks, .null⟩ [] (.props (.listed ["rank"]) []) =
        .ok (.props props) ∧
      props.values.get? "allowedValues" =
        some (.arr [.real .nan, .arr [.real .nan]]) ∧
      props.options = some options ∧
      options.label (.real .nan) = .error .noSuchOption ∧
      options.label (.arr [.real .nan]) = .ok (.str "Tied") :=
  ⟨_, _, rfl, rfl, rfl, rfl, rfl⟩

end FormSchema
