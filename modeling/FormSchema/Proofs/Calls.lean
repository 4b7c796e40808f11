import FormSchema.Form.Call

/-!
# What holds of every call

Each call reads a name and is then put together from the four questions about a
field and from steps that leave the session alone.  So what holds of these, and
of two actions in a row when it holds of either, holds of every call.  It is enough
that it holds of questions about the paths that the call asks for.
-/

namespace FormSchema

def Call.name : Call → Spelling
  | .field name | .entry name | .subfields name | .type name | .initial name _
  | .props name _ => name

/-- The paths that a call asks for: that of its name, and those of the first items
below it where an initial value is asked for. -/
inductive Call.Asks : Call → List String → Prop
  | named {call : Call} {path : List String} (h : call.name.path = .ok path) :
      Asks call path
  | below {name : Spelling} {given : Node} {path : List String} (depth : Nat)
      (h : name.path = .ok path) :
      Asks (.initial name given) (path ++ List.replicate depth "0")

theorem Call.Asks.item {name : Spelling} {given : Node} {path : List String}
    (h : Asks (.initial name given) path) :
    Asks (.initial name given) (path ++ ["0"]) := by
  cases h with
  | named hname => exact .below 1 hname
  | below depth hname =>
      rw [List.append_assoc, ← List.replicate_succ']
      exact .below (depth + 1) hname

/-- A property that the parts of a call have, and that whole actions have from
their parts. -/
structure Form.Pervades (form : Form)
    (property : {α : Type} → Action α → Prop) : Prop where
  ofExcept : ∀ {α : Type} (outcome : Except Failure α),
    property (Action.ofExcept outcome)
  bind : ∀ {α β : Type} {action : Action α} {next : α → Action β},
    property action → (∀ value, property (next value)) → property (action >>= next)
  field : ∀ path, property (form.field path)
  entry : ∀ path, property (form.entry path)
  subfields : ∀ path, property (form.subfields path)
  type : ∀ path, property (form.type path)

structure Form.PervadesOn (form : Form) (asked : List String → Prop)
    (property : {α : Type} → Action α → Prop) : Prop where
  ofExcept : ∀ {α : Type} (outcome : Except Failure α),
    property (Action.ofExcept outcome)
  bind : ∀ {α β : Type} {action : Action α} {next : α → Action β},
    property action → (∀ value, property (next value)) → property (action >>= next)
  field : ∀ path, asked path → property (form.field path)
  entry : ∀ path, asked path → property (form.entry path)
  subfields : ∀ path, asked path → property (form.subfields path)
  type : ∀ path, asked path → property (form.type path)

namespace Form.PervadesOn

variable {form : Form} {asked : List String → Prop}
  {property : {α : Type} → Action α → Prop}

theorem pure (h : form.PervadesOn asked property) {α : Type} (value : α) :
    property (Pure.pure value : Action α) :=
  h.ofExcept (.ok value)

theorem ofFault (h : form.PervadesOn asked property) {α : Type}
    (outcome : Except Fault α) : property (Action.ofFault outcome) := by
  rw [Action.ofFault_eq]
  exact h.ofExcept _

theorem ofPath (h : form.PervadesOn asked property) {β : Type} {name : Spelling}
    {next : List String → Action β}
    (hnext : ∀ path, name.path = .ok path → property (next path)) :
    property (Action.ofExcept name.path >>= next) := by
  cases hname : name.path with
  | error failure => exact h.ofExcept (.error failure)
  | ok path => exact hnext path hname

theorem initialWithin (h : form.PervadesOn asked property)
    (hitem : ∀ path, asked path → asked (path ++ ["0"])) (depth : Nat)
    {path : List String} (hpath : asked path) (count : Option Json) :
    property (form.initialWithin depth path count) := by
  induction depth generalizing path count with
  | zero => exact h.ofExcept (.error _)
  | succ depth ih =>
      apply h.bind (h.field path hpath)
      intro node
      apply h.bind (h.entry path hpath)
      intro entry
      apply h.bind (h.ofFault _)
      intro found
      split
      · exact h.pure _
      · dsimp only
        split
        · apply h.bind (ih (hitem path hpath) none)
          intro item
          apply h.bind (h.ofFault _)
          intro count
          exact h.pure _
        · split
          · exact h.pure _
          · exact h.pure _

theorem props (h : form.PervadesOn asked property) {path : List String}
    (hpath : asked path) (given : Node) : property (form.props path given) := by
  apply h.bind (h.field path hpath)
  intro node
  apply h.bind (h.entry path hpath)
  intro entry
  exact h.ofFault _

theorem perform {call : Call} (h : form.PervadesOn call.Asks property) :
    property (form.perform call) := by
  cases call with
  | field name =>
      exact h.ofPath fun path hname =>
        h.bind (h.field path (.named hname)) fun _ => h.pure _
  | entry name =>
      exact h.ofPath fun path hname =>
        h.bind (h.entry path (.named hname)) fun _ => h.pure _
  | subfields name =>
      exact h.ofPath fun path hname =>
        h.bind (h.subfields path (.named hname)) fun _ => h.pure _
  | type name =>
      exact h.ofPath fun path hname =>
        h.bind (h.type path (.named hname)) fun _ => h.pure _
  | initial name given =>
      exact h.ofPath fun path hname =>
        h.bind (h.initialWithin (fun _ hasked => hasked.item) _ (.named hname) _)
          fun _ => h.pure _
  | props name given =>
      exact h.ofPath fun path hname =>
        h.bind (h.props (.named hname) given) fun _ => h.pure _

end Form.PervadesOn

theorem Form.Pervades.perform {form : Form}
    {property : {α : Type} → Action α → Prop} (h : form.Pervades property)
    (call : Call) : property (form.perform call) := by
  have hasked : form.PervadesOn call.Asks property :=
    { ofExcept := h.ofExcept
      bind := h.bind
      field := fun path _ => h.field path
      entry := fun path _ => h.entry path
      subfields := fun path _ => h.subfields path
      type := fun path _ => h.type path }
  exact hasked.perform

end FormSchema
