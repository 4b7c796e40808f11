import FormSchema.Proofs.History

/-!
# Answers to questions for initial values

The initial value of a field is said of the schema alone, as the other answers are.
An array without a default asks for the first of its items, and that is an array
again as often as it is nested.  How many items there are to be is looked at only
when their value is known: where the default of the root holds nothing, the answer
is an empty list if the first item below that is no such array is found, and
otherwise the failure to find it.
-/

namespace FormSchema

def Path.firstBelow (path : List String) (depth : Nat) : List String :=
  path ++ List.replicate depth "0"

namespace Path

theorem firstBelow_zero (path : List String) : firstBelow path 0 = path :=
  List.append_nil path

theorem firstBelow_succ (path : List String) (depth : Nat) :
    firstBelow path (depth + 1) = firstBelow (path ++ ["0"]) depth := by
  rw [firstBelow, firstBelow, List.replicate_succ, List.append_assoc,
    List.singleton_append]

theorem firstBelow_add (path : List String) (first second : Nat) :
    firstBelow path (first + second) = firstBelow (firstBelow path first) second := by
  rw [firstBelow, firstBelow, firstBelow, List.append_assoc,
    List.replicate_append_replicate]

end Path

namespace Form

open FormSchema.Action

def initialAt (form : Form) : Nat → List String → Option Json → Except Failure Json
  | 0, _, _ => .error ⟨.fault .endless, none⟩
  | depth + 1, path, count => do
      let node ← form.nodeAt path
      let entry ← form.entryAt path
      match ← reportAt none (Fault.orOk (form.defaultOf node path)) with
      | some value => .ok value
      | none =>
          if (entry.effectiveType node).any (·.isText "array") then do
            let item ← form.initialAt depth (path ++ ["0"]) none
            let count ← reportAt none (Fault.orOk (itemCount count))
            .ok (.arr (List.replicate count item))
          else if (entry.effectiveType node).any (·.isText "object") then .ok (.obj [])
          else .ok .null

section

variable (form : Form)

theorem settles_initialWithin (depth : Nat) (path : List String)
    (count : Option Json) :
    (form.initialWithin depth path count).Settles form
      (form.initialAt depth path count) := by
  induction depth generalizing path count with
  | zero => exact Settles.throw _
  | succ depth ih =>
      apply Settles.bind (settles_field path)
      intro node _
      apply Settles.bind (settles_entry path)
      intro entry _
      apply Settles.bind (Settles.ofFault _)
      intro found _
      cases found with
      | some value => exact .pure value
      | none =>
          dsimp only
          split
          · apply Settles.bind (ih (path ++ ["0"]) none)
            intro item _
            exact .bind (.ofFault _) fun count _ => .pure _
          · split
            · exact .pure _
            · exact .pure _

theorem reply_initial (calls : List Call) (name : Spelling) (given : Node) :
    form.reply calls (.initial name given) =
      name.path >>= fun path =>
        form.initialAt ((Json.obj form.document).size + 2) path
          (given.get? "initialCount") >>= fun value => .ok (.initial value) := by
  apply form.reply_eq_of_settles
  apply Settles.bind (Settles.ofExcept name.path)
  intro path _
  exact .bind (form.settles_initialWithin _ path _) fun value _ => .pure _

end

/-! ## Arrays without a default -/

def Unset (form : Form) (path : List String) : Prop :=
  ∀ value, form.root.get? "default" = some value → value.lookup path = .ok none

/-- A field is found at a path, is an array and has no default of its own. -/
def Bare (form : Form) (path : List String) : Prop :=
  ∃ node entry,
    form.reply [] (.field (.listed path)) = .ok (.field node) ∧
    form.reply [] (.entry (.listed path)) = .ok (.entry entry) ∧
    (entry.effectiveType node).any (·.isText "array") = true ∧
    node.get? "default" = none

/-- The items of an array are such arrays again, however deep they are nested. -/
def Endless (form : Form) (path : List String) : Prop :=
  ∀ depth, form.Bare (Path.firstBelow path depth)

variable {form : Form} {path : List String} {count : Option Json} {depth : Nat}

theorem Unset.append (h : form.Unset path) (rest : List String) :
    form.Unset (path ++ rest) := by
  intro value hvalue
  rw [Json.lookup_append, h value hvalue]

theorem Unset.defaultOf (h : form.Unset path) (node : Node) :
    form.defaultOf node path = .ok (node.get? "default") := by
  unfold Form.defaultOf
  cases node.get? "default" with
  | some value => rfl
  | none =>
      cases hroot : form.root.get? "default" with
      | none => rfl
      | some value => exact h value hroot

theorem bare_iff :
    form.Bare path ↔ ∃ stop, form.stopAt path = .ok stop ∧
      ((stop.entry.getD {}).effectiveType stop.node).any (·.isText "array") = true ∧
      stop.node.get? "default" = none := by
  simp only [Bare, reply_field_listed_eq_ok_iff, reply_entry_listed_eq_ok_iff,
    stopAt_eq_ok_iff]
  constructor
  · rintro ⟨_, _, ⟨stop, hstop, rfl⟩, ⟨other, hother, rfl⟩, hrest⟩
    obtain rfl : stop = other := Except.ok.inj (hstop.symm.trans hother)
    exact ⟨stop, hstop, hrest⟩
  · rintro ⟨stop, hstop, hrest⟩
    exact ⟨_, _, ⟨stop, hstop, rfl⟩, ⟨stop, hstop, rfl⟩, hrest⟩

theorem initialAt_of_stop {stop : Stop} (hunset : form.Unset path)
    (hstop : form.stopAt path = .ok stop) (depth : Nat) (count : Option Json) :
    form.initialAt (depth + 1) path count =
      match stop.node.get? "default" with
      | some value => .ok value
      | none =>
          let type := (stop.entry.getD {}).effectiveType stop.node
          if type.any (·.isText "array") then
            form.initialAt depth (path ++ ["0"]) none >>= fun item =>
              reportAt none (Fault.orOk (itemCount count)) >>= fun count =>
                .ok (.arr (List.replicate count item))
          else if type.any (·.isText "object") then .ok (.obj [])
          else .ok .null := by
  rw [initialAt, nodeAt, entryAt, hstop]
  change (reportAt none (Fault.orOk (form.defaultOf stop.node path)) >>= _) = _
  rw [hunset.defaultOf]
  cases stop.node.get? "default" <;> rfl

theorem initialAt_of_bare (hunset : form.Unset path) (hbare : form.Bare path)
    (depth : Nat) (count : Option Json) :
    form.initialAt (depth + 1) path count =
      form.initialAt depth (path ++ ["0"]) none >>= fun item =>
        reportAt none (Fault.orOk (itemCount count)) >>= fun count =>
          .ok (.arr (List.replicate count item)) := by
  obtain ⟨stop, hstop, htype, hdefault⟩ := bare_iff.1 hbare
  rw [initialAt_of_stop hunset hstop, hdefault]
  exact if_pos htype

theorem initialAt_of_no_items (hunset : form.Unset path) (hbare : form.Bare path)
    (hcount : itemCount count = .ok 0) (depth : Nat) :
    form.initialAt (depth + 1) path count =
      (form.initialAt depth (path ++ ["0"]) none).map fun _ => .arr [] := by
  rw [initialAt_of_bare hunset hbare, hcount]
  cases form.initialAt depth (path ++ ["0"]) none <;> rfl

theorem initialAt_of_not_bare (hunset : form.Unset path) (hbare : ¬form.Bare path)
    (depth : Nat) (count : Option Json) :
    ∃ value, form.initialAt (depth + 1) path count =
      (form.nodeAt path).map fun _ => value := by
  cases hstop : form.stopAt path with
  | error failure => exact ⟨.null, by rw [initialAt, nodeAt, hstop]; rfl⟩
  | ok stop =>
      rw [initialAt_of_stop hunset hstop, nodeAt, hstop]
      cases hdefault : stop.node.get? "default" with
      | some value => exact ⟨value, rfl⟩
      | none =>
          have htype :
              ¬((stop.entry.getD {}).effectiveType stop.node).any
                (·.isText "array") = true :=
            fun htype => hbare (bare_iff.2 ⟨stop, hstop, htype, hdefault⟩)
          dsimp only [Except.map]
          rw [if_neg htype]
          split
          · exact ⟨.obj [], rfl⟩
          · exact ⟨.null, rfl⟩

/-- No item is wanted, but the first one is asked for at every level. -/
theorem initialAt_of_bare_until (hunset : form.Unset path)
    (hbare : ∀ above ≤ depth, form.Bare (Path.firstBelow path above))
    (hend : ¬form.Bare (Path.firstBelow path (depth + 1)))
    (hcount : itemCount count = .ok 0) (more : Nat) :
    form.initialAt (more + depth + 2) path count =
      (form.nodeAt (Path.firstBelow path (depth + 1))).map fun _ => .arr [] := by
  have hfirst := hbare 0 (Nat.zero_le depth)
  rw [Path.firstBelow_zero] at hfirst
  rw [initialAt_of_no_items hunset hfirst hcount]
  rw [Path.firstBelow_succ] at hend ⊢
  induction depth generalizing path with
  | zero =>
      rw [Path.firstBelow_zero] at hend ⊢
      obtain ⟨value, hvalue⟩ :=
        initialAt_of_not_bare (hunset.append ["0"]) hend more none
      rw [Nat.add_zero, hvalue]
      cases form.nodeAt (path ++ ["0"]) <;> rfl
  | succ depth ih =>
      have hnext := hbare 1 (by omega)
      rw [Path.firstBelow_succ, Path.firstBelow_zero] at hnext
      have hbelow : ∀ above ≤ depth, form.Bare (Path.firstBelow (path ++ ["0"]) above) := by
        intro above habove
        rw [← Path.firstBelow_succ]
        exact hbare (above + 1) (by omega)
      rw [Path.firstBelow_succ] at hend ⊢
      rw [← Nat.add_assoc, initialAt_of_no_items (hunset.append _) hnext rfl,
        ih (hunset.append _) hbelow hend hnext]
      cases form.nodeAt (Path.firstBelow (path ++ ["0"] ++ ["0"]) depth) <;> rfl

theorem initialAt_of_endless (hunset : form.Unset path) (hbare : form.Endless path)
    (depth : Nat) (count : Option Json) :
    form.initialAt depth path count = .error ⟨.fault .endless, none⟩ := by
  induction depth generalizing path count with
  | zero => rfl
  | succ depth ih =>
      have hfirst : form.Bare path := by
        rw [← Path.firstBelow_zero path]
        exact hbare 0
      have hrest : form.Endless (path ++ ["0"]) := fun depth => by
        rw [← Path.firstBelow_succ]
        exact hbare (depth + 1)
      rw [initialAt_of_bare hunset hfirst, ih (hunset.append _) hrest]
      rfl

end Form

end FormSchema
