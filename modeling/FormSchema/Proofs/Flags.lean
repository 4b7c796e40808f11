import FormSchema.Proofs.Members
import FormSchema.Proofs.Route

/-!
# Required flags

The entry of a stop tells whether the stop is required.  No later step reads this
flag: a step reads the node of the stop before it and the required names that
were merged into the entry there.  Stops that differ in the flag alone therefore
lead to the same stops, and behind the next step they do not differ any more.
-/

namespace FormSchema

def Entry.unflagged (entry : Entry) : Entry := { entry with isRequired := false }

theorem Entry.eq_of_unflagged {entry other : Entry}
    (h : entry.unflagged = other.unflagged)
    (hflag : entry.isRequired = other.isRequired) : entry = other := by
  obtain ⟨type, properties, required, allOf, anyOf, oneOf, isRequired⟩ := entry
  cases hflag
  cases h
  rfl

theorem Entry.isRequired_of_compile {document : Json} {node : Node}
    {isRequired : Bool} {entry : Entry} {conflict : Option Conflict}
    (h : compile document node isRequired = .ok (entry, conflict)) :
    entry.isRequired = isRequired :=
  (compiled h).flag

namespace Stop

def unflagged (stop : Stop) : Stop := ⟨stop.node, stop.entry.map Entry.unflagged⟩

variable {document : Json} {first second : Stop}

theorem requires_unflagged (stop : Stop) (segment : String) :
    Node.requires stop.unflagged.node stop.unflagged.entry segment =
      Node.requires stop.node stop.entry segment := by
  obtain ⟨node, entry⟩ := stop
  cases entry with
  | none => rfl
  | some entry => rfl

theorem step_unflagged (stop : Stop) (segment : String) :
    stop.unflagged.step document segment = stop.step document segment := by
  unfold step
  rw [requires_unflagged]
  rfl

theorem map_unflagged_step {segment other : String}
    (hchild : Node.child document first.node segment =
      Node.child document second.node other) :
    (first.step document segment).map unflagged =
      (second.step document other).map unflagged := by
  unfold step
  rw [hchild]
  cases Node.child document second.node other with
  | error cause => rfl
  | ok next =>
      rw [ok_bind, ok_bind, Entry.compile_eq_map,
        Entry.compile_eq_map document next (Node.requires second.node _ other)]
      cases Entry.compile document next false with
      | error cause => rfl
      | ok compiled => rfl

theorem along_of_unflagged {reached other : Except Cause Stop}
    (h : reached.map unflagged = other.map unflagged) {path : List String}
    (hne : path ≠ []) :
    (reached >>= fun stop => stop.along document path) =
      (other >>= fun stop => stop.along document path) := by
  obtain ⟨segment, rest, rfl⟩ := List.exists_cons_of_ne_nil hne
  have hstep : ∀ outcome : Except Cause Stop,
      (outcome >>= fun stop => stop.along document (segment :: rest)) =
        ((outcome.map unflagged) >>= fun stop =>
          stop.along document (segment :: rest)) := by
    intro outcome
    cases outcome with
    | error cause => rfl
    | ok stop =>
        change stop.along document _ = stop.unflagged.along document _
        rw [along_cons, along_cons, step_unflagged]
  rw [hstep reached, hstep other, h]

theorem map_unflagged_along {reached other : Except Cause Stop}
    (h : reached.map unflagged = other.map unflagged) (path : List String) :
    (reached >>= fun stop => stop.along document path).map unflagged =
      (other >>= fun stop => stop.along document path).map unflagged := by
  cases path with
  | nil =>
      have hnil : ∀ outcome : Except Cause Stop,
          (outcome >>= fun stop => stop.along document []) = outcome := by
        intro outcome
        cases outcome <;> rfl
      rw [hnil reached, hnil other, h]
  | cons segment rest =>
      have hne : segment :: rest ≠ [] := List.cons_ne_nil segment rest
      rw [along_of_unflagged h hne]

theorem map_node_of_unflagged {reached other : Except Cause Stop}
    (h : reached.map unflagged = other.map unflagged) :
    reached.map node = other.map node := by
  have hnode : ∀ outcome : Except Cause Stop,
      outcome.map node = (outcome.map unflagged).map node := by
    intro outcome
    cases outcome <;> rfl
  rw [hnode reached, hnode other, h]

theorem isRequired_of_along_singleton {stop next : Stop} {segment : String}
    (h : stop.along document [segment] = .ok next) :
    (next.entry.getD {}).isRequired =
      Node.requires stop.node stop.entry segment := by
  have hstep := (along_snoc along_nil segment).symm.trans h
  obtain ⟨entry, conflict, _, hcompile, hentry⟩ := step_eq_ok_iff.1 hstep
  rw [hentry, Option.getD_some, Entry.isRequired_of_compile hcompile]

theorem entry_unflagged {stop other : Stop} (h : other.unflagged = stop.unflagged) :
    (other.entry.getD {}).unflagged = (stop.entry.getD {}).unflagged := by
  have hentry : other.entry.map Entry.unflagged = stop.entry.map Entry.unflagged :=
    congrArg Stop.entry h
  have hgetD : ∀ entry : Option Entry,
      (entry.getD {}).unflagged = (entry.map Entry.unflagged).getD {} := by
    intro entry
    cases entry <;> rfl
  rw [hgetD, hgetD, hentry]

theorem exists_of_map_unflagged {reached other : Except Cause Stop} {stop : Stop}
    (h : reached.map unflagged = other.map unflagged) (hstop : reached = .ok stop) :
    ∃ same, other = .ok same ∧ same.node = stop.node ∧
      (same.entry.getD {}).effectiveType same.node =
        (stop.entry.getD {}).effectiveType stop.node := by
  rw [hstop] at h
  obtain ⟨same, hsame, hunflagged⟩ := map_eq_ok_iff.1 h.symm
  have hnode : same.node = stop.node := by
    change same.unflagged.node = stop.unflagged.node
    rw [hunflagged]
  have htype : (same.entry.getD {}).type = (stop.entry.getD {}).type := by
    change (same.entry.getD {}).unflagged.type = (stop.entry.getD {}).unflagged.type
    rw [entry_unflagged hunflagged]
  refine ⟨same, hsame, hnode, ?_⟩
  rw [Entry.effectiveType, htype, hnode]
  rfl

/-- From stops at one node a path leads to stops that differ in the flag at most,
and that only at the end of a path with one segment. -/
theorem exists_along_of_node {path : List String} {stop : Stop}
    (hnode : first.node = second.node) (hne : path ≠ [])
    (h : first.along document path = .ok stop) :
    ∃ other, second.along document path = .ok other ∧
      other.unflagged = stop.unflagged ∧
      ((∀ segment, path ≠ [segment]) → other = stop) := by
  obtain ⟨segment, rest, rfl⟩ := List.exists_cons_of_ne_nil hne
  rw [along_cons] at h
  have hstep : (first.step document segment).map unflagged =
      (second.step document segment).map unflagged :=
    map_unflagged_step (by rw [hnode])
  have halong : (first.step document segment >>= fun next =>
        next.along document rest).map unflagged =
      (second.step document segment >>= fun next =>
        next.along document rest).map unflagged :=
    map_unflagged_along hstep rest
  rw [h] at halong
  obtain ⟨other, hother, hunflagged⟩ := map_eq_ok_iff.1 halong.symm
  refine ⟨other, by rw [along_cons, hother], hunflagged, fun hlong => ?_⟩
  have hrest : rest ≠ [] := by
    rintro rfl
    exact hlong segment rfl
  rw [along_of_unflagged hstep hrest, hother] at h
  exact Except.ok.inj h

end Stop

end FormSchema
