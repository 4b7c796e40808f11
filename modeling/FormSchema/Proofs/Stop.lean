import FormSchema.Schema.Walk

/-!
# Stops

A walk that remembers nothing goes from stop to stop.  A stop is a node with
the entry that the step to it compiled; the root is reached by no step and has
none.  The entry of a stop decides only which of its children are required.
-/

namespace FormSchema

structure Stop where
  node : Node
  entry : Option Entry

namespace Stop

def start (root : Node) : Stop := ⟨root, none⟩

def step (document : Json) (stop : Stop) (segment : String) :
    Except Cause Stop := do
  let next ← Node.child document stop.node segment
  let (entry, _) ← Entry.compile document next
    (Node.requires stop.node stop.entry segment)
  .ok ⟨next, some entry⟩

def along (document : Json) (stop : Stop) (segments : List String) :
    Except Cause Stop :=
  segments.foldlM (step document) stop

variable {document : Json} {stop next : Stop}

@[simp] theorem along_nil : stop.along document [] = .ok stop := rfl

theorem along_cons (segment : String) (rest : List String) :
    stop.along document (segment :: rest) =
      (stop.step document segment >>= fun next => next.along document rest) :=
  List.foldlM_cons

theorem along_append (first second : List String) :
    stop.along document (first ++ second) =
      (stop.along document first >>= fun next => next.along document second) :=
  List.foldlM_append

theorem along_snoc {path : List String} (h : stop.along document path = .ok next)
    (segment : String) :
    stop.along document (path ++ [segment]) = next.step document segment := by
  rw [along_append, h, ok_bind, along_cons]
  cases next.step document segment <;> rfl

theorem exists_along_of_snoc {path : List String} {segment : String}
    (h : stop.along document (path ++ [segment]) = .ok next) :
    ∃ parent, stop.along document path = .ok parent ∧
      parent.step document segment = .ok next := by
  rw [along_append, bind_eq_ok_iff] at h
  obtain ⟨parent, hparent, hstep⟩ := h
  rw [along_cons, bind_eq_ok_iff] at hstep
  obtain ⟨last, hlast, hnil⟩ := hstep
  cases hnil
  exact ⟨parent, hparent, hlast⟩

theorem step_eq_ok_iff {segment : String} :
    stop.step document segment = .ok next ↔
      ∃ entry conflict,
        Node.child document stop.node segment = .ok next.node ∧
        Entry.compile document next.node
          (Node.requires stop.node stop.entry segment) =
            .ok (entry, conflict) ∧
        next.entry = some entry := by
  unfold step
  rw [bind_eq_ok_iff]
  constructor
  · rintro ⟨node, hchild, hrest⟩
    obtain ⟨⟨entry, conflict⟩, hcompile, heq⟩ := bind_eq_ok_iff.1 hrest
    cases heq
    exact ⟨entry, conflict, hchild, hcompile, rfl⟩
  · rintro ⟨entry, conflict, hchild, hcompile, hentry⟩
    refine ⟨next.node, hchild, ?_⟩
    rw [hcompile, ok_bind]
    change Except.ok (Stop.mk next.node (some entry)) = _
    rw [← hentry]

/-- What every step keeps holds at the end of a path. -/
theorem along_induction {P : Stop → Prop} {path : List String}
    (hstep : ∀ stop next segment, P stop →
      stop.step document segment = .ok next → P next)
    (hstop : P stop) (h : stop.along document path = .ok next) : P next := by
  induction path generalizing stop with
  | nil =>
      cases h
      exact hstop
  | cons segment rest ih =>
      rw [along_cons, bind_eq_ok_iff] at h
      obtain ⟨middle, hmiddle, hrest⟩ := h
      exact ih (hstep stop middle segment hstop hmiddle) hrest

theorem exists_entry_of_step {segment : String}
    (h : stop.step document segment = .ok next) :
    ∃ entry, next.entry = some entry := by
  obtain ⟨entry, _, _, _, hentry⟩ := step_eq_ok_iff.1 h
  exact ⟨entry, hentry⟩

theorem exists_entry_of_along {path : List String} (hne : path ≠ [])
    (h : stop.along document path = .ok next) :
    ∃ entry, next.entry = some entry := by
  rw [← List.dropLast_concat_getLast hne] at h
  obtain ⟨parent, _, hstep⟩ := exists_along_of_snoc h
  exact exists_entry_of_step hstep

end Stop

end FormSchema
