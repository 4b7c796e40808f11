import FormSchema.Proofs.Boxed
import FormSchema.Proofs.Chained
import FormSchema.Proofs.Nested

/-!
# Calls within calls for an initial value

An array without a default asks for the initial value of its first item before it is
answered, and so on for arrays of arrays.  The calls take longer and longer paths, so
what bounds them is the node that each path leads to: without references the items of
a node lie within it, and are less deep.  So there are no more calls within a call than
the node that was asked for is deep.
-/

namespace FormSchema

namespace Json

/-! ## Depth -/

mutual

def depth : Json → Nat
  | arr elements => depthOfElements elements + 1
  | obj fields => depthOfFields fields + 1
  | _ => 0

def depthOfElements : List Json → Nat
  | [] => 0
  | element :: elements => max (depth element) (depthOfElements elements)

def depthOfFields : List (String × Json) → Nat
  | [] => 0
  | (_, value) :: fields => max (depth value) (depthOfFields fields)

end

mutual

theorem depth_le_size : ∀ value : Json, value.depth ≤ value.size
  | null | bool _ | int _ | real _ | str _ => Nat.zero_le _
  | arr elements => Nat.succ_le_succ (depthOfElements_le_size elements)
  | obj fields => Nat.succ_le_succ (depthOfFields_le_size fields)

theorem depthOfElements_le_size :
    ∀ elements : List Json, depthOfElements elements ≤ sizeElements elements
  | [] => Nat.le_refl 0
  | element :: elements => by
      have := depth_le_size element
      have := depthOfElements_le_size elements
      simp only [depthOfElements, sizeElements]
      omega

theorem depthOfFields_le_size :
    ∀ fields : List (String × Json), depthOfFields fields ≤ sizeFields fields
  | [] => Nat.le_refl 0
  | (_, value) :: fields => by
      have := depth_le_size value
      have := depthOfFields_le_size fields
      simp only [depthOfFields, sizeFields]
      omega

end

theorem depth_lt_of_mem {elements : List Json} {value : Json} (h : value ∈ elements) :
    value.depth < (arr elements).depth := by
  rw [depth, Nat.lt_succ_iff]
  induction elements with
  | nil => cases h
  | cons element elements ih =>
      rw [depthOfElements]
      rcases List.mem_cons.1 h with rfl | h
      · exact Nat.le_max_left _ _
      · exact Nat.le_trans (ih h) (Nat.le_max_right _ _)

theorem depth_lt_of_get? {fields : Node} {key : String} {value : Json}
    (h : fields.get? key = some value) : value.depth < (obj fields).depth := by
  have hmem := Table.mem_of_get? h
  clear h
  rw [depth, Nat.lt_succ_iff]
  induction fields with
  | nil => cases hmem
  | cons field fields ih =>
      obtain ⟨name, first⟩ := field
      rw [depthOfFields]
      rcases List.mem_cons.1 hmem with heq | hmem
      · cases heq
        exact Nat.le_max_left _ _
      · exact Nat.le_trans (ih hmem) (Nat.le_max_right _ _)

mutual

theorem everyNode_of_depth_le {bound : Nat} :
    ∀ value : Json, value.depth ≤ bound →
      everyNode (fun fields => decide ((obj fields).depth ≤ bound)) value = true
  | null, _ | bool _, _ | int _, _ | real _, _ | str _, _ => rfl
  | arr elements, h => everyNodeOfElements_of_depth_le elements (Nat.le_of_succ_le h)
  | obj fields, h =>
      Bool.and_eq_true_iff.2 ⟨decide_eq_true h,
        everyNodeOfFields_of_depth_le fields (Nat.le_of_succ_le h)⟩

theorem everyNodeOfElements_of_depth_le {bound : Nat} :
    ∀ elements : List Json, depthOfElements elements ≤ bound →
      everyNodeOfElements (fun fields => decide ((obj fields).depth ≤ bound)) elements =
        true
  | [], _ => rfl
  | element :: elements, h =>
      Bool.and_eq_true_iff.2
        ⟨everyNode_of_depth_le element (Nat.le_trans (Nat.le_max_left _ _) h),
          everyNodeOfElements_of_depth_le elements
            (Nat.le_trans (Nat.le_max_right _ _) h)⟩

theorem everyNodeOfFields_of_depth_le {bound : Nat} :
    ∀ fields : List (String × Json), depthOfFields fields ≤ bound →
      everyNodeOfFields (fun fields => decide ((obj fields).depth ≤ bound)) fields = true
  | [], _ => rfl
  | (_, value) :: fields, h =>
      Bool.and_eq_true_iff.2
        ⟨everyNode_of_depth_le value (Nat.le_trans (Nat.le_max_left _ _) h),
          everyNodeOfFields_of_depth_le fields (Nat.le_trans (Nat.le_max_right _ _) h)⟩

end

end Json

theorem Node.Item.depth_lt {node : Node} {value : Json} (h : node.Item value) :
    value.depth < (Json.obj node).depth := by
  cases h with
  | all hstated => exact Json.depth_lt_of_get? hstated
  | position hstated hfound =>
      exact Nat.lt_trans (Json.depth_lt_of_mem hfound) (Json.depth_lt_of_get? hstated)

theorem Json.lookup_blames (value : Json) (segments : List String) :
    Blames Fault.inWalk (value.lookup segments) := by
  induction segments generalizing value with
  | nil => exact .ok _
  | cons segment rest ih =>
      intro fault h
      rw [lookup] at h
      cases hstep : value.step segment with
      | error other =>
          rw [hstep] at h
          cases h
          cases value with
          | arr elements => exact Path.element?_blames elements segment _ hstep
          | _ => cases hstep
      | ok found =>
          rw [hstep] at h
          cases found with
          | none => cases h
          | some next => exact ih next fault h

def Cause.ends (cause : Cause) : Bool := cause != .fault .endless

theorem Cause.ends_of_inWalk {cause : Cause} (h : cause.inWalk = true) :
    cause.ends = true := by
  rw [ends, bne_iff_ne]
  rintro rfl
  cases h

theorem Blames.reportAt_cause {α : Type} {kind : Cause → Bool}
    {outcome : Except Cause α} (h : Blames kind outcome) (path : Option String) :
    Blames (fun failure => kind failure.cause) (reportAt path outcome) := by
  cases outcome with
  | ok value => exact .ok _
  | error cause => exact .error (h cause rfl)

namespace Stop

variable {document : Json} {stop parent last : Stop} {path : List String}

theorem descend_of_plain_snoc {segment : String}
    (hdocument : document.everyNode Node.isPlain = true)
    (hstop : stop.node.Sourced Node.isPlain)
    (h : stop.along document (path ++ [segment]) = .ok last) :
    ∃ parent, stop.along document path = .ok parent ∧
      Node.descend document parent.node segment = .ok (some (.obj last.node)) := by
  obtain ⟨parent, found, hparent, hdescend, htarget⟩ := exists_descend_of_along h
  have hsourced := sourced_of_along hdocument hstop hparent
  have hplain := Node.everyNode_of_descend hdocument hsourced hdescend
  rw [Reference.dereference_of_plain document hplain] at htarget
  cases htarget
  exact ⟨parent, hparent, hdescend⟩

theorem depth_lt_of_first {next : Stop}
    (hdocument : document.everyNode Node.isPlain = true)
    (hstop : stop.node.Sourced Node.isPlain)
    (hparent : stop.along document path = .ok parent)
    (hnext : stop.along document (path ++ ["0"]) = .ok next) :
    (Json.obj next.node).depth < (Json.obj parent.node).depth := by
  obtain ⟨other, hother, hdescend⟩ := descend_of_plain_snoc hdocument hstop hnext
  obtain rfl : other = parent := Except.ok.inj (hother.symm.trans hparent)
  exact (Node.item_of_descend (.inr (by decide)) hdescend).depth_lt

end Stop

namespace Form

variable {form : Form} {document : Node} {validator : Json} {path : List String}
  {count : Option Json} {nested depth : Nat} {outcome : Except Failure Json}

theorem depth_le_of_along {stop : Stop}
    (hplain : (Json.obj document).everyNode Node.isPlain = true)
    (hstop : (Stop.start document).along (.obj document) path = .ok stop) :
    (Json.obj stop.node).depth ≤ (Json.obj document).depth := by
  rcases List.eq_nil_or_concat path with rfl | ⟨above, segment, rfl⟩
  · cases hstop
    exact Nat.le_refl _
  · have hroot := Node.Sourced.of_everyNode hplain
    have hdepth := Json.everyNode_of_depth_le (.obj document) (Nat.le_refl _)
    rw [List.concat_eq_append] at hstop
    obtain ⟨parent, hparent, hdescend⟩ := Stop.descend_of_plain_snoc hplain hroot hstop
    have hsourced := Stop.sourced_of_along hdepth (.of_everyNode hdepth) hparent
    have hfound := Node.everyNode_of_descend hdepth hsourced hdescend
    exact of_decide_eq_true (Json.check_of_everyNode hfound)

/-! ## Calls for items -/

/-- What settles an initial value without its items; an array without a default is
settled by them. -/
def settledAt (form : Form) (path : List String) : Except Failure (Option Json) := do
  let node ← form.nodeAt path
  let entry ← form.entryAt path
  match ← reportAt none (Fault.orOk (form.defaultOf node path)) with
  | some value => .ok (some value)
  | none =>
      if (entry.effectiveType node).any (·.isText "array") then .ok none
      else if (entry.effectiveType node).any (·.isText "object") then
        .ok (some (.obj []))
      else .ok (some .null)

def copies (count : Option Json) (item : Json) : Except Failure Json := do
  let count ← reportAt none (Fault.orOk (itemCount count))
  .ok (.arr (List.replicate count item))

/-- The initial value of a path comes out like this after so many calls for items, one
within another. -/
inductive Starts (form : Form) :
    List String → Option Json → Nat → Except Failure Json → Prop
  | fails {path : List String} {count : Option Json} {failure : Failure}
      (h : form.settledAt path = .error failure) :
      Starts form path count 0 (.error failure)
  | settled {path : List String} {count : Option Json} {value : Json}
      (h : form.settledAt path = .ok (some value)) :
      Starts form path count 0 (.ok value)
  | items {path : List String} {count : Option Json} {nested : Nat}
      {outcome : Except Failure Json} (h : form.settledAt path = .ok none)
      (hitem : Starts form (path ++ ["0"]) none nested outcome) :
      Starts form path count (nested + 1) (outcome >>= copies count)

theorem initialAt_succ (form : Form) (depth : Nat) (path : List String)
    (count : Option Json) :
    form.initialAt (depth + 1) path count =
      form.settledAt path >>= fun settled =>
        match settled with
        | some value => .ok value
        | none => form.initialAt depth (path ++ ["0"]) none >>= copies count := by
  rw [initialAt, settledAt]
  cases form.nodeAt path with
  | error failure => rfl
  | ok node =>
      cases form.entryAt path with
      | error failure => rfl
      | ok entry =>
          simp only [ok_bind]
          cases reportAt none (Fault.orOk (form.defaultOf node path)) with
          | error failure => rfl
          | ok found =>
              cases found with
              | some value => rfl
              | none =>
                  simp only [ok_bind]
                  split
                  · rfl
                  · split <;> rfl

theorem Starts.initialAt_eq (h : form.Starts path count nested outcome) (depth : Nat) :
    form.initialAt depth path count =
      if nested < depth then outcome else .error ⟨.fault .endless, none⟩ := by
  induction h generalizing depth with
  | fails h =>
      cases depth with
      | zero => rfl
      | succ depth => rw [initialAt_succ, h, if_pos (Nat.succ_pos depth), error_bind]
  | settled h =>
      cases depth with
      | zero => rfl
      | succ depth => rw [initialAt_succ, h, if_pos (Nat.succ_pos depth), ok_bind]
  | items h _ ih =>
      cases depth with
      | zero => rfl
      | succ depth =>
          rw [initialAt_succ, h, ok_bind]
          simp only [ih depth, Nat.succ_lt_succ_iff]
          split <;> rfl

theorem exists_stop_of_settledAt {settled : Option Json}
    (h : form.settledAt path = .ok settled) : ∃ stop, form.stopAt path = .ok stop := by
  obtain ⟨_, hnode, _⟩ := bind_eq_ok_iff.1 h
  obtain ⟨stop, hstop, _⟩ := map_eq_ok_iff.1 hnode
  exact ⟨stop, hstop⟩

/-- Each call for items goes down into the node, so that its depth bounds them. -/
theorem exists_starts (hdocument : (Json.obj form.document).everyNode Node.isPlain = true)
    (hroot : form.root.Sourced Node.isPlain) (bound : Nat) (path : List String)
    (count : Option Json)
    (hbound : ∀ stop, form.stopAt path = .ok stop → (Json.obj stop.node).depth ≤ bound) :
    ∃ nested outcome, form.Starts path count nested outcome ∧ nested ≤ bound := by
  cases hsettled : form.settledAt path with
  | error failure => exact ⟨0, _, .fails hsettled, Nat.zero_le _⟩
  | ok settled =>
      cases settled with
      | some value => exact ⟨0, _, .settled hsettled, Nat.zero_le _⟩
      | none =>
          obtain ⟨stop, hstop⟩ := exists_stop_of_settledAt hsettled
          have hdepth := hbound stop hstop
          cases bound with
          | zero => exact absurd hdepth (by simp [Json.depth])
          | succ bound =>
              have hbelow : ∀ next, form.stopAt (path ++ ["0"]) = .ok next →
                  (Json.obj next.node).depth ≤ bound := by
                intro next hnext
                have hlt := Stop.depth_lt_of_first hdocument hroot
                  (stopAt_eq_ok_iff.1 hstop) (stopAt_eq_ok_iff.1 hnext)
                omega
              obtain ⟨nested, outcome, hitem, hle⟩ :=
                exists_starts hdocument hroot bound (path ++ ["0"]) none hbelow
              exact ⟨nested + 1, _, .items hsettled hitem, Nat.succ_le_succ hle⟩

/-! ## No failure for want of an end -/

theorem settledAt_ends (path : List String) :
    Blames (fun failure => failure.cause.ends) (form.settledAt path) := by
  have hstop : Blames (fun failure => failure.cause.ends) (form.stopAt path) :=
    ((Stop.along_inWalk _ _ path).mono fun _ => Cause.ends_of_inWalk).reportAt_cause _
  have hends : ∀ fault : Fault, fault.inWalk = true →
      (Cause.ends ∘ Cause.fault) fault = true :=
    fun fault (h : (Cause.fault fault).inWalk = true) => Cause.ends_of_inWalk h
  have hdefault (node : Node) :
      Blames (Cause.ends ∘ Cause.fault) (form.defaultOf node path) := by
    unfold defaultOf
    split
    · exact .ok _
    · split
      · exact (Json.lookup_blames _ path).mono hends
      · exact .ok _
  refine .bind (hstop.map _) fun node _ => .bind (hstop.map _) fun entry _ => ?_
  refine .bind (.reportAt_cause (.orOk (hdefault node)) _) fun found _ => ?_
  cases found with
  | some value => exact .ok _
  | none => exact .ite (.ok _) (.ite (.ok _) (.ok _))

theorem copies_ends (count : Option Json) (item : Json) :
    Blames (fun failure => failure.cause.ends) (copies count item) := by
  have hcount : Blames (Cause.ends ∘ Cause.fault) (itemCount count) := by
    unfold itemCount
    split
    · exact .ok _
    · split
      · split
        · exact .ok _
        · exact .ok _
        · exact .error rfl
      · exact .ok _
  exact .bind (.reportAt_cause (.orOk hcount) _) fun _ _ => .ok _

theorem Starts.ends (h : form.Starts path count nested outcome) :
    Blames (fun failure => failure.cause.ends) outcome := by
  induction h with
  | fails h => exact .error (settledAt_ends _ _ h)
  | settled _ => exact .ok _
  | items _ _ ih => exact .bind ih fun item _ => copies_ends _ item

theorem Starts.runOn_initialWithin (h : form.Starts path count nested outcome)
    (calls : List Call) (depth : Nat) :
    ((form.initialWithin depth path count).runOn (form.after calls)).1 =
      if nested < depth then outcome else .error ⟨.fault .endless, none⟩ := by
  obtain ⟨after, hrun, _⟩ :=
    form.settles_initialWithin depth path count _ (form.after_coherent calls)
  rw [hrun, h.initialAt_eq]

theorem Starts.reply_initial {name : Spelling} {given : Node}
    (h : form.Starts path (given.get? "initialCount") nested outcome)
    (hname : name.path = .ok path) (hle : nested ≤ (Json.obj form.document).size)
    (calls : List Call) :
    form.reply calls (.initial name given) = outcome.map .initial := by
  rw [Form.reply_initial, hname, ok_bind, h.initialAt_eq, if_pos (by omega)]
  cases outcome <;> rfl

theorem reply_field_of_path {name : Spelling} (hname : name.path = .ok path)
    (calls : List Call) :
    form.reply calls (.field name) = (form.nodeAt path).map .field := by
  rw [reply_field, hname, ok_bind]
  cases form.nodeAt path <;> rfl

theorem exists_starts_within
    (hplain : (Json.obj form.document).everyNode Node.isPlain = true)
    (hroot : form.root = form.document) (path : List String) (count : Option Json) :
    ∃ nested outcome, form.Starts path count nested outcome ∧
      nested ≤ (Json.obj form.document).depth ∧
      (∀ node, form.nodeAt path = .ok node → nested ≤ (Json.obj node).depth) ∧
      ∀ failure, form.nodeAt path = .error failure →
        nested = 0 ∧ outcome = .error failure := by
  have hsourced : form.root.Sourced Node.isPlain := hroot ▸ .of_everyNode hplain
  cases hstop : form.stopAt path with
  | error failure =>
      have hnode : form.nodeAt path = .error failure := by rw [nodeAt, hstop]; rfl
      have hsettled : form.settledAt path = .error failure := by
        rw [settledAt, hnode, error_bind]
      refine ⟨0, _, .fails hsettled, Nat.zero_le _, fun _ _ => Nat.zero_le _, ?_⟩
      intro other hother
      cases hnode.symm.trans hother
      exact ⟨rfl, rfl⟩
  | ok stop =>
      have hnode : form.nodeAt path = .ok stop.node := by rw [nodeAt, hstop]; rfl
      obtain ⟨nested, outcome, hstarts, hle⟩ :=
        exists_starts hplain hsourced (Json.obj stop.node).depth path count
          fun other hother => by cases hstop.symm.trans hother; exact Nat.le_refl _
      have hdepth := depth_le_of_along hplain (hroot ▸ stopAt_eq_ok_iff.1 hstop)
      refine ⟨nested, outcome, hstarts, Nat.le_trans hle hdepth, ?_, ?_⟩
      · intro node hother
        cases hnode.symm.trans hother
        exact hle
      · intro failure hother
        cases hnode.symm.trans hother

/-- Without references there are no more calls within a call for an initial value than
the node that was asked for is deep, and none where there is no node.  The recursion
takes one level more than there are such calls: with fewer it would have no end, and
with more it comes out the same.  So each call is answered with a value or with a
failure other than that there is no end. -/
theorem reply_initial_within_depth (hopen : Form.open document validator = .ok form)
    (hplain : (Json.obj document).everyNode Node.isPlain = true)
    (name : Spelling) (given : Node) :
    (∀ calls failure, name.path = .error failure →
      form.reply calls (.initial name given) = .error failure) ∧
    ∀ path, name.path = .ok path → ∃ nested outcome,
      form.Starts path (given.get? "initialCount") nested outcome ∧
      (∀ calls node, form.reply calls (.field name) = .ok (.field node) →
        nested ≤ (Json.obj node).depth) ∧
      (∀ calls failure, form.reply calls (.field name) = .error failure →
        nested = 0 ∧ outcome = .error failure) ∧
      (∀ calls depth,
        ((form.initialWithin depth path (given.get? "initialCount")).runOn
          (form.after calls)).1 =
            if nested < depth then outcome else .error ⟨.fault .endless, none⟩) ∧
      (∀ calls, form.reply calls (.initial name given) = outcome.map .initial) ∧
      ∀ failure, outcome = .error failure → failure.cause ≠ .fault .endless := by
  obtain rfl := document_of_open hopen
  have hroot : form.root = form.document := by
    have hform := open_of_isPlain (Json.check_of_everyNode hplain) validator
    exact congrArg Form.root (Except.ok.inj (hopen.symm.trans hform))
  constructor
  · intro calls failure hname
    rw [Form.reply_initial, hname, error_bind]
  · intro path hname
    obtain ⟨nested, outcome, hstarts, hle, hfound, hunfound⟩ :=
      exists_starts_within hplain hroot path (given.get? "initialCount")
    have hsize := Nat.le_trans hle (Json.depth_le_size _)
    refine ⟨nested, outcome, hstarts, ?_, ?_, hstarts.runOn_initialWithin,
      hstarts.reply_initial hname hsize, ?_⟩
    · intro calls node h
      rw [reply_field_of_path hname, map_eq_ok_iff] at h
      obtain ⟨_, hnode, heq⟩ := h
      cases heq
      exact hfound _ hnode
    · intro calls failure h
      rw [reply_field_of_path hname] at h
      cases hnode : form.nodeAt path with
      | ok node => rw [hnode] at h; cases h
      | error other =>
          rw [hnode] at h
          cases h
          exact hunfound _ hnode
    · exact fun failure hfailure => bne_iff_ne.1 (hstarts.ends failure hfailure)

end Form

theorem rows_ask_twice :
    tabulatedForm.Starts ["rows"] (some (.int 1)) 2 (.ok (.arr [.arr []])) ∧
      tabulatedForm.reply [] (.initial (.listed ["rows"]) [("initialCount", .int 1)]) =
        .ok (.initial (.arr [.arr []])) := by
  have hplain : (Json.obj tabulated).everyNode Node.isPlain = true := by decide
  obtain ⟨_, hrows⟩ := Form.reply_initial_within_depth open_tabulated hplain
    (.listed ["rows"]) [("initialCount", .int 1)]
  obtain ⟨nested, outcome, hstarts, _, _, hlevels, hreply, hends⟩ := hrows ["rows"] rfl
  have htwo : .error ⟨.fault .endless, none⟩ =
      if nested < 2 then outcome else .error ⟨.fault .endless, none⟩ := hlevels [] 2
  have hthree : .ok (.arr [.arr []]) =
      if nested < 3 then outcome else .error ⟨.fault .endless, none⟩ := hlevels [] 3
  obtain ⟨hnested, houtcome⟩ : nested < 3 ∧ outcome = .ok (.arr [.arr []]) := by
    split at hthree
    · next hlt => exact ⟨hlt, hthree.symm⟩
    · cases hthree
  subst houtcome
  have henough : ¬nested < 2 := by
    intro hlt
    rw [if_pos hlt] at htwo
    cases htwo
  obtain rfl : nested = 2 := by omega
  exact ⟨hstarts, hreply []⟩

end FormSchema
