import FormSchema.Proofs.ListFields
import FormSchema.Proofs.Nested
import FormSchema.Proofs.Numerals

/-!
# Items an array starts with

The value that the items of an array start with is settled once, at the first
position, and copied.  Nothing that settles it depends on the position: all positions
lead to the same node, and where the default of the root holds nothing for the array,
it holds nothing for what lies below.  So each copy is what its own position starts
with when it is asked for by itself.
-/

namespace FormSchema

namespace Form

variable {form : Form} {path first second : List String} {count : Option Json}
  {depth : Nat} {value : Json}

theorem initialAt_mono (h : form.initialAt depth path count = .ok value) (more : Nat) :
    form.initialAt (depth + more) path count = .ok value := by
  induction depth generalizing path count value with
  | zero => cases h
  | succ depth ih =>
      rw [Nat.add_right_comm, initialAt]
      rw [initialAt] at h
      obtain ⟨node, hnode, h⟩ := bind_eq_ok_iff.1 h
      obtain ⟨entry, hentry, h⟩ := bind_eq_ok_iff.1 h
      obtain ⟨found, hfound, h⟩ := bind_eq_ok_iff.1 h
      rw [hnode, ok_bind, hentry, ok_bind, hfound, ok_bind]
      cases found with
      | some value => exact h
      | none =>
          dsimp only at h ⊢
          split at h
          · next harray =>
              obtain ⟨item, hitem, h⟩ := bind_eq_ok_iff.1 h
              rw [if_pos harray, ih hitem]
              exact h
          · next hother =>
              rw [if_neg hother]
              exact h

/-- Fields that are found at the same node start with the same value, when neither
has one in the default of the root. -/
theorem initialAt_congr (hfirst : form.Unset first) (hsecond : form.Unset second)
    (hsame : ((Stop.start form.root).along (.obj form.document) first).map
        Stop.unflagged =
      ((Stop.start form.root).along (.obj form.document) second).map Stop.unflagged)
    (h : form.initialAt depth first count = .ok value) :
    form.initialAt depth second count = .ok value := by
  -- Below both paths lie the same items, again with nothing for them in the default
  -- of the root, so the premises pass on to their first positions.
  induction depth generalizing first second count value with
  | zero => cases h
  | succ depth ih =>
      obtain ⟨stop, hstop⟩ : ∃ stop, form.stopAt first = .ok stop := by
        rw [initialAt] at h
        obtain ⟨_, hnode, _⟩ := bind_eq_ok_iff.1 h
        obtain ⟨stop, hstop, _⟩ := map_eq_ok_iff.1 hnode
        exact ⟨stop, hstop⟩
      obtain ⟨other, hother, hnode, htype⟩ :=
        Stop.exists_of_map_unflagged hsame (stopAt_eq_ok_iff.1 hstop)
      rw [initialAt_of_stop hfirst hstop] at h
      rw [initialAt_of_stop hsecond (stopAt_eq_ok_iff.2 hother), htype, hnode]
      cases hdefault : stop.node.get? "default" with
      | some default =>
          rw [hdefault] at h
          exact h
      | none =>
          rw [hdefault] at h
          dsimp only at h ⊢
          split at h
          · next harray =>
              obtain ⟨item, hitem, h⟩ := bind_eq_ok_iff.1 h
              have hbelow :
                  ((Stop.start form.root).along (.obj form.document)
                    (first ++ ["0"])).map Stop.unflagged =
                  ((Stop.start form.root).along (.obj form.document)
                    (second ++ ["0"])).map Stop.unflagged := by
                rw [Stop.along_append, Stop.along_append]
                exact Stop.map_unflagged_along hsame ["0"]
              rw [if_pos harray, ih (hfirst.append _) (hsecond.append _) hbelow hitem]
              exact h
          · next hother =>
              rw [if_neg hother]
              exact h

theorem bare_of_declares {stop : Stop}
    (hstop : (Stop.start form.root).along (.obj form.document) path = .ok stop)
    (harray : Node.declares stop.node "array" = true)
    (hdefault : stop.node.get? "default" = none) : form.Bare path := by
  refine bare_iff.2 ⟨stop, stopAt_eq_ok_iff.2 hstop, ?_, hdefault⟩
  rw [Node.declares_eq_given?] at harray
  rcases type_of_along hstop with hentry | ⟨hnone, _⟩
  · rw [Entry.effectiveType, hentry, Option.none_or]
    exact harray
  · rw [hnone] at harray
    cases harray

theorem map_unflagged_position {stop : Stop} {i j : String}
    (hstop : (Stop.start form.root).along (.obj form.document) path = .ok stop)
    (harray : Node.declares stop.node "array" = true)
    (hitems : ∀ elements, stop.node.get? "items" ≠ some (.arr elements))
    (hi : Node.IsPosition i) (hj : Node.IsPosition j) :
    ((Stop.start form.root).along (.obj form.document) (path ++ [i])).map
        Stop.unflagged =
      ((Stop.start form.root).along (.obj form.document) (path ++ [j])).map
        Stop.unflagged := by
  rw [Stop.along_snoc hstop, Stop.along_snoc hstop]
  exact Stop.map_unflagged_step (Node.child_of_position harray hitems hi hj)

/-- The items of an array whose items are no list start alike, and each with the
value that its own position starts with. -/
theorem reply_initial_items {calls : List Call} {name : Spelling} {node given : Node}
    {number : Int} {answer : Answer} (hname : name.path = .ok path)
    (hfield : form.reply calls (.field (.listed path)) = .ok (.field node))
    (harray : Node.declares node "array" = true)
    (hitems : ∀ elements, node.get? "items" ≠ some (.arr elements))
    (hdefault : node.get? "default" = none) (hunset : form.Unset path)
    (hcount : given.get? "initialCount" = some (.int number))
    (hreply : form.reply calls (.initial name given) = .ok answer) :
    ∃ elements, answer = .initial (.arr elements) ∧
      (elements.length : Int) = max number 0 ∧
      ∀ place (h : place < elements.length) (others : List Call),
        form.reply others (.initial (.listed (path ++ [toString place])) []) =
          .ok (.initial elements[place]) := by
  obtain ⟨stop, hstop, rfl⟩ := reply_field_listed_eq_ok_iff.1 hfield
  have hbare := bare_of_declares hstop harray hdefault
  have hnumber : itemCount (some (.int number)) = .ok number.toNat := by
    cases hzero : number != 0 with
    | true => exact if_pos hzero
    | false =>
        obtain rfl : number = 0 := by simpa using hzero
        rfl
  rw [reply_initial, hname, ok_bind, hcount, initialAt_of_bare hunset hbare, hnumber]
    at hreply
  obtain ⟨_, hvalue, hanswer⟩ := bind_eq_ok_iff.1 hreply
  obtain ⟨item, hitem, hcopies⟩ := bind_eq_ok_iff.1 hvalue
  cases hcopies
  cases hanswer
  refine ⟨List.replicate number.toNat item, rfl, ?_, ?_⟩
  · rw [List.length_replicate]
    exact Int.ofNat_toNat number
  · intro place hplace others
    have hzero : Node.IsPosition "0" := .inr (by decide)
    have hposition : Node.IsPosition (toString place) :=
      .inr (Path.isIndex_toString place)
    have hsame := map_unflagged_position hstop harray hitems hzero hposition
    have hown := initialAt_congr (hunset.append ["0"]) (hunset.append _) hsame hitem
    rw [List.getElem_replicate, reply_initial, Spelling.path, ok_bind, Table.get?_nil,
      initialAt_mono hown 1]
    rfl

end Form

def hall : Node :=
  [("type", .str "object"),
   ("properties", .obj
     [("rows", .obj
       [("type", .str "array"),
        ("required", .arr [.str "0"]),
        ("items", .obj [("$ref", .str "#/definitions/Row")])])]),
   ("default", .obj [("stage", .bool true)]),
   ("definitions", .obj
     [("Row", .obj
       [("type", .str "array"),
        ("default", .arr [.str "free", .str "free"]),
        ("items", .obj [("type", .str "string")])])])]

theorem rows_start_alike :
    Form.reply ⟨hall, hall, .null⟩ []
        (.initial (.listed ["rows"]) [("initialCount", .int 2)]) =
      .ok (.initial (.arr
        [.arr [.str "free", .str "free"], .arr [.str "free", .str "free"]])) ∧
    Form.reply ⟨hall, hall, .null⟩ [] (.initial (.listed ["rows", "1"]) []) =
      .ok (.initial (.arr [.str "free", .str "free"])) := by
  have hfield : Form.reply ⟨hall, hall, .null⟩ [] (.field (.listed ["rows"])) =
      .ok (.field _) := rfl
  have hreply : Form.reply ⟨hall, hall, .null⟩ []
      (.initial (.listed ["rows"]) [("initialCount", .int 2)]) =
        .ok (.initial (.arr
          [.arr [.str "free", .str "free"], .arr [.str "free", .str "free"]])) := rfl
  have hunset : Form.Unset ⟨hall, hall, .null⟩ ["rows"] := by
    rintro _ ⟨⟩
    rfl
  obtain ⟨elements, helements, _, hplaces⟩ :=
    Form.reply_initial_items rfl hfield rfl nofun rfl hunset rfl hreply
  cases helements
  exact ⟨hreply, hplaces 1 (by decide) []⟩

end FormSchema
