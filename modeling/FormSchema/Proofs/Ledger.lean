import FormSchema.Proofs.KeyReading
import FormSchema.Proofs.Stop

/-!
# Traced ledgers

The entries that walks leave in a ledger are traced to the root: each belongs to
a path one segment below the root or below a path that has its entry already,
and is what the step from there compiles.  A walk finds a traced ledger and
leaves a traced one, wherever it stops, and goes where a walk without a ledger
goes: an entry that is there already is the entry that would be compiled, so a
compilation that is skipped is one that would have succeeded.
-/

namespace FormSchema

inductive Traced (document : Json) (root : Node) : Table Entry → Prop
  | nil : Traced document root []
  | snoc {entries : Table Entry} {path : List String} {segment : String}
      {stop : Stop} {node : Node} {entry : Entry}
      (traced : Traced document root entries)
      (reached : (Stop.start root).along document path = .ok stop)
      (cached : entries.get? (Path.key path) = stop.entry)
      (stepped : stop.step document segment = .ok ⟨node, some entry⟩)
      (fresh : Path.key (path ++ [segment]) ∉ entries.keys) :
      Traced document root
        (entries ++ [(Path.key (path ++ [segment]), entry)])

namespace Traced

variable {document : Json} {root : Node} {entries : Table Entry}

theorem nodup_keys (h : Traced document root entries) : entries.keys.Nodup := by
  induction h with
  | nil => exact List.nodup_nil
  | snoc traced reached cached stepped fresh ih =>
      rw [Table.keys_append, List.nodup_append]
      refine ⟨ih, by simp [Table.keys], ?_⟩
      intro key hkey other hother heq
      obtain rfl := List.mem_singleton.1 hother
      subst heq
      exact fresh hkey

theorem exists_path (h : Traced document root entries) {key : String}
    (hkey : key ∈ entries.keys) :
    ∃ path segment, key = Path.key (path ++ [segment]) := by
  induction h with
  | nil => cases hkey
  | snoc traced reached cached stepped fresh ih =>
      rw [Table.keys_append, List.mem_append] at hkey
      rcases hkey with hold | hnew
      · exact ih hold
      · exact ⟨_, _, List.mem_singleton.1 hnew⟩

theorem get?_root (h : Traced document root entries) :
    entries.get? (Path.key []) = none := by
  rw [Table.get?_eq_none_iff]
  intro hkey
  obtain ⟨path, segment, heq⟩ := h.exists_path hkey
  simp [Path.key_inj] at heq

theorem along_of_get? (h : Traced document root entries) {path : List String}
    {entry : Entry} (hget : entries.get? (Path.key path) = some entry) :
    ∃ node, (Stop.start root).along document path =
      .ok ⟨node, some entry⟩ := by
  induction h with
  | nil => cases hget
  | @snoc entries parent segment stop node new traced reached cached stepped
      fresh ih =>
      by_cases heq : parent ++ [segment] = path
      · subst heq
        rw [Table.get?_append_right fresh] at hget
        simp only [Table.get?_cons, Table.get?_nil, Option.none_or,
          if_true, Option.some.injEq] at hget
        subst hget
        exact ⟨node, (Stop.along_snoc reached segment).trans stepped⟩
      · apply ih
        rwa [Table.get?_append_left] at hget
        intro hmem
        exact heq (Path.key_inj.1 (List.mem_singleton.1 hmem).symm)

theorem get?_of_along (h : Traced document root entries) {path : List String}
    {stop : Stop} (hstop : (Stop.start root).along document path = .ok stop)
    (hkey : Path.key path ∈ entries.keys) :
    entries.get? (Path.key path) = stop.entry := by
  obtain ⟨entry, hget⟩ := Table.exists_get? hkey
  obtain ⟨node, halong⟩ := h.along_of_get? hget
  rw [hstop] at halong
  cases halong
  exact hget

theorem parent_earlier (h : Traced document root entries) {path : List String}
    {segment : String} (hne : path ≠ [])
    (hkey : Path.key (path ++ [segment]) ∈ entries.keys) :
    Path.key path ∈ entries.keys ∧
      entries.keys.idxOf (Path.key path) <
        entries.keys.idxOf (Path.key (path ++ [segment])) := by
  induction h with
  | nil => cases hkey
  | @snoc entries parent last stop node new traced reached cached stepped
      fresh ih =>
      rw [Table.keys_append] at hkey ⊢
      by_cases hold : Path.key (path ++ [segment]) ∈ entries.keys
      · obtain ⟨hmem, hlt⟩ := ih hold
        refine ⟨List.mem_append_left _ hmem, ?_⟩
        rwa [List.idxOf_append, if_pos hmem, List.idxOf_append, if_pos hold]
      · have hnew := (List.mem_append.1 hkey).resolve_left hold
        have hpath := Path.key_inj.1 (List.mem_singleton.1 hnew)
        obtain ⟨rfl, _⟩ := List.append_inj' hpath rfl
        obtain ⟨entry, hentry⟩ := Stop.exists_entry_of_along hne reached
        have hmem := Table.mem_keys_of_get? (cached.trans hentry)
        refine ⟨List.mem_append_left _ hmem, ?_⟩
        rw [List.idxOf_append, if_pos hmem, List.idxOf_append, if_neg hold]
        have hlt := List.idxOf_lt_length_of_mem hmem
        omega

theorem ancestor_earlier (h : Traced document root entries)
    {first second : List String} (hfirst : first ≠ []) (hsecond : second ≠ [])
    (hkey : Path.key (first ++ second) ∈ entries.keys) :
    Path.key first ∈ entries.keys ∧
      entries.keys.idxOf (Path.key first) <
        entries.keys.idxOf (Path.key (first ++ second)) := by
  generalize hlength : second.length = length
  induction length generalizing second with
  | zero => exact absurd (List.length_eq_zero_iff.1 hlength) hsecond
  | succ length ih =>
      have hsplit := List.dropLast_concat_getLast hsecond
      rw [← hsplit, ← List.append_assoc] at hkey ⊢
      have hparent := h.parent_earlier (by simp [hfirst]) hkey
      by_cases hinit : second.dropLast = []
      · rw [hinit, List.append_nil] at hparent ⊢
        exact hparent
      · have hearlier := ih hinit hparent.1 (by simp [hlength])
        exact ⟨hearlier.1, Nat.lt_trans hearlier.2 hparent.2⟩

end Traced

theorem Ledger.entries_store {ledger : Ledger} {key : String}
    (h : key ∉ ledger.entries.keys) (requested : String) (entry : Entry)
    (conflict : Option Conflict) :
    (ledger.store requested key entry conflict).entries =
      ledger.entries ++ [(key, entry)] := by
  cases conflict with
  | none => exact Table.insertIfNew_of_not_mem h entry
  | some conflict => exact Table.insertIfNew_of_not_mem h entry

namespace Walk

variable {document : Json} {root : Node}

theorem visit_of_mem {ledger : Ledger} {visited : List String} {segment : String}
    (h : Path.key (visited ++ [segment]) ∈ ledger.entries.keys)
    (requested : String) (node : Node) :
    visit document requested visited node segment ledger =
      (Node.child document node segment >>= fun next => .ok (next, ledger)) := by
  simp only [visit, if_pos (Table.contains_eq_true_iff.2 h)]

theorem visit_of_not_mem {ledger : Ledger} {visited : List String}
    {segment : String}
    (h : Path.key (visited ++ [segment]) ∉ ledger.entries.keys)
    (requested : String) (node : Node) :
    visit document requested visited node segment ledger =
      (Node.child document node segment >>= fun next =>
        Entry.compile document next (Node.requires node
            (ledger.entries.get? (Path.key visited)) segment) >>= fun compiled =>
          .ok (next, ledger.store requested (Path.key (visited ++ [segment]))
            compiled.1 compiled.2)) := by
  simp only [visit,
    if_neg (fun hkey => h (Table.contains_eq_true_iff.1 hkey))]

theorem visit_cases {requested : String} {visited : List String} {node next : Node}
    {segment : String} {ledger after : Ledger}
    (h : visit document requested visited node segment ledger = .ok (next, after)) :
    Node.child document node segment = .ok next ∧
      (Path.key (visited ++ [segment]) ∈ ledger.entries.keys ∧ after = ledger ∨
        Path.key (visited ++ [segment]) ∉ ledger.entries.keys ∧
          ∃ entry conflict,
            Entry.compile document next (Node.requires node
              (ledger.entries.get? (Path.key visited)) segment) =
                .ok (entry, conflict) ∧
            after = ledger.store requested (Path.key (visited ++ [segment])) entry
              conflict) := by
  by_cases hkey : Path.key (visited ++ [segment]) ∈ ledger.entries.keys
  · rw [visit_of_mem hkey] at h
    obtain ⟨child, hchild, heq⟩ := bind_eq_ok_iff.1 h
    cases heq
    exact ⟨hchild, .inl ⟨hkey, rfl⟩⟩
  · rw [visit_of_not_mem hkey] at h
    obtain ⟨child, hchild, hrest⟩ := bind_eq_ok_iff.1 h
    obtain ⟨compiled, hcompile, heq⟩ := bind_eq_ok_iff.1 hrest
    cases heq
    exact ⟨hchild, .inr ⟨hkey, compiled.1, compiled.2, hcompile, rfl⟩⟩

/-- What a walk leaves, given where it should have gone. -/
structure Leaves (document : Json) (root : Node) (before after : Ledger)
    (path : List String) (outcome : Except Cause Stop) : Prop where
  traced : Traced document root after.entries
  grown : before.entries <+: after.entries
  cached : ∀ stop, outcome = .ok stop →
    after.entries.get? (Path.key path) = stop.entry

theorem visit_eq_step {ledger : Ledger} {visited : List String} {stop : Stop}
    (htraced : Traced document root ledger.entries)
    (hstop : (Stop.start root).along document visited = .ok stop)
    (hcached : ledger.entries.get? (Path.key visited) = stop.entry)
    (requested segment : String) :
    ∃ after,
      visit document requested visited stop.node segment ledger =
        (stop.step document segment).map (fun next => (next.node, after)) ∧
      Leaves document root ledger after (visited ++ [segment])
        (stop.step document segment) := by
  have hsnoc := Stop.along_snoc hstop segment
  by_cases hkey : Path.key (visited ++ [segment]) ∈ ledger.entries.keys
  · -- The entry that is there was compiled by the same step.
    obtain ⟨entry, hget⟩ := Table.exists_get? hkey
    obtain ⟨node, halong⟩ := htraced.along_of_get? hget
    rw [hsnoc] at halong
    obtain ⟨_, _, hchild, _, _⟩ := Stop.step_eq_ok_iff.1 halong
    refine ⟨ledger, ?_, htraced, List.prefix_rfl, ?_⟩
    · rw [visit_of_mem hkey, hchild, halong]
      rfl
    · intro next hnext
      exact htraced.get?_of_along (hsnoc.trans hnext) hkey
  · rw [visit_of_not_mem hkey, hcached]
    cases hstep : stop.step document segment with
    | error cause =>
        refine ⟨ledger, ?_, htraced, List.prefix_rfl, ?_⟩
        · unfold Stop.step at hstep
          rcases bind_eq_error_iff.1 hstep with hchild | ⟨next, hchild, hrest⟩
          · rw [hchild]
            rfl
          · rcases bind_eq_error_iff.1 hrest with hcompile | ⟨_, _, hok⟩
            · rw [hchild, ok_bind, hcompile]
              rfl
            · cases hok
        · intro next hnext
          cases hnext
    | ok next =>
        obtain ⟨entry, conflict, hchild, hcompile, hentry⟩ :=
          Stop.step_eq_ok_iff.1 hstep
        have hstored := Ledger.entries_store hkey requested entry conflict
        refine ⟨ledger.store requested (Path.key (visited ++ [segment])) entry
          conflict, ?_, ?_, ?_, ?_⟩
        · rw [hchild, ok_bind, hcompile]
          rfl
        · have hnext : stop.step document segment =
              .ok ⟨next.node, some entry⟩ := by
            rw [hstep, ← hentry]
          rw [hstored]
          exact .snoc htraced hstop hcached hnext hkey
        · rw [hstored]
          exact List.prefix_append _ _
        · intro _ heq
          cases heq
          rw [hstored, Table.get?_append_right hkey, hentry]
          simp

theorem onward_eq_along {ledger : Ledger} {visited : List String} {stop : Stop}
    (htraced : Traced document root ledger.entries)
    (hstop : (Stop.start root).along document visited = .ok stop)
    (hcached : ledger.entries.get? (Path.key visited) = stop.entry)
    (requested : String) (segments : List String) :
    ∃ after,
      onward document requested visited stop.node segments ledger =
        ((stop.along document segments).map Stop.node, after) ∧
      Leaves document root ledger after (visited ++ segments)
        (stop.along document segments) := by
  induction segments generalizing ledger visited stop with
  | nil =>
      refine ⟨ledger, rfl, htraced, List.prefix_rfl, ?_⟩
      intro _ heq
      cases heq
      rwa [List.append_nil]
  | cons segment rest ih =>
      obtain ⟨middle, hvisit, hleaves⟩ :=
        visit_eq_step htraced hstop hcached requested segment
      rw [onward, hvisit, Stop.along_cons]
      cases hstep : stop.step document segment with
      | error cause =>
          refine ⟨ledger, rfl, htraced, List.prefix_rfl, ?_⟩
          intro _ heq
          cases heq
      | ok next =>
          have hnext := (Stop.along_snoc hstop segment).trans hstep
          obtain ⟨after, honward, hrest⟩ :=
            ih hleaves.traced hnext (hleaves.cached next hstep)
          rw [List.append_assoc] at hrest
          exact ⟨after, honward, hrest.traced, hleaves.grown.trans hrest.grown,
            hrest.cached⟩

end Walk

/-- A walk with a traced ledger goes where a walk without a ledger goes. -/
theorem walk_eq_along {document : Json} {root : Node} {ledger : Ledger}
    (htraced : Traced document root ledger.entries) (segments : List String) :
    ∃ after,
      walk document root segments ledger =
        (reportAt (some (Path.key segments))
          (((Stop.start root).along document segments).map Stop.node),
          after) ∧
      Walk.Leaves document root ledger after segments
        ((Stop.start root).along document segments) := by
  have hstart : (Stop.start root).along document [] = .ok (Stop.start root) :=
    rfl
  obtain ⟨after, honward, hleaves⟩ :=
    Walk.onward_eq_along htraced hstart htraced.get?_root (Path.key segments)
      segments
  refine ⟨after, ?_, hleaves⟩
  rw [show (Stop.start root).node = root from rfl] at honward
  simp only [walk, honward]

theorem walk_eq_ok_of_along {document : Json} {root : Node} {segments : List String}
    {stop : Stop}
    (h : (Stop.start root).along document segments = .ok stop) :
    (walk document root segments {}).1 = .ok stop.node := by
  have hempty : Traced document root ({} : Ledger).entries := .nil
  obtain ⟨after, hwalk, _⟩ := walk_eq_along hempty segments
  rw [hwalk, h]
  rfl

/--
What the entries of a ledger have to do with the schema that was walked: they
stand under the keys of paths below the root, those of a path after those of the
paths that lead to it, and each is what compiling its node gives.
-/
structure Ledger.Coherent (document : Json) (root : Node) (ledger : Ledger) :
    Prop where
  distinct : ledger.entries.keys.Nodup
  canonical : ∀ key ∈ ledger.entries.keys,
    ∃ segments, segments ≠ [] ∧ key = Path.key segments
  ancestors : ∀ first second, first ≠ [] → second ≠ [] →
    Path.key (first ++ second) ∈ ledger.entries.keys →
      Path.key first ∈ ledger.entries.keys ∧
        ledger.entries.keys.idxOf (Path.key first) <
          ledger.entries.keys.idxOf (Path.key (first ++ second))
  compiled : ∀ path segment entry,
    ledger.entries.get? (Path.key (path ++ [segment])) = some entry →
      ∃ parent node conflict,
        (walk document root path {}).1 = .ok parent ∧
        (walk document root (path ++ [segment]) {}).1 = .ok node ∧
        Entry.compile document node
          (Node.requires parent (ledger.entries.get? (Path.key path)) segment) =
            .ok (entry, conflict)

namespace Traced

variable {document : Json} {root : Node} {ledger : Ledger}

theorem get?_parent (h : Traced document root ledger.entries) {path : List String}
    {segment : String} {parent : Stop}
    (hkey : Path.key (path ++ [segment]) ∈ ledger.entries.keys)
    (hparent : (Stop.start root).along document path = .ok parent) :
    ledger.entries.get? (Path.key path) = parent.entry := by
  by_cases hroot : path = []
  · subst hroot
    cases hparent
    exact h.get?_root
  · exact h.get?_of_along hparent (h.parent_earlier hroot hkey).1

theorem coherent (h : Traced document root ledger.entries) :
    ledger.Coherent document root where
  distinct := h.nodup_keys
  canonical := by
    intro key hkey
    obtain ⟨path, segment, rfl⟩ := h.exists_path hkey
    exact ⟨path ++ [segment], by simp, rfl⟩
  ancestors := fun _ _ hfirst hsecond hkey =>
    h.ancestor_earlier hfirst hsecond hkey
  compiled := by
    intro path segment entry hget
    obtain ⟨node, halong⟩ := h.along_of_get? hget
    obtain ⟨parent, hparent, hstep⟩ := Stop.exists_along_of_snoc halong
    obtain ⟨_, conflict, _, hcompile, hentry⟩ := Stop.step_eq_ok_iff.1 hstep
    cases hentry
    refine ⟨parent.node, node, conflict, walk_eq_ok_of_along hparent,
      walk_eq_ok_of_along halong, ?_⟩
    rw [h.get?_parent (Table.mem_keys_of_get? hget) hparent]
    exact hcompile

end Traced

end FormSchema
