import FormSchema.Proofs.Route
import Mathlib.Data.List.Infix

/-!
# The trail of a walk

Whatever a ledger holds, also entries that no walk has written, a walk keeps it
and adds to it.  It adds the entries of the paths on its way that have none, in
the order in which it comes to them, and where it fails it has added those of the
paths before the failing step.  Entries that are found there decide which steps
compile, so they can spare a walk a failure but never cause one.
-/

namespace FormSchema

def Path.stations (path : List String) : List (List String) := path.inits.tail

theorem Path.map_stations_cons {α : Type} (f : List String → α) (segment : String)
    (rest : List String) :
    (stations (segment :: rest)).map f =
      f [segment] :: (stations rest).map fun path => f (segment :: path) := by
  have hinits : rest.inits = [] :: rest.inits.tail := by cases rest <;> rfl
  rw [stations, List.inits_cons, List.tail_cons, List.map_map, hinits]
  rfl

theorem Path.mem_stations_iff {path station : List String} :
    station ∈ stations path ↔ station ≠ [] ∧ station <+: path := by
  cases path with
  | nil => simp [stations]
  | cons segment rest =>
      rw [stations, List.inits_cons, List.tail_cons, List.mem_map]
      constructor
      · rintro ⟨other, hother, rfl⟩
        exact ⟨by simp, (List.prefix_cons_inj segment).2 ((List.mem_inits _ _).1 hother)⟩
      · rintro ⟨hne, hprefix⟩
        obtain ⟨first, other, rfl⟩ := List.exists_cons_of_ne_nil hne
        obtain ⟨rfl, hother⟩ := List.cons_prefix_cons.1 hprefix
        exact ⟨other, (List.mem_inits _ _).2 hother, rfl⟩

/-- All entries stay where they are, and behind them stand new ones under those of
the keys that had none. -/
def Ledger.Gains (before after : Ledger) (keys : List String) : Prop :=
  ∃ added : Table Entry, after.entries = before.entries ++ added ∧
    added.keys = keys.filter fun key => !before.entries.contains key

namespace Ledger.Gains

variable {before middle after : Ledger} {keys more : List String} {key : String}

theorem refl (ledger : Ledger) : ledger.Gains ledger [] :=
  ⟨[], (List.append_nil _).symm, rfl⟩

theorem of_mem (h : key ∈ before.entries.keys) : before.Gains before [key] := by
  refine ⟨[], (List.append_nil _).symm, ?_⟩
  rw [List.filter_cons_of_neg (by simp [Table.contains_eq_true_iff.2 h])]
  rfl

theorem of_not_mem (h : key ∉ before.entries.keys) (requested : String)
    (entry : Entry) (conflict : Option Conflict) :
    before.Gains (before.store requested key entry conflict) [key] := by
  refine ⟨[(key, entry)], Ledger.entries_store h requested entry conflict, ?_⟩
  have hnew : before.entries.contains key = false :=
    Bool.eq_false_iff.2 fun hkey => h (Table.contains_eq_true_iff.1 hkey)
  rw [List.filter_cons_of_pos (by simp [hnew])]
  rfl

theorem trans (hfirst : before.Gains middle keys) (hsecond : middle.Gains after more)
    (hdisjoint : ∀ key ∈ more, key ∉ keys) : before.Gains after (keys ++ more) := by
  obtain ⟨first, hmiddle, hkeys⟩ := hfirst
  obtain ⟨second, hafter, hmore⟩ := hsecond
  refine ⟨first ++ second, by rw [hafter, hmiddle, List.append_assoc], ?_⟩
  rw [Table.keys_append, hkeys, hmore, List.filter_append]
  congr 1
  apply List.filter_congr
  intro key hkey
  have hfresh : key ∉ first.keys := by
    rw [hkeys]
    exact fun hmem => hdisjoint key hkey (List.mem_of_mem_filter hmem)
  have hsame : middle.entries.contains key = before.entries.contains key := by
    rw [Bool.eq_iff_iff, Table.contains_eq_true_iff, Table.contains_eq_true_iff,
      hmiddle, Table.keys_append, List.mem_append, or_iff_left hfresh]
  rw [hsame]

end Ledger.Gains

namespace Walk

variable {document : Json} {requested : String} {visited segments : List String}
  {node next last : Node} {segment : String} {ledger after : Ledger} {cause : Cause}

theorem gains_of_visit
    (h : visit document requested visited node segment ledger = .ok (next, after)) :
    ledger.Gains after [Path.key (visited ++ [segment])] := by
  obtain ⟨_, ⟨hkey, rfl⟩ | ⟨hkey, entry, conflict, _, rfl⟩⟩ := visit_cases h
  · exact .of_mem hkey
  · exact .of_not_mem hkey requested entry conflict

theorem gains_of_onward
    (h : onward document requested visited node segments ledger =
      (.ok last, after)) :
    ledger.Gains after
      ((Path.stations segments).map fun path => Path.key (visited ++ path)) := by
  induction segments generalizing visited node ledger with
  | nil =>
      cases h
      exact .refl _
  | cons segment rest ih =>
      rw [onward] at h
      cases hvisit : visit document requested visited node segment ledger with
      | error cause =>
          rw [hvisit] at h
          cases h
      | ok found =>
          rw [hvisit] at h
          have hrest := ih h
          simp only [List.append_assoc, List.singleton_append] at hrest
          rw [Path.map_stations_cons]
          refine (gains_of_visit hvisit).trans hrest ?_
          -- The later paths are longer than the one that was visited.
          intro key hkey hmem
          obtain ⟨path, hpath, rfl⟩ := List.mem_map.1 hkey
          rw [List.mem_singleton, Path.key_inj] at hmem
          have hnil := List.cons.inj (List.append_cancel_left hmem)
          exact (Path.mem_stations_iff.1 hpath).1 hnil.2

theorem exists_visit_of_onward
    (h : onward document requested visited node segments ledger =
      (.error cause, after)) :
    ∃ reached segment rest last, segments = reached ++ segment :: rest ∧
      onward document requested visited node reached ledger = (.ok last, after) ∧
      visit document requested (visited ++ reached) last segment after =
        .error cause := by
  induction segments generalizing visited node ledger with
  | nil => cases h
  | cons segment rest ih =>
      rw [onward] at h
      cases hvisit : visit document requested visited node segment ledger with
      | error cause =>
          rw [hvisit] at h
          cases h
          exact ⟨[], segment, rest, node, rfl, rfl, by rw [List.append_nil, hvisit]⟩
      | ok found =>
          rw [hvisit] at h
          obtain ⟨reached, failing, more, last, rfl, honward, hfail⟩ := ih h
          refine ⟨segment :: reached, failing, more, last, rfl, ?_, ?_⟩
          · rw [onward, hvisit]
            exact honward
          · rwa [List.append_assoc] at hfail

theorem visit_congr (document : Json) {other : Ledger}
    (hsame : ledger.entries = other.entries) (requested again : String)
    (visited : List String) (node : Node) (segment : String) :
    (visit document requested visited node segment ledger).map
        (fun found => (found.1, found.2.entries)) =
      (visit document again visited node segment other).map
        (fun found => (found.1, found.2.entries)) := by
  by_cases hkey : Path.key (visited ++ [segment]) ∈ ledger.entries.keys
  · have hother := hkey
    rw [hsame] at hother
    rw [visit_of_mem hkey, visit_of_mem hother]
    cases Node.child document node segment with
    | error cause => rfl
    | ok child => simp only [ok_bind, Except.map, hsame]
  · have hother := hkey
    rw [hsame] at hother
    rw [visit_of_not_mem hkey, visit_of_not_mem hother, hsame]
    cases Node.child document node segment with
    | error cause => rfl
    | ok child =>
        rw [ok_bind, ok_bind]
        cases Entry.compile document child _ with
        | error cause => rfl
        | ok compiled =>
            simp only [ok_bind, Except.map]
            rw [Ledger.entries_store hkey, Ledger.entries_store hother, hsame]

theorem onward_congr (document : Json) {other : Ledger}
    (hsame : ledger.entries = other.entries) (requested again : String)
    (visited : List String) (node : Node) (segments : List String) :
    (onward document requested visited node segments ledger).1 =
      (onward document again visited node segments other).1 := by
  induction segments generalizing visited node ledger other with
  | nil => rfl
  | cons segment rest ih =>
      have hvisit := visit_congr document hsame requested again visited node segment
      rw [onward, onward]
      cases hfirst : visit document requested visited node segment ledger with
      | error cause =>
          rw [hfirst] at hvisit
          cases hsecond : visit document again visited node segment other with
          | error cause =>
              rw [hsecond] at hvisit
              cases hvisit
              rfl
          | ok found =>
              rw [hsecond] at hvisit
              cases hvisit
      | ok found =>
          rw [hfirst] at hvisit
          cases hsecond : visit document again visited node segment other with
          | error cause =>
              rw [hsecond] at hvisit
              cases hvisit
          | ok second =>
              rw [hsecond] at hvisit
              obtain ⟨hnode, hentries⟩ := Prod.mk.inj (Except.ok.inj hvisit)
              dsimp only
              rw [hnode]
              exact ih hentries _ _

theorem exists_visit_of_next (h : node.next document segment = .ok next)
    (requested : String) (visited : List String) (ledger : Ledger) :
    ∃ after, visit document requested visited node segment ledger =
      .ok (next, after) := by
  obtain ⟨child, hchild, hrest⟩ := bind_eq_ok_iff.1 h
  obtain ⟨compiled, hcompile, heq⟩ := bind_eq_ok_iff.1 hrest
  cases heq
  by_cases hkey : Path.key (visited ++ [segment]) ∈ ledger.entries.keys
  · rw [visit_of_mem hkey, hchild]
    exact ⟨_, rfl⟩
  · rw [visit_of_not_mem hkey, hchild, ok_bind, Entry.compile_eq_map, hcompile]
    exact ⟨_, rfl⟩

theorem onward_eq_ok_of_route (h : node.route document segments = .ok last)
    (requested : String) (visited : List String) (ledger : Ledger) :
    (onward document requested visited node segments ledger).1 = .ok last := by
  induction segments generalizing visited node ledger with
  | nil =>
      cases h
      rfl
  | cons segment rest ih =>
      rw [Node.route, List.foldlM_cons] at h
      obtain ⟨next, hnext, hrest⟩ := bind_eq_ok_iff.1 h
      obtain ⟨after, hvisit⟩ :=
        exists_visit_of_next hnext requested visited ledger
      rw [onward, hvisit]
      exact ih hrest _ _

end Walk

section

variable {document : Json} {root node : Node} {segments : List String}
  {ledger : Ledger}

theorem walk_eq (document : Json) (root : Node) (segments : List String)
    (ledger : Ledger) :
    walk document root segments ledger =
      (reportAt (some (Path.key segments))
        (Walk.onward document (Path.key segments) [] root segments ledger).1,
        (Walk.onward document (Path.key segments) [] root segments ledger).2) :=
  rfl

theorem gains_of_walk (h : (walk document root segments ledger).1 = .ok node) :
    ledger.Gains (walk document root segments ledger).2
      ((Path.stations segments).map Path.key) := by
  rw [walk_eq] at h ⊢
  exact Walk.gains_of_onward (Prod.ext (reportAt_eq_ok_iff.1 h) rfl)

theorem exists_reached_of_walk {failure : Failure}
    (h : (walk document root segments ledger).1 = .error failure) :
    ∃ reached segment rest, segments = reached ++ segment :: rest ∧
      (∃ last, (walk document root reached ledger).1 = .ok last) ∧
      (walk document root (reached ++ [segment]) ledger).1 =
        .error (failure.reportedFor (Path.key (reached ++ [segment]))) ∧
      ledger.Gains (walk document root segments ledger).2
        ((Path.stations reached).map Path.key) := by
  rw [walk_eq] at h ⊢
  rcases honward : Walk.onward document (Path.key segments) [] root segments ledger
    with ⟨cause | last, after⟩
  · rw [honward] at h
    cases h
    obtain ⟨reached, segment, rest, last, hsplit, hreached, hfail⟩ :=
      Walk.exists_visit_of_onward honward
    have hwalk := fun path =>
      Walk.onward_congr document (Eq.refl ledger.entries) (Path.key path)
        (Path.key segments) [] root path
    refine ⟨reached, segment, rest, hsplit, ⟨last, ?_⟩, ?_,
      Walk.gains_of_onward hreached⟩
    · rw [walk_eq, hwalk, hreached]
      rfl
    · rw [walk_eq, hwalk, Walk.onward_append, hreached]
      dsimp only
      rw [Walk.onward, hfail]
      rfl
  · rw [honward] at h
    cases h

theorem walk_eq_ok_of_empty (h : (walk document root segments {}).1 = .ok node)
    (ledger : Ledger) : (walk document root segments ledger).1 = .ok node := by
  rw [walk_eq_route] at h
  rw [walk_eq, Walk.onward_eq_ok_of_route (reportAt_eq_ok_iff.1 h)]
  rfl

end

/-- A walk keeps the entries that are there and adds those that are missing on its
way, on the whole way if it succeeds and up to the failing segment if it fails.  A
walk that succeeds on an empty ledger succeeds on every ledger, with the same node. -/
theorem walk_gains_stations (document : Json) (root : Node) (segments : List String)
    (ledger : Ledger) :
    (∀ node, (walk document root segments ledger).1 = .ok node →
      ledger.Gains (walk document root segments ledger).2
        ((Path.stations segments).map Path.key)) ∧
    (∀ failure, (walk document root segments ledger).1 = .error failure →
      ∃ reached segment rest, segments = reached ++ segment :: rest ∧
        (∃ last, (walk document root reached ledger).1 = .ok last) ∧
        (walk document root (reached ++ [segment]) ledger).1 =
          .error (failure.reportedFor (Path.key (reached ++ [segment]))) ∧
        ledger.Gains (walk document root segments ledger).2
          ((Path.stations reached).map Path.key)) ∧
    ∀ node, (walk document root segments {}).1 = .ok node →
      (walk document root segments ledger).1 = .ok node :=
  ⟨fun _ hnode => gains_of_walk hnode,
    fun _ hfailure => exists_reached_of_walk hfailure,
    fun _ hnode => walk_eq_ok_of_empty hnode ledger⟩

end FormSchema
