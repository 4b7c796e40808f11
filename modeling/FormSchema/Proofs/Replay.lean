import FormSchema.Proofs.History
import FormSchema.Proofs.Journal

/-!
# Repeated calls

A call that is made again finds all that it wrote the first time: the answer, or,
where it failed, the entries of the prefixes that it came through and the answers
it was built from.  What was not written then is not written now, since it fails
for the same cause.  So the session stays as it is, and nothing is noted.
-/

namespace FormSchema

structure Session.Within (session later : Session) : Prop where
  entries : session.ledger.entries.keys ⊆ later.ledger.entries.keys
  remembered : ∀ entryPoint,
    session.remembered entryPoint ⊆ later.remembered entryPoint

namespace Session

variable {session middle later : Session}

theorem Within.refl (session : Session) : session.Within session :=
  ⟨List.Subset.refl _, fun _ => List.Subset.refl _⟩

theorem Within.trans (hfirst : session.Within middle) (hsecond : middle.Within later) :
    session.Within later :=
  ⟨List.Subset.trans hfirst.entries hsecond.entries, fun entryPoint =>
    List.Subset.trans (hfirst.remembered entryPoint)
      (hsecond.remembered entryPoint)⟩

theorem Writes.within (h : session.Writes later) : session.Within later := by
  have hnew {α : Type} (table : Table α) (key : String) (value : α) :
      table.keys ⊆ (table.insertIfNew key value).keys :=
    fun _ hmem => Table.mem_keys_insertIfNew.2 (.inl hmem)
  cases h with
  | entry requested entry conflict fresh =>
      refine ⟨?_, fun entryPoint => List.Subset.refl _⟩
      dsimp only
      rw [Ledger.entries_store fresh, Table.keys_append]
      exact List.subset_append_left _ _
  | field node fresh =>
      refine ⟨List.Subset.refl _, fun entryPoint => ?_⟩
      cases entryPoint with
      | field => exact hnew session.fields _ node
      | _ => exact List.Subset.refl _
  | subfields names fresh =>
      refine ⟨List.Subset.refl _, fun entryPoint => ?_⟩
      cases entryPoint with
      | subfields => exact hnew session.listings _ names
      | _ => exact List.Subset.refl _
  | type type fresh =>
      refine ⟨List.Subset.refl _, fun entryPoint => ?_⟩
      cases entryPoint with
      | type => exact hnew session.types _ type
      | _ => exact List.Subset.refl _

theorem Grows.within (h : session.Grows later) : session.Within later := by
  induction h with
  | refl => exact .refl session
  | tail _ hwrites ih => exact ih.trans hwrites.within

end Session

/-! ## Walks -/

theorem Walk.onward_again {document : Json} {root : Node} {requested : String}
    {ledger later : Ledger} {visited segments : List String} {stop : Stop}
    (htraced : Traced document root ledger.entries)
    (hlater : Traced document root later.entries)
    (hstop : (Stop.start root).along document visited = .ok stop)
    (hcached : ledger.entries.get? (Path.key visited) = stop.entry)
    (hkept : later.entries.get? (Path.key visited) = stop.entry)
    (hwithin : (onward document requested visited stop.node segments
      ledger).2.entries.keys ⊆ later.entries.keys) :
    (onward document requested visited stop.node segments later).2 = later := by
  induction segments generalizing ledger visited stop with
  | nil => rfl
  | cons segment rest ih =>
      obtain ⟨middle, hvisit, hleaves⟩ :=
        visit_eq_step htraced hstop hcached requested segment
      obtain ⟨last, hagain, hlast⟩ :=
        visit_eq_step hlater hstop hkept requested segment
      rw [onward, hvisit] at hwithin
      rw [onward]
      cases hstep : stop.step document segment with
      | error cause =>
          rw [hstep] at hagain
          rw [hagain]
          rfl
      | ok next =>
          rw [hstep] at hagain hwithin
          have hnext := (Stop.along_snoc hstop segment).trans hstep
          have hentry := hleaves.cached next hstep
          obtain ⟨after, honward, hrest⟩ :=
            onward_eq_along hleaves.traced hnext hentry requested rest
          -- The entry of this step was written then and is there now.
          have hkey : Path.key (visited ++ [segment]) ∈ later.entries.keys := by
            apply hwithin
            obtain ⟨entry, hsome⟩ := Stop.exists_entry_of_step hstep
            have hmiddle := Table.mem_keys_of_get? (hentry.trans hsome)
            change _ ∈ (onward document requested _ next.node rest
              middle).2.entries.keys
            rw [honward]
            exact (hrest.grown.map Prod.fst).subset hmiddle
          have hsame : last = later := by
            rw [visit_of_mem hkey] at hagain
            obtain ⟨child, _, heq⟩ := bind_eq_ok_iff.1 hagain
            cases heq
            rfl
          subst hsame
          rw [hagain]
          exact ih hleaves.traced hnext hentry (hlast.cached next hstep) hwithin

/-! ## Actions -/

/-- Once an action was run, running it again leaves every session as it is that
still keeps what it wrote. -/
structure Action.Replays {α : Type} (form : Form) (action : Action α) : Prop where
  steady : action.Steady form
  grows : action.Grows
  silent : ∀ session later : Session, session.Coherent form →
    later.Coherent form → (action.runOn session).2.Within later →
      (action.runOn later).2 = later

namespace Action.Replays

variable {α β : Type} {form : Form}

theorem ofExcept (outcome : Except Failure α) :
    (Action.ofExcept outcome).Replays form where
  steady := (Settles.ofExcept outcome).steady
  grows := .ofExcept outcome
  silent := by
    intro session later _ _ _
    rw [runOn_ofExcept]

theorem ofFault (outcome : Except Fault α) :
    (Action.ofFault outcome).Replays form := by
  rw [ofFault_eq]
  exact ofExcept _

theorem bind {action : Action α} {next : α → Action β}
    (hfirst : action.Replays form) (hnext : ∀ value, (next value).Replays form) :
    (action >>= next).Replays form where
  steady := hfirst.steady.bind fun value => (hnext value).steady
  grows := hfirst.grows.bind fun value => (hnext value).grows
  silent := by
    intro session later hsession hlater hwithin
    have hsilent := hfirst.silent session later hsession hlater
    obtain ⟨outcome, hsettles⟩ := hfirst.steady
    obtain ⟨middle, hrun, hmiddle⟩ := hsettles session hsession
    obtain ⟨last, hagain, _⟩ := hsettles later hlater
    rw [runOn_bind, hrun] at hwithin
    rw [hrun, hagain] at hsilent
    rw [runOn_bind, hagain]
    cases outcome with
    | error failure => exact hsilent hwithin
    | ok value =>
        have hkept := ((hnext value).grows middle).within.trans hwithin
        have hsame : last = later := hsilent hkept
        subst hsame
        exact (hnext value).silent middle _ hmiddle hlater hwithin

theorem answer {memo : Memo α} {key : String} {compute : Action α}
    (hsteady : (memo.answer key compute).Steady form)
    (hgrows : (memo.answer key compute).Grows) (hcompute : compute.Replays form)
    (hkeys : ∀ session : Session,
      (memo.read session).keys = session.remembered memo.entryPoint)
    (hread : ∀ (session : Session) (table : Table α),
      memo.read (memo.write session table) = table) :
    (memo.answer key compute).Replays form where
  steady := hsteady
  grows := hgrows
  silent := by
    intro session later hsession hlater hwithin
    rw [Memo.runOn_answer] at hwithin ⊢
    cases hlast : (memo.read later).get? key with
    | some value => rfl
    | none =>
        have hnever : ∀ earlier : Session, earlier.Within later →
            key ∉ (memo.read earlier).keys := by
          intro earlier hearlier hmem
          apply Table.get?_eq_none_iff.1 hlast
          rw [hkeys] at hmem ⊢
          exact hearlier.remembered _ hmem
        have hsilent := hcompute.silent session later hsession hlater
        obtain ⟨outcome, hsettles⟩ := hcompute.steady
        obtain ⟨middle, hrun, _⟩ := hsettles session hsession
        obtain ⟨last, hagain, _⟩ := hsettles later hlater
        rw [hrun, hagain] at hsilent
        rw [hrun] at hwithin
        rw [hagain]
        cases hget : (memo.read session).get? key with
        | some value =>
            rw [hget] at hwithin
            exact absurd (Table.mem_keys_of_get? hget) (hnever session hwithin)
        | none =>
            rw [hget] at hwithin
            cases outcome with
            | error failure => exact hsilent hwithin
            | ok value =>
                refine absurd ?_ (hnever _ hwithin)
                change key ∈ (memo.read (memo.write _ _)).keys
                rw [hread]
                exact Table.mem_keys_insertIfNew.2 (.inr rfl)

end Action.Replays

namespace Form

open FormSchema.Action

variable (form : Form) (path : List String)

theorem visit_replays : (form.visit path).Replays form where
  steady := by
    refine ⟨form.nodeAt path, fun session hsession => ?_⟩
    obtain ⟨after, hrun, hafter, _⟩ := runOn_visit path hsession
    exact ⟨after, hrun, hafter⟩
  grows := form.visit_grows path
  silent := by
    intro session later hsession hlater hwithin
    rw [runOn_visit_eq] at hwithin ⊢
    have hstart : (Stop.start form.root).along (.obj form.document) [] =
        .ok (Stop.start form.root) := rfl
    have hagain : (walk (.obj form.document) form.root path later.ledger).2 =
        later.ledger :=
      Walk.onward_again hsession.traced hlater.traced hstart
        hsession.traced.get?_root hlater.traced.get?_root hwithin.entries
    rw [hagain]

theorem field_replays : (form.field path).Replays form :=
  .answer (settles_field path).steady (form.field_grows path)
    (form.visit_replays path) (fun _ => rfl) fun _ _ => rfl

theorem entry_replays : (form.entry path).Replays form where
  steady := (settles_entry path).steady
  grows := form.entry_grows path
  silent := by
    intro session later hsession hlater hwithin
    rw [runOn_entry_eq] at hwithin ⊢
    split
    · rfl
    · next hroot =>
        rw [if_neg hroot] at hwithin
        exact (form.field_replays path).silent session later hsession hlater hwithin

theorem subfields_replays : (form.subfields path).Replays form := by
  apply Replays.answer (settles_subfields path).steady (form.subfields_grows path)
  · split
    · exact .ofFault _
    · exact .bind (form.field_replays path) fun _ =>
        .bind (form.entry_replays path) fun _ => .ofFault _
  · exact fun _ => rfl
  · exact fun _ _ => rfl

theorem type_replays : (form.type path).Replays form :=
  .answer (settles_type path).steady (form.type_grows path)
    (.bind (form.field_replays path) fun _ =>
      .bind (form.entry_replays path) fun _ => .ofExcept _)
    (fun _ => rfl) fun _ _ => rfl

theorem replays_pervades : form.Pervades fun action => action.Replays form where
  ofExcept := Replays.ofExcept
  bind := Replays.bind
  field := form.field_replays
  entry := form.entry_replays
  subfields := form.subfields_replays
  type := form.type_replays

theorem perform_replays (call : Call) : (form.perform call).Replays form :=
  form.replays_pervades.perform call

/-! ## Runs of calls -/

theorem after_snoc (calls : List Call) (call : Call) :
    form.after (calls ++ [call]) =
      ((form.perform call).runOn (form.after calls)).2 := by
  rw [after, after, List.foldl_append]
  rfl

theorem after_grows (earlier later : List Call) :
    (form.after earlier).Grows (form.after (earlier ++ later)) := by
  induction later generalizing earlier with
  | nil =>
      rw [List.append_nil]
      exact .refl
  | cons call later ih =>
      have hcall := (form.perform_replays call).grows (form.after earlier)
      rw [← after_snoc] at hcall
      rw [List.append_cons]
      exact hcall.trans (ih (earlier ++ [call]))

theorem after_journaled (calls : List Call) : (form.after calls).Journaled :=
  (form.after_grows [] calls).journaled Session.journaled_empty

theorem after_again (earlier between : List Call) (call : Call) :
    form.after (earlier ++ call :: between ++ [call]) =
      form.after (earlier ++ call :: between) := by
  have hgrows := form.after_grows (earlier ++ [call]) between
  rw [after_snoc, List.append_assoc, List.singleton_append] at hgrows
  rw [after_snoc]
  exact (form.perform_replays call).silent _ _ (form.after_coherent earlier)
    (form.after_coherent _) hgrows.within

/-- After any calls the journal lists the entries in the order in which they are
kept, names no answer twice and has an entry noted behind each conflict; a call
that was made before, with whatever outcome, changes nothing and notes nothing. -/
theorem after_journal_exact (calls : List Call) :
    (form.after calls).Journaled ∧
    ∀ (between : List Call) (call : Call),
      form.after (calls ++ call :: between ++ [call]) =
        form.after (calls ++ call :: between) :=
  ⟨form.after_journaled calls, fun between call =>
    form.after_again calls between call⟩

end Form

end FormSchema
