import FormSchema.Form.Call
import FormSchema.Proofs.Ledger

/-!
# Steady answers

What a field, its entry, its subfields and its type are can be said of the
schema alone.  A session is coherent when it remembers nothing else: its memos
hold such answers, its ledger is traced, and the ledger has the entry of every
field that is remembered.  From a coherent session every action has the same
outcome and leads to a coherent session, also when it fails.
-/

namespace FormSchema

namespace Form

def stopAt (form : Form) (path : List String) : Except Failure Stop :=
  reportAt (some (Path.key path))
    ((Stop.start form.root).along (.obj form.document) path)

def nodeAt (form : Form) (path : List String) : Except Failure Node :=
  (form.stopAt path).map Stop.node

def entryAt (form : Form) (path : List String) : Except Failure Entry :=
  (form.stopAt path).map fun stop => stop.entry.getD {}

def namesAt (form : Form) (path : List String) : Except Failure (List Json) :=
  if path.isEmpty then reportAt none (Fault.orOk (rootNames form.root))
  else do
    let node ← form.nodeAt path
    let entry ← form.entryAt path
    reportAt none (Fault.orOk (namesOf node entry))

def typeAt (form : Form) (path : List String) : Except Failure FieldType := do
  let node ← form.nodeAt path
  let entry ← form.entryAt path
  reportAt (some (Path.key path)) (FieldType.ofField node entry)

variable {form : Form}

theorem stopAt_eq_ok_iff {path : List String} {stop : Stop} :
    form.stopAt path = .ok stop ↔
      (Stop.start form.root).along (.obj form.document) path = .ok stop :=
  reportAt_eq_ok_iff

theorem exists_compile_of_stopAt {path : List String} {stop : Stop} {entry : Entry}
    (hne : path ≠ []) (hstop : form.stopAt path = .ok stop)
    (hentry : stop.entry = some entry) :
    ∃ isRequired conflict,
      Entry.compile (.obj form.document) stop.node isRequired =
        .ok (entry, conflict) := by
  have halong := stopAt_eq_ok_iff.1 hstop
  rw [← List.dropLast_concat_getLast hne] at halong
  obtain ⟨parent, _, hstep⟩ := Stop.exists_along_of_snoc halong
  obtain ⟨compiled, conflict, _, hcompile, hsome⟩ := Stop.step_eq_ok_iff.1 hstep
  have hsame := hentry.symm.trans hsome
  cases hsame
  exact ⟨_, conflict, hcompile⟩

end Form

def Table.Answers {α : Type} (table : Table α)
    (answer : List String → Except Failure α) : Prop :=
  ∀ key value, table.get? key = some value →
    ∃ path, key = Path.key path ∧ answer path = .ok value

namespace Table.Answers

variable {α : Type} {table : Table α} {answer : List String → Except Failure α}

theorem nil : Answers ([] : Table α) answer := by
  intro key value h
  cases h

theorem of_get? (h : table.Answers answer) {path : List String} {value : α}
    (hget : table.get? (Path.key path) = some value) : answer path = .ok value := by
  obtain ⟨other, hkey, hanswer⟩ := h _ _ hget
  rwa [Path.key_inj.1 hkey]

theorem insertIfNew (h : table.Answers answer) {path : List String} {value : α}
    (hanswer : answer path = .ok value) :
    (table.insertIfNew (Path.key path) value).Answers answer := by
  intro key found hget
  rw [Table.get?_insertIfNew, Option.or_eq_some_iff] at hget
  rcases hget with hold | ⟨_, hnew⟩
  · exact h key found hold
  · split at hnew
    · next hkey =>
        cases hnew
        exact ⟨path, hkey.symm, hanswer⟩
    · cases hnew

end Table.Answers

structure Session.Coherent (form : Form) (session : Session) : Prop where
  traced : Traced (.obj form.document) form.root session.ledger.entries
  fields : session.fields.Answers form.nodeAt
  listings : session.listings.Answers form.namesAt
  types : session.types.Answers form.typeAt
  cached : ∀ key ∈ session.fields.keys, key ≠ "" →
    key ∈ session.ledger.entries.keys

def Session.Holds (form : Form) (path : List String) (session : Session) : Prop :=
  ∀ stop, form.stopAt path = .ok stop →
    session.ledger.entries.get? (Path.key path) = stop.entry

namespace Session.Coherent

variable {form : Form} {session : Session} {path : List String}

theorem empty : Coherent form {} :=
  ⟨.nil, .nil, .nil, .nil, fun _ h => nomatch h⟩

theorem holds_of_mem (h : session.Coherent form)
    (hkey : Path.key path ∈ session.fields.keys) : session.Holds form path := by
  intro stop hstop
  rw [Form.stopAt_eq_ok_iff] at hstop
  by_cases hroot : path = []
  · subst hroot
    cases hstop
    exact h.traced.get?_root
  · have hne : Path.key path ≠ "" := fun heq => hroot (Path.key_eq_empty_iff.1 heq)
    exact h.traced.get?_of_along hstop (h.cached _ hkey hne)

theorem store_field (h : session.Coherent form) {node : Node}
    (hnode : form.nodeAt path = .ok node) (hholds : session.Holds form path) :
    (Memo.field.store (Path.key path) node session).Coherent form where
  traced := h.traced
  fields := h.fields.insertIfNew hnode
  listings := h.listings
  types := h.types
  cached := by
    intro key hkey hne
    rcases Table.mem_keys_insertIfNew.1 hkey with hold | hnew
    · exact h.cached key hold hne
    · subst hnew
      obtain ⟨stop, hstop, _⟩ := map_eq_ok_iff.1 hnode
      obtain ⟨entry, hentry⟩ := Stop.exists_entry_of_along
        (fun heq => hne (Path.key_eq_empty_iff.2 heq))
        (Form.stopAt_eq_ok_iff.1 hstop)
      exact Table.mem_keys_of_get? ((hholds stop hstop).trans hentry)

theorem store_subfields (h : session.Coherent form) {names : List Json}
    (hnames : form.namesAt path = .ok names) :
    (Memo.subfields.store (Path.key path) names session).Coherent form :=
  ⟨h.traced, h.fields, h.listings.insertIfNew hnames, h.types, h.cached⟩

theorem store_type (h : session.Coherent form) {type : FieldType}
    (htype : form.typeAt path = .ok type) :
    (Memo.type.store (Path.key path) type session).Coherent form :=
  ⟨h.traced, h.fields, h.listings, h.types.insertIfNew htype, h.cached⟩

theorem walked (h : session.Coherent form) {ledger : Ledger}
    {outcome : Except Cause Stop}
    (hleaves : Walk.Leaves (.obj form.document) form.root session.ledger ledger
      path outcome) :
    Coherent form { session with ledger } where
  traced := hleaves.traced
  fields := h.fields
  listings := h.listings
  types := h.types
  cached := fun key hkey hne =>
    (hleaves.grown.map Prod.fst).subset (h.cached key hkey hne)

end Session.Coherent

/-- From every coherent session the outcome is this one, and the session stays
coherent. -/
def Action.Settles {α : Type} (form : Form) (action : Action α)
    (outcome : Except Failure α) : Prop :=
  ∀ session : Session, session.Coherent form →
    ∃ after, action.runOn session = (outcome, after) ∧ after.Coherent form

namespace Action.Settles

variable {α β : Type} {form : Form}

theorem ofExcept (outcome : Except Failure α) :
    (Action.ofExcept outcome).Settles form outcome :=
  fun session h => ⟨session, Action.runOn_ofExcept session outcome, h⟩

theorem pure (value : α) : (Pure.pure value : Action α).Settles form (.ok value) :=
  ofExcept (.ok value)

theorem throw (failure : Failure) :
    (MonadExcept.throw failure : Action α).Settles form (.error failure) :=
  ofExcept (.error failure)

theorem ofFault (outcome : Except Fault α) :
    (Action.ofFault outcome).Settles form
      (reportAt none (Fault.orOk outcome)) := by
  rw [Action.ofFault_eq]
  exact ofExcept _

theorem bind {action : Action α} {next : α → Action β}
    {outcome : Except Failure α} {answer : α → Except Failure β}
    (hfirst : action.Settles form outcome)
    (hnext : ∀ value, outcome = .ok value →
      (next value).Settles form (answer value)) :
    (action >>= next).Settles form (outcome >>= answer) := by
  intro session hsession
  obtain ⟨middle, hrun, hmiddle⟩ := hfirst session hsession
  rw [Action.runOn_bind, hrun]
  cases outcome with
  | error failure => exact ⟨middle, rfl, hmiddle⟩
  | ok value => exact hnext value rfl middle hmiddle

theorem answer {memo : Memo α} {answers : List String → Except Failure α}
    {path : List String} {compute : Action α}
    (hread : ∀ session : Session, session.Coherent form →
      (memo.read session).Answers answers)
    (hstore : ∀ (session : Session) (value : α), session.Coherent form →
      answers path = .ok value →
        (memo.store (Path.key path) value session).Coherent form)
    (hcompute : compute.Settles form (answers path)) :
    (memo.answer (Path.key path) compute).Settles form (answers path) := by
  intro session hsession
  rw [Memo.runOn_answer]
  cases hget : (memo.read session).get? (Path.key path) with
  | some value =>
      have hanswer := (hread session hsession).of_get? hget
      exact ⟨session, by rw [hanswer], hsession⟩
  | none =>
      obtain ⟨after, hrun, hafter⟩ := hcompute session hsession
      rw [hrun]
      cases hanswer : answers path with
      | error failure => exact ⟨after, rfl, hafter⟩
      | ok value => exact ⟨_, rfl, hstore after value hafter hanswer⟩

end Action.Settles

namespace Form

variable {form : Form} {session : Session} (path : List String)

theorem runOn_visit (h : session.Coherent form) :
    ∃ after, (form.visit path).runOn session = (form.nodeAt path, after) ∧
      after.Coherent form ∧ after.Holds form path := by
  obtain ⟨ledger, hwalk, hleaves⟩ := walk_eq_along h.traced path
  refine ⟨{ session with ledger }, ?_, h.walked hleaves, ?_⟩
  · rw [reportAt_map] at hwalk
    simp only [visit, Action.runOn_bind, Action.runOn_get, hwalk,
      Action.runOn_set, Action.runOn_ofExcept]
    rfl
  · intro stop hstop
    exact hleaves.cached stop (stopAt_eq_ok_iff.1 hstop)

theorem runOn_field (h : session.Coherent form) :
    ∃ after, (form.field path).runOn session = (form.nodeAt path, after) ∧
      after.Coherent form ∧ after.Holds form path := by
  unfold field
  rw [Memo.runOn_answer]
  cases hget : (Memo.field.read session).get? (Path.key path) with
  | some node =>
      have hnode := h.fields.of_get? hget
      exact ⟨session, by rw [hnode], h,
        h.holds_of_mem (Table.mem_keys_of_get? hget)⟩
  | none =>
      obtain ⟨after, hrun, hafter, hholds⟩ := runOn_visit path h
      rw [hrun]
      cases hnode : form.nodeAt path with
      | error failure => exact ⟨after, rfl, hafter, hholds⟩
      | ok node => exact ⟨_, rfl, hafter.store_field hnode hholds, hholds⟩

theorem settles_field : (form.field path).Settles form (form.nodeAt path) := by
  intro session h
  obtain ⟨after, hrun, hafter, _⟩ := runOn_field path h
  exact ⟨after, hrun, hafter⟩

theorem settles_entry : (form.entry path).Settles form (form.entryAt path) := by
  intro session h
  unfold entry
  cases hpath : path with
  | nil => exact ⟨session, rfl, h⟩
  | cons segment rest =>
      rw [← hpath, if_neg (by simp [hpath]), Action.runOn_bind]
      obtain ⟨after, hrun, hafter, hholds⟩ := runOn_field path h
      rw [hrun, nodeAt, entryAt]
      cases hstop : form.stopAt path with
      | error failure => exact ⟨after, rfl, hafter⟩
      | ok stop =>
          obtain ⟨entry, hentry⟩ := Stop.exists_entry_of_along
            (by simp [hpath]) (stopAt_eq_ok_iff.1 hstop)
          have hget := (hholds stop hstop).trans hentry
          refine ⟨after, ?_, hafter⟩
          simp only [Except.map, Action.runOn_bind, Action.runOn_get, hget, hentry]
          rfl

theorem settles_subfields :
    (form.subfields path).Settles form (form.namesAt path) := by
  apply Action.Settles.answer (fun _ h => h.listings)
    (fun _ _ h hnames => h.store_subfields hnames)
  unfold namesAt
  split
  · exact .ofFault _
  · apply Action.Settles.bind (settles_field path)
    intro node _
    apply Action.Settles.bind (settles_entry path)
    intro entry _
    exact .ofFault _

theorem settles_type : (form.type path).Settles form (form.typeAt path) := by
  apply Action.Settles.answer (fun _ h => h.types)
    (fun _ _ h htype => h.store_type htype)
  apply Action.Settles.bind (settles_field path)
  intro node _
  apply Action.Settles.bind (settles_entry path)
  intro entry _
  exact .ofExcept _

end Form

end FormSchema
