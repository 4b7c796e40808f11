import FormSchema.Form.Call
import FormSchema.Proofs.Ledger
import Mathlib.Logic.Relation

/-!
# The journal of a session

Whatever a session is asked, it changes by writes of two kinds: an entry under a
key that had none, noted behind the conflict that it may have, and an answer
under a key that had none.  So the journal says in which order the entries were
written, names no answer twice, and has an entry noted behind each conflict.
-/

namespace FormSchema

namespace Record

def compiledKey? : Record → Option String
  | compiled key => some key
  | _ => none

def memoKey? : Record → Option (EntryPoint × String)
  | memoized entryPoint key => some (entryPoint, key)
  | _ => none

/-- Behind every conflict the next record is that of an entry. -/
def Announced (journal : List Record) : Prop :=
  ∀ position path found,
    journal[position]? = some (conflict path found) →
      ∃ key, journal[position + 1]? = some (compiled key)

/-- Behind every conflict the next record is that of an entry, and its key goes with
the conflict in this way. -/
def Followed (relation : String → Conflict → String → Prop)
    (journal : List Record) : Prop :=
  ∀ position path found,
    journal[position]? = some (conflict path found) →
      ∃ key, journal[position + 1]? = some (compiled key) ∧ relation path found key

theorem announced_iff {journal : List Record} :
    Announced journal ↔ Followed (fun _ _ _ => True) journal := by
  simp only [Announced, Followed, and_true]

namespace Followed

variable {relation : String → Conflict → String → Prop}

theorem append {first second : List Record} (hfirst : Followed relation first)
    (hsecond : Followed relation second) : Followed relation (first ++ second) := by
  intro position path found hget
  by_cases hlt : position < first.length
  · rw [List.getElem?_append_left hlt] at hget
    obtain ⟨key, hkey, hrelation⟩ := hfirst position path found hget
    have hnext := (List.getElem?_eq_some_iff.1 hkey).1
    exact ⟨key, (List.getElem?_append_left hnext).trans hkey, hrelation⟩
  · have hle := Nat.le_of_not_lt hlt
    rw [List.getElem?_append_right hle] at hget
    obtain ⟨key, hkey, hrelation⟩ := hsecond _ path found hget
    refine ⟨key, ?_, hrelation⟩
    rw [List.getElem?_append_right (by omega), ← hkey]
    congr 1
    omega

theorem nil : Followed relation [] := by
  intro position path found hget
  cases hget

theorem singleton {record : Record}
    (h : ∀ path found, record ≠ conflict path found) : Followed relation [record] := by
  intro position path found hget
  cases position with
  | zero => exact absurd (Option.some.inj hget) (h path found)
  | succ position => cases hget

theorem conflict {path key : String} {found : Conflict}
    (h : relation path found key) :
    Followed relation [.conflict path found, .compiled key] := by
  intro position other reported hget
  match position with
  | 0 =>
      cases hget
      exact ⟨key, rfl, h⟩
  | 1 => cases hget
  | position + 2 => cases hget

end Followed

theorem Announced.append {first second : List Record} (hfirst : Announced first)
    (hsecond : Announced second) : Announced (first ++ second) :=
  announced_iff.2 ((announced_iff.1 hfirst).append (announced_iff.1 hsecond))

end Record

namespace Session

def remembered (session : Session) : EntryPoint → List String
  | .field => session.fields.keys
  | .subfields => session.listings.keys
  | .type => session.types.keys

/-- A single write of a session. -/
inductive Writes : Session → Session → Prop
  | entry {session : Session} {key : String} (requested : String) (entry : Entry)
      (conflict : Option Conflict) (fresh : key ∉ session.ledger.entries.keys) :
      Writes session { session with
        ledger := session.ledger.store requested key entry conflict }
  | field {session : Session} {key : String} (node : Node)
      (fresh : key ∉ session.remembered .field) :
      Writes session (Memo.field.store key node session)
  | subfields {session : Session} {key : String} (names : List Json)
      (fresh : key ∉ session.remembered .subfields) :
      Writes session (Memo.subfields.store key names session)
  | type {session : Session} {key : String} (type : FieldType)
      (fresh : key ∉ session.remembered .type) :
      Writes session (Memo.type.store key type session)

def Grows : Session → Session → Prop := Relation.ReflTransGen Writes

/-- What the journal says of all that is kept. -/
structure Journaled (session : Session) : Prop where
  compiled : session.ledger.journal.filterMap Record.compiledKey? =
    session.ledger.entries.keys
  distinct : session.ledger.entries.keys.Nodup
  memoized : ∀ entryPoint key,
    (entryPoint, key) ∈ session.ledger.journal.filterMap Record.memoKey? ↔
      key ∈ session.remembered entryPoint
  once : (session.ledger.journal.filterMap Record.memoKey?).Nodup
  announced : Record.Announced session.ledger.journal

end Session

/-! ## What one write keeps -/

namespace Ledger

def noted (requested key : String) : Option Conflict → List Record
  | none => [.compiled key]
  | some conflict => [.conflict requested conflict, .compiled key]

variable (ledger : Ledger) (requested key : String) (entry : Entry)
  (conflict : Option Conflict)

theorem journal_store :
    (ledger.store requested key entry conflict).journal =
      ledger.journal ++ noted requested key conflict := by
  cases conflict with
  | none => rfl
  | some conflict => exact List.append_assoc _ _ _

theorem compiledKey?_noted :
    (noted requested key conflict).filterMap Record.compiledKey? = [key] := by
  cases conflict <;> rfl

theorem memoKey?_noted :
    (noted requested key conflict).filterMap Record.memoKey? = [] := by
  cases conflict <;> rfl

theorem followed_noted {relation : String → Conflict → String → Prop}
    (h : ∀ found, conflict = some found → relation requested found key) :
    Record.Followed relation (noted requested key conflict) := by
  cases conflict with
  | none => exact .singleton nofun
  | some found => exact .conflict (h found rfl)

end Ledger

namespace Session

variable {session after : Session}

theorem journaled_empty : Journaled {} where
  compiled := rfl
  distinct := List.nodup_nil
  memoized := by
    intro entryPoint key
    cases entryPoint <;> simp [remembered, Table.keys]
  once := List.nodup_nil
  announced := Record.announced_iff.2 .nil

theorem Journaled.entry (h : session.Journaled) {key : String}
    (fresh : key ∉ session.ledger.entries.keys) (requested : String)
    (entry : Entry) (conflict : Option Conflict) :
    Journaled { session with
      ledger := session.ledger.store requested key entry conflict } where
  compiled := by
    dsimp only
    rw [Ledger.journal_store, Ledger.entries_store fresh, List.filterMap_append,
      h.compiled, Ledger.compiledKey?_noted, Table.keys_append]
    rfl
  distinct := by
    dsimp only
    rw [Ledger.entries_store fresh, Table.keys_append]
    exact List.nodup_append.2 ⟨h.distinct, by simp [Table.keys], by
      rintro _ hold _ hnew rfl
      rw [List.mem_singleton.1 hnew] at hold
      exact fresh hold⟩
  memoized := by
    intro entryPoint other
    dsimp only
    rw [Ledger.journal_store, List.filterMap_append, Ledger.memoKey?_noted,
      List.append_nil]
    exact h.memoized entryPoint other
  once := by
    dsimp only
    rw [Ledger.journal_store, List.filterMap_append, Ledger.memoKey?_noted,
      List.append_nil]
    exact h.once
  announced := by
    dsimp only
    rw [Ledger.journal_store]
    exact h.announced.append (Record.announced_iff.2
      (Ledger.followed_noted requested key conflict fun _ _ => trivial))

theorem Journaled.answer (h : session.Journaled) {entryPoint : EntryPoint}
    {key : String} (fresh : key ∉ session.remembered entryPoint)
    (hledger : after.ledger = session.ledger.note (.memoized entryPoint key))
    (hsame : ∀ other, other ≠ entryPoint →
      after.remembered other = session.remembered other)
    (hnew : ∀ other, other ∈ after.remembered entryPoint ↔
      other ∈ session.remembered entryPoint ∨ key = other) :
    after.Journaled where
  compiled := by
    rw [hledger, Ledger.note, List.filterMap_append]
    exact (List.append_nil _).trans h.compiled
  distinct := by
    rw [hledger]
    exact h.distinct
  memoized := by
    intro other name
    rw [hledger, Ledger.note, List.filterMap_append, List.mem_append, h.memoized]
    by_cases heq : other = entryPoint
    · subst heq
      simp [Record.memoKey?, hnew, eq_comm]
    · simp [Record.memoKey?, hsame other heq, heq]
  once := by
    rw [hledger, Ledger.note, List.filterMap_append]
    refine List.nodup_append.2 ⟨h.once, by simp [Record.memoKey?], ?_⟩
    rintro _ hold _ hlast rfl
    rw [List.mem_singleton.1 hlast, h.memoized] at hold
    exact fresh hold
  announced := by
    rw [hledger]
    exact h.announced.append (Record.announced_iff.2 (.singleton nofun))

theorem Writes.journaled (hwrites : session.Writes after)
    (h : session.Journaled) : after.Journaled := by
  cases hwrites with
  | entry requested entry conflict fresh =>
      exact h.entry fresh requested entry conflict
  | field node fresh =>
      exact h.answer fresh rfl (fun other hne => by cases other <;> trivial)
        fun other => Table.mem_keys_insertIfNew
  | subfields names fresh =>
      exact h.answer fresh rfl (fun other hne => by cases other <;> trivial)
        fun other => Table.mem_keys_insertIfNew
  | type type fresh =>
      exact h.answer fresh rfl (fun other hne => by cases other <;> trivial)
        fun other => Table.mem_keys_insertIfNew

theorem Grows.journaled (hgrows : session.Grows after) (h : session.Journaled) :
    after.Journaled := by
  induction hgrows with
  | refl => exact h
  | tail _ hwrites ih => exact hwrites.journaled ih

end Session

/-! ## What actions write -/

namespace Walk

variable {document : Json}

theorem onward_grows (requested : String) (visited : List String) (node : Node)
    (segments : List String) (session : Session) :
    session.Grows { session with
      ledger := (onward document requested visited node segments
        session.ledger).2 } := by
  induction segments generalizing visited node session with
  | nil => exact .refl
  | cons segment rest ih =>
      rw [onward]
      cases hvisit : visit document requested visited node segment
          session.ledger with
      | error cause => exact .refl
      | ok found =>
          obtain ⟨next, after⟩ := found
          have hrest := ih (visited ++ [segment]) next { session with ledger := after }
          obtain ⟨_, ⟨_, rfl⟩ | ⟨fresh, entry, conflict, _, rfl⟩⟩ := visit_cases hvisit
          · exact hrest
          · exact .head (.entry requested entry conflict fresh) hrest

end Walk

def Action.Grows {α : Type} (action : Action α) : Prop :=
  ∀ session : Session, session.Grows (action.runOn session).2

def Action.Spares {α β : Type} (part : Session → β) (action : Action α) : Prop :=
  ∀ session : Session, part (action.runOn session).2 = part session

namespace Action

variable {α β γ : Type}

theorem Grows.ofExcept (outcome : Except Failure α) :
    (Action.ofExcept outcome).Grows := by
  intro session
  rw [runOn_ofExcept]
  exact .refl

theorem Grows.ofFault (outcome : Except Fault α) :
    (Action.ofFault outcome).Grows := by
  rw [ofFault_eq]
  exact .ofExcept _

theorem Grows.bind {action : Action α} {next : α → Action β}
    (hfirst : action.Grows) (hnext : ∀ value, (next value).Grows) :
    (action >>= next).Grows := by
  intro session
  have hmiddle := hfirst session
  rw [runOn_bind]
  rcases hrun : action.runOn session with ⟨failure | value, middle⟩
  · rw [hrun] at hmiddle
    exact hmiddle
  · rw [hrun] at hmiddle
    exact hmiddle.trans (hnext value middle)

theorem Spares.ofExcept (part : Session → γ) (outcome : Except Failure α) :
    (Action.ofExcept outcome).Spares part := by
  intro session
  rw [runOn_ofExcept]

theorem Spares.ofFault (part : Session → γ) (outcome : Except Fault α) :
    (Action.ofFault outcome).Spares part := by
  rw [ofFault_eq]
  exact .ofExcept part _

theorem Spares.bind {part : Session → γ} {action : Action α} {next : α → Action β}
    (hfirst : action.Spares part) (hnext : ∀ value, (next value).Spares part) :
    (action >>= next).Spares part := by
  intro session
  have hmiddle := hfirst session
  rw [runOn_bind]
  rcases hrun : action.runOn session with ⟨failure | value, middle⟩
  · rw [hrun] at hmiddle
    exact hmiddle
  · rw [hrun] at hmiddle
    exact (hnext value middle).trans hmiddle

theorem Grows.answer {memo : Memo α} {key : String} {compute : Action α}
    (hstore : ∀ (session : Session) (value : α), key ∉ (memo.read session).keys →
      session.Writes (memo.store key value session))
    (hcompute : compute.Grows) (hspares : compute.Spares memo.read) :
    (memo.answer key compute).Grows := by
  intro session
  rw [Memo.runOn_answer]
  cases hget : (memo.read session).get? key with
  | some value => exact .refl
  | none =>
      have hmiddle := hcompute session
      have hsame := hspares session
      rcases hrun : compute.runOn session with ⟨failure | value, middle⟩
      · rw [hrun] at hmiddle
        exact hmiddle
      · rw [hrun] at hmiddle hsame
        have hfresh : key ∉ (memo.read middle).keys := by
          rw [hsame]
          exact Table.get?_eq_none_iff.1 hget
        exact hmiddle.tail (hstore middle value hfresh)

end Action

namespace Form

open FormSchema.Action

variable (form : Form) (path : List String)

theorem runOn_visit_eq (session : Session) :
    ((form.visit path).runOn session).2 = { session with
      ledger := (walk (.obj form.document) form.root path session.ledger).2 } := by
  simp only [visit, runOn_bind, runOn_get, runOn_set, runOn_ofExcept]

theorem visit_grows : (form.visit path).Grows := by
  intro session
  rw [runOn_visit_eq]
  exact Walk.onward_grows _ _ _ _ session

theorem visit_spares {β : Type} {part : Session → β}
    (h : ∀ (session : Session) (ledger : Ledger),
      part { session with ledger } = part session) :
    (form.visit path).Spares part := by
  intro session
  rw [runOn_visit_eq]
  exact h session _

theorem field_grows : (form.field path).Grows :=
  .answer (fun _ value fresh => .field value fresh) (form.visit_grows path)
    (form.visit_spares path fun _ _ => rfl)

theorem field_spares {β : Type} {part : Session → β}
    (h : ∀ (session : Session) (ledger : Ledger) (fields : Table Node),
      part { session with ledger, fields } = part session) :
    (form.field path).Spares part := by
  intro session
  have hvisit := form.visit_spares path
    (fun session ledger => h session ledger session.fields) session
  unfold field
  rw [Memo.runOn_answer]
  cases (Memo.field.read session).get? (Path.key path) with
  | some node => rfl
  | none =>
      rcases hrun : (form.visit path).runOn session with ⟨failure | node, middle⟩
      · rw [hrun] at hvisit
        exact hvisit
      · rw [hrun] at hvisit
        exact (h middle _ _).trans hvisit

theorem runOn_entry_eq (session : Session) :
    ((form.entry path).runOn session).2 =
      if path.isEmpty then session else ((form.field path).runOn session).2 := by
  unfold entry
  split
  · rfl
  · rw [runOn_bind]
    rcases (form.field path).runOn session with ⟨failure | node, middle⟩
    · rfl
    · simp only [runOn_bind, runOn_get]
      cases middle.ledger.entries.get? (Path.key path) <;> rfl

theorem entry_grows : (form.entry path).Grows := by
  intro session
  rw [runOn_entry_eq]
  split
  · exact .refl
  · exact form.field_grows path session

theorem entry_spares {β : Type} {part : Session → β}
    (h : ∀ (session : Session) (ledger : Ledger) (fields : Table Node),
      part { session with ledger, fields } = part session) :
    (form.entry path).Spares part := by
  intro session
  rw [runOn_entry_eq]
  split
  · rfl
  · exact form.field_spares path h session

theorem subfields_grows : (form.subfields path).Grows := by
  apply Grows.answer fun _ names fresh => .subfields names fresh
  · split
    · exact .ofFault _
    · exact .bind (form.field_grows path) fun _ =>
        .bind (form.entry_grows path) fun _ => .ofFault _
  · split
    · exact .ofFault _ _
    · exact .bind (form.field_spares path fun _ _ _ => rfl) fun _ =>
        .bind (form.entry_spares path fun _ _ _ => rfl) fun _ => .ofFault _ _

theorem type_grows : (form.type path).Grows :=
  .answer (fun _ type fresh => .type type fresh)
    (.bind (form.field_grows path) fun _ =>
      .bind (form.entry_grows path) fun _ => .ofExcept _)
    (.bind (form.field_spares path fun _ _ _ => rfl) fun _ =>
      .bind (form.entry_spares path fun _ _ _ => rfl) fun _ => .ofExcept _ _)

end Form

end FormSchema
