import FormSchema.Path.Spelling
import FormSchema.Schema.Walk

/-!
# Sessions on a form

A form asks questions about the fields of one schema.  Its session remembers the
nodes, the listings and the types that were found, each under the key of its
path, and keeps the ledger of all walks.  Failures are not remembered.
-/

namespace FormSchema

structure Form where
  document : Node
  root : Node
  validator : Json

def Form.open (document : Node) (validator : Json) : Except Failure Form := do
  .ok ⟨document, ← reportAt none (workingRoot document), validator⟩

inductive FieldType where
  | text
  | decimal
  | integer
  | record
  | list
  | flag
  | instant
  | declared (type : Json)

structure Session where
  ledger : Ledger := {}
  fields : Table Node := []
  listings : Table (List Json) := []
  types : Table FieldType := []

/-- What a session answers.  A failure leaves the session as far as it came. -/
abbrev Action (α : Type) := ExceptT Failure (StateM Session) α

structure Memo (α : Type) where
  entryPoint : EntryPoint
  read : Session → Table α
  write : Session → Table α → Session

namespace Memo

def field : Memo Node :=
  ⟨.field, Session.fields, fun session table => { session with fields := table }⟩

def subfields : Memo (List Json) :=
  ⟨.subfields, Session.listings,
    fun session table => { session with listings := table }⟩

def type : Memo FieldType :=
  ⟨.type, Session.types, fun session table => { session with types := table }⟩

def store {α : Type} (memo : Memo α) (key : String) (value : α)
    (session : Session) : Session :=
  memo.write
    { session with ledger := session.ledger.note (.memoized memo.entryPoint key) }
    ((memo.read session).insertIfNew key value)

def answer {α : Type} (memo : Memo α) (key : String) (compute : Action α) :
    Action α := do
  match (memo.read (← get)).get? key with
  | some value => return value
  | none =>
      let value ← compute
      modify (memo.store key value)
      return value

end Memo

namespace Action

def ofExcept {α : Type} : Except Failure α → Action α
  | .ok value => return value
  | .error failure => throw failure

def ofFault {α : Type} : Except Fault α → Action α
  | .ok value => return value
  | .error fault => throw ⟨.fault fault, none⟩

def runOn {α : Type} (action : Action α) (session : Session) :
    Except Failure α × Session :=
  action.run.run session

variable {α β : Type} (session : Session)

@[simp] theorem runOn_pure (value : α) :
    runOn (pure value) session = (.ok value, session) := rfl

@[simp] theorem runOn_throw (failure : Failure) :
    runOn (throw failure : Action α) session = (.error failure, session) := rfl

@[simp] theorem runOn_get : runOn get session = (.ok session, session) := rfl

@[simp] theorem runOn_set (next : Session) :
    runOn (set next) session = (.ok (), next) := rfl

@[simp] theorem runOn_modify (change : Session → Session) :
    runOn (modify change) session = (.ok (), change session) := rfl

theorem runOn_bind (action : Action α) (next : α → Action β) :
    runOn (action >>= next) session =
      match runOn action session with
      | (.ok value, after) => runOn (next value) after
      | (.error failure, after) => (.error failure, after) := by
  unfold runOn
  rw [ExceptT.run_bind, StateT.run_bind]
  change (match action.run.run session with | (outcome, after) => _) = _
  rcases action.run.run session with ⟨_ | _, after⟩ <;> rfl

@[simp] theorem runOn_ofExcept (outcome : Except Failure α) :
    runOn (ofExcept outcome) session = (outcome, session) := by
  cases outcome <;> rfl

theorem ofFault_eq (outcome : Except Fault α) :
    ofFault outcome = ofExcept (reportAt none (Fault.orOk outcome)) := by
  cases outcome <;> rfl

end Action

theorem Memo.runOn_answer {α : Type} (memo : Memo α) (key : String)
    (compute : Action α) (session : Session) :
    (memo.answer key compute).runOn session =
      match (memo.read session).get? key with
      | some value => (.ok value, session)
      | none =>
          match compute.runOn session with
          | (.ok value, after) => (.ok value, memo.store key value after)
          | (.error failure, after) => (.error failure, after) := by
  simp only [Memo.answer, Action.runOn_bind, Action.runOn_get]
  cases (memo.read session).get? key with
  | some value => rfl
  | none =>
      simp only [Action.runOn_bind]
      rcases compute.runOn session with ⟨_ | _, after⟩ <;> rfl

end FormSchema
