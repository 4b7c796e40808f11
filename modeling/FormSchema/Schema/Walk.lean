import FormSchema.Path.Key
import FormSchema.Schema.Child

/-!
# Walking a path

A walk goes from the working root down one segment at a time and leaves the
entry of every path it passes in a ledger.  An entry is written once; what was
written before a step fails stays.
-/

namespace FormSchema

inductive EntryPoint where
  | field
  | subfields
  | type
  deriving DecidableEq, Repr

inductive Record where
  | compiled (key : String)
  | memoized (entryPoint : EntryPoint) (key : String)
  | conflict (path : String) (conflict : Conflict)

structure Ledger where
  entries : Table Entry := []
  journal : List Record := []

namespace Ledger

def note (ledger : Ledger) (record : Record) : Ledger :=
  { ledger with journal := ledger.journal ++ [record] }

def store (ledger : Ledger) (requested key : String) (entry : Entry)
    (conflict : Option Conflict) : Ledger :=
  let warned := match conflict with
    | none => ledger
    | some conflict => ledger.note (.conflict requested conflict)
  { warned with entries := warned.entries.insertIfNew key entry }.note
    (.compiled key)

end Ledger

namespace Walk

def visit (document : Json) (requested : String) (visited : List String)
    (node : Node) (segment : String) (ledger : Ledger) :
    Except Cause (Node × Ledger) := do
  let next ← Node.child document node segment
  let key := Path.key (visited ++ [segment])
  if ledger.entries.contains key then .ok (next, ledger)
  else
    let parent := ledger.entries.get? (Path.key visited)
    let (entry, conflict) ←
      Entry.compile document next (Node.requires node parent segment)
    .ok (next, ledger.store requested key entry conflict)

def onward (document : Json) (requested : String) :
    List String → Node → List String → Ledger → Except Cause Node × Ledger
  | _, node, [], ledger => (.ok node, ledger)
  | visited, node, segment :: rest, ledger =>
      match visit document requested visited node segment ledger with
      | .error cause => (.error cause, ledger)
      | .ok (next, ledger) =>
          onward document requested (visited ++ [segment]) next rest ledger

theorem onward_append (document : Json) (requested : String)
    (visited first second : List String) (node : Node) (ledger : Ledger) :
    onward document requested visited node (first ++ second) ledger =
      match onward document requested visited node first ledger with
      | (.ok next, ledger) =>
          onward document requested (visited ++ first) next second ledger
      | failed => failed := by
  induction first generalizing visited node ledger with
  | nil => simp [onward]
  | cons segment first ih =>
      simp only [List.cons_append, onward]
      cases visit document requested visited node segment ledger with
      | error cause => rfl
      | ok found => simp [ih]

end Walk

/-- The node of a path.  Failures and conflicts are reported for the whole path. -/
def walk (document : Json) (root : Node) (segments : List String)
    (ledger : Ledger) : Except Failure Node × Ledger :=
  let requested := Path.key segments
  let (outcome, ledger) :=
    Walk.onward document requested [] root segments ledger
  (reportAt (some requested) outcome, ledger)

end FormSchema
