import FormSchema.Json
import FormSchema.Path.Index

/-!
# Looking up data by path

Each segment selects a key of an object or a position of a list.
-/

namespace FormSchema.Json

def step (value : Json) (segment : String) : Except Fault (Option Json) :=
  match value with
  | obj fields => .ok (Table.get? fields segment)
  | arr elements => Path.element? elements segment
  | _ => .ok none

def lookup : Json → List String → Except Fault (Option Json)
  | value, [] => .ok (some value)
  | value, segment :: rest =>
      match value.step segment with
      | .ok (some next) => lookup next rest
      | .ok none => .ok none
      | .error fault => .error fault

theorem lookup_append (value : Json) (first second : List String) :
    value.lookup (first ++ second) =
      match value.lookup first with
      | .ok (some next) => next.lookup second
      | other => other := by
  induction first generalizing value with
  | nil => rfl
  | cons segment first ih =>
      rw [List.cons_append, lookup, lookup]
      cases value.step segment with
      | error fault => rfl
      | ok found =>
          cases found with
          | none => rfl
          | some next => exact ih next

end FormSchema.Json
