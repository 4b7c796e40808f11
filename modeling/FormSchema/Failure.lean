/-!
# Failures

A `Cause` says why a question about a schema has no answer.  Most causes are
reported with a message and with the path that was asked for; a `Fault` is a
value put to a use that its kind does not allow, and is only named.
-/

namespace FormSchema

inductive Fault where
  /-- A key is looked up in a value that is not an object. -/
  | notAnObject
  /-- An object is extended by a value that is not one. -/
  | notMergeable
  /-- The members of a number, a truth value or null are asked for. -/
  | notIterable
  /-- A member of a list of pairs does not have two parts. -/
  | notAPair
  /-- A list or an object stands where a key is needed. -/
  | compositeKey
  /-- A member of a choice is not an object and has no `value`. -/
  | notAnOption
  /-- A number of items is not a whole number. -/
  | notACount
  /-- A numeral has more digits than are read or written. -/
  | longNumeral
  | missingKey
  | noSuchOption
  /-- Items of items never end. -/
  | endless
  deriving DecidableEq, Repr

inductive Cause where
  | externalReference (reference : String)
  | danglingReference (reference : String)
  | notAnArray (segment : String)
  | noProperties
  | fieldNotFound
  | unrepresentable
  /-- No token of a path starts at this position. -/
  | malformedPath (position : Nat)
  | fault (misuse : Fault)
  deriving DecidableEq, Repr

structure Failure where
  cause : Cause
  path : Option String
  deriving DecidableEq, Repr

namespace Fault

def message : Fault → String
  | notAnObject => "value is not an object"
  | notMergeable => "value can not be merged into an object"
  | notIterable => "value has no members"
  | notAPair => "member is not a pair"
  | compositeKey => "list or object used as a key"
  | notAnOption => "option is not an object"
  | notACount => "value is not a count"
  | longNumeral => "numeral is too long"
  | missingKey => "key is missing"
  | noSuchOption => "no option has the value"
  | endless => "items are nested without end"

end Fault

namespace Cause

def message (path : String) : Cause → String
  | externalReference reference =>
      "Reference is not an internal reference, and only such are allowed: \"" ++
        reference ++ "\""
  | danglingReference reference =>
      "Reference not found in schema: \"" ++ reference ++ "\""
  | notAnArray segment =>
      "Field is not an array in schema: \"" ++ path ++ "\" (segment \"" ++
        segment ++ "\" requires an array)"
  | noProperties => "Field properties not found in schema: \"" ++ path ++ "\""
  | fieldNotFound => "Field not found in schema: \"" ++ path ++ "\""
  | unrepresentable =>
      "Field \"" ++ path ++ "\" can not be represented as a type null"
  | malformedPath position =>
      "Invalid field path: \"" ++ path ++ "\" (unexpected text at " ++
        toString position ++ ")"
  | fault misuse => misuse.message

def reference? : Cause → Option String
  | externalReference reference | danglingReference reference => some reference
  | _ => none

def isReported : Cause → Bool
  | fault _ => false
  | _ => true

end Cause

namespace Failure

def message (failure : Failure) : String :=
  failure.cause.message (failure.path.getD "")

def reference? (failure : Failure) : Option String := failure.cause.reference?

end Failure

section Bind

variable {ε α β γ : Type}

@[simp] theorem ok_bind (value : α) (next : α → Except ε β) :
    (Except.ok value >>= next) = next value := rfl

@[simp] theorem error_bind (cause : ε) (next : α → Except ε β) :
    (Except.error cause >>= next) = .error cause := rfl

theorem bind_eq_ok_iff {first : Except ε α} {next : α → Except ε β} {result : β} :
    (first >>= next) = .ok result ↔
      ∃ value, first = .ok value ∧ next value = .ok result := by
  cases first with
  | error cause => simp
  | ok value => simp

theorem bind_eq_error_iff {first : Except ε α} {next : α → Except ε β}
    {cause : ε} :
    (first >>= next) = .error cause ↔
      first = .error cause ∨
        ∃ value, first = .ok value ∧ next value = .error cause := by
  cases first with
  | error other => simp
  | ok value => simp

theorem exists_bind_ok_iff {first : Except ε α} {f : α → β} :
    (∃ result, (first >>= fun value => .ok (f value)) = .ok result) ↔
      ∃ value, first = .ok value := by
  cases first <;> simp

theorem exists_bind_bind_ok_iff {first : Except ε α} {second : Except ε β}
    {f : α → β → γ} :
    (∃ result, (first >>= fun value => second >>= fun other =>
        .ok (f value other)) = .ok result) ↔
      (∃ value, first = .ok value) ∧ ∃ other, second = .ok other := by
  cases first <;> cases second <;> simp

theorem exists_mapM {f : α → Except ε β} {values : List α}
    (h : ∀ value ∈ values, ∃ result, f value = .ok result) :
    ∃ results, values.mapM f = .ok results := by
  induction values with
  | nil => exact ⟨[], rfl⟩
  | cons value values ih =>
      obtain ⟨result, hresult⟩ := h value (by simp)
      obtain ⟨results, hresults⟩ := ih fun other hother => h other (by simp [hother])
      exact ⟨result :: results, by rw [List.mapM_cons, hresult, ok_bind, hresults]; rfl⟩

theorem exists_of_mem_mapM {f : α → Except ε β} {values : List α}
    {results : List β} {result : β} (h : values.mapM f = .ok results)
    (hmem : result ∈ results) : ∃ value ∈ values, f value = .ok result := by
  induction values generalizing results with
  | nil =>
      cases h
      cases hmem
  | cons value values ih =>
      rw [List.mapM_cons, bind_eq_ok_iff] at h
      obtain ⟨first, hfirst, hrest⟩ := h
      obtain ⟨rest, hvalues, heq⟩ := bind_eq_ok_iff.1 hrest
      cases heq
      rcases List.mem_cons.1 hmem with rfl | hmem
      · exact ⟨value, by simp, hfirst⟩
      · obtain ⟨other, hother, hresult⟩ := ih hvalues hmem
        exact ⟨other, by simp [hother], hresult⟩

end Bind

def reportAt {α : Type} (path : Option String) : Except Cause α → Except Failure α
  | .ok value => .ok value
  | .error cause => .error ⟨cause, path⟩

theorem reportAt_map {α β : Type} (path : Option String) (f : α → β)
    (outcome : Except Cause α) :
    reportAt path (outcome.map f) = (reportAt path outcome).map f := by
  cases outcome <;> rfl

theorem reportAt_eq_ok_iff {α : Type} {path : Option String}
    {outcome : Except Cause α} {value : α} :
    reportAt path outcome = .ok value ↔ outcome = .ok value := by
  cases outcome <;> simp [reportAt]

theorem map_eq_ok_iff {ε α β : Type} {f : α → β} {outcome : Except ε α}
    {result : β} :
    outcome.map f = .ok result ↔ ∃ value, outcome = .ok value ∧ f value = result := by
  cases outcome <;> simp [Except.map]

def Fault.orOk {α : Type} : Except Fault α → Except Cause α
  | .ok value => .ok value
  | .error fault => .error (.fault fault)

theorem Fault.orOk_eq_ok_iff {α : Type} {outcome : Except Fault α} {value : α} :
    orOk outcome = .ok value ↔ outcome = .ok value := by
  cases outcome <;> simp [orOk]

end FormSchema
