import FormSchema.Path.Spelling

/-!
# Reports of a validator

A report lists details, each with the path of the data it is about.  A detail
concerns a field when its path is that of the field, or that of the parent while
the field is what is missing there.
-/

namespace FormSchema.Report

def aspect (record : Json) (name : String) : Json :=
  match record with
  | .obj fields => (Table.get? fields name).getD .null
  | _ => .null

def details? (report : Json) : Option (List Json) :=
  match aspect report "details" with
  | .arr details => some details
  | _ => none

def pathOf (detail : Json) : Except Failure (List String) :=
  Spelling.pathOf (aspect detail "dataPath")

def misses (segments : List String) (detail : Json) : Bool :=
  match segments.getLast?, aspect (aspect detail "params") "missingProperty" with
  | some name, missing => missing.isText name
  | none, missing => missing.isNull

def concerns (segments : List String) (detail : Json) : Except Failure Bool := do
  let key := Path.key (← pathOf detail)
  .ok (key == Path.key segments ||
    key == Path.key segments.dropLast && misses segments detail)

def firstConcerning (segments : List String) :
    List Json → Except Failure (Option Json)
  | [] => .ok none
  | detail :: rest => do
      if ← concerns segments detail then .ok (some detail)
      else firstConcerning segments rest

/-- The first detail that concerns a field.  A name is read only when there are
details to compare it with. -/
def detail (name : Spelling) (report : Json) : Except Failure (Option Json) :=
  match details? report with
  | none => .ok none
  | some details => do firstConcerning (← name.path) details

def orElse (value other : Json) : Json := if value.truthy then value else other

def message (name : Spelling) (report : Json) : Except Failure Json := do
  match ← detail name report with
  | none => .ok (.str "")
  | some found =>
      if found.truthy then .ok (orElse (aspect found "message") (.str ""))
      else .ok (.str "")

def messages (report : Json) : List Json :=
  if report.truthy then
    match details? report with
    | some details => details.map (aspect · "message")
    | none => [orElse (aspect report "message") report]
  else []

end FormSchema.Report
