import FormSchema.Form.Report
import FormSchema.Proofs.KeyReading
import Mathlib.Data.List.Forall2

/-!
# Which detail concerns a field

The details of a report are looked through in their order, and the keys of their
paths are compared with those of the field and of its parent.  Keys are equal where
paths are, so it does not matter how a path is spelled: the detail that is found is
the first one about the path of the field, or about that of its parent if what is
missing there is the last segment.  A path that can not be read ends the search.
-/

namespace FormSchema.Report

/-- A detail is about the path of the field, or about that of its parent, where it
says that the field is missing. -/
inductive Concerns (segments : List String) (detail : Json) : Prop
  | field (hpath : pathOf detail = .ok segments)
  | missing {parent : List String} {name : String}
      (hsegments : segments = parent ++ [name]) (hpath : pathOf detail = .ok parent)
      (hmissing : aspect (aspect detail "params") "missingProperty" = .str name)

def PassesOver (segments : List String) (detail : Json) : Prop :=
  (∃ path, pathOf detail = .ok path) ∧ ¬Concerns segments detail

variable {segments : List String} {detail : Json} {rest : List Json}

/-! ## One detail -/

theorem misses_concat_iff {parent : List String} {name : String} :
    misses (parent ++ [name]) detail = true ↔
      aspect (aspect detail "params") "missingProperty" = .str name := by
  rw [misses, List.getLast?_concat]
  exact Json.isText_eq_true_iff

theorem concerns_of_pathOf (segments : List String) {path : List String}
    (h : pathOf detail = .ok path) :
    concerns segments detail =
      .ok (decide (path = segments) ||
        decide (path = segments.dropLast) && misses segments detail) := by
  have hkey (other : List String) :
      (Path.key path == Path.key other) = decide (path = other) := by
    rw [Bool.eq_iff_iff, beq_iff_eq, Path.key_inj, decide_eq_true_eq]
  rw [concerns, h, ok_bind]
  dsimp only
  rw [hkey, hkey]

theorem concerns_eq_true_iff {path : List String} (h : pathOf detail = .ok path) :
    concerns segments detail = .ok true ↔ Concerns segments detail := by
  rw [concerns_of_pathOf segments h, Except.ok.injEq, Bool.or_eq_true, Bool.and_eq_true,
    decide_eq_true_eq, decide_eq_true_eq]
  constructor
  · rintro (rfl | ⟨hparent, hmisses⟩)
    · exact .field h
    · rcases List.eq_nil_or_concat' segments with rfl | ⟨parent, name, rfl⟩
      · -- The root has no parent: this is its own path.
        rw [hparent] at h
        exact .field h
      · rw [List.dropLast_concat] at hparent
        rw [hparent] at h
        exact .missing rfl h (misses_concat_iff.1 hmisses)
  · rintro (hpath | ⟨rfl, hpath, hmissing⟩)
    · exact .inl (Except.ok.inj (h.symm.trans hpath))
    · refine .inr ⟨?_, misses_concat_iff.2 hmissing⟩
      rw [List.dropLast_concat]
      exact Except.ok.inj (h.symm.trans hpath)

theorem Concerns.exists_path (h : Concerns segments detail) :
    ∃ path, pathOf detail = .ok path := by
  cases h with
  | field hpath => exact ⟨_, hpath⟩
  | missing _ hpath _ => exact ⟨_, hpath⟩

/-! ## The search -/

theorem firstConcerning_of_concerns (h : Concerns segments detail) :
    firstConcerning segments (detail :: rest) = .ok (some detail) := by
  obtain ⟨path, hpath⟩ := h.exists_path
  rw [firstConcerning, (concerns_eq_true_iff hpath).2 h]
  rfl

theorem firstConcerning_of_passesOver (h : PassesOver segments detail) :
    firstConcerning segments (detail :: rest) = firstConcerning segments rest := by
  obtain ⟨⟨path, hpath⟩, hnot⟩ := h
  have hfalse : concerns segments detail = .ok false := by
    have hconcerns := concerns_of_pathOf segments hpath
    rw [← concerns_eq_true_iff hpath, hconcerns, Except.ok.injEq,
      Bool.not_eq_true] at hnot
    rw [hconcerns, hnot]
  rw [firstConcerning, hfalse]
  rfl

theorem firstConcerning_of_unread {failure : Failure}
    (h : pathOf detail = .error failure) :
    firstConcerning segments (detail :: rest) = .error failure := by
  rw [firstConcerning, concerns, h]
  rfl

theorem concerns_or_passesOver_or_unread (segments : List String) (detail : Json) :
    Concerns segments detail ∨ PassesOver segments detail ∨
      ∃ failure, pathOf detail = .error failure := by
  cases hpath : pathOf detail with
  | error failure => exact .inr (.inr ⟨failure, rfl⟩)
  | ok path =>
      by_cases h : Concerns segments detail
      · exact .inl h
      · exact .inr (.inl ⟨⟨path, hpath⟩, h⟩)

theorem firstConcerning_append {before : List Json}
    (h : ∀ other ∈ before, PassesOver segments other) (rest : List Json) :
    firstConcerning segments (before ++ rest) = firstConcerning segments rest := by
  induction before with
  | nil => rfl
  | cons other before ih =>
      rw [List.cons_append, firstConcerning_of_passesOver (h other (by simp)),
        ih fun last hlast => h last (by simp [hlast])]

theorem firstConcerning_cases (segments : List String) (details : List Json) :
    (∀ other ∈ details, PassesOver segments other) ∨
      ∃ before first after, details = before ++ first :: after ∧
        (∀ other ∈ before, PassesOver segments other) ∧
        (Concerns segments first ∧
            firstConcerning segments details = .ok (some first) ∨
          ∃ failure, pathOf first = .error failure ∧
            firstConcerning segments details = .error failure) := by
  induction details with
  | nil => exact .inl (by simp)
  | cons detail details ih =>
      rcases concerns_or_passesOver_or_unread segments detail with hfound | hpast |
        ⟨failure, hunread⟩
      · exact .inr ⟨[], detail, details, rfl, by simp,
          .inl ⟨hfound, firstConcerning_of_concerns hfound⟩⟩
      · rw [firstConcerning_of_passesOver hpast]
        rcases ih with hall | ⟨before, first, after, rfl, hbefore, hstop⟩
        · exact .inl (List.forall_mem_cons.2 ⟨hpast, hall⟩)
        · exact .inr ⟨detail :: before, first, after, rfl,
            List.forall_mem_cons.2 ⟨hpast, hbefore⟩, hstop⟩
      · exact .inr ⟨[], detail, details, rfl, by simp,
          .inr ⟨failure, hunread, firstConcerning_of_unread hunread⟩⟩

theorem firstConcerning_of_all {details : List Json}
    (h : ∀ other ∈ details, PassesOver segments other) :
    firstConcerning segments details = .ok none := by
  have hnil := firstConcerning_append h []
  rwa [List.append_nil] at hnil

theorem firstConcerning_eq_none_iff {details : List Json} :
    firstConcerning segments details = .ok none ↔
      ∀ other ∈ details, PassesOver segments other := by
  refine ⟨fun h => ?_, firstConcerning_of_all⟩
  rcases firstConcerning_cases segments details with hall |
    ⟨_, _, _, _, _, ⟨_, heq⟩ | ⟨_, _, heq⟩⟩
  · exact hall
  · cases heq.symm.trans h
  · cases heq.symm.trans h

theorem firstConcerning_eq_some_iff {details : List Json} {found : Json} :
    firstConcerning segments details = .ok (some found) ↔
      ∃ before after, details = before ++ found :: after ∧
        (∀ other ∈ before, PassesOver segments other) ∧ Concerns segments found := by
  constructor
  · intro h
    rcases firstConcerning_cases segments details with hall |
      ⟨before, first, after, hsplit, hbefore, ⟨hfound, heq⟩ | ⟨_, _, heq⟩⟩
    · cases (firstConcerning_of_all hall).symm.trans h
    · cases heq.symm.trans h
      exact ⟨before, after, hsplit, hbefore, hfound⟩
    · cases heq.symm.trans h
  · rintro ⟨before, after, rfl, hbefore, hfound⟩
    rw [firstConcerning_append hbefore, firstConcerning_of_concerns hfound]

theorem firstConcerning_eq_error_iff {details : List Json} {failure : Failure} :
    firstConcerning segments details = .error failure ↔
      ∃ before unread after, details = before ++ unread :: after ∧
        (∀ other ∈ before, PassesOver segments other) ∧
        pathOf unread = .error failure := by
  constructor
  · intro h
    rcases firstConcerning_cases segments details with hall |
      ⟨before, first, after, hsplit, hbefore, ⟨_, heq⟩ | ⟨_, hunread, heq⟩⟩
    · cases (firstConcerning_of_all hall).symm.trans h
    · cases heq.symm.trans h
    · cases heq.symm.trans h
      exact ⟨before, first, after, hsplit, hbefore, hunread⟩
  · rintro ⟨before, unread, after, rfl, hbefore, hunread⟩
    rw [firstConcerning_append hbefore, firstConcerning_of_unread hunread]

/-! ## Other spellings -/

/-- Two details that differ at most in how the path of their data is spelled. -/
structure Respelled (detail other : Json) : Prop where
  path : pathOf other = pathOf detail
  aspects : ∀ name, name ≠ "dataPath" → aspect other name = aspect detail name

theorem Respelled.concerns_iff {other : Json} (h : Respelled detail other) :
    Concerns segments other ↔ Concerns segments detail := by
  have hparams := h.aspects "params" (by decide)
  constructor
  · rintro (hpath | ⟨hsegments, hpath, hmissing⟩)
    · exact .field (h.path.symm.trans hpath)
    · rw [hparams] at hmissing
      exact .missing hsegments (h.path.symm.trans hpath) hmissing
  · rintro (hpath | ⟨hsegments, hpath, hmissing⟩)
    · exact .field (h.path.trans hpath)
    · rw [← hparams] at hmissing
      exact .missing hsegments (h.path.trans hpath) hmissing

theorem Respelled.passesOver {other : Json} (h : Respelled detail other)
    (hpast : PassesOver segments detail) : PassesOver segments other := by
  obtain ⟨⟨path, hpath⟩, hnot⟩ := hpast
  exact ⟨⟨path, h.path.trans hpath⟩, fun hfound => hnot (h.concerns_iff.1 hfound)⟩

/-- Two searches that come to the same: to nothing, to details at the same place, or
to the same failure. -/
inductive SameFind (details others : List Json) :
    Except Failure (Option Json) → Except Failure (Option Json) → Prop
  | nothing : SameFind details others (.ok none) (.ok none)
  | found {place : Nat} {detail other : Json} (hdetail : details[place]? = some detail)
      (hother : others[place]? = some other) :
      SameFind details others (.ok (some detail)) (.ok (some other))
  | failed (failure : Failure) :
      SameFind details others (.error failure) (.error failure)

theorem SameFind.behind {details others : List Json}
    {first second : Except Failure (Option Json)}
    (h : SameFind details others first second) (detail other : Json) :
    SameFind (detail :: details) (other :: others) first second := by
  cases h with
  | nothing => exact .nothing
  | @found place _ _ hdetail hother =>
      exact .found (by rwa [List.getElem?_cons_succ]) (by rwa [List.getElem?_cons_succ])
  | failed failure => exact .failed failure

theorem firstConcerning_of_respelled {details others : List Json}
    (h : List.Forall₂ Respelled details others) :
    SameFind details others (firstConcerning segments details)
      (firstConcerning segments others) := by
  induction h with
  | nil => exact .nothing
  | @cons detail other details others hhead htail ih =>
      rcases concerns_or_passesOver_or_unread segments detail with hfound | hpast |
        ⟨failure, hunread⟩
      · rw [firstConcerning_of_concerns hfound,
          firstConcerning_of_concerns (hhead.concerns_iff.2 hfound)]
        exact .found List.getElem?_cons_zero List.getElem?_cons_zero
      · rw [firstConcerning_of_passesOver hpast,
          firstConcerning_of_passesOver (hhead.passesOver hpast)]
        exact ih.behind detail other
      · rw [firstConcerning_of_unread hunread,
          firstConcerning_of_unread (hhead.path.trans hunread)]
        exact .failed failure

/-! ## Reports -/

theorem details?_eq_some_iff {report : Json} {details : List Json} :
    details? report = some details ↔ aspect report "details" = .arr details := by
  unfold details?
  cases aspect report "details" <;> simp

theorem truthy_of_aspect {report : Json} {name : String}
    (h : aspect report name ≠ .null) : report.truthy = true := by
  cases report with
  | obj fields =>
      cases fields with
      | nil => exact absurd rfl h
      | cons field fields => rfl
  | _ => exact absurd rfl h

theorem detail_eq_firstConcerning {name : Spelling} {report : Json}
    {details : List Json} (hname : name.path = .ok segments)
    (hdetails : aspect report "details" = .arr details) :
    Report.detail name report = firstConcerning segments details := by
  rw [Report.detail, details?_eq_some_iff.2 hdetails, hname]
  rfl

theorem exists_mem_of_detail {name : Spelling} {report found : Json}
    (h : Report.detail name report = .ok (some found)) :
    ∃ details, aspect report "details" = .arr details ∧ found ∈ details := by
  unfold Report.detail at h
  cases hdetails : details? report with
  | none =>
      rw [hdetails] at h
      cases h
  | some details =>
      rw [hdetails] at h
      obtain ⟨path, _, hfound⟩ := bind_eq_ok_iff.1 h
      obtain ⟨before, after, rfl, _⟩ := firstConcerning_eq_some_iff.1 hfound
      exact ⟨_, details?_eq_some_iff.1 hdetails, by simp⟩

theorem messages_of_details {report : Json} {details : List Json}
    (h : aspect report "details" = .arr details) :
    messages report = details.map (aspect · "message") := by
  have htruthy : report.truthy = true := truthy_of_aspect (by rw [h]; nofun)
  rw [messages, if_pos htruthy, details?_eq_some_iff.2 h]

theorem eq_of_truthy_orElse {value : Json}
    (h : (orElse value (.str "")).truthy = true) : orElse value (.str "") = value := by
  unfold orElse at h ⊢
  split
  · rfl
  · next hfalse =>
      rw [if_neg hfalse] at h
      cases h

theorem message_mem_messages {name : Spelling} {report text : Json}
    (h : message name report = .ok text) (htext : text.truthy = true) :
    text ∈ messages report := by
  obtain ⟨found, hdetail, h⟩ := bind_eq_ok_iff.1 h
  cases found with
  | none =>
      cases h
      cases htext
  | some found =>
      obtain ⟨details, hdetails, hmem⟩ := exists_mem_of_detail hdetail
      dsimp only at h
      split at h
      · cases h
        rw [messages_of_details hdetails, eq_of_truthy_orElse htext]
        exact List.mem_map_of_mem hmem
      · cases h
        cases htext

/-- The detail of a field is the first in the list that is about its path, or about
that of its parent with the field as what is missing.  There is none if all can be
read and none of them is, and the search fails where one before can not be read.  How
the name and the paths of the data are spelled does not matter, and the message of a
field is one of the messages of the report. -/
theorem detail_first_concerning {name : Spelling} {report : Json}
    {details : List Json} (hname : name.path = .ok segments)
    (hdetails : aspect report "details" = .arr details) :
    (∀ found, Report.detail name report = .ok (some found) ↔
      ∃ before after, details = before ++ found :: after ∧
        (∀ other ∈ before, PassesOver segments other) ∧ Concerns segments found) ∧
    (Report.detail name report = .ok none ↔
      ∀ other ∈ details, PassesOver segments other) ∧
    (∀ failure, Report.detail name report = .error failure ↔
      ∃ before unread after, details = before ++ unread :: after ∧
        (∀ other ∈ before, PassesOver segments other) ∧
        pathOf unread = .error failure) ∧
    (∀ (again : Spelling) (copy : Json) (others : List Json),
      again.path = .ok segments → aspect copy "details" = .arr others →
      List.Forall₂ Respelled details others →
        SameFind details others (Report.detail name report)
          (Report.detail again copy)) ∧
    ∀ text, message name report = .ok text → text.truthy = true →
      text ∈ messages report := by
  rw [detail_eq_firstConcerning hname hdetails]
  refine ⟨fun found => firstConcerning_eq_some_iff, firstConcerning_eq_none_iff,
    fun failure => firstConcerning_eq_error_iff, ?_,
    fun text htext htruthy => message_mem_messages htext htruthy⟩
  intro again copy others hagain hcopy hothers
  rw [detail_eq_firstConcerning hagain hcopy]
  exact firstConcerning_of_respelled hothers

def refusals (path : Json) : List Json :=
  [.obj [("dataPath", .str "/address"),
     ("params", .obj [("missingProperty", .str "city")])],
   .obj [("message", .str "no street"), ("dataPath", path),
     ("params", .obj [("missingProperty", .str "street")])],
   .obj [("dataPath", .arr [.str "address", .str "street"])]]

def refusal (path : Json) : Json := .obj [("details", .arr (refusals path))]

theorem refusal_of_missing_street :
    (∃ found, (refusals (.str "/address"))[1]? = some found ∧
      Report.detail (.literal "/address/street") (refusal (.str "/address")) =
        .ok (some found)) ∧
    (∀ text, message (.literal "/address/street") (refusal (.str "/address")) = .ok text →
      text.truthy = true → text ∈ messages (refusal (.str "/address"))) ∧
    SameFind (refusals (.str "/address")) (refusals (.arr [.str "address"]))
      (Report.detail (.literal "/address/street") (refusal (.str "/address")))
      (Report.detail (.listed ["address", "street"])
        (refusal (.arr [.str "address"]))) := by
  have hname : (Spelling.literal "/address/street").path = .ok ["address", "street"] := rfl
  obtain ⟨hfound, _, _, hrespelled, hmessage⟩ :=
    @detail_first_concerning _ _ (refusal (.str "/address")) _ hname rfl
  refine ⟨⟨_, rfl, (hfound _).2 ⟨[_], [_], rfl, ?_, ?_⟩⟩, hmessage, ?_⟩
  · intro other hother
    rw [List.mem_singleton.1 hother]
    refine ⟨⟨["address"], rfl⟩, ?_⟩
    rintro (hpath | ⟨hsegments, _, hmissing⟩)
    · cases hpath
    · have hlast := congrArg List.getLast? hsegments
      rw [List.getLast?_concat] at hlast
      cases hlast
      have hsame : "city" = "street" := Json.str.inj hmissing
      exact absurd hsame (by decide)
  · exact @Concerns.missing _ _ ["address"] "street" rfl rfl rfl
  · refine hrespelled _ _ _ rfl rfl (.cons ⟨rfl, fun _ _ => rfl⟩ (.cons ⟨rfl, ?_⟩
      (.cons ⟨rfl, fun _ _ => rfl⟩ .nil)))
    intro name hne
    simp [aspect, Ne.symm hne]

end FormSchema.Report
