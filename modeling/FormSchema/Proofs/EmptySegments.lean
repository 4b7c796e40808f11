import FormSchema.Proofs.Grammar

/-!
# Empty segments

Separators that follow each other stand for no segment between them, in a pointer as
well as in a dotted text.  Two tokens stand for the empty segment all the same: quotes
around nothing, and brackets around nothing but blank characters, which are dropped
only after the token was read.  A literal without them has no empty segment.
-/

namespace FormSchema.Path

open FormSchema.Text

/-- The tokens that stand for the empty segment. -/
inductive Hollow : List Char → Prop
  | quotes : Hollow ['[', '\x27', '\x27', ']']
  | blanks {text : List Char} (hne : text ≠ []) (hblank : ∀ c ∈ text, isBlank c = true) :
      Hollow ('[' :: (text ++ [']']))

theorem Hollow.exists_cons {token : List Char} (h : Hollow token) :
    ∃ rest, token = '[' :: rest := by
  cases h with
  | quotes => exact ⟨_, rfl⟩
  | blanks => exact ⟨_, rfl⟩

theorem not_mem_of_isBlank {c : Char} (h : isBlank c = true) :
    c ∉ ['[', ']', '\x27'] := by
  intro hmem
  simp only [List.mem_cons, List.not_mem_nil, or_false] at hmem
  rcases hmem with rfl | rfl | rfl <;> revert h <;> decide

theorem written_empty_iff {token : List Char} :
    Written token (some "") ↔ Hollow token := by
  constructor
  · intro h
    generalize hsegment : some "" = segment at h
    cases h with
    | dot => cases hsegment
    | @name run hne hrun =>
        exact absurd (String.ofList_eq_empty_iff.1 (Option.some.inj hsegment).symm) hne
    | @quoted body meant hbody =>
        obtain rfl := String.ofList_eq_empty_iff.1 (Option.some.inj hsegment).symm
        cases hbody
        exact .quotes
    | @index before core after hne htext hblank htrimmed =>
        obtain rfl := String.ofList_eq_empty_iff.1 (Option.some.inj hsegment).symm
        rw [List.append_nil] at hne ⊢
        exact .blanks hne hblank
  · intro h
    cases h with
    | quotes => exact .quoted .nil
    | @blanks text hne hblank =>
        have hindex := @Written.index text [] [] (by simpa using hne)
          (by simpa using fun c hc => not_mem_of_isBlank (hblank c hc))
          (by simpa using hblank) rfl
        simpa using hindex

/-! ## Tokens within a dotted text -/

namespace Dotted

variable {text more : List Char} {segments others : List String}

theorem append (h : Dotted text segments) (hmore : Dotted more others) :
    Dotted (text ++ more) (segments ++ others) := by
  induction h with
  | nil => exact hmore
  | cons head _ ih =>
      rw [List.append_assoc, List.append_assoc]
      exact .cons head ih

theorem unique (h : Dotted text segments) (hother : Dotted text others) :
    segments = others := by
  have hread := dottedSegments_eq_ok_iff.2 h
  rw [dottedSegments_eq_ok_iff.2 hother] at hread
  exact (Except.ok.inj hread).symm

theorem mem_iff (h : Dotted text segments) {segment : String} :
    segment ∈ segments ↔ ∃ before token after, text = before ++ token ++ after ∧
      (∃ first, Dotted before first) ∧ Written token (some segment) ∧
      ∃ last, Dotted after last := by
  constructor
  · intro hmem
    induction h with
    | nil => cases hmem
    | @cons token rest own segments head tail ih =>
        rcases List.mem_append.1 hmem with hown | hrest
        · rw [Option.mem_toList] at hown
          cases hown
          exact ⟨[], token, rest, rfl, ⟨[], .nil⟩, head, _, tail⟩
        · obtain ⟨before, other, after, rfl, ⟨first, hbefore⟩, hother, hafter⟩ := ih hrest
          exact ⟨token ++ before, other, after, by simp only [List.append_assoc],
            ⟨_, .cons head hbefore⟩, hother, hafter⟩
  · rintro ⟨before, token, after, rfl, ⟨first, hbefore⟩, htoken, last, hafter⟩
    rw [List.append_assoc] at h
    rw [h.unique (hbefore.append (.cons htoken hafter))]
    simp

end Dotted

/-! ## Pointers -/

theorem unescape_ne_nil {text : List Char} (h : text ≠ []) : unescape text ≠ [] := by
  unfold unescape
  split
  · simp
  · simp
  · simp
  · exact absurd rfl h

theorem empty_not_mem_pointerSegments (text : List Char) :
    "" ∉ pointerSegments text := by
  intro hmem
  obtain ⟨piece, hpiece, hempty⟩ := List.mem_map.1 hmem
  have hne : piece ≠ [] := by
    rintro rfl
    simp at hpiece
  exact unescape_ne_nil hne (String.ofList_eq_empty_iff.1 hempty)

end FormSchema.Path

namespace FormSchema.Spelling

open FormSchema.Path

theorem path_eq_ok_iff_dotted {text : String} {segments : List String}
    (hslash : text.toList.head? ≠ some '/') :
    (literal text).path = .ok segments ↔ Dotted (dotted text.toList) segments := by
  change ofLiteral text.toList = _ ↔ _
  by_cases hnil : text.toList = []
  · -- The literal without characters stands for the root, as a dot by itself does.
    have hroot : Dotted (dotted text.toList) [] := by
      rw [hnil]
      exact .cons .dot .nil
    rw [hnil] at hroot ⊢
    constructor
    · rintro ⟨⟩
      exact hroot
    · intro hdotted
      rw [hdotted.unique hroot]
      rfl
  · rw [ofLiteral_of_head? hnil hslash, ← dottedSegments_eq_ok_iff]
    cases dottedSegments (dotted text.toList) with
    | ok found => simp
    | error position => simp

theorem empty_not_mem_path_of_slash {text : String} {segments : List String}
    (h : (literal text).path = .ok segments) (hslash : text.toList.head? = some '/') :
    "" ∉ segments := by
  change ofLiteral text.toList = _ at h
  obtain ⟨rest, htext⟩ := List.head?_eq_some_iff.1 hslash
  rw [htext] at h
  cases h
  exact empty_not_mem_pointerSegments rest

theorem infix_of_hollow_infix_dotted {token text : List Char} (htoken : Hollow token)
    (h : token <:+: dotted text) : token <:+: text := by
  obtain ⟨rest, rfl⟩ := htoken.exists_cons
  unfold dotted at h
  split at h
  · exact h
  · rcases List.infix_cons_iff.1 h with hprefix | hinfix
    · cases (List.cons_prefix_cons.1 hprefix).1
    · exact hinfix

/-- A literal stands for a path with an empty segment exactly if it is no pointer and
one of its tokens is hollow: quotes around nothing, or brackets around blanks. -/
theorem empty_mem_path_iff {text : String} {segments : List String}
    (h : (literal text).path = .ok segments) :
    ("" ∈ segments ↔ text.toList.head? ≠ some '/' ∧
      ∃ before token after, dotted text.toList = before ++ token ++ after ∧
        (∃ first, Dotted before first) ∧ Hollow token ∧ ∃ last, Dotted after last) ∧
    ((∀ token, Hollow token → ¬token <:+: text.toList) → "" ∉ segments) := by
  have hiff : "" ∈ segments ↔ text.toList.head? ≠ some '/' ∧
      ∃ before token after, dotted text.toList = before ++ token ++ after ∧
        (∃ first, Dotted before first) ∧ Hollow token ∧ ∃ last, Dotted after last := by
    by_cases hslash : text.toList.head? = some '/'
    · constructor
      · exact fun hmem => absurd hmem (empty_not_mem_path_of_slash h hslash)
      · exact fun hother => absurd hslash hother.1
    · rw [((path_eq_ok_iff_dotted hslash).1 h).mem_iff]
      simp only [written_empty_iff, ne_eq, hslash, not_false_iff, true_and]
  refine ⟨hiff, fun hnone hmem => ?_⟩
  obtain ⟨_, before, token, after, hdotted, _, htoken, _⟩ := hiff.1 hmem
  exact hnone token htoken
    (infix_of_hollow_infix_dotted htoken ⟨before, after, hdotted.symm⟩)

theorem path_of_blank_brackets :
    (literal "a. ['b'][\t ]").path = .ok ["a", " ", "b", ""] ∧
    ∃ before token after, dotted "a. ['b'][\t ]".toList = before ++ token ++ after ∧
      (∃ first, Dotted before first) ∧ Hollow token ∧ ∃ last, Dotted after last := by
  have hhollow : Hollow ['[', '\t', ' ', ']'] :=
    @Hollow.blanks ['\t', ' '] (by decide) (by simp; decide)
  have hdotted : Dotted (dotted "a. ['b'][\t ]".toList) ["a", " ", "b", ""] :=
    .cons (@Written.name ['a'] (by decide) (by simp))
      (.cons (@Written.name [' '] (by decide) (by simp))
        (.cons (.quoted (.plain (by decide) (by decide) .nil))
          (.cons (written_empty_iff.2 hhollow) .nil)))
  have hpath : (literal "a. ['b'][\t ]").path = .ok ["a", " ", "b", ""] :=
    (path_eq_ok_iff_dotted (by decide)).2 hdotted
  exact ⟨hpath, ((empty_mem_path_iff hpath).1.1 (by decide)).2⟩

theorem blank_brackets_not_dropped :
    ¬ ∀ (text : String) (segments : List String),
      (literal text).path = .ok segments →
      ¬['[', '\x27', '\x27', ']'] <:+: text.toList → "" ∉ segments := by
  intro h
  have hhollow : Hollow ['[', ' ', ']'] :=
    @Hollow.blanks [' '] (by decide) (by simp; decide)
  have hdotted : Dotted (dotted "[ ]".toList) [""] :=
    .cons .dot (.cons (written_empty_iff.2 hhollow) .nil)
  have hpath : (literal "[ ]").path = .ok [""] :=
    (path_eq_ok_iff_dotted (by decide)).2 hdotted
  exact h "[ ]" [""] hpath (by decide) (by decide)

end FormSchema.Spelling
