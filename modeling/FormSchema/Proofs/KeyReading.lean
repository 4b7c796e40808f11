import FormSchema.Path.Spelling

/-!
# Reading keys back

The key of a path is read as a dotted text.  Each segment is written as one
token, and the token that is read at its place is the one that was written:
escapes are undone, and a plain segment ends where the next token starts.  So a
key gives back the segments of its path, and no two paths share one.
-/

namespace FormSchema.Path

def tokenOf (segment : String) : Token :=
  if isPlain segment.toList then .name segment.toList
  else .quoted segment.toList

/-- Nothing more of a name can follow: the text ends, or a token starts. -/
def EndsName (text : List Char) : Prop :=
  text = [] ∨ ∃ c rest, text = c :: rest ∧ inName c = false

theorem quoted?_escapeQuoted (body rest : List Char) :
    quoted? (escapeQuoted body ++ '\x27' :: ']' :: rest) = some (body, rest) := by
  induction body with
  | nil => rfl
  | cons c body ih =>
      by_cases hbackslash : c = '\\'
      · subst hbackslash
        simp [escapeQuoted, quoted?, ih]
      · by_cases hquote : c = '\x27'
        · subst hquote
          simp [escapeQuoted, quoted?, ih]
        · simp [escapeQuoted, quoted?, hbackslash, hquote, ih]

theorem token?_bracketed (segment rest : List Char) :
    token? (bracketed segment ++ rest) = some (.quoted segment, rest) := by
  have hbody := quoted?_escapeQuoted segment rest
  simp [bracketed, token?, hbody]

theorem inName_of_inPlain {c : Char} (h : inPlain c = true) :
    inName c = true := by
  simp only [inPlain, Bool.and_eq_true] at h
  simp [inName, h.1.1.1.1, h.1.1.1.2, h.1.1.2]

theorem inName_of_isPlain {text : List Char} (h : isPlain text = true) :
    ∀ c ∈ text, inName c = true := by
  cases text with
  | nil => simp
  | cons first rest =>
      simp only [isPlain, Bool.and_eq_true, List.all_eq_true] at h
      intro c hc
      rcases List.mem_cons.1 hc with rfl | hc
      · exact inName_of_inPlain h.1.1
      · exact inName_of_inPlain (h.2 c hc)

theorem token?_name {run rest : List Char} (hrun : ∀ c ∈ run, inName c = true)
    (hrest : EndsName rest) :
    token? ('.' :: (run ++ rest)) = some (.name run, rest) := by
  have htake : rest.takeWhile inName = [] := by
    rcases hrest with rfl | ⟨c, after, rfl, hc⟩
    · rfl
    · simp [hc]
  have hdrop : rest.dropWhile inName = rest := by
    rcases hrest with rfl | ⟨c, after, rfl, hc⟩
    · rfl
    · simp [hc]
  simp only [token?]
  rw [List.takeWhile_append_of_pos hrun, List.dropWhile_append_of_pos hrun,
    htake, hdrop, List.append_nil]

theorem endsName_writeSegments (segments : List String) :
    EndsName (writeSegments segments) := by
  cases segments with
  | nil => exact .inl rfl
  | cons segment rest =>
      right
      simp only [writeSegments]
      split
      · exact ⟨'.', _, rfl, rfl⟩
      · exact ⟨'[', _, rfl, rfl⟩

theorem tokens_writeSegments (segments : List String) :
    tokens (writeSegments segments) = .ok (segments.map tokenOf) := by
  induction segments with
  | nil => exact tokens_nil
  | cons segment rest ih =>
      have hends := endsName_writeSegments rest
      have hread : token? (writeSegments (segment :: rest)) =
          some (tokenOf segment, writeSegments rest) := by
        simp only [writeSegments, tokenOf]
        split
        · next hplain => exact token?_name (inName_of_isPlain hplain) hends
        · exact token?_bracketed segment.toList (writeSegments rest)
      rw [tokens_of_token? hread, ih]
      rfl

theorem segment?_tokenOf (segment : String) :
    (tokenOf segment).segment? = some segment := by
  unfold tokenOf
  split
  · next hplain =>
      cases htext : segment.toList with
      | nil => rw [htext] at hplain; cases hplain
      | cons c rest =>
          simp only [Token.segment?]
          rw [← htext, String.ofList_toList]
  · simp only [Token.segment?, String.ofList_toList]

theorem filterMap_segment?_tokenOf (segments : List String) :
    (segments.map tokenOf).filterMap Token.segment? = segments := by
  induction segments with
  | nil => rfl
  | cons segment rest ih =>
      rw [List.map_cons, List.filterMap_cons, segment?_tokenOf, ih]

theorem dottedSegments_writeSegments (segments : List String) :
    dottedSegments (writeSegments segments) = .ok segments := by
  simp only [dottedSegments, tokens_writeSegments]
  rw [filterMap_segment?_tokenOf]

theorem dottedSegments_dot {text : List Char} (h : EndsName text) :
    dottedSegments ('.' :: text) =
      match tokens text with
      | .ok found => .ok (found.filterMap Token.segment?)
      | .error left => .error (text.length + 1 - left.length) := by
  have hdot : token? ('.' :: ([] ++ text)) = some (.name [], text) :=
    token?_name (by simp) h
  rw [List.nil_append] at hdot
  unfold dottedSegments
  rw [tokens_of_token? hdot]
  cases tokens text with
  | error left => rfl
  | ok found => rfl

theorem dottedSegments_dot_writeSegments (segments : List String) :
    dottedSegments ('.' :: writeSegments segments) = .ok segments := by
  rw [dottedSegments_dot (endsName_writeSegments segments),
    tokens_writeSegments]
  simp only [filterMap_segment?_tokenOf]

theorem exists_cons_of_isPlain {text : List Char} (h : isPlain text = true) :
    ∃ c run, text = c :: run ∧ c ≠ '.' ∧ c ≠ '/' := by
  cases text with
  | nil => cases h
  | cons c run =>
      simp only [isPlain, inPlain, Bool.and_eq_true, bne_iff_ne] at h
      exact ⟨c, run, rfl, h.1.1.1.1.1.1, h.1.2⟩

theorem toList_key_of_isPlain {segment : String}
    (h : isPlain segment.toList = true) (rest : List String) :
    (key (segment :: rest)).toList = segment.toList ++ writeSegments rest := by
  simp only [key, writeSegments, if_pos h]
  exact String.toList_ofList

theorem toList_key_of_not_isPlain {segment : String}
    (h : ¬isPlain segment.toList = true) (rest : List String) :
    (key (segment :: rest)).toList = writeSegments (segment :: rest) := by
  simp only [key, writeSegments, if_neg h, bracketed]
  exact String.toList_ofList

end FormSchema.Path

namespace FormSchema.Spelling

open FormSchema.Path

theorem ofLiteral_cons {c : Char} {text : List Char} {segments : List String}
    (hslash : c ≠ '/')
    (hread : dottedSegments (dotted (c :: text)) = .ok segments) :
    ofLiteral (c :: text) = .ok segments := by
  unfold ofLiteral
  split
  · next heq => cases heq
  · next heq => exact absurd (List.cons.inj heq).1 hslash
  · simp only [hread]

theorem dotted_cons {c : Char} (h : c ≠ '.') (text : List Char) :
    dotted (c :: text) = '.' :: c :: text := by
  unfold dotted
  split
  · next heq => exact absurd (List.cons.inj heq).1 h
  · rfl

theorem path_key (segments : List String) :
    (literal (key segments)).path = .ok segments := by
  change ofLiteral (key segments).toList = .ok segments
  cases segments with
  | nil => rfl
  | cons segment rest =>
      by_cases hplain : isPlain segment.toList = true
      · -- The dot in front of a plain segment is left out and put back.
        have hread := dottedSegments_writeSegments (segment :: rest)
        rw [writeSegments, if_pos hplain] at hread
        rw [toList_key_of_isPlain hplain]
        obtain ⟨c, run, htext, hdot, hslash⟩ := exists_cons_of_isPlain hplain
        rw [htext, List.cons_append] at hread ⊢
        apply ofLiteral_cons hslash
        rw [dotted_cons hdot]
        exact hread
      · have hread := dottedSegments_dot_writeSegments (segment :: rest)
        rw [toList_key_of_not_isPlain hplain]
        rw [writeSegments, if_neg hplain, bracketed] at hread ⊢
        apply ofLiteral_cons (by decide)
        rw [dotted_cons (by decide)]
        exact hread

end FormSchema.Spelling

namespace FormSchema.Path

theorem key_inj {first second : List String} :
    key first = key second ↔ first = second := by
  constructor
  · intro h
    have hread := Spelling.path_key first
    rw [h, Spelling.path_key second] at hread
    cases hread
    rfl
  · exact congrArg key

theorem key_eq_empty_iff {segments : List String} :
    key segments = "" ↔ segments = [] := by
  rw [show "" = key [] from rfl, key_inj]

/-- Every list of segments is read back from its key, whatever characters the
segments are made of, so different paths have different keys. -/
theorem key_loses_nothing :
    (∀ segments : List String,
      (Spelling.literal (key segments)).path = .ok segments) ∧
    Function.Injective key :=
  ⟨Spelling.path_key, fun _ _ h => key_inj.1 h⟩

end FormSchema.Path
