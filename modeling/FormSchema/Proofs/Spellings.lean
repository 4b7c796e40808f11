import FormSchema.Proofs.KeyReading

/-!
# Spellings of one path

A path of segments that are not empty can be written as a pointer, and as a
dotted text in which every segment is worded by itself: as a name, in quotes or
as a bracketed text.  Every token ends where the next one starts, whatever the
two wordings are, and so all of these literals are read as that path.
-/

namespace FormSchema.Path

open FormSchema.Text

/-! ## Pointers -/

def pointer (segments : List String) : List Char :=
  segments.flatMap fun segment => '/' :: escape segment.toList

theorem not_mem_escape (text : List Char) : '/' ∉ escape text := by
  induction text with
  | nil => simp [escape]
  | cons c rest ih =>
      unfold escape
      split
      · simp [ih]
      · split
        · simp [ih]
        · next hslash => simp [ih, Ne.symm hslash]

theorem escape_ne_nil {text : List Char} (h : text ≠ []) : escape text ≠ [] := by
  cases text with
  | nil => exact absurd rfl h
  | cons c rest =>
      unfold escape
      split
      · simp
      · split <;> simp

theorem splitAt_of_not_mem {separator : Char} {piece : List Char}
    (h : separator ∉ piece) : splitAt separator piece = [piece] := by
  induction piece with
  | nil => rfl
  | cons c piece ih =>
      rw [List.mem_cons, not_or] at h
      rw [splitAt, if_neg (Ne.symm h.1), ih h.2]

theorem splitAt_append {separator : Char} {piece : List Char}
    (h : separator ∉ piece) (rest : List Char) :
    splitAt separator (piece ++ separator :: rest) =
      piece :: splitAt separator rest := by
  induction piece with
  | nil => simp [splitAt]
  | cons c piece ih =>
      rw [List.mem_cons, not_or] at h
      rw [List.cons_append, splitAt, if_neg (Ne.symm h.1), ih h.2]

theorem splitAt_flatMap {separator : Char} {piece : List Char}
    {pieces : List (List Char)} (hpiece : separator ∉ piece)
    (hpieces : ∀ other ∈ pieces, separator ∉ other) :
    splitAt separator (piece ++ pieces.flatMap (separator :: ·)) =
      piece :: pieces := by
  induction pieces generalizing piece with
  | nil => simpa using splitAt_of_not_mem hpiece
  | cons other pieces ih =>
      rw [List.flatMap_cons, List.cons_append, splitAt_append hpiece,
        ih (hpieces other (by simp)) fun last hlast => hpieces last (by simp [hlast])]

theorem splitAt_pointer (segment : String) (segments : List String) :
    splitAt '/' (escape segment.toList ++ pointer segments) =
      (segment :: segments).map fun other => escape other.toList := by
  have hpieces : pointer segments =
      (segments.map fun other => escape other.toList).flatMap ('/' :: ·) := by
    rw [pointer, List.flatMap_map]
  rw [hpieces, List.map_cons]
  apply splitAt_flatMap (not_mem_escape segment.toList)
  intro piece hpiece
  obtain ⟨other, _, rfl⟩ := List.mem_map.1 hpiece
  exact not_mem_escape other.toList

theorem toList_ne_nil {segment : String} (h : segment ≠ "") : segment.toList ≠ [] :=
  fun hnil => h (String.toList_eq_nil_iff.1 hnil)

theorem pointerSegments_pointer {segment : String} {segments : List String}
    (h : ∀ other ∈ segment :: segments, other ≠ "") :
    pointerSegments (escape segment.toList ++ pointer segments) =
      segment :: segments := by
  have hkept : ∀ piece ∈ (segment :: segments).map (fun other => escape other.toList),
      (!piece.isEmpty) = true := by
    intro piece hpiece
    obtain ⟨other, hother, rfl⟩ := List.mem_map.1 hpiece
    simpa using escape_ne_nil (toList_ne_nil (h other hother))
  rw [pointerSegments, splitAt_pointer, List.filter_eq_self.2 hkept, List.map_map]
  apply List.map_id''
  intro other
  simp [unescape_escape]

/-! ## Dotted texts -/

inductive Wording where
  | name
  | quoted
  | index
  deriving DecidableEq, Repr

def isTrimmed (text : List Char) : Bool :=
  !text.head?.any isBlank && !text.getLast?.any isBlank

namespace Wording

def allows : Wording → List Char → Bool
  | name, text => text.all inName
  | quoted, _ => true
  | index, text => text.all inIndex && isTrimmed text

def write : Wording → List Char → List Char
  | name, text => '.' :: text
  | quoted, text => bracketed text
  | index, text => '[' :: (text ++ [']'])

def token : Wording → List Char → Token
  | name, text => .name text
  | quoted, text => .quoted text
  | index, text => .index text

end Wording

theorem dropWhile_of_head? {α : Type} {test : α → Bool} {values : List α}
    (h : values.head?.any test = false) : values.dropWhile test = values := by
  cases values with
  | nil => rfl
  | cons value values =>
      have htest : test value = false := h
      rw [List.dropWhile_cons, htest]
      rfl

theorem strip_of_isTrimmed {text : List Char} (h : isTrimmed text = true) :
    strip text = text := by
  simp only [isTrimmed, Bool.and_eq_true, Bool.not_eq_true'] at h
  have hlast : text.reverse.head?.any isBlank = false := by
    rw [List.head?_reverse]
    exact h.2
  rw [strip, dropWhile_of_head? h.1, dropWhile_of_head? hlast, List.reverse_reverse]

theorem token?_index {text : List Char} (hne : text ≠ [])
    (hall : text.all inIndex = true) (rest : List Char) :
    token? ('[' :: (text ++ ']' :: rest)) = some (.index text, rest) := by
  have hmem : ∀ c ∈ text, inIndex c = true := List.all_eq_true.1 hall
  have hstop : inIndex ']' = false := rfl
  cases text with
  | nil => exact absurd rfl hne
  | cons c text =>
      have hquote : c ≠ '\x27' := by
        rintro rfl
        cases hmem '\x27' (by simp)
      have htake : (c :: text ++ ']' :: rest).takeWhile inIndex = c :: text := by
        rw [List.takeWhile_append_of_pos hmem]
        simp [hstop]
      have hdrop : (c :: text ++ ']' :: rest).dropWhile inIndex = ']' :: rest := by
        rw [List.dropWhile_append_of_pos hmem]
        simp [hstop]
      unfold token?
      split
      · next heq => cases heq
      · next heq => exact absurd (List.cons.inj (List.cons.inj heq).2).1 hquote
      · next after _ heq =>
          cases heq
          rw [htake, hdrop]
          rfl
      · next hother => exact absurd rfl (hother _)

namespace Wording

variable {wording : Wording} {text : List Char}

theorem token?_write (hne : text ≠ []) (hallows : wording.allows text = true)
    {rest : List Char} (hrest : EndsName rest) :
    token? (wording.write text ++ rest) = some (wording.token text, rest) := by
  cases wording with
  | name => exact token?_name (List.all_eq_true.1 hallows) hrest
  | quoted => exact token?_bracketed text rest
  | index =>
      rw [allows, Bool.and_eq_true] at hallows
      rw [write, List.cons_append, List.append_assoc]
      exact token?_index hne hallows.1 rest

theorem segment?_token (hne : text ≠ []) (hallows : wording.allows text = true) :
    (wording.token text).segment? = some (String.ofList text) := by
  cases wording with
  | name =>
      cases text with
      | nil => exact absurd rfl hne
      | cons c text => rfl
  | quoted => rfl
  | index =>
      rw [allows, Bool.and_eq_true] at hallows
      simp only [token, Token.segment?, strip_of_isTrimmed hallows.2]

end Wording

inductive Words : List Char → List String → Prop
  | nil : Words [] []
  | cons {segment : String} {rest : List Char} {segments : List String}
      (wording : Wording) (allowed : wording.allows segment.toList = true)
      (tail : Words rest segments) :
      Words (wording.write segment.toList ++ rest) (segment :: segments)

/-- The literals of a path.  A name that comes first may go without its dot. -/
inductive Spells : List Char → List String → Prop
  | pointer (segments : List String) : Spells (pointer segments) segments
  | dotted {text : List Char} {segments : List String}
      (words : Words text segments) : Spells text segments
  | bare {segment : String} {rest : List Char} {segments : List String}
      (allowed : Wording.name.allows segment.toList = true)
      (start : segment.toList.head? ≠ some '/') (tail : Words rest segments) :
      Spells (segment.toList ++ rest) (segment :: segments)

namespace Words

variable {text : List Char} {segments : List String}

theorem endsName (h : Words text segments) : EndsName text := by
  cases h with
  | nil => exact .inl rfl
  | cons wording allowed tail =>
      right
      cases wording with
      | name => exact ⟨'.', _, rfl, rfl⟩
      | quoted => exact ⟨'[', _, rfl, rfl⟩
      | index => exact ⟨'[', _, rfl, rfl⟩

theorem exists_tokens (h : Words text segments)
    (hne : ∀ segment ∈ segments, segment ≠ "") :
    ∃ found, tokens text = .ok found ∧
      found.filterMap Token.segment? = segments := by
  induction h with
  | nil => exact ⟨[], tokens_nil, rfl⟩
  | @cons segment rest segments wording allowed tail ih =>
      obtain ⟨found, htokens, hsegments⟩ :=
        ih fun other hother => hne other (by simp [hother])
      have htext := toList_ne_nil (hne segment (by simp))
      refine ⟨wording.token segment.toList :: found, ?_, ?_⟩
      · rw [tokens_of_token? (wording.token?_write htext allowed tail.endsName),
          htokens]
        rfl
      · rw [List.filterMap_cons, wording.segment?_token htext allowed,
          String.ofList_toList, hsegments]

theorem dottedSegments_eq (h : Words text segments)
    (hne : ∀ segment ∈ segments, segment ≠ "") :
    dottedSegments text = .ok segments := by
  obtain ⟨found, htokens, hsegments⟩ := h.exists_tokens hne
  simp only [dottedSegments, htokens, hsegments]

theorem dottedSegments_dot_eq (h : Words text segments)
    (hne : ∀ segment ∈ segments, segment ≠ "") :
    dottedSegments ('.' :: text) = .ok segments := by
  obtain ⟨found, htokens, hsegments⟩ := h.exists_tokens hne
  rw [dottedSegments_dot h.endsName, htokens]
  simp only [hsegments]

end Words

end FormSchema.Path

namespace FormSchema.Spelling

open FormSchema.Path

variable {text : List Char} {segments : List String}

theorem ofLiteral_bracket {rest : List Char} (h : Words ('[' :: rest) segments)
    (hne : ∀ segment ∈ segments, segment ≠ "") :
    ofLiteral ('[' :: rest) = .ok segments := by
  apply ofLiteral_cons (by decide)
  rw [dotted_cons (by decide)]
  exact h.dottedSegments_dot_eq hne

theorem ofLiteral_words (h : Words text segments)
    (hne : ∀ segment ∈ segments, segment ≠ "") :
    ofLiteral text = .ok segments := by
  have hall := h
  cases h with
  | nil => rfl
  | cons wording allowed tail =>
      cases wording with
      | name => exact ofLiteral_cons (by decide) (hall.dottedSegments_eq hne)
      | quoted => exact ofLiteral_bracket hall hne
      | index => exact ofLiteral_bracket hall hne

theorem ofLiteral_pointer (hne : ∀ segment ∈ segments, segment ≠ "") :
    ofLiteral (pointer segments) = .ok segments := by
  cases segments with
  | nil => rfl
  | cons segment segments =>
      change Except.ok (pointerSegments (escape segment.toList ++ pointer segments)) = _
      rw [pointerSegments_pointer hne]

theorem ofLiteral_spells (h : Spells text segments)
    (hne : ∀ segment ∈ segments, segment ≠ "") :
    ofLiteral text = .ok segments := by
  cases h with
  | pointer => exact ofLiteral_pointer hne
  | dotted words => exact ofLiteral_words words hne
  | @bare segment rest segments allowed start tail =>
      have hread := (Words.cons .name allowed tail).dottedSegments_eq hne
      cases htext : segment.toList with
      | nil => exact absurd htext (toList_ne_nil (hne segment (by simp)))
      | cons c run =>
          rw [htext] at start hread allowed
          have hname := List.all_eq_true.1 allowed c (by simp)
          have hdot : c ≠ '.' := by
            rintro rfl
            cases hname
          apply ofLiteral_cons fun hslash => start (by rw [hslash]; rfl)
          rw [dotted_cons hdot]
          exact hread

/-- All literals of a path whose segments are not empty are read as that path,
and so they have one key. -/
theorem path_of_spells {text : String} {segments : List String}
    (hne : ∀ segment ∈ segments, segment ≠ "")
    (h : Spells text.toList segments) :
    (literal text).path = .ok segments ∧
      joinedKey [literal text] = .ok (key segments) := by
  have hpath : (literal text).path = .ok segments := ofLiteral_spells h hne
  refine ⟨hpath, ?_⟩
  rw [joinedKey, joined, hpath, ok_bind, joined, ok_bind, ok_bind, List.append_nil]

theorem path_of_mixed_spellings :
    ((literal "it's['x/y'][0].~\\").path = .ok ["it's", "x/y", "0", "~\\"] ∧
      joinedKey [literal "it's['x/y'][0].~\\"] =
        .ok (key ["it's", "x/y", "0", "~\\"])) ∧
    ((literal "/it's/x~1y/0/~0\\").path = .ok ["it's", "x/y", "0", "~\\"] ∧
      joinedKey [literal "/it's/x~1y/0/~0\\"] =
        .ok (key ["it's", "x/y", "0", "~\\"])) :=
  ⟨path_of_spells (by decide) (@Spells.bare "it's" _ _ rfl (by decide)
      (@Words.cons "x/y" _ _ .quoted rfl (@Words.cons "0" _ _ .index rfl
        (@Words.cons "~\\" _ _ .name rfl .nil)))),
    path_of_spells (by decide) (.pointer ["it's", "x/y", "0", "~\\"])⟩

end FormSchema.Spelling
