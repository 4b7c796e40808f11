import FormSchema.Proofs.Words

/-!
# Words found by a pattern

A pattern fits the start of a text in several ways, which are tried in a fixed order:
the first of two alternatives before the second, and a run of characters from the
longest to the shortest.  The words of a name are what one pattern finds in it: capitals
that no small letter follows, small letters that a capital may precede, or digits.
-/

namespace FormSchema.Text

inductive Pattern where
  /-- One or more characters of a kind. -/
  | many (kind : Char → Bool)
  /-- A character of a kind, or nothing. -/
  | optional (kind : Char → Bool)
  /-- Nothing, where no character of a kind comes next. -/
  | notBefore (kind : Char → Bool)
  | both (first second : Pattern)
  | either (first second : Pattern)

namespace Pattern

def runs (kind : Char → Bool) : List Char → List (List Char × List Char)
  | [] => []
  | c :: rest =>
      if kind c then
        (runs kind rest).map (fun way => (c :: way.1, way.2)) ++ [([c], rest)]
      else []

def single (kind : Char → Bool) : List Char → List (List Char × List Char)
  | [] => []
  | c :: rest => if kind c then [([c], rest)] else []

/-- The ways in which a pattern fits the start of a text, in the order in which they are
tried: what is taken and what is left. -/
def ways : Pattern → List Char → List (List Char × List Char)
  | many kind, text => runs kind text
  | optional kind, text => single kind text ++ [([], text)]
  | notBefore kind, text => if text.head?.any kind then [] else [([], text)]
  | both first second, text =>
      (first.ways text).flatMap fun way =>
        (second.ways way.2).map fun next => (way.1 ++ next.1, next.2)
  | either first second, text => first.ways text ++ second.ways text

variable {kind : Char → Bool} {c : Char} {text rest : List Char}
  {way : List Char × List Char}

theorem append_of_mem_runs (h : way ∈ runs kind text) : way.1 ++ way.2 = text := by
  induction text generalizing way with
  | nil => cases h
  | cons c rest ih =>
      unfold runs at h
      split at h
      · rcases List.mem_append.1 h with h | h
        · obtain ⟨shorter, hshorter, rfl⟩ := List.mem_map.1 h
          simp [ih hshorter]
        · obtain rfl := List.mem_singleton.1 h
          rfl
      · cases h

theorem append_of_mem_ways {pattern : Pattern} (h : way ∈ pattern.ways text) :
    way.1 ++ way.2 = text := by
  induction pattern generalizing text way with
  | many kind => exact append_of_mem_runs h
  | optional kind =>
      rcases List.mem_append.1 h with h | h
      · unfold single at h
        split at h
        · cases h
        · split at h
          · obtain rfl := List.mem_singleton.1 h
            rfl
          · cases h
      · obtain rfl := List.mem_singleton.1 h
        rfl
  | notBefore kind =>
      unfold ways at h
      split at h
      · cases h
      · obtain rfl := List.mem_singleton.1 h
        rfl
  | both first second ihfirst ihsecond =>
      obtain ⟨start, hstart, h⟩ := List.mem_flatMap.1 h
      obtain ⟨next, hnext, rfl⟩ := List.mem_map.1 h
      rw [List.append_assoc, ihsecond hnext, ihfirst hstart]
  | either first second ihfirst ihsecond =>
      rcases List.mem_append.1 h with h | h
      · exact ihfirst h
      · exact ihsecond h

theorem length_lt_of_ways {pattern : Pattern} {taken left : List Char}
    (h : (pattern.ways text).head? = some (c :: taken, left)) :
    left.length < text.length := by
  have hlength := congrArg List.length (append_of_mem_ways (List.mem_of_head? h))
  simp only [List.length_append, List.length_cons] at hlength
  omega

/-- What a pattern finds in a text from left to right.  The first way in which it fits
counts; where it fits in none or takes nothing, one character is passed over. -/
def findAll (pattern : Pattern) : List Char → List (List Char)
  | [] => []
  | c :: rest =>
      match h : (pattern.ways (c :: rest)).head? with
      | some (d :: taken, left) =>
          have := length_lt_of_ways h
          (d :: taken) :: findAll pattern left
      | _ => findAll pattern rest
termination_by text => text.length
decreasing_by
  · assumption
  · exact Nat.lt_succ_self _

def capitals : Pattern := both (many isUpper) (notBefore isLower)

def capitalized : Pattern := both (optional isUpper) (many isLower)

def word : Pattern := either capitals (either capitalized (many isDigit))

/-! ## Runs -/

theorem runs_cons (h : kind c = true) :
    runs kind (c :: rest) =
      (runs kind rest).map (fun way => (c :: way.1, way.2)) ++ [([c], rest)] :=
  if_pos h

theorem head?_runs_eq_none_iff :
    (runs kind text).head? = none ↔ text.head?.any kind = false := by
  cases text with
  | nil => simp [runs]
  | cons c rest => cases hc : kind c <;> simp [runs, hc]

theorem exists_cons_of_runs (h : (runs kind text).head? = some way) :
    ∃ c rest, text = c :: rest ∧ kind c = true := by
  cases text with
  | nil => cases h
  | cons c rest =>
      cases hc : kind c with
      | false => simp [runs, hc] at h
      | true => exact ⟨c, rest, rfl, hc⟩

theorem head?_runs_cons (h : kind c = true) :
    (runs kind (c :: rest)).head? =
      some (match (runs kind rest).head? with
        | some way => (c :: way.1, way.2)
        | none => ([c], rest)) := by
  rw [runs_cons h, List.head?_append, List.head?_map]
  cases (runs kind rest).head? <;> rfl

theorem head?_runs_of_all (hne : text ≠ []) (h : ∀ c ∈ text, kind c = true) :
    (runs kind text).head? = some (text, []) := by
  induction text with
  | nil => exact absurd rfl hne
  | cons c rest ih =>
      rw [List.forall_mem_cons] at h
      rw [head?_runs_cons h.1]
      cases rest with
      | nil => rfl
      | cons d after => simp [ih (by simp) h.2]

/-- Characters of a kind make one word if no word ends between them but each ends
before a character of another kind. -/
theorem words_of_run (hkind : ∀ c, kind c = true → inWord c = true)
    (hwithin : ∀ c d next, kind c = true → kind d = true →
      cutsBetween c d next = false)
    (hbehind : ∀ c d next, kind c = true → kind d = false → inWord d = true →
      cutsBetween c d next = true)
    (h : (runs kind text).head? = some way) : words text = way.1 :: words way.2 := by
  induction text generalizing way with
  | nil => cases h
  | cons c rest ih =>
      obtain ⟨_, _, heq, hc⟩ := exists_cons_of_runs h
      cases heq
      rw [head?_runs_cons hc] at h
      cases hrest : (runs kind rest).head? with
      | none =>
          rw [hrest] at h
          cases h
          refine words_cons_of_ends (hkind c hc) ?_
          rintro d after rfl hd
          exact hbehind c d _ hc (by simpa using head?_runs_eq_none_iff.1 hrest) hd
      | some shorter =>
          have hwords := ih hrest
          rw [hrest] at h
          cases h
          obtain ⟨d, after, rfl, hd⟩ := exists_cons_of_runs hrest
          exact words_cons_of_joins (hkind c hc) (hkind d hd) (hwithin c d _ hc hd) hwords

theorem words_of_small_letters (h : (runs isLower text).head? = some way) :
    words text = way.1 :: words way.2 := by
  refine words_of_run (fun _ => inWord_of_isLower) ?_ ?_ h
  · intro c d next hc hd
    simp [cutsBetween_of_isLower hc, not_isDigit_of_isLower hd, not_isUpper_of_isLower hd]
  · intro c d next hc hd hword
    rcases inWord_cases hword with hupper | hlower | hdigit
    · simp [cutsBetween_of_isLower hc, hupper]
    · simp [hlower] at hd
    · simp [cutsBetween_of_isLower hc, hdigit]

theorem words_of_digits (h : (runs isDigit text).head? = some way) :
    words text = way.1 :: words way.2 := by
  refine words_of_run (fun _ => inWord_of_isDigit) ?_ ?_ h
  · intro c d next hc hd
    simp [cutsBetween_of_isDigit hc, hd]
  · intro c d next hc hd _
    simp [cutsBetween_of_isDigit hc, hd]

/-! ## The alternatives -/

theorem ways_capitals_cons (h : isUpper c = true) :
    capitals.ways (c :: rest) =
      (capitals.ways rest).map (fun way => (c :: way.1, way.2)) ++
        if rest.head?.any isLower then [] else [([c], rest)] := by
  have hlast : ((notBefore isLower).ways rest).map (fun next => ([c] ++ next.1, next.2)) =
      if rest.head?.any isLower then [] else [([c], rest)] := by
    simp only [ways]
    split <;> rfl
  simp only [capitals, ways] at hlast ⊢
  rw [runs_cons h, List.flatMap_append, List.flatMap_singleton, hlast]
  simp only [List.flatMap_map, List.map_flatMap, List.map_map, List.cons_append]
  rfl

theorem ways_capitals_of_not_isUpper (h : isUpper c = false) :
    capitals.ways (c :: rest) = [] := by
  simp [capitals, ways, runs, h]

theorem head?_ways_capitals_eq_none_iff :
    (capitals.ways (c :: rest)).head? = none ↔
      (isUpper c = true → rest.head?.any isLower = true) := by
  cases hc : isUpper c with
  | false => simp [ways_capitals_of_not_isUpper hc]
  | true =>
      rw [ways_capitals_cons hc]
      cases hlower : rest.head?.any isLower with
      | false => simp
      | true =>
          -- A small letter begins no run of capitals.
          have hnone : capitals.ways rest = [] := by
            cases rest with
            | nil => cases hlower
            | cons d after =>
                exact ways_capitals_of_not_isUpper (not_isUpper_of_isLower hlower)
          simp [hnone]

theorem exists_cons_of_capitals (h : (capitals.ways text).head? = some way) :
    ∃ c rest, text = c :: rest ∧ isUpper c = true ∧ rest.head?.any isLower = false := by
  cases text with
  | nil => cases h
  | cons c rest =>
      have hsome : ¬(capitals.ways (c :: rest)).head? = none := by simp [h]
      rw [head?_ways_capitals_eq_none_iff] at hsome
      exact ⟨c, rest, rfl, by simpa using hsome⟩

theorem words_of_capitals (h : (capitals.ways text).head? = some way) :
    words text = way.1 :: words way.2 := by
  induction text generalizing way with
  | nil => cases h
  | cons c rest ih =>
      obtain ⟨_, _, heq, hc, hlower⟩ := exists_cons_of_capitals h
      cases heq
      rw [ways_capitals_cons hc, hlower] at h
      cases hrest : (capitals.ways rest).head? with
      | some shorter =>
          have hwords := ih hrest
          obtain rfl : (c :: shorter.1, shorter.2) = way := by simpa [hrest] using h
          obtain ⟨d, after, rfl, hd, hnext⟩ := exists_cons_of_capitals hrest
          refine words_cons_of_joins (inWord_of_isUpper hc) (inWord_of_isUpper hd) ?_ hwords
          simp [cutsBetween_of_isUpper hc, not_isDigit_of_isUpper hd, hnext]
      | none =>
          obtain rfl : ([c], rest) = way := by simpa [hrest] using h
          refine words_cons_of_ends (inWord_of_isUpper hc) ?_
          rintro d after rfl hd
          rw [cutsBetween_of_isUpper hc]
          rcases inWord_cases hd with hupper | hd | hdigit
          · simp [hupper, head?_ways_capitals_eq_none_iff.1 hrest hupper]
          · simp [hd] at hlower
          · simp [hdigit]

theorem ways_capitalized_of_isUpper (h : isUpper c = true) :
    capitalized.ways (c :: rest) =
      (runs isLower rest).map fun way => (c :: way.1, way.2) := by
  simp [capitalized, ways, single, runs, h, not_isLower_of_isUpper h]

theorem ways_capitalized_of_not_isUpper (h : isUpper c = false) :
    capitalized.ways (c :: rest) = runs isLower (c :: rest) := by
  simp [capitalized, ways, single, h]

theorem words_of_capitalized (h : (capitalized.ways text).head? = some way) :
    words text = way.1 :: words way.2 := by
  cases text with
  | nil => cases h
  | cons c rest =>
      cases hc : isUpper c with
      | false => exact words_of_small_letters (ways_capitalized_of_not_isUpper hc ▸ h)
      | true =>
          rw [ways_capitalized_of_isUpper hc, List.head?_map] at h
          obtain ⟨small, hsmall, rfl⟩ := Option.map_eq_some_iff.1 h
          obtain ⟨d, after, rfl, hd⟩ := exists_cons_of_runs hsmall
          refine words_cons_of_joins (inWord_of_isUpper hc) (inWord_of_isLower hd) ?_
            (words_of_small_letters hsmall)
          simp [cutsBetween_of_isUpper hc, not_isDigit_of_isLower hd,
            not_isUpper_of_isLower hd]

/-! ## Words -/

theorem words_of_way (h : (word.ways text).head? = some way) :
    words text = way.1 :: words way.2 := by
  simp only [word, ways, List.head?_append, Option.or_eq_some_iff] at h
  rcases h with h | ⟨_, h | ⟨_, h⟩⟩
  · exact words_of_capitals h
  · exact words_of_capitalized h
  · exact words_of_digits h

theorem not_inWord_of_no_way (h : (word.ways (c :: rest)).head? = none) :
    inWord c = false := by
  simp only [word, ways, List.head?_append, Option.or_eq_none_iff] at h
  obtain ⟨hcapitals, hcapitalized, hdigits⟩ := h
  rw [Bool.eq_false_iff]
  intro hc
  rcases inWord_cases hc with hupper | hlower | hdigit
  · rw [ways_capitalized_of_isUpper hupper, List.head?_map, Option.map_eq_none_iff,
      head?_runs_eq_none_iff] at hcapitalized
    simp [head?_ways_capitals_eq_none_iff.1 hcapitals hupper] at hcapitalized
  · rw [ways_capitalized_of_not_isUpper (not_isUpper_of_isLower hlower),
      head?_runs_eq_none_iff] at hcapitalized
    simp [hlower] at hcapitalized
  · rw [head?_runs_eq_none_iff] at hdigits
    simp [hdigit] at hdigits

theorem words_eq_findAll (text : List Char) : words text = word.findAll text := by
  fun_induction findAll word text with
  | case1 => rfl
  | case2 c rest d taken left h _ ih => rw [words_of_way h, ih]
  | case3 c rest hnone ih =>
      cases h : (word.ways (c :: rest)).head? with
      | none => rw [words_cons_of_not_inWord (not_inWord_of_no_way h), ih]
      | some way =>
          have hwords := words_of_way h
          have hne : way.1 ≠ [] :=
            (uniform_of_mem_words (by simp [hwords] : way.1 ∈ words (c :: rest))).1
          obtain ⟨d, taken, htaken⟩ := List.exists_cons_of_ne_nil hne
          exact absurd (h.trans (by rw [← htaken])) (hnone d taken way.2)

end Pattern

end FormSchema.Text
