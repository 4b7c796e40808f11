import FormSchema.Proofs.Numerals
import FormSchema.Text.Label

/-!
# Words of a name

Whether a word ends between two characters shows in these two and the one behind them,
so a name can be cut at such a place and its parts be read by themselves.  The words are
those that a pattern finds from left to right: capitals that no small letter follows,
small letters that a capital may precede, or digits.  Alternatives are tried in this
order, and a run is first taken as long as it is and then shorter and shorter, until
what comes next fits.
-/

namespace FormSchema.Text

/-! ## Kinds of characters -/

variable {c d : Char} {next : Option Char} {text rest after : List Char}

theorem isUpper_iff : isUpper c = true ↔ 65 ≤ c.toNat ∧ c.toNat ≤ 90 := by
  simp [isUpper, Char.le_def, UInt32.le_iff_toNat_le]

theorem isLower_iff : isLower c = true ↔ 97 ≤ c.toNat ∧ c.toNat ≤ 122 := by
  simp [isLower, Char.le_def, UInt32.le_iff_toNat_le]

theorem not_isLower_of_isUpper (h : isUpper c = true) : isLower c = false := by
  rw [isUpper_iff] at h
  rw [Bool.eq_false_iff, ne_eq, isLower_iff]
  omega

theorem not_isUpper_of_isLower (h : isLower c = true) : isUpper c = false := by
  rw [isLower_iff] at h
  rw [Bool.eq_false_iff, ne_eq, isUpper_iff]
  omega

theorem not_letter_of_isDigit (h : isDigit c = true) :
    isUpper c = false ∧ isLower c = false := by
  rw [isDigit_iff] at h
  rw [Bool.eq_false_iff, Bool.eq_false_iff, ne_eq, ne_eq, isUpper_iff, isLower_iff]
  omega

theorem not_isDigit_of_isUpper (h : isUpper c = true) : isDigit c = false := by
  rw [Bool.eq_false_iff]
  intro hdigit
  simp [not_letter_of_isDigit hdigit] at h

theorem not_isDigit_of_isLower (h : isLower c = true) : isDigit c = false := by
  rw [Bool.eq_false_iff]
  intro hdigit
  simp [not_letter_of_isDigit hdigit] at h

theorem cutsBetween_of_isUpper (h : isUpper c = true) :
    cutsBetween c d next = (isDigit d || isUpper d && next.any isLower) := by
  simp [cutsBetween, h, not_isLower_of_isUpper h, not_isDigit_of_isUpper h]

theorem cutsBetween_of_isLower (h : isLower c = true) :
    cutsBetween c d next = (isDigit d || isUpper d) := by
  simp [cutsBetween, h, not_isUpper_of_isLower h, not_isDigit_of_isLower h]

theorem cutsBetween_of_isDigit (h : isDigit c = true) :
    cutsBetween c d next = !isDigit d := by
  simp [cutsBetween, h, not_letter_of_isDigit h]

theorem inWord_of_isUpper (h : isUpper c = true) : inWord c = true := by
  simp [inWord, h]

theorem inWord_of_isLower (h : isLower c = true) : inWord c = true := by
  simp [inWord, h]

theorem inWord_of_isDigit (h : isDigit c = true) : inWord c = true := by
  simp [inWord, h]

theorem inWord_cases (h : inWord c = true) :
    isUpper c = true ∨ isLower c = true ∨ isDigit c = true := by
  simpa [inWord, or_assoc] using h

/-! ## The first character of a text -/

/-- No word goes on from a character into what stands behind it. -/
def Ends (c : Char) (rest : List Char) : Prop :=
  ∀ d after, rest = d :: after → inWord d = true → cutsBetween c d after.head? = true

theorem words_cons_of_not_inWord (h : inWord c = false) :
    words (c :: rest) = words rest := by
  simp [words, h]

theorem words_cons_of_inWord (h : inWord c = true) :
    words (c :: rest) =
      match words rest, rest with
      | word :: more, d :: after =>
          if inWord d && !cutsBetween c d after.head? then (c :: word) :: more
          else [c] :: word :: more
      | found, _ => [c] :: found := by
  rw [words.eq_def]
  exact if_pos h

theorem words_cons_of_ends (hc : inWord c = true) (h : Ends c rest) :
    words (c :: rest) = [c] :: words rest := by
  rw [words_cons_of_inWord hc]
  split
  · next word more d after hfound =>
      rw [hfound]
      apply if_neg
      rw [Bool.and_eq_true, Bool.not_eq_true']
      rintro ⟨hd, hjoins⟩
      rw [h d after rfl hd] at hjoins
      cases hjoins
  · rfl

theorem words_cons_of_joins {word : List Char} {more : List (List Char)}
    (hc : inWord c = true) (hd : inWord d = true)
    (hjoins : cutsBetween c d after.head? = false)
    (hwords : words (d :: after) = word :: more) :
    words (c :: d :: after) = (c :: word) :: more := by
  rw [words_cons_of_inWord hc, hwords]
  simp [hd, hjoins]

theorem exists_words_cons (hc : inWord c = true) (rest : List Char) :
    ∃ word more, words (c :: rest) = (c :: word) :: more := by
  rw [words_cons_of_inWord hc]
  split
  · split
    · exact ⟨_, _, rfl⟩
    · exact ⟨_, _, rfl⟩
  · exact ⟨_, _, rfl⟩

theorem ends_cons_iff :
    Ends c (d :: after) ↔ (inWord d = true → cutsBetween c d after.head? = true) := by
  constructor
  · exact fun h => h d after rfl
  · rintro h _ _ ⟨⟩
    exact h

theorem words_cons_cases (hc : inWord c = true) (rest : List Char) :
    words (c :: rest) = [c] :: words rest ∨
      ∃ d after word more, rest = d :: after ∧ cutsBetween c d after.head? = false ∧
        words rest = (d :: word) :: more ∧
        words (c :: rest) = (c :: d :: word) :: more := by
  by_cases hends : Ends c rest
  · exact .inl (words_cons_of_ends hc hends)
  · cases rest with
    | nil => exact absurd nofun hends
    | cons d after =>
        obtain ⟨hd, hjoins⟩ : inWord d = true ∧ cutsBetween c d after.head? = false := by
          simpa [ends_cons_iff] using hends
        obtain ⟨word, more, hwords⟩ := exists_words_cons hd after
        exact .inr ⟨d, after, word, more, rfl, hjoins, hwords,
          words_cons_of_joins hc hd hjoins hwords⟩

theorem flatten_words (text : List Char) : (words text).flatten = text.filter inWord := by
  induction text with
  | nil => rfl
  | cons c rest ih =>
      cases hc : inWord c with
      | false => simp [words_cons_of_not_inWord hc, ih, hc]
      | true =>
          rcases words_cons_cases hc rest with h | ⟨d, after, word, more, -, -, hrest, h⟩
          · simp [h, ih, hc]
          · simp [h, ← ih, hrest, hc]

theorem uniform_of_mem_words {word : List Char} (h : word ∈ words text) :
    word ≠ [] ∧ ∃ digits, ∀ c ∈ word, isDigit c = digits := by
  induction text generalizing word with
  | nil => cases h
  | cons c rest ih =>
      cases hc : inWord c with
      | false => exact ih (words_cons_of_not_inWord hc ▸ h)
      | true =>
          rcases words_cons_cases hc rest with
            heq | ⟨d, after, tail, more, -, hjoins, hrest, heq⟩
          · rw [heq] at h
            rcases List.mem_cons.1 h with rfl | h
            · exact ⟨by simp, isDigit c, by simp⟩
            · exact ih h
          · rw [heq] at h
            rcases List.mem_cons.1 h with rfl | h
            · have hmem : d :: tail ∈ words rest := by simp [hrest]
              obtain ⟨-, digits, htail⟩ := ih hmem
              have hkind : isDigit c = isDigit d := by
                simp only [cutsBetween, Bool.or_eq_false_iff, bne_eq_false_iff_eq] at hjoins
                exact hjoins.1.1
              refine ⟨by simp, digits, List.forall_mem_cons.2 ⟨?_, htail⟩⟩
              exact hkind.trans (htail d (by simp))
            · exact ih (by simp [hrest, h])

/-! ## Two parts of a text -/

/-- What is put behind a text counts for the end of a word within it only if it comes
next and is a small letter, and then the last word of the text does not end there. -/
theorem cutsBetween_append {second : List Char} (h : rest = [] → Ends d second) :
    cutsBetween c d (rest ++ second).head? = cutsBetween c d rest.head? := by
  cases rest with
  | cons e rest => rfl
  | nil =>
      cases second with
      | nil => rfl
      | cons e after =>
          cases he : isLower e with
          | false => simp [cutsBetween, he]
          | true =>
              have hcut := ends_cons_iff.1 (h rfl) (inWord_of_isLower he)
              have hupper : isUpper d = false := by
                rw [Bool.eq_false_iff]
                intro hupper
                simp [cutsBetween_of_isUpper hupper, not_isDigit_of_isLower he,
                  not_isUpper_of_isLower he] at hcut
              simp [cutsBetween, hupper]

/-- Where no word goes on from one text into the other, each is read by itself. -/
theorem words_append {first second : List Char}
    (h : ∀ c, first.getLast? = some c → inWord c = true → Ends c second) :
    words (first ++ second) = words first ++ words second := by
  induction first with
  | nil => rfl
  | cons c rest ih =>
      have hrest : words (rest ++ second) = words rest ++ words second := by
        refine ih fun d hlast => h d ?_
        rw [List.getLast?_cons, hlast]
        rfl
      cases hc : inWord c with
      | false =>
          rw [List.cons_append, words_cons_of_not_inWord hc, words_cons_of_not_inWord hc,
            hrest]
      | true =>
          cases rest with
          | nil =>
              have hone : words [c] = [[c]] := words_cons_of_ends hc nofun
              rw [hone]
              exact words_cons_of_ends hc (h c rfl hc)
          | cons d rest =>
              have hcut (hd : inWord d = true) :
                  cutsBetween c d (rest ++ second).head? = cutsBetween c d rest.head? :=
                cutsBetween_append fun hnil => h d (by simp [hnil]) hd
              by_cases hends : Ends c (d :: rest)
              · have hlong : Ends c (d :: rest ++ second) := by
                  rw [List.cons_append, ends_cons_iff]
                  exact fun hd => (hcut hd).trans (ends_cons_iff.1 hends hd)
                rw [List.cons_append, words_cons_of_ends hc hends,
                  words_cons_of_ends hc hlong, hrest]
                rfl
              · obtain ⟨hd, hjoins⟩ : inWord d = true ∧
                    cutsBetween c d rest.head? = false := by
                  simpa [ends_cons_iff] using hends
                obtain ⟨word, more, hwords⟩ := exists_words_cons hd rest
                rw [hwords, List.cons_append] at hrest
                rw [List.cons_append, List.cons_append,
                  words_cons_of_joins hc hd hjoins hwords,
                  words_cons_of_joins hc hd ((hcut hd).trans hjoins) hrest]
                rfl

theorem exists_word_of_joins (before : List Char) (hc : inWord c = true)
    (hd : inWord d = true) (hjoins : cutsBetween c d after.head? = false) :
    ∃ earlier start tail later,
      words (before ++ c :: d :: after) =
        earlier ++ (start ++ c :: d :: tail) :: later ∧
      earlier.flatten ++ start = before.filter inWord := by
  induction before with
  | nil =>
      obtain ⟨word, more, hwords⟩ := exists_words_cons hd after
      exact ⟨[], [], word, more, words_cons_of_joins hc hd hjoins hwords, rfl⟩
  | cons b before ih =>
      obtain ⟨earlier, start, tail, later, hwords, hbefore⟩ := ih
      cases hb : inWord b with
      | false =>
          refine ⟨earlier, start, tail, later, ?_, ?_⟩
          · rw [List.cons_append, words_cons_of_not_inWord hb, hwords]
          · simp [hbefore, hb]
      | true =>
          rcases words_cons_cases hb (before ++ c :: d :: after) with
            h | ⟨e, _, word, more, -, -, hrest, h⟩
          · refine ⟨[b] :: earlier, start, tail, later, ?_, ?_⟩
            · rw [List.cons_append, h, hwords]
              rfl
            · simp [hbefore, hb]
          · generalize e :: word = word at hrest h
            rw [hwords] at hrest
            cases earlier with
            | nil =>
                cases hrest
                exact ⟨[], b :: start, tail, later, h, by simpa [hb] using hbefore⟩
            | cons first earlier =>
                cases hrest
                exact ⟨(b :: word) :: earlier, start, tail, later, h, by
                  simpa [hb] using hbefore⟩

end FormSchema.Text
