import FormSchema.Proofs.WordPattern
import Mathlib.Data.List.Induction
import Mathlib.Tactic.ByContra

/-!
# What a label keeps of a name

A label is the words of a name with single spaces between them, in small letters but for
the first one.  It keeps every letter and digit in its order, and a space stands where a
word of the name ends.  Case does not count in this comparison, so it is made between the
name and its joined words.  The words of a label are again those of the name, and hence it
is its own label.
-/

namespace FormSchema.Text

variable {c d : Char} {text word first second before after gap : List Char}
  {found : List (List Char)}

/-! ## Capitals and small letters -/

-- Facts about case that are not in the core library: the letters are few enough to be
-- gone through, and each other character is its own capital and its own small letter.

theorem letter_pairs : ∀ n < 26,
    (Char.ofNat (65 + n)).toLower = Char.ofNat (97 + n) ∧
    (Char.ofNat (97 + n)).toUpper = Char.ofNat (65 + n) ∧
    (Char.ofNat (97 + n)).isUpper = false ∧ (Char.ofNat (65 + n)).isLower = false ∧
    (Char.ofNat (97 + n)).isLower = true ∧ (Char.ofNat (65 + n)).isUpper = true := by
  decide

theorem exists_eq_ofNat {first : Nat} (hfirst : first ≤ c.toNat)
    (hlast : c.toNat ≤ first + 25) : ∃ n < 26, c = Char.ofNat (first + n) := by
  refine ⟨c.toNat - first, by omega, ?_⟩
  rw [Nat.add_sub_cancel' hfirst, Char.ofNat_toNat]

theorem exists_capital (h : c.isUpper = true) : ∃ n < 26, c = Char.ofNat (65 + n) := by
  obtain ⟨hfirst, hlast⟩ := of_decide_eq_true h
  rw [ge_iff_le, UInt32.le_iff_toNat_le] at hfirst
  rw [UInt32.le_iff_toNat_le] at hlast
  exact exists_eq_ofNat hfirst hlast

theorem exists_small (h : c.isLower = true) : ∃ n < 26, c = Char.ofNat (97 + n) := by
  obtain ⟨hfirst, hlast⟩ := Bool.and_eq_true_iff.1 h
  exact exists_eq_ofNat (UInt32.le_iff_toNat_le.1 (of_decide_eq_true hfirst))
    (UInt32.le_iff_toNat_le.1 (of_decide_eq_true hlast))

theorem toLower_of_not_isUpper (h : c.isUpper = false) : c.toLower = c :=
  dif_neg (of_decide_eq_false h)

theorem toUpper_of_not_isLower (h : c.isLower = false) : c.toUpper = c := by
  refine dif_neg fun hbounds => ?_
  have hsmall : c.isLower = true :=
    Bool.and_eq_true_iff.2 ⟨decide_eq_true hbounds.1, decide_eq_true hbounds.2⟩
  rw [h] at hsmall
  cases hsmall

theorem isAlpha_eq (c : Char) : c.isAlpha = (c.isUpper || c.isLower) := rfl

@[simp] theorem isUpper_toLower (c : Char) : c.toLower.isUpper = false := by
  cases h : c.isUpper with
  | false => rw [toLower_of_not_isUpper h, h]
  | true =>
      obtain ⟨n, hn, rfl⟩ := exists_capital h
      obtain ⟨hlower, -, hsmall, -⟩ := letter_pairs n hn
      rw [hlower, hsmall]

@[simp] theorem isLower_toLower (c : Char) : c.toLower.isLower = c.isAlpha := by
  cases h : c.isUpper with
  | false => rw [toLower_of_not_isUpper h, isAlpha_eq, h, Bool.false_or]
  | true =>
      obtain ⟨n, hn, rfl⟩ := exists_capital h
      obtain ⟨hlower, -, -, -, hsmall, -⟩ := letter_pairs n hn
      rw [hlower, hsmall, isAlpha_eq, h, Bool.true_or]

@[simp] theorem isUpper_toUpper (c : Char) : c.toUpper.isUpper = c.isAlpha := by
  cases h : c.isLower with
  | false => rw [toUpper_of_not_isLower h, isAlpha_eq, h, Bool.or_false]
  | true =>
      obtain ⟨n, hn, rfl⟩ := exists_small h
      obtain ⟨-, hupper, -, -, -, hcapital⟩ := letter_pairs n hn
      rw [hupper, hcapital, isAlpha_eq, h, Bool.or_true]

@[simp] theorem toLower_toLower (c : Char) : c.toLower.toLower = c.toLower :=
  toLower_of_not_isUpper (isUpper_toLower c)

@[simp] theorem toUpper_toLower (c : Char) : c.toLower.toUpper = c.toUpper := by
  cases h : c.isUpper with
  | false => rw [toLower_of_not_isUpper h]
  | true =>
      obtain ⟨n, hn, rfl⟩ := exists_capital h
      obtain ⟨hlower, hupper, -, hcapital, -⟩ := letter_pairs n hn
      rw [hlower, hupper, toUpper_of_not_isLower hcapital]

@[simp] theorem toLower_toUpper (c : Char) : c.toUpper.toLower = c.toLower := by
  cases h : c.isLower with
  | false => rw [toUpper_of_not_isLower h]
  | true =>
      obtain ⟨n, hn, rfl⟩ := exists_small h
      obtain ⟨hlower, hupper, hsmall, -⟩ := letter_pairs n hn
      rw [hupper, hlower, toLower_of_not_isUpper hsmall]

@[simp] theorem isAlpha_toLower (c : Char) : c.toLower.isAlpha = c.isAlpha := by
  rw [isAlpha_eq, isUpper_toLower, isLower_toLower, Bool.false_or]

/-! ## Letters and digits -/

theorem isUpper_eq (c : Char) : isUpper c = c.isUpper := (Bool.decide_and _ _).symm

theorem isLower_eq (c : Char) : isLower c = c.isLower := rfl

theorem isDigit_eq (c : Char) : isDigit c = c.isDigit := by
  simp [isDigit, Char.isDigit, Char.le_def]

theorem inWord_eq (c : Char) : inWord c = c.isAlphanum := by
  simp [inWord, isUpper_eq, isLower_eq, isDigit_eq, Char.isAlphanum, isAlpha_eq]

theorem isDigit_toLower (c : Char) : c.toLower.isDigit = c.isDigit := by
  cases h : c.isUpper with
  | false => rw [toLower_of_not_isUpper h]
  | true =>
      have hlower : isLower c.toLower = true := by simp [isLower_eq, isAlpha_eq, h]
      rw [← isDigit_eq, ← isDigit_eq, not_isDigit_of_isLower hlower,
        not_isDigit_of_isUpper (by rwa [isUpper_eq])]

theorem isAlphanum_toLower (c : Char) : c.toLower.isAlphanum = c.isAlphanum := by
  simp [Char.isAlphanum, isDigit_toLower]

theorem toUpper_of_isDigit (h : isDigit c = true) : c.toUpper = c := by
  have hlower := (not_letter_of_isDigit h).2
  rw [isLower_eq] at hlower
  exact toUpper_of_not_isLower hlower

theorem toLower_eq_space_iff : c.toLower = ' ' ↔ c = ' ' := by
  cases h : c.isUpper with
  | false => rw [toLower_of_not_isUpper h]
  | true =>
      have hlower : c.toLower.isLower = true := by simp [isAlpha_eq, h]
      constructor
      · intro hspace
        simp [hspace] at hlower
      · rintro rfl
        cases h

def letters (text : List Char) : List Char :=
  (text.filter Char.isAlphanum).map Char.toLower

theorem letters_append (first second : List Char) :
    letters (first ++ second) = letters first ++ letters second := by
  simp [letters]

theorem letters_eq_nil (h : ∀ c ∈ text, c.isAlphanum = false) : letters text = [] := by
  simpa [letters] using h

theorem ne_nil_of_letters (hc : c.isAlphanum = true) (h : c ∈ text) : letters text ≠ [] := by
  simp only [letters, ne_eq, List.map_eq_nil_iff, List.filter_eq_nil_iff, not_forall]
  exact ⟨c, h, by simp [hc]⟩

theorem letters_map_toLower (text : List Char) :
    letters (text.map Char.toLower) = letters text := by
  simp [letters, List.filter_map, Function.comp_def, isAlphanum_toLower]

theorem map_toLower_capitalize (text : List Char) :
    (capitalize text).map Char.toLower = text.map Char.toLower := by
  cases text with
  | nil => rfl
  | cons c rest => simp [capitalize]

/-! ## Joined words -/

theorem joinWords_cons (word : List Char) (h : found ≠ []) :
    joinWords (word :: found) = word ++ ' ' :: joinWords found := by
  cases found with
  | nil => exact absurd rfl h
  | cons next rest => rfl

theorem joinWords_append {more : List (List Char)} (hfound : found ≠ [])
    (hmore : more ≠ []) :
    joinWords (found ++ more) = joinWords found ++ ' ' :: joinWords more := by
  fun_induction joinWords found with
  | case1 => exact absurd rfl hfound
  | case2 word => exact joinWords_cons word hmore
  | case3 word rest hne ih =>
      rw [List.cons_append, joinWords_cons word (by simp [hmore]), ih hne]
      simp

theorem joinWords_cons_cons (c : Char) (word : List Char) (found : List (List Char)) :
    joinWords ((c :: word) :: found) = c :: joinWords (word :: found) := by
  cases found <;> rfl

theorem joinWords_cut (earlier : List (List Char)) (start word : List Char)
    (later : List (List Char)) :
    joinWords (earlier ++ (start ++ word) :: later) =
      joinWords (earlier ++ [start]) ++ joinWords (word :: later) := by
  induction earlier with
  | nil =>
      cases later with
      | nil => rfl
      | cons next later => simp [joinWords]
  | cons first earlier ih =>
      rw [List.cons_append, List.cons_append, joinWords_cons first (by simp),
        joinWords_cons first (by simp), ih, List.append_assoc]
      rfl

theorem capitalize_joinWords (h : word ≠ []) :
    capitalize (joinWords (word :: found)) = joinWords (capitalize word :: found) := by
  obtain ⟨c, rest, rfl⟩ := List.exists_cons_of_ne_nil h
  simp [joinWords_cons_cons, capitalize]

theorem map_joinWords (found : List (List Char)) :
    (joinWords found).map Char.toLower = joinWords (found.map (List.map Char.toLower)) := by
  fun_induction joinWords found with
  | case1 => rfl
  | case2 word => rfl
  | case3 word rest hne ih =>
      rw [List.map_cons, joinWords_cons _ (by simpa using hne), ← ih]
      simp

theorem filter_joinWords (keeps : Char → Bool) (hspace : keeps ' ' = false)
    (found : List (List Char)) :
    (joinWords found).filter keeps = found.flatten.filter keeps := by
  fun_induction joinWords found with
  | case1 => rfl
  | case2 word => simp
  | case3 word rest hne ih => simp [hspace, ih]

theorem letters_joinWords (found : List (List Char)) :
    letters (joinWords found) = letters found.flatten := by
  rw [letters, letters, filter_joinWords _ rfl]

theorem letters_joinWords_words (text : List Char) :
    letters (joinWords (words text)) = letters text := by
  rw [letters_joinWords, flatten_words]
  simp [letters, funext inWord_eq]

theorem joinWords_ne_nil (hfound : found ≠ []) (h : ∀ word ∈ found, word ≠ []) :
    joinWords found ≠ [] := by
  fun_induction joinWords found with
  | case1 => exact absurd rfl hfound
  | case2 word => exact h word (by simp)
  | case3 word rest hne ih => simp

/-! ## Spaces -/

/-- Spaces stand by themselves and inside only. -/
structure Spaced (text : List Char) : Prop where
  head : text.head? ≠ some ' '
  last : text.getLast? ≠ some ' '
  single : ¬[' ', ' '] <:+: text

theorem spaced_of_not_mem (h : ' ' ∉ text) : Spaced text where
  head hhead := h (List.mem_of_head? hhead)
  last hlast := h (List.mem_of_getLast? hlast)
  single hsingle := h (hsingle.subset (by simp))

theorem Spaced.of_map_toLower (h : Spaced (text.map Char.toLower)) : Spaced text where
  head hhead := h.head (by simp [List.head?_map, hhead])
  last hlast := h.last (by simp [List.getLast?_map, hlast])
  single hsingle := h.single (hsingle.map Char.toLower)

theorem Spaced.append_word (h : Spaced text) (htext : text ≠ []) (hword : word ≠ [])
    (hspace : ' ' ∉ word) : Spaced (word ++ ' ' :: text) where
  head := by
    obtain ⟨c, rest, rfl⟩ := List.exists_cons_of_ne_nil hword
    rw [List.mem_cons, not_or] at hspace
    simpa using Ne.symm hspace.1
  last := by
    obtain ⟨c, rest, rfl⟩ := List.exists_cons_of_ne_nil htext
    simpa [List.getLast?_append, List.getLast?_cons] using h.last
  single := by
    clear hword
    induction word with
    | nil =>
        rw [List.nil_append, List.infix_cons_iff, List.cons_prefix_cons]
        rintro (⟨-, hprefix⟩ | hinfix)
        · obtain ⟨rest, rfl⟩ := hprefix
          exact h.head rfl
        · exact h.single hinfix
    | cons c rest ih =>
        simp only [List.mem_cons, not_or] at hspace
        rw [List.cons_append, List.infix_cons_iff, List.cons_prefix_cons]
        rintro (⟨hc, -⟩ | hinfix)
        · exact hspace.1 hc
        · exact ih hspace.2 hinfix

theorem spaced_joinWords (h : ∀ word ∈ found, word ≠ [] ∧ ' ' ∉ word) :
    Spaced (joinWords found) := by
  fun_induction joinWords found with
  | case1 => exact spaced_of_not_mem (by simp)
  | case2 word => exact spaced_of_not_mem (h word (by simp)).2
  | case3 word rest hne ih =>
      rw [List.forall_mem_cons] at h
      have htext := joinWords_ne_nil hne fun word hword => (h.2 word hword).1
      exact (ih h.2).append_word htext h.1.1 h.1.2

/-! ## Where a space stands -/

/-- A space stands between the letters of the one text and those of the other. -/
def Parted (text first second : List Char) : Prop :=
  ∃ left right, text = left ++ ' ' :: right ∧
    letters left = letters first ∧ letters right = letters second

theorem parted_map_toLower :
    Parted (text.map Char.toLower) first second ↔ Parted text first second := by
  constructor
  · rintro ⟨left, right, htext, hleft, hright⟩
    obtain ⟨start, rest, rfl, rfl, hrest⟩ := List.map_eq_append_iff.1 htext
    obtain ⟨space, rest, rfl, hspace, rfl⟩ := List.map_eq_cons_iff.1 hrest
    rw [letters_map_toLower] at hleft hright
    rw [toLower_eq_space_iff] at hspace
    exact ⟨start, rest, by rw [hspace], hleft, hright⟩
  · rintro ⟨left, right, rfl, hleft, hright⟩
    refine ⟨left.map Char.toLower, right.map Char.toLower, by simp, ?_, ?_⟩
    · rwa [letters_map_toLower]
    · rwa [letters_map_toLower]

theorem words_ne_nil (hc : inWord c = true) (h : c ∈ text) : words text ≠ [] := by
  intro hnil
  have hmem : c ∈ (words text).flatten := by
    rw [flatten_words, List.mem_filter]
    exact ⟨h, hc⟩
  simp [hnil] at hmem

theorem parted_of_ends (before : List Char) (hc : inWord c = true)
    (hd : inWord d = true) (h : d ∈ second) (hends : Ends c second) :
    Parted (joinWords (words (before ++ [c] ++ second))) (before ++ [c]) second := by
  have hwords : words (before ++ [c] ++ second) = words (before ++ [c]) ++ words second := by
    refine words_append fun last hlast _ => ?_
    obtain rfl : c = last := by simpa using hlast
    exact hends
  rw [hwords, joinWords_append (words_ne_nil hc (by simp)) (words_ne_nil hd h)]
  exact ⟨_, _, rfl, letters_joinWords_words _, letters_joinWords_words _⟩

theorem not_parted_of_adjacent {earlier later : List Char} (hc : c.isAlphanum = true)
    (hd : d.isAlphanum = true) (hbefore : letters earlier = letters before) :
    ¬Parted (earlier ++ c :: d :: later) (before ++ [c]) second := by
  rintro ⟨left, right, htext, hleft, -⟩
  have hsplit : earlier ++ [c] ++ d :: later = left ++ ' ' :: right := by simpa using htext
  rw [letters_append, ← hbefore, ← letters_append] at hleft
  rcases List.append_eq_append_iff.1 hsplit with ⟨more, rfl, hmore⟩ | ⟨more, hmore, hright⟩
  -- What is left of the space and behind `c` has no letter, but would begin with `d`.
  · rw [letters_append (earlier ++ [c]), List.append_right_eq_self] at hleft
    cases more with
    | nil =>
        cases hmore
        cases hd
    | cons e more =>
        cases hmore
        exact ne_nil_of_letters hd (by simp) hleft
  -- What the left side lacks up to `c` has no letter either, but would end with `c`.
  · rw [hmore, letters_append, List.self_eq_append_right] at hleft
    cases more using List.reverseRecOn with
    | nil =>
        cases hright
        cases hd
    | append_singleton more e =>
        obtain rfl : c = e := by simpa using congrArg List.getLast? hmore
        exact ne_nil_of_letters hc (by simp) hleft

theorem not_parted_of_joins (hc : inWord c = true) (hd : inWord d = true)
    (hjoins : cutsBetween c d after.head? = false) :
    ¬Parted (joinWords (words (before ++ c :: d :: after))) (before ++ [c]) second := by
  obtain ⟨earlier, start, tail, later, hwords, hbefore⟩ :=
    exists_word_of_joins before hc hd hjoins
  rw [hwords, joinWords_cut, joinWords_cons_cons, joinWords_cons_cons]
  refine not_parted_of_adjacent (inWord_eq c ▸ hc) (inWord_eq d ▸ hd) ?_
  rw [letters_joinWords]
  simp [letters, hbefore, funext inWord_eq]

/-! ## The words of a label -/

theorem words_joinWords (h : ∀ word ∈ found, words word = [word]) :
    words (joinWords found) = found := by
  fun_induction joinWords found with
  | case1 => rfl
  | case2 word => exact h word (by simp)
  | case3 word rest hne ih =>
      rw [List.forall_mem_cons] at h
      have hends (c : Char) : Ends c (' ' :: joinWords rest) :=
        ends_cons_iff.2 (nomatch ·)
      rw [words_append fun c _ _ => hends c, words_cons_of_not_inWord rfl, h.1, ih h.2]
      rfl

theorem words_of_all_isDigit (hne : word ≠ []) (h : ∀ c ∈ word, isDigit c = true) :
    words word = [word] :=
  Pattern.words_of_digits (Pattern.head?_runs_of_all hne h)

theorem words_of_all_isLower (hne : word ≠ []) (h : ∀ c ∈ word, isLower c = true) :
    words word = [word] :=
  Pattern.words_of_small_letters (Pattern.head?_runs_of_all hne h)

theorem words_capitalize_of_all_isLower (hne : word ≠ [])
    (h : ∀ c ∈ word, isLower c = true) : words (capitalize word) = [capitalize word] := by
  obtain ⟨c, rest, rfl⟩ := List.exists_cons_of_ne_nil hne
  rw [List.forall_mem_cons] at h
  have hupper : isUpper c.toUpper = true := by
    have hc := h.1
    rw [isLower_eq] at hc
    simp [isUpper_eq, isAlpha_eq, hc]
  cases rest with
  | nil =>
      refine words_cons_of_ends (inWord_of_isUpper hupper) ?_
      intro d after hcons
      cases hcons
  | cons d after =>
      have hway : (Pattern.capitalized.ways (c.toUpper :: d :: after)).head? =
          some (c.toUpper :: d :: after, []) := by
        rw [Pattern.ways_capitalized_of_isUpper hupper, List.head?_map,
          Pattern.head?_runs_of_all (by simp) h.2]
        rfl
      exact Pattern.words_of_capitalized hway

theorem inWord_of_mem_words (h : word ∈ words text) (hc : c ∈ word) : inWord c = true := by
  have hmem : c ∈ (words text).flatten := List.mem_flatten.2 ⟨word, h, hc⟩
  rw [flatten_words] at hmem
  exact (List.mem_filter.1 hmem).2

theorem words_map_toLower_of_mem (h : word ∈ words text) :
    words (word.map Char.toLower) = [word.map Char.toLower] ∧
      words (capitalize (word.map Char.toLower)) = [capitalize (word.map Char.toLower)] := by
  obtain ⟨hword, digits, hdigits⟩ := uniform_of_mem_words h
  have hne : word.map Char.toLower ≠ [] := by simpa using hword
  cases digits with
  | false =>
      have hsmall : ∀ c ∈ word.map Char.toLower, isLower c = true := by
        rw [List.forall_mem_map]
        intro c hc
        have hkind := inWord_of_mem_words h hc
        have hdigit := hdigits c hc
        simp only [inWord_eq, isDigit_eq, Char.isAlphanum] at hkind hdigit
        simpa [isLower_eq, hdigit] using hkind
      exact ⟨words_of_all_isLower hne hsmall, words_capitalize_of_all_isLower hne hsmall⟩
  | true =>
      have hdigit : ∀ c ∈ word.map Char.toLower, isDigit c = true := by
        rw [List.forall_mem_map]
        intro c hc
        simpa [isDigit_eq, isDigit_toLower] using hdigits c hc
      have hsame : capitalize (word.map Char.toLower) = word.map Char.toLower := by
        cases hsmall : word.map Char.toLower with
        | nil => rfl
        | cons c rest =>
            rw [capitalize, toUpper_of_isDigit (hdigit c (by simp [hsmall]))]
      rw [hsame]
      exact ⟨words_of_all_isDigit hne hdigit, words_of_all_isDigit hne hdigit⟩

theorem toList_label (name : String) :
    (label name).toList =
      capitalize (joinWords ((words name.toList).map (List.map Char.toLower))) := by
  simp [label, map_joinWords]

theorem words_label (name : String) :
    (words (label name).toList).map (List.map Char.toLower) =
      (words name.toList).map (List.map Char.toLower) := by
  have hwhole : ∀ word ∈ words name.toList, _ := fun _ => words_map_toLower_of_mem
  have huniform : ∀ word ∈ words name.toList, _ := fun _ => uniform_of_mem_words
  rw [toList_label]
  cases hfound : words name.toList with
  | nil => rfl
  | cons word rest =>
      rw [hfound, List.forall_mem_cons] at hwhole huniform
      rw [List.map_cons, capitalize_joinWords (by simpa using huniform.1.1), words_joinWords]
      · simp [map_toLower_capitalize]
      · rw [List.forall_mem_cons, List.forall_mem_map]
        exact ⟨hwhole.1.2, fun word hword => (hwhole.2 word hword).1⟩

theorem map_toLower_label (name : String) :
    (label name).toList.map Char.toLower =
      (joinWords (words name.toList)).map Char.toLower := by
  simp [label, map_toLower_capitalize]

/-! ## Labels -/

theorem map_filter_ne_space (text : List Char) :
    (text.filter (· ≠ ' ')).map Char.toLower =
      (text.map Char.toLower).filter (· ≠ ' ') := by
  simp [List.filter_map, Function.comp_def, toLower_eq_space_iff]

theorem filter_label (name : String) :
    ((label name).toList.filter (· ≠ ' ')).map Char.toLower = letters name.toList := by
  have hspace : (name.toList.filter inWord).filter (· ≠ ' ') = name.toList.filter inWord := by
    refine List.filter_eq_self.2 fun c hc => ?_
    rw [decide_eq_true_iff]
    rintro rfl
    cases (List.mem_filter.1 hc).2
  rw [map_filter_ne_space, map_toLower_label, ← map_filter_ne_space,
    filter_joinWords _ (by simp), flatten_words, hspace]
  simp [letters, funext inWord_eq]

theorem spaced_label (name : String) : Spaced (label name).toList := by
  apply Spaced.of_map_toLower
  rw [map_toLower_label, map_joinWords]
  apply spaced_joinWords
  rw [List.forall_mem_map]
  intro word hword
  refine ⟨by simpa using (uniform_of_mem_words hword).1, ?_⟩
  rw [List.mem_map]
  rintro ⟨c, hc, hspace⟩
  rw [toLower_eq_space_iff] at hspace
  have hkind := inWord_of_mem_words hword hc
  rw [hspace] at hkind
  cases hkind

theorem parted_words_iff (hc : inWord c = true) (hd : inWord d = true)
    (hgap : ∀ e ∈ gap, inWord e = false) :
    Parted (joinWords (words (before ++ c :: gap ++ d :: after))) (before ++ [c])
        (d :: after) ↔
      gap ≠ [] ∨ cutsBetween c d after.head? = true := by
  constructor
  · intro h
    by_contra hnot
    rw [not_or, not_not, Bool.not_eq_true] at hnot
    obtain ⟨rfl, hjoins⟩ := hnot
    exact not_parted_of_joins hc hd hjoins (by simpa using h)
  · intro h
    have hends : Ends c (gap ++ d :: after) := by
      cases gap with
      | nil => exact ends_cons_iff.2 fun _ => by simpa using h
      | cons e gap => exact ends_cons_iff.2 fun he => by simp [hgap] at he
    have hletters : letters (gap ++ d :: after) = letters (d :: after) := by
      rw [letters_append, letters_eq_nil fun e he => inWord_eq e ▸ hgap e he,
        List.nil_append]
    have hparted := parted_of_ends before hc hd (by simp) hends
    simpa [Parted, hletters] using hparted

theorem parted_label_iff (name : String) :
    Parted (label name).toList first second ↔
      Parted (joinWords (words name.toList)) first second := by
  rw [← parted_map_toLower, map_toLower_label, parted_map_toLower]

theorem cutsBetween_iff (c d : Char) (next : Option Char) :
    cutsBetween c d next = true ↔
      c.isDigit ≠ d.isDigit ∨ (c.isLower ∧ d.isUpper) ∨
        (c.isUpper ∧ d.isUpper ∧ next.any Char.isLower) := by
  simp [cutsBetween, isUpper_eq, isDigit_eq, funext isLower_eq, or_assoc, and_assoc]

theorem capital_of_label {name : String} (h : (label name).toList = c :: after) :
    (c.isUpper ∨ c.isDigit) ∧ ∀ d ∈ after, d.isUpper = false := by
  cases hfound : words name.toList with
  | nil => simp [label, hfound, joinWords, capitalize] at h
  | cons word more =>
      have hmem : word ∈ words name.toList := by simp [hfound]
      obtain ⟨e, rest, rfl⟩ := List.exists_cons_of_ne_nil (uniform_of_mem_words hmem).1
      have hkind := inWord_of_mem_words hmem (List.mem_cons_self : e ∈ e :: rest)
      simp only [label, hfound, joinWords_cons_cons, List.map_cons, capitalize,
        String.toList_ofList, toUpper_toLower] at h
      obtain ⟨rfl, rfl⟩ := List.cons.inj h
      refine ⟨?_, by simp⟩
      rcases inWord_cases hkind with hupper | hlower | hdigit
      · rw [isUpper_eq] at hupper
        simp [isAlpha_eq, hupper]
      · rw [isLower_eq] at hlower
        simp [isAlpha_eq, hlower]
      · rw [toUpper_of_isDigit hdigit, ← isDigit_eq]
        exact .inr hdigit

/-- The words that the pattern finds in a name are put together with single spaces, in
small letters with a capital at the start.  The label keeps each letter and digit, and in
between a space stands where something else is left out, where a digit meets a letter, where
a capital follows a small letter, and before the last of several capitals if a small
letter comes next.  All letters and digits here are those of ASCII.  A label is its own
label. -/
theorem label_keeps_letters (name : String) :
    label name = String.ofList
      (capitalize ((joinWords (Pattern.word.findAll name.toList)).map Char.toLower)) ∧
    ((label name).toList.filter (· ≠ ' ')).map Char.toLower =
      (name.toList.filter Char.isAlphanum).map Char.toLower ∧
    Spaced (label name).toList ∧
    (∀ before c gap d after, name.toList = before ++ c :: gap ++ d :: after →
      c.isAlphanum → d.isAlphanum → (∀ e ∈ gap, e.isAlphanum = false) →
      (Parted (label name).toList (before ++ [c]) (d :: after) ↔
        gap ≠ [] ∨ c.isDigit ≠ d.isDigit ∨ (c.isLower ∧ d.isUpper) ∨
          (c.isUpper ∧ d.isUpper ∧ after.head?.any Char.isLower))) ∧
    (∀ c after, (label name).toList = c :: after →
      (c.isUpper ∨ c.isDigit) ∧ ∀ d ∈ after, d.isUpper = false) ∧
    label (label name) = label name := by
  refine ⟨?_, filter_label name, spaced_label name, ?_, fun _ _ => capital_of_label, ?_⟩
  · rw [← Pattern.words_eq_findAll]
    rfl
  · intro before c gap d after hname hc hd hgap
    rw [parted_label_iff, hname, ← cutsBetween_iff]
    simp only [← inWord_eq] at hc hd hgap
    exact parted_words_iff hc hd hgap
  · apply String.toList_inj.1
    rw [toList_label, words_label, ← toList_label]

theorem xml_apart_from_http :
    Parted (label "XMLHttp2é_id").toList (['X', 'M'] ++ ['L']) ('H' :: "ttp2é_id".toList) ∧
    ¬Parted (label "XMLHttp2é_id").toList (['X'] ++ ['M']) ('L' :: "Http2é_id".toList) ∧
    Parted (label "XMLHttp2é_id").toList ("XMLHttp".toList ++ ['2']) ('i' :: ['d']) ∧
    (label "XMLHttp2é_id").toList = 'X' :: "ml http 2 id".toList ∧
    'U' ∉ "ml http 2 id".toList := by
  obtain ⟨-, -, -, hparted, hcapital, -⟩ := label_keeps_letters "XMLHttp2é_id"
  have hlabel : (label "XMLHttp2é_id").toList = 'X' :: "ml http 2 id".toList := by decide
  have hcapitals := hparted ['X', 'M'] 'L' [] 'H' "ttp2é_id".toList (by decide) rfl rfl nofun
  have hwithin := hparted ['X'] 'M' [] 'L' "Http2é_id".toList (by decide) rfl rfl nofun
  have hskipped : ∀ e ∈ ['é', '_'], e.isAlphanum = false := by simp
  have hgap := hparted "XMLHttp".toList '2' ['é', '_'] 'i' ['d'] (by decide) rfl rfl hskipped
  refine ⟨hcapitals.2 (by decide), fun h => ?_, hgap.2 (by decide), hlabel, fun h => ?_⟩
  · exact absurd (hwithin.1 h) (by decide)
  · cases (hcapital 'X' _ hlabel).2 'U' h

end FormSchema.Text
