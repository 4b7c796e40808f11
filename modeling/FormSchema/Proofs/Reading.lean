import FormSchema.Json.Reader
import Mathlib.Data.List.Infix
import Mathlib.Data.List.TakeWhile

/-!
# Where reading comes to

Reading goes over a text once and never back: what a reader leaves is the end of the
text and shorter than it, and what it stops at is an end of the text too.  So the fuel
lasts, and a numeral is given up only where the text has that many digits in a row.
-/

namespace FormSchema

namespace Text

/-- More digits in a row than are read as a numeral, somewhere in the text. -/
def HasLongRun (text : List Char) : Prop :=
  ∃ digits, digits <:+: text ∧ maxDigits < digits.length ∧
    ∀ c ∈ digits, isDigit c = true

def StartsLong (text : List Char) : Prop :=
  ∃ numeral, (text = numeral ∨ text = '-' :: numeral) ∧
    maxDigits < (numeral.takeWhile isDigit).length

theorem StartsLong.hasLongRun {rest text : List Char} (h : StartsLong rest)
    (hrest : rest <:+ text) : HasLongRun text := by
  obtain ⟨numeral, hsign, hlong⟩ := h
  have hnumeral : numeral <:+ rest := by
    rcases hsign with rfl | rfl
    · exact List.suffix_rfl
    · exact List.suffix_cons _ _
  have hinfix : numeral.takeWhile isDigit <:+: text :=
    (List.takeWhile_prefix _).isInfix.trans (hnumeral.trans hrest).isInfix
  exact ⟨_, hinfix, hlong, fun c hc => List.mem_takeWhile_imp hc⟩

end Text

namespace Json

open FormSchema.Text

structure Stop.LiesIn (stop : Stop) (text : List Char) : Prop where
  suffix : stop.rest <:+ text
  long : stop.problem = .longNumeral → StartsLong stop.rest

namespace Reader

structure Remains (rest text : List Char) : Prop where
  suffix : rest <:+ text
  shorter : rest.length < text.length

namespace Remains

variable {c : Char} {rest middle text : List Char}

theorem tail : Remains rest (c :: rest) :=
  ⟨List.suffix_cons _ _, Nat.lt_succ_self _⟩

theorem of_suffix (h : Remains middle text) (hrest : rest <:+ middle) :
    Remains rest text :=
  ⟨hrest.trans h.suffix, Nat.lt_of_le_of_lt hrest.length_le h.shorter⟩

theorem within (h : Remains rest middle) (hmiddle : middle <:+ text) :
    Remains rest text :=
  ⟨h.suffix.trans hmiddle, Nat.lt_of_lt_of_le h.shorter hmiddle.length_le⟩

end Remains

/-- A reader that goes on in `text` and may point back to the start of the whole. -/
inductive Proceeds {α : Type} (whole text : List Char) : Reading α → Prop
  | ok {found : α} {rest : List Char} (hrest : Remains rest text) :
      Proceeds whole text (.ok (found, rest))
  | error {stop : Stop} (hstop : stop.LiesIn whole) : Proceeds whole text (.error stop)

namespace Proceeds

variable {α β : Type} {whole whole' text text' : List Char} {outcome : Reading α}

theorem within (h : Proceeds whole text outcome) (hwhole : whole <:+ whole')
    (htext : text <:+ text') : Proceeds whole' text' outcome := by
  cases h with
  | ok hrest => exact .ok (hrest.within htext)
  | error hstop => exact .error ⟨hstop.suffix.trans hwhole, hstop.long⟩

theorem map (h : Proceeds whole text outcome) (f : α → β) :
    Proceeds whole text (outcome.map fun read => (f read.1, read.2)) := by
  cases h with
  | ok hrest => exact .ok hrest
  | error hstop => exact .error hstop

theorem found_or_stopped (h : Proceeds whole text outcome) :
    (∃ found rest, outcome = .ok (found, rest) ∧ Remains rest text) ∨
      ∃ stop, outcome = .error stop ∧ stop.LiesIn whole := by
  cases h with
  | ok hrest => exact .inl ⟨_, _, rfl, hrest⟩
  | error hstop => exact .inr ⟨_, rfl, hstop⟩

theorem stop {problem : Problem} {rest : List Char} (hrest : rest <:+ whole)
    (hproblem : problem ≠ .longNumeral) :
    Proceeds whole text (.error ⟨problem, rest⟩ : Reading α) :=
  .error ⟨hrest, fun h => absurd h hproblem⟩

end Proceeds

theorem skip_suffix (text : List Char) : skip text <:+ text :=
  List.dropWhile_suffix _

/-! ## Strings -/

theorem units_proceeds {start text : List Char} (h : text <:+ start) :
    Proceeds start text (units start text) := by
  fun_induction units start text with
  | case1 => exact .stop List.suffix_rfl nofun
  | case2 rest => exact .ok .tail
  | case3 => exact .stop List.suffix_rfl nofun
  | case4 => exact .stop ((List.suffix_cons _ _).trans h) nofun
  | case5 a b c d after unit _ _ ih =>
      have hafter : after <:+ '\\' :: 'u' :: a :: b :: c :: d :: after :=
        ⟨['\\', 'u', a, b, c, d], rfl⟩
      exact ((ih (hafter.trans h)).map _).within List.suffix_rfl hafter
  | case6 => exact .stop ((List.suffix_cons _ _).trans h) nofun
  | case7 => exact .stop ((List.suffix_cons _ _).trans h) nofun
  | case8 c after _ _ _ _ ih =>
      have hafter : after <:+ '\\' :: c :: after := ⟨['\\', c], rfl⟩
      exact ((ih (hafter.trans h)).map _).within List.suffix_rfl hafter
  | case9 => exact .stop h nofun
  | case10 => exact .stop h nofun
  | case11 c rest _ _ _ ih =>
      have hrest : rest <:+ c :: rest := List.suffix_cons _ _
      exact ((ih (hrest.trans h)).map _).within List.suffix_rfl hrest

theorem string_proceeds (rest : List Char) :
    Proceeds ('\x22' :: rest) rest (string rest) := by
  have hunits : Proceeds ('\x22' :: rest) rest (units ('\x22' :: rest) rest) :=
    units_proceeds (List.suffix_cons _ _)
  exact hunits.map fun read => String.ofList (joinSurrogates read)

/-! ## Numbers -/

theorem whole?_eq_some {text digits rest : List Char}
    (h : whole? text = some (digits, rest)) :
    text = digits ++ rest ∧ digits ≠ [] ∧ ∀ c ∈ digits, isDigit c = true := by
  unfold whole? at h
  split at h
  · cases h
  · next c after =>
    split at h
    · next hzero =>
      cases h
      exact ⟨by rw [hzero]; rfl, by simp, List.forall_mem_singleton.2 rfl⟩
    · split at h
      · next hdigit =>
        cases h
        refine ⟨by simp, by simp, ?_⟩
        rintro d (_ | ⟨_, hd⟩)
        · exact hdigit
        · exact List.mem_takeWhile_imp hd
      · cases h

theorem fraction_suffix (text : List Char) : (fraction text).2 <:+ text := by
  fun_cases fraction text with
  | case1 c rest _ =>
      exact (List.dropWhile_suffix _).trans ⟨['.', c], rfl⟩
  | case2 => exact List.suffix_rfl
  | case3 => exact List.suffix_rfl

theorem signed_suffix (text : List Char) : (signed text).2 <:+ text := by
  fun_cases signed text with
  | case1 rest => exact List.suffix_cons _ _
  | case2 rest => exact List.suffix_cons _ _
  | case3 => exact List.suffix_rfl

theorem exponent_suffix (text : List Char) : (exponent text).2 <:+ text := by
  unfold exponent
  split
  · next c rest =>
    split
    · dsimp only
      split
      · exact List.suffix_rfl
      · exact (List.dropWhile_suffix _).trans
          ((signed_suffix rest).trans (List.suffix_cons _ _))
    · exact List.suffix_rfl
  · exact List.suffix_rfl

theorem number_proceeds {negative : Bool} {start text : List Char}
    (hstart : start = text ∨ start = '-' :: text) :
    Proceeds start text (number negative start text) := by
  unfold number
  split
  · exact .stop List.suffix_rfl nofun
  · next digits rest hwhole =>
    obtain ⟨htext, hsome, hdigits⟩ := whole?_eq_some hwhole
    have hrest : Remains rest text := by
      rw [htext]
      refine ⟨List.suffix_append _ _, ?_⟩
      rw [List.length_append]
      have := List.length_pos_iff.2 hsome
      omega
    have hleft : Remains (exponent (fraction rest).2).2 text :=
      hrest.of_suffix ((exponent_suffix _).trans (fraction_suffix _))
    dsimp only
    split
    · split
      · exact .ok hleft
      · next hlong =>
        refine .error ⟨List.suffix_rfl, fun _ => ⟨text, hstart, ?_⟩⟩
        rw [htext, List.takeWhile_append_of_pos hdigits, List.length_append]
        omega
    · exact .ok hleft

/-! ## Values -/

theorem after?_eq_some {word text rest : List Char} (h : after? word text = some rest) :
    text = word ++ rest := by
  fun_induction after? word text with
  | case1 => cases h; rfl
  | case2 => cases h
  | case3 c word text ih => rw [ih h, List.cons_append]
  | case4 => cases h

theorem scalar_proceeds (text : List Char) : Proceeds text text (scalar text) := by
  unfold scalar
  split
  · next read hword =>
    obtain ⟨word, hmem, hafter⟩ := List.exists_of_findSome?_eq_some hword
    obtain ⟨rest, hrest, rfl⟩ := Option.map_eq_some_iff.1 hafter
    have hsome : ∀ word ∈ words, 0 < word.1.toList.length := by decide
    have htext := after?_eq_some hrest
    refine .ok ⟨⟨_, htext.symm⟩, ?_⟩
    rw [htext, List.length_append]
    have := hsome word hmem
    omega
  · split
    · exact (number_proceeds (.inr rfl)).within List.suffix_rfl (List.suffix_cons _ _)
    · exact number_proceeds (.inl rfl)

theorem remains_of_skip {c : Char} {text rest after : List Char}
    (hrest : Remains rest text) (hskip : skip rest = c :: after) : Remains after text := by
  have hafter : Remains after (skip rest) := hskip ▸ Remains.tail
  exact hafter.within ((skip_suffix rest).trans hrest.suffix)

section Step

variable {fuel : Nat}

theorem value_proceeds_succ
    (helements : ∀ room before text,
      Proceeds text text (elements fuel room before text))
    (hfields : ∀ room before text, Proceeds text text (fields fuel room before text))
    (room : Nat) (text : List Char) :
    Proceeds text text (value (fuel + 1) room text) := by
  unfold value
  split
  · exact ((string_proceeds _).within List.suffix_rfl (List.suffix_cons _ _)).map _
  · next rest =>
    split
    · exact .stop List.suffix_rfl nofun
    · next room =>
      split
      · next hskip => exact .ok (remains_of_skip .tail hskip)
      · have hrest : skip rest <:+ '[' :: rest :=
          (skip_suffix rest).trans (List.suffix_cons _ _)
        exact (helements room [] (skip rest)).within hrest hrest
  · next rest =>
    split
    · exact .stop List.suffix_rfl nofun
    · next room =>
      split
      · next hskip => exact .ok (remains_of_skip .tail hskip)
      · have hrest : skip rest <:+ '\x7b' :: rest :=
          (skip_suffix rest).trans (List.suffix_cons _ _)
        exact (hfields room [] (skip rest)).within hrest hrest
  · exact scalar_proceeds text

theorem elements_proceeds_succ
    (hvalue : ∀ room text, Proceeds text text (value fuel room text))
    (helements : ∀ room before text,
      Proceeds text text (elements fuel room before text))
    (room : Nat) (before : List Json) (text : List Char) :
    Proceeds text text (elements (fuel + 1) room before text) := by
  unfold elements
  obtain ⟨element, rest, hread, hrest⟩ | ⟨stop, hread, hstop⟩ :=
    (hvalue room text).found_or_stopped
  · rw [hread]
    dsimp only
    split
    · next hskip => exact .ok (remains_of_skip hrest hskip)
    · next after hskip =>
      have hafter : skip after <:+ text :=
        (skip_suffix after).trans (remains_of_skip hrest hskip).suffix
      exact (helements room (element :: before) (skip after)).within hafter hafter
    · exact .stop ((skip_suffix rest).trans hrest.suffix) nofun
  · rw [hread]
    exact .error hstop

theorem fields_proceeds_succ
    (hvalue : ∀ room text, Proceeds text text (value fuel room text))
    (hfields : ∀ room before text, Proceeds text text (fields fuel room before text))
    (room : Nat) (before : Node) (text : List Char) :
    Proceeds text text (fields (fuel + 1) room before text) := by
  unfold fields
  split
  · next opened =>
    have hstring := (string_proceeds opened).within List.suffix_rfl
      (List.suffix_cons '\x22' opened)
    obtain ⟨name, rest, hname, hrest⟩ | ⟨stop, hname, hstop⟩ := hstring.found_or_stopped
    · rw [hname]
      dsimp only
      split
      · next after hcolon =>
        have hafter : skip after <:+ '\x22' :: opened :=
          (skip_suffix after).trans (remains_of_skip hrest hcolon).suffix
        obtain ⟨found, left, hread, hleft⟩ | ⟨stop, hread, hstop⟩ :=
          ((hvalue room (skip after)).within hafter hafter).found_or_stopped
        · rw [hread]
          dsimp only
          split
          · next hskip => exact .ok (remains_of_skip hleft hskip)
          · next later hskip =>
            have hlater : skip later <:+ '\x22' :: opened :=
              (skip_suffix later).trans (remains_of_skip hleft hskip).suffix
            exact (hfields room (before.insert name found) (skip later)).within hlater
              hlater
          · exact .stop ((skip_suffix left).trans hleft.suffix) nofun
        · rw [hread]
          exact .error hstop
      · exact .stop ((skip_suffix rest).trans hrest.suffix) nofun
    · rw [hname]
      exact .error hstop
  · exact .stop List.suffix_rfl nofun

end Step

theorem proceeds (fuel : Nat) :
    (∀ room text, Proceeds text text (value fuel room text)) ∧
    (∀ room before text, Proceeds text text (elements fuel room before text)) ∧
    ∀ room before text, Proceeds text text (fields fuel room before text) := by
  induction fuel with
  | zero =>
      exact ⟨fun _ _ => .stop List.suffix_rfl nofun,
        fun _ _ _ => .stop List.suffix_rfl nofun,
        fun _ _ _ => .stop List.suffix_rfl nofun⟩
  | succ fuel ih =>
      obtain ⟨hvalue, helements, hfields⟩ := ih
      exact ⟨value_proceeds_succ helements hfields,
        elements_proceeds_succ hvalue helements,
        fields_proceeds_succ hvalue hfields⟩

theorem value_proceeds (fuel room : Nat) (text : List Char) :
    Proceeds text text (value fuel room text) :=
  (proceeds fuel).1 room text

/-! ## Fuel -/

section Fuel

variable {fuel room : Nat}

/-- With this much fuel the readers of one more unit of fuel say nothing new. -/
structure Lasts (fuel : Nat) : Prop where
  value (room : Nat) (text : List Char) : 2 * text.length < fuel →
    Reader.value (fuel + 1) room text = Reader.value fuel room text
  elements (room : Nat) (before : List Json) (text : List Char) :
    2 * text.length + 1 < fuel →
    Reader.elements (fuel + 1) room before text = Reader.elements fuel room before text
  fields (room : Nat) (before : Node) (text : List Char) :
    2 * text.length + 1 < fuel →
    Reader.fields (fuel + 1) room before text = Reader.fields fuel room before text

theorem value_lasts (h : Lasts fuel) (room : Nat) (text : List Char)
    (hfuel : 2 * text.length < fuel + 1) :
    value (fuel + 2) room text = value (fuel + 1) room text := by
  unfold value
  split
  · rfl
  · next rest =>
    split
    · rfl
    · split
      · rfl
      · apply h.elements
        have := (skip_suffix rest).length_le
        rw [List.length_cons] at hfuel
        omega
  · next rest =>
    split
    · rfl
    · split
      · rfl
      · apply h.fields
        have := (skip_suffix rest).length_le
        rw [List.length_cons] at hfuel
        omega
  · rfl

theorem elements_lasts (h : Lasts fuel) (room : Nat) (before : List Json)
    (text : List Char) (hfuel : 2 * text.length + 1 < fuel + 1) :
    elements (fuel + 2) room before text = elements (fuel + 1) room before text := by
  rw [elements, elements, h.value room text (by omega)]
  obtain ⟨element, rest, hread, hrest⟩ | ⟨stop, hread, -⟩ :=
    (value_proceeds fuel room text).found_or_stopped
  · rw [hread]
    dsimp only
    split
    · rfl
    · next after hskip =>
      apply h.elements
      have := (remains_of_skip hrest hskip).shorter
      have := (skip_suffix after).length_le
      omega
    · rfl
  · rw [hread]

theorem fields_lasts (h : Lasts fuel) (room : Nat) (before : Node)
    (text : List Char) (hfuel : 2 * text.length + 1 < fuel + 1) :
    fields (fuel + 2) room before text = fields (fuel + 1) room before text := by
  unfold fields
  split
  · next opened =>
    obtain ⟨name, rest, hname, hrest⟩ | ⟨stop, hname, -⟩ :=
      (string_proceeds opened).found_or_stopped
    · rw [hname]
      dsimp only
      split
      · next after hcolon =>
        have hafter : (skip after).length < opened.length :=
          ((remains_of_skip hrest hcolon).of_suffix (skip_suffix after)).shorter
        rw [List.length_cons] at hfuel
        rw [h.value room (skip after) (by omega)]
        obtain ⟨found, left, hread, hleft⟩ | ⟨stop, hread, -⟩ :=
          (value_proceeds fuel room (skip after)).found_or_stopped
        · rw [hread]
          dsimp only
          split
          · rfl
          · next later hskip =>
            apply h.fields
            have := ((remains_of_skip hleft hskip).of_suffix (skip_suffix later)).shorter
            omega
          · rfl
        · rw [hread]
      · rfl
    · rw [hname]
  · rfl

theorem lasts (fuel : Nat) : Lasts fuel := by
  induction fuel with
  | zero => exact ⟨nofun, nofun, nofun⟩
  | succ fuel ih => exact ⟨value_lasts ih, elements_lasts ih, fields_lasts ih⟩

/-- Reading never comes to the end of its fuel: with more of it, it reads the same. -/
theorem value_eq_of_lt {text : List Char} (h : 2 * text.length < fuel) :
    value fuel room text = value (2 * text.length + 1) room text := by
  induction fuel, h using Nat.le_induction with
  | base => rfl
  | succ fuel hfuel ih => rw [(lasts fuel).value room text hfuel, ih]

end Fuel

/-! ## A numeral alone -/

section Numeral

variable {digits : List Char}

theorem whole?_of_digits (hdigits : ∀ c ∈ digits, isDigit c = true)
    (hsome : digits ≠ []) (hzero : digits.head? ≠ some '0') :
    whole? digits = some (digits, []) := by
  cases digits with
  | nil => exact absurd rfl hsome
  | cons c rest =>
      have hfirst : c ≠ '0' := fun h => hzero (by rw [h]; rfl)
      have hrest : ∀ d ∈ rest, isDigit d = true :=
        fun d hd => hdigits d (List.mem_cons_of_mem c hd)
      rw [whole?, if_neg hfirst, if_pos (hdigits c List.mem_cons_self),
        List.takeWhile_eq_self_iff.2 hrest, List.dropWhile_eq_nil_iff.2 hrest]

theorem scalar_of_digits (hdigits : ∀ c ∈ digits, isDigit c = true) :
    scalar digits = number false digits digits := by
  unfold scalar
  split
  · next read hword =>
    obtain ⟨word, hmem, hafter⟩ := List.exists_of_findSome?_eq_some hword
    obtain ⟨rest, hrest, -⟩ := Option.map_eq_some_iff.1 hafter
    have hletters : (words.all fun word => !word.1.toList.all isDigit) = true := rfl
    have hletter := List.all_eq_true.1 hletters word hmem
    have hall : word.1.toList.all isDigit = true := by
      refine List.all_eq_true.2 fun c hc => hdigits c ?_
      rw [after?_eq_some hrest]
      exact List.mem_append_left rest hc
    rw [hall] at hletter
    cases hletter
  · split
    · exact absurd (hdigits '-' List.mem_cons_self) (by decide)
    · rfl

theorem number_of_long (hdigits : ∀ c ∈ digits, isDigit c = true)
    (hzero : digits.head? ≠ some '0') (hlong : maxDigits < digits.length) :
    number false digits digits = .error ⟨.longNumeral, digits⟩ := by
  have hsome : digits ≠ [] := by
    rintro rfl
    exact Nat.not_lt_zero _ hlong
  rw [number, whole?_of_digits hdigits hsome hzero]
  exact if_neg (Nat.not_le.2 hlong)

theorem isSpace_of_isDigit {c : Char} (h : isDigit c = true) :
    isSpace c = false := by
  rw [← Bool.not_eq_true, isSpace]
  simp only [Bool.or_eq_true, beq_iff_eq]
  rintro (((rfl | rfl) | rfl) | rfl) <;> cases h

theorem skip_of_digits (hdigits : ∀ c ∈ digits, isDigit c = true) :
    skip digits = digits := by
  cases digits with
  | nil => rfl
  | cons c rest =>
      have hspace := isSpace_of_isDigit (hdigits c List.mem_cons_self)
      exact List.dropWhile_cons_of_neg (by rw [hspace]; decide)

theorem value_of_digits (hdigits : ∀ c ∈ digits, isDigit c = true)
    (fuel room : Nat) : value (fuel + 1) room digits = scalar digits := by
  unfold value
  split
  iterate 3 exact absurd (hdigits _ List.mem_cons_self) (by decide)
  rfl

end Numeral

end Reader

theorem read_stop {room : Nat} {text : List Char} {stop : Stop}
    (h : read room text = .error stop) : stop.LiesIn text := by
  unfold read at h
  split at h
  · cases h
    exact ⟨List.suffix_rfl, nofun⟩
  · obtain ⟨found, rest, hread, hrest⟩ | ⟨other, hread, hother⟩ :=
      (Reader.value_proceeds (2 * text.length + 1) room
        (Reader.skip text)).found_or_stopped
    · rw [hread] at h
      dsimp only [bind, Except.bind] at h
      split at h
      · cases h
      · cases h
        exact ⟨(Reader.skip_suffix rest).trans
          (hrest.suffix.trans (Reader.skip_suffix text)), nofun⟩
    · rw [hread] at h
      cases h
      exact ⟨hother.suffix.trans (Reader.skip_suffix text), hother.long⟩

theorem read_of_long {digits : List Char}
    (hdigits : ∀ c ∈ digits, isDigit c = true)
    (hzero : digits.head? ≠ some '0') (hlong : maxDigits < digits.length) (room : Nat) :
    read room digits = .error ⟨.longNumeral, digits⟩ := by
  unfold read
  split
  · exact absurd (hdigits _ List.mem_cons_self) (by decide)
  · rw [Reader.skip_of_digits hdigits, Reader.value_of_digits hdigits,
      Reader.scalar_of_digits hdigits, Reader.number_of_long hdigits hzero hlong]
    rfl

end Json

end FormSchema
