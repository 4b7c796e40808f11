import FormSchema.Proofs.Reading

/-!
# How deep reading goes

A text is given up for its depth only where more lists and objects are open, outside of
strings, than there is room for.  The reader and a scan that looks at nothing but
quotes and brackets go over the text side by side: behind each value that is read the
scan is outside of strings again and has the room that it had before the value.
-/

namespace FormSchema

namespace Text

/-- Where a scan stands: among values, within a string or behind its backslash. -/
inductive Region where
  | values
  | string
  | escape

/-- Somewhere more lists and objects are open than there is room for. -/
def overflows : Region → Nat → List Char → Bool
  | _, _, [] => false
  | .values, room, c :: text =>
      if c = '\x22' then overflows .string room text
      else if c = '[' ∨ c = '\x7b' then
        room == 0 || overflows .values (room - 1) text
      else if c = ']' ∨ c = '\x7d' then overflows .values (room + 1) text
      else overflows .values room text
  | .string, room, c :: text =>
      if c = '\x22' then overflows .values room text
      else if c = '\\' then overflows .escape room text
      else overflows .string room text
  | .escape, room, _ :: text => overflows .string room text

def marks : List Char := ['\x22', '[', ']', '\x7b', '\x7d']

theorem overflows_append {passed : List Char} (h : ∀ c ∈ passed, c ∉ marks) (room : Nat)
    (rest : List Char) :
    overflows .values room (passed ++ rest) = overflows .values room rest := by
  induction passed with
  | nil => rfl
  | cons c passed ih =>
      have hc := h c List.mem_cons_self
      simp only [marks, List.mem_cons, List.not_mem_nil, not_or] at hc
      obtain ⟨hquote, hlist, hlistEnd, hobject, hobjectEnd, -⟩ := hc
      rw [List.cons_append, overflows, if_neg hquote, if_neg (not_or.2 ⟨hlist, hobject⟩),
        if_neg (not_or.2 ⟨hlistEnd, hobjectEnd⟩)]
      exact ih fun d hd => h d (List.mem_cons_of_mem c hd)

example : overflows .values 1 "[[".toList = true ∧
    overflows .values 1 "[\"[\\\"[\", 2], [3]".toList = false := by decide

end Text

namespace Json.Reader

open FormSchema.Text

def Passes (rest text : List Char) : Prop :=
  ∃ passed, text = passed ++ rest ∧ ∀ c ∈ passed, c ∉ marks

namespace Passes

variable {rest middle text : List Char}

theorem refl (text : List Char) : Passes text text := ⟨[], rfl, nofun⟩

theorem trans (hrest : Passes rest middle) (hmiddle : Passes middle text) :
    Passes rest text := by
  obtain ⟨later, rfl, hlater⟩ := hrest
  obtain ⟨passed, rfl, hpassed⟩ := hmiddle
  refine ⟨passed ++ later, (List.append_assoc _ _ _).symm, fun c hc => ?_⟩
  rcases List.mem_append.1 hc with hc | hc
  · exact hpassed c hc
  · exact hlater c hc

theorem cons {c : Char} (hc : c ∉ marks) (text : List Char) : Passes text (c :: text) :=
  ⟨[c], rfl, List.forall_mem_singleton.2 hc⟩

theorem dropWhile {p : Char → Bool} (hp : ∀ c, p c = true → c ∉ marks)
    (text : List Char) : Passes (text.dropWhile p) text :=
  ⟨text.takeWhile p, List.takeWhile_append_dropWhile.symm,
    fun c hc => hp c (List.mem_takeWhile_imp hc)⟩

theorem overflows_iff (h : Passes rest text) (room : Nat) :
    overflows .values room text = overflows .values room rest := by
  obtain ⟨passed, rfl, hpassed⟩ := h
  exact overflows_append hpassed room rest

end Passes

theorem not_mem_marks {p : Char → Bool} (hnone : marks.all (fun c => !p c) = true)
    {c : Char} (h : p c = true) : c ∉ marks := by
  intro hmem
  have hc := List.all_eq_true.1 hnone c hmem
  rw [h] at hc
  cases hc

theorem not_mem_marks_of_isDigit {c : Char} (h : isDigit c = true) : c ∉ marks :=
  not_mem_marks (by decide) h

theorem skip_passes (text : List Char) : Passes (skip text) text :=
  .dropWhile (fun _ => not_mem_marks (by decide)) text

theorem digits_passes (text : List Char) : Passes (text.dropWhile isDigit) text :=
  .dropWhile (fun _ => not_mem_marks_of_isDigit) text

/-! ## Numbers and words -/

theorem fraction_passes (text : List Char) : Passes (fraction text).2 text := by
  fun_cases fraction text with
  | case1 c rest hc =>
      exact ((digits_passes rest).trans (.cons (not_mem_marks_of_isDigit hc) rest)).trans
        (.cons (by decide) _)
  | case2 => exact .refl _
  | case3 => exact .refl _

theorem signed_passes (text : List Char) : Passes (signed text).2 text := by
  fun_cases signed text with
  | case1 rest => exact .cons (by decide) rest
  | case2 rest => exact .cons (by decide) rest
  | case3 => exact .refl _

theorem exponent_passes (text : List Char) : Passes (exponent text).2 text := by
  unfold exponent
  split
  · next c rest =>
    split
    · next hletter =>
      have hmark : c ∉ marks := by
        simp only [Bool.or_eq_true, decide_eq_true_eq] at hletter
        rcases hletter with rfl | rfl <;> decide
      dsimp only
      split
      · exact .refl _
      · exact ((digits_passes _).trans (signed_passes rest)).trans (.cons hmark rest)
    · exact .refl _
  · exact .refl _

/-- A reader that leaves the scan among values, with so much room behind what it reads,
and that finds no room only where the scan overflows. -/
inductive Tracks {α : Type} (region : Region) (room after : Nat) (text : List Char) :
    Reading α → Prop
  | ok {found : α} {rest : List Char}
      (h : overflows .values after rest = true → overflows region room text = true) :
      Tracks region room after text (.ok (found, rest))
  | error {stop : Stop}
      (h : stop.problem = .tooDeep → overflows region room text = true) :
      Tracks region room after text (.error stop)

namespace Tracks

variable {α β : Type} {region region' : Region} {room room' after : Nat}
  {text text' : List Char} {outcome : Reading α}

theorem stop {problem : Problem} {rest : List Char} (h : problem ≠ .tooDeep) :
    Tracks region room after text (.error ⟨problem, rest⟩ : Reading α) :=
  .error fun hproblem => absurd hproblem h

theorem map (h : Tracks region room after text outcome) (f : α → β) :
    Tracks region room after text (outcome.map fun read => (f read.1, read.2)) := by
  cases h with
  | ok h => exact .ok h
  | error h => exact .error h

theorem behind (h : Tracks region' room' after text' outcome)
    (hback : overflows region' room' text' = true → overflows region room text = true) :
    Tracks region room after text outcome := by
  cases h with
  | ok h => exact .ok fun hrest => hback (h hrest)
  | error h => exact .error fun hproblem => hback (h hproblem)

theorem found_or_stopped (h : Tracks region room after text outcome) :
    (∃ found rest, outcome = .ok (found, rest) ∧
      (overflows .values after rest = true → overflows region room text = true)) ∨
    ∃ stop, outcome = .error stop ∧
      (stop.problem = .tooDeep → overflows region room text = true) := by
  cases h with
  | ok h => exact .inl ⟨_, _, rfl, h⟩
  | error h => exact .inr ⟨_, rfl, h⟩

theorem of_passes {found : α} {rest : List Char} (h : Passes rest text) :
    Tracks .values room room text (.ok (found, rest)) :=
  .ok fun hrest => (h.overflows_iff room).trans hrest

end Tracks

variable {fuel room : Nat}

theorem number_tracks {negative : Bool} {start text : List Char} :
    Tracks .values room room text (number negative start text) := by
  unfold number
  split
  · exact .stop (by decide)
  · next digits rest hwhole =>
    obtain ⟨htext, -, hdigits⟩ := whole?_eq_some hwhole
    have hrest : Passes rest text :=
      ⟨digits, htext, fun c hc => not_mem_marks_of_isDigit (hdigits c hc)⟩
    have hleft : Passes (exponent (fraction rest).2).2 text :=
      ((exponent_passes _).trans (fraction_passes rest)).trans hrest
    dsimp only
    split
    · split
      · exact .of_passes hleft
      · exact .stop (by decide)
    · exact .of_passes hleft

theorem scalar_tracks (text : List Char) :
    Tracks .values room room text (scalar text) := by
  unfold scalar
  split
  · next read hword =>
    obtain ⟨word, hmem, hafter⟩ := List.exists_of_findSome?_eq_some hword
    obtain ⟨rest, hrest, rfl⟩ := Option.map_eq_some_iff.1 hafter
    have hunmarked : (words.all fun word =>
      word.1.toList.all fun c => !marks.contains c) = true := by decide
    refine .of_passes ⟨_, after?_eq_some hrest, fun c hc hmark => ?_⟩
    have hnone := List.all_eq_true.1 (List.all_eq_true.1 hunmarked word hmem) c hc
    rw [List.contains_iff_mem.2 hmark] at hnone
    cases hnone
  · split
    · next rest _ =>
      exact number_tracks.behind
        ((Passes.cons (by decide) rest).overflows_iff room).trans
    · exact number_tracks

/-! ## Strings -/

theorem overflows_string_cons {c : Char} (hquote : c ≠ '\x22') (hescape : c ≠ '\\')
    (text : List Char) :
    overflows .string room (c :: text) = overflows .string room text := by
  rw [overflows, if_neg hquote, if_neg hescape]

theorem overflows_string_hex {c : Char} {value : Nat} (h : hexValue? c = some value)
    (text : List Char) :
    overflows .string room (c :: text) = overflows .string room text := by
  apply overflows_string_cons
  · rintro rfl
    cases h
  · rintro rfl
    cases h

theorem overflows_unit {a b c d : Char} {unit : Nat} (h : unit? a b c d = some unit)
    (text : List Char) :
    overflows .string room (a :: b :: c :: d :: text) = overflows .string room text := by
  simp only [unit?, Option.bind_eq_bind, Option.bind_eq_some_iff] at h
  obtain ⟨_, ha, _, hb, _, hc, _, hd, -⟩ := h
  rw [overflows_string_hex ha, overflows_string_hex hb, overflows_string_hex hc,
    overflows_string_hex hd]

theorem units_tracks (start text : List Char) :
    Tracks .string room room text (units start text) := by
  fun_induction units start text with
  | case2 rest => exact .ok fun h => h
  | case5 a b c d after unit hunit _ ih =>
      exact (ih.map _).behind (overflows_unit hunit after).trans
  | case8 c after _ _ _ _ ih => exact (ih.map _).behind fun h => h
  | case11 c rest hquote hescape _ ih =>
      refine (ih.map _).behind (overflows_string_cons ?_ ?_ rest).trans
      · rintro rfl
        exact hquote rfl
      · rintro rfl
        exact hescape rfl
  | _ => exact .stop (by decide)

theorem string_tracks (rest : List Char) :
    Tracks .string room room rest (string rest) :=
  (units_tracks _ rest).map fun read => String.ofList (joinSurrogates read)

/-! ## Lists and objects -/

theorem overflows_skip (room : Nat) (text : List Char) :
    overflows .values room (skip text) = overflows .values room text :=
  ((skip_passes text).overflows_iff room).symm

theorem overflows_of_skip {c : Char} {rest after : List Char}
    (hskip : skip rest = c :: after) (h : overflows .values room (c :: after) = true) :
    overflows .values room rest = true := by
  rw [← overflows_skip, hskip]
  exact h

theorem overflows_of_separator {c : Char} {rest after : List Char}
    (hskip : skip rest = c :: after) (hc : c ∉ marks)
    (h : overflows .values room (skip after) = true) :
    overflows .values room rest = true := by
  rw [overflows_skip] at h
  exact overflows_of_skip hskip (((Passes.cons hc after).overflows_iff room).trans h)

section Step

theorem value_tracks_succ
    (helements : ∀ room before text,
      Tracks .values room (room + 1) text (elements fuel room before text))
    (hfields : ∀ room before text,
      Tracks .values room (room + 1) text (fields fuel room before text))
    (room : Nat) (text : List Char) :
    Tracks .values room room text (value (fuel + 1) room text) := by
  unfold value
  split
  · next rest => exact ((string_tracks rest).map _).behind fun h => h
  · next rest =>
    split
    · exact .error fun _ => rfl
    · next room =>
      split
      · next after hskip => exact .ok (overflows_of_skip hskip)
      · exact (helements room [] (skip rest)).behind (overflows_skip room rest).symm.trans
  · next rest =>
    split
    · exact .error fun _ => rfl
    · next room =>
      split
      · next after hskip => exact .ok (overflows_of_skip hskip)
      · exact (hfields room [] (skip rest)).behind (overflows_skip room rest).symm.trans
  · exact scalar_tracks text

theorem elements_tracks_succ
    (hvalue : ∀ room text, Tracks .values room room text (value fuel room text))
    (helements : ∀ room before text,
      Tracks .values room (room + 1) text (elements fuel room before text))
    (room : Nat) (before : List Json) (text : List Char) :
    Tracks .values room (room + 1) text (elements (fuel + 1) room before text) := by
  unfold elements
  obtain ⟨element, rest, hread, hrest⟩ | ⟨stop, hread, hstop⟩ :=
    (hvalue room text).found_or_stopped
  · rw [hread]
    dsimp only
    split
    · next after hskip => exact .ok fun hafter => hrest (overflows_of_skip hskip hafter)
    · next after hskip =>
      exact (helements room (element :: before) (skip after)).behind fun hafter =>
        hrest (overflows_of_separator hskip (by decide) hafter)
    · exact .stop (by decide)
  · rw [hread]
    exact .error hstop

theorem fields_tracks_succ
    (hvalue : ∀ room text, Tracks .values room room text (value fuel room text))
    (hfields : ∀ room before text,
      Tracks .values room (room + 1) text (fields fuel room before text))
    (room : Nat) (before : Node) (text : List Char) :
    Tracks .values room (room + 1) text (fields (fuel + 1) room before text) := by
  unfold fields
  split
  · next opened =>
    obtain ⟨name, rest, hname, hrest⟩ | ⟨stop, hname, hstop⟩ :=
      (@string_tracks room opened).found_or_stopped
    · rw [hname]
      dsimp only
      split
      · next after hcolon =>
        obtain ⟨found, left, hread, hleft⟩ | ⟨stop, hread, hstop⟩ :=
          (hvalue room (skip after)).found_or_stopped
        · rw [hread]
          have hback : overflows .values room left = true →
              overflows .string room opened = true := fun h =>
            hrest (overflows_of_separator hcolon (by decide) (hleft h))
          dsimp only
          split
          · next later hskip =>
            exact .ok fun hlater => hback (overflows_of_skip hskip hlater)
          · next later hskip =>
            exact (hfields room (before.insert name found) (skip later)).behind
              fun hlater => hback (overflows_of_separator hskip (by decide) hlater)
          · exact .stop (by decide)
        · rw [hread]
          exact .error fun hproblem =>
            hrest (overflows_of_separator hcolon (by decide) (hstop hproblem))
      · exact .stop (by decide)
    · rw [hname]
      exact .error hstop
  · exact .stop (by decide)

end Step

theorem tracks (fuel : Nat) :
    (∀ room text, Tracks .values room room text (value fuel room text)) ∧
    (∀ room before text,
      Tracks .values room (room + 1) text (elements fuel room before text)) ∧
    ∀ room before text,
      Tracks .values room (room + 1) text (fields fuel room before text) := by
  induction fuel with
  | zero =>
      exact ⟨fun _ _ => .stop (by decide), fun _ _ _ => .stop (by decide),
        fun _ _ _ => .stop (by decide)⟩
  | succ fuel ih =>
      obtain ⟨hvalue, helements, hfields⟩ := ih
      exact ⟨value_tracks_succ helements hfields,
        elements_tracks_succ hvalue helements,
        fields_tracks_succ hvalue hfields⟩

/-! ## Lists within lists -/

theorem value_of_lists {count : Nat} (hcount : room < count) (rest : List Char)
    (hfuel : 2 * room < fuel) :
    ∃ left, value fuel room (List.replicate count '[' ++ rest) =
      .error ⟨.tooDeep, left⟩ := by
  induction room generalizing fuel count with
  | zero =>
      obtain ⟨fuel, rfl⟩ := Nat.exists_eq_succ_of_ne_zero (Nat.ne_of_gt hfuel)
      obtain ⟨count, rfl⟩ := Nat.exists_eq_succ_of_ne_zero (Nat.ne_of_gt hcount)
      exact ⟨_, rfl⟩
  | succ room ih =>
      obtain ⟨fuel, rfl⟩ : ∃ less, fuel = less + 2 := ⟨fuel - 2, by omega⟩
      obtain ⟨count, rfl⟩ : ∃ less, count = less + 2 := ⟨count - 2, by omega⟩
      obtain ⟨left, hleft⟩ := @ih fuel (count + 1) (by omega) (by omega)
      refine ⟨left, ?_⟩
      change elements (fuel + 1) room [] (List.replicate (count + 1) '[' ++ rest) = _
      rw [elements, hleft]

end Json.Reader

namespace Json

open FormSchema.Text

variable {room : Nat} {text : List Char}

theorem overflows_of_read {stop : Stop} (h : read room text = .error stop)
    (hproblem : stop.problem = .tooDeep) : overflows .values room text = true := by
  unfold read at h
  split at h
  · cases h
    cases hproblem
  · rw [← Reader.overflows_skip]
    obtain ⟨found, rest, hread, -⟩ | ⟨other, hread, hother⟩ :=
      ((Reader.tracks (2 * text.length + 1)).1 room (Reader.skip text)).found_or_stopped
    · rw [hread] at h
      dsimp only [bind, Except.bind] at h
      split at h
      · cases h
      · cases h
        cases hproblem
    · rw [hread] at h
      cases h
      exact hother hproblem

theorem read_of_lists {count : Nat} (hcount : room < count) (rest : List Char) :
    ∃ left, read room (List.replicate count '[' ++ rest) = .error ⟨.tooDeep, left⟩ := by
  obtain ⟨count, rfl⟩ := Nat.exists_eq_succ_of_ne_zero (Nat.ne_zero_of_lt hcount)
  have hfuel : 2 * room < 2 * (List.replicate (count + 1) '[' ++ rest).length + 1 := by
    rw [List.length_append, List.length_replicate]
    omega
  obtain ⟨left, hleft⟩ := Reader.value_of_lists hcount rest hfuel
  have hskip : Reader.skip (List.replicate (count + 1) '[' ++ rest) =
      List.replicate (count + 1) '[' ++ rest := rfl
  refine ⟨left, ?_⟩
  unfold read
  split
  · next htext => cases htext
  · rw [hskip, hleft]
    rfl

end Json

end FormSchema
