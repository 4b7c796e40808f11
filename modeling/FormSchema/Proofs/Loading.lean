import FormSchema.Proofs.Nesting
import FormSchema.Schema.File

/-!
# What loading a file comes to

Loading a schema file gives a document or a failure that is reported, but for a path
that can not be looked up and three kinds of files: one that is not UTF-8 text, one with
a numeral too long to be read and one whose lists and objects are nested too deeply.
-/

namespace FormSchema

namespace FileState

/-- A file whose bytes are the UTF-8 form of no text. -/
def IsUndecodable (state : FileState) : Prop :=
  ∃ content, state = .file content ∧ ∀ text : String, text.toUTF8 ≠ content

def HasLongRun (state : FileState) : Prop :=
  ∃ text : String, state = .file text.toUTF8 ∧ Text.HasLongRun text.toList

/-- A file of text in which somewhere more than `room` lists and objects are open. -/
def IsNestedBeyond (room : Nat) (state : FileState) : Prop :=
  ∃ text : String, state = .file text.toUTF8 ∧
    Text.overflows .values room text.toList = true

end FileState

namespace SchemaFile

/-! ## The text of a file -/

theorem fromUTF8?_eq_some_iff {content : ByteArray} {text : String} :
    String.fromUTF8? content = some text ↔ text.toUTF8 = content := by
  constructor
  · intro h
    unfold String.fromUTF8? at h
    split at h
    · cases h
      rfl
    · cases h
  · rintro rfl
    rw [String.toUTF8_eq_toByteArray, String.fromUTF8?, dif_pos text.isValidUTF8]
    rfl

theorem fromUTF8?_eq_none_iff {content : ByteArray} :
    String.fromUTF8? content = none ↔ ∀ text : String, text.toUTF8 ≠ content := by
  rw [Option.eq_none_iff_forall_ne_some]
  exact forall_congr' fun text => not_congr fromUTF8?_eq_some_iff

variable {digits text : List Char}

theorem eq_nil_of_prefix_lineFeed {rest : List Char}
    (hdigits : ∀ c ∈ digits, Text.isDigit c = true) (h : digits <+: '\n' :: rest) :
    digits = [] := by
  cases digits with
  | nil => rfl
  | cons d digits =>
      obtain ⟨rfl, -⟩ := List.cons_prefix_cons.1 h
      exact absurd (hdigits '\n' List.mem_cons_self) (by decide)

theorem prefix_of_unifyLines (hdigits : ∀ c ∈ digits, Text.isDigit c = true)
    (h : digits <+: unifyLines text) : digits <+: text := by
  fun_induction unifyLines text generalizing digits with
  | case1 rest _ =>
      rw [eq_nil_of_prefix_lineFeed hdigits h]
      exact List.nil_prefix
  | case2 rest _ _ =>
      rw [eq_nil_of_prefix_lineFeed hdigits h]
      exact List.nil_prefix
  | case3 c rest _ _ ih =>
      cases digits with
      | nil => exact List.nil_prefix
      | cons d digits =>
          obtain ⟨rfl, hrest⟩ := List.cons_prefix_cons.1 h
          have hafter : digits <+: rest :=
            ih (fun c hc => hdigits c (List.mem_cons_of_mem d hc)) hrest
          exact List.cons_prefix_cons.2 ⟨rfl, hafter⟩
  | case4 => exact h

theorem infix_of_unifyLines (hdigits : ∀ c ∈ digits, Text.isDigit c = true)
    (h : digits <:+: unifyLines text) : digits <:+: text := by
  fun_induction unifyLines text with
  | case1 rest ih =>
      rcases List.infix_cons_iff.1 h with hprefix | hrest
      · rw [eq_nil_of_prefix_lineFeed hdigits hprefix]
        exact List.nil_infix
      · exact List.infix_cons (List.infix_cons (ih hrest))
  | case2 rest _ ih =>
      rcases List.infix_cons_iff.1 h with hprefix | hrest
      · rw [eq_nil_of_prefix_lineFeed hdigits hprefix]
        exact List.nil_infix
      · exact List.infix_cons (ih hrest)
  | case3 c rest hpair hreturn ih =>
      rcases List.infix_cons_iff.1 h with hprefix | hrest
      · rw [← unifyLines.eq_3 c rest hpair hreturn] at hprefix
        exact (prefix_of_unifyLines hdigits hprefix).isInfix
      · exact List.infix_cons (ih hrest)
  | case4 => exact h

theorem hasLongRun_of_unifyLines (h : Text.HasLongRun (unifyLines text)) :
    Text.HasLongRun text := by
  obtain ⟨digits, hinfix, hlong, hdigits⟩ := h
  exact ⟨digits, infix_of_unifyLines hdigits hinfix, hlong, hdigits⟩

theorem unifyLines_of_digits (hdigits : ∀ c ∈ text, Text.isDigit c = true) :
    unifyLines text = text := by
  fun_induction unifyLines text with
  | case1 rest _ => exact absurd (hdigits '\r' List.mem_cons_self) (by decide)
  | case2 rest _ _ => exact absurd (hdigits '\r' List.mem_cons_self) (by decide)
  | case3 c rest _ _ ih => rw [ih fun d hd => hdigits d (List.mem_cons_of_mem c hd)]
  | case4 => rfl

theorem overflows_unifyLines (region : Text.Region) (room : Nat) :
    Text.overflows region room (unifyLines text) = Text.overflows region room text := by
  fun_induction unifyLines text generalizing region room with
  | case1 rest ih => cases region <;> exact ih _ room
  | case2 rest _ ih => cases region <;> exact ih _ room
  | case3 c rest _ _ ih => cases region <;> simp only [Text.overflows, ih]
  | case4 => rfl

theorem unifyLines_of_lists (count : Nat) (text : List Char) :
    unifyLines (List.replicate count '[' ++ text) =
      List.replicate count '[' ++ unifyLines text := by
  induction count with
  | zero => rfl
  | succ count ih =>
      change '[' :: unifyLines (List.replicate count '[' ++ text) = _
      rw [ih]
      rfl

/-! ## The document of a text -/

variable {room : Nat}

theorem error_of_ofText {error : LoadError} (h : ofText room text = .error error) :
    error ≠ .notText ∧ error ≠ .unreachable := by
  unfold ofText at h
  split at h
  · cases h
  all_goals
    cases h
    exact ⟨nofun, nofun⟩

theorem hasLongRun_of_ofText (h : ofText room text = .error .longNumeral) :
    Text.HasLongRun text := by
  unfold ofText at h
  split at h
  · cases h
  · cases h
  · next rest hread =>
    have hstop := Json.read_stop hread
    exact (hstop.long rfl).hasLongRun hstop.suffix
  · cases h
  · cases h

theorem overflows_of_ofText (h : ofText room text = .error .tooDeep) :
    Text.overflows .values room text = true := by
  unfold ofText at h
  split at h
  · cases h
  · cases h
  · cases h
  · next rest hread => exact Json.overflows_of_read hread rfl
  · cases h

theorem ofText_of_long (hdigits : ∀ c ∈ digits, Text.isDigit c = true)
    (hzero : digits.head? ≠ some '0') (hlong : Text.maxDigits < digits.length)
    (room : Nat) : ofText room digits = .error .longNumeral := by
  rw [ofText, Json.read_of_long hdigits hzero hlong]

theorem ofText_of_lists {count : Nat} (hcount : room < count) (text : List Char) :
    ofText room (List.replicate count '[' ++ text) = .error .tooDeep := by
  obtain ⟨left, hread⟩ := Json.read_of_lists hcount text
  rw [ofText, hread]

/-! ## Loading -/

variable {path : String} {state : FileState}

theorem load_toUTF8 (room : Nat) (path text : String) :
    load room path (.file text.toUTF8) = ofText room (unifyLines text.toList) := by
  rw [load, fromUTF8?_eq_some_iff.2 rfl]

theorem load_of_isUndecodable (room : Nat) (path : String) (h : state.IsUndecodable) :
    load room path state = .error .notText := by
  obtain ⟨content, rfl, hnone⟩ := h
  rw [load, fromUTF8?_eq_none_iff.2 hnone]

theorem load_unreported {error : LoadError} (h : load room path state = .error error)
    (hreported : error.isReported = false) :
    (state = .unreachable ∧ error = .unreachable) ∨
    (state.IsUndecodable ∧ error = .notText) ∨
    ∃ text : String, state = .file text.toUTF8 ∧
      ofText room (unifyLines text.toList) = .error error := by
  cases state with
  | absent =>
      cases h
      cases hreported
  | unreachable =>
      cases h
      exact .inl ⟨rfl, rfl⟩
  | directory =>
      cases h
      cases hreported
  | file content =>
      right
      by_cases hundecodable : (FileState.file content).IsUndecodable
      · rw [load_of_isUndecodable room path hundecodable] at h
        cases h
        exact .inl ⟨hundecodable, rfl⟩
      · obtain ⟨text, rfl⟩ : ∃ text : String, text.toUTF8 = content := by
          by_contra hnone
          exact hundecodable ⟨content, rfl, fun text htext => hnone ⟨text, htext⟩⟩
        rw [load_toUTF8] at h
        exact .inr ⟨text, rfl, h⟩

theorem load_eq_unreachable_iff :
    load room path state = .error .unreachable ↔ state = .unreachable := by
  constructor
  · intro h
    obtain ⟨hstate, -⟩ | ⟨-, herror⟩ | ⟨text, -, htext⟩ := load_unreported h rfl
    · exact hstate
    · cases herror
    · exact absurd rfl (error_of_ofText htext).2
  · rintro rfl
    rfl

theorem load_eq_notText_iff :
    load room path state = .error .notText ↔ state.IsUndecodable := by
  constructor
  · intro h
    obtain ⟨-, herror⟩ | ⟨hstate, -⟩ | ⟨text, -, htext⟩ := load_unreported h rfl
    · cases herror
    · exact hstate
    · exact absurd rfl (error_of_ofText htext).1
  · exact load_of_isUndecodable room path

theorem hasLongRun_of_load (h : load room path state = .error .longNumeral) :
    state.HasLongRun := by
  obtain ⟨-, herror⟩ | ⟨-, herror⟩ | ⟨text, hstate, htext⟩ := load_unreported h rfl
  · cases herror
  · cases herror
  · exact ⟨text, hstate, hasLongRun_of_unifyLines (hasLongRun_of_ofText htext)⟩

theorem isNestedBeyond_of_load (h : load room path state = .error .tooDeep) :
    state.IsNestedBeyond room := by
  obtain ⟨-, herror⟩ | ⟨-, herror⟩ | ⟨text, hstate, htext⟩ := load_unreported h rfl
  · cases herror
  · cases herror
  · refine ⟨text, hstate, ?_⟩
    rw [← overflows_unifyLines]
    exact overflows_of_ofText htext

theorem load_of_long (hdigits : ∀ c ∈ digits, Text.isDigit c = true)
    (hzero : digits.head? ≠ some '0') (hlong : Text.maxDigits < digits.length) :
    load room path (.file (String.ofList digits).toUTF8) = .error .longNumeral := by
  rw [load_toUTF8, String.toList_ofList, unifyLines_of_digits hdigits,
    ofText_of_long hdigits hzero hlong]

theorem load_of_lists {count : Nat} (hcount : room < count) (text : List Char) :
    load room path (.file (String.ofList (List.replicate count '[' ++ text)).toUTF8) =
      .error .tooDeep := by
  rw [load_toUTF8, String.toList_ofList, unifyLines_of_lists, ofText_of_lists hcount]

theorem load_reported (hreachable : state ≠ .unreachable)
    (hdecodable : ¬ state.IsUndecodable) (hshort : ¬ state.HasLongRun)
    (hflat : ¬ state.IsNestedBeyond room) :
    (∃ document, load room path state = .ok document) ∨
      ∃ error, load room path state = .error error ∧ error.isReported = true := by
  cases hload : load room path state with
  | ok document => exact .inl ⟨document, rfl⟩
  | error error =>
      refine .inr ⟨error, rfl, ?_⟩
      cases error with
      | unreachable => exact absurd (load_eq_unreachable_iff.1 hload) hreachable
      | notText => exact absurd (load_eq_notText_iff.1 hload) hdecodable
      | longNumeral => exact absurd (hasLongRun_of_load hload) hshort
      | tooDeep => exact absurd (isNestedBeyond_of_load hload) hflat
      | _ => rfl

/-- A missing file, a directory and a file of text without too many digits in a row or
too many lists and objects within each other give a document or a failure that is
reported.  A path that can not be looked up and a file that is no text never are
reported; digits and depth go unreported only where there are too many, and do so where
there is nothing else in a file or the file starts with so many lists. -/
theorem load_document_or_reported (room : Nat) (path : String) (state : FileState) :
    (state ≠ .unreachable → ¬ state.IsUndecodable → ¬ state.HasLongRun →
      ¬ state.IsNestedBeyond room →
      (∃ document, load room path state = .ok document) ∨
        ∃ error, load room path state = .error error ∧ error.isReported = true) ∧
    (load room path state = .error .unreachable ↔ state = .unreachable) ∧
    (load room path state = .error .notText ↔ state.IsUndecodable) ∧
    (load room path state = .error .longNumeral → state.HasLongRun) ∧
    (load room path state = .error .tooDeep → state.IsNestedBeyond room) ∧
    (∀ digits : List Char, (∀ c ∈ digits, Text.isDigit c = true) →
      digits.head? ≠ some '0' → Text.maxDigits < digits.length →
      state = .file (String.ofList digits).toUTF8 →
      load room path state = .error .longNumeral) ∧
    ∀ (count : Nat) (text : List Char), room < count →
      state = .file (String.ofList (List.replicate count '[' ++ text)).toUTF8 →
      load room path state = .error .tooDeep := by
  refine ⟨load_reported, load_eq_unreachable_iff, load_eq_notText_iff,
    hasLongRun_of_load, isNestedBeyond_of_load, ?_, ?_⟩
  · rintro digits hdigits hzero hlong rfl
    exact load_of_long hdigits hzero hlong
  · rintro count text hcount rfl
    exact load_of_lists hcount text

def braces : FileState := .file "\x7b\r\n\x7d".toUTF8

theorem load_braces :
    braces ≠ .unreachable ∧ ¬ braces.IsUndecodable ∧ ¬ braces.HasLongRun ∧
      ¬ braces.IsNestedBeyond 1 ∧
      ((∃ document, load 1 "schema.json" braces = .ok document) ∨
        ∃ error, load 1 "schema.json" braces = .error error ∧
          error.isReported = true) := by
  have hreachable : braces ≠ .unreachable := nofun
  have hdecodable : ¬ braces.IsUndecodable := by
    rintro ⟨content, hcontent, hnone⟩
    cases hcontent
    exact hnone _ rfl
  have hbraces : ∀ text : String, braces = .file text.toUTF8 → text = "\x7b\r\n\x7d" := by
    intro text htext
    have hsame := fromUTF8?_eq_some_iff.2 (FileState.file.inj htext).symm
    rw [fromUTF8?_eq_some_iff.2 rfl] at hsame
    exact (Option.some.inj hsame).symm
  have hshort : ¬ braces.HasLongRun := by
    rintro ⟨text, htext, digits, hinfix, hlong, -⟩
    rw [hbraces text htext] at hinfix
    have hfour : digits.length ≤ 4 := hinfix.length_le
    exact absurd (Nat.lt_of_lt_of_le hlong hfour) (by decide)
  have hflat : ¬ braces.IsNestedBeyond 1 := by
    rintro ⟨text, htext, hoverflows⟩
    rw [hbraces text htext] at hoverflows
    cases hoverflows
  exact ⟨hreachable, hdecodable, hshort, hflat,
    (load_document_or_reported 1 "schema.json" braces).1 hreachable hdecodable hshort
      hflat⟩

/-- No text has a byte of all ones, so no room is enough for every file. -/
theorem load_byte_not_reported :
    ¬ ∃ room, ∀ (path : String) (state : FileState),
      (∃ document, load room path state = .ok document) ∨
        ∃ error, load room path state = .error error ∧ error.isReported = true := by
  rintro ⟨room, h⟩
  have hnone : String.fromUTF8? ⟨#[255]⟩ = none := by decide
  have hload : load room "schema.json" (.file ⟨#[255]⟩) = .error .notText := by
    rw [load, hnone]
  obtain ⟨document, hdocument⟩ | ⟨error, herror, hreported⟩ :=
    h "schema.json" (.file ⟨#[255]⟩)
  · rw [hload] at hdocument
    cases hdocument
  · rw [hload] at herror
    cases herror
    cases hreported

end SchemaFile

end FormSchema
