import FormSchema.Proofs.Sound
import FormSchema.Proofs.Spellings

/-!
# Targets of references

Following a reference and looking up a path in data are two walks of their own:
the one gives up at every null, the other comes to a null and gives up behind it.
They agree on the values other than null.  A reference is read piece by piece, and
undoing its escapes is one pass that amounts to two replacements, one after the
other, so the reference that is written for a path is followed along that path.
-/

namespace FormSchema

/-! ## Escapes as replacements -/

namespace Path

def replaceChar (c : Char) (replacement : List Char) (text : List Char) : List Char :=
  text.flatMap fun d => if d = c then replacement else [d]

def replacePair (first second replacement : Char) : List Char → List Char
  | [] => []
  | [c] => [c]
  | c :: d :: rest =>
      if c = first ∧ d = second then
        replacement :: replacePair first second replacement rest
      else c :: replacePair first second replacement (d :: rest)

/-- What is written for `~` has no `/` that is then replaced in turn. -/
theorem escape_eq_replaceChar (text : List Char) :
    escape text = replaceChar '/' ['~', '1'] (replaceChar '~' ['~', '0'] text) := by
  induction text with
  | nil => rfl
  | cons c rest ih =>
      unfold replaceChar at ih ⊢
      rw [escape, List.flatMap_cons, List.flatMap_append, ← ih]
      by_cases htilde : c = '~'
      · simp [htilde]
      · by_cases hslash : c = '/'
        · simp [hslash]
        · simp [htilde, hslash]

theorem replacePair_cons {first second replacement c : Char} (h : c ≠ first)
    (rest : List Char) :
    replacePair first second replacement (c :: rest) =
      c :: replacePair first second replacement rest := by
  cases rest with
  | nil => rfl
  | cons d rest => rw [replacePair, if_neg fun hpair => h hpair.1]

theorem head?_replacePair {first second replacement c : Char} {text : List Char}
    (h : (replacePair first second replacement text).head? = some c)
    (hc : c ≠ replacement) : text.head? = some c := by
  cases text with
  | nil => cases h
  | cons d rest =>
      cases rest with
      | nil => exact h
      | cons e rest =>
          rw [replacePair] at h
          split at h
          · exact absurd (Option.some.inj h).symm hc
          · exact h

theorem replacePair_of_head? {first second replacement : Char} {rest : List Char}
    (h : rest.head? ≠ some second) :
    replacePair first second replacement (first :: rest) =
      first :: replacePair first second replacement rest := by
  cases rest with
  | nil => rfl
  | cons d rest =>
      rw [replacePair, if_neg fun hpair => h (by rw [hpair.2]; rfl)]

theorem unescape_eq_replacePair (text : List Char) :
    unescape text = replacePair '~' '0' '~' (replacePair '~' '1' '/' text) := by
  fun_induction unescape text with
  | case1 rest ih =>
      rw [replacePair, if_pos ⟨rfl, rfl⟩, replacePair_cons (by decide), ih]
  | case2 rest ih =>
      have hkept : replacePair '~' '1' '/' ('~' :: '0' :: rest) =
          '~' :: '0' :: replacePair '~' '1' '/' rest := by
        rw [replacePair_of_head? (by simp), replacePair_cons (by decide)]
      rw [hkept, replacePair, if_pos ⟨rfl, rfl⟩, ih]
  | case3 c rest hone hzero ih =>
      rw [ih]
      by_cases htilde : c = '~'
      · subst htilde
        have hfirst : rest.head? ≠ some '1' := by
          intro h
          obtain ⟨tail, rfl⟩ := List.head?_eq_some_iff.1 h
          exact hone tail rfl rfl
        have hsecond : (replacePair '~' '1' '/' rest).head? ≠ some '0' := by
          intro h
          obtain ⟨tail, rfl⟩ :=
            List.head?_eq_some_iff.1 (head?_replacePair h (by decide))
          exact hzero tail rfl rfl
        rw [replacePair_of_head? hfirst, replacePair_of_head? hsecond]
      · rw [replacePair_cons htilde, replacePair_cons htilde]
  | case4 => rfl

end Path

/-! ## Following and looking up -/

namespace Json

theorem eq_null_of_lookup_null {segments : List String} {value : Json}
    (h : Json.null.lookup segments = .ok (some value)) : value = .null := by
  cases segments with
  | nil =>
      cases h
      rfl
  | cons segment rest => cases h

end Json

namespace Reference

open FormSchema.Path

variable {document target : Json} {reference : String} {segments : List String}

theorem follow_eq_ok_iff {node : Json} (hnode : node ≠ .null) {parts : List String} :
    follow reference node parts = .ok target ↔
      node.lookup parts = .ok (some target) ∧ target ≠ .null := by
  induction parts generalizing node with
  | nil =>
      rw [follow, Json.lookup, Except.ok.injEq, Except.ok.injEq, Option.some.injEq]
      constructor
      · rintro rfl
        exact ⟨rfl, hnode⟩
      · exact fun h => h.1
  | cons part rest ih =>
      rw [follow, Json.lookup]
      cases node.step part with
      | error misuse => simp
      | ok found =>
          cases found with
          | none => simp
          | some next =>
              by_cases hnull : next = .null
              · subst hnull
                constructor
                · intro h
                  cases h
                · rintro ⟨hlookup, htarget⟩
                  exact absurd (Json.eq_null_of_lookup_null hlookup) htarget
              · cases next with
                | null => exact absurd rfl hnull
                | _ => exact ih hnull

theorem follow_eq_error {node : Json} {parts : List String} {cause : Cause}
    (hshort : ∀ part ∈ parts, Path.isShort part = true)
    (h : follow reference node parts = .error cause) :
    cause = .danglingReference reference := by
  induction parts generalizing node with
  | nil => cases h
  | cons part rest ih =>
      have hstep : ∃ found, node.step part = .ok found := by
        cases node with
        | arr elements => exact exists_element? elements (hshort part (by simp))
        | _ => exact ⟨_, rfl⟩
      obtain ⟨found, hfound⟩ := hstep
      rw [follow, hfound] at h
      have hrest : ∀ other ∈ rest, Path.isShort other = true :=
        fun other hother => hshort other (by simp [hother])
      cases found with
      | none => exact (Except.error.inj h).symm
      | some next =>
          cases next with
          | null => exact (Except.error.inj h).symm
          | _ => exact ih hrest h

theorem parts_eq_replacePair (text : List Char) :
    parts text =
      ((splitAt '/' text).filter fun piece =>
        !piece.isEmpty && piece != ['#']).map fun piece =>
          String.ofList (replacePair '~' '0' '~' (replacePair '~' '1' '/' piece)) := by
  simp only [parts, unescape_eq_replacePair]

def toPath (segments : List String) : List Char :=
  '#' :: segments.flatMap fun segment =>
    '/' :: replaceChar '/' ['~', '1'] (replaceChar '~' ['~', '0'] segment.toList)

theorem toPath_eq_pointer (segments : List String) :
    toPath segments = '#' :: pointer segments := by
  simp only [toPath, pointer, escape_eq_replaceChar]

theorem escape_eq_singleton_iff {text : List Char} :
    escape text = ['#'] ↔ text = ['#'] := by
  constructor
  · intro h
    rw [← unescape_escape text, h]
    rfl
  · rintro rfl
    rfl

theorem parts_toPath (h : ∀ segment ∈ segments, segment ≠ "" ∧ segment ≠ "#") :
    parts (toPath segments) = segments := by
  have hsplit : splitAt '/' (toPath segments) =
      ['#'] :: segments.map fun segment => escape segment.toList := by
    rw [toPath_eq_pointer, pointer, ← List.flatMap_map]
    have hhash : '/' ∉ ['#'] := by decide
    refine splitAt_flatMap hhash fun piece hpiece => ?_
    obtain ⟨segment, _, rfl⟩ := List.mem_map.1 hpiece
    exact not_mem_escape segment.toList
  have hkept : ∀ piece ∈ segments.map (fun segment => escape segment.toList),
      (!piece.isEmpty && piece != ['#']) = true := by
    intro piece hpiece
    obtain ⟨segment, hsegment, rfl⟩ := List.mem_map.1 hpiece
    have hempty := escape_ne_nil (toList_ne_nil (h segment hsegment).1)
    have hhash : escape segment.toList ≠ ['#'] := by
      rw [ne_eq, escape_eq_singleton_iff]
      intro heq
      exact (h segment hsegment).2 (String.toList_inj.1 heq)
    simp [hempty, hhash]
  rw [parts, hsplit, List.filter_cons_of_neg (by decide), List.filter_eq_self.2 hkept,
    List.map_map]
  apply List.map_id''
  intro segment
  simp [unescape_escape]

theorem resolve_of_isInternal (h : isInternal reference.toList = true) :
    resolve document (.str reference) =
      follow reference document (parts reference.toList) := by
  rw [resolve, if_pos h]

theorem resolve_eq_ok_iff (hdocument : document ≠ .null)
    (h : isInternal reference.toList = true) :
    resolve document (.str reference) = .ok target ↔
      document.lookup (parts reference.toList) = .ok (some target) ∧ target ≠ .null := by
  rw [resolve_of_isInternal h]
  exact follow_eq_ok_iff hdocument

theorem resolve_eq_danglingReference (hdocument : document ≠ .null)
    (h : isInternal reference.toList = true)
    (hshort : ∀ part ∈ parts reference.toList, Path.isShort part = true)
    (hnone : ¬ ∃ target, document.lookup (parts reference.toList) = .ok (some target) ∧
      target ≠ .null) :
    resolve document (.str reference) = .error (.danglingReference reference) := by
  cases hresolve : resolve document (.str reference) with
  | ok target => exact absurd ⟨target, (resolve_eq_ok_iff hdocument h).1 hresolve⟩ hnone
  | error cause =>
      rw [resolve_of_isInternal h] at hresolve
      rw [follow_eq_error hshort hresolve]

theorem resolve_toPath (hdocument : document ≠ .null)
    (h : ∀ segment ∈ segments, segment ≠ "" ∧ segment ≠ "#")
    (hlookup : document.lookup segments = .ok (some target)) (htarget : target ≠ .null) :
    resolve document (.str (String.ofList (toPath segments))) = .ok target := by
  have htext : (String.ofList (toPath segments)).toList = toPath segments :=
    String.toList_ofList
  have hinternal : isInternal (String.ofList (toPath segments)).toList = true := by
    rw [htext]
    rfl
  rw [resolve_eq_ok_iff hdocument hinternal, htext, parts_toPath h]
  exact ⟨hlookup, htarget⟩

/-- Over a document other than null, a reference that can be read leads to what is
found along its parts, unless that is null, and it is dangling otherwise.  Its parts
are the pieces between slashes that are neither empty nor `#`, with `~1` and then
`~0` replaced; those of the reference to a path are the path, so what stands at a
path is reached by the reference to it. -/
theorem resolve_iff_lookup {document : Json} (hdocument : document ≠ .null) :
    (∀ reference : String, isInternal reference.toList = true →
      (∀ part ∈ parts reference.toList, Path.isShort part = true) →
      (∀ target, resolve document (.str reference) = .ok target ↔
        document.lookup (parts reference.toList) = .ok (some target) ∧
          target ≠ .null) ∧
      ((¬ ∃ target, document.lookup (parts reference.toList) = .ok (some target) ∧
          target ≠ .null) →
        resolve document (.str reference) = .error (.danglingReference reference))) ∧
    (∀ text : List Char, parts text =
      ((splitAt '/' text).filter fun piece =>
        !piece.isEmpty && piece != ['#']).map fun piece =>
          String.ofList
            (replacePair '~' '0' '~' (replacePair '~' '1' '/' piece))) ∧
    ∀ segments : List String, (∀ segment ∈ segments, segment ≠ "" ∧ segment ≠ "#") →
      parts (toPath segments) = segments ∧
      ∀ target, document.lookup segments = .ok (some target) → target ≠ .null →
        resolve document (.str (String.ofList (toPath segments))) = .ok target := by
  refine ⟨?_, parts_eq_replacePair, ?_⟩
  · intro reference hinternal hshort
    exact ⟨fun _ => resolve_eq_ok_iff hdocument hinternal,
      resolve_eq_danglingReference hdocument hinternal hshort⟩
  · intro segments hsegments
    exact ⟨parts_toPath hsegments, fun _ => resolve_toPath hdocument hsegments⟩

def tangled : Json :=
  .obj [("a/b", .obj [("~1", .arr [.null, .str "x"])])]

theorem resolve_tangled :
    resolve tangled (.str "#/a~1b/~01/1") = .ok (.str "x") ∧
      resolve tangled (.str "#/a~1b/~01/0") =
        .error (.danglingReference "#/a~1b/~01/0") ∧
      resolve tangled (.str (String.ofList (toPath ["a/b", "~1", "1"]))) =
        .ok (.str "x") := by
  have htangled : tangled ≠ .null := nofun
  obtain ⟨hreference, -, hpath⟩ := resolve_iff_lookup htangled
  refine ⟨?_, ?_, ?_⟩
  · exact ((hreference "#/a~1b/~01/1" (by decide) (by decide)).1 _).2
      ⟨rfl, by nofun⟩
  · refine (hreference "#/a~1b/~01/0" (by decide) (by decide)).2 ?_
    have hnull : tangled.lookup (parts "#/a~1b/~01/0".toList) = .ok (some .null) :=
      rfl
    rintro ⟨target, hlookup, htarget⟩
    rw [hnull] at hlookup
    cases hlookup
    exact htarget rfl
  · exact (hpath ["a/b", "~1", "1"] (by decide)).2 _ rfl (by nofun)

end Reference

end FormSchema
