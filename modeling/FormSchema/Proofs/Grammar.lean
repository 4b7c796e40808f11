import FormSchema.Proofs.Spellings

/-!
# The grammar of dotted texts

A dotted text is a concatenation of tokens, each of which stands for a segment or,
as a dot by itself, for none.  The grammar leaves open how a text is cut, and the
reader takes the longest token each time.  Both accept the same texts with the same
segments: only a name can be cut short, and what is left of a name starts no token.
So where the reader stops, the longest prefix that is a concatenation of tokens ends.
-/

namespace FormSchema.Path

open FormSchema.Text

/-! ## The grammar -/

/-- What can stand in quotes, with the characters it stands for. -/
inductive Quotes : List Char → List Char → Prop
  | nil : Quotes [] []
  | plain {c : Char} {body meant : List Char} (hquote : c ≠ '\x27')
      (hbackslash : c ≠ '\\') (rest : Quotes body meant) :
      Quotes (c :: body) (c :: meant)
  | escaped {c : Char} {body meant : List Char} (hline : c ≠ '\n')
      (rest : Quotes body meant) : Quotes ('\\' :: c :: body) (c :: meant)

/-- The tokens, with the segments that they stand for. -/
inductive Written : List Char → Option String → Prop
  | dot : Written ['.'] none
  | name {run : List Char} (hne : run ≠ []) (hrun : ∀ c ∈ run, c ∉ ['.', '[', ']']) :
      Written ('.' :: run) (some (String.ofList run))
  | quoted {body meant : List Char} (hbody : Quotes body meant) :
      Written ('[' :: '\x27' :: (body ++ ['\x27', ']'])) (some (String.ofList meant))
  | index {before core after : List Char}
      (hne : before ++ core ++ after ≠ [])
      (htext : ∀ c ∈ before ++ core ++ after, c ∉ ['[', ']', '\x27'])
      (hblank : ∀ c ∈ before ++ after, isBlank c = true)
      (htrimmed : isTrimmed core = true) :
      Written ('[' :: (before ++ core ++ after ++ [']']))
        (some (String.ofList core))

/-- The concatenations of tokens, with the segments that they stand for. -/
inductive Dotted : List Char → List String → Prop
  | nil : Dotted [] []
  | cons {token rest : List Char} {segment : Option String} {segments : List String}
      (head : Written token segment) (tail : Dotted rest segments) :
      Dotted (token ++ rest) (segment.toList ++ segments)

/-! ## Blanks around a text -/

theorem isTrimmed_iff {text : List Char} :
    isTrimmed text = true ↔
      text.head?.any isBlank = false ∧ text.reverse.head?.any isBlank = false := by
  rw [isTrimmed, Bool.and_eq_true, Bool.not_eq_true', Bool.not_eq_true',
    List.head?_reverse]

theorem strip_append {before core after : List Char}
    (hblank : ∀ c ∈ before ++ after, isBlank c = true)
    (htrimmed : isTrimmed core = true) :
    strip (before ++ core ++ after) = core := by
  have hbefore : ∀ c ∈ before, isBlank c = true := fun c hc =>
    hblank c (List.mem_append_left _ hc)
  have hafter : ∀ c ∈ after.reverse, isBlank c = true := fun c hc =>
    hblank c (List.mem_append_right _ (List.mem_reverse.1 hc))
  rw [strip, List.append_assoc, List.dropWhile_append_of_pos hbefore]
  obtain ⟨hfirst, hlast⟩ := isTrimmed_iff.1 htrimmed
  cases core with
  | nil =>
      have hall : ∀ c ∈ after, isBlank c = true := fun c hc =>
        hafter c (List.mem_reverse.2 hc)
      rw [← List.append_nil ([] ++ after), List.nil_append,
        List.dropWhile_append_of_pos hall]
      rfl
  | cons c core =>
      have hkept : (c :: core ++ after).dropWhile isBlank = c :: core ++ after :=
        dropWhile_of_head? hfirst
      rw [hkept, List.reverse_append, List.dropWhile_append_of_pos hafter,
        dropWhile_of_head? hlast, List.reverse_reverse]

theorem head?_dropWhile {α : Type} (test : α → Bool) (values : List α) :
    (values.dropWhile test).head?.any test = false := by
  have hnot := List.head?_dropWhile_not test values
  cases hhead : (values.dropWhile test).head? with
  | none => rfl
  | some value =>
      rw [hhead] at hnot
      exact hnot

theorem all_takeWhile {α : Type} {test : α → Bool} {values : List α} {value : α}
    (h : value ∈ values.takeWhile test) : test value = true :=
  List.all_eq_true.1 List.all_takeWhile value h

theorem exists_strip (text : List Char) :
    ∃ before after, text = before ++ strip text ++ after ∧
      (∀ c ∈ before ++ after, isBlank c = true) ∧ isTrimmed (strip text) = true := by
  obtain ⟨rest, hrest⟩ : ∃ rest, rest = text.dropWhile isBlank := ⟨_, rfl⟩
  have hstrip : (strip text).reverse = rest.reverse.dropWhile isBlank := by
    rw [strip, hrest, List.reverse_reverse]
  have hsplit : rest = strip text ++ (rest.reverse.takeWhile isBlank).reverse := by
    rw [← List.reverse_inj, List.reverse_append, List.reverse_reverse, hstrip,
      List.takeWhile_append_dropWhile]
  refine ⟨text.takeWhile isBlank, (rest.reverse.takeWhile isBlank).reverse, ?_, ?_, ?_⟩
  · rw [List.append_assoc, ← hsplit, hrest, List.takeWhile_append_dropWhile]
  · intro c hc
    rcases List.mem_append.1 hc with hc | hc
    · exact all_takeWhile hc
    · exact all_takeWhile (List.mem_reverse.1 hc)
  · rw [isTrimmed_iff, hstrip]
    refine ⟨?_, head?_dropWhile isBlank _⟩
    have hfirst := head?_dropWhile isBlank text
    rw [← hrest, hsplit] at hfirst
    cases hcore : strip text with
    | nil => rfl
    | cons c core =>
        rw [hcore] at hfirst
        exact hfirst

/-! ## One token -/

theorem quoted?_of_quotes {body meant : List Char} (h : Quotes body meant)
    (rest : List Char) :
    quoted? (body ++ '\x27' :: ']' :: rest) = some (meant, rest) := by
  induction h with
  | nil => rfl
  | plain hquote hbackslash _ ih => simp [quoted?, ih]
  | escaped hline _ ih => simp [quoted?, hline, ih]

theorem exists_quotes_of_quoted? {text meant rest : List Char}
    (h : quoted? text = some (meant, rest)) :
    ∃ body, Quotes body meant ∧ text = body ++ '\x27' :: ']' :: rest := by
  fun_induction quoted? text generalizing meant rest with
  | case1 => cases h
  | case2 after =>
      cases h
      exact ⟨[], .nil, rfl⟩
  | case3 => cases h
  | case4 => cases h
  | case5 => cases h
  | case6 c after hline ih =>
      obtain ⟨found, hfound, heq⟩ := Option.map_eq_some_iff.1 h
      cases heq
      obtain ⟨body, hbody, rfl⟩ := ih hfound
      exact ⟨'\\' :: c :: body, .escaped hline hbody, rfl⟩
  | case7 c after hquote hbackslash ih =>
      obtain ⟨found, hfound, heq⟩ := Option.map_eq_some_iff.1 h
      cases heq
      obtain ⟨body, hbody, rfl⟩ := ih hfound
      exact ⟨c :: body, .plain hquote hbackslash hbody, rfl⟩

theorem inName_iff {c : Char} : inName c = true ↔ c ∉ ['.', '[', ']'] := by
  simp [inName, and_assoc]

theorem inIndex_iff {c : Char} : inIndex c = true ↔ c ∉ ['[', ']', '\x27'] := by
  simp [inIndex, and_assoc]

theorem exists_written_of_token? {text rest : List Char} {token : Token}
    (h : token? text = some (token, rest)) :
    ∃ first, Written first token.segment? ∧ text = first ++ rest := by
  unfold token? at h
  split at h
  · next after =>
      cases h
      have hall : ∀ c ∈ after.takeWhile inName, c ∉ ['.', '[', ']'] :=
        fun c hc => inName_iff.1 (all_takeWhile hc)
      refine ⟨'.' :: after.takeWhile inName, ?_, ?_⟩
      · cases hrun : after.takeWhile inName with
        | nil => exact .dot
        | cons c run =>
            rw [hrun] at hall
            exact .name (List.cons_ne_nil c run) hall
      · rw [List.cons_append, List.takeWhile_append_dropWhile]
  · next after =>
      obtain ⟨found, hfound, heq⟩ := Option.map_eq_some_iff.1 h
      cases heq
      obtain ⟨body, hbody, rfl⟩ := exists_quotes_of_quoted? hfound
      exact ⟨_, .quoted hbody, by simp⟩
  · next after _ =>
      split at h
      · next c run left hrun hleft =>
          cases h
          have hall : ∀ d ∈ c :: run, d ∉ ['[', ']', '\x27'] := by
            rw [← hrun]
            exact fun d hd => inIndex_iff.1 (all_takeWhile hd)
          have hafter : after = c :: run ++ ']' :: rest := by
            rw [← hrun, ← hleft, List.takeWhile_append_dropWhile]
          obtain ⟨before, behind, hsplit, hblank, htrimmed⟩ := exists_strip (c :: run)
          refine ⟨'[' :: (before ++ strip (c :: run) ++ behind ++ [']']),
            .index ?_ ?_ hblank htrimmed, ?_⟩
          · rw [← hsplit]
            exact List.cons_ne_nil c run
          · rw [← hsplit]
            exact hall
          · rw [← hsplit, hafter]
            simp
      · cases h
  · cases h

theorem exists_token?_name {run : List Char} (hrun : ∀ c ∈ run, inName c = true)
    (rest : List Char) :
    ∃ longer left, token? ('.' :: (run ++ rest)) = some (.name longer, left) ∧
      left.length ≤ rest.length ∧ (EndsName rest → left = rest ∧ longer = run) := by
  have hread : token? ('.' :: (run ++ rest)) =
      some (.name ((run ++ rest).takeWhile inName), (run ++ rest).dropWhile inName) := rfl
  refine ⟨_, _, hread, ?_, ?_⟩
  · rw [List.dropWhile_append_of_pos hrun]
    exact (List.dropWhile_sublist inName).length_le
  · intro hrest
    have hsame := hread.symm.trans (token?_name hrun hrest)
    simp only [Option.some.injEq, Prod.mk.injEq, Token.name.injEq] at hsame
    exact ⟨hsame.2, hsame.1⟩

/-- A token of the grammar is read as it stands, unless the text goes on like a
name; then the token that is read is longer. -/
theorem exists_token?_of_written {first : List Char} {segment : Option String}
    (h : Written first segment) (rest : List Char) :
    ∃ token left, token? (first ++ rest) = some (token, left) ∧
      left.length ≤ rest.length ∧
      (EndsName rest → left = rest ∧ token.segment? = segment) := by
  cases h with
  | dot =>
      have hnone : ∀ c ∈ ([] : List Char), inName c = true := by simp
      obtain ⟨longer, left, hread, hlength, hends⟩ := exists_token?_name hnone rest
      refine ⟨.name longer, left, hread, hlength, fun hrest => ?_⟩
      obtain ⟨hleft, rfl⟩ := hends hrest
      exact ⟨hleft, rfl⟩
  | @name run hne hrun =>
      obtain ⟨longer, left, hread, hlength, hends⟩ :=
        exists_token?_name (fun c hc => inName_iff.2 (hrun c hc)) rest
      refine ⟨.name longer, left, hread, hlength, fun hrest => ?_⟩
      obtain ⟨hleft, rfl⟩ := hends hrest
      refine ⟨hleft, ?_⟩
      cases longer with
      | nil => exact absurd rfl hne
      | cons c run => rfl
  | @quoted body meant hbody =>
      have hread := quoted?_of_quotes hbody rest
      refine ⟨.quoted meant, rest, ?_, Nat.le_refl _, fun _ => ⟨rfl, rfl⟩⟩
      simp [token?, hread]
  | @index before core after hne htext hblank htrimmed =>
      have hall : (before ++ core ++ after).all inIndex = true :=
        List.all_eq_true.2 fun c hc => inIndex_iff.2 (htext c hc)
      have hread := token?_index hne hall rest
      refine ⟨.index (before ++ core ++ after), rest, ?_, Nat.le_refl _,
        fun _ => ⟨rfl, ?_⟩⟩
      · rw [List.cons_append, List.append_assoc]
        exact hread
      · rw [Token.segment?, strip_append hblank htrimmed]

/-! ## All tokens of a text -/

theorem Written.exists_cons {first : List Char} {segment : Option String}
    (h : Written first segment) : ∃ c rest, first = c :: rest ∧ inName c = false := by
  cases h with
  | dot => exact ⟨_, _, rfl, rfl⟩
  | name => exact ⟨_, _, rfl, rfl⟩
  | quoted => exact ⟨_, _, rfl, rfl⟩
  | index => exact ⟨_, _, rfl, rfl⟩

namespace Dotted

variable {text rest left : List Char} {segments : List String}

theorem endsName (h : Dotted text segments) : EndsName text := by
  cases h with
  | nil => exact .inl rfl
  | cons head _ =>
      obtain ⟨c, after, rfl, hc⟩ := head.exists_cons
      exact .inr ⟨c, _, rfl, hc⟩

theorem exists_tokens (h : Dotted text segments) :
    ∃ found, tokens text = .ok found ∧ found.filterMap Token.segment? = segments := by
  induction h with
  | nil => exact ⟨[], tokens_nil, rfl⟩
  | @cons first rest segment segments head tail ih =>
      obtain ⟨found, htokens, rfl⟩ := ih
      obtain ⟨token, left, hread, _, hends⟩ := exists_token?_of_written head rest
      obtain ⟨rfl, rfl⟩ := hends tail.endsName
      refine ⟨token :: found, ?_, ?_⟩
      · rw [tokens_of_token? hread, htokens]
        rfl
      · rw [List.filterMap_cons]
        cases token.segment? <;> rfl

end Dotted

theorem dotted_of_tokens {text : List Char} {found : List Token}
    (h : tokens text = .ok found) : Dotted text (found.filterMap Token.segment?) := by
  induction text using tokens.induct generalizing found with
  | case1 =>
      rw [tokens_nil] at h
      cases h
      exact .nil
  | case2 text hne hnone =>
      rw [tokens_of_token?_eq_none hne hnone] at h
      cases h
  | case3 text _ token rest hread _ following hfollowing ih =>
      rw [tokens_of_token? hread, hfollowing] at h
      cases h
      obtain ⟨first, hfirst, rfl⟩ := exists_written_of_token? hread
      have hall := Dotted.cons hfirst (ih hfollowing)
      rw [List.filterMap_cons]
      cases hsegment : token.segment? with
      | none => rwa [hsegment] at hall
      | some segment => rwa [hsegment] at hall
  | case4 text _ token rest hread _ left hleft =>
      rw [tokens_of_token? hread, hleft] at h
      cases h

theorem exists_dotted_of_tokens {text left : List Char}
    (h : tokens text = .error left) :
    ∃ front segments, text = front ++ left ∧ Dotted front segments := by
  induction text using tokens.induct generalizing left with
  | case1 =>
      rw [tokens_nil] at h
      cases h
  | case2 text hne hnone =>
      rw [tokens_of_token?_eq_none hne hnone] at h
      cases h
      exact ⟨[], [], rfl, .nil⟩
  | case3 text _ token rest hread _ following hfollowing =>
      rw [tokens_of_token? hread, hfollowing] at h
      cases h
  | case4 text _ token rest hread _ remaining hremaining ih =>
      rw [tokens_of_token? hread, hremaining] at h
      cases h
      obtain ⟨first, hfirst, rfl⟩ := exists_written_of_token? hread
      obtain ⟨front, segments, rfl, hfront⟩ := ih hremaining
      exact ⟨first ++ front, _, (List.append_assoc _ _ _).symm, .cons hfirst hfront⟩

theorem Dotted.length_le {front rest left : List Char} {segments : List String}
    (hfront : Dotted front segments) (h : tokens (front ++ rest) = .error left) :
    left.length ≤ rest.length := by
  have hsuffix : ∀ {text : List Char}, tokens text = .error left →
      left.length ≤ text.length := by
    intro text htext
    obtain ⟨before, _, rfl, _⟩ := exists_dotted_of_tokens htext
    simp
  induction hfront with
  | nil => exact hsuffix h
  | @cons first following segment segments head tail ih =>
      rw [List.append_assoc] at h
      obtain ⟨token, behind, hread, hlength, hends⟩ :=
        exists_token?_of_written head (following ++ rest)
      have hbehind : tokens behind = .error left := by
        rw [tokens_of_token? hread] at h
        cases htokens : tokens behind with
        | ok found =>
            rw [htokens] at h
            cases h
        | error other =>
            rw [htokens] at h
            cases h
            rfl
      cases tail with
      | nil =>
          -- The last token may be the beginning of a longer one.
          exact Nat.le_trans (hsuffix hbehind) hlength
      | cons next _ =>
          obtain ⟨c, after, rfl, hc⟩ := next.exists_cons
          obtain ⟨rfl, _⟩ := hends (.inr ⟨c, _, rfl, hc⟩)
          exact ih hbehind

theorem dottedSegments_eq_ok_iff {text : List Char} {segments : List String} :
    dottedSegments text = .ok segments ↔ Dotted text segments := by
  constructor
  · intro h
    unfold dottedSegments at h
    split at h
    · next found hfound =>
        cases h
        exact dotted_of_tokens hfound
    · cases h
  · intro h
    obtain ⟨found, hfound, rfl⟩ := h.exists_tokens
    simp only [dottedSegments, hfound]

/-- A text that is no concatenation of tokens is refused where its longest prefix
that is one ends. -/
theorem exists_front_of_not_dotted {text : List Char}
    (h : ¬ ∃ segments, Dotted text segments) :
    ∃ front segments, dottedSegments text = .error front.length ∧
      front <+: text ∧ Dotted front segments ∧
      ∀ other others, other <+: text → Dotted other others →
        other.length ≤ front.length := by
  cases htokens : tokens text with
  | ok found => exact absurd ⟨_, dotted_of_tokens htokens⟩ h
  | error left =>
      obtain ⟨front, segments, rfl, hfront⟩ := exists_dotted_of_tokens htokens
      refine ⟨front, segments, ?_, List.prefix_append _ _, hfront, ?_⟩
      · simp [dottedSegments, htokens]
      · rintro other others ⟨rest, heq⟩ hother
        rw [← heq] at htokens
        have hleft := hother.length_le htokens
        have hlength := congrArg List.length heq
        simp only [List.length_append] at hlength
        omega

def behindTokens : Nat → List Char → List Char
  | 0, text => text
  | count + 1, text =>
      match token? text with
      | none => text
      | some (_, rest) => behindTokens count rest

theorem token?_behindTokens {count : Nat} {text : List Char}
    (h : text.length ≤ count) : token? (behindTokens count text) = none := by
  induction count generalizing text with
  | zero =>
      rw [List.length_eq_zero_iff.1 (Nat.le_zero.1 h)]
      rfl
  | succ count ih =>
      rw [behindTokens]
      cases hread : token? text with
      | none => exact hread
      | some found =>
          have hlength := length_of_token? hread
          exact ih (by omega)

end FormSchema.Path

namespace FormSchema.Spelling

open FormSchema.Path

theorem ofLiteral_of_head? {text : List Char} (hne : text ≠ [])
    (hslash : text.head? ≠ some '/') :
    ofLiteral text =
      match dottedSegments (dotted text) with
      | .ok segments => .ok segments
      | .error position =>
          .error ⟨.malformedPath position, some (String.ofList (dotted text))⟩ := by
  unfold ofLiteral
  split
  · exact absurd rfl hne
  · exact absurd rfl hslash
  · rfl

/-- A literal that is no pointer is read as a path exactly if it is a dotted text,
and as the path that this stands for.  Any other is refused at the end of its
longest prefix that is a dotted text.  No token is left to read after as many as
the literal has characters. -/
theorem path_literal_dotted_iff {text : String} (hne : text ≠ "")
    (hslash : text.toList.head? ≠ some '/') :
    (∀ segments, (literal text).path = .ok segments ↔
      Dotted (dotted text.toList) segments) ∧
    ((¬ ∃ segments, Dotted (dotted text.toList) segments) →
      ∃ front segments,
        (literal text).path =
          .error ⟨.malformedPath front.length,
            some (String.ofList (dotted text.toList))⟩ ∧
        front <+: dotted text.toList ∧ Dotted front segments ∧
        ∀ other others, other <+: dotted text.toList → Dotted other others →
          other.length ≤ front.length) ∧
    token? (behindTokens (dotted text.toList).length (dotted text.toList)) = none := by
  have hpath : (literal text).path = ofLiteral text.toList := rfl
  rw [hpath, ofLiteral_of_head? (toList_ne_nil hne) hslash]
  refine ⟨fun segments => ?_, fun hnot => ?_, token?_behindTokens (Nat.le_refl _)⟩
  · rw [← dottedSegments_eq_ok_iff]
    cases dottedSegments (dotted text.toList) with
    | ok found => simp
    | error position => simp
  · obtain ⟨front, segments, hread, hprefix, hfront, hlongest⟩ :=
      exists_front_of_not_dotted hnot
    rw [hread]
    exact ⟨front, segments, rfl, hprefix, hfront, hlongest⟩

theorem path_of_bracketed_literals :
    (literal "a[ 0\t]['it\\'s]']..b'").path = .ok ["a", "0", "it's]", "b'"] ∧
    ∃ front segments, (literal "a['\\\\'][b]['c\\']").path =
        .error ⟨.malformedPath front.length, some ".a['\\\\'][b]['c\\']"⟩ ∧
      Dotted front segments ∧ front.length = 11 := by
  constructor
  · have hdotted : Dotted (dotted "a[ 0\t]['it\\'s]']..b'".toList)
        ["a", "0", "it's]", "b'"] :=
      .cons (@Written.name ['a'] (by decide) (by simp))
        (.cons (@Written.index [' '] ['0'] ['\t'] (by decide) (by simp) (by simp; decide) rfl)
          (.cons (.quoted (.plain (by decide) (by decide) (.plain (by decide) (by decide)
              (.escaped (by decide) (.plain (by decide) (by decide)
                (.plain (by decide) (by decide) .nil))))))
            (.cons .dot (.cons (@Written.name ['b', '\x27'] (by decide) (by simp))
              .nil))))
    exact ((path_literal_dotted_iff (by decide) (by decide)).1 _).2 hdotted
  · have hname : token? (dotted "a['\\\\'][b]['c\\']".toList) =
        some (.name ['a'], "['\\\\'][b]['c\\']".toList) := rfl
    have hquoted : token? "['\\\\'][b]['c\\']".toList =
        some (.quoted ['\\'], "[b]['c\\']".toList) := rfl
    have hindex : token? "[b]['c\\']".toList =
        some (.index ['b'], "['c\\']".toList) := rfl
    have hopen : token? "['c\\']".toList = none := rfl
    have hread : (literal "a['\\\\'][b]['c\\']").path =
        .error ⟨.malformedPath 11, some ".a['\\\\'][b]['c\\']"⟩ := by
      change ofLiteral "a['\\\\'][b]['c\\']".toList = _
      rw [ofLiteral_of_head? (by decide) (by decide), dottedSegments,
        tokens_of_token? hname, tokens_of_token? hquoted, tokens_of_token? hindex,
        tokens_of_token?_eq_none (by decide) hopen]
      rfl
    obtain ⟨hiff, hstop, _⟩ :=
      @path_literal_dotted_iff "a['\\\\'][b]['c\\']" (by decide) (by decide)
    have hnot : ¬ ∃ segments, Dotted (dotted "a['\\\\'][b]['c\\']".toList) segments := by
      rintro ⟨segments, hdotted⟩
      rw [(hiff segments).2 hdotted] at hread
      cases hread
    obtain ⟨front, segments, hpath, _, hfront, _⟩ := hstop hnot
    have hlength : front.length = 11 := by
      have hsame := hread.symm.trans hpath
      simp only [Except.error.injEq, Failure.mk.injEq, Cause.malformedPath.injEq] at hsame
      exact hsame.1.symm
    exact ⟨front, segments, hpath, hfront, hlength⟩

end FormSchema.Spelling
