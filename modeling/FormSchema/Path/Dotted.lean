import FormSchema.Text.Blank

/-!
# Dot and bracket notation

A dotted path is a sequence of tokens: `.name`, `['quoted']` and `[text]`.
Reading takes the longest token each time and stops where none starts.
-/

namespace FormSchema.Path

inductive Token where
  | name (run : List Char)
  | quoted (body : List Char)
  | index (text : List Char)
  deriving DecidableEq, Repr

/-- The segment of a token; a dot without a name stands for none. -/
def Token.segment? : Token → Option String
  | .name [] => none
  | .name run => some (String.ofList run)
  | .quoted body => some (String.ofList body)
  | .index text => some (String.ofList (Text.strip text))

def inName (c : Char) : Bool := c != '.' && c != '[' && c != ']'

def inIndex (c : Char) : Bool := c != '[' && c != ']' && c != '\x27'

/--
The body of a quoted token up to its closing quote and bracket.  A backslash
takes the next character as it stands, unless that is a line feed.
-/
def quoted? : List Char → Option (List Char × List Char)
  | [] => none
  | '\x27' :: rest =>
      match rest with
      | ']' :: after => some ([], after)
      | _ => none
  | '\\' :: rest =>
      match rest with
      | [] => none
      | c :: after =>
          if c = '\n' then none
          else (quoted? after).map fun found => (c :: found.1, found.2)
  | c :: rest => (quoted? rest).map fun found => (c :: found.1, found.2)

def token? : List Char → Option (Token × List Char)
  | '.' :: rest => some (.name (rest.takeWhile inName), rest.dropWhile inName)
  | '[' :: '\x27' :: rest =>
      (quoted? rest).map fun found => (.quoted found.1, found.2)
  | '[' :: rest =>
      match rest.takeWhile inIndex, rest.dropWhile inIndex with
      | c :: text, ']' :: after => some (.index (c :: text), after)
      | _, _ => none
  | _ => none

theorem length_of_quoted? {text body rest : List Char}
    (h : quoted? text = some (body, rest)) : rest.length < text.length := by
  fun_induction quoted? text generalizing body rest with
  | case1 => cases h
  | case2 after =>
      cases h
      simp only [List.length_cons]
      omega
  | case3 => cases h
  | case4 => cases h
  | case5 => cases h
  | case6 c after _ ih =>
      obtain ⟨found, hfound, heq⟩ := Option.map_eq_some_iff.1 h
      cases heq
      have := ih hfound
      simp only [List.length_cons]
      omega
  | case7 c rest _ _ ih =>
      obtain ⟨found, hfound, heq⟩ := Option.map_eq_some_iff.1 h
      cases heq
      have := ih hfound
      simp only [List.length_cons]
      omega

theorem length_of_token? {text rest : List Char} {token : Token}
    (h : token? text = some (token, rest)) : rest.length < text.length := by
  unfold token? at h
  split at h
  · next after =>
      cases h
      have := (List.dropWhile_sublist inName (l := after)).length_le
      simp only [List.length_cons]
      omega
  · next after =>
      obtain ⟨found, hfound, heq⟩ := Option.map_eq_some_iff.1 h
      cases heq
      have := length_of_quoted? hfound
      simp only [List.length_cons]
      omega
  · next after _ =>
      split at h
      · next c body left _ hleft =>
          cases h
          have := (List.dropWhile_sublist inIndex (l := after)).length_le
          rw [hleft] at this
          simp only [List.length_cons] at this ⊢
          omega
      · cases h
  · cases h

/-- The tokens that make up a text, or what is left of it where none starts. -/
def tokens (text : List Char) : Except (List Char) (List Token) :=
  if text = [] then .ok []
  else
    match h : token? text with
    | none => .error text
    | some (token, rest) =>
        have := length_of_token? h
        match tokens rest with
        | .ok following => .ok (token :: following)
        | .error left => .error left
termination_by text.length

theorem tokens_nil : tokens [] = .ok [] := by
  rw [tokens, if_pos rfl]

theorem tokens_of_token? {text rest : List Char} {token : Token}
    (h : token? text = some (token, rest)) :
    tokens text = (tokens rest).map (token :: ·) := by
  have hne : text ≠ [] := by
    rintro rfl
    cases h
  rw [tokens, if_neg hne]
  split
  · next hnone => rw [h] at hnone; cases hnone
  · next found left hsome =>
      rw [h] at hsome
      cases hsome
      cases tokens rest <;> rfl

theorem tokens_of_token?_eq_none {text : List Char} (hne : text ≠ [])
    (h : token? text = none) : tokens text = .error text := by
  rw [tokens, if_neg hne]
  split
  · rfl
  · next hsome => rw [h] at hsome; cases hsome

def dottedSegments (text : List Char) : Except Nat (List String) :=
  match tokens text with
  | .ok found => .ok (found.filterMap Token.segment?)
  | .error left => .error (text.length - left.length)

end FormSchema.Path
