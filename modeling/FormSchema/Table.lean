/-!
# Ordered tables

A table is a list of keyed values in the order in which the keys first appeared.
Writing a known key keeps its place, a new key goes last.  Where a list holds a
key twice the later value counts, so every list of pairs is read the way it
would be built up by writing its pairs one after another.
-/

namespace FormSchema

abbrev Table (α : Type) := List (String × α)

namespace Table

variable {α : Type}

def get? : Table α → String → Option α
  | [], _ => none
  | (name, value) :: rest, key =>
      (get? rest key).or (if name = key then some value else none)

def keys (table : Table α) : List String := table.map Prod.fst

def contains (table : Table α) (key : String) : Bool := table.keys.contains key

/-- Replaces the value of a known key where it stands; a new key goes last. -/
def insert (table : Table α) (key : String) (value : α) : Table α :=
  if table.contains key then
    table.map fun pair => if pair.1 = key then (key, value) else pair
  else
    table ++ [(key, value)]

def insertIfNew (table : Table α) (key : String) (value : α) : Table α :=
  if table.contains key then table else table ++ [(key, value)]

def erase (table : Table α) (key : String) : Table α :=
  table.filter fun pair => pair.1 != key

def overlay (base top : Table α) : Table α :=
  top.foldl (fun table pair => table.insert pair.1 pair.2) base

@[simp] theorem get?_nil (key : String) : get? ([] : Table α) key = none := rfl

@[simp] theorem get?_cons (name : String) (value : α) (rest : Table α)
    (key : String) :
    get? ((name, value) :: rest) key =
      (get? rest key).or (if name = key then some value else none) := rfl

theorem get?_append (first second : Table α) (key : String) :
    get? (first ++ second) key = (get? second key).or (get? first key) := by
  induction first with
  | nil => simp
  | cons pair first ih =>
      obtain ⟨name, value⟩ := pair
      simp [ih, Option.or_assoc]

@[simp] theorem keys_cons (pair : String × α) (rest : Table α) :
    keys (pair :: rest) = pair.1 :: keys rest := rfl

theorem contains_eq_true_iff {table : Table α} {key : String} :
    table.contains key = true ↔ key ∈ table.keys := by
  simp [contains]

theorem get?_eq_none_iff {table : Table α} {key : String} :
    table.get? key = none ↔ key ∉ table.keys := by
  induction table with
  | nil => simp [keys]
  | cons pair table ih =>
      obtain ⟨name, value⟩ := pair
      by_cases h : name = key
      · simp [h]
      · simp [h, ih, Ne.symm h]

theorem isSome_get?_iff {table : Table α} {key : String} :
    (table.get? key).isSome ↔ key ∈ table.keys := by
  rw [Option.isSome_iff_ne_none, ne_eq, get?_eq_none_iff, Decidable.not_not]

private theorem get?_replace (table : Table α) (key other : String)
    (value : α) :
    get? (table.map fun pair => if pair.1 = key then (key, value) else pair)
        other =
      if key = other then (table.get? other).map fun _ => value
      else table.get? other := by
  induction table with
  | nil => simp
  | cons pair table ih =>
      obtain ⟨name, found⟩ := pair
      simp only [List.map_cons]
      by_cases hn : name = key
      · subst hn
        by_cases ho : name = other
        · subst ho
          cases h : get? table name <;> simp [ih, h]
        · simp [ih, ho]
      · by_cases ho : key = other
        · subst ho
          cases h : get? table key <;> simp [ih, h, hn]
        · simp [ih, hn, ho]

theorem get?_insert (table : Table α) (key other : String) (value : α) :
    (table.insert key value).get? other =
      if key = other then some value else table.get? other := by
  unfold insert
  split
  · next h =>
      rw [get?_replace]
      by_cases ho : key = other
      · subst ho
        have hsome := isSome_get?_iff.2 (contains_eq_true_iff.1 h)
        obtain ⟨found, hfound⟩ := Option.isSome_iff_exists.1 hsome
        simp [hfound]
      · simp [ho]
  · rw [get?_append]
    by_cases ho : key = other <;> simp [ho]

theorem keys_insert (table : Table α) (key : String) (value : α) :
    (table.insert key value).keys =
      if key ∈ table.keys then table.keys else table.keys ++ [key] := by
  unfold insert
  split
  · next h =>
      rw [if_pos (contains_eq_true_iff.1 h)]
      simp only [keys, List.map_map]
      apply List.map_congr_left
      intro pair _
      simp only [Function.comp]
      split <;> simp_all
  · next h =>
      rw [if_neg (fun hm => h (contains_eq_true_iff.2 hm))]
      simp [keys]

theorem insertIfNew_of_not_mem {table : Table α} {key : String}
    (h : key ∉ table.keys) (value : α) :
    table.insertIfNew key value = table ++ [(key, value)] := by
  unfold insertIfNew
  rw [if_neg (fun hcontains => h (contains_eq_true_iff.1 hcontains))]

theorem get?_insertIfNew (table : Table α) (key other : String) (value : α) :
    (table.insertIfNew key value).get? other =
      (table.get? other).or (if key = other then some value else none) := by
  unfold insertIfNew
  split
  · next h =>
      by_cases ho : key = other
      · subst ho
        have hsome := isSome_get?_iff.2 (contains_eq_true_iff.1 h)
        obtain ⟨found, hfound⟩ := Option.isSome_iff_exists.1 hsome
        simp [hfound]
      · simp [ho]
  · next h =>
      rw [get?_append]
      by_cases ho : key = other
      · subst ho
        have hnone := get?_eq_none_iff.2
          (fun hm => h (contains_eq_true_iff.2 hm))
        simp [hnone]
      · simp [ho]

theorem mem_keys_insertIfNew {table : Table α} {key other : String} {value : α} :
    other ∈ (table.insertIfNew key value).keys ↔
      other ∈ table.keys ∨ key = other := by
  rw [← isSome_get?_iff, get?_insertIfNew, Option.isSome_or, Bool.or_eq_true,
    isSome_get?_iff]
  by_cases ho : key = other <;> simp [ho]

@[simp] theorem keys_append (first second : Table α) :
    keys (first ++ second) = keys first ++ keys second := by
  simp [keys]

theorem get?_append_left {first second : Table α} {key : String}
    (h : key ∉ second.keys) : get? (first ++ second) key = get? first key := by
  rw [get?_append, get?_eq_none_iff.2 h, Option.none_or]

theorem get?_append_right {first second : Table α} {key : String}
    (h : key ∉ first.keys) : get? (first ++ second) key = get? second key := by
  rw [get?_append, get?_eq_none_iff.2 h, Option.or_none]

theorem mem_keys_of_get? {table : Table α} {key : String} {value : α}
    (h : table.get? key = some value) : key ∈ table.keys :=
  isSome_get?_iff.1 (by rw [h]; rfl)

theorem mem_of_get? {table : Table α} {key : String} {value : α}
    (h : table.get? key = some value) : (key, value) ∈ table := by
  induction table with
  | nil => cases h
  | cons pair table ih =>
      rw [get?_cons, Option.or_eq_some_iff] at h
      rcases h with hrest | ⟨_, hpair⟩
      · exact List.mem_cons_of_mem _ (ih hrest)
      · split at hpair
        · next heq =>
            cases hpair
            subst heq
            exact List.mem_cons_self
        · cases hpair

theorem exists_get? {table : Table α} {key : String} (h : key ∈ table.keys) :
    ∃ value, table.get? key = some value :=
  Option.isSome_iff_exists.1 (isSome_get?_iff.2 h)

theorem get?_overlay (base top : Table α) (key : String) :
    (base.overlay top).get? key = (top.get? key).or (base.get? key) := by
  unfold overlay
  induction top generalizing base with
  | nil => simp
  | cons pair top ih =>
      obtain ⟨name, value⟩ := pair
      rw [List.foldl_cons, ih, get?_insert, get?_cons, Option.or_assoc]
      by_cases h : name = key <;> simp [h]

theorem get?_erase (table : Table α) (key other : String) :
    (table.erase key).get? other =
      if key = other then none else table.get? other := by
  unfold erase
  induction table with
  | nil => simp
  | cons pair table ih =>
      obtain ⟨name, value⟩ := pair
      by_cases hn : name = key
      · subst hn
        by_cases ho : name = other <;> simp_all
      · by_cases ho : key = other
        · subst ho
          simp_all
        · simp_all

theorem get?_foldl_erase (keys : List String) (table : Table α) (key : String) :
    (keys.foldl erase table).get? key =
      if key ∈ keys then none else table.get? key := by
  induction keys generalizing table with
  | nil => simp
  | cons first keys ih =>
      rw [List.foldl_cons, ih, get?_erase]
      by_cases hmem : key ∈ keys
      · simp [hmem]
      · by_cases hfirst : key = first
        · simp [hfirst]
        · simp [hmem, hfirst, Ne.symm hfirst]

end Table

end FormSchema
