import FormSchema.Json

/-!
# Pairs

A list of pairs is a table whose keys are scalars of any kind.  Keys that are
equal as values are one key: it keeps the form and the place in which it came
first, and has the value that came last.
-/

namespace FormSchema

abbrev Pairs := List (Json × Json)

namespace Pairs

def keys (pairs : Pairs) : List Json := pairs.map Prod.fst

def contains (pairs : Pairs) (key : Json) : Bool :=
  pairs.any fun pair => pair.1.alike key

def insert (pairs : Pairs) (key value : Json) : Pairs :=
  if contains pairs key then
    pairs.map fun pair => if pair.1.alike key then (pair.1, value) else pair
  else pairs ++ [(key, value)]

def overlay (base top : Pairs) : Pairs :=
  top.foldl (fun pairs pair => insert pairs pair.1 pair.2) base

def isScalar : Json → Bool
  | .arr _ | .obj _ => false
  | _ => true

def pair (member : Json) : Except Fault (Json × Json) := do
  match ← member.members with
  | [key, value] =>
      if isScalar key then .ok (key, value) else .error .compositeKey
  | _ => .error .notAPair

def ofNode (node : Node) : Pairs := node.map fun field => (.str field.1, field.2)

def ofJson : Json → Except Fault Pairs
  | .obj fields => .ok (ofNode fields)
  | other => do .ok (overlay [] (← (← other.members).mapM pair))

/-- The name under which a scalar is a key of an object; nothing else is one. -/
def name : Json → String
  | .null => "null"
  | .bool value => if value then "true" else "false"
  | .int value => toString value
  | .real (.infinite negative) => if negative then "-Infinity" else "Infinity"
  | .real .nan => "NaN"
  | .real value => value.text
  | .str value => value
  | .arr _ | .obj _ => ""

def toNode (pairs : Pairs) : Node := pairs.map fun pair => (name pair.1, pair.2)

theorem toNode_ofNode (node : Node) : toNode (ofNode node) = node := by
  induction node with
  | nil => rfl
  | cons field node ih =>
      simp only [toNode, ofNode, List.map_map, List.map_cons] at ih ⊢
      rw [ih]
      rfl

theorem alike_str (key other : String) :
    Json.alike (.str other) (.str key) = decide (other = key) := by
  change (key == other) = decide (other = key)
  rw [Bool.eq_iff_iff, beq_iff_eq, decide_eq_true_eq]
  exact eq_comm

theorem contains_ofNode (node : Node) (key : String) :
    contains (ofNode node) (.str key) = node.contains key := by
  induction node with
  | nil => rfl
  | cons field node ih =>
      simp only [contains, ofNode, List.map_cons, List.any_cons, alike_str]
        at ih ⊢
      rw [ih]
      simp [Table.contains, eq_comm]

theorem insert_ofNode (node : Node) (key : String) (value : Json) :
    insert (ofNode node) (.str key) value = ofNode (node.insert key value) := by
  unfold insert Table.insert
  rw [contains_ofNode]
  split
  · simp only [ofNode, List.map_map]
    apply List.map_congr_left
    intro field _
    simp only [Function.comp, alike_str, decide_eq_true_eq]
    split
    · next h => rw [h]
    · rfl
  · simp [ofNode]

theorem overlay_ofNode (base top : Node) :
    overlay (ofNode base) (ofNode top) = ofNode (base.overlay top) := by
  unfold overlay Table.overlay
  induction top generalizing base with
  | nil => rfl
  | cons field top ih =>
      simp only [ofNode, List.map_cons, List.foldl_cons] at ih ⊢
      rw [← ih]
      congr 1
      exact insert_ofNode base field.1 field.2

example : keys (overlay [] [(.bool true, .null), (.str "1", .null),
    (.int 1, .null)]) = [.bool true, .str "1"] := by
  rfl

end Pairs

end FormSchema
