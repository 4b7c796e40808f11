import FormSchema.Failure
import FormSchema.Number.Shortest
import FormSchema.Table
import FormSchema.Text.Digits
import FormSchema.Text.Quoted

/-!
# JSON values

Objects keep the order of their keys.  Integers are exact and numbers with a
fraction or an exponent are binary64.  Equality of values is that of the data:
`1`, `1.0` and `true` are equal, and so are objects that differ in order only.  The
undefined number equals nothing, but there is one of it: lists and objects are equal
where both have it.
-/

namespace FormSchema

inductive Json where
  | null
  | bool (value : Bool)
  | int (value : Int)
  | real (value : Binary64)
  | str (value : String)
  | arr (elements : List Json)
  | obj (fields : List (String × Json))
  deriving Inhabited

abbrev Node := Table Json

namespace Json

def truthy : Json → Bool
  | null => false
  | bool value => value
  | int value => value != 0
  | real value => !value.isZero
  | str value => value != ""
  | arr elements => !elements.isEmpty
  | obj fields => !fields.isEmpty

def isNull : Json → Bool
  | null => true
  | _ => false

def isText (text : String) : Json → Bool
  | str value => value == text
  | _ => false

theorem isText_eq_true_iff {value : Json} {text : String} :
    value.isText text = true ↔ value = .str text := by
  cases value <;> simp [isText]

def ofBool (value : Bool) : Int := if value then 1 else 0

def sameInteger (number : Int) : Json → Bool
  | bool value => ofBool value == number
  | int value => value == number
  | real value => value.sameInteger number
  | _ => false

def sameReal (number : Binary64) : Json → Bool
  | bool value => number.sameInteger (ofBool value)
  | int value => number.sameInteger value
  | real value => number.same value
  | _ => false

def isUndefined : Json → Bool
  | real .nan => true
  | _ => false

mutual

def same : Json → Json → Bool
  | null, other => other.isNull
  | bool value, other => other.sameInteger (ofBool value)
  | int value, other => other.sameInteger value
  | real value, other => other.sameReal value
  | str value, other => other.isText value
  | arr elements, other =>
      match other with
      | arr others => sameElements elements others
      | _ => false
  | obj fields, other =>
      match other with
      | obj others => fields.length == others.length && sameFields fields others
      | _ => false

def sameElements : List Json → List Json → Bool
  | [], others => others.isEmpty
  | element :: elements, others =>
      match others with
      | [] => false
      | other :: others =>
          (element.isUndefined && other.isUndefined || same element other) &&
            sameElements elements others

/-- The last value under each key has its equal among the others. -/
def sameFields : List (String × Json) → List (String × Json) → Bool
  | [], _ => true
  | (key, value) :: fields, others =>
      (Table.contains fields key ||
        match Table.get? others key with
        | some other => value.isUndefined && other.isUndefined || same value other
        | none => false) && sameFields fields others

end

def alike (value other : Json) : Bool :=
  value.isUndefined && other.isUndefined || value.same other

mutual

def size : Json → Nat
  | arr elements => sizeElements elements + 1
  | obj fields => sizeFields fields + 1
  | _ => 1

def sizeElements : List Json → Nat
  | [] => 0
  | element :: elements => size element + sizeElements elements

def sizeFields : List (String × Json) → Nat
  | [] => 0
  | (_, value) :: fields => size value + sizeFields fields

end

def integerText (value : Int) : Except Fault String :=
  if (Nat.toDigits 10 value.natAbs).length ≤ Text.maxDigits then .ok (toString value)
  else .error .longNumeral

mutual

def nestedText : Json → Except Fault String
  | null => .ok "None"
  | bool value => .ok (if value then "True" else "False")
  | int value => integerText value
  | real value => .ok value.text
  | str value => .ok (Text.quoted value)
  | arr elements => do .ok ("[" ++ ", ".intercalate (← elementTexts elements) ++ "]")
  | obj fields => do
      .ok ("\x7b" ++ ", ".intercalate (← fieldTexts fields) ++ "\x7d")

def elementTexts : List Json → Except Fault (List String)
  | [] => .ok []
  | element :: elements => do
      let text ← nestedText element
      .ok (text :: (← elementTexts elements))

def fieldTexts : List (String × Json) → Except Fault (List String)
  | [] => .ok []
  | (key, value) :: fields => do
      let text ← nestedText value
      .ok ((Text.quoted key ++ ": " ++ text) :: (← fieldTexts fields))

end

/-- A text stands for itself, and within a list or an object it is quoted. -/
def text : Json → Except Fault String
  | str value => .ok value
  | other => other.nestedText

def members : Json → Except Fault (List Json)
  | arr elements => .ok elements
  | str value => .ok (value.toList.map fun c => str (String.singleton c))
  | obj fields => .ok (fields.map fun field => str field.1)
  | _ => .error .notIterable

end Json

namespace Table

/-- The value of a key where there is one other than null. -/
def given? (node : Node) (key : String) : Option Json :=
  (node.get? key).filter fun value => !value.isNull

end Table

example : Json.same (.arr [.int 1, .obj [("a", .null), ("b", .str "x")]])
    (.arr [.bool true, .obj [("b", .str "x"), ("a", .null)]]) = true := by
  decide

end FormSchema
