import PixelFont.Number.Binary64
import PixelFont.Text.Quoted

/-!
Structured values: what a settings file holds, and the form in which glyphs, outlines and settings
pass between processes. Integers and numbers with a fraction are told apart, and a record keeps
its fields in the order in which they were first assigned.
-/

set_option autoImplicit false

namespace PixelFont

open Number

/-- A structured value. -/
inductive Value where
  | null
  | bool (flag : Bool)
  | int (number : Int)
  | real (number : Binary64)
  | text (content : String)
  | list (items : List Value)
  | record (fields : List (String × Value))
  deriving Repr, Inhabited

namespace Value

/-- The value of a field of a record, if it has that field. -/
def lookup? (fields : List (String × Value)) (key : String) : Option Value :=
  (fields.find? (·.1 == key)).map (·.2)

/-- The fields with a value assigned to a key: in place of its value before, or at the end. -/
def assign (fields : List (String × Value)) (key : String) (value : Value) :
    List (String × Value) :=
  if fields.any (·.1 == key) then
    fields.map fun field ↦ if field.1 == key then (key, value) else field
  else fields ++ [(key, value)]

/-- An optional value, null where there is none. -/
def ofOption {α : Type} (value : α → Value) : Option α → Value
  | some x => value x
  | none => null

/-- The content of a text. -/
def asText? : Value → Option String
  | text content => some content
  | _ => none

/-- The number of an integer. -/
def asInt? : Value → Option Int
  | int number => some number
  | _ => none

/-- The items of a list. -/
def asList? : Value → Option (List Value)
  | list items => some items
  | _ => none

/-- The fields of a record. -/
def asRecord? : Value → Option (List (String × Value))
  | record fields => some fields
  | _ => none

/-- Whether a value counts as true: it is neither null, false nor zero, and it is not empty. -/
def isTruthy : Value → Bool
  | null => false
  | bool flag => flag
  | int number => number != 0
  | real number => !number.isZero
  | text content => content != ""
  | list items => !items.isEmpty
  | record fields => !fields.isEmpty

mutual

/-- How a message shows a value. -/
def display : Value → String
  | null => "None"
  | bool flag => if flag then "True" else "False"
  | int number => toString number
  | real number => number.toText
  | text content => Text.Quoted.quote content
  | list items => "[" ++ ", ".intercalate (displayItems items) ++ "]"
  | record fields => "\x7b" ++ ", ".intercalate (displayFields fields) ++ "\x7d"

/-- How a message shows the items of a list. -/
def displayItems : List Value → List String
  | [] => []
  | item :: items => display item :: displayItems items

/-- How a message shows the fields of a record. -/
def displayFields : List (String × Value) → List String
  | [] => []
  | (key, value) :: fields =>
    (Text.Quoted.quote key ++ ": " ++ display value) :: displayFields fields

end

/-- Looking up a key just assigned gives the value assigned. -/
theorem lookup?_assign_self (fields : List (String × Value)) (key : String) (value : Value) :
    lookup? (assign fields key value) key = some value := by
  unfold assign lookup?
  split
  · rename_i hany
    induction fields with
    | nil => simp at hany
    | cons field fields ih =>
      by_cases hkey : field.1 = key
      · simp [hkey]
      · have htail : fields.any (·.1 == key) = true := by simpa [hkey] using hany
        simpa [hkey] using ih htail
  · rename_i hnone
    have hfind : fields.find? (·.1 == key) = none := by
      refine List.find?_eq_none.mpr fun field hfield hkey ↦ hnone ?_
      exact List.any_eq_true.mpr ⟨field, hfield, hkey⟩
    simp [List.find?_append, hfind]

end Value

end PixelFont
