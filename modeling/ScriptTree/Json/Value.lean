import ScriptTree.Value.Scalar

/-!
JSON values. An object keeps its fields in the order in which their keys first came.
-/

namespace ScriptTree.Json

/-- A JSON value; whole numbers and numbers with a fraction or an exponent are kept apart. -/
inductive Value where
  | null
  | bool (b : Bool)
  | int (i : Int)
  | real (x : Binary64)
  | text (s : Points)
  | list (items : List Value)
  | object (fields : List (Points × Value))
  deriving Repr, Inhabited

namespace Value

/-- The value under a key. -/
def field? (key : Points) : List (Points × Value) → Option Value
  | [] => none
  | (k, v) :: rest => if k = key then some v else field? key rest

/-- The value under a key, null if there is none. -/
def fieldOrNull (key : Points) (fields : List (Points × Value)) : Value :=
  (field? key fields).getD .null

/-- Puts a value under a key: an old key keeps its place, a new one goes to the end. -/
def insert (key : Points) (v : Value) : List (Points × Value) → List (Points × Value)
  | [] => [(key, v)]
  | (k, w) :: rest => if k = key then (k, v) :: rest else (k, w) :: insert key v rest

/-- The object with the given fields, of which a later one replaces an earlier one of its key. -/
def ofFields (fields : List (Points × Value)) : List (Points × Value) :=
  fields.foldl (fun fs kv => insert kv.1 kv.2 fs) []

/-- The name of a value's type. -/
def typeName : Value → String
  | .null => Scalar.null.typeName
  | .bool b => (Scalar.bool b).typeName
  | .int i => (Scalar.int i).typeName
  | .real x => (Scalar.real x).typeName
  | .text s => (Scalar.text s).typeName
  | .list _ => "list"
  | .object _ => "dict"

/-- Values that count as absent: nothing, false, zero, and all that is empty. -/
def isBlank : Value → Bool
  | .null => true
  | .bool b => !b
  | .int i => i == 0
  | .real x => x.isZero
  | .text s => s.isEmpty
  | .list xs => xs.isEmpty
  | .object fs => fs.isEmpty

mutual

/-- The text of a value inside another. -/
def quoted : Value → String
  | .null => Scalar.null.quoted
  | .bool b => (Scalar.bool b).quoted
  | .int i => Integer.text i
  | .real x => x.text
  | .text s => Text.quoted s
  | .list xs => "[" ++ ", ".intercalate (quotedItems xs) ++ "]"
  | .object fs => "\x7b" ++ ", ".intercalate (quotedFields fs) ++ "\x7d"

/-- The texts of the items of a list. -/
def quotedItems : List Value → List String
  | [] => []
  | x :: xs => quoted x :: quotedItems xs

/-- The texts of the fields of an object. -/
def quotedFields : List (Points × Value) → List String
  | [] => []
  | (k, v) :: fs => (Text.quoted k ++ ": " ++ quoted v) :: quotedFields fs

end

/-- The text of a value on its own. -/
def display : Value → Points
  | .text s => s
  | v => quoted v

end Value
end ScriptTree.Json
