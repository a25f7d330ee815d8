/-!
# Types

The types that annotations denote and that expressions have. Two types agree if they differ at most
in the width and sign of integers and the precision of floating-point numbers: these are not told
apart when values are matched with types.
-/

namespace Offside

/-- The precision of a floating-point type. -/
inductive Precision where
  | single
  | double
  deriving DecidableEq, Repr, Inhabited

/-- A type. -/
inductive DataType where
  /-- Integers of a number of bits, with or without a sign. -/
  | int (width : Nat) (signed : Bool)
  | float (precision : Precision)
  | bool
  | string
  /-- The type of `null`, and of functions that return nothing. -/
  | null
  | array (element : DataType)
  /-- A declared record type, by name. -/
  | record (name : String)
  | function (params : List DataType) (returns : DataType)
  /-- The type of an expression that has none, such as the elements of an empty array. -/
  | unresolved
  deriving Inhabited

namespace DataType

/-- The type of integer literals. -/
def int64 : DataType := int 64 true

/-- The type of floating-point literals. -/
def double : DataType := float .double

/-- The names of built-in types, which no record may take. -/
def builtinNames : List String :=
  ["int", "float", "double", "null", "string", "bool"]

/-- The type that a written name denotes. A name that is not built in denotes a record. -/
def ofName (name : String) : DataType :=
  if name = "int" then int64
  else if name = "float" then float .single
  else if name = "double" then double
  else if name = "bool" then bool
  else if name = "string" then string
  else if name = "null" ∨ name = "void" then null
  else record name

/-- The type of arrays nested some levels deep around an element type. -/
def nested (element : DataType) : (levels : Nat) → DataType
  | 0 => element
  | levels + 1 => array (nested element levels)

/-- Whether this is the type of `null`. -/
def isNull : DataType → Bool
  | null => true
  | _ => false

/-- The name of a record type. -/
def recordName? : DataType → Option String
  | record name => some name
  | _ => none

mutual

/-- Whether two types are the same but for the sizes of numbers. -/
def agrees : DataType → DataType → Bool
  | int .., int .. => true
  | float _, float _ => true
  | bool, bool => true
  | string, string => true
  | null, null => true
  | array a, array b => agrees a b
  | record a, record b => a == b
  | function ps r, function qs s => agreesAll ps qs && agrees r s
  | unresolved, unresolved => true
  | _, _ => false

/-- Whether two lists have the same length and agree place by place. -/
def agreesAll : List DataType → List DataType → Bool
  | [], [] => true
  | a :: as, b :: bs => agrees a b && agreesAll as bs
  | _, _ => false

end

mutual

/-- The spelling of a type. -/
def text : DataType → String
  | int width signed =>
    if width = 64 ∧ signed then "int" else (if signed then "i" else "u") ++ toString width
  | float .single => "float"
  | float .double => "double"
  | bool => "bool"
  | string => "string"
  | null => "null"
  | array element => "[" ++ text element ++ "]"
  | record name => name
  | function params returns => "def(" ++ textAll params ++ ") -> " ++ text returns
  | unresolved => "<unresolved>"

/-- The spellings of a list of types, separated by commas. -/
def textAll : List DataType → String
  | [] => ""
  | [last] => text last
  | first :: rest => text first ++ ", " ++ textAll rest

end

end DataType

end Offside
