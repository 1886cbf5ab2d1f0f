import Mathlib.Algebra.Group.Int.Defs

/-!
# JSON values

A JSON value, with the fields of an object in the order of the text.  `Value.field` is how a derived deserializer of
a struct reads one field: a field that is given twice is an error, one that is not given is `none`, and fields the
struct does not have are ignored.
-/

namespace Json

/-- An integer, or a floating-point number given by the text it prints as. -/
inductive Number where
  | int (n : Int)
  | float (text : String)
  deriving DecidableEq

def Number.toString : Number → String
  | .int n => ToString.toString n
  | .float text => text

inductive Value where
  | null
  | bool (b : Bool)
  | number (n : Number)
  | string (s : String)
  | array (elems : List Value)
  | object (fields : List (String × Value))

namespace Value

/-- A field of an object; the outer `none` is the error of a field that is given twice. -/
def field (fields : List (String × Value)) (name : String) : Option (Option Value) :=
  match fields.filter fun f => f.1 = name with
  | [] => some none
  | [f] => some (some f.2)
  | _ => none

/-- `Value::get` of a name: an untyped object that gives a field twice keeps the last one. -/
def get (name : String) : Value → Option Value
  | .object fields => (fields.reverse.find? fun f => f.1 = name).map Prod.snd
  | _ => none

def asString : Value → Option String
  | .string s => some s
  | _ => none

/-- A number that fits an unsigned integer of the given width. -/
def asUnsigned (width : Nat) : Value → Option Nat
  | .number (.int n) => if 0 ≤ n ∧ n < 2 ^ width then some n.toNat else none
  | _ => none

def asStrings : Value → Option (List String)
  | .array elems => elems.mapM asString
  | _ => none

/-- A string that may be `null`. -/
def asNullableString : Value → Option (Option String)
  | .null => some none
  | .string s => some (some s)
  | _ => none

end Value

end Json
