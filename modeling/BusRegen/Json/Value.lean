import BusRegen.Decimal.Shortest
/-!
# JSON values

The data model of records and of curves in files. A number is an `integer` if it is written without
a point and an exponent, and a `scalar` otherwise; where a scalar is wanted, `scalar?` takes both.
The fields of an object keep their order, and a key may occur more than once: what that means is for
the reader of a record to say.
-/
namespace BusRegen

inductive Json where
  | null
  | bool (value : Bool)
  | integer (value : Int)
  | scalar (value : Float)
  | text (value : String)
  | array (items : List Json)
  | object (fields : List (String × Json))

namespace Json

def scalar? : Json → Option Float
  | integer n => some (Scalar.ofInt n)
  | scalar x => some x
  | _ => none

/-- The values of all fields of that name. -/
def valuesOf (key : String) (fields : List (String × Json)) : List Json :=
  (fields.filter (·.1 == key)).map (·.2)

/-- The value of a field that is there exactly once. -/
def single? (key : String) (fields : List (String × Json)) : Option Json :=
  match valuesOf key fields with
  | [v] => some v
  | _ => none

end Json
end BusRegen
