import CrosschainAgent.Common.Strings
import Mathlib.Data.Rat.Init

/-!
# JSON values as `jsoncpp` reads them

The readers of `Json::Value` the agent uses. A missing member reads as null, and null reads
as `0` or the empty string; a read that does not fit the type of the value throws, which is
`none` here.
-/

namespace CrosschainAgent

/-- A JSON document. A number with a fraction or an exponent comes with the text it is printed as. -/
inductive Json where
  | null
  | bool (b : Bool)
  | int (n : ℤ)
  | real (value : ℚ) (text : Text)
  | str (s : Text)
  | arr (items : List Json)
  | obj (members : List (Text × Json))

namespace Json

/-- `value["key"]`. -/
def get (j : Json) (key : Text) : Option Json :=
  match j with
  | .null => some .null
  | .obj members => some ((members.lookup key).getD .null)
  | _ => none

/-- `value[index]`. -/
def item (j : Json) (index : ℕ) : Option Json :=
  match j with
  | .null => some .null
  | .arr items => some ((items[index]?).getD .null)
  | _ => none

/-- `value.isMember("key")`. -/
def isMember (j : Json) (key : Text) : Option Bool :=
  match j with
  | .null => some false
  | .obj members => some (members.lookup key).isSome
  | _ => none

def isNull : Json → Bool
  | .null => true
  | _ => false

/-- The items of an array, if it is one. -/
def asArray : Json → Option (List Json)
  | .arr items => some items
  | _ => none

/-- An integer within the given bounds; null and booleans convert, and a fraction is cut off. -/
def asIntBetween (low high : ℤ) : Json → Option ℤ
  | .null => some 0
  | .bool b => some (if b then 1 else 0)
  | .int n => if low ≤ n ∧ n ≤ high then some n else none
  | .real value _ =>
    if (low : ℚ) ≤ value ∧ value ≤ (high : ℚ) then some (value.num.tdiv value.den) else none
  | _ => none

/-- `value.asInt64()`. -/
def asInt64 (j : Json) : Option Int64 :=
  (j.asIntBetween Int64.minValue.toInt Int64.maxValue.toInt).map Int64.ofInt

/-- `value.asInt()`. -/
def asInt (j : Json) : Option Int32 :=
  (j.asIntBetween Int32.minValue.toInt Int32.maxValue.toInt).map Int32.ofInt

/-- `value.asString()`. -/
def asString : Json → Option Text
  | .null => some []
  | .bool b => some (if b then "true".toList else "false".toList)
  | .int n => some (Strings.signedDecimal n)
  | .real _ text => some text
  | .str s => some s
  | _ => none

end Json

/-- What `httplib` returns for a request: an error, or a response whose body may or may not
be JSON. -/
inductive HttpResult where
  | error
  | response (body : Option Json)

end CrosschainAgent
