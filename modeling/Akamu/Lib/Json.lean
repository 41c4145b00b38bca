import Mathlib.Algebra.Group.Int.Defs
import Mathlib.Data.List.Basic

/-!
# JSON values

As a parser leaves them: an object has each key at most once.  What is read
into a record straight from the text may have a key more often; `member` is for
those.
-/

inductive Json where
  | null
  | bool (b : Bool)
  | int (n : Int)
  /-- A number that is not an integer. -/
  | real (text : String)
  | str (s : String)
  | arr (items : List Json)
  | obj (fields : List (String × Json))

namespace Json

def get : Json → String → Option Json
  | .obj fields, key => fields.lookup key
  | _, _ => none

def asStr : Json → Option String
  | .str s => some s
  | _ => none

def asI64 : Json → Option Int
  | .int n => if -2 ^ 63 ≤ n ∧ n < 2 ^ 63 then some n else none
  | _ => none

def asBool : Json → Option Bool
  | .bool b => some b
  | _ => none

def asArray : Json → Option (List Json)
  | .arr items => some items
  | _ => none

def isString : Json → Bool
  | .str _ => true
  | _ => false

def asObject : Json → Option Json
  | .obj fields => some (.obj fields)
  | _ => none

def getStr (j : Json) (key : String) : Option String := (j.get key).bind asStr

end Json
