import BranchingStory.Assoc
import BranchingStory.Number.Basic

/-!
# JSON values

A document value keeps the order of its object members and the kind of its numbers. A reader never
produces two members of one name; `ofMembers` resolves them in favour of the last.
-/

namespace BranchingStory

inductive Json where
  | null
  | bool (b : Bool)
  | number (n : Number)
  | string (s : String)
  | array (items : List Json)
  | object (members : List (String × Json))
deriving Inhabited

inductive Shape where
  | object
  | array
deriving DecidableEq

namespace Shape

def name : Shape → String
  | object => "object"
  | array => "array"

def fits : Shape → Json → Bool
  | object, .object _ => true
  | array, .array _ => true
  | _, _ => false

end Shape

namespace Json

def int (n : Int) : Json := .number (.int n)

def double (d : Double) : Json := .number (.double d)

def strings (ss : List String) : Json := .array (ss.map .string)

def ofString? : Option String → Json
  | none => .null
  | some s => .string s

/-- An object in which the last of several members of one name counts, at the first one's place. -/
def ofMembers (pairs : List (String × Json)) : Json := .object (Assoc.ofPairs pairs)

def member? : Json → String → Option Json
  | .object members, key => Assoc.get? members key
  | _, _ => none

/-- A value counts as set unless it is null, false, zero or empty. -/
def isSet : Json → Bool
  | .null => false
  | .bool b => b
  | .number n => n.isSet
  | .string s => s != ""
  | .array items => !items.isEmpty
  | .object members => !members.isEmpty

/-- A Boolean as the number it stands for inside a larger value. -/
def ofBool (b : Bool) : Number := .int (if b then 1 else 0)

/-- The number that a Boolean or a number is. -/
def asNumber? : Json → Option Number
  | .bool b => some (ofBool b)
  | .number n => some n
  | _ => none

/-- The one NaN that a document can hold is the same object wherever it occurs, so inside arrays and
objects it equals itself. -/
def isNan : Json → Bool
  | .number (.double .nan) => true
  | _ => false

mutual
/-- Equality of values inside arrays and objects: numbers and Booleans by numerical value, objects
without regard to order. -/
def alike : Json → Json → Bool
  | .null, .null => true
  | .bool a, v => (v.asNumber?).any fun b => (ofBool a).equals b
  | .number a, v =>
    (Json.isNan (.number a) && v.isNan) || (v.asNumber?).any fun b => a.equals b
  | .string a, .string b => a == b
  | .array as, .array bs => allAlike as bs
  | .object as, .object bs => as.length == bs.length && membersAlike as bs
  | _, _ => false

def allAlike : List Json → List Json → Bool
  | [], [] => true
  | a :: as, b :: bs => alike a b && allAlike as bs
  | _, _ => false

def membersAlike : List (String × Json) → List (String × Json) → Bool
  | [], _ => true
  | (key, a) :: rest, bs =>
    (match Assoc.get? bs key with
      | some b => alike a b
      | none => false) && membersAlike rest bs
end

/-- Equality that never takes a Boolean for a number or a text for anything else: the values
themselves must be of one kind, and arrays and objects are compared by `alike`. -/
def equals : Json → Json → Bool
  | .bool a, .bool b => a == b
  | .bool _, _ => false
  | _, .bool _ => false
  | .number a, .number b => a.equals b
  | a, b => alike a b

end Json
end BranchingStory
