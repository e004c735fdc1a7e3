import Packrat.Double.Basic

/-!
# JSON values

The members of an object are ordered by their keys, and every key occurs once.
-/

namespace Packrat

inductive Json where
  | object (members : List (String × Json))
  | array (items : List Json)
  | number (value : Double)
  | string (text : String)
  | bool (value : Bool)
  | null

namespace Json

def putMember {β : Type} (key : String) (value : β) : List (String × β) → List (String × β)
  | [] => [(key, value)]
  | (other, held) :: rest =>
      if key < other then (key, value) :: (other, held) :: rest
      else if key = other then (key, value) :: rest
      else (other, held) :: putMember key value rest

/-- Ordered members, of which the last one with a key is kept. -/
def orderMembers {β : Type} (members : List (String × β)) : List (String × β) :=
  members.foldl (fun ordered member => putMember member.1 member.2 ordered) []

mutual

/-- The numbers of a value: items in order, members by their keys. -/
def numbers : Json → List Double
  | object members => numbersOfMembers members
  | array items => numbersOfItems items
  | number value => [value]
  | _ => []

def numbersOfItems : List Json → List Double
  | [] => []
  | item :: rest => numbers item ++ numbersOfItems rest

def numbersOfMembers : List (String × Json) → List Double
  | [] => []
  | (_, value) :: rest => numbers value ++ numbersOfMembers rest

end

end Json

end Packrat
