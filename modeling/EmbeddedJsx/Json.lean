/-!
# JSON values
-/

namespace EmbeddedJsx

/-- A JSON value whose numbers are integers.  The members of an object keep their order. -/
inductive Json where
  /-- The value `null`. -/
  | null
  /-- A truth value. -/
  | bool (value : Bool)
  /-- An integer. -/
  | int (value : Int)
  /-- A string. -/
  | string (value : String)
  /-- A list of values. -/
  | array (items : List Json)
  /-- A list of values with names. -/
  | object (members : List (String × Json))
deriving Repr

namespace Json

mutual

/-- How many lists and objects are nested in one another in a value. -/
def depth : Json → Nat
  | array items => itemsDepth items + 1
  | object members => membersDepth members + 1
  | _ => 0

/-- How deep the deepest item of a list is. -/
def itemsDepth : List Json → Nat
  | [] => 0
  | item :: items => max item.depth (itemsDepth items)

/-- How deep the deepest member of an object is. -/
def membersDepth : List (String × Json) → Nat
  | [] => 0
  | (_, value) :: members => max value.depth (membersDepth members)

end

end Json

end EmbeddedJsx
