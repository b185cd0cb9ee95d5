/-!
# JSON values

Configuration and other data may come as JSON.  This is the tree such a text describes; the
members of an object keep their order, and no two of them have one name.
-/

namespace PercentFormat

/-- A JSON value. -/
inductive Json where
  | null
  | bool (b : Bool)
  /-- The number `mantissa · 10 ^ (-places)`. -/
  | number (mantissa : Int) (places : Nat)
  | string (s : String)
  | array (elements : List Json)
  /-- The members, by their names. -/
  | object (names : List String) (distinct : names.Nodup) (member : Fin names.length → Json)
deriving Inhabited

end PercentFormat
