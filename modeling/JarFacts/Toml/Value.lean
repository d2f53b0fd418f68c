/-!
# TOML values

What a configuration file says.  Fractional numbers and points in time are recognised, but nothing
ever asks for their values.
-/

namespace JarFacts

/-- A TOML value. -/
inductive Toml where
  | string (text : String)
  | integer (value : Int)
  | float
  | bool (value : Bool)
  | time
  | array (items : List Toml)
  | table (members : List (String × Toml))
  deriving Inhabited

end JarFacts
