/-!
Tables: association lists that keep the order in which their keys were first put. A key that is put
again keeps its place and takes the new value.
-/

namespace Polyglot

abbrev Table (α : Type) := List (String × α)

namespace Table

variable {α : Type}

def get? (table : Table α) (key : String) : Option α := table.lookup key

def contains (table : Table α) (key : String) : Bool := (table.get? key).isSome

def keys (table : Table α) : List String := table.map (·.1)

def values (table : Table α) : List α := table.map (·.2)

/-- Gives a key a value; a new key goes to the end. -/
def put (key : String) (value : α) : Table α → Table α
  | [] => [(key, value)]
  | (k, v) :: rest => if k = key then (key, value) :: rest else (k, v) :: put key value rest

def remove (key : String) (table : Table α) : Table α := table.filter (·.1 != key)

end Table
end Polyglot
