/-!
# References

The categories that a module depends on, in the order in which they were first
met and each of them once.  The list starts with the category that every module
depends on.
-/

namespace Ambient

/-- The keys of referenced categories in the order of their first occurrence. -/
structure References where
  keys : List String
deriving DecidableEq

namespace References

/-- The references of a module that has met nothing yet. -/
def start (foundational : String) : References :=
  ⟨[foundational]⟩

def contains (r : References) (key : String) : Bool :=
  r.keys.contains key

/-- Remember a category, unless it is known; the flag tells whether it is new. -/
def insertNew (r : References) (key : String) : Bool × References :=
  if r.contains key then (false, r) else (true, ⟨r.keys ++ [key]⟩)

def insert (r : References) (key : String) : References :=
  (r.insertNew key).2

def size (r : References) : Nat :=
  r.keys.length

end References

end Ambient
