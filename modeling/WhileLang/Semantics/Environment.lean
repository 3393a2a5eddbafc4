import Std.Data.TreeMap.Lemmas
import WhileLang.Semantics.Value

/-!
# Environments

An environment binds names to values.  It is listed in the order of the names,
character by character, which is also the order of their UTF-8 forms.
-/

namespace WhileLang

/-- A finite map from names to values. -/
structure Environment where
  bindings : Std.TreeMap String Value

namespace Environment

/-- The environment without bindings. -/
def empty : Environment :=
  { bindings := ∅ }

/-- The value of a name. -/
def get? (environment : Environment) (name : String) : Option Value :=
  environment.bindings[name]?

/-- Whether a name is bound. -/
def contains (environment : Environment) (name : String) : Bool :=
  (environment.get? name).isSome

/-- Binds a name, in place of any binding that it had. -/
def assign (environment : Environment) (name : String) (value : Value) : Environment :=
  { bindings := environment.bindings.insert name value }

/-- The number of bound names. -/
def size (environment : Environment) : Nat :=
  environment.bindings.size

/-- The bindings in the order of their names. -/
def toList (environment : Environment) : List (String × Value) :=
  environment.bindings.toList

/-- Makes the bindings of a list one after the other. -/
def ofList (bindings : List (String × Value)) : Environment :=
  bindings.foldl (fun environment binding => environment.assign binding.1 binding.2) empty

/-- Whether two environments bind the same names to equal values, where floats are
compared as numbers. -/
def agrees (first second : Environment) : Bool :=
  let same (left right : String × Value) : Bool := left.1 == right.1 && left.2.agrees right.2
  first.size == second.size && (first.toList.zip second.toList).all fun (left, right) =>
    same left right

@[simp]
theorem get?_empty (name : String) : empty.get? name = none := by
  simp [empty, get?]

/-- A name has the value that was assigned to it last. -/
@[simp]
theorem get?_assign (environment : Environment) (name other : String) (value : Value) :
    (environment.assign name value).get? other =
      if name = other then some value else environment.get? other := by
  simp [assign, get?, Std.TreeMap.getElem?_insert]

end Environment

end WhileLang
