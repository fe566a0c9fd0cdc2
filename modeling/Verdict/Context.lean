import Std.Data.TreeMap.Lemmas
import Verdict.Host.Reader
import Verdict.Host.Writer

namespace Verdict

-- The host values bound to names.
structure Context where
  bindings : Std.TreeMap String HostValue compare

namespace Context

def empty : Context := ⟨∅⟩

def get? (context : Context) (name : String) : Option HostValue := context.bindings[name]?

def contains (context : Context) (name : String) : Bool := context.bindings.contains name

def size (context : Context) : Nat := context.bindings.size

def isEmpty (context : Context) : Bool := context.bindings.isEmpty

def insert (context : Context) (name : String) (value : HostValue) : Context :=
  ⟨context.bindings.insert name value⟩

def erase (context : Context) (name : String) : Context := ⟨context.bindings.erase name⟩

-- Binds each name in turn, so that of two values for one name the later counts.
def insertMany (context : Context) (pairs : List (String × HostValue)) : Context :=
  ⟨context.bindings.insertMany pairs⟩

def ofList (pairs : List (String × HostValue)) : Context := empty.insertMany pairs

theorem get?_empty (name : String) : empty.get? name = none := by
  simp [empty, get?]

theorem get?_insert (context : Context) (name other : String) (value : HostValue) :
    (context.insert name value).get? other =
      if name = other then some value else context.get? other := by
  simp [insert, get?, Std.TreeMap.getElem?_insert]

theorem get?_erase (context : Context) (name other : String) :
    (context.erase name).get? other = if name = other then none else context.get? other := by
  simp [erase, get?, Std.TreeMap.getElem?_erase]

theorem contains_eq_isSome (context : Context) (name : String) :
    context.contains name = (context.get? name).isSome := by
  exact Std.TreeMap.contains_eq_isSome_getElem?

-- The bindings in ascending order of their names.
def toList (context : Context) : List (String × HostValue) := context.bindings.toList

def same (left right : Context) : Bool := HostValue.sameMembers left.toList right.toList

-- The context whose bindings are the members of one object.
def read? (text : String) : Option Context :=
  match HostValue.read? text with
  | some (.object members) => some (ofList members)
  | _ => none

def render (context : Context) : String := (HostValue.object context.toList).render

end Context

end Verdict
