import JackScopes.Entry
import Std.Data.TreeMap

/-!
# Categories

The entries of one kind in the order of their definitions, beside an index from
each name to the position of its first definition. A name may be defined again;
looking it up keeps finding the first definition.
-/

namespace JackScopes

structure Category where
  entries : Array Entry := #[]
  /-- The position of the first entry of each name. -/
  first : Std.TreeMap String Nat := {}

namespace Category

def size (category : Category) : Nat :=
  category.entries.size

def contains (category : Category) (name : String) : Bool :=
  category.first.contains name

def find? (category : Category) (name : String) : Option Entry :=
  category.first[name]?.bind (category.entries[·]?)

/-- Adds an entry behind all others; its index is the number of those. The limit of
2 ^ 32 - 1 entries to a category, at which the program panics, is left out. -/
def add (category : Category) (kind : Kind) (name type : String) : Category :=
  { entries := category.entries.push ⟨name, type, kind, category.size⟩
    first := category.first.insertIfNew name category.size }

@[simp] theorem entries_add (category : Category) (kind : Kind) (name type : String) :
    (category.add kind name type).entries =
      category.entries.push ⟨name, type, kind, category.size⟩ := rfl

@[simp] theorem size_add (category : Category) (kind : Kind) (name type : String) :
    (category.add kind name type).size = category.size + 1 := by
  simp [size]

end Category

end JackScopes
