import JackScopes.Kind

/-!
# Entries

A declared identifier, and the place in memory where code finds its variable.
-/

namespace JackScopes

structure Storage where
  segment : Segment
  index : Nat
  deriving DecidableEq

structure Entry where
  name : String
  /-- The declared type. Nothing here looks into it. -/
  type : String
  kind : Kind
  /-- How many entries of the kind came before. -/
  index : Nat
  deriving DecidableEq

def Storage.text (storage : Storage) : String :=
  storage.segment.name ++ " " ++ toString storage.index

def Entry.storage (entry : Entry) : Storage :=
  ⟨entry.kind.segment, entry.index⟩

def Entry.text (entry : Entry) : String :=
  entry.kind.name ++ " " ++ toString entry.index ++ " " ++ entry.name ++ ": " ++ entry.type

end JackScopes
