import JackScopes.Category
import JackScopes.Log.Event

/-!
# Symbol tables

The declarations of one class: a scope for the class and, once it is open, one
for the subroutine at hand. Starting a subroutine discards the scope of the one
before; declaring an argument or a variable outside of any subroutine opens a
scope for it.

Names resolve innermost scope first. The type of a name is looked up outermost
scope first, so that it may be another entry's type than the one the name
resolves to.
-/

namespace JackScopes

structure SubroutineScope where
  args : Category := {}
  vars : Category := {}

structure Table where
  statics : Category := {}
  fields : Category := {}
  subroutine : Option SubroutineScope := none

def Kind.resolveOrder : List Kind :=
  [.arg, .var, .static, .field]

def Kind.typeOrder : List Kind :=
  [.static, .field, .arg, .var]

namespace Table

-- ---------------------------------------------------------------------------
-- Scopes and categories
-- ---------------------------------------------------------------------------

def inSubroutine (table : Table) : Bool :=
  table.subroutine.isSome

/-- The subroutine's scope, empty while none is open. -/
def inner (table : Table) : SubroutineScope :=
  table.subroutine.getD {}

def category (table : Table) : Kind → Category
  | .static => table.statics
  | .field => table.fields
  | .arg => table.inner.args
  | .var => table.inner.vars

/-- Puts a category in place, opening a subroutine scope if it needs one. -/
def withCategory (table : Table) (category : Category) : Kind → Table
  | .static => { table with statics := category }
  | .field => { table with fields := category }
  | .arg => { table with subroutine := some { table.inner with args := category } }
  | .var => { table with subroutine := some { table.inner with vars := category } }

-- ---------------------------------------------------------------------------
-- Operations, and the events of each
-- ---------------------------------------------------------------------------

def startSubroutine (table : Table) : Table :=
  { table with subroutine := some {} }

def startEvents (table : Table) : List Event :=
  match table.subroutine with
  | some scope => [.scopeDiscarded scope.args.size scope.vars.size]
  | none => []

def count (table : Table) (kind : Kind) : Nat :=
  (table.category kind).size

def define (table : Table) (kind : Kind) (name type : String) : Table :=
  table.withCategory ((table.category kind).add kind name type) kind

def opensScope (table : Table) (kind : Kind) : Bool :=
  kind.level = .perSubroutine && !table.inSubroutine

def defineEvents (table : Table) (kind : Kind) (name type : String) : List Event :=
  (if table.opensScope kind then [.scopeOpened kind] else []) ++
    (if (table.category kind).contains name then [.redefined name kind (table.count kind)]
      else []) ++
    [.defined name kind (table.count kind) type]

-- ---------------------------------------------------------------------------
-- Queries
-- ---------------------------------------------------------------------------

def entries (table : Table) (kind : Kind) : List Entry :=
  (table.category kind).entries.toList

def lookup (table : Table) (order : List Kind) (name : String) : Option Entry :=
  order.findSome? fun kind => (table.category kind).find? name

def resolve (table : Table) (name : String) : Option Entry :=
  table.lookup Kind.resolveOrder name

/-- The kind of a name; a name that no scope declares counts as a field. -/
def kindOf (table : Table) (name : String) : Kind :=
  ((table.resolve name).map Entry.kind).getD .field

def typeOf (table : Table) (name : String) : Option String :=
  (table.lookup Kind.typeOrder name).map Entry.type

def indexOf (table : Table) (name : String) : Option Nat :=
  (table.resolve name).map Entry.index

def storageOf (table : Table) (name : String) : Option Storage :=
  (table.resolve name).map Entry.storage

def counts (table : Table) : List Nat :=
  Kind.all.map table.count

-- ---------------------------------------------------------------------------
-- Text
-- ---------------------------------------------------------------------------

def entriesText (table : Table) (outer inner : Kind) : String :=
  String.join
    ((table.entries outer ++ table.entries inner).map fun entry => "    " ++ entry.text ++ "\n")

def text (table : Table) : String :=
  "class scope:\n" ++ table.entriesText .static .field ++
    (if table.inSubroutine then "subroutine scope:\n" ++ table.entriesText .arg .var
      else "subroutine scope: (none)\n")

-- ---------------------------------------------------------------------------
-- What the operations do to scopes and categories
-- ---------------------------------------------------------------------------

theorem category_withCategory (table : Table) (category : Category) (kind other : Kind) :
    (table.withCategory category kind).category other =
      if other = kind then category else table.category other := by
  cases kind <;> cases other <;> rfl

theorem inSubroutine_withCategory (table : Table) (category : Category) (kind : Kind) :
    (table.withCategory category kind).inSubroutine =
      (table.inSubroutine || kind.level = .perSubroutine) := by
  cases kind <;> simp [withCategory, inSubroutine, Kind.level]

theorem category_startSubroutine (table : Table) (kind : Kind) :
    table.startSubroutine.category kind =
      if kind.level = .perSubroutine then {} else table.category kind := by
  cases kind <;> rfl

@[simp] theorem inSubroutine_startSubroutine (table : Table) :
    table.startSubroutine.inSubroutine = true := rfl

theorem category_define (table : Table) (kind other : Kind) (name type : String) :
    (table.define kind name type).category other =
      if other = kind then (table.category kind).add kind name type else table.category other :=
  category_withCategory ..

theorem inSubroutine_define (table : Table) (kind : Kind) (name type : String) :
    (table.define kind name type).inSubroutine =
      (table.inSubroutine || kind.level = .perSubroutine) :=
  inSubroutine_withCategory ..

theorem entries_define (table : Table) (kind other : Kind) (name type : String) :
    (table.define kind name type).entries other =
      table.entries other ++
        (if other = kind then [⟨name, type, kind, table.count kind⟩] else []) := by
  unfold entries
  rw [category_define]
  split
  · next h => simp [h, count]
  · simp

theorem entries_startSubroutine (table : Table) (kind : Kind) :
    table.startSubroutine.entries kind =
      if kind.level = .perSubroutine then [] else table.entries kind := by
  unfold entries
  rw [category_startSubroutine]
  split <;> rfl

@[simp] theorem length_entries (table : Table) (kind : Kind) :
    (table.entries kind).length = table.count kind :=
  Array.length_toList

end Table

end JackScopes
