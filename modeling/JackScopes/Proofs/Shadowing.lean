import JackScopes.Proofs.History

/-!
# Shadowing

A name is resolved in the subroutine's scope first, and its type is looked up in the class
scope first. So the two are about different entries exactly if the name is live in both
scopes. Once the next subroutine starts, only the class scope is left, and it tells where
the type of a name came from: `type_of_outermost`.
-/

namespace JackScopes

namespace Table

def lookupIn (table : Table) (level : Level) (name : String) : Option Entry :=
  table.lookup (Kind.resolveOrder.filter (·.level = level)) name

variable {table : Table}

theorem lookup_append (table : Table) (nearer farther : List Kind) (name : String) :
    table.lookup (nearer ++ farther) name =
      (table.lookup nearer name).or (table.lookup farther name) :=
  List.findSome?_append

theorem resolve_eq_or (table : Table) (name : String) :
    table.resolve name =
      (table.lookupIn .perSubroutine name).or (table.lookupIn .perClass name) :=
  table.lookup_append [.arg, .var] [.static, .field] name

theorem lookup_typeOrder_eq_or (table : Table) (name : String) :
    table.lookup Kind.typeOrder name =
      (table.lookupIn .perClass name).or (table.lookupIn .perSubroutine name) :=
  table.lookup_append [.static, .field] [.arg, .var] name

theorem lookupIn_startSubroutine (table : Table) (level : Level) (name : String) :
    table.startSubroutine.lookupIn level name =
      if level = .perSubroutine then none else table.lookupIn level name := by
  cases level <;> rfl

/-- What the class scope has of a name is what it means when the next subroutine starts. -/
theorem resolve_startSubroutine (table : Table) (name : String) :
    table.startSubroutine.resolve name = table.lookupIn .perClass name := by
  rw [resolve_eq_or, lookupIn_startSubroutine, lookupIn_startSubroutine]
  rfl

theorem lookup_typeOrder_startSubroutine (table : Table) (name : String) :
    table.startSubroutine.lookup Kind.typeOrder name = table.lookupIn .perClass name := by
  rw [lookup_typeOrder_eq_or, lookupIn_startSubroutine, lookupIn_startSubroutine]
  exact Option.or_none

theorem Indexed.level_of_lookupIn (h : table.Indexed) {level : Level} {name : String}
    {entry : Entry} (hl : table.lookupIn level name = some entry) : entry.kind.level = level := by
  obtain ⟨kind, hk, hfind⟩ := List.exists_of_findSome?_eq_some hl
  rw [(h kind).find?_eq] at hfind
  rw [h.kind_of_mem (List.mem_of_find?_eq_some hfind)]
  simpa using (List.mem_filter.mp hk).2

/-- The two orders begin with different scopes, and find different entries exactly if each
of the scopes has one. -/
theorem Indexed.lookup_typeOrder_ne_resolve_iff (h : table.Indexed) (name : String) :
    table.lookup Kind.typeOrder name ≠ table.resolve name ↔
      table.lookupIn .perClass name ≠ none ∧ table.lookupIn .perSubroutine name ≠ none := by
  rw [lookup_typeOrder_eq_or, resolve_eq_or]
  cases houter : table.lookupIn .perClass name with
  | none => simp
  | some outer =>
    cases hinner : table.lookupIn .perSubroutine name with
    | none => simp
    | some inner =>
      have hne : outer ≠ inner := by
        rintro rfl
        cases (h.level_of_lookupIn houter).symm.trans (h.level_of_lookupIn hinner)
      simp [hne]

end Table

namespace Session

def LiveIn (level : Level) (commands : List Command) (name : String) : Prop :=
  ∃ kind : Kind, kind.level = level ∧ name ∈ (live kind commands).map Declaration.name

theorem lookupIn_final_ne_none_iff {commands : List Command} {level : Level} {name : String} :
    (final {} commands).lookupIn level name ≠ none ↔ LiveIn level commands name := by
  have indexed := indexed_final .fresh commands
  have hfind (kind : Kind) : ((final {} commands).category kind).find? name = none ↔
      name ∉ (live kind commands).map Declaration.name := by
    rw [(indexed kind).find?_eq]
    exact find?_entries_final_eq_none_iff
  rw [Table.lookupIn, Table.lookup, Ne, List.findSome?_eq_none_iff]
  simp only [hfind, List.mem_filter, decide_eq_true_eq, not_forall, not_not, LiveIn]
  constructor
  · rintro ⟨kind, ⟨-, hlevel⟩, hlive⟩
    exact ⟨kind, hlevel, hlive⟩
  · rintro ⟨kind, hlevel, hlive⟩
    exact ⟨kind, ⟨by cases kind <;> decide, hlevel⟩, hlive⟩

/-- A name has a type exactly if it means something. The type is that of the entry it will
mean once the next subroutine starts, even where a declaration of the subroutine shadows
that one, and else that of the entry it means. So the type is another entry's exactly if
the name is live in both scopes, and never right after a subroutine starts. -/
theorem type_of_outermost (commands : List Command) (name : String) :
    let table := final {} commands
    let started := table.startSubroutine
    let typed := table.lookup [.static, .field, .arg, .var] name
    (table.typeOf name = none ↔ table.resolve name = none) ∧
      (∀ entry, started.resolve name = some entry → table.typeOf name = some entry.type) ∧
      (started.resolve name = none →
        table.typeOf name = (table.resolve name).map Entry.type) ∧
      table.typeOf name = typed.map Entry.type ∧
      (typed ≠ table.resolve name ↔
        LiveIn .perClass commands name ∧ LiveIn .perSubroutine commands name) ∧
      started.lookup [.static, .field, .arg, .var] name = started.resolve name ∧
      started.typeOf name = (started.resolve name).map Entry.type := by
  intro table started typed
  have indexed : table.Indexed := indexed_final .fresh commands
  have htyped : typed = (table.lookupIn .perClass name).or (table.lookupIn .perSubroutine name) :=
    table.lookup_typeOrder_eq_or name
  have hmeant := table.resolve_eq_or name
  have hstarted : started.resolve name = table.lookupIn .perClass name :=
    table.resolve_startSubroutine name
  have hagree : started.lookup Kind.typeOrder name = started.resolve name :=
    (table.lookup_typeOrder_startSubroutine name).trans hstarted.symm
  have htype : table.typeOf name = typed.map Entry.type := rfl
  refine ⟨?_, ?_, ?_, htype, ?_, hagree, ?_⟩
  · rw [htype, Option.map_eq_none_iff, htyped, hmeant, Option.or_eq_none_iff,
      Option.or_eq_none_iff, and_comm]
  · intro entry hentry
    rw [htype, htyped, ← hstarted, hentry]
    rfl
  · intro hnone
    rw [htype, htyped, hmeant, ← hstarted, hnone, Option.or_none, Option.none_or]
  · rw [← lookupIn_final_ne_none_iff, ← lookupIn_final_ne_none_iff]
    exact indexed.lookup_typeOrder_ne_resolve_iff name
  · rw [Table.typeOf, hagree]

/-- A variable of the subroutine shadows a field, whose type is still the one that is told. -/
theorem type_of_outermost_shadowed :
    let table := final {} [.define .field "x" "int", .define .var "x" "char"]
    table.resolve "x" = some ⟨"x", "char", .var, 0⟩ ∧
      table.startSubroutine.resolve "x" = some ⟨"x", "int", .field, 0⟩ ∧
      table.typeOf "x" = some "int" := by
  intro table
  have hstarted : table.startSubroutine.resolve "x" = some ⟨"x", "int", .field, 0⟩ := by
    decide +kernel
  obtain ⟨-, houter, -⟩ :=
    type_of_outermost [.define .field "x" "int", .define .var "x" "char"] "x"
  exact ⟨by decide +kernel, hstarted, houter _ hstarted⟩

end Session

end JackScopes
