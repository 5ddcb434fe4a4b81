import JackScopes.Proofs.Trace.Meaning

/-!
# Which traces are accepted

`replay_succeeds_iff`: a trace is followed to its end exactly if each of its lines
says a sentence, and each sentence fits behind those before it. Nothing is asked of
the progress of the replay: whether a sentence fits is told by the sentences alone.
-/

namespace JackScopes.Trace

/-- Whether a sentence fits behind others. A class is opened once; all else needs a
class; and where unknown names are refused, a name to resolve needs a declaration
in sight. -/
def Fits (policy : UnknownNames) (before : List Sentence) : Sentence → Prop
  | .blank => True
  | .openClass name => .openClass name ∉ before
  | .startSubroutine _ | .declare .. => ∃ className, .openClass className ∈ before
  | .resolve name =>
    (∃ className, .openClass className ∈ before) ∧
      (policy = .reject → ∃ kind, name ∈ (visible kind before).map Declaration.name)

namespace Progress

theorem hasClass_heedAll {before : List Sentence} {name : String} :
    (heedAll {} before).hasClass name = false ↔ .openClass name ∉ before := by
  rw [hasClass_eq_false_iff, classes_heedAll, mem_openedClasses_iff]

theorem isSome_current_heedAll {before : List Sentence} :
    (heedAll {} before).current.isSome ↔ ∃ className, .openClass className ∈ before := by
  rw [current_heedAll, Option.isSome_map, classAt_isSome_iff]

theorem isSome_resolve_tableAt {before : List Sentence} {name : String} :
    ((tableAt before).resolve name).isSome ↔
      ∃ kind, name ∈ (visible kind before).map Declaration.name := by
  rw [Option.isSome_iff_ne_none, ne_eq, resolve_tableAt_eq_none_iff, Classical.not_forall]
  exact exists_congr fun kind => Classical.not_not

theorem admits_heedAll_iff {policy : UnknownNames} {before : List Sentence}
    {sentence : Sentence} :
    (heedAll {} before).Admits policy sentence ↔ Fits policy before sentence := by
  cases sentence with
  | blank => exact Iff.rfl
  | openClass name => exact hasClass_heedAll
  | startSubroutine name => exact isSome_current_heedAll
  | declare kind type names => exact isSome_current_heedAll
  | resolve name =>
    rw [Fits, ← isSome_current_heedAll, ← isSome_resolve_tableAt, Admits, current_heedAll]
    cases classAt before <;> simp

end Progress

end JackScopes.Trace
