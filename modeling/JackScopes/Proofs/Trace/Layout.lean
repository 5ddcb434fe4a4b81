import JackScopes.Proofs.Text.Layout
import JackScopes.Proofs.Trace.Failure

/-!
# Traces laid out in another way

A trace is followed for what its lines hold. So blanks, comments, empty lines and the way
lines are ended change nothing but the numbers of the lines, which complaints tell.
-/

namespace JackScopes

def Fault.renumbered (number : Nat → Nat) : Fault → Fault
  | .script line complaint => .script (number line) complaint
  | fault => fault

namespace Trace

open Text (Respaced Edit Relaid)

variable {policy : UnknownNames}

-- ---------------------------------------------------------------------------
-- One line
-- ---------------------------------------------------------------------------

theorem Statement.ofLine?_of_content {line other : List Char}
    (h : Text.content other = Text.content line) :
    Statement.ofLine? other = Statement.ofLine? line := by
  rw [Text.content, Text.content] at h
  rw [ofLine?, ofLine?, h]

theorem Progress.step_of_content {line other : List Char}
    (h : Text.content other = Text.content line) (progress : Progress) :
    progress.step policy other = progress.step policy line := by
  rw [step, step, Statement.ofLine?_of_content h]

theorem Progress.step_of_spare {line : List Char} (h : Text.content line = [])
    (progress : Progress) : progress.step policy line = pure progress := by
  have hempty : Text.content line = Text.content [] := h
  rw [step_of_content hempty]
  rfl

theorem Refusal.fault_renumbered (refusal : Refusal) (number : Nat → Nat) (line : Nat) :
    (refusal.fault line).renumbered number = refusal.fault (number line) := by
  cases refusal <;> rfl

-- ---------------------------------------------------------------------------
-- All lines
-- ---------------------------------------------------------------------------

theorem follow_cons_of_spare {line : List Char} (h : Text.content line = []) (number : Nat)
    (progress : Progress) (lines : List (List Char)) :
    follow policy number progress (line :: lines) = follow policy (number + 1) progress lines := by
  rw [follow, Progress.step_of_spare h]
  rfl

theorem follow_of_spare {lines : List (List Char)} (h : ∀ line ∈ lines, Text.content line = [])
    (number : Nat) (progress : Progress) : follow policy number progress lines = pure progress := by
  induction lines generalizing number with
  | nil => rfl
  | cons line lines ih =>
    rw [follow_cons_of_spare (h line List.mem_cons_self)]
    exact ih (fun other ho => h other (List.mem_cons_of_mem _ ho)) (number + 1)

theorem follow_respaced {lines others : List (List Char)} (h : Respaced lines others)
    (number : Nat) (progress : Progress) :
    follow policy number progress others = follow policy number progress lines := by
  induction h generalizing number progress with
  | spare hspare => exact follow_of_spare hspare number progress
  | line hcontent _ ih =>
    rw [follow, follow, Progress.step_of_content hcontent]
    exact bind_congr fun next => ih (number + 1) next

/-- The numbers of lines are only told, in faults. -/
theorem follow_renumbered {number : Nat → Nat} {first other : Nat} {lines : List (List Char)}
    (h : ∀ i < lines.length, number (first + i) = other + i) (progress : Progress) :
    (follow policy first progress lines).mapError (·.renumbered number) =
      follow policy other progress lines := by
  induction lines generalizing first other progress with
  | nil => rfl
  | cons line lines ih =>
    have hfirst : number first = other := h 0 (by simp)
    have hfault : Fault.renumbered number ∘ Refusal.fault first = Refusal.fault other := by
      funext refusal
      rw [Function.comp_apply, Refusal.fault_renumbered, hfirst]
    have hrest (next : Progress) :
        (follow policy (first + 1) next lines).mapError (·.renumbered number) =
          follow policy (other + 1) next lines := by
      refine ih (fun i hi => ?_) next
      rw [Nat.add_assoc, Nat.add_comm 1, h (i + 1) (by simpa using hi)]
      omega
    rw [follow, follow, Logged.mapError_bind, Logged.mapError_mapError, hfault]
    exact bind_congr hrest

-- ---------------------------------------------------------------------------
-- Edits
-- ---------------------------------------------------------------------------

theorem follow_edit {text other : List Char} {place : Option Nat} (h : Edit text other place) :
    follow policy 1 {} (Text.lines other) =
      (follow policy 1 {} (Text.lines text)).mapError
        (·.renumbered fun n => n + if ∃ above ∈ place, above < n then 1 else 0) := by
  rcases h.rows with ⟨hplace, hrespaced⟩ | ⟨above, below, line, rfl, hlines, hother, hspare⟩
  · rw [follow_respaced hrespaced]
    refine (follow_renumbered (fun i hi => ?_) _).symm
    have hbehind : ¬ ∃ above ∈ place, above < 1 + i := by
      rintro ⟨above, habove, hlt⟩
      have := hplace above habove
      omega
    rw [if_neg hbehind]
    rfl
  · let number (n : Nat) := n + if ∃ k ∈ some above.length, k < n then 1 else 0
    have hstays (i : Nat) (hi : i < above.length) : number (1 + i) = 1 + i := by
      have hbefore : ¬ ∃ k ∈ some above.length, k < 1 + i := by
        simp only [Option.mem_some_iff, exists_eq_left']
        omega
      simp only [number, if_neg hbefore, Nat.add_zero]
    have hmoves (i : Nat) (_ : i < below.length) :
        number (1 + above.length + i) = 1 + above.length + 1 + i := by
      have hbehind : ∃ k ∈ some above.length, k < 1 + above.length + i := ⟨_, rfl, by omega⟩
      simp only [number, if_pos hbehind]
      omega
    rw [hlines, hother, follow_append, follow_append, Logged.mapError_bind,
      follow_renumbered hstays]
    refine bind_congr fun reached => ?_
    rw [follow_cons_of_spare hspare, follow_renumbered hmoves]

theorem follow_relaid {text other : List Char} {inserted : Nat → Nat}
    (h : Relaid text other inserted) :
    follow policy 1 {} (Text.lines other) =
      (follow policy 1 {} (Text.lines text)).mapError
        (·.renumbered fun n => n + inserted n) := by
  induction h with
  | same => exact (follow_renumbered (fun _ _ => rfl) _).symm
  | edit _ hedit ih =>
    rw [follow_edit hedit, ih, Logged.mapError_mapError]
    congr 1
    funext fault
    cases fault <;> simp [Fault.renumbered, Nat.add_assoc]

/-- The layout of a trace does not matter. With blanks around its lines, comments behind
them, lines of nothing else put between them and other endings, a trace is followed to
the same report and the same log. If it is refused, it is refused alike, and a complaint
tells where its line has gone. -/
theorem replay_relaid {text other : String} {inserted : Nat → Nat}
    (h : Relaid text.toList other.toList inserted) (policy : UnknownNames) :
    (replay policy other).events = (replay policy text).events ∧
      (∀ report, (replay policy text).outcome = .ok report →
        (replay policy other).outcome = .ok report) ∧
      (∀ n complaint, (replay policy text).outcome = .error (.script n complaint) →
        (replay policy other).outcome = .error (.script (n + inserted n) complaint)) ∧
      ∀ name, (replay policy text).outcome = .error (.unknownName name) →
        (replay policy other).outcome = .error (.unknownName name) := by
  have hreplay : replay policy other =
      (replay policy text).mapError (·.renumbered fun n => n + inserted n) := by
    rw [replay_eq, replay_eq, follow_relaid h, Logged.mapError_bind]
    rfl
  rw [hreplay, Logged.events_mapError, Logged.outcome_mapError]
  refine ⟨rfl, ?_, ?_, ?_⟩
  · intro report hok
    rw [hok]
    rfl
  · intro n complaint herror
    rw [herror]
    rfl
  · intro name herror
    rw [herror]
    rfl

def draft : String :=
  "class A\nvar int x,\nresolve x"

def revised : String :=
  "\t// a trace\r\n  class A\r\nvar int x, /// y\nresolve x"

theorem replay_relaid_revised :
    ∃ inserted, Relaid draft.toList revised.toList inserted ∧
      (replay .aliasField draft).outcome = .error (.script 2 "malformed name list: `x,`") ∧
      inserted 2 = 1 ∧
      (replay .aliasField revised).outcome = .error (.script 3 "malformed name list: `x,`") := by
  have hblank : Text.Blanks ['\t'] ∧ Text.Blanks [' ', ' '] := by simp [Text.Blanks, Text.isBlank]
  have hcommented : Edit draft.toList "class A\nvar int x, /// y\nresolve x".toList none :=
    @Edit.comment "class A\n".toList "var int x,".toList "/ y".toList "\nresolve x".toList ' '
      ⟨.inr rfl, by decide, .inr ⟨_, _, .newline, rfl⟩⟩ rfl (by decide) (by decide)
  have hindented : Edit "class A\nvar int x, /// y\nresolve x".toList
      "  class A\nvar int x, /// y\nresolve x".toList none :=
    @Edit.indent [] [' ', ' '] "class A".toList "\nvar int x, /// y\nresolve x".toList
      ⟨.inl rfl, by decide, .inr ⟨_, _, .newline, rfl⟩⟩ hblank.2 (by decide)
  have hreturned : Edit "  class A\nvar int x, /// y\nresolve x".toList
      "  class A\r\nvar int x, /// y\nresolve x".toList none :=
    @Edit.returned [] "  class A".toList "var int x, /// y\nresolve x".toList
      ⟨.inl rfl, by decide, .inr ⟨_, _, .newline, rfl⟩⟩
  have hheaded : Edit "  class A\r\nvar int x, /// y\nresolve x".toList revised.toList (some 0) :=
    @Edit.insert [] "\t// a trace".toList ['\r', '\n']
      "  class A\r\nvar int x, /// y\nresolve x".toList (.inl rfl)
      ⟨by decide, ['\t'], hblank.1, .inr ⟨" a trace".toList, rfl⟩⟩ .returned
  have hrelaid := (((Relaid.same.edit hcommented).edit hindented).edit hreturned).edit hheaded
  have hfault : (replay .aliasField draft).outcome =
      .error (.script 2 "malformed name list: `x,`") :=
    Logged.failure?_eq_some.mp (by decide +kernel)
  obtain ⟨-, -, hcomplaint, -⟩ := replay_relaid hrelaid .aliasField
  exact ⟨_, hrelaid, hfault, rfl, hcomplaint _ _ hfault⟩

end Trace

end JackScopes
