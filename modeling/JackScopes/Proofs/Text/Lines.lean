import JackScopes.Text.Lines
import Mathlib.Data.List.Basic

/-!
# Texts cut between lines

The first lines of a text are a text of their own, with exactly these lines; and a
text put behind a line feed adds its own lines to those before it.
-/

namespace JackScopes.Text

/-- The start of a text, with as many lines as told and the ending of the last. -/
def firstLines : Nat → List Char → List Char
  | 0, _ => []
  | _ + 1, [] => []
  | n + 1, '\n' :: cs => '\n' :: firstLines n cs
  | n + 1, c :: cs => c :: firstLines (n + 1) cs

/-- Nothing stands behind the last line feed. -/
def Finished (cs : List Char) : Prop :=
  cs = [] ∨ cs.getLast? = some '\n'

theorem Finished.tail {c : Char} {cs : List Char} (h : Finished (c :: cs)) : Finished cs := by
  rcases h with h | h
  · cases h
  · cases cs with
    | nil => exact .inl rfl
    | cons d ds => exact .inr (by simpa using h)

-- ---------------------------------------------------------------------------
-- What a character does to the lines behind it
-- ---------------------------------------------------------------------------

theorem lines_newline (cs : List Char) : lines ('\n' :: cs) = [] :: lines cs := by
  rw [lines]

/-- A carriage return right before a line feed is in no line. -/
theorem lines_return {cs : List Char} (h : cs.head? = some '\n') :
    lines ('\r' :: cs) = lines cs := by
  obtain ⟨rest, rfl⟩ := List.head?_eq_some_iff.mp h
  simp [lines]

theorem lines_cons {c : Char} {cs : List Char} (hc : c ≠ '\n')
    (hr : ¬ (c = '\r' ∧ cs.head? = some '\n')) : lines (c :: cs) = extendFirst c (lines cs) := by
  rw [lines]
  · exact hc
  · rintro rest rfl rfl
    exact hr ⟨rfl, rfl⟩

theorem lines_ne_nil {cs : List Char} (h : cs ≠ []) : lines cs ≠ [] := by
  fun_cases lines cs with
  | case1 => exact absurd rfl h
  | case2 cs | case3 cs => simp
  | case4 c cs => cases lines cs <;> simp [extendFirst]

theorem extendFirst_append {c : Char} {ls : List (List Char)} (h : ls ≠ [])
    (ms : List (List Char)) : extendFirst c (ls ++ ms) = extendFirst c ls ++ ms := by
  cases ls with
  | nil => exact absurd rfl h
  | cons l ls => rfl

theorem extendFirst_take (c : Char) (ls : List (List Char)) (n : Nat) :
    extendFirst c (ls.take (n + 1)) = (extendFirst c ls).take (n + 1) := by
  cases ls <;> simp [extendFirst]

-- ---------------------------------------------------------------------------
-- The lines of the parts of a text
-- ---------------------------------------------------------------------------

theorem head?_firstLines_succ (n : Nat) (cs : List Char) :
    (firstLines (n + 1) cs).head? = cs.head? := by
  cases cs with
  | nil => rfl
  | cons c cs => by_cases hc : c = '\n' <;> simp [firstLines, hc]

theorem lines_firstLines (n : Nat) (cs : List Char) :
    lines (firstLines n cs) = (lines cs).take n := by
  fun_induction firstLines n cs with
  | case1 cs => simp [lines]
  | case2 n => simp [lines]
  | case3 n cs ih => simp [lines_newline, ih]
  | case4 n c cs hc ih =>
    -- the cut keeps the line feed behind a carriage return that goes with it
    by_cases hr : c = '\r' ∧ cs.head? = some '\n'
    · obtain ⟨rfl, hhead⟩ := hr
      have hfirst : (firstLines (n + 1) cs).head? = some '\n' := by
        rw [head?_firstLines_succ, hhead]
      rw [lines_return hfirst, lines_return hhead, ih]
    · have hfirst : ¬ (c = '\r' ∧ (firstLines (n + 1) cs).head? = some '\n') := by
        rwa [head?_firstLines_succ]
      rw [lines_cons hc hfirst, lines_cons hc hr, ih, extendFirst_take]

theorem lines_append {cs : List Char} (h : Finished cs) (ds : List Char) :
    lines (cs ++ ds) = lines cs ++ lines ds := by
  induction cs with
  | nil => rfl
  | cons c cs ih =>
    have hcs := ih h.tail
    by_cases hc : c = '\n'
    · rw [hc, List.cons_append, lines_newline, lines_newline, hcs]
      rfl
    · have hne : cs ≠ [] := by
        rintro rfl
        simp [Finished, hc] at h
      have hhead : (cs ++ ds).head? = cs.head? := List.head?_append_of_ne_nil cs hne
      rw [List.cons_append]
      by_cases hr : c = '\r' ∧ cs.head? = some '\n'
      · obtain ⟨rfl, hnewline⟩ := hr
        rw [lines_return (hhead.trans hnewline), lines_return hnewline, hcs]
      · rw [lines_cons hc (by rwa [hhead]), lines_cons hc hr, hcs,
          extendFirst_append (lines_ne_nil hne)]

/-- A text without a line feed is one line once it is ended, but for a carriage return
that the ending would take in. -/
theorem lines_ended {cs : List Char} (hnewline : '\n' ∉ cs) (hreturn : cs.getLast? ≠ some '\r') :
    lines (cs ++ ['\n']) = [cs] := by
  induction cs with
  | nil => rfl
  | cons c cs ih =>
    have hc : c ≠ '\n' := fun hc => hnewline (by simp [hc])
    have hcs : '\n' ∉ cs := fun hmem => hnewline (List.mem_cons_of_mem _ hmem)
    cases cs with
    | nil =>
      have hr : c ≠ '\r' := fun hr => hreturn (by simp [hr])
      rw [List.cons_append, lines_cons hc fun h => hr h.1]
      rfl
    | cons d ds =>
      have hd : d ≠ '\n' := fun hd => hcs (by simp [hd])
      rw [List.cons_append, lines_cons hc fun h => hd (by simpa using h.2),
        ih hcs (by simpa using hreturn)]
      rfl

theorem lines_flatMap_ended {ls : List (List Char)} (hnewline : ∀ l ∈ ls, '\n' ∉ l)
    (hreturn : ∀ l ∈ ls, l.getLast? ≠ some '\r') : lines (ls.flatMap (· ++ ['\n'])) = ls := by
  induction ls with
  | nil => rfl
  | cons l ls ih =>
    have hfinished : Finished (l ++ ['\n']) := .inr (by simp)
    have hfirst := lines_ended (hnewline l List.mem_cons_self) (hreturn l List.mem_cons_self)
    have hlater := ih (fun m hm => hnewline m (List.mem_cons_of_mem _ hm))
      fun m hm => hreturn m (List.mem_cons_of_mem _ hm)
    rw [List.flatMap_cons, lines_append hfinished, hfirst, hlater]
    rfl

end JackScopes.Text
