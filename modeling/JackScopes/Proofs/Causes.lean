import JackScopes.Fault
import Mathlib.Data.List.Infix

/-!
# Chains of causes

A fault is a row of contexts around a leaf, and a leaf has no cause. Asking for sources
takes the contexts off one at a time, outermost first, and ends with the leaf. What a fault
says on the way is what is still on it: the contexts and then the leaf, joined by colons.
-/

namespace JackScopes.Fault

def IsLeaf : Fault → Prop
  | failureFrom .. => False
  | unknownKind _ | unknownName _ | script .. | failure _ | message _ => True

/-- Contexts around a fault, outermost first. -/
def nested (contexts : List String) (leaf : Fault) : Fault :=
  contexts.foldr failureFrom leaf

/-- What is reached by asking for the source so many times. -/
def cause? (fault : Fault) : Nat → Option Fault
  | 0 => some fault
  | depth + 1 => (fault.cause? depth).bind source?

-- ---------------------------------------------------------------------------
-- Contexts
-- ---------------------------------------------------------------------------

@[simp] theorem nested_nil (leaf : Fault) : nested [] leaf = leaf := rfl

@[simp] theorem nested_cons (context : String) (contexts : List String) (leaf : Fault) :
    nested (context :: contexts) leaf = failureFrom context (nested contexts leaf) := rfl

theorem nested_append (outer inner : List String) (leaf : Fault) :
    nested (outer ++ inner) leaf = nested outer (nested inner leaf) :=
  List.foldr_append

theorem text_nested (contexts : List String) (leaf : Fault) :
    (nested contexts leaf).text = ": ".intercalate (contexts ++ [leaf.text]) := by
  induction contexts with
  | nil => simp
  | cons context contexts ih =>
    have hne : contexts ++ [leaf.text] ≠ [] := by simp
    rw [nested_cons, text_failureFrom, ih, List.cons_append,
      String.intercalate_cons_of_ne_nil hne]

-- ---------------------------------------------------------------------------
-- Sources
-- ---------------------------------------------------------------------------

theorem IsLeaf.source?_eq {leaf : Fault} (h : leaf.IsLeaf) : leaf.source? = none := by
  cases leaf with
  | failureFrom context source => exact h.elim
  | _ => rfl

theorem cause?_succ (fault : Fault) (depth : Nat) :
    fault.cause? (depth + 1) = fault.source?.bind (·.cause? depth) := by
  induction depth with
  | zero => cases h : fault.source? <;> simp [cause?, h]
  | succ depth ih =>
    rw [cause?, ih]
    cases fault.source? <;> simp [cause?]

/-- The chain of a fault is what asking for sources reaches, in that order. -/
theorem getElem?_chain (fault : Fault) (depth : Nat) :
    fault.chain[depth]? = fault.cause? depth := by
  induction depth generalizing fault with
  | zero => rw [chain_eq, cause?, List.getElem?_cons_zero]
  | succ depth ih =>
    rw [chain_eq, cause?_succ, List.getElem?_cons_succ]
    cases fault.source? <;> simp [ih]

theorem chain_nested (contexts : List String) {leaf : Fault} (h : leaf.IsLeaf) :
    (nested contexts leaf).chain = contexts.tails.map (nested · leaf) := by
  induction contexts with
  | nil => rw [chain_eq, nested_nil, h.source?_eq]; simp
  | cons context contexts ih => simp [chain, ih]

/-- As many questions as there are contexts take just these off. -/
theorem cause?_nested_append (outer inner : List String) (leaf : Fault) :
    (nested (outer ++ inner) leaf).cause? outer.length = some (nested inner leaf) := by
  induction outer with
  | nil => rfl
  | cons context outer ih =>
    rw [List.length_cons, cause?_succ]
    exact ih

/-- What a fault says and what caused it agree at every depth. With contexts nested around
a leaf, asking for sources visits the nested faults in order and stops at the leaf. Each of
them says the contexts from it inward and then what the leaf says, joined by colons, so
that every text on the way is the one before without its first context. A file that could
not be read is such a fault too: the leaf is the reason, in one context more. -/
theorem texts_of_nested (contexts : List String) {leaf : Fault} (h : leaf.IsLeaf) :
    let fault := nested contexts leaf
    (∀ depth, fault.cause? depth = fault.chain[depth]?) ∧
      fault.chain = contexts.tails.map (nested · leaf) ∧
      fault.chain.map text =
        contexts.tails.map (fun inner => ": ".intercalate (inner ++ [leaf.text])) ∧
      (∀ outer context inner, contexts = outer ++ context :: inner →
        ∃ before after, fault.cause? outer.length = some before ∧
          fault.cause? (outer.length + 1) = some after ∧
          before.text = context ++ ": " ++ after.text) ∧
      ∀ reason, nested contexts (unreadable reason) =
        nested (contexts ++ ["file I/O failure"]) (message reason) := by
  intro fault
  have hchain : fault.chain = contexts.tails.map (nested · leaf) := chain_nested contexts h
  refine ⟨fun depth => (getElem?_chain fault depth).symm, hchain, ?_, ?_, fun reason => ?_⟩
  · simp [hchain, text_nested]
  · rintro outer context inner rfl
    have hbefore : fault.cause? outer.length = some (nested (context :: inner) leaf) :=
      cause?_nested_append ..
    refine ⟨_, nested inner leaf, hbefore, ?_, rfl⟩
    rw [cause?, hbefore]
    rfl
  · rw [nested_append]
    rfl

theorem texts_of_nested_colons :
    IsLeaf (script 18446744073709551615 "expected a type") ∧
      (nested ["run: A", ""] (script 18446744073709551615 "expected a type")).chain.map text =
        ["run: A: : line 18446744073709551615: expected a type",
          ": line 18446744073709551615: expected a type",
          "line 18446744073709551615: expected a type"] := by
  have hleaf : IsLeaf (script 18446744073709551615 "expected a type") := trivial
  obtain ⟨-, -, htexts, -⟩ := texts_of_nested ["run: A", ""] hleaf
  exact ⟨hleaf, htexts.trans (by decide +kernel)⟩

end JackScopes.Fault
