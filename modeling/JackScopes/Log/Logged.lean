import JackScopes.Log.Event

/-!
# Logged computations

A computation that may fail and logs events as it goes. What was logged before
a failure stays logged: `events_bind` and `outcome_bind` say how two
computations follow one another.
-/

namespace JackScopes

structure Logged (ε α : Type) where
  events : List Event
  outcome : Except ε α

namespace Logged

variable {ε ζ α β : Type}

@[ext] theorem ext {x y : Logged ε α} (he : x.events = y.events) (ho : x.outcome = y.outcome) :
    x = y := by
  cases x
  cases y
  simp_all

def pure (a : α) : Logged ε α :=
  ⟨[], .ok a⟩

def bind (x : Logged ε α) (next : α → Logged ε β) : Logged ε β :=
  match x.outcome with
  | .ok a =>
    let y := next a
    ⟨x.events ++ y.events, y.outcome⟩
  | .error e => ⟨x.events, .error e⟩

instance : Monad (Logged ε) where
  pure := pure
  bind := bind

def emit (events : List Event) : Logged ε Unit :=
  ⟨events, .ok ()⟩

def fail (e : ε) : Logged ε α :=
  ⟨[], .error e⟩

def ofExcept (outcome : Except ε α) : Logged ε α :=
  ⟨[], outcome⟩

def mapError (f : ε → ζ) (x : Logged ε α) : Logged ζ α :=
  ⟨x.events, x.outcome.mapError f⟩

-- ---------------------------------------------------------------------------
-- What each operation logs and yields
-- ---------------------------------------------------------------------------

@[simp] theorem events_pure (a : α) : (Pure.pure a : Logged ε α).events = [] := rfl

@[simp] theorem outcome_pure (a : α) : (Pure.pure a : Logged ε α).outcome = .ok a := rfl

@[simp] theorem events_emit (events : List Event) :
    (emit events : Logged ε Unit).events = events := rfl

@[simp] theorem outcome_emit (events : List Event) :
    (emit events : Logged ε Unit).outcome = .ok () := rfl

@[simp] theorem events_fail (e : ε) : (fail e : Logged ε α).events = [] := rfl

@[simp] theorem outcome_fail (e : ε) : (fail e : Logged ε α).outcome = .error e := rfl

@[simp] theorem events_ofExcept (outcome : Except ε α) : (ofExcept outcome).events = [] := rfl

@[simp] theorem outcome_ofExcept (outcome : Except ε α) :
    (ofExcept outcome).outcome = outcome := rfl

@[simp] theorem events_mapError (f : ε → ζ) (x : Logged ε α) :
    (x.mapError f).events = x.events := rfl

@[simp] theorem outcome_mapError (f : ε → ζ) (x : Logged ε α) :
    (x.mapError f).outcome = x.outcome.mapError f := rfl

theorem events_bind (x : Logged ε α) (next : α → Logged ε β) :
    (x >>= next).events =
      x.events ++ (match x.outcome with | .ok a => (next a).events | .error _ => []) := by
  change (bind x next).events = _
  unfold bind
  cases x.outcome <;> simp

theorem outcome_bind (x : Logged ε α) (next : α → Logged ε β) :
    (x >>= next).outcome = x.outcome.bind fun a => (next a).outcome := by
  change (bind x next).outcome = _
  unfold bind
  cases x.outcome <;> rfl

theorem events_bind_of_ok {x : Logged ε α} {a : α} (h : x.outcome = .ok a)
    (next : α → Logged ε β) : (x >>= next).events = x.events ++ (next a).events := by
  rw [events_bind, h]

theorem outcome_bind_of_ok {x : Logged ε α} {a : α} (h : x.outcome = .ok a)
    (next : α → Logged ε β) : (x >>= next).outcome = (next a).outcome := by
  rw [outcome_bind, h]
  rfl

theorem events_bind_of_error {x : Logged ε α} {e : ε} (h : x.outcome = .error e)
    (next : α → Logged ε β) : (x >>= next).events = x.events := by
  rw [events_bind, h]
  exact List.append_nil _

theorem outcome_bind_of_error {x : Logged ε α} {e : ε} (h : x.outcome = .error e)
    (next : α → Logged ε β) : (x >>= next).outcome = .error e := by
  rw [outcome_bind, h]
  rfl

theorem map_id (x : Logged ε α) : id <$> x = x := by
  change bind x _ = x
  ext1
  · unfold bind
    cases h : x.outcome <;> simp [Logged.pure]
  · unfold bind
    cases h : x.outcome <;> rfl

theorem pure_bind (a : α) (next : α → Logged ε β) : Pure.pure a >>= next = next a := rfl

theorem bind_assoc {γ : Type} (x : Logged ε α) (next : α → Logged ε β) (last : β → Logged ε γ) :
    x >>= next >>= last = x >>= fun a => next a >>= last := by
  ext1
  · simp only [events_bind, outcome_bind]
    cases x.outcome with
    | ok a => cases h : (next a).outcome <;> simp [h, Except.bind]
    | error e => simp [Except.bind]
  · simp only [outcome_bind]
    cases x.outcome <;> rfl

instance : LawfulMonad (Logged ε) :=
  .mk' _ map_id pure_bind bind_assoc

theorem bind_eq_of_ok {x : Logged ε α} {a : α} (h : x.outcome = .ok a)
    (next : α → Logged ε β) : x >>= next = ⟨x.events ++ (next a).events, (next a).outcome⟩ :=
  ext (events_bind_of_ok h next) (outcome_bind_of_ok h next)

/-- What follows a failure does not happen. -/
theorem bind_eq_of_error {x : Logged ε α} {e : ε} (h : x.outcome = .error e)
    (next : α → Logged ε β) : x >>= next = ⟨x.events, .error e⟩ :=
  ext (events_bind_of_error h next) (outcome_bind_of_error h next)

-- ---------------------------------------------------------------------------
-- Mapped results and failures
-- ---------------------------------------------------------------------------

@[simp] theorem events_map (f : α → β) (x : Logged ε α) : (f <$> x).events = x.events := by
  rw [← bind_pure_comp, events_bind]
  cases x.outcome <;> simp

@[simp] theorem outcome_map (f : α → β) (x : Logged ε α) :
    (f <$> x).outcome = x.outcome.map f := by
  rw [← bind_pure_comp, outcome_bind]
  cases x.outcome <;> rfl

theorem mapError_map (f : ε → ζ) (g : α → β) (x : Logged ε α) :
    (g <$> x).mapError f = g <$> x.mapError f := by
  ext1
  · simp
  · simp only [outcome_mapError, outcome_map]
    cases x.outcome <;> rfl

theorem mapError_mapError {η : Type} (f : ε → ζ) (g : ζ → η) (x : Logged ε α) :
    (x.mapError f).mapError g = x.mapError (g ∘ f) := by
  ext1
  · rfl
  · simp only [outcome_mapError]
    cases x.outcome <;> rfl

theorem mapError_bind (f : ε → ζ) (x : Logged ε α) (next : α → Logged ε β) :
    (x >>= next).mapError f = x.mapError f >>= fun a => (next a).mapError f := by
  ext1
  · simp only [events_mapError, events_bind, outcome_mapError]
    cases x.outcome <;> rfl
  · simp only [outcome_mapError, outcome_bind]
    cases x.outcome <;> rfl

end Logged

end JackScopes
