import FormulaReader.Event

/-!
Activities: steps that work on a state, may fail, and leave a list of events whether they fail or
not.
-/

namespace FormulaReader

structure Outcome (ε σ α : Type) where
  result : Except ε α
  state : σ
  /-- What happened on the way, in order. -/
  events : List Event

namespace Outcome

variable {ε σ α β : Type}

/-- The outcome with `earlier` events before its own. -/
def after (earlier : List Event) (o : Outcome ε σ α) : Outcome ε σ α :=
  { o with events := earlier ++ o.events }

/-- The outcome with `f` applied to its value, if it has one. -/
def map (f : α → β) (o : Outcome ε σ α) : Outcome ε σ β :=
  { o with result := o.result.map f }

@[simp] theorem after_nil (o : Outcome ε σ α) : o.after [] = o := by
  simp [after]

@[simp] theorem after_after (first second : List Event) (o : Outcome ε σ α) :
    (o.after second).after first = o.after (first ++ second) := by
  simp [after]

@[simp] theorem result_after (earlier : List Event) (o : Outcome ε σ α) :
    (o.after earlier).result = o.result := rfl

@[simp] theorem state_after (earlier : List Event) (o : Outcome ε σ α) :
    (o.after earlier).state = o.state := rfl

@[simp] theorem events_after (earlier : List Event) (o : Outcome ε σ α) :
    (o.after earlier).events = earlier ++ o.events := rfl

end Outcome

def Activity (ε σ α : Type) : Type :=
  σ → Outcome ε σ α

namespace Activity

variable {ε σ α β γ : Type}

/-- Goes on with `next` from where an outcome ended, unless it failed. -/
def andThen (o : Outcome ε σ α) (next : α → Activity ε σ β) : Outcome ε σ β :=
  match o.result with
  | .error e => ⟨.error e, o.state, o.events⟩
  | .ok a => (next a o.state).after o.events

instance : Monad (Activity ε σ) where
  pure a := fun s => ⟨.ok a, s, []⟩
  bind m next := fun s => andThen (m s) next
  map f m := fun s => (m s).map f

theorem pure_apply (a : α) (s : σ) :
    (pure a : Activity ε σ α) s = ⟨.ok a, s, []⟩ := rfl

theorem map_apply (f : α → β) (m : Activity ε σ α) (s : σ) :
    (f <$> m) s = (m s).map f := rfl

theorem bind_apply (m : Activity ε σ α) (next : α → Activity ε σ β) (s : σ) :
    (m >>= next) s = andThen (m s) next := rfl

@[simp] theorem andThen_ok (a : α) (s : σ) (events : List Event) (next : α → Activity ε σ β) :
    andThen ⟨.ok a, s, events⟩ next = (next a s).after events := rfl

@[simp] theorem andThen_error (e : ε) (s : σ) (events : List Event)
    (next : α → Activity ε σ β) :
    andThen (⟨.error e, s, events⟩ : Outcome ε σ α) next = ⟨.error e, s, events⟩ := rfl

/-- Leaves `events`. -/
def record (events : List Event) : Activity ε σ Unit :=
  fun s => ⟨.ok (), s, events⟩

/-- Leaves a note. -/
def note (n : Note) : Activity ε σ Unit :=
  record [.noted n]

theorem id_map_eq (m : Activity ε σ α) : id <$> m = m := by
  funext s
  cases shape : m s with
  | mk result later events =>
      cases result <;> simp [map_apply, shape, Outcome.map, Except.map]

theorem pure_bind_eq (a : α) (next : α → Activity ε σ β) : pure a >>= next = next a := by
  funext s
  simp [bind_apply, pure_apply]

theorem bind_assoc_eq
    (m : Activity ε σ α)
    (next : α → Activity ε σ β)
    (further : β → Activity ε σ γ) :
    m >>= next >>= further = m >>= fun a => next a >>= further := by
  funext s
  cases shape : m s with
  | mk result later events =>
      cases result with
      | error e => simp [bind_apply, shape]
      | ok a =>
          cases inner : next a later with
          | mk result last more =>
              cases result <;> simp [bind_apply, shape, inner, Outcome.after]

theorem bind_pure_comp_eq (f : α → β) (m : Activity ε σ α) :
    (m >>= fun a => pure (f a)) = f <$> m := by
  funext s
  cases shape : m s with
  | mk result later events =>
      cases result <;>
        simp [bind_apply, map_apply, shape, Outcome.map, Except.map, Outcome.after, pure_apply]

instance : LawfulMonad (Activity ε σ) :=
  LawfulMonad.mk' (Activity ε σ) id_map_eq pure_bind_eq bind_assoc_eq
    (fun _ _ => rfl) (fun _ _ => rfl) (fun _ _ => rfl) bind_pure_comp_eq

end Activity

end FormulaReader
