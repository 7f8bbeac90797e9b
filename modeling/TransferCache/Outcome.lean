import TransferCache.Event

/-!
# Outcomes of operations

An operation on a state yields a value, the state it leaves behind and the events it logs, in order.
A failed operation is one whose value says so: the state and the events are kept all the same.
-/

namespace TransferCache

structure Outcome (σ α : Type) where
  value : α
  state : σ
  events : List Event := []

namespace Outcome

variable {σ τ α β : Type}

/-- Changes the value alone. -/
def map (f : α → β) (outcome : Outcome σ α) : Outcome σ β :=
  ⟨f outcome.value, outcome.state, outcome.events⟩

/-- Sees the state as a part of a larger one. -/
def within (embed : σ → τ) (outcome : Outcome σ α) : Outcome τ α :=
  ⟨outcome.value, embed outcome.state, outcome.events⟩

/-- Goes on from an outcome; events are logged in the order of the operations. -/
def andThen (outcome : Outcome σ α) (next : α → σ → Outcome σ β) : Outcome σ β :=
  let later := next outcome.value outcome.state
  ⟨later.value, later.state, outcome.events ++ later.events⟩

@[simp] theorem value_map (f : α → β) (outcome : Outcome σ α) :
    (outcome.map f).value = f outcome.value := rfl

@[simp] theorem state_map (f : α → β) (outcome : Outcome σ α) :
    (outcome.map f).state = outcome.state := rfl

@[simp] theorem events_map (f : α → β) (outcome : Outcome σ α) :
    (outcome.map f).events = outcome.events := rfl

@[simp] theorem value_within (embed : σ → τ) (outcome : Outcome σ α) :
    (outcome.within embed).value = outcome.value := rfl

@[simp] theorem state_within (embed : σ → τ) (outcome : Outcome σ α) :
    (outcome.within embed).state = embed outcome.state := rfl

@[simp] theorem events_within (embed : σ → τ) (outcome : Outcome σ α) :
    (outcome.within embed).events = outcome.events := rfl

@[simp] theorem value_andThen (outcome : Outcome σ α) (next : α → σ → Outcome σ β) :
    (outcome.andThen next).value = (next outcome.value outcome.state).value := rfl

@[simp] theorem state_andThen (outcome : Outcome σ α) (next : α → σ → Outcome σ β) :
    (outcome.andThen next).state = (next outcome.value outcome.state).state := rfl

@[simp] theorem events_andThen (outcome : Outcome σ α) (next : α → σ → Outcome σ β) :
    (outcome.andThen next).events =
      outcome.events ++ (next outcome.value outcome.state).events := rfl

/-- Going on in a larger state is going on in the smaller one if the next operation is. That
operation may be the one that changes how the larger state is made from the smaller. -/
theorem andThen_within {embed after : σ → τ} {outcome : Outcome σ α}
    {next : α → σ → Outcome σ β} {larger : α → τ → Outcome τ β}
    (agree : larger outcome.value (embed outcome.state) =
      (next outcome.value outcome.state).within after) :
    (outcome.within embed).andThen larger = (outcome.andThen next).within after := by
  unfold andThen
  simp only [value_within, state_within, agree]
  rfl

end Outcome

end TransferCache
