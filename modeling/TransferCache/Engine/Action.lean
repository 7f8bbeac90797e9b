import TransferCache.Engine.Basic

/-!
# Runs of an engine

The operations of an engine as data, what each of them answers, and runs of any number of them. A
failed operation is an answer like any other: the run goes on from the state it left behind.
-/

namespace TransferCache

/-- An operation of an engine. -/
inductive Action where
  | register (block : Block)
  | resolve (guest : GuestAddr)
  | call (site ret : GuestAddr)
  | ret (actual : GuestAddr)
  | jump (target : GuestAddr)
  | flushCode
  | flushStack
  deriving DecidableEq, Repr

/-- What an operation answers. -/
inductive Answer where
  /-- How many slots a registered block filled. -/
  | linked (count : Nat)
  | resolved (result : Except UnknownBlock Block)
  | called (result : Except SlotsExhausted CallSite)
  /-- Where a return or a jump went. -/
  | transferred (result : Except UnknownBlock Transfer)
  | done
  deriving Repr

/-- The host code that a transfer or a resolution leads to; nothing for any other operation. -/
def Answer.target? : Answer → Option (Except UnknownBlock HostAddr)
  | .resolved result => some (result.map Block.host)
  | .transferred result => some (result.map Transfer.host)
  | .linked _ | .called _ | .done => none

namespace Engine

variable {κ : Type}

def step (compile : Compile κ) (engine : Engine κ) : Action → Outcome (Engine κ) Answer
  | .register block => (engine.register block).map .linked
  | .resolve guest => (resolve compile engine guest).map .resolved
  | .call site ret => (engine.call site ret).map .called
  | .ret actual => (ret compile engine actual).map .transferred
  | .jump target => (jump compile engine target).map .transferred
  | .flushCode => engine.flushCode.map fun _ => .done
  | .flushStack => engine.flushStack.map fun _ => .done

/-- Runs operations in order and gives their answers in the same order. -/
def run (compile : Compile κ) (engine : Engine κ) : List Action → Outcome (Engine κ) (List Answer)
  | [] => ⟨[], engine, []⟩
  | action :: actions =>
    (step compile engine action).andThen fun answer engine =>
      (run compile engine actions).map (answer :: ·)

theorem state_run_append (compile : Compile κ) (engine : Engine κ) (earlier later : List Action) :
    (run compile engine (earlier ++ later)).state =
      (run compile (run compile engine earlier).state later).state := by
  induction earlier generalizing engine with
  | nil => rfl
  | cons action actions ih => exact ih (step compile engine action).state

end Engine

end TransferCache
