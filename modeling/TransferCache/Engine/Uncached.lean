import TransferCache.Engine.Action

/-!
# Engines without caches

What an engine computes, without how it computes it faster: the state is the registry and the
compiler alone, and every target is looked up, or else compiled and registered.
-/

namespace TransferCache

/-- An engine without caches. -/
structure Uncached (κ : Type) where
  registry : Registry
  compiler : κ
  deriving DecidableEq, Repr

namespace Uncached

variable {κ : Type}

def create (compiler : κ) : Uncached κ := ⟨.empty, compiler⟩

/-- The host code for a guest address, found in the registry, or else compiled. -/
def resolve (compile : Compile κ) (engine : Uncached κ) (guest : GuestAddr) :
    Except UnknownBlock HostAddr × Uncached κ :=
  match engine.registry.lookup guest with
  | some block => (.ok block.host, engine)
  | none =>
    match compile engine.compiler guest with
    | (none, compiler) => (.error ⟨guest⟩, { engine with compiler })
    | (some host, compiler) => (.ok host, ⟨engine.registry.insert ⟨guest, host⟩, compiler⟩)

/-- One operation: its target, where it has one, and the engine after it. -/
def step (compile : Compile κ) (engine : Uncached κ) :
    Action → Option (Except UnknownBlock HostAddr) × Uncached κ
  | .register block => (none, { engine with registry := engine.registry.insert block })
  | .resolve guest | .ret guest | .jump guest =>
    let (result, after) := resolve compile engine guest
    (some result, after)
  | .call .. | .flushStack => (none, engine)
  | .flushCode => (none, { engine with registry := .empty })

/-- Runs operations in order and gives their targets in the same order. -/
def run (compile : Compile κ) (engine : Uncached κ) :
    List Action → List (Option (Except UnknownBlock HostAddr)) × Uncached κ
  | [] => ([], engine)
  | action :: actions =>
    let (target, after) := step compile engine action
    let (targets, last) := run compile after actions
    (target :: targets, last)

end Uncached

/-- What an engine without caches has in common with one that has them. -/
def Engine.uncached {κ : Type} (engine : Engine κ) : Uncached κ :=
  ⟨engine.registry, engine.compiler⟩

end TransferCache
