import TransferCache.Code.Op

/-!
# Building operation lists

A builder holds the operations of a block so far and how many registers and labels it has given out.
Registers and labels are numbered from zero within a builder, so that whatever is appended next does
not meddle with what is there already.
-/

namespace TransferCache.Code

structure Builder where
  ops : Array Op
  temps : Nat
  labels : Nat
  deriving DecidableEq, Repr

namespace Builder

def empty : Builder := ⟨#[], 0, 0⟩

/-- The register that is given out after `offset` more. -/
def freshTemp (builder : Builder) (offset : Nat) : Temp := ⟨(builder.temps + offset).toUInt16⟩

/-- The label that is given out after `offset` more. -/
def freshLabel (builder : Builder) (offset : Nat) : Label :=
  ⟨(builder.labels + offset).toUInt16⟩

/-- Appends operations that use the given numbers of fresh registers and labels. -/
def extend (builder : Builder) (temps labels : Nat) (ops : List Op) : Builder :=
  ⟨builder.ops ++ ops, builder.temps + temps, builder.labels + labels⟩

def newTemp (builder : Builder) : Temp × Builder :=
  (builder.freshTemp 0, builder.extend 1 0 [])

def newLabel (builder : Builder) : Label × Builder :=
  (builder.freshLabel 0, builder.extend 0 1 [])

def append (builder : Builder) (op : Op) : Builder := builder.extend 0 0 [op]

/-- Places a label after the operations so far. -/
def place (builder : Builder) (label : Label) : Builder := builder.append (.label label)

@[simp] theorem toList_ops_extend (builder : Builder) (temps labels : Nat) (ops : List Op) :
    (builder.extend temps labels ops).ops.toList = builder.ops.toList ++ ops :=
  Array.toList_appendList

end Builder

end TransferCache.Code
