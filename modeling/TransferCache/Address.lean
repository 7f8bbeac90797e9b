/-!
# Guest and host addresses

Guest addresses name instructions of the emulated program and key every cache. Host addresses name
compiled code; host address zero stands for code that does not exist yet.

Two functions turn a guest address into a table index: `GuestAddr.lowBits` keeps the low-order bits,
and `GuestAddr.foldBits` first folds the upper half of those bits onto the lower half, so that
return points with the same offset in different pages meet different buckets.
-/

namespace TransferCache

/-- Where an instruction of the emulated program lives. -/
structure GuestAddr where
  word : UInt64
  deriving DecidableEq, Repr

/-- Where a piece of compiled code can be entered. -/
structure HostAddr where
  word : UInt64
  deriving DecidableEq, Repr

/-- A compiled block: the guest code it stands for and where its host code is entered. -/
structure Block where
  guest : GuestAddr
  host : HostAddr
  deriving DecidableEq, Repr

/-! ## Reserved addresses -/

/-- What a slot holds until its target is compiled. -/
def HostAddr.unresolved : HostAddr := ⟨0⟩

def HostAddr.isUnresolved (host : HostAddr) : Bool := host = .unresolved

theorem HostAddr.isUnresolved_iff {host : HostAddr} :
    host.isUnresolved = true ↔ host = .unresolved := by
  simp [isUnresolved]

/-- The largest guest address. No instruction lives there, so no return can name it. -/
def GuestAddr.last : GuestAddr := ⟨0xffffffffffffffff⟩

/-! ## Table indices -/

/-- The number of entries of a table that is indexed by so many bits. -/
def tableSize (bits : Nat) : Nat := 1 <<< bits

theorem tableSize_pos (bits : Nat) : 0 < tableSize bits := by
  rw [tableSize, Nat.one_shiftLeft]
  exact Nat.two_pow_pos bits

/-- The low-order `bits` bits of the address. -/
def GuestAddr.lowBits (guest : GuestAddr) (bits : Nat) : Nat :=
  guest.word.toNat % tableSize bits

/-- The low-order `bits` bits of the address after its own upper half of them is folded onto the
lower half. -/
def GuestAddr.foldBits (guest : GuestAddr) (bits : Nat) : Nat :=
  ((guest.word.toNat >>> (bits / 2)) ^^^ guest.word.toNat) % tableSize bits

theorem GuestAddr.lowBits_lt (guest : GuestAddr) (bits : Nat) :
    guest.lowBits bits < tableSize bits :=
  Nat.mod_lt _ (tableSize_pos bits)

theorem GuestAddr.foldBits_lt (guest : GuestAddr) (bits : Nat) :
    guest.foldBits bits < tableSize bits :=
  Nat.mod_lt _ (tableSize_pos bits)

end TransferCache
