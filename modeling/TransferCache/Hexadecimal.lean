import TransferCache.Address

/-!
# Written addresses

Addresses and constants are written in lower-case hexadecimal after `0x`, without leading zeros.
-/

namespace TransferCache

/-- A number in lower-case hexadecimal after `0x`. -/
def hexText (n : Nat) : String := "0x" ++ String.ofList (Nat.toDigits 16 n)

def GuestAddr.text (guest : GuestAddr) : String := hexText guest.word.toNat

def HostAddr.text (host : HostAddr) : String := hexText host.word.toNat

end TransferCache
