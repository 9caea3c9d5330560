/-!
# Positional notation

The digits of a whole number in any base above one, and the number of a list of digits. Zero has
no digits, so the first digit of a number is never zero.

## Main definitions

* `Radix.digits`: the digits of a number, highest first
* `Radix.ofDigits`: the number of a list of digits, highest first
-/

namespace LedgerClient.Radix

/-- Puts the digits of `n` before `tail`. -/
def digitsOnto (base n : Nat) (tail : List Nat) : List Nat :=
  if _h : 1 < base ∧ 0 < n then digitsOnto base (n / base) (n % base :: tail) else tail
termination_by n
decreasing_by exact Nat.div_lt_self _h.2 _h.1

/-- The digits of a number in a base, highest first. -/
def digits (base n : Nat) : List Nat :=
  digitsOnto base n []

/-- The number with the given digits, highest first. -/
def ofDigits (base : Nat) (ds : List Nat) : Nat :=
  ds.foldl (fun n d => base * n + d) 0

end LedgerClient.Radix
