set_option autoImplicit false

namespace BroadcastAudit.Numeral

def limit : Nat := Nat.pow 2 64

def isDigits (text : List Char) : Bool :=
  !text.isEmpty && text.all Char.isDigit

def value (digits : List Char) : Nat :=
  digits.foldl (fun value digit => 10 * value + (digit.toNat - '0'.toNat)) 0

-- The value is exact, so digits beyond the limit are noticed however many there are.
def read? (text : List Char) : Option Nat :=
  if isDigits text && value text < limit then some (value text) else none

theorem read?_eq_some_iff (text : List Char) (n : Nat) :
    read? text = some n ↔ isDigits text = true ∧ value text < limit ∧ value text = n := by
  simp [read?, and_assoc]

theorem lt_limit_of_read? (text : List Char) (n : Nat) (h : read? text = some n) : n < limit := by
  obtain ⟨-, lt, eq⟩ := (read?_eq_some_iff text n).1 h
  exact eq ▸ lt

end BroadcastAudit.Numeral
