import BroadcastAudit.Layout
import BroadcastAudit.Proofs.Text.Words

set_option autoImplicit false

namespace BroadcastAudit.Numeral

theorem read?_eq_some_iff_denotes (digits : List Char) (n : Nat) :
    read? digits = some n ↔ Denotes digits n := by
  rw [read?_eq_some_iff, Denotes]
  constructor
  next => exact fun ⟨decimal, small, same⟩ => ⟨decimal, same, same ▸ small⟩
  next => exact fun ⟨decimal, same, small⟩ => ⟨decimal, same ▸ small, same⟩

theorem isBlank_of_isDigit {c : Char} (digit : c.isDigit = true) : Text.isBlank c = false := by
  have range : 48 ≤ c.toNat ∧ c.toNat ≤ 57 := by
    simpa [Char.isDigit, UInt32.le_iff_toNat_le] using digit
  simp only [Text.isBlank, Text.blankRanges, List.any_cons, List.any_nil, Bool.or_false,
    Bool.or_eq_false_iff, Bool.and_eq_false_iff, decide_eq_false_iff_not]
  omega

variable {digits : List Char} {n : Nat}

theorem Denotes.nonempty (denotes : Denotes digits n) : digits ≠ [] := by
  have decimal := denotes.1
  rintro rfl
  cases decimal

theorem Denotes.isDigit (denotes : Denotes digits n) : ∀ c ∈ digits, c.isDigit = true := by
  have decimal := denotes.1
  simp only [isDigits, Bool.and_eq_true, List.all_eq_true] at decimal
  exact decimal.2

theorem Denotes.isWord (denotes : Denotes digits n) : Text.IsWord digits where
  nonempty := denotes.nonempty
  solid c member := by
    have solid := isBlank_of_isDigit (denotes.isDigit c member)
    by_contra separator
    rw [Text.isBlank_of_isFieldSeparator (by simpa using separator)] at solid
    cases solid

theorem toList_toString (n : Nat) : (toString n).toList = Nat.toDigits 10 n := by
  rw [Nat.toString_eq_ofList_toDigits, String.toList_ofList]

theorem isDigit_toString (n : Nat) : ∀ c ∈ (toString n).toList, c.isDigit = true := by
  rw [toList_toString]
  exact fun c => Nat.isDigit_of_mem_toDigits (by decide) (by decide)

theorem denotes_toString (small : n < limit) : Denotes (toString n).toList n := by
  have decimal := isDigit_toString n
  rw [toList_toString] at decimal ⊢
  refine ⟨?_, Nat.ofDigitChars_toDigits (by decide) (by decide), small⟩
  simp only [isDigits, Bool.and_eq_true, Bool.not_eq_true', List.isEmpty_eq_false_iff,
    List.all_eq_true]
  exact ⟨Nat.toDigits_ne_nil, decimal⟩

end BroadcastAudit.Numeral
