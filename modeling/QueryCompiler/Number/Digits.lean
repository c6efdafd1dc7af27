/-! # Decimal digits

Naturals as decimal digits of a least width, and back.
-/

namespace QueryCompiler
set_option autoImplicit false

/-- `n` zeros. -/
def zeros (n : Nat) : String := String.ofList (List.replicate n '0')

/-- The decimal digits of `n`, with leading zeros up to `width` digits. -/
def padded (width n : Nat) : String :=
  let digits := n.repr
  zeros (width - digits.length) ++ digits

/-- The natural with the given decimal digits. -/
def ofDigits (digits : List Char) : Nat :=
  digits.foldl (fun n c => 10 * n + (c.toNat - '0'.toNat)) 0

theorem isDigit_of_mem_repr {n : Nat} {c : Char} (h : c ∈ n.repr.toList) : c.isDigit = true := by
  rw [Nat.toList_repr] at h
  exact Nat.isDigit_of_mem_toDigits (by decide) (by decide) h

/-- A natural is read back from its digits. -/
theorem ofDigits_repr (n : Nat) : ofDigits n.repr.toList = n := by
  have hback := Nat.ofDigitChars_ten_toDigits (n := n)
  rw [Nat.ofDigitChars_eq_foldl, ← Nat.toList_repr] at hback
  exact hback

end QueryCompiler
