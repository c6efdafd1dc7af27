/-! # Powers of two and ten

The two kinds of powers that number formats are made of.
-/

namespace QueryCompiler
set_option autoImplicit false

/-- Two to the power `n`. -/
def twoPow (n : Nat) : Nat := Nat.pow 2 n

/-- Ten to the power `n`. -/
def tenPow (n : Nat) : Nat := Nat.pow 10 n

end QueryCompiler
