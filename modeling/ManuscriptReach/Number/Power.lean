/-!
# Powers of two and of ten
-/

namespace ManuscriptReach

/-- Two to the power of a natural number. -/
def twoTo (n : Nat) : Nat := Nat.pow 2 n

/-- Ten to the power of a natural number. -/
def tenTo (n : Nat) : Nat := Nat.pow 10 n

end ManuscriptReach
