/-!
# Powers of ten
-/

set_option autoImplicit false

namespace SchemaPress

/-- A power of ten. -/
def tenTo (n : Nat) : Nat :=
  Nat.pow 10 n

end SchemaPress
