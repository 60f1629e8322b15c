/-!
# Number — powers

Powers of natural numbers and of integers are those of the core library throughout.  Next to
Mathlib, `^` would be read as the power of a monoid instead, and a definition would not be the same
one everywhere.  Of two defaults the one imported last wins, so a module that needs both lists
Mathlib, or what brings it, before this one.
-/

namespace Annealing

attribute [scoped instance (2000)] instPowNat

-- Where the exponent is a numeral, its type is still unknown when the power is chosen, and the
-- default decides.
attribute [default_instance high] instPowNat

end Annealing
