/-!
# Instances for natural numbers

Mathlib finds powers of natural numbers, and the zero at which their sums begin, in its algebraic
structures.  The instances of the core library outrank these here, so that a definition means the
same to the modules that import Mathlib and to those that do not.
-/

namespace DocGraph

attribute [instance (high)] instPowNat

instance (priority := high) zeroNat : Zero Nat := Zero.ofOfNat0

end DocGraph
