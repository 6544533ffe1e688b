/-
Callers that wait for each other.

A caller that cannot go on waits for one that is in its way.  Nobody waits for good
when the one in the way, if it is waiting too, ranks higher: the chain of waiting
callers then climbs until it meets one that can go on.  For rows the rank is the
place of the row a caller wants next, as statements visit the rows of their
snapshot from the first to the last.
-/
import Mathlib.Logic.Relation
import Authnz.Basis.Warrants

namespace Basis

variable {Row : Type}

end Basis
