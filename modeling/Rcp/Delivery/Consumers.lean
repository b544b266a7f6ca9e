/-
The five consumers of events.

They guard an event in three ways: RTO inserts the marker first, the consumers of the IAM
events and that of the analytics look for it first and insert it last, and the consumer of
disasters leaves it to the flush of whichever commit comes first.
-/
import Rcp.Analytics.Transactions
import Rcp.Logistics.Consumer
import Rcp.Rto.Processed
import Rcp.Volunteer.Consumers

namespace Rcp

end Rcp
