import Popsicle.Acceptance
import Popsicle.Accounting
import Popsicle.Allocation
import Popsicle.Announcements
import Popsicle.Arrivals
import Popsicle.Book
import Popsicle.Cleanup
import Popsicle.Competition
import Popsicle.Consent
import Popsicle.Deployment
import Popsicle.Distribution
import Popsicle.Downloads
import Popsicle.GroupFailures
import Popsicle.Inactivity
import Popsicle.Insertion
import Popsicle.Lifecycle
import Popsicle.Node.Attempts
import Popsicle.Node.Children
import Popsicle.Node.Instances
import Popsicle.Node.Network
import Popsicle.Node.Ordering
import Popsicle.Node.Ranges
import Popsicle.Payments
import Popsicle.Processors
import Popsicle.Revokes
import Popsicle.Rewards
import Popsicle.Routing
import Popsicle.Selection
import Popsicle.SetMaps
import Popsicle.Settlement
import Popsicle.Totals
import Popsicle.Withdrawals
