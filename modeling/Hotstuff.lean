import Hotstuff.Consensus.Acceptance
import Hotstuff.Consensus.Aggregation
import Hotstuff.Consensus.Agreement
import Hotstuff.Consensus.Availability
import Hotstuff.Consensus.Byzantine
import Hotstuff.Consensus.CompletedTc
import Hotstuff.Consensus.Counting
import Hotstuff.Consensus.Digest
import Hotstuff.Consensus.GivenUp
import Hotstuff.Consensus.Gossip
import Hotstuff.Consensus.HighQc
import Hotstuff.Consensus.Leader
import Hotstuff.Consensus.Node
import Hotstuff.Consensus.Outbox
import Hotstuff.Consensus.Outsiders
import Hotstuff.Consensus.Overflow
import Hotstuff.Consensus.Payload
import Hotstuff.Consensus.Pending
import Hotstuff.Consensus.Processing
import Hotstuff.Consensus.Progress
import Hotstuff.Consensus.ProposalOrder
import Hotstuff.Consensus.ProposalTc
import Hotstuff.Consensus.Service
import Hotstuff.Consensus.Termination
import Hotstuff.Consensus.ViewSync
import Hotstuff.Consensus.Withholding
import Hotstuff.Lib.Mirror
import Hotstuff.Pallet.Clock
