import DelegatedRingCT.Crypto.RingSigner
import DelegatedRingCT.Worker.BatchMaker
import DelegatedRingCT.Primary.Aggregators
import DelegatedRingCT.Primary.Messages
import DelegatedRingCT.Primary.Election
import DelegatedRingCT.Primary.Proposer.Basic
import DelegatedRingCT.Primary.Proposer.ProcessVote
import DelegatedRingCT.Primary.Proposer.Rules
import DelegatedRingCT.Primary.Proposer.ProcessHeader
import DelegatedRingCT.Primary.Proposer.Loop
import DelegatedRingCT.Primary.Proposer.Decisions
import DelegatedRingCT.Primary.Proposer.Headers
import DelegatedRingCT.Primary.Proposer.Buffering
import DelegatedRingCT.Primary.Proposer.Persistence
import DelegatedRingCT.Primary.Proposer.Validity
import DelegatedRingCT.Primary.Proposer.Stores
import DelegatedRingCT.Primary.Proposer.Proposals
import DelegatedRingCT.Primary.Proposer.Ballots
import DelegatedRingCT.Primary.Proposer.ReachableRules
import DelegatedRingCT.Primary.Network
import DelegatedRingCT.Primary.Accountability
import DelegatedRingCT.Primary.Stability
import DelegatedRingCT.Primary.SingleReplica
import DelegatedRingCT.Primary.Attribution
import DelegatedRingCT.Primary.Equivocation
