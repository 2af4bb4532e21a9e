import DelegatedRingCT.Primary.Election

/-!
# The proposer's state

The state of `Proposer` in `primary/src/proposer.rs`, restricted to the fields its handlers
read or write: the fields for the core channels, the payload bookkeeping and the network
handles are left out.  The constants `QUORUM` and `NUMBER_OF_NODES`, the digest `Header::new`
computes, and the logger's level are parameters, since the modules that define them are not
part of the sources.

Elections live in a two-level map, `elections[round][election_id]`, and the handlers treat a
missing round differently from a missing election, so the model keeps both levels.  This file
gives the access functions for that map and how they interact, and counts decided elections.
-/

namespace DelegatedRingCT
namespace Primary

/-- The constants and collaborators of `proposer.rs` that are not part of the sources. -/
structure Params where
  /-- `constants::QUORUM`. -/
  quorum : Nat
  /-- `constants::NUMBER_OF_NODES`. -/
  numberOfNodes : Nat
  /-- Whether the logger is at `info` level, so that the arguments of `info!` are evaluated. -/
  logsInfo : Bool
  /-- The digest `Header::new` gives the header of a round, an author and its proposals. -/
  headerDigest : Round → PublicKey → List (TxHash × ElectionId) → Digest

/-- The state of a `Proposer`. -/
structure Proposer where
  /-- `name`: this primary's public key. -/
  name : PublicKey
  /-- `header_size`: the number of pending proposals that triggers a header. -/
  headerSize : Nat
  /-- `byzantine`: a silent replica. -/
  byzantine : Bool
  /-- `round`: the current round. -/
  round : Round
  /-- `proposals`: `(tx_hash, election_id)` pairs waiting for a header. -/
  proposals : List (TxHash × ElectionId)
  /-- `elections`: proposal round to election id to election. -/
  elections : Map Round (Map ElectionId Election)
  /-- `votes`: header id to the header's proposals. -/
  votes : Map Digest (List (TxHash × ElectionId))
  /-- `pending_votes`: votes waiting for their election, by proposal round, as an ordered set. -/
  pendingVotes : Map Round (List Vote)
  /-- `decided`: read by the handlers but never written. -/
  decided : List ElectionId
  /-- `active_elections`. -/
  activeElections : List ElectionId
  /-- `decided_elections`: header id to a flag that is only ever written `false`. -/
  decidedElections : Map Digest Bool
  /-- `own_proposals`: the rounds this replica made a header in. -/
  ownProposals : List Round
  /-- `all_proposals`: read by `process_vote` but never written. -/
  allProposals : Map Digest (List ElectionId)

namespace Proposer

/-- The state `Proposer::spawn` starts from. -/
def new (name : PublicKey) (headerSize : Nat) (byzantine : Bool) : Proposer :=
  { name, headerSize, byzantine, round := 0, proposals := [], elections := ∅, votes := ∅,
    pendingVotes := ∅, decided := [], activeElections := [], decidedElections := ∅,
    ownProposals := [], allProposals := ∅ }

/-- The elections of one proposal round, empty when the round has none. -/
def roundElections (proposer : Proposer) (round : Round) : Map ElectionId Election :=
  (proposer.elections.lookup round).getD ∅

/-- `elections[round][election_id]`, if both levels exist. -/
def election? (proposer : Proposer) (round : Round) (electionId : ElectionId) : Option Election :=
  (proposer.roundElections round).lookup electionId

/-- Store an election at `elections[round][election_id]`. -/
def setElection (proposer : Proposer) (round : Round) (electionId : ElectionId)
    (election : Election) : Proposer :=
  { proposer with
    elections := proposer.elections.insert round
      ((proposer.roundElections round).insert electionId election) }

@[simp] theorem setElection_round (proposer : Proposer) (round : Round) (electionId : ElectionId)
    (election : Election) :
    (proposer.setElection round electionId election).round = proposer.round :=
  rfl

@[simp] theorem setElection_ownProposals (proposer : Proposer) (round : Round)
    (electionId : ElectionId) (election : Election) :
    (proposer.setElection round electionId election).ownProposals = proposer.ownProposals := rfl

@[simp] theorem setElection_name (proposer : Proposer) (round : Round) (electionId : ElectionId)
    (election : Election) : (proposer.setElection round electionId election).name = proposer.name :=
  rfl

@[simp] theorem setElection_byzantine (proposer : Proposer) (round : Round)
    (electionId : ElectionId) (election : Election) :
    (proposer.setElection round electionId election).byzantine = proposer.byzantine := rfl

@[simp] theorem setElection_pendingVotes (proposer : Proposer) (round : Round)
    (electionId : ElectionId) (election : Election) :
    (proposer.setElection round electionId election).pendingVotes = proposer.pendingVotes := rfl

@[simp] theorem setElection_decidedElections (proposer : Proposer) (round : Round)
    (electionId : ElectionId) (election : Election) :
    (proposer.setElection round electionId election).decidedElections =
      proposer.decidedElections := rfl

theorem election?_setElection (proposer : Proposer) (round : Round) (electionId : ElectionId)
    (election : Election) (round' : Round) (electionId' : ElectionId) :
    (proposer.setElection round electionId election).election? round' electionId' =
      if round' = round ∧ electionId' = electionId then some election
      else proposer.election? round' electionId' := by
  simp only [election?, roundElections, setElection]
  by_cases sameRound : round' = round
  · subst sameRound
    by_cases sameElection : electionId' = electionId
    · subst sameElection
      simp [AList.lookup_insert]
    · simp [AList.lookup_insert, AList.lookup_insert_ne sameElection, sameElection]
  · simp [AList.lookup_insert_ne sameRound, sameRound]

/-! ## Counting decided elections -/

/-- The number of pairs `(round, election_id)` whose election exists and is decided. -/
def decidedCount (proposer : Proposer) : Nat :=
  proposer.elections.sum fun inner => inner.sum fun election => election.decided.toNat

theorem decidedCount_setElection (proposer : Proposer) (round : Round) (electionId : ElectionId)
    (election : Election) :
    (proposer.setElection round electionId election).decidedCount +
        ((proposer.election? round electionId).map fun old => old.decided.toNat).getD 0 =
      proposer.decidedCount + election.decided.toNat := by
  have outer := Map.sum_insert proposer.elections round
    ((proposer.roundElections round).insert electionId election)
    fun inner => inner.sum fun election => election.decided.toNat
  have inner := Map.sum_insert (proposer.roundElections round) electionId election
    fun election => election.decided.toNat
  have roundSum : ((proposer.elections.lookup round).map
      fun inner => inner.sum fun election => election.decided.toNat).getD 0 =
      (proposer.roundElections round).sum fun election => election.decided.toNat := by
    cases found : proposer.elections.lookup round <;> simp [roundElections, found]
  simp only [decidedCount, setElection, election?]
  omega

end Proposer

end Primary
end DelegatedRingCT
