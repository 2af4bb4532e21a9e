import DelegatedRingCT.Primary.Proposer.ProcessVote

/-!
# The voting rules against the spec

The spec's election transition rules (decision, commit step, vote-change step, initial vote)
are evaluated in order over the election after `insert_vote`, at `r = vote.round`, and the
first whose predicate holds fires.  `specOwnVote` follows those words; `transition` follows
the `if`/`else if` chain of `process_vote`.

They agree except in two places.  The commit step's test `!voted_or_committed(self, r + 1)`
sits inside `if let Some(tx_hash) = tally.find_quorum_of_votes()`, so a round with a quorum of
votes ends the chain even when the replica has already voted at `r + 1`; the spec then goes on
to the initial vote, which fires if the replica has not voted at `r`.  Whenever no tally holds a
quorum of commits, this is the only difference.  And the spec looks for a quorum of commits at
`r`, while `find_quorum_of_commits`, of the absent `election` module, takes no round and is
modelled as searching every tally; where it finds one, the source casts no vote.
-/

namespace DelegatedRingCT
namespace Primary

/-- The vote-round, tx hash and commit bit of a vote. -/
def Vote.ballot (vote : Vote) : Round × TxHash × Bool := (vote.round, vote.txHash, vote.commit)

/-- Modelled from the spec: the own vote the election transition rules prescribe after `vote`
is inserted, as its vote-round, tx hash and commit bit, with the rules evaluated in order at
`r = vote.round`. -/
def specOwnVote (params : Params) (name : PublicKey) (election : Election) (vote : Vote) :
    Option (Round × TxHash × Bool) :=
  let election := election.insertVote vote
  let r := vote.round
  let tally := (election.tallies.lookup r).getD Tally.new
  if (tally.findQuorum params.quorum true).isSome then none
  else if (tally.findQuorumOfVotes params.quorum).isSome ∧
      ¬election.votedOrCommitted name (r + 1) then
    (tally.findQuorumOfVotes params.quorum).map fun txHash => (r + 1, txHash, true)
  else if election.votedOrCommitted name r ∧
      (params.quorum ≤ tally.totalVotes ∧ tally.timer = .expired ∨
        tally.totalVotes = params.numberOfNodes) ∧
      ¬election.votedOrCommitted name (r + 1) then
    (election.commit <|> election.highest).map fun txHash =>
      (r + 1, txHash, election.commit.isSome)
  else if ¬election.votedOrCommitted name r then
    some (r, election.commit.getD (election.highest.getD vote.txHash), vote.commit)
  else none

/-- The case where the source's nesting ends the rule chain before the spec's does: round `r`
holds a quorum of votes, and the replica has voted at `r + 1` but not at `r`. -/
def skipsInitialVote (params : Params) (name : PublicKey) (election : Election) (vote : Vote) :
    Bool :=
  let election := election.insertVote vote
  (((election.tallies.lookup vote.round).getD Tally.new).findQuorumOfVotes params.quorum).isSome &&
    election.votedOrCommitted name (vote.round + 1) && !election.votedOrCommitted name vote.round

section Refinement

variable {params : Params} {name : PublicKey} {decidedElections : Map Digest Bool}
  {election : Election} {vote : Vote} {outcome : Outcome}

theorem insertVote_tally (election : Election) (vote : Vote) :
    ∃ tally, (election.insertVote vote).tallies.lookup vote.round = some tally :=
  ⟨_, AList.lookup_insert _⟩

theorem findQuorum_of_findQuorumOfCommits {election : Election} {quorum : Nat} {round : Round}
    {tally : Tally} (noCommits : election.findQuorumOfCommits quorum = none)
    (found : election.tallies.lookup round = some tally) : tally.findQuorum quorum true = none :=
  List.findSome?_eq_none_iff.mp noCommits ⟨round, tally⟩ (AList.mem_lookup_iff.mp found)

/-- Without a quorum of commits, the source's own vote is the spec's but for the nested guard. -/
theorem transition_ballot
    (ruled : transition params name decidedElections election vote = some outcome)
    (noCommits : (election.insertVote vote).findQuorumOfCommits params.quorum = none) :
    outcome.own.map Vote.ballot =
      if skipsInitialVote params name election vote then none
      else specOwnVote params name election vote := by
  obtain ⟨tally, found⟩ := insertVote_tally election vote
  have noQuorum := findQuorum_of_findQuorumOfCommits noCommits found
  simp only [transition, found, noCommits] at ruled
  simp only [skipsInitialVote, specOwnVote, found, Option.getD_some, noQuorum, Option.isSome_none,
    Bool.false_eq_true, if_false]
  cases quorum : tally.findQuorumOfVotes params.quorum with
  | some txHash =>
      simp only [quorum] at ruled
      by_cases later : (election.insertVote vote).votedOrCommitted name (vote.round + 1)
      · simp only [later, if_true, Option.some.injEq] at ruled
        subst ruled
        by_cases now : (election.insertVote vote).votedOrCommitted name vote.round <;>
          simp [now, later, Outcome.own]
      · simp only [later, Bool.false_eq_true, if_false, Option.some.injEq] at ruled
        subst ruled
        simp [later, Outcome.own, Vote.ballot, Vote.reply]
  | none =>
      obtain ⟨highest, top⟩ := Option.isSome_iff_exists.mp (Election.insertVote_highest_isSome election vote)
      simp only [quorum, top] at ruled
      split_ifs at ruled with change initial <;> simp only [Option.some.injEq] at ruled <;>
        subst ruled
      · cases commit : election.commit <;> simp [change, top, commit, Outcome.own, Vote.ballot, Vote.reply]
      · simp only [Decidable.not_not] at initial
        simp [initial, Outcome.own]
        exact (if_neg fun ⟨rate, later⟩ => change ⟨initial, rate, by simp [later]⟩).symm
      · simp [initial, top, Outcome.own, Vote.ballot, Vote.reply]

/-- Where the source finds a quorum of commits, in any tally, it casts no vote. -/
theorem transition_own_of_commits {txHash : TxHash}
    (ruled : transition params name decidedElections election vote = some outcome)
    (commits : (election.insertVote vote).findQuorumOfCommits params.quorum = some txHash) :
    outcome.own = none := by
  obtain ⟨tally, found⟩ := insertVote_tally election vote
  simp only [transition, found, commits] at ruled
  split at ruled <;> simp only [Option.some.injEq, reduceCtorEq] at ruled <;> subst ruled <;> rfl

end Refinement

end Primary
end DelegatedRingCT
