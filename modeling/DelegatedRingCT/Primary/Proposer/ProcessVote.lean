import DelegatedRingCT.Primary.Proposer.Basic

/-!
# `process_vote`

`Proposer::process_vote` locates `elections[vote.proposal_round][vote.election_id]`.  A vote
whose proposal round has no elections at all is dropped; a vote whose election is missing is
buffered in `pending_votes`; a vote for an undecided election is inserted and the voting rules
run: the decision check on a quorum of commits, then the commit step, the vote-change step and
the initial vote.  Except after a decision, the handler ends with the header-commit check,
whose `info!` unwraps `votes[vote.header_id]`.

The rules are `transition`, a function of the election alone, returning an `Outcome`;
`routeVote` only routes the vote and stores the outcome, and `processVote` ends with the
header-commit check on the elections it left.  `reportsCommitted` says when that check logs
`Committed`.  `processVote_cases` states once everything a call can do, and the invariants of
later files are proved from it.
-/

namespace DelegatedRingCT
namespace Primary

/-- The replica's own vote in reply to `vote`, as `Vote::new` builds it in the voting
branches. -/
def Vote.reply (vote : Vote) (name : PublicKey) (round : Round) (txHash : TxHash)
    (commit : Bool) : Vote :=
  { round, txHash, electionId := vote.electionId, proposalRound := vote.proposalRound, commit,
    author := name, headerId := vote.headerId }

/-- `BTreeSet::insert` on the ordered list of a set's elements; the derived order on votes
stands in for the `Ord` of the absent `messages` module. -/
def insertSorted (vote : Vote) : List Vote → List Vote
  | [] => [vote]
  | head :: tail =>
      match compare vote head with
      | .lt => vote :: head :: tail
      | .eq => head :: tail
      | .gt => head :: insertSorted vote tail

theorem mem_insertSorted {vote other : Vote} {set : List Vote}
    (member : other ∈ insertSorted vote set) : other = vote ∨ other ∈ set := by
  induction set with
  | nil => simpa [insertSorted] using member
  | cons head tail induction =>
      simp only [insertSorted] at member
      split at member
      · exact (List.mem_cons.mp member).imp_right id
      · exact .inr member
      · rcases List.mem_cons.mp member with rfl | member
        · exact .inr (.head _)
        · exact (induction member).imp_right (.tail _)

/-- What the voting rules do to an undecided election once the incoming vote is counted. -/
inductive Outcome
  | /-- Rule 1 with `decided_elections[x] == false`: decide and advance the round. -/
    decide (election : Election)
  | /-- Rule 1 with the flag `true`: return without deciding. -/
    keep (election : Election)
  | /-- Rules 2 to 4: the election and the replica's own vote, if a rule fired. -/
    vote (election : Election) (own : Option Vote)

namespace Outcome

/-- The election an outcome stores. -/
def election : Outcome → Election
  | .decide election | .keep election | .vote election _ => election

/-- The vote an outcome casts and broadcasts. -/
def own : Outcome → Option Vote
  | .vote _ own => own
  | _ => none

/-- Whether an outcome decides the election. -/
def advances : Outcome → Bool
  | .decide _ => true
  | _ => false

end Outcome

/-- The body of `process_vote` for an existing, undecided election: `insert_vote`, the decision
check and the three voting branches.  `none` is a panic: of the unwrap of
`decided_elections[x]` in the decision branch, or of the unwrap of `highest` in the vote-change
branch. -/
def transition (params : Params) (name : PublicKey) (decidedElections : Map Digest Bool)
    (election : Election) (vote : Vote) : Option Outcome :=
  let election := election.insertVote vote
  match election.tallies.lookup vote.round with
  | none => some (.vote election none)
  | some tally =>
      match election.findQuorumOfCommits params.quorum with
      | some txHash =>
          match decidedElections.lookup txHash with
          | none => none
          | some false => some (.decide { election with decided := true })
          | some true => some (.keep election)
      | none =>
          match tally.findQuorumOfVotes params.quorum with
          | some txHash =>
              if election.votedOrCommitted name (vote.round + 1) then some (.vote election none)
              else
                let own := vote.reply name (vote.round + 1) txHash true
                some (.vote ({ election with commit := some txHash, proofRound := some vote.round }
                  |>.insertVote own) (some own))
          | none =>
              if election.votedOrCommitted name vote.round ∧
                  (params.quorum ≤ tally.totalVotes ∧ tally.timer = .expired ∨
                    tally.totalVotes = params.numberOfNodes) ∧
                  ¬election.votedOrCommitted name (vote.round + 1) then
                match election.highest with
                | none => none
                | some highest =>
                    let own := vote.reply name (vote.round + 1) (election.commit.getD highest)
                      election.commit.isSome
                    some (.vote (election.insertVote own) (some own))
              else if ¬election.votedOrCommitted name vote.round then
                let own := vote.reply name vote.round
                  (election.commit.getD (election.highest.getD vote.txHash)) vote.commit
                some (.vote (election.insertVote own) (some own))
              else some (.vote election none)

/-- Everything the voting rules can return. -/
theorem transition_cases {params : Params} {name : PublicKey} {decidedElections : Map Digest Bool}
    {election : Election} {vote : Vote} {outcome : Outcome}
    (ruled : transition params name decidedElections election vote = some outcome) :
    outcome = .decide { election.insertVote vote with decided := true } ∨
      outcome = .keep (election.insertVote vote) ∨
      outcome = .vote (election.insertVote vote) none ∨
      (∃ tally txHash, (election.insertVote vote).tallies.lookup vote.round = some tally ∧
        tally.findQuorumOfVotes params.quorum = some txHash ∧
        outcome = .vote ({ election.insertVote vote with
            commit := some txHash, proofRound := some vote.round }.insertVote
              (vote.reply name (vote.round + 1) txHash true))
          (some (vote.reply name (vote.round + 1) txHash true))) ∨
      (∃ round txHash commit, (txHash = vote.txHash ∨
          (election.insertVote vote).highest = some txHash ∨
          (election.insertVote vote).commit = some txHash) ∧
        outcome =
          .vote ((election.insertVote vote).insertVote (vote.reply name round txHash commit))
          (some (vote.reply name round txHash commit))) := by
  dsimp only [transition] at ruled
  split at ruled
  · exact .inr (.inr (.inl (Option.some.inj ruled).symm))
  next tally found =>
  split at ruled
  · split at ruled
    · cases ruled
    · exact .inl (Option.some.inj ruled).symm
    · exact .inr (.inl (Option.some.inj ruled).symm)
  split at ruled
  · next txHash quorum =>
      split at ruled
      · exact .inr (.inr (.inl (Option.some.inj ruled).symm))
      · exact .inr (.inr (.inr (.inl ⟨tally, txHash, found, quorum, (Option.some.inj ruled).symm⟩)))
  split at ruled
  · split at ruled
    · cases ruled
    · next highest present =>
        refine .inr (.inr (.inr (.inr ⟨_, _, _, ?_, (Option.some.inj ruled).symm⟩)))
        cases commit : (election.insertVote vote).commit <;> simp [commit, present]
  split at ruled
  · refine .inr (.inr (.inr (.inr ⟨_, _, _, ?_, (Option.some.inj ruled).symm⟩)))
    cases commit : (election.insertVote vote).commit <;>
      cases highest : (election.insertVote vote).highest <;> simp [commit, highest]
  · exact .inr (.inr (.inl (Option.some.inj ruled).symm))

section Transition

variable {params : Params} {name : PublicKey} {decidedElections : Map Digest Bool}
  {election : Election} {vote : Vote} {outcome : Outcome}

theorem transition_decided
    (ruled : transition params name decidedElections election vote = some outcome) :
    outcome.election.decided = (election.decided || outcome.advances) := by
  rcases transition_cases ruled with rfl | rfl | rfl | ⟨-, -, -, -, rfl⟩ | ⟨-, -, -, -, rfl⟩ <;>
    simp [Outcome.election, Outcome.advances]

theorem transition_own
    (ruled : transition params name decidedElections election vote = some outcome)
    {own : Vote} (emitted : outcome.own = some own) :
    own.electionId = vote.electionId ∧ own.proposalRound = vote.proposalRound ∧
      own.author = name ∧ own.headerId = vote.headerId := by
  rcases transition_cases ruled with shape | shape | shape | ⟨_, _, _, _, shape⟩ |
      ⟨_, _, _, _, shape⟩ <;>
    simp only [shape, Outcome.own, reduceCtorEq, Option.some.injEq] at emitted <;>
    exact emitted ▸ ⟨rfl, rfl, rfl, rfl⟩

theorem transition_holds {ok : TxHash → Prop} (holds : election.Holds ok) (valid : ok vote.txHash)
    (ruled : transition params name decidedElections election vote = some outcome) :
    outcome.election.Holds ok ∧ ∀ own, outcome.own = some own → ok own.txHash := by
  have counted := holds.insertVote valid
  rcases transition_cases ruled with rfl | rfl | rfl |
      ⟨tally, txHash, found, quorum, rfl⟩ | ⟨round, txHash, commit, source, rfl⟩
  · exact ⟨counted, fun _ emitted => by cases emitted⟩
  · exact ⟨counted, fun _ emitted => by cases emitted⟩
  · exact ⟨counted, fun _ emitted => by cases emitted⟩
  · have quorumValid : ok txHash := counted.findQuorum found quorum
    have committed : Election.Holds ok { election.insertVote vote with
        commit := some txHash, proofRound := some vote.round } :=
      ⟨counted.1, counted.2.1, fun _ set => Option.some.inj set ▸ quorumValid⟩
    exact ⟨committed.insertVote quorumValid, fun _ emitted => Option.some.inj emitted ▸ quorumValid⟩
  · have hashValid : ok txHash := by
      rcases source with rfl | source | source
      exacts [valid, counted.2.1 _ source, counted.2.2 _ source]
    exact ⟨counted.insertVote hashValid, fun _ emitted => Option.some.inj emitted ▸ hashValid⟩

end Transition

namespace Proposer

/-- Whether every election `all_proposals[header_id]` lists is decided in `elections`; true
when the header has no entry. -/
def headerDecided (proposer : Proposer) (elections : Map ElectionId Election)
    (headerId : Digest) : Bool :=
  match proposer.allProposals.lookup headerId with
  | none => true
  | some electionIds => electionIds.all fun electionId =>
      match elections.lookup electionId with
      | some election => election.decided
      | none => false

/-- The header-commit check ending `process_vote`: when the header counts as decided, the
`info!` reporting it unwraps `votes[header_id]`, which panics if that header is unknown. -/
def checkHeader (params : Params) (vote : Vote) (elections : Map ElectionId Election)
    (result : Proposer × List Outbound) : Option (Proposer × List Outbound) :=
  if params.logsInfo ∧ result.1.headerDecided elections vote.headerId ∧
      result.1.votes.lookup vote.headerId = none then none
  else some result

/-- Buffer a vote in `pending_votes[vote.proposal_round]`. -/
def bufferVote (proposer : Proposer) (vote : Vote) : Proposer :=
  { proposer with
    pendingVotes := proposer.pendingVotes.insert vote.proposalRound
      (insertSorted vote ((proposer.pendingVotes.lookup vote.proposalRound).getD [])) }

/-- The state after the voting rules produced an outcome for the vote's election. -/
def afterOutcome (proposer : Proposer) (vote : Vote) (outcome : Outcome) : Proposer :=
  let stored := proposer.setElection vote.proposalRound vote.electionId outcome.election
  if outcome.advances then { stored with round := proposer.round + 1 } else stored

/-- The broadcast of the replica's own vote, sent to `other_primaries`. -/
def sendOwn (own : Option Vote) : List Outbound :=
  own.toList.map fun own => { recipients := .otherPrimaries, message := .vote own }

/-- `process_vote` up to its header-commit check: the state and broadcasts produced so far, and
the elections of the proposal round the check reads, if the handler reaches it (it returns
early when byzantine, when the round has no elections, and after a decision).  `none` is a
panic of the voting rules. -/
def routeVote (params : Params) (proposer : Proposer) (vote : Vote) :
    Option (Proposer × List Outbound × Option (Map ElectionId Election)) :=
  if proposer.byzantine then some (proposer, [], none) else
  match proposer.elections.lookup vote.proposalRound with
  | none => some (proposer, [], none)
  | some elections =>
      match elections.lookup vote.electionId with
      | none => some (proposer.bufferVote vote, [], some elections)
      | some election =>
          if election.decided then some (proposer, [], some elections)
          else
            match transition params proposer.name proposer.decidedElections election vote with
            | none => none
            | some (.vote stored own) =>
                some (proposer.afterOutcome vote (.vote stored own), sendOwn own,
                  some (elections.insert vote.electionId stored))
            | some outcome => some (proposer.afterOutcome vote outcome, [], none)

/-- `process_vote`; `none` is a panic. -/
def processVote (params : Params) (proposer : Proposer) (vote : Vote) :
    Option (Proposer × List Outbound) :=
  match routeVote params proposer vote with
  | none => none
  | some (next, out, none) => some (next, out)
  | some (next, out, some elections) => checkHeader params vote elections (next, out)

/-- Whether `process_vote` logs `Committed` for the vote's header: it reaches the check, the
header counts as decided, the `info!` level is on, and `votes[header_id]` exists (otherwise the
log line panics instead). -/
def reportsCommitted (params : Params) (proposer : Proposer) (vote : Vote) : Bool :=
  match routeVote params proposer vote with
  | some (next, _, some elections) =>
      params.logsInfo && next.headerDecided elections vote.headerId &&
        (next.votes.lookup vote.headerId).isSome
  | _ => false

theorem checkHeader_eq_some {params : Params} {vote : Vote} {elections : Map ElectionId Election}
    {proposer next : Proposer} {out out' : List Outbound}
    (checked : checkHeader params vote elections (proposer, out) = some (next, out')) :
    next = proposer ∧ out' = out := by
  unfold checkHeader at checked
  split at checked
  · cases checked
  · simp only [Option.some.injEq, Prod.mk.injEq] at checked
    exact ⟨checked.1.symm, checked.2.symm⟩

theorem election?_of_lookup {proposer : Proposer} {round : Round}
    {elections : Map ElectionId Election} (found : proposer.elections.lookup round = some elections)
    (electionId : ElectionId) :
    proposer.election? round electionId = elections.lookup electionId := by
  simp [election?, roundElections, found]

theorem routeVote_of_processVote {params : Params} {proposer next : Proposer} {vote : Vote}
    {out : List Outbound} (processed : proposer.processVote params vote = some (next, out)) :
    ∃ check, routeVote params proposer vote = some (next, out, check) := by
  unfold processVote at processed
  split at processed
  · cases processed
  · next routed => exact ⟨none, by simpa [routed] using processed⟩
  · next routed =>
      obtain ⟨rfl, rfl⟩ := checkHeader_eq_some processed
      exact ⟨_, routed⟩

theorem routeVote_cases {params : Params} {proposer next : Proposer} {vote : Vote}
    {out : List Outbound} {check : Option (Map ElectionId Election)}
    (routed : routeVote params proposer vote = some (next, out, check)) :
    (next = proposer ∧ out = []) ∨
      (proposer.election? vote.proposalRound vote.electionId = none ∧
        next = proposer.bufferVote vote ∧ out = []) ∨
      (∃ election outcome, proposer.election? vote.proposalRound vote.electionId = some election ∧
        election.decided = false ∧
        transition params proposer.name proposer.decidedElections election vote = some outcome ∧
        next = proposer.afterOutcome vote outcome ∧ out = sendOwn outcome.own) := by
  unfold routeVote at routed
  split at routed
  · simp only [Option.some.injEq, Prod.mk.injEq] at routed
    exact .inl ⟨routed.1.symm, routed.2.1.symm⟩
  split at routed
  · simp only [Option.some.injEq, Prod.mk.injEq] at routed
    exact .inl ⟨routed.1.symm, routed.2.1.symm⟩
  next elections found =>
  split at routed
  · next missing =>
      simp only [Option.some.injEq, Prod.mk.injEq] at routed
      obtain ⟨rfl, rfl, -⟩ := routed
      exact .inr (.inl ⟨by rw [election?_of_lookup found, missing], rfl, rfl⟩)
  next election present =>
  split at routed
  · simp only [Option.some.injEq, Prod.mk.injEq] at routed
    exact .inl ⟨routed.1.symm, routed.2.1.symm⟩
  next undecided =>
  have located := (election?_of_lookup found vote.electionId).trans present
  split at routed
  · cases routed
  · next stored own ruled =>
      simp only [Option.some.injEq, Prod.mk.injEq] at routed
      obtain ⟨rfl, rfl, -⟩ := routed
      exact .inr (.inr ⟨election, _, located, by simpa using undecided, ruled, rfl, rfl⟩)
  · next outcome notVote ruled =>
      simp only [Option.some.injEq, Prod.mk.injEq] at routed
      obtain ⟨rfl, rfl, -⟩ := routed
      refine .inr (.inr ⟨election, outcome, located, by simpa using undecided, ruled, rfl, ?_⟩)
      cases outcome with
      | vote stored own => exact absurd rfl (notVote stored own)
      | _ => rfl

/-- Everything one call of `process_vote` can do, as `routeVote_cases` says. -/
theorem processVote_cases {params : Params} {proposer next : Proposer} {vote : Vote}
    {out : List Outbound} (processed : proposer.processVote params vote = some (next, out)) :
    (next = proposer ∧ out = []) ∨
      (proposer.election? vote.proposalRound vote.electionId = none ∧
        next = proposer.bufferVote vote ∧ out = []) ∨
      (∃ election outcome, proposer.election? vote.proposalRound vote.electionId = some election ∧
        election.decided = false ∧
        transition params proposer.name proposer.decidedElections election vote = some outcome ∧
        next = proposer.afterOutcome vote outcome ∧ out = sendOwn outcome.own) :=
  routeVote_cases (routeVote_of_processVote processed).choose_spec

end Proposer

end Primary
end DelegatedRingCT
