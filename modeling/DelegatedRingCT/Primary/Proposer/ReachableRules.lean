import DelegatedRingCT.Primary.Proposer.Rules
import DelegatedRingCT.Primary.Proposer.Decisions
import DelegatedRingCT.Primary.Proposer.Ballots

/-!
# The voting rules on reachable states

`transition_ballot` leaves two places where the own vote of `process_vote` and the one of the
spec's rules can differ: the commit step's nested guard, and `find_quorum_of_commits` looking
at every tally where the spec's decision rule looks at the vote's round only.

On the states a correct replica reaches with `QUORUM ≥ 2`, the nested guard never matters.  The
replica has an entry of its own in every tally of an undecided election it holds: the first
vote of a vote-round is no quorum, so the rules answer it with the initial vote, and the commit
step and the vote change only add entries.  So `process_vote` casts the vote the spec's rules
prescribe whenever every quorum of commits sits in the incoming vote's round.  The scan is a
real difference: the replica's own echo can complete a quorum of commits at one vote-round,
and a vote of a later round then makes it decide where the spec's rules cast a vote.
-/

namespace DelegatedRingCT
namespace Primary

namespace Election

/-- The replica `name` has an entry of its own in every tally of the election. -/
def SelfCounted (name : PublicKey) (election : Election) : Prop :=
  ∀ round, (election.tallies.lookup round).isSome → election.votedOrCommitted name round = true

theorem selfCounted_new (name : PublicKey) : Election.new.SelfCounted name :=
  fun _ present => by simp [Election.new] at present

section SelfCounted

variable {name : PublicKey} {election : Election} {vote : Vote}

theorem SelfCounted.insertVote
    (others : ∀ round, round ≠ vote.round → (election.tallies.lookup round).isSome →
      election.votedOrCommitted name round = true)
    (voted : (election.insertVote vote).votedOrCommitted name vote.round = true) :
    (election.insertVote vote).SelfCounted name := by
  intro round present
  by_cases same : round = vote.round
  · exact same ▸ voted
  · rw [Election.insertVote, AList.lookup_insert_ne same] at present
    exact votedOrCommitted_insertVote (others round same present) vote

theorem SelfCounted.insertVote_of_voted (counted : election.SelfCounted name)
    (voted : (election.insertVote vote).votedOrCommitted name vote.round = true) :
    (election.insertVote vote).SelfCounted name :=
  SelfCounted.insertVote (fun round _ => counted round) voted

theorem SelfCounted.insertVote_self (counted : election.SelfCounted name)
    (author : vote.author = name) : (election.insertVote vote).SelfCounted name :=
  counted.insertVote_of_voted (author ▸ votedOrCommitted_insertVote_self election vote)

theorem SelfCounted.insertVote_reply (counted : election.SelfCounted name) {own : Vote}
    (author : own.author = name) (round : own.round = vote.round) :
    ((election.insertVote vote).insertVote own).SelfCounted name := by
  refine SelfCounted.insertVote (fun other different present => ?_)
    (author ▸ votedOrCommitted_insertVote_self _ own)
  rw [Election.insertVote, AList.lookup_insert_ne (round ▸ different)] at present
  exact votedOrCommitted_insertVote (counted other present) vote

/-- With `QUORUM ≥ 2`, a quorum of votes needs a tally that existed before the vote. -/
theorem tally_of_findQuorumOfVotes {quorum : Nat} {txHash : TxHash} (two : 2 ≤ quorum)
    (found : (((election.insertVote vote).tallies.lookup vote.round).getD Tally.new).findQuorumOfVotes
      quorum = some txHash) :
    (election.tallies.lookup vote.round).isSome := by
  cases old : election.tallies.lookup vote.round with
  | some _ => rfl
  | none =>
      simp only [Election.insertVote, old, AList.lookup_insert, Option.getD_some,
        Option.getD_none] at found
      have counted := (Tally.findQuorum_count found).trans (List.length_filter_le _ _)
      simp [Tally.new] at counted
      omega

theorem SelfCounted.expire (counted : election.SelfCounted name) (voteRound : Round) :
    (election.expire voteRound).SelfCounted name := by
  intro round present
  have votes := expire_votes election voteRound round
  obtain ⟨latched, latchedFound⟩ := Option.isSome_iff_exists.mp present
  rw [latchedFound, Option.map_some'] at votes
  obtain ⟨tally, old, -⟩ := Option.map_eq_some'.mp votes.symm
  exact (Evolves.expire election voteRound).voted _ _ (counted round (by rw [old]; rfl))

end SelfCounted

end Election

section Transition

variable {params : Params} {name : PublicKey} {decidedElections : Map Digest Bool}
  {election : Election} {vote : Vote} {outcome : Outcome}

theorem votedOrCommitted_of_quorum (two : 2 ≤ params.quorum) (counted : election.SelfCounted name)
    {tally : Tally} {txHash : TxHash}
    (found : (election.insertVote vote).tallies.lookup vote.round = some tally)
    (quorum : tally.findQuorumOfVotes params.quorum = some txHash) :
    (election.insertVote vote).votedOrCommitted name vote.round = true :=
  Election.votedOrCommitted_insertVote
    (counted _ (Election.tally_of_findQuorumOfVotes two (by rw [found]; exact quorum))) vote

/-- With `QUORUM ≥ 2` the voting rules keep an undecided election self-counted. -/
theorem transition_selfCounted (two : 2 ≤ params.quorum) (counted : election.SelfCounted name)
    (ruled : transition params name decidedElections election vote = some outcome)
    (notKept : ∀ kept, outcome ≠ .keep kept) (undecided : outcome.election.decided = false) :
    outcome.election.SelfCounted name := by
  obtain ⟨tally, found⟩ := insertVote_tally election vote
  simp only [transition, found] at ruled
  split at ruled
  · split at ruled <;> simp only [Option.some.injEq, reduceCtorEq] at ruled <;> subst ruled
    · simp [Outcome.election] at undecided
    · exact absurd rfl (notKept _)
  split at ruled
  · next txHash quorum =>
      have voted := votedOrCommitted_of_quorum two counted found quorum
      split at ruled <;> simp only [Option.some.injEq] at ruled <;> subst ruled
      · exact counted.insertVote_of_voted voted
      · exact Election.SelfCounted.insertVote_self (counted.insertVote_of_voted voted) rfl
  split at ruled
  · next change =>
      split at ruled
      · cases ruled
      · simp only [Option.some.injEq] at ruled
        subst ruled
        exact Election.SelfCounted.insertVote_self (counted.insertVote_of_voted change.1) rfl
  split at ruled
  · simp only [Option.some.injEq] at ruled
    subst ruled
    refine counted.insertVote_reply ?_ ?_ <;> rfl
  · next initial =>
      simp only [Option.some.injEq] at ruled
      subst ruled
      exact counted.insertVote_of_voted (by simpa using initial)

/-- With `QUORUM ≥ 2`, the nested guard never ends the rule chain early on a counted election. -/
theorem skipsInitialVote_eq_false (two : 2 ≤ params.quorum) (counted : election.SelfCounted name) :
    skipsInitialVote params name election vote = false := by
  obtain ⟨tally, found⟩ := insertVote_tally election vote
  simp only [skipsInitialVote, found, Option.getD_some]
  cases quorum : tally.findQuorumOfVotes params.quorum with
  | none => rfl
  | some _ => simp [votedOrCommitted_of_quorum two counted found quorum]

end Transition

namespace Proposer

/-- The replica has an entry of its own in every tally of every undecided election it holds. -/
def SelfCounted (proposer : Proposer) : Prop :=
  ∀ round electionId election, proposer.election? round electionId = some election →
    election.decided = false → election.SelfCounted proposer.name

theorem selfCounted_new (name : PublicKey) (headerSize : Nat) (byzantine : Bool) :
    (new name headerSize byzantine).SelfCounted :=
  fun _ _ _ found => by simp [new, election?, roundElections] at found

section Invariant

variable {params : Params} {proposer next : Proposer} {out : List Outbound}

theorem SelfCounted.setElection (counted : proposer.SelfCounted) {round : Round}
    {electionId : ElectionId} {election : Election}
    (stored : election.decided = false → election.SelfCounted proposer.name) :
    (proposer.setElection round electionId election).SelfCounted := by
  intro round' electionId' held found
  rw [election?_setElection] at found
  split at found
  · exact Option.some.inj found ▸ stored
  · exact counted _ _ _ found

theorem SelfCounted.castHeaderVote (counted : proposer.SelfCounted) (header : Header)
    (txHash : TxHash) (electionId : ElectionId) :
    (proposer.castHeaderVote header txHash electionId).1.SelfCounted := by
  have held : ((proposer.election? header.round electionId).getD Election.new).decided = false →
      ((proposer.election? header.round electionId).getD Election.new).SelfCounted
        proposer.name := by
    cases found : proposer.election? header.round electionId with
    | none => exact fun _ => Election.selfCounted_new _
    | some election => exact counted _ _ _ found
  rw [castHeaderVote_eq, openElection_eq]
  split
  · next own => exact counted.setElection fun undecided => (held undecided).insertVote_self own
  · exact counted.setElection fun undecided => (held undecided).insertVote_reply rfl rfl

theorem SelfCounted.processVote (two : 2 ≤ params.quorum) (flags : proposer.FlagsUnset)
    (counted : proposer.SelfCounted) {vote : Vote}
    (processed : proposer.processVote params vote = some (next, out)) : next.SelfCounted := by
  rcases processVote_cases processed with ⟨rfl, -⟩ | ⟨-, rfl, -⟩ |
      ⟨election, outcome, found, undecided, ruled, rfl, -⟩
  · exact counted
  · exact counted
  · have notKept (kept : Election) (same : outcome = .keep kept) : False := by
      obtain ⟨txHash, set⟩ := transition_keep (same ▸ ruled)
      exact Bool.false_ne_true (flags txHash true set).symm
    have stored : (proposer.setElection vote.proposalRound vote.electionId
        outcome.election).SelfCounted :=
      counted.setElection (transition_selfCounted two (counted _ _ _ found undecided) ruled notKept)
    unfold afterOutcome
    split <;> exact stored

/-- The flags stay unset and the replica stays counted, one handler at a time. -/
def KeepsCounted (before after : Proposer) (_ : List Outbound) : Prop :=
  before.FlagsUnset ∧ before.SelfCounted → after.FlagsUnset ∧ after.SelfCounted

theorem processHeader_counted (two : 2 ≤ params.quorum) {header : Header}
    (processed : proposer.processHeader params header = some (next, out)) :
    KeepsCounted proposer next out :=
  processHeader_rec KeepsCounted (fun _ => id) (fun early late => late ∘ early)
    (fun _ ⟨flags, counted⟩ => ⟨flags.recordHeader header, fun round electionId election found =>
      counted round electionId election (by rwa [election?_recordHeader] at found)⟩)
    (fun ⟨flags, counted⟩ => ⟨flags.congr (by rw [castHeaderVote_eq, openElection_eq]; split <;> rfl),
      counted.castHeaderVote _ _ _⟩)
    (fun _ ⟨flags, counted⟩ => ⟨flags.congr rfl, counted⟩)
    (fun processed ⟨flags, counted⟩ =>
      ⟨flags.processVote processed, counted.processVote two flags processed⟩)
    processed

theorem handle_counted (two : 2 ≤ params.quorum) {event : Event}
    (handled : proposer.handle params event = some (next, out)) :
    KeepsCounted proposer next out := by
  rintro ⟨flags, counted⟩
  refine ⟨flags.handle handled, ?_⟩
  rcases handle_cases handled with ⟨proposals, -, made⟩ | ⟨_, -, processed⟩ | ⟨_, -, processed⟩ |
      ⟨round, electionId, voteRound, rfl, -⟩ | ⟨proposals, rfl, -⟩
  · obtain rfl : (({ proposer with proposals } : Proposer).makeHeader params).1 = next :=
      congrArg Prod.fst made
    intro round electionId election found
    rw [(makeHeader_sends params _).name]
    exact counted round electionId election
      (by simpa only [election?, roundElections, makeHeader_elections] using found)
  · exact (processHeader_counted two processed ⟨flags, counted⟩).2
  · exact counted.processVote two flags processed
  · rcases expireTally_cases proposer round electionId voteRound with
      ⟨election, found, expired⟩ | expired <;> rw [expired]
    exacts [counted.setElection fun undecided =>
      (counted _ _ _ found (by simpa using undecided)).expire voteRound, counted]
  · exact counted

/-- On every run from `Proposer::spawn` with `QUORUM ≥ 2`, the replica stays self-counted. -/
theorem run_counted (two : 2 ≤ params.quorum) {name : PublicKey} {headerSize : Nat}
    {byzantine : Bool} {events : List Event}
    (ran : (new name headerSize byzantine).run params events = some (next, out)) :
    next.FlagsUnset ∧ next.SelfCounted :=
  run_rec KeepsCounted (fun _ => id) (fun early late => late ∘ early)
    (handle_counted two) ran ⟨fun _ _ found => by simp [new] at found, selfCounted_new _ _ _⟩

end Invariant

theorem processVote_held {params : Params} {proposer next : Proposer} {vote : Vote}
    {out : List Outbound} {election : Election} (correct : proposer.byzantine = false)
    (held : proposer.election? vote.proposalRound vote.electionId = some election)
    (undecided : election.decided = false)
    (processed : proposer.processVote params vote = some (next, out)) :
    ∃ outcome, transition params proposer.name proposer.decidedElections election vote =
      some outcome ∧ out = sendOwn outcome.own := by
  obtain ⟨check, routed⟩ := routeVote_of_processVote processed
  cases found : proposer.elections.lookup vote.proposalRound with
  | none => simp [election?, roundElections, found] at held
  | some elections =>
      rw [election?_of_lookup found] at held
      simp only [routeVote, correct, found, held, undecided, Bool.false_eq_true, if_false]
        at routed
      split at routed
      · cases routed
      · next stored own ruled =>
          simp only [Option.some.injEq, Prod.mk.injEq] at routed
          exact ⟨_, ruled, routed.2.1.symm⟩
      · next outcome notVote ruled =>
          simp only [Option.some.injEq, Prod.mk.injEq] at routed
          refine ⟨outcome, ruled, ?_⟩
          cases outcome with
          | vote stored own => exact absurd rfl (notVote stored own)
          | _ => exact routed.2.1.symm

/-- With `QUORUM ≥ 2`, `process_vote` casts the spec's vote whenever every quorum of commits sits
in the vote's round. -/
theorem proposer_votes_by_rules (params : Params) (two : 2 ≤ params.quorum) (name : PublicKey)
    (headerSize : Nat) (events : List Event) (final : Proposer) (out : List Outbound)
    (ran : (new name headerSize false).run params events = some (final, out)) (vote : Vote)
    (election : Election) (held : final.election? vote.proposalRound vote.electionId = some election)
    (undecided : election.decided = false)
    (others : ∀ entry ∈ (election.insertVote vote).tallies.entries, entry.1 ≠ vote.round →
      entry.2.findQuorum params.quorum true = none)
    (next : Proposer) (sent : List Outbound)
    (processed : final.processVote params vote = some (next, sent)) :
    (Outbound.votes sent).map Vote.ballot = (specOwnVote params name election vote).toList := by
  have sends := run_rec Sends Sends.refl Sends.trans handle_sends ran
  have counted := (run_counted two ran).2 _ _ _ held undecided
  obtain ⟨outcome, ruled, rfl⟩ := processVote_held sends.byzantine held undecided processed
  have named : final.name = name := sends.name
  rw [named] at ruled counted
  suffices own : outcome.own.map Vote.ballot = specOwnVote params name election vote by
    rw [votes_sendOwn, ← own]
    cases outcome.own <;> rfl
  cases commits : (election.insertVote vote).findQuorumOfCommits params.quorum with
  | none =>
      rw [transition_ballot ruled commits, skipsInitialVote_eq_false two counted]
      rfl
  | some txHash =>
      obtain ⟨entry, member, quorum⟩ := List.exists_of_findSome?_eq_some commits
      have atRound : entry.1 = vote.round := by
        by_contra other
        rw [others entry member other] at quorum
        cases quorum
      obtain ⟨tally, found⟩ := insertVote_tally election vote
      have same : entry.2 = tally := by
        obtain ⟨round, tally'⟩ := entry
        subst atRound
        exact Option.some.inj ((AList.mem_lookup_iff.mpr member).symm.trans found)
      subst same
      rw [transition_own_of_commits ruled commits]
      simp [specOwnVote, found, quorum]

/-- With `QUORUM = 2`, the source and the spec's rules both commit on vote-round `0`. -/
theorem proposer_votes_by_rules_commit :
    let params : Params :=
      { quorum := 2, numberOfNodes := 4, logsInfo := false, headerDigest := fun _ _ _ => 7 }
    let vote : Vote :=
      { round := 0, txHash := 7, electionId := 5, proposalRound := 0, commit := false,
        author := 2, headerId := 7 }
    let events : List Event :=
      [.primary (.header { round := 0, author := 1, votes := [(7, 5)], id := 7 })]
    let result := ((new 0 1 false).run params events).get (by decide)
    let election := (result.1.election? 0 5).get (by decide)
    let reply := (result.1.processVote params vote).get (by decide)
    specOwnVote params 0 election vote = some (1, 7, true) ∧
      (Outbound.votes reply.2).map Vote.ballot = (specOwnVote params 0 election vote).toList := by
  intro params vote events result election reply
  exact ⟨rfl, proposer_votes_by_rules params (Nat.le_refl 2) 0 1 events result.1 result.2
    ((Option.some_get _).symm.trans (congrArg some Prod.mk.eta.symm)) vote election
    (Option.some_get _).symm rfl (of_decide_eq_true rfl) reply.1 reply.2
    ((Option.some_get _).symm.trans (congrArg some Prod.mk.eta.symm))⟩

end Proposer

end Primary
end DelegatedRingCT
