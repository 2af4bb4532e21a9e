import DelegatedRingCT.Primary.Proposer.Loop

/-!
# The pending-vote buffer

`process_vote` buffers a vote in `pending_votes[vote.proposal_round]` when that round has
elections but not the vote's, and `process_header`, once its proposal loop has created the
header's elections, takes `pending_votes[header.round]` out and runs `process_vote` on each of
its votes again.  No other handler creates an election, so the buffer never strands a vote:
every vote in `pending_votes[round]` has proposal round `round` and waits for an election that
`elections[round]` lacks.

This is also what keeps the handlers local.  `process_vote` writes only the vote's election and
the buffer of its proposal round; `process_header` writes only elections and buffers of the
header's round, because the votes it re-processes all belong to that round.
-/

namespace DelegatedRingCT
namespace Primary
namespace Proposer

/-- The buffer of proposal round `round` holds only votes of that round whose election the
replica does not hold. -/
def Buffered (proposer : Proposer) (round : Round) : Prop :=
  ∀ pending, proposer.pendingVotes.lookup round = some pending → ∀ vote ∈ pending,
    vote.proposalRound = round ∧ proposer.election? round vote.electionId = none

theorem buffered_of_lookup_none {proposer : Proposer} {round : Round}
    (empty : proposer.pendingVotes.lookup round = none) : proposer.Buffered round :=
  fun _ found => by simp [empty] at found

theorem Buffered.congr {proposer next : Proposer} {round : Round}
    (buffered : proposer.Buffered round)
    (pending : next.pendingVotes.lookup round = proposer.pendingVotes.lookup round)
    (elections : ∀ electionId,
      next.election? round electionId = proposer.election? round electionId) :
    next.Buffered round := fun votes found vote member => by
  rw [elections]
  exact buffered votes (pending ▸ found) vote member

theorem Buffered.bufferVote {proposer : Proposer} {round : Round}
    (buffered : proposer.Buffered round) {vote : Vote}
    (missing : proposer.election? vote.proposalRound vote.electionId = none) :
    (proposer.bufferVote vote).Buffered round := by
  intro votes found other member
  by_cases same : round = vote.proposalRound
  · subst same
    simp only [Proposer.bufferVote, AList.lookup_insert, Option.some.injEq] at found
    subst found
    rcases mem_insertSorted member with rfl | member
    · exact ⟨rfl, missing⟩
    · cases previous : proposer.pendingVotes.lookup vote.proposalRound with
      | none => simp [previous] at member
      | some old => exact buffered old previous other (by simpa [previous] using member)
  · rw [Proposer.bufferVote, AList.lookup_insert_ne same] at found
    exact buffered votes found other member

theorem Buffered.setElection {proposer : Proposer} {round : Round}
    (buffered : proposer.Buffered round) {round' : Round} {electionId : ElectionId}
    {old : Election} (found : proposer.election? round' electionId = some old)
    (election : Election) : (proposer.setElection round' electionId election).Buffered round := by
  intro votes pending vote member
  obtain ⟨own, missing⟩ := buffered votes pending vote member
  refine ⟨own, ?_⟩
  rw [election?_setElection, if_neg]
  · exact missing
  · rintro ⟨rfl, rfl⟩
    simp [found] at missing

theorem Buffered.processVote {params : Params} {proposer next : Proposer} {vote : Vote}
    {out : List Outbound} (processed : proposer.processVote params vote = some (next, out))
    {round : Round} (buffered : proposer.Buffered round) : next.Buffered round := by
  rcases processVote_cases processed with ⟨rfl, -⟩ | ⟨missing, rfl, -⟩ |
      ⟨_, outcome, found, -, -, rfl, -⟩
  · exact buffered
  · exact buffered.bufferVote missing
  · have stored := buffered.setElection found outcome.election
    unfold afterOutcome
    split
    exacts [stored.congr rfl fun _ => rfl, stored]

/-! ## What each handler writes -/

theorem processVote_outside {params : Params} {proposer next : Proposer} {vote : Vote}
    {out : List Outbound} (processed : proposer.processVote params vote = some (next, out)) :
    (∀ round electionId, (round, electionId) ≠ (vote.proposalRound, vote.electionId) →
        next.election? round electionId = proposer.election? round electionId) ∧
      ∀ round, round ≠ vote.proposalRound →
        next.pendingVotes.lookup round = proposer.pendingVotes.lookup round := by
  rcases processVote_cases processed with ⟨rfl, -⟩ | ⟨-, rfl, -⟩ |
      ⟨-, outcome, -, -, -, rfl, -⟩
  · exact ⟨fun _ _ _ => rfl, fun _ _ => rfl⟩
  · exact ⟨fun _ _ _ => rfl, fun _ different => AList.lookup_insert_ne different⟩
  · have kept (round : Round) (electionId : ElectionId)
        (other : (round, electionId) ≠ (vote.proposalRound, vote.electionId)) :
        (proposer.setElection vote.proposalRound vote.electionId outcome.election).election?
          round electionId = proposer.election? round electionId := by
      rw [election?_setElection, if_neg fun same => other (by rw [same.1, same.2])]
    unfold afterOutcome
    split <;> exact ⟨kept, fun _ _ => rfl⟩

/-- `process_vote` changes only the vote's election and buffer, and the round by at most one. -/
theorem proposer_process_vote_local (params : Params) (proposer : Proposer) (vote : Vote)
    (next : Proposer) (out : List Outbound)
    (processed : proposer.processVote params vote = some (next, out)) :
    (∀ round electionId, (round, electionId) ≠ (vote.proposalRound, vote.electionId) →
        next.election? round electionId = proposer.election? round electionId) ∧
      (∀ round, round ≠ vote.proposalRound →
        next.pendingVotes.lookup round = proposer.pendingVotes.lookup round) ∧
      (next.round = proposer.round ∨ next.round = proposer.round + 1) ∧
      { next with
          elections := proposer.elections, pendingVotes := proposer.pendingVotes,
          round := proposer.round } = proposer := by
  refine ⟨(processVote_outside processed).1, (processVote_outside processed).2, ?_⟩
  rcases processVote_cases processed with ⟨rfl, -⟩ | ⟨-, rfl, -⟩ |
      ⟨-, outcome, -, -, -, rfl, -⟩
  · exact ⟨.inl rfl, rfl⟩
  · exact ⟨.inl rfl, rfl⟩
  · unfold afterOutcome
    split
    exacts [⟨.inr rfl, rfl⟩, ⟨.inl rfl, rfl⟩]

/-- A vote of replica `2` for the election a header of replica `1` opened. -/
theorem proposer_process_vote_local_counted :
    let params : Params :=
      { quorum := 3, numberOfNodes := 4, logsInfo := false, headerDigest := fun _ _ _ => 0 }
    let vote : Vote :=
      { round := 0, txHash := 7, electionId := 5, proposalRound := 0, commit := false,
        author := 2, headerId := 1001 }
    let start := ((new 0 1 false).run params
      [.primary (.header { round := 0, author := 1, votes := [(7, 5)], id := 1001 })]).get
        (by decide)
    let result := (start.1.processVote params vote).get (by decide)
    (∀ round electionId, (round, electionId) ≠ (vote.proposalRound, vote.electionId) →
        result.1.election? round electionId = start.1.election? round electionId) ∧
      (∀ round, round ≠ vote.proposalRound →
        result.1.pendingVotes.lookup round = start.1.pendingVotes.lookup round) ∧
      (result.1.round = start.1.round ∨ result.1.round = start.1.round + 1) ∧
      { result.1 with
          elections := start.1.elections, pendingVotes := start.1.pendingVotes,
          round := start.1.round } = start.1 := by
  intro params vote start result
  exact proposer_process_vote_local params start.1 vote result.1 result.2
    ((Option.some_get _).symm.trans (congrArg some Prod.mk.eta.symm))

theorem castHeaderVote_outside (proposer : Proposer) (header : Header) (txHash : TxHash)
    (electionId : ElectionId) :
    (proposer.castHeaderVote header txHash electionId).1.pendingVotes = proposer.pendingVotes ∧
      ∀ round, round ≠ header.round → ∀ electionId',
        (proposer.castHeaderVote header txHash electionId).1.election? round electionId' =
          proposer.election? round electionId' := by
  rw [castHeaderVote_eq, openElection_eq]
  split <;> refine ⟨rfl, fun round other electionId' => ?_⟩ <;>
    rw [election?_setElection, if_neg fun same => other same.1] <;> rfl

theorem castHeaderVotes_outside (proposer : Proposer) (header : Header) :
    let cast := (castHeaderVotes header (proposer.recordHeader header) header.votes).1
    cast.pendingVotes = proposer.pendingVotes ∧
      ∀ round, round ≠ header.round → ∀ electionId,
        cast.election? round electionId = proposer.election? round electionId := by
  obtain ⟨pending, elections⟩ := castHeaderVotes_rec header
    (fun before after _ => after.pendingVotes = before.pendingVotes ∧
      ∀ round, round ≠ header.round → ∀ electionId,
        after.election? round electionId = before.election? round electionId)
    (fun _ => ⟨rfl, fun _ _ _ => rfl⟩)
    (fun early late => ⟨late.1.trans early.1, fun round other electionId =>
      (late.2 round other electionId).trans (early.2 round other electionId)⟩)
    (fun _ => castHeaderVote_outside _ header _ _) (proposer.recordHeader header)
  exact ⟨pending, fun round other electionId =>
    (elections round other electionId).trans (election?_recordHeader _ _ _ _)⟩

/-! ## The buffer over a run -/

theorem buffered_drainPending {params : Params} {proposer next : Proposer} {round : Round}
    {out : List Outbound} (drained : drainPending params proposer round = some (next, out))
    (others : ∀ other, other ≠ round → proposer.Buffered other) (other : Round) :
    next.Buffered other := by
  unfold drainPending at drained
  split at drained
  · next empty =>
      obtain ⟨rfl, -⟩ := Prod.mk.inj (Option.some.inj drained)
      by_cases same : other = round
      · exact buffered_of_lookup_none (same ▸ empty)
      · exact others other same
  · refine processVotes_rec (fun before after _ => before.Buffered other → after.Buffered other)
      (fun _ => id) (fun early late => late ∘ early)
      (fun _ step buffered => buffered.processVote step) drained ?_
    by_cases same : other = round
    · subst same
      exact buffered_of_lookup_none (AList.lookup_erase _ _)
    · exact (others other same).congr (AList.lookup_erase_ne same) fun _ => rfl

theorem Buffered.processHeader {params : Params} {proposer next : Proposer} {header : Header}
    {out : List Outbound} (processed : proposer.processHeader params header = some (next, out))
    (buffered : ∀ round, proposer.Buffered round) (round : Round) : next.Buffered round := by
  rcases processHeader_cases processed with ⟨rfl, -⟩ | ⟨-, more, drained, -⟩
  · exact buffered round
  obtain ⟨pending, elections⟩ := castHeaderVotes_outside proposer header
  exact buffered_drainPending drained (fun other different =>
    (buffered other).congr (by rw [pending]) (elections other different)) round

theorem Buffered.handle {params : Params} {proposer next : Proposer} {event : Event}
    {out : List Outbound} (handled : proposer.handle params event = some (next, out))
    (buffered : ∀ round, proposer.Buffered round) (round : Round) : next.Buffered round := by
  rcases handle_cases handled with ⟨proposals, -, made⟩ | ⟨_, -, processed⟩ | ⟨_, -, processed⟩ |
      ⟨round', electionId, voteRound, rfl, -⟩ | ⟨proposals, rfl, -⟩
  · have header : (({ proposer with proposals } : Proposer).makeHeader params).1.Buffered round :=
      (buffered round).congr (by rw [makeHeader_pendingVotes]) fun _ => by
        simp only [election?, roundElections, makeHeader_elections]
    rwa [made] at header
  · exact Buffered.processHeader processed buffered round
  · exact (buffered round).processVote processed
  · rcases expireTally_cases proposer round' electionId voteRound with
      ⟨_, found, expired⟩ | expired <;> rw [expired]
    exacts [(buffered round).setElection found _, buffered round]
  · exact (buffered round).congr rfl fun _ => rfl

theorem Buffered.run {params : Params} {proposer final : Proposer} {events : List Event}
    {out : List Outbound} (ran : proposer.run params events = some (final, out))
    (buffered : ∀ round, proposer.Buffered round) (round : Round) : final.Buffered round :=
  run_rec (fun before after _ => (∀ round, before.Buffered round) → ∀ round, after.Buffered round)
    (fun _ => id) (fun early late => late ∘ early) (fun step buffered => Buffered.handle step buffered) ran
    buffered round

theorem buffered_new (name : PublicKey) (headerSize : Nat) (byzantine : Bool) (round : Round) :
    (new name headerSize byzantine).Buffered round :=
  buffered_of_lookup_none rfl

/-- Every buffered vote belongs to its round and to an election that round does not hold yet. -/
theorem proposer_pending_votes_unstranded (params : Params) (name : PublicKey)
    (headerSize : Nat) (byzantine : Bool) (events : List Event) (final : Proposer)
    (out : List Outbound)
    (ran : (new name headerSize byzantine).run params events = some (final, out))
    (round : Round) (pending : List Vote) (found : final.pendingVotes.lookup round = some pending)
    (vote : Vote) (member : vote ∈ pending) :
    vote.proposalRound = round ∧ final.election? round vote.electionId = none :=
  Buffered.run ran (buffered_new name headerSize byzantine) round pending found vote member

/-- A vote for an election the header does not propose waits in the buffer of round `0`. -/
theorem proposer_pending_votes_unstranded_buffered :
    let params : Params :=
      { quorum := 3, numberOfNodes := 4, logsInfo := false, headerDigest := fun _ _ _ => 0 }
    let vote : Vote :=
      { round := 0, txHash := 8, electionId := 6, proposalRound := 0, commit := false,
        author := 2, headerId := 1002 }
    let events : List Event :=
      [.primary (.header { round := 0, author := 1, votes := [(7, 5)], id := 1001 }),
        .primary (.vote vote)]
    let result := ((new 0 1 false).run params events).get (by decide)
    result.1.pendingVotes.lookup 0 = some [vote] ∧
      vote.proposalRound = 0 ∧ result.1.election? 0 vote.electionId = none := by
  intro params vote events result
  exact ⟨rfl, proposer_pending_votes_unstranded params 0 1 false events result.1 result.2
    ((Option.some_get _).symm.trans (congrArg some Prod.mk.eta.symm)) 0 [vote] rfl vote
    (List.mem_singleton_self _)⟩

/-! ## `process_header` stays in its round -/

theorem drainPending_outside {params : Params} {proposer next : Proposer} {header : Header}
    {out : List Outbound} (drained : drainPending params proposer header.round = some (next, out))
    (own : ∀ pending, proposer.pendingVotes.lookup header.round = some pending →
      ∀ vote ∈ pending, vote.proposalRound = header.round)
    {round : Round} (other : round ≠ header.round) :
    (∀ electionId, next.election? round electionId = proposer.election? round electionId) ∧
      next.pendingVotes.lookup round = proposer.pendingVotes.lookup round := by
  rcases drainPending_cases drained with ⟨rfl, -⟩ | ⟨pending, found, drained⟩
  · exact ⟨fun _ => rfl, rfl⟩
  obtain ⟨elections, kept⟩ := processVotes_rec
    (fun before after _ => (∀ electionId,
      after.election? round electionId = before.election? round electionId) ∧
      after.pendingVotes.lookup round = before.pendingVotes.lookup round)
    (fun _ => ⟨fun _ => rfl, rfl⟩)
    (fun early late => ⟨fun electionId => (late.1 electionId).trans (early.1 electionId),
      late.2.trans early.2⟩)
    (fun member step => by
      have ownRound := own _ found _ member
      exact ⟨fun electionId => (processVote_outside step).1 round electionId fun same =>
        other (ownRound ▸ (Prod.mk.inj same).1), (processVote_outside step).2 round
          (ownRound ▸ other)⟩)
    drained
  exact ⟨elections, kept.trans (AList.lookup_erase_ne other)⟩

/-- `process_header` changes no election and no pending vote outside the header's round. -/
theorem proposer_process_header_local (params : Params) (name : PublicKey) (headerSize : Nat)
    (byzantine : Bool) (events : List Event) (proposer : Proposer) (out : List Outbound)
    (ran : (new name headerSize byzantine).run params events = some (proposer, out))
    (header : Header) (next : Proposer) (sent : List Outbound)
    (processed : proposer.processHeader params header = some (next, sent)) (round : Round)
    (other : round ≠ header.round) :
    (∀ electionId, next.election? round electionId = proposer.election? round electionId) ∧
      next.pendingVotes.lookup round = proposer.pendingVotes.lookup round := by
  have buffered := Buffered.run ran (buffered_new name headerSize byzantine) header.round
  rcases processHeader_cases processed with ⟨rfl, -⟩ | ⟨-, more, drained, -⟩
  · exact ⟨fun _ => rfl, rfl⟩
  obtain ⟨pending, elections⟩ := castHeaderVotes_outside proposer header
  obtain ⟨after, kept⟩ := drainPending_outside drained
    (fun votes found vote member => (buffered votes (pending ▸ found) vote member).1) other
  exact ⟨fun electionId => (after electionId).trans (elections round other electionId),
    kept.trans (by rw [pending])⟩

/-- A header of round `1` after one of round `0` leaves round `0` alone. -/
theorem proposer_process_header_local_second :
    let params : Params :=
      { quorum := 3, numberOfNodes := 4, logsInfo := false, headerDigest := fun _ _ _ => 0 }
    let events : List Event :=
      [.primary (.header { round := 0, author := 1, votes := [(7, 5)], id := 1001 })]
    let header : Header := { round := 1, author := 2, votes := [(8, 5)], id := 1002 }
    let start := ((new 0 1 false).run params events).get (by decide)
    let result := (start.1.processHeader params header).get (by decide)
    (∀ electionId, result.1.election? 0 electionId = start.1.election? 0 electionId) ∧
      result.1.pendingVotes.lookup 0 = start.1.pendingVotes.lookup 0 := by
  intro params events header start result
  exact proposer_process_header_local params 0 1 false events start.1 start.2
    ((Option.some_get _).symm.trans (congrArg some Prod.mk.eta.symm)) header result.1 result.2
    ((Option.some_get _).symm.trans (congrArg some Prod.mk.eta.symm)) 0 (by decide)

end Proposer
end Primary
end DelegatedRingCT
