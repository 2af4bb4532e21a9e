import DelegatedRingCT.Primary.Proposer.Loop

/-!
# What a header proposes

`make_header` drops the queued proposals whose election is in the `decided` set or in
`active_elections`, and drains all the others into the header.  The filter is sound: every
election that exists on the replica, in any round, is active, because `process_header` records
an election as active when it creates it, and no handler writes the `decided` set that could
stop it.  So a header never proposes an election the replica already holds.

The drain is not bounded by `header_size`, and nothing removes a repeated election id from the
queue: two runs show a header with more proposals than `header_size`, and a header proposing
one election twice.
-/

namespace DelegatedRingCT
namespace Primary
namespace Proposer

theorem makeHeader_proposals {params : Params} {proposer next : Proposer} {out : List Outbound}
    (made : proposer.makeHeader params = (next, out)) {header : Header}
    (sent : header ∈ Outbound.headers out) {proposal : TxHash × ElectionId}
    (member : proposal ∈ header.votes) :
    proposal ∈ proposer.proposals ∧ proposal.2 ∉ proposer.decided ∧
      proposal.2 ∉ proposer.activeElections := by
  unfold makeHeader at made
  split at made <;> simp only [Prod.mk.injEq] at made <;> obtain ⟨-, rfl⟩ := made
  · simp at sent
  · simp only [Outbound.headers, List.filterMap_cons, List.filterMap_nil,
      List.mem_singleton] at sent
    subst sent
    simp only [List.mem_filter, decide_eq_true_eq] at member
    exact ⟨member.1.1, member.1.2, member.2⟩

/-! ## Every election is active -/

/-- The invariant behind the filter of `make_header`: the `decided` set is empty, and every
election that exists, in any round, is active. -/
structure Tracked (proposer : Proposer) : Prop where
  decided : proposer.decided = []
  active : ∀ round electionId election, proposer.election? round electionId = some election →
    electionId ∈ proposer.activeElections

theorem tracked_new (name : PublicKey) (headerSize : Nat) (byzantine : Bool) :
    (new name headerSize byzantine).Tracked :=
  ⟨rfl, fun _ _ _ found => by simp [new, election?, roundElections] at found⟩

theorem Tracked.mono {proposer next : Proposer} (tracked : proposer.Tracked)
    (elections : ∀ round electionId,
      next.election? round electionId = proposer.election? round electionId)
    (active : proposer.activeElections ⊆ next.activeElections)
    (decided : next.decided = proposer.decided) : next.Tracked :=
  ⟨decided.trans tracked.decided, fun round electionId election found =>
    active (tracked.active round electionId election ((elections round electionId) ▸ found))⟩

theorem Tracked.setElection {proposer : Proposer} (tracked : proposer.Tracked) {round : Round}
    {electionId : ElectionId} (member : electionId ∈ proposer.activeElections)
    (election : Election) : (proposer.setElection round electionId election).Tracked := by
  refine ⟨tracked.decided, fun round' electionId' election' found => ?_⟩
  rw [election?_setElection] at found
  split at found
  · next same => exact same.2 ▸ member
  · exact tracked.active _ _ _ found

theorem Tracked.replace {proposer : Proposer} (tracked : proposer.Tracked) {round : Round}
    {electionId : ElectionId} {old : Election}
    (found : proposer.election? round electionId = some old) (election : Election) :
    (proposer.setElection round electionId election).Tracked :=
  tracked.setElection (tracked.active _ _ _ found) election

theorem Tracked.processVote {params : Params} {proposer next : Proposer} {vote : Vote}
    {out : List Outbound} (processed : proposer.processVote params vote = some (next, out))
    (tracked : proposer.Tracked) : next.Tracked := by
  rcases processVote_cases processed with ⟨rfl, -⟩ | ⟨-, rfl, -⟩ |
      ⟨election, outcome, found, -, -, rfl, -⟩
  · exact tracked
  · exact tracked.mono (fun _ _ => rfl) (fun _ => id) rfl
  · have stored := tracked.replace found outcome.election
    unfold afterOutcome
    split
    exacts [stored.mono (fun _ _ => rfl) (fun _ => id) rfl, stored]

theorem Tracked.openElection {proposer : Proposer} (tracked : proposer.Tracked) (round : Round)
    (electionId : ElectionId) (vote : Vote) :
    (proposer.openElection round electionId vote).1.Tracked ∧
      electionId ∈ (proposer.openElection round electionId vote).1.activeElections := by
  rw [openElection_eq]
  refine ⟨tracked.mono (fun _ _ => rfl) (fun _ member => ?_) rfl, ?_⟩ <;> dsimp only <;> split
  · exact List.mem_append_left _ member
  · exact member
  · exact List.mem_append_right _ (List.mem_singleton_self _)
  · next kept =>
      by_contra absent
      cases found : proposer.election? round electionId with
      | none => exact kept ⟨by simp [found], absent, by simp [tracked.decided]⟩
      | some election => exact absent (tracked.active _ _ _ found)

theorem Tracked.castHeaderVote {proposer : Proposer} (tracked : proposer.Tracked)
    (header : Header) (txHash : TxHash) (electionId : ElectionId) :
    (proposer.castHeaderVote header txHash electionId).1.Tracked := by
  have filtered : ({ proposer with
      proposals := proposer.proposals.filter fun p => p.2 ≠ electionId } : Proposer).Tracked :=
    tracked.mono (fun _ _ => rfl) (fun _ => id) rfl
  obtain ⟨opened, member⟩ :=
    filtered.openElection header.round electionId (implicitVote header txHash electionId)
  rw [castHeaderVote_eq]
  split <;> exact opened.setElection member _

theorem Tracked.processHeader {params : Params} {proposer next : Proposer} {header : Header}
    {out : List Outbound} (processed : proposer.processHeader params header = some (next, out))
    (tracked : proposer.Tracked) : next.Tracked :=
  processHeader_rec (fun before after _ => before.Tracked → after.Tracked) (fun _ => id)
    (fun early late => late ∘ early)
    (fun _ tracked => tracked.mono (election?_recordHeader _ header) (fun _ => id) rfl)
    (fun tracked => tracked.castHeaderVote header _ _)
    (fun _ tracked => tracked.mono (fun _ _ => rfl) (fun _ => id) rfl)
    (fun step tracked => tracked.processVote step) processed tracked

theorem Tracked.handle {params : Params} {proposer next : Proposer} {event : Event}
    {out : List Outbound} (handled : proposer.handle params event = some (next, out))
    (tracked : proposer.Tracked) : next.Tracked := by
  rcases handle_cases handled with ⟨proposals, -, made⟩ | ⟨_, -, processed⟩ | ⟨_, -, processed⟩ |
      ⟨round, electionId, voteRound, rfl, -⟩ | ⟨proposals, rfl, -⟩
  · have header : (({ proposer with proposals } : Proposer).makeHeader params).1.Tracked := by
      unfold makeHeader
      split <;> exact tracked.mono (fun _ _ => rfl) (fun _ => id) rfl
    rwa [made] at header
  · exact tracked.processHeader processed
  · exact tracked.processVote processed
  · rcases expireTally_cases proposer round electionId voteRound with
      ⟨_, found, expired⟩ | expired <;> rw [expired]
    exacts [tracked.replace found _, tracked]
  · exact tracked.mono (fun _ _ => rfl) (fun _ => id) rfl

theorem Tracked.run {params : Params} {proposer final : Proposer} {events : List Event}
    {out : List Outbound} (ran : proposer.run params events = some (final, out))
    (tracked : proposer.Tracked) : final.Tracked :=
  run_rec (fun before after _ => before.Tracked → after.Tracked) (fun _ => id)
    (fun early late => late ∘ early) (fun step tracked => tracked.handle step) ran tracked

theorem handle_headers_inactive {params : Params} {proposer next : Proposer} {event : Event}
    {out : List Outbound} (handled : proposer.handle params event = some (next, out))
    {header : Header} (sent : header ∈ Outbound.headers out) {proposal : TxHash × ElectionId}
    (member : proposal ∈ header.votes) : proposal.2 ∉ proposer.activeElections := by
  rcases handle_cases handled with ⟨proposals, -, made⟩ | ⟨_, -, processed⟩ | ⟨_, -, processed⟩ |
      ⟨_, _, _, -, rfl⟩ | ⟨_, -, rfl⟩
  · exact (makeHeader_proposals made sent member).2.2
  · simp [(processHeader_frame processed).headers] at sent
  · simp [(processVote_frame processed).headers] at sent
  all_goals simp at sent

/-- Every held election is active, so a later header proposes none of them. -/
theorem proposer_header_elections_unopened (params : Params) (name : PublicKey)
    (headerSize : Nat) (byzantine : Bool) (events : List Event) (proposer : Proposer)
    (out : List Outbound)
    (ran : (new name headerSize byzantine).run params events = some (proposer, out)) :
    (∀ round electionId election, proposer.election? round electionId = some election →
        electionId ∈ proposer.activeElections) ∧
      ∀ event next sent, proposer.handle params event = some (next, sent) →
        ∀ header ∈ Outbound.headers sent, ∀ proposal ∈ header.votes, ∀ round,
          proposer.election? round proposal.2 = none := by
  have tracked := Tracked.run ran (tracked_new name headerSize byzantine)
  refine ⟨tracked.active, fun event next sent handled header made proposal member round => ?_⟩
  cases found : proposer.election? round proposal.2 with
  | none => rfl
  | some election =>
      exact absurd (tracked.active _ _ _ found) (handle_headers_inactive handled made member)

theorem proposer_header_elections_unopened_header :
    let params : Params :=
      { quorum := 3, numberOfNodes := 4, logsInfo := true, headerDigest := fun _ _ _ => 0 }
    let events : List Event :=
      [.primary (.header { round := 0, author := 1, votes := [(7, 5)], id := 1001 }),
        .worker 8 6]
    let result := ((new 0 1 false).run params events).get (by decide)
    (∀ round electionId election, result.1.election? round electionId = some election →
        electionId ∈ result.1.activeElections) ∧
      ∀ event next sent, result.1.handle params event = some (next, sent) →
        ∀ header ∈ Outbound.headers sent, ∀ proposal ∈ header.votes, ∀ round,
          result.1.election? round proposal.2 = none :=
  by
  intro params events result
  exact proposer_header_elections_unopened params 0 1 false events result.1 result.2 rfl

/-! ## Headers the filter lets through -/

/-- `make_header` drains every queued proposal: after a decision moves the replica to round `1`,
one header carries all three waiting pairs. -/
theorem proposer_header_exceeds_header_size :
    let params : Params :=
      { quorum := 1, numberOfNodes := 1, logsInfo := true, headerDigest := fun _ _ _ => 0 }
    let events : List Event :=
      [.worker 100 200, .worker 101 201, .worker 102 202,
        .primary (.header { round := 0, author := 1, votes := [(7, 5)], id := 7 }),
        .primary (.vote
          { round := 1, txHash := 7, electionId := 5, proposalRound := 0, commit := true,
            author := 2, headerId := 7 }),
        .worker 103 203]
    ((new 0 1 false).run params events).map
        (fun result => (Outbound.headers result.2).map fun header =>
          (header.round, header.votes.length)) = some [(0, 1), (1, 3)] := rfl

/-- Two pairs of one election make a header that proposes it twice. -/
theorem proposer_header_repeats_election :
    let params : Params :=
      { quorum := 3, numberOfNodes := 4, logsInfo := true, headerDigest := fun _ _ _ => 0 }
    ((new 0 2 false).run params [.worker 1 5, .worker 2 5]).map
        (fun result => (Outbound.headers result.2).map Header.votes) =
      some [[(1, 5), (2, 5)]] := rfl

end Proposer
end Primary
end DelegatedRingCT
