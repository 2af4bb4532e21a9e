import DelegatedRingCT.Primary.Proposer.Loop

/-!
# The round counts decisions

`process_vote` increments `self.round` exactly when it sets the `decided` flag of an election,
and only an undecided election reaches the voting rules.  No handler resets a flag or replaces
an election by one with a different flag: `process_header` inserts its votes into the stored
election, a new election starts undecided, and a new round starts with no elections.  So the
round is always the number of decided elections.

Each handler gets one lemma saying it keeps `round = decidedCount`, derived from
`processVote_cases` and the closed form of the proposal loop; the run lemma follows by
induction on the events.

The header-level commit is not tied to decisions in the same way.  `process_vote` reports
`Committed` when every election `all_proposals[header_id]` lists is decided, but no handler
writes `all_proposals`, so on every run the report ignores the elections altogether.
-/

namespace DelegatedRingCT
namespace Primary
namespace Proposer

/-- The round is the number of decided elections. -/
def Counted (proposer : Proposer) : Prop := proposer.round = proposer.decidedCount

theorem counted_new (name : PublicKey) (headerSize : Nat) (byzantine : Bool) :
    (new name headerSize byzantine).Counted := rfl

theorem decidedCount_setElection_of_decided {proposer : Proposer} {round : Round}
    {electionId : ElectionId} {election : Election}
    (same : election.decided = ((proposer.election? round electionId).getD Election.new).decided) :
    (proposer.setElection round electionId election).decidedCount = proposer.decidedCount := by
  have counted := decidedCount_setElection proposer round electionId election
  cases stored : proposer.election? round electionId <;>
    simp only [stored, Option.getD_some, Option.getD_none] at same counted <;>
    simp only [same, Option.map_some', Option.map_none', Option.getD_some, Option.getD_none]
      at counted
  · exact counted.trans (by rfl)
  · omega

/-! ## One lemma per handler -/

theorem Counted.processVote {params : Params} {proposer next : Proposer} {vote : Vote}
    {out : List Outbound} (processed : proposer.processVote params vote = some (next, out))
    (counted : proposer.Counted) : next.Counted := by
  rcases processVote_cases processed with ⟨rfl, -⟩ | ⟨-, rfl, -⟩ |
      ⟨election, outcome, stored, undecided, ruled, rfl, -⟩
  · exact counted
  · exact counted
  · have recount := decidedCount_setElection proposer vote.proposalRound vote.electionId
      outcome.election
    simp only [stored, undecided, transition_decided ruled, Option.map_some', Option.getD_some,
      Bool.toNat_false, Bool.false_or, Nat.add_zero] at recount
    unfold Counted afterOutcome at *
    split
    · next advancing =>
        show proposer.round + 1 =
          (proposer.setElection vote.proposalRound vote.electionId outcome.election).decidedCount
        rw [advancing, Bool.toNat_true] at recount
        rw [recount, counted]
    · next advancing =>
        rw [Bool.not_eq_true] at advancing
        rw [advancing, Bool.toNat_false, Nat.add_zero] at recount
        exact counted.trans recount.symm

theorem Counted.castHeaderVote {proposer : Proposer} (counted : proposer.Counted)
    (header : Header) (txHash : TxHash) (electionId : ElectionId) :
    (proposer.castHeaderVote header txHash electionId).1.Counted := by
  rw [castHeaderVote_eq, openElection_eq]
  split <;>
    exact counted.trans
      (decidedCount_setElection_of_decided (by simp [election?, roundElections])).symm

theorem Counted.recordHeader {proposer : Proposer} (counted : proposer.Counted)
    (header : Header) : (proposer.recordHeader header).Counted := by
  unfold Counted Proposer.recordHeader decidedCount
  split
  · exact counted
  · next fresh =>
      have added := Map.sum_insert proposer.elections header.round ∅
        fun inner => inner.sum fun election => election.decided.toNat
      simp only [AList.lookup_eq_none.mpr fresh, Option.map_none', Option.getD_none,
        Map.sum_empty, Nat.add_zero] at added
      exact counted.trans added.symm

theorem Counted.processHeader {params : Params} {proposer next : Proposer} {header : Header}
    {out : List Outbound} (processed : proposer.processHeader params header = some (next, out))
    (counted : proposer.Counted) : next.Counted :=
  processHeader_rec (fun before after _ => before.Counted → after.Counted) (fun _ => id)
    (fun early late => late ∘ early) (fun _ counted => counted.recordHeader header)
    (fun counted => counted.castHeaderVote header _ _) (fun _ => id)
    (fun step counted => counted.processVote step) processed counted

theorem Counted.handle {params : Params} {proposer next : Proposer} {event : Event}
    {out : List Outbound} (handled : proposer.handle params event = some (next, out))
    (counted : proposer.Counted) : next.Counted := by
  rcases handle_cases handled with ⟨proposals, -, made⟩ | ⟨_, -, processed⟩ | ⟨_, -, processed⟩ |
      ⟨round, electionId, voteRound, rfl, -⟩ | ⟨proposals, rfl, -⟩
  · have header : (({ proposer with proposals } : Proposer).makeHeader params).1.Counted := by
      unfold Counted decidedCount
      rw [makeHeader_round, makeHeader_elections]
      exact counted
    rwa [made] at header
  · exact counted.processHeader processed
  · exact counted.processVote processed
  · rcases expireTally_cases proposer round electionId voteRound with
      ⟨_, stored, expired⟩ | expired <;>
      rw [expired]
    · exact counted.trans (decidedCount_setElection_of_decided (by simp [stored])).symm
    · exact counted
  · exact counted

theorem Counted.run {params : Params} {proposer final : Proposer} {events : List Event}
    {out : List Outbound} (ran : proposer.run params events = some (final, out))
    (counted : proposer.Counted) : final.Counted :=
  run_rec (fun before after _ => before.Counted → after.Counted) (fun _ => id)
    (fun early late => late ∘ early) (fun step counted => counted.handle step) ran counted

/-- After any run, the round is the number of decided elections. -/
theorem proposer_round_counts_decisions (params : Params) (name : PublicKey) (headerSize : Nat)
    (byzantine : Bool) (events : List Event) (final : Proposer) (out : List Outbound)
    (ran : (new name headerSize byzantine).run params events = some (final, out)) :
    final.round = final.decidedCount :=
  Counted.run ran (counted_new name headerSize byzantine)

theorem proposer_round_counts_decisions_commit :
    let params : Params :=
      { quorum := 1, numberOfNodes := 1, logsInfo := true, headerDigest := fun _ _ _ => 0 }
    let events : List Event :=
      [.primary (.header { round := 0, author := 1, votes := [(7, 5)], id := 7 }),
        .primary (.vote
          { round := 1, txHash := 7, electionId := 5, proposalRound := 0, commit := true,
            author := 2, headerId := 7 })]
    let result := ((new 0 1 false).run params events).get (by decide)
    result.1.round = 1 ∧ result.1.round = result.1.decidedCount :=
  by
  intro params events result
  exact ⟨rfl, proposer_round_counts_decisions params 0 1 false events result.1 result.2 rfl⟩

/-! ## The header-commit report -/

theorem headerDecided_of_empty {proposer : Proposer} (empty : proposer.allProposals = ∅)
    (elections : Map ElectionId Election) (headerId : Digest) :
    proposer.headerDecided elections headerId = true := by
  simp [headerDecided, empty]

/-- On every run the header-commit report ignores the state of the header's elections. -/
theorem reportsCommitted_of_run {params : Params} {name : PublicKey} {headerSize : Nat}
    {byzantine : Bool} {events : List Event} {proposer : Proposer} {out : List Outbound}
    (ran : (new name headerSize byzantine).run params events = some (proposer, out))
    (vote : Vote) :
    proposer.reportsCommitted params vote = true ↔ params.logsInfo = true ∧
      ∃ next sent elections, routeVote params proposer vote = some (next, sent, some elections) ∧
        (next.votes.lookup vote.headerId).isSome = true := by
  unfold reportsCommitted
  match routed : routeVote params proposer vote with
  | none => simp
  | some (next, sent, none) => simp
  | some (next, sent, some elections) =>
      have empty := (routeVote_unwritten routed).allProposals.trans (run_new_unwritten ran).2
      simp [headerDecided_of_empty empty]

/-- The replica reports a header `Committed` while its only election is undecided. -/
theorem proposer_reports_undecided_header :
    let params : Params :=
      { quorum := 3, numberOfNodes := 4, logsInfo := true, headerDigest := fun _ _ _ => 0 }
    let header : Header := { round := 0, author := 1, votes := [(7, 5)], id := 1001 }
    let vote : Vote :=
      { round := 0, txHash := 7, electionId := 5, proposalRound := 0, commit := false,
        author := 2, headerId := 1001 }
    ∃ proposer out, (new 0 1 false).run params [.primary (.header header)] = some (proposer, out) ∧
      proposer.reportsCommitted params vote = true ∧
      proposer.votes.lookup vote.headerId = some [(7, 5)] ∧
      (proposer.processVote params vote).map
          (fun result => (result.1.election? 0 5).map Election.decided) = some (some false) := by
  intro params header vote
  refine ⟨_, _, rfl, ?_, rfl, rfl⟩
  exact (@reportsCommitted_of_run params 0 1 false [.primary (.header header)] _ _ rfl vote).mpr
    ⟨rfl, _, _, _, rfl, rfl⟩

/-! ## The flags of `decided_elections`

`process_header` writes `decided_elections[header.id] = false`, and no handler writes `true`.
The decision rule unwraps `decided_elections[x]` and returns without deciding when the flag is
`true`; on every run that exit is dead, so the rule either decides or panics. -/

/-- Every flag `decided_elections` holds is `false`. -/
def FlagsUnset (proposer : Proposer) : Prop :=
  ∀ headerId flag, proposer.decidedElections.lookup headerId = some flag → flag = false

/-- The voting rules keep an election undecided only on a flag set to `true`. -/
theorem transition_keep {params : Params} {name : PublicKey} {decidedElections : Map Digest Bool}
    {election kept : Election} {vote : Vote}
    (ruled : transition params name decidedElections election vote = some (.keep kept)) :
    ∃ txHash, decidedElections.lookup txHash = some true := by
  dsimp only [transition] at ruled
  split at ruled
  · cases ruled
  split at ruled
  · next txHash _ =>
      split at ruled
      · cases ruled
      · cases ruled
      · next set => exact ⟨txHash, set⟩
  split at ruled
  · split at ruled <;> cases ruled
  split at ruled
  · split at ruled <;> cases ruled
  split at ruled <;> cases ruled

theorem FlagsUnset.congr {proposer next : Proposer} (flags : proposer.FlagsUnset)
    (same : next.decidedElections = proposer.decidedElections) : next.FlagsUnset :=
  fun headerId flag found => flags headerId flag (same ▸ found)

theorem FlagsUnset.processVote {params : Params} {proposer next : Proposer} {vote : Vote}
    {out : List Outbound} (processed : proposer.processVote params vote = some (next, out))
    (flags : proposer.FlagsUnset) : next.FlagsUnset := by
  refine flags.congr ?_
  rcases processVote_cases processed with ⟨rfl, -⟩ | ⟨-, rfl, -⟩ |
      ⟨-, outcome, -, -, -, rfl, -⟩
  · rfl
  · rfl
  · unfold afterOutcome; split <;> rfl

theorem FlagsUnset.recordHeader {proposer : Proposer} (flags : proposer.FlagsUnset)
    (header : Header) : (proposer.recordHeader header).FlagsUnset := by
  intro headerId flag found
  by_cases same : headerId = header.id
  · subst same
    simpa [Proposer.recordHeader, AList.lookup_insert, eq_comm] using found
  · exact flags headerId flag (by simpa [Proposer.recordHeader, AList.lookup_insert_ne same]
      using found)

theorem FlagsUnset.processHeader {params : Params} {proposer next : Proposer} {header : Header}
    {out : List Outbound} (processed : proposer.processHeader params header = some (next, out))
    (flags : proposer.FlagsUnset) : next.FlagsUnset :=
  processHeader_rec (fun before after _ => before.FlagsUnset → after.FlagsUnset) (fun _ => id)
    (fun early late => late ∘ early) (fun _ flags => flags.recordHeader header)
    (fun flags => flags.congr (by rw [castHeaderVote_eq, openElection_eq]; split <;> rfl))
    (fun _ flags => flags.congr rfl) (fun step flags => flags.processVote step) processed flags

theorem FlagsUnset.handle {params : Params} {proposer next : Proposer} {event : Event}
    {out : List Outbound} (handled : proposer.handle params event = some (next, out))
    (flags : proposer.FlagsUnset) : next.FlagsUnset := by
  rcases handle_cases handled with ⟨proposals, -, made⟩ | ⟨_, -, processed⟩ | ⟨_, -, processed⟩ |
      ⟨round, electionId, voteRound, rfl, -⟩ | ⟨proposals, rfl, -⟩
  · have header : (({ proposer with proposals } : Proposer).makeHeader params).1.FlagsUnset :=
      flags.congr (by unfold makeHeader; split <;> rfl)
    rwa [made] at header
  · exact flags.processHeader processed
  · exact flags.processVote processed
  · rcases expireTally_cases proposer round electionId voteRound with
      ⟨_, -, expired⟩ | expired <;> rw [expired]
    exacts [flags.congr rfl, flags]
  · exact flags.congr rfl

/-- `decided_elections` holds only `false`, so the rules never keep an election undecided. -/
theorem proposer_decision_never_kept (params : Params) (name : PublicKey) (headerSize : Nat)
    (byzantine : Bool) (events : List Event) (final : Proposer) (out : List Outbound)
    (ran : (new name headerSize byzantine).run params events = some (final, out)) :
    (∀ headerId flag, final.decidedElections.lookup headerId = some flag → flag = false) ∧
      ∀ election vote kept,
        transition params final.name final.decidedElections election vote ≠ some (.keep kept) := by
  have flags : final.FlagsUnset :=
    run_rec (fun before after _ => before.FlagsUnset → after.FlagsUnset) (fun _ => id)
      (fun early late => late ∘ early) (fun step flags => flags.handle step) ran
      fun _ _ found => by simp [new] at found
  refine ⟨flags, fun election vote kept ruled => ?_⟩
  obtain ⟨txHash, set⟩ := transition_keep ruled
  exact Bool.false_ne_true (flags txHash true set).symm

/-- After a header, its id has the flag `false`. -/
theorem proposer_decision_never_kept_header :
    let params : Params :=
      { quorum := 3, numberOfNodes := 4, logsInfo := false, headerDigest := fun _ _ _ => 0 }
    let events : List Event :=
      [.primary (.header { round := 0, author := 1, votes := [(7, 5)], id := 1001 })]
    let result := ((new 0 1 false).run params events).get (by decide)
    result.1.decidedElections.lookup 1001 = some false ∧
      (∀ headerId flag, result.1.decidedElections.lookup headerId = some flag → flag = false) ∧
      ∀ election vote kept, transition params result.1.name result.1.decidedElections election
        vote ≠ some (.keep kept) := by
  intro params events result
  exact ⟨rfl, proposer_decision_never_kept params 0 1 false events result.1 result.2 rfl⟩

end Proposer
end Primary
end DelegatedRingCT
