import DelegatedRingCT.Primary.Proposer.Loop

/-!
# What a replica keeps

No handler removes an election, or an author's entry from a tally: `process_header` inserts its
votes into the stored election, `process_vote` stores the election the voting rules return,
which is the stored one with votes inserted, and a latched timer changes only a tally's timer.
A decided election is kept more strictly.  `process_vote` returns before the voting rules, so
only the proposal loop of `process_header` still inserts votes into it, all at vote-round `0`:
its flag, `commit`, `proof_round` and the votes of every other vote-round stay as they are.

So what a replica sends is durable.  Every vote it broadcasts carries its own name and is in its
own tally of that election and vote-round when it goes out, and stays there; every header it
broadcasts names it as the author.
-/

namespace DelegatedRingCT
namespace Primary

namespace Election

/-- What may still happen to a decided election: its flag, `commit` and `proof_round` stay, and
so do the votes of every tally but that of vote-round `0`. -/
structure Settled (before after : Election) : Prop where
  decided : after.decided = before.decided
  commit : after.commit = before.commit
  proofRound : after.proofRound = before.proofRound
  votes : ∀ round, round ≠ 0 →
    (after.tallies.lookup round).map Tally.votes = (before.tallies.lookup round).map Tally.votes

theorem Settled.refl (election : Election) : Settled election election :=
  ⟨rfl, rfl, rfl, fun _ _ => rfl⟩

theorem Settled.trans {first second third : Election} (early : Settled first second)
    (late : Settled second third) : Settled first third :=
  ⟨late.decided.trans early.decided, late.commit.trans early.commit,
    late.proofRound.trans early.proofRound,
    fun round nonzero => (late.votes round nonzero).trans (early.votes round nonzero)⟩

/-- How an election may change on a replica: no author's entry leaves a tally, and a decided
election only settles. -/
structure Evolves (before after : Election) : Prop where
  voted : ∀ author round, before.votedOrCommitted author round = true →
    after.votedOrCommitted author round = true
  settled : before.decided = true → Settled before after

theorem Evolves.refl (election : Election) : Evolves election election :=
  ⟨fun _ _ => id, fun _ => .refl election⟩

theorem Evolves.trans {first second third : Election} (early : Evolves first second)
    (late : Evolves second third) : Evolves first third :=
  ⟨fun author round => late.voted author round ∘ early.voted author round, fun decided =>
    (early.settled decided).trans (late.settled ((early.settled decided).decided.trans decided))⟩

theorem votedOrCommitted_insertVote {election : Election} {author : PublicKey} {round : Round}
    (voted : election.votedOrCommitted author round = true) (vote : Vote) :
    (election.insertVote vote).votedOrCommitted author round = true := by
  unfold votedOrCommitted at *
  by_cases same : round = vote.round
  · subst same
    cases found : election.tallies.lookup vote.round with
    | none => simp [found] at voted
    | some tally =>
        simp only [found, decide_eq_true_eq] at voted
        simp [insertVote, found, AList.lookup_insert, AList.mem_insert, voted]
  · rwa [insertVote, AList.lookup_insert_ne same]

theorem Evolves.insertVote {election : Election} {vote : Vote} (zero : vote.round = 0) :
    Evolves election (election.insertVote vote) :=
  ⟨fun _ _ voted => votedOrCommitted_insertVote voted vote, fun _ =>
    ⟨rfl, rfl, rfl, fun round nonzero => by
      rw [Election.insertVote, AList.lookup_insert_ne (zero ▸ nonzero)]⟩⟩

theorem expire_votes (election : Election) (round voteRound : Round) :
    ((election.expire round).tallies.lookup voteRound).map Tally.votes =
      (election.tallies.lookup voteRound).map Tally.votes := by
  unfold expire
  split
  · next tally found =>
      by_cases same : voteRound = round
      · subst same
        simp [AList.lookup_insert, found]
      · simp only [AList.lookup_insert_ne same]
  · rfl

theorem Evolves.expire (election : Election) (round : Round) :
    Evolves election (election.expire round) := by
  have votes := expire_votes election round
  refine ⟨fun author voteRound voted => ?_, fun _ => ⟨expire_decided _ _, ?_, ?_, fun r _ => votes r⟩⟩
  · have same := votes voteRound
    unfold votedOrCommitted at *
    cases found : election.tallies.lookup voteRound <;>
      cases found' : (election.expire round).tallies.lookup voteRound <;>
      simp_all
  all_goals unfold Election.expire; split <;> rfl

end Election

/-- The voting rules evolve an undecided election. -/
theorem transition_evolves {params : Params} {name : PublicKey}
    {decidedElections : Map Digest Bool} {election : Election} {vote : Vote} {outcome : Outcome}
    (ruled : transition params name decidedElections election vote = some outcome) :
    election.decided = false → election.Evolves outcome.election := by
  intro undecided
  have counted (author : PublicKey) (round : Round)
      (voted : election.votedOrCommitted author round = true) :=
    Election.votedOrCommitted_insertVote voted vote
  refine ⟨fun author round voted => ?_, fun decided => absurd decided (by simp [undecided])⟩
  rcases transition_cases ruled with rfl | rfl | rfl | ⟨-, -, -, -, rfl⟩ | ⟨-, -, -, -, rfl⟩
  · exact counted author round voted
  · exact counted author round voted
  · exact counted author round voted
  · exact Election.votedOrCommitted_insertVote (counted author round voted) _
  · exact Election.votedOrCommitted_insertVote (counted author round voted) _

namespace Proposer

/-- Every election of `before` is still held in `after`, evolved. -/
def Persists (before after : Proposer) : Prop :=
  ∀ round electionId election, before.election? round electionId = some election →
    ∃ later, after.election? round electionId = some later ∧ election.Evolves later

theorem Persists.refl (proposer : Proposer) : proposer.Persists proposer :=
  fun _ _ election found => ⟨election, found, .refl election⟩

theorem Persists.trans {first second third : Proposer} (early : first.Persists second)
    (late : second.Persists third) : first.Persists third := fun round electionId _ found =>
  let ⟨middle, kept, evolves⟩ := early round electionId _ found
  let ⟨last, kept', evolves'⟩ := late round electionId middle kept
  ⟨last, kept', evolves.trans evolves'⟩

theorem Persists.of_elections {before after : Proposer}
    (same : ∀ round electionId, after.election? round electionId = before.election? round electionId) :
    before.Persists after :=
  fun round electionId election found => ⟨election, (same round electionId).trans found, .refl _⟩

theorem Persists.setElection (proposer : Proposer) {round : Round} {electionId : ElectionId}
    {election : Election}
    (evolves : ∀ old, proposer.election? round electionId = some old → old.Evolves election) :
    proposer.Persists (proposer.setElection round electionId election) := by
  intro round' electionId' old found
  rw [election?_setElection]
  split
  · next same =>
      obtain ⟨rfl, rfl⟩ := same
      exact ⟨election, rfl, evolves old found⟩
  · exact ⟨old, found, .refl old⟩

theorem processVote_persists {params : Params} {proposer next : Proposer} {vote : Vote}
    {out : List Outbound} (processed : proposer.processVote params vote = some (next, out)) :
    proposer.Persists next := by
  rcases processVote_cases processed with ⟨rfl, -⟩ | ⟨-, rfl, -⟩ |
      ⟨election, outcome, found, undecided, ruled, rfl, -⟩
  · exact .refl _
  · exact .of_elections fun _ _ => rfl
  · have stored : proposer.Persists (proposer.setElection vote.proposalRound vote.electionId
        outcome.election) := Persists.setElection proposer fun old present =>
      (Option.some.inj (present.symm.trans found)) ▸ transition_evolves ruled undecided
    unfold afterOutcome
    split
    exacts [stored.trans (.of_elections fun _ _ => rfl), stored]

theorem castHeaderVote_persists (proposer : Proposer) (header : Header) (txHash : TxHash)
    (electionId : ElectionId) :
    proposer.Persists (proposer.castHeaderVote header txHash electionId).1 := by
  rw [castHeaderVote_eq, openElection_eq]
  split <;>
    refine Persists.setElection _ fun old found => ?_ <;>
    simp only [election?, roundElections] at found <;>
    simp only [election?, roundElections, found, Option.getD_some]
  · exact .insertVote rfl
  · exact (Election.Evolves.insertVote rfl).trans (.insertVote rfl)

theorem processHeader_persists {params : Params} {proposer next : Proposer} {header : Header}
    {out : List Outbound} (processed : proposer.processHeader params header = some (next, out)) :
    proposer.Persists next :=
  processHeader_rec (fun before after _ => before.Persists after) Persists.refl
    (fun early late => early.trans late)
    (fun _ => .of_elections (election?_recordHeader _ header))
    (castHeaderVote_persists _ _ _ _) (fun _ => .of_elections fun _ _ => rfl)
    processVote_persists processed

theorem handle_persists {params : Params} {proposer next : Proposer} {event : Event}
    {out : List Outbound} (handled : proposer.handle params event = some (next, out)) :
    proposer.Persists next := by
  rcases handle_cases handled with ⟨proposals, -, made⟩ | ⟨_, -, processed⟩ | ⟨_, -, processed⟩ |
      ⟨round, electionId, voteRound, rfl, -⟩ | ⟨proposals, rfl, -⟩
  · have header : proposer.Persists (({ proposer with proposals } : Proposer).makeHeader params).1 :=
      .of_elections fun _ _ => by simp only [election?, roundElections, makeHeader_elections]
    rwa [made] at header
  · exact processHeader_persists processed
  · exact processVote_persists processed
  · rcases expireTally_cases proposer round electionId voteRound with
      ⟨election, found, expired⟩ | expired <;> rw [expired]
    · exact Persists.setElection proposer fun old present =>
        (Option.some.inj (present.symm.trans found)) ▸ Election.Evolves.expire _ _
    · exact .refl _
  · exact .of_elections fun _ _ => rfl

theorem run_persists {params : Params} {proposer final : Proposer} {events : List Event}
    {out : List Outbound} (ran : proposer.run params events = some (final, out)) :
    proposer.Persists final :=
  run_rec (fun before after _ => before.Persists after) Persists.refl
    (fun early late => early.trans late) handle_persists ran

/-- A held election stays held, keeps every entry, and once decided keeps its decision, `commit`,
`proof_round` and tallies past vote-round `0`. -/
theorem proposer_decided_election_settles (params : Params) (proposer : Proposer)
    (events : List Event) (final : Proposer) (out : List Outbound)
    (ran : proposer.run params events = some (final, out)) (round : Round)
    (electionId : ElectionId) (election : Election)
    (found : proposer.election? round electionId = some election) :
    ∃ later, final.election? round electionId = some later ∧
      (∀ author voteRound, election.votedOrCommitted author voteRound = true →
        later.votedOrCommitted author voteRound = true) ∧
      (election.decided = true → Election.Settled election later) :=
  let ⟨later, kept, evolves⟩ := run_persists ran round electionId election found
  ⟨later, kept, evolves.voted, evolves.settled⟩

/-- A decided election keeps its decision through a second header and more commits. -/
theorem proposer_decided_election_settles_decided :
    let params : Params :=
      { quorum := 1, numberOfNodes := 1, logsInfo := false, headerDigest := fun _ _ _ => 0 }
    let header : Header := { round := 0, author := 1, votes := [(7, 5)], id := 7 }
    let commit (author : PublicKey) (txHash : TxHash) : Vote :=
      { round := 1, txHash, electionId := 5, proposalRound := 0, commit := true, author,
        headerId := 7 }
    let start := ((new 0 1 false).run params
      [.primary (.header header), .primary (.vote (commit 2 7))]).get (by decide)
    let events : List Event :=
      [.primary (.header { header with author := 3, id := 8 }), .primary (.vote (commit 3 9))]
    let final := (start.1.run params events).get (by decide)
    let election := (start.1.election? 0 5).get (by decide)
    election.decided = true ∧
      ∃ later, final.1.election? 0 5 = some later ∧
        (∀ author voteRound, election.votedOrCommitted author voteRound = true →
          later.votedOrCommitted author voteRound = true) ∧
        (election.decided = true → Election.Settled election later) := by
  intro params header commit start events final election
  exact ⟨rfl, proposer_decided_election_settles params start.1 events final.1 final.2
    ((Option.some_get _).symm.trans (congrArg some Prod.mk.eta.symm)) 0 5 election
    (Option.some_get _).symm⟩

/-! ## What a replica sends -/

/-- The replica holds the vote's election and its tally of the vote's vote-round has an entry of
the vote's author. -/
def Counts (proposer : Proposer) (vote : Vote) : Prop :=
  ∃ election, proposer.election? vote.proposalRound vote.electionId = some election ∧
    election.votedOrCommitted vote.author vote.round = true

theorem Persists.counts {before after : Proposer} (persists : before.Persists after)
    {vote : Vote} (counts : before.Counts vote) : after.Counts vote :=
  let ⟨_, found, voted⟩ := counts
  let ⟨later, kept, evolves⟩ := persists _ _ _ found
  ⟨later, kept, evolves.voted _ _ voted⟩

/-- What a step sends is the replica's own: it keeps its name, its Byzantine flag and its
elections, every vote it sends names it and is counted when the step ends, and every header it
sends names it. -/
structure Sends (before after : Proposer) (out : List Outbound) : Prop where
  name : after.name = before.name
  byzantine : after.byzantine = before.byzantine
  persists : before.Persists after
  votes : ∀ vote ∈ Outbound.votes out, vote.author = before.name ∧ after.Counts vote
  headers : ∀ header ∈ Outbound.headers out, header.author = before.name

theorem Sends.refl (proposer : Proposer) : Sends proposer proposer [] :=
  ⟨rfl, rfl, .refl _, by simp, by simp⟩

theorem Sends.trans {first second third : Proposer} {out more : List Outbound}
    (early : Sends first second out) (late : Sends second third more) :
    Sends first third (out ++ more) := by
  refine ⟨late.name.trans early.name, late.byzantine.trans early.byzantine,
    early.persists.trans late.persists, fun vote sent => ?_, fun header sent => ?_⟩
  · rcases List.mem_append.mp (Outbound.votes_append out more ▸ sent) with sent | sent
    · exact ⟨(early.votes vote sent).1, late.persists.counts (early.votes vote sent).2⟩
    · exact ⟨(late.votes vote sent).1.trans early.name, (late.votes vote sent).2⟩
  · rcases List.mem_append.mp (Outbound.headers_append out more ▸ sent) with sent | sent
    · exact early.headers header sent
    · exact (late.headers header sent).trans early.name

theorem Sends.silent {before after : Proposer} (name : after.name = before.name)
    (byzantine : after.byzantine = before.byzantine)
    (same : ∀ round electionId, after.election? round electionId = before.election? round electionId) :
    Sends before after [] :=
  ⟨name, byzantine, .of_elections same, by simp, by simp⟩

theorem transition_counts_own {params : Params} {name : PublicKey}
    {decidedElections : Map Digest Bool} {election : Election} {vote : Vote} {outcome : Outcome}
    (ruled : transition params name decidedElections election vote = some outcome) {own : Vote}
    (emitted : outcome.own = some own) :
    outcome.election.votedOrCommitted own.author own.round = true := by
  rcases transition_cases ruled with shape | shape | shape | ⟨_, _, _, _, shape⟩ |
      ⟨_, _, _, _, shape⟩ <;>
    simp only [shape, Outcome.own, reduceCtorEq, Option.some.injEq] at emitted <;>
    simp only [shape, Outcome.election, ← emitted, Election.votedOrCommitted_insertVote_self]

theorem processVote_sends {params : Params} {proposer next : Proposer} {vote : Vote}
    {out : List Outbound} (processed : proposer.processVote params vote = some (next, out)) :
    Sends proposer next out := by
  rcases processVote_cases processed with ⟨rfl, rfl⟩ | ⟨-, rfl, rfl⟩ |
      ⟨election, outcome, found, undecided, ruled, rfl, rfl⟩
  · exact .refl _
  · exact .silent rfl rfl fun _ _ => rfl
  · have stored : (proposer.afterOutcome vote outcome).election? vote.proposalRound
        vote.electionId = some outcome.election := by
      have set : (proposer.setElection vote.proposalRound vote.electionId
          outcome.election).election? vote.proposalRound vote.electionId = some outcome.election :=
        by simp [election?_setElection]
      unfold afterOutcome
      split <;> exact set
    refine ⟨by unfold afterOutcome; split <;> rfl, by unfold afterOutcome; split <;> rfl,
      processVote_persists processed, fun own sent => ?_, by simp⟩
    cases emitted : outcome.own with
    | none => simp [emitted, sendOwn] at sent
    | some cast =>
        simp only [emitted, sendOwn, Outbound.votes, Option.toList_some, List.map_cons,
          List.map_nil, List.filterMap_cons, List.filterMap_nil, List.mem_singleton] at sent
        subst sent
        obtain ⟨sameElection, sameRound, author, -⟩ := transition_own ruled emitted
        refine ⟨author, outcome.election, ?_, transition_counts_own ruled emitted⟩
        rw [sameElection, sameRound, stored]

theorem counts_setElection (proposer : Proposer) {vote : Vote} {election : Election}
    (voted : election.votedOrCommitted vote.author vote.round = true) :
    (proposer.setElection vote.proposalRound vote.electionId election).Counts vote :=
  ⟨election, by simp [election?_setElection], voted⟩

theorem castHeaderVote_sends (proposer : Proposer) (header : Header) (txHash : TxHash)
    (electionId : ElectionId) :
    Sends proposer (proposer.castHeaderVote header txHash electionId).1
      (proposer.castHeaderVote header txHash electionId).2 := by
  refine ⟨?_, ?_, castHeaderVote_persists proposer header txHash electionId, ?_, ?_⟩ <;>
    rw [castHeaderVote_eq, openElection_eq] <;> split
  · rfl
  · rfl
  · rfl
  · rfl
  · simp
  · intro vote sent
    simp only [Outbound.votes, List.filterMap_cons, List.filterMap_nil,
      List.mem_singleton] at sent
    subst sent
    exact ⟨rfl, counts_setElection _ (Election.votedOrCommitted_insertVote_self _ _)⟩
  · simp
  · simp [Outbound.headers]

theorem processHeader_sends {params : Params} {proposer next : Proposer} {header : Header}
    {out : List Outbound} (processed : proposer.processHeader params header = some (next, out)) :
    Sends proposer next out :=
  processHeader_rec Sends Sends.refl Sends.trans
    (fun _ => .silent rfl rfl (election?_recordHeader _ header)) (castHeaderVote_sends _ _ _ _)
    (fun _ => .silent rfl rfl fun _ _ => rfl) processVote_sends processed

theorem makeHeader_sends (params : Params) (proposer : Proposer) :
    Sends proposer (proposer.makeHeader params).1 (proposer.makeHeader params).2 := by
  unfold makeHeader
  split
  · exact .refl _
  · exact ⟨rfl, rfl, .of_elections fun _ _ => rfl, by simp [Outbound.votes],
      by simp [Outbound.headers]⟩

theorem handle_sends {params : Params} {proposer next : Proposer} {event : Event}
    {out : List Outbound} (handled : proposer.handle params event = some (next, out)) :
    Sends proposer next out := by
  rcases handle_cases handled with ⟨proposals, -, made⟩ | ⟨_, -, processed⟩ | ⟨_, -, processed⟩ |
      ⟨round, electionId, voteRound, rfl, rfl⟩ | ⟨proposals, rfl, rfl⟩
  · have header := makeHeader_sends params { proposer with proposals }
    rw [made] at header
    exact ⟨header.name, header.byzantine, fun round electionId election found =>
      header.persists round electionId election found, header.votes, header.headers⟩
  · exact processHeader_sends processed
  · exact processVote_sends processed
  · have identity : (proposer.expireTally round electionId voteRound).name = proposer.name ∧
        (proposer.expireTally round electionId voteRound).byzantine = proposer.byzantine := by
      rcases expireTally_cases proposer round electionId voteRound with
        ⟨_, -, expired⟩ | expired <;> simp [expired]
    exact ⟨identity.1, identity.2, handle_persists handled, by simp, by simp⟩
  · exact .silent rfl rfl fun _ _ => rfl

theorem handle_silent {params : Params} {proposer next : Proposer} {event : Event}
    {out : List Outbound} (handled : proposer.handle params event = some (next, out))
    (byzantine : proposer.byzantine = true) : out = [] := by
  rcases handle_cases handled with ⟨proposals, -, made⟩ | ⟨_, -, processed⟩ | ⟨_, -, processed⟩ |
      ⟨_, _, _, -, rfl⟩ | ⟨_, -, rfl⟩
  · simp only [makeHeader, byzantine, if_true, Prod.mk.injEq] at made
    exact made.2.symm
  · rcases processHeader_cases processed with ⟨-, rfl⟩ | ⟨honest, -⟩
    · rfl
    · simp [byzantine] at honest
  · simp only [processVote, routeVote, byzantine, if_true, Option.some.injEq,
      Prod.mk.injEq] at processed
    exact processed.2.symm
  · rfl
  · rfl

end Proposer
end Primary
end DelegatedRingCT
