import DelegatedRingCT.Primary.Proposer.Persistence
import DelegatedRingCT.Primary.Proposer.Validity

/-!
# One own vote per election instance and vote-round

Each voting branch of `process_vote` casts the replica's own vote at a vote-round only when
`voted_or_committed` finds no entry of the replica there, and inserts the vote at once; no
handler removes an entry.  So after vote-round `0` a replica casts at most one vote per election
instance and vote-round over a whole run, from any state, and never one it had already counted.
Vote-round `0` is different: the proposal loop of `process_header` casts there without the check,
once for every header that proposes the election.  It is also the only place that casts there:
on every run from `Proposer::spawn` the replica has an entry of its own at vote-round `0` of every
election it holds, so the initial-vote branch of `process_vote` never fires at vote-round `0`.
-/

namespace DelegatedRingCT
namespace Primary

/-- The election instance and vote-round a vote is cast in. -/
def Vote.slot (vote : Vote) : Round × ElectionId × Round :=
  (vote.proposalRound, vote.electionId, vote.round)

theorem transition_own_fresh {params : Params} {name : PublicKey}
    {decidedElections : Map Digest Bool} {election : Election} {vote : Vote} {outcome : Outcome}
    (ruled : transition params name decidedElections election vote = some outcome) {own : Vote}
    (emitted : outcome.own = some own) :
    (election.insertVote vote).votedOrCommitted name own.round = false := by
  dsimp only [transition] at ruled
  split at ruled
  · obtain rfl := Option.some.inj ruled; cases emitted
  split at ruled
  · split at ruled
    · cases ruled
    all_goals obtain rfl := Option.some.inj ruled; cases emitted
  split at ruled
  · split at ruled
    · obtain rfl := Option.some.inj ruled; cases emitted
    · next unvoted =>
        obtain rfl := Option.some.inj ruled
        cases emitted
        simpa [Vote.reply] using unvoted
  split at ruled
  · next guard =>
      split at ruled
      · cases ruled
      · obtain rfl := Option.some.inj ruled
        cases emitted
        simpa [Vote.reply] using guard.2.2
  split at ruled
  · next unvoted =>
      obtain rfl := Option.some.inj ruled
      cases emitted
      simpa [Vote.reply] using unvoted
  · obtain rfl := Option.some.inj ruled; cases emitted

namespace Proposer

theorem Counts.slot {proposer : Proposer} {vote other : Vote} (counts : proposer.Counts vote)
    (author : other.author = vote.author) (slot : other.slot = vote.slot) :
    proposer.Counts other := by
  obtain ⟨election, found, voted⟩ := counts
  simp only [Vote.slot, Prod.mk.injEq] at slot
  obtain ⟨proposalRound, electionId, round⟩ := slot
  exact ⟨election, by rw [proposalRound, electionId]; exact found,
    by rw [author, round]; exact voted⟩

/-- What a step sends is the replica's own, and after vote-round `0` it casts each vote at a
slot it had no entry in, and at most one vote per slot. -/
structure Casts (before after : Proposer) (out : List Outbound) : Prop where
  sends : Sends before after out
  fresh : ∀ vote ∈ Outbound.votes out, vote.round ≠ 0 → ¬ before.Counts vote
  once : (((Outbound.votes out).filter fun vote => vote.round ≠ 0).map Vote.slot).Nodup

theorem Casts.initial {before after : Proposer} {out : List Outbound}
    (sends : Sends before after out)
    (initial : ∀ vote ∈ Outbound.votes out, vote.round = 0) : Casts before after out := by
  have none : (Outbound.votes out).filter (fun vote => vote.round ≠ 0) = [] :=
    List.filter_eq_nil_iff.mpr fun vote member => by simp [initial vote member]
  exact ⟨sends, fun vote member nonzero => absurd (initial vote member) nonzero,
    by rw [none]; exact List.nodup_nil⟩

theorem Casts.refl (proposer : Proposer) : Casts proposer proposer [] :=
  .initial (.refl proposer) fun _ member => by simp at member

theorem Casts.trans {first second third : Proposer} {out more : List Outbound}
    (early : Casts first second out) (late : Casts second third more) :
    Casts first third (out ++ more) := by
  refine ⟨early.sends.trans late.sends, fun vote member nonzero => ?_, ?_⟩
  · rcases List.mem_append.mp (Outbound.votes_append out more ▸ member) with member | member
    · exact early.fresh vote member nonzero
    · exact fun counted => late.fresh vote member nonzero
        (early.sends.persists.counts counted)
  · rw [Outbound.votes_append, List.filter_append, List.map_append]
    refine early.once.append late.once fun slot cast recast => ?_
    obtain ⟨vote, member, rfl⟩ := List.mem_map.mp cast
    obtain ⟨other, member', same⟩ := List.mem_map.mp recast
    obtain ⟨member, -⟩ := List.mem_filter.mp member
    obtain ⟨member', nonzero⟩ := List.mem_filter.mp member'
    have author : other.author = vote.author :=
      ((late.sends.votes other member').1.trans early.sends.name).trans
        (early.sends.votes vote member).1.symm
    exact late.fresh other member' (by simpa using nonzero)
      ((early.sends.votes vote member).2.slot author same)

theorem processVote_casts {params : Params} {proposer next : Proposer} {vote : Vote}
    {out : List Outbound} (processed : proposer.processVote params vote = some (next, out)) :
    Casts proposer next out := by
  have sends := processVote_sends processed
  rcases processVote_cases processed with ⟨-, rfl⟩ | ⟨-, -, rfl⟩ |
      ⟨election, outcome, found, -, ruled, -, rfl⟩
  · exact .initial sends fun _ member => by simp at member
  · exact .initial sends fun _ member => by simp at member
  · refine ⟨sends, fun own member _ counted => ?_, ?_⟩
    · rw [votes_sendOwn, Option.mem_toList] at member
      obtain ⟨sameElection, sameRound, author, -⟩ := transition_own ruled member
      obtain ⟨stored, located, voted⟩ := counted
      rw [sameElection, sameRound, found] at located
      obtain rfl := Option.some.inj located
      have fresh := transition_own_fresh ruled member
      rw [author] at voted
      rw [Election.votedOrCommitted_insertVote voted] at fresh
      cases fresh
    · rw [votes_sendOwn]
      refine List.Nodup.sublist ((List.filter_sublist _).map _) ?_
      cases outcome.own <;> simp

theorem castHeaderVote_casts (proposer : Proposer) (header : Header) (txHash : TxHash)
    (electionId : ElectionId) :
    Casts proposer (proposer.castHeaderVote header txHash electionId).1
      (proposer.castHeaderVote header txHash electionId).2 := by
  refine .initial (castHeaderVote_sends _ _ _ _) fun vote member => ?_
  rw [castHeaderVote_eq] at member
  split at member
  · cases member
  · simp only [Outbound.votes, List.filterMap_cons, List.filterMap_nil,
      List.mem_singleton] at member
    subst member
    rfl

theorem processHeader_casts {params : Params} {proposer next : Proposer} {header : Header}
    {out : List Outbound} (processed : proposer.processHeader params header = some (next, out)) :
    Casts proposer next out :=
  processHeader_rec Casts Casts.refl Casts.trans
    (fun _ => .initial (.silent rfl rfl (election?_recordHeader _ header)) fun _ member => by
      simp at member)
    (castHeaderVote_casts _ _ _ _)
    (fun _ => .initial (.silent rfl rfl fun _ _ => rfl) fun _ member => by simp at member)
    processVote_casts processed

theorem handle_casts {params : Params} {proposer next : Proposer} {event : Event}
    {out : List Outbound} (handled : proposer.handle params event = some (next, out)) :
    Casts proposer next out := by
  rcases handle_cases handled with ⟨proposals, -, made⟩ | ⟨_, -, processed⟩ | ⟨_, -, processed⟩ |
      ⟨_, _, _, -, rfl⟩ | ⟨_, -, rfl⟩
  · refine .initial (handle_sends handled) fun vote member => ?_
    have silent := makeHeader_votes params { proposer with proposals }
    rw [made] at silent
    rw [silent] at member
    cases member
  · exact processHeader_casts processed
  · exact processVote_casts processed
  · exact .initial (handle_sends handled) fun _ member => by simp at member
  · exact .initial (handle_sends handled) fun _ member => by simp at member

theorem run_casts {params : Params} {proposer final : Proposer} {events : List Event}
    {out : List Outbound} (ran : proposer.run params events = some (final, out)) :
    Casts proposer final out :=
  run_rec Casts Casts.refl Casts.trans handle_casts ran

/-- After vote-round `0` a replica casts at most one vote per instance and vote-round, each where
it had no entry when the run began. -/
theorem proposer_votes_once (params : Params) (proposer : Proposer) (events : List Event)
    (final : Proposer) (out : List Outbound)
    (ran : proposer.run params events = some (final, out)) :
    (((Outbound.votes out).filter fun vote => vote.round ≠ 0).map Vote.slot).Nodup ∧
      ∀ vote ∈ Outbound.votes out, vote.round ≠ 0 → ¬ proposer.Counts vote :=
  let casts := run_casts ran
  ⟨casts.once, casts.fresh⟩

/-- A vote at vote-round `0` on a header, then a commit at vote-round `1`. -/
theorem proposer_votes_once_commit :
    let params : Params :=
      { quorum := 1, numberOfNodes := 4, logsInfo := false, headerDigest := fun _ _ _ => 7 }
    let vote : Vote :=
      { round := 0, txHash := 7, electionId := 5, proposalRound := 0, commit := false,
        author := 2, headerId := 7 }
    let events : List Event :=
      [.primary (.header { round := 0, author := 1, votes := [(7, 5)], id := 7 }),
        .primary (.vote vote)]
    let result := ((new 0 1 false).run params events).get (by decide)
    (((Outbound.votes result.2).filter fun vote => vote.round ≠ 0).map Vote.slot).Nodup ∧
      ∀ vote ∈ Outbound.votes result.2, vote.round ≠ 0 → ¬ (new 0 1 false).Counts vote := by
  intro params vote events result
  exact proposer_votes_once params (new 0 1 false) events result.1 result.2
    ((Option.some_get _).symm.trans (congrArg some Prod.mk.eta.symm))

/-! ## Vote-round `0` -/

/-- The replica has an entry of its own at vote-round `0` of every election it holds. -/
def InitialEntries (proposer : Proposer) : Prop :=
  ∀ round electionId election, proposer.election? round electionId = some election →
    election.votedOrCommitted proposer.name 0 = true

theorem initialEntries_new (name : PublicKey) (headerSize : Nat) (byzantine : Bool) :
    (new name headerSize byzantine).InitialEntries :=
  fun _ _ _ found => by simp [new, election?, roundElections] at found

theorem InitialEntries.setElection {proposer : Proposer} (entries : proposer.InitialEntries)
    {round : Round} {electionId : ElectionId} {election : Election}
    (voted : election.votedOrCommitted proposer.name 0 = true) :
    (proposer.setElection round electionId election).InitialEntries := by
  intro round' electionId' stored found
  rw [election?_setElection] at found
  split at found
  · exact Option.some.inj found ▸ voted
  · exact entries _ _ _ found

theorem InitialEntries.evolve {proposer : Proposer} (entries : proposer.InitialEntries)
    {round : Round} {electionId : ElectionId} {old election : Election}
    (found : proposer.election? round electionId = some old) (evolves : old.Evolves election) :
    (proposer.setElection round electionId election).InitialEntries :=
  entries.setElection (evolves.voted _ _ (entries _ _ _ found))

theorem InitialEntries.castHeaderVote {proposer : Proposer} (entries : proposer.InitialEntries)
    (header : Header) (txHash : TxHash) (electionId : ElectionId) :
    (proposer.castHeaderVote header txHash electionId).1.InitialEntries := by
  rw [castHeaderVote_eq, openElection_eq]
  split
  · next own =>
      refine InitialEntries.setElection entries ?_
      have voted := Election.votedOrCommitted_insertVote_self
        (((proposer.election? header.round electionId).getD Election.new))
        (implicitVote header txHash electionId)
      simpa [implicitVote, own] using voted
  · exact InitialEntries.setElection entries (Election.votedOrCommitted_insertVote_self _ _)

theorem InitialEntries.processVote {params : Params} {proposer next : Proposer} {vote : Vote}
    {out : List Outbound} (entries : proposer.InitialEntries)
    (processed : proposer.processVote params vote = some (next, out)) : next.InitialEntries := by
  rcases processVote_cases processed with ⟨rfl, -⟩ | ⟨-, rfl, -⟩ |
      ⟨election, outcome, found, undecided, ruled, rfl, -⟩
  · exact entries
  · exact entries
  · have stored := entries.evolve found (transition_evolves ruled undecided)
    unfold afterOutcome
    split
    exacts [stored, stored]

theorem InitialEntries.processHeader {params : Params} {proposer next : Proposer}
    {header : Header} {out : List Outbound} (entries : proposer.InitialEntries)
    (processed : proposer.processHeader params header = some (next, out)) :
    next.InitialEntries :=
  processHeader_rec (fun before after _ => before.InitialEntries → after.InitialEntries)
    (fun _ => id) (fun early late => late ∘ early)
    (fun _ entries round electionId election found =>
      entries round electionId election (by rwa [election?_recordHeader] at found))
    (fun entries => entries.castHeaderVote _ _ _) (fun _ => id)
    (fun processed entries => entries.processVote processed) processed entries

theorem InitialEntries.handle {params : Params} {proposer next : Proposer} {event : Event}
    {out : List Outbound} (entries : proposer.InitialEntries)
    (handled : proposer.handle params event = some (next, out)) : next.InitialEntries := by
  rcases handle_cases handled with ⟨proposals, -, made⟩ | ⟨_, -, processed⟩ | ⟨_, -, processed⟩ |
      ⟨round, electionId, voteRound, rfl, -⟩ | ⟨proposals, rfl, -⟩
  · obtain rfl : (({ proposer with proposals } : Proposer).makeHeader params).1 = next :=
      congrArg Prod.fst made
    intro round electionId election found
    rw [(makeHeader_sends params _).name]
    exact entries round electionId election
      (by simpa only [election?, roundElections, makeHeader_elections] using found)
  · exact entries.processHeader processed
  · exact entries.processVote processed
  · rcases expireTally_cases proposer round electionId voteRound with
      ⟨_, found, expired⟩ | expired <;> rw [expired]
    exacts [entries.evolve found (Election.Evolves.expire _ _), entries]
  · exact entries

theorem InitialEntries.run {params : Params} {proposer final : Proposer} {events : List Event}
    {out : List Outbound} (entries : proposer.InitialEntries)
    (ran : proposer.run params events = some (final, out)) : final.InitialEntries :=
  run_rec (fun before after _ => before.InitialEntries → after.InitialEntries) (fun _ => id)
    (fun early late => late ∘ early) (fun handled entries => entries.handle handled) ran entries

/-- Every held election has the replica's own entry at vote-round `0`, so `process_vote` never
casts a vote at vote-round `0`. -/
theorem proposer_process_vote_past_round_zero (params : Params) (name : PublicKey)
    (headerSize : Nat) (byzantine : Bool) (events : List Event) (final : Proposer)
    (out : List Outbound)
    (ran : (new name headerSize byzantine).run params events = some (final, out)) :
    (∀ round electionId election, final.election? round electionId = some election →
      election.votedOrCommitted name 0 = true) ∧
      ∀ (vote : Vote) (next : Proposer) (sent : List Outbound),
        final.processVote params vote = some (next, sent) →
          ∀ own ∈ Outbound.votes sent, own.round ≠ 0 := by
  have entries := (initialEntries_new name headerSize byzantine).run ran
  have named : final.name = name := (run_rec Sends Sends.refl Sends.trans handle_sends ran).name
  refine ⟨named ▸ entries, fun vote next sent processed own member zero => ?_⟩
  rcases processVote_cases processed with ⟨-, rfl⟩ | ⟨-, -, rfl⟩ |
      ⟨election, outcome, found, -, ruled, -, rfl⟩
  · cases member
  · cases member
  · rw [votes_sendOwn, Option.mem_toList] at member
    have fresh := transition_own_fresh ruled member
    rw [zero, Election.votedOrCommitted_insertVote (entries _ _ _ found)] at fresh
    cases fresh

/-- The commit run holds election `5` with own entries at vote-rounds `0` and `1`. -/
theorem proposer_process_vote_past_round_zero_commit :
    let params : Params :=
      { quorum := 1, numberOfNodes := 4, logsInfo := false, headerDigest := fun _ _ _ => 7 }
    let vote : Vote :=
      { round := 0, txHash := 7, electionId := 5, proposalRound := 0, commit := false,
        author := 2, headerId := 7 }
    let events : List Event :=
      [.primary (.header { round := 0, author := 1, votes := [(7, 5)], id := 7 }),
        .primary (.vote vote)]
    let result := ((new 0 1 false).run params events).get (by decide)
    (∀ round electionId election, result.1.election? round electionId = some election →
      election.votedOrCommitted 0 0 = true) ∧
      ∀ (vote : Vote) (next : Proposer) (sent : List Outbound),
        result.1.processVote params vote = some (next, sent) →
          ∀ own ∈ Outbound.votes sent, own.round ≠ 0 := by
  intro params vote events result
  exact proposer_process_vote_past_round_zero params 0 1 false events result.1 result.2
    ((Option.some_get _).symm.trans (congrArg some Prod.mk.eta.symm))

end Proposer
end Primary
end DelegatedRingCT
