import DelegatedRingCT.Primary.Accountability
import DelegatedRingCT.Primary.Proposer.Stores

/-!
# Decisions are stable

Once an election is decided, `process_vote` leaves it alone, and only the proposal loop of
`process_header` still inserts votes into it, at vote-round `0` and without the commit bit.  No
replica of the committee ever casts a commit vote at vote-round `0`: the commit step and the
vote change vote at `r + 1`, the proposal loop casts plain votes, and the initial vote copies the
commit bit of an incoming vote of its own vote-round, which by induction over the run is not a
commit at vote-round `0`.  So in every reachable state no tally of vote-round `0` holds a commit,
and once a replica has decided an election, every vote-round of it keeps its quorum of commits,
if it has one, in every later state.

This is as far as the code goes towards the spec's "once decided, no further state mutation
affects the decision": `find_quorum_of_commits` returns the first quorum in the map's order, and
latching a timer moves a tally to the front of that order.
-/

namespace DelegatedRingCT
namespace Primary

/-- A commit vote is cast at a vote-round after `0`. -/
def Vote.LateCommit (vote : Vote) : Prop := vote.commit = true → vote.round ≠ 0

theorem Vote.lateCommit_of_plain {vote : Vote} (plain : vote.commit = false) : vote.LateCommit :=
  fun commit => absurd (plain.symm.trans commit) Bool.false_ne_true

namespace Tally

/-- A tally none of whose entries is a commit. -/
def Plain (tally : Tally) : Prop :=
  ∀ author entry, tally.votes.lookup author = some entry → entry.2 = false

theorem Plain.findQuorum {tally : Tally} (plain : tally.Plain) {quorum : Nat}
    (positive : 0 < quorum) : tally.findQuorum quorum true = none := by
  refine List.find?_eq_none.mpr fun txHash _ reached => ?_
  have none : tally.count txHash true = 0 :=
    List.length_eq_zero.mpr (List.filter_eq_nil_iff.mpr fun entry member same => by
      have found := plain _ _ (AList.mem_lookup_iff.mpr member)
      rw [of_decide_eq_true same] at found
      cases found)
  simp only [decide_eq_true_eq] at reached
  omega

theorem findQuorum_of_votes {tally other : Tally} (same : tally.votes = other.votes)
    (quorum : Nat) (commit : Bool) :
    tally.findQuorum quorum commit = other.findQuorum quorum commit := by
  unfold findQuorum count
  rw [same]

end Tally

namespace Election

/-- The tally of vote-round `0` holds no commit. -/
def PlainStart (election : Election) : Prop :=
  ∀ tally, election.tallies.lookup 0 = some tally → tally.Plain

theorem plainStart_new : new.PlainStart := fun _ found => by simp [new] at found

theorem PlainStart.insertVote {election : Election} (plain : election.PlainStart) {vote : Vote}
    (late : vote.LateCommit) : (election.insertVote vote).PlainStart := by
  suffices ∀ round, round = 0 → ∀ tally,
      (election.insertVote vote).tallies.lookup round = some tally → tally.Plain from this 0 rfl
  intro round zero tally found author entry entryFound
  by_cases sameRound : round = vote.round
  · subst sameRound
    simp only [Election.insertVote, AList.lookup_insert, Option.some.injEq] at found
    subst found
    by_cases sameAuthor : author = vote.author
    · subst sameAuthor
      simp only [AList.lookup_insert, Option.some.injEq] at entryFound
      subst entryFound
      cases commit : vote.commit
      · rfl
      · exact absurd zero (late commit)
    · rw [AList.lookup_insert_ne sameAuthor] at entryFound
      cases previous : election.tallies.lookup vote.round with
      | none => simp [previous, Tally.new] at entryFound
      | some old =>
          exact plain old (zero ▸ previous) author entry (by simpa [previous] using entryFound)
  · rw [Election.insertVote, AList.lookup_insert_ne sameRound] at found
    exact plain tally (zero ▸ found) author entry entryFound

theorem PlainStart.expire {election : Election} (plain : election.PlainStart) (round : Round) :
    (election.expire round).PlainStart := by
  intro tally found author entry entryFound
  have votes := expire_votes election round 0
  rw [found, Option.map_some'] at votes
  obtain ⟨old, previous, same⟩ := Option.map_eq_some'.mp votes.symm
  exact plain old previous author entry (same ▸ entryFound)

/-- A decided election holds a quorum of commit votes for some hash at some vote-round. -/
def Backed (quorum : Nat) (election : Election) : Prop :=
  election.decided = true → ∃ voteRound tally txHash,
    election.tallies.lookup voteRound = some tally ∧ tally.findQuorum quorum true = some txHash

theorem PlainStart.round_ne_zero {election : Election} (plain : election.PlainStart)
    {quorum : Nat} (positive : 0 < quorum) {voteRound : Round} {tally : Tally} {txHash : TxHash}
    (found : election.tallies.lookup voteRound = some tally)
    (reached : tally.findQuorum quorum true = some txHash) : voteRound ≠ 0 := by
  rintro rfl
  rw [(plain tally found).findQuorum positive] at reached
  cases reached

theorem Backed.insertVote {election : Election} {quorum : Nat} (backed : election.Backed quorum)
    (plain : election.PlainStart) (positive : 0 < quorum) {vote : Vote} (zero : vote.round = 0) :
    (election.insertVote vote).Backed quorum := fun decided => by
  obtain ⟨voteRound, tally, txHash, found, reached⟩ := backed decided
  have later := plain.round_ne_zero positive found reached
  refine ⟨voteRound, tally, txHash, ?_, reached⟩
  rw [Election.insertVote, AList.lookup_insert_ne (zero ▸ later)]
  exact found

theorem Backed.expire {election : Election} {quorum : Nat} (backed : election.Backed quorum)
    (round : Round) : (election.expire round).Backed quorum := fun decided => by
  obtain ⟨voteRound, tally, txHash, found, reached⟩ :=
    backed ((expire_decided election round).symm.trans decided)
  have votes := expire_votes election round voteRound
  rw [found, Option.map_some'] at votes
  obtain ⟨latched, latchedFound, same⟩ := Option.map_eq_some'.mp votes
  exact ⟨voteRound, latched, txHash, latchedFound,
    (Tally.findQuorum_of_votes same _ _).trans reached⟩

theorem backed_of_findQuorumOfCommits {election : Election} {quorum : Nat} {txHash : TxHash}
    (found : election.findQuorumOfCommits quorum = some txHash) :
    ∃ voteRound tally txHash,
      election.tallies.lookup voteRound = some tally ∧ tally.findQuorum quorum true = some txHash :=
  let ⟨entry, member, reached⟩ := List.exists_of_findSome?_eq_some found
  ⟨entry.1, entry.2, txHash, AList.mem_lookup_iff.mpr member, reached⟩

end Election

theorem transition_own_round {params : Params} {name : PublicKey}
    {decidedElections : Map Digest Bool} {election : Election} {vote : Vote} {outcome : Outcome}
    (ruled : transition params name decidedElections election vote = some outcome) {own : Vote}
    (emitted : outcome.own = some own) :
    own.round = vote.round + 1 ∨ own.round = vote.round ∧ own.commit = vote.commit := by
  dsimp only [transition] at ruled
  split at ruled
  · cases ruled
    cases emitted
  split at ruled
  · split at ruled <;> cases ruled <;> cases emitted
  split at ruled
  · split at ruled <;> cases ruled <;> cases emitted
    exact .inl rfl
  split at ruled
  · split at ruled
    · cases ruled
    · cases ruled
      cases emitted
      exact .inl rfl
  split at ruled <;> cases ruled <;> cases emitted
  exact .inr ⟨rfl, rfl⟩

theorem transition_plain {params : Params} {name : PublicKey}
    {decidedElections : Map Digest Bool} {election : Election} {vote : Vote} {outcome : Outcome}
    (ruled : transition params name decidedElections election vote = some outcome)
    (plain : election.PlainStart) (late : vote.LateCommit) :
    outcome.election.PlainStart ∧ ∀ own, outcome.own = some own → own.LateCommit := by
  have ownLate (own : Vote) (emitted : outcome.own = some own) : own.LateCommit := by
    intro commit
    rcases transition_own_round ruled emitted with next | ⟨same, bit⟩
    · rw [next]
      exact Nat.succ_ne_zero _
    · exact same ▸ late (bit ▸ commit)
  refine ⟨?_, ownLate⟩
  have counted := plain.insertVote late
  rcases transition_cases ruled with rfl | rfl | rfl | ⟨_, _, _, _, rfl⟩ | ⟨_, _, _, _, rfl⟩
  · exact counted
  · exact counted
  · exact counted
  · exact Election.PlainStart.insertVote counted (ownLate _ rfl)
  · exact counted.insertVote (ownLate _ rfl)

theorem transition_decides {params : Params} {name : PublicKey}
    {decidedElections : Map Digest Bool} {election : Election} {vote : Vote} {outcome : Outcome}
    (ruled : transition params name decidedElections election vote = some outcome)
    (undecided : election.decided = false) (decided : outcome.election.decided = true) :
    outcome = .decide { election.insertVote vote with decided := true } ∧
      ∃ txHash, (election.insertVote vote).findQuorumOfCommits params.quorum = some txHash := by
  have advanced : outcome.advances = true := by
    simpa [transition_decided ruled, undecided] using decided
  dsimp only [transition] at ruled
  split at ruled
  · cases ruled
    cases advanced
  split at ruled
  · next txHash found =>
      split at ruled
      · cases ruled
      · cases ruled
        exact ⟨rfl, txHash, found⟩
      · cases ruled
        cases advanced
  · repeat' split at ruled
    all_goals (cases ruled <;> cases advanced)

namespace Proposer

/-- No election the replica holds has a commit at vote-round `0`, and every buffered commit vote
is cast at a later vote-round. -/
def Plain (proposer : Proposer) : Prop :=
  proposer.Stores (fun _ _ _ election => election.PlainStart) fun _ vote => vote.LateCommit

theorem plain_preserved (params : Params) :
    Preserved params (fun _ _ _ election => election.PlainStart) (fun _ vote => vote.LateCommit)
      (fun _ _ => True) fun _ vote => vote.LateCommit :=
  ⟨fun _ _ _ => Election.plainStart_new,
    fun plain late _ ruled => transition_plain ruled plain late,
    fun _ _ plain => plain.insertVote (Vote.lateCommit_of_plain rfl),
    fun _ _ _ plain =>
      ⟨plain.insertVote (Vote.lateCommit_of_plain rfl), Vote.lateCommit_of_plain rfl⟩,
    fun voteRound plain => plain.expire voteRound⟩

/-- A plain replica whose decided elections all hold a quorum of commits. -/
def Backed (quorum : Nat) (proposer : Proposer) : Prop :=
  proposer.Stores (fun _ _ _ election => election.PlainStart ∧ election.Backed quorum)
    fun _ vote => vote.LateCommit

/-- One step keeps every decided election backed by a quorum of commits. -/
theorem backed_preserved (params : Params) (positive : 0 < params.quorum) :
    Preserved params (fun _ _ _ election => election.PlainStart ∧ election.Backed params.quorum)
      (fun _ vote => vote.LateCommit) (fun _ _ => True) fun _ vote => vote.LateCommit := by
  have plain := plain_preserved params
  refine ⟨fun _ _ _ => ⟨Election.plainStart_new, fun decided => by cases decided⟩,
    fun ⟨start, _⟩ late undecided ruled => ?_,
    fun _ _ ⟨start, backed⟩ => ⟨start.insertVote (Vote.lateCommit_of_plain rfl),
      backed.insertVote start positive rfl⟩,
    fun _ listed other ⟨start, backed⟩ => ?_,
    fun voteRound ⟨start, backed⟩ => ⟨start.expire voteRound, backed.expire voteRound⟩⟩
  · obtain ⟨start', own⟩ := plain.transition start late undecided ruled
    refine ⟨⟨start', fun decided => ?_⟩, own⟩
    obtain ⟨rfl, _, found⟩ := transition_decides ruled undecided decided
    exact Election.backed_of_findQuorumOfCommits found
  · obtain ⟨start', own⟩ := plain.own trivial listed other start
    exact ⟨⟨start', backed.insertVote start positive rfl⟩, own⟩

end Proposer

namespace Election

theorem Settled.findQuorum {before after : Election} (settled : Settled before after)
    (plainBefore : before.PlainStart) (plainAfter : after.PlainStart) {quorum : Nat}
    (positive : 0 < quorum) (voteRound : Round) :
    (after.tallies.lookup voteRound).bind (·.findQuorum quorum true) =
      (before.tallies.lookup voteRound).bind (·.findQuorum quorum true) := by
  by_cases zero : voteRound = 0
  · have none {election : Election} (plain : election.PlainStart) :
        (election.tallies.lookup voteRound).bind (·.findQuorum quorum true) = none := by
      cases found : election.tallies.lookup voteRound with
      | none => rfl
      | some tally => exact (plain tally (zero ▸ found)).findQuorum positive
    rw [none plainAfter, none plainBefore]
  · have votes := settled.votes voteRound zero
    cases found : after.tallies.lookup voteRound <;>
      cases found' : before.tallies.lookup voteRound <;>
      simp only [found, found', Option.map_none', Option.map_some', reduceCtorEq,
        Option.some.injEq, Option.none_bind, Option.some_bind] at votes ⊢
    exact Tally.findQuorum_of_votes votes _ _

end Election

open Proposer

namespace Network

/-- Every replica is plain, and every vote in flight commits only after vote-round `0`. -/
structure Plain (net : Network) : Prop where
  replicas : ∀ proposer ∈ net.replicas, proposer.Plain
  votes : ∀ replica vote, (replica, .vote vote) ∈ net.inFlight → vote.LateCommit

theorem plain_init (count headerSize : Nat) (byzantine : PublicKey → Bool) :
    (init count headerSize byzantine).Plain :=
  ⟨fun _ member => (by
      obtain ⟨replica, -, rfl⟩ := List.mem_map.mp member
      exact stores_new _ _ _),
    fun _ _ member => (List.not_mem_nil _ member).elim⟩

theorem Plain.event {net : Network} (plain : net.Plain) {action : Action}
    {inFlight : List (PublicKey × PrimaryMessage)} (consumed : net.consume action = some inFlight)
    (name : PublicKey) :
    EventHolds (fun _ _ => True) (fun _ vote => vote.LateCommit) name action.event := by
  cases action with
  | deliver replica message =>
      cases message with
      | vote vote => exact plain.votes _ _ (consume_deliver consumed)
      | _ => trivial
  | _ => trivial

theorem Plain.act {params : Params} {net next : Network} {action : Action} (plain : net.Plain)
    (acted : net.act params action = some next) : next.Plain := by
  obtain ⟨inFlight, proposer, step, out, consumed, found, handled, rfl⟩ := act_eq_some acted
  obtain ⟨stepPlain, -, votesLate⟩ := Stores.handle (plain_preserved _)
    (plain.replicas proposer (List.getElem?_mem found)) (plain.event consumed _) handled
  refine ⟨fun other member => ?_, fun replica vote member => ?_⟩
  · rcases List.mem_or_eq_of_mem_set member with old | rfl
    · exact plain.replicas other old
    · exact stepPlain
  · rcases List.mem_append.mp member with old | sent
    · exact plain.votes _ _ (mem_consume consumed old)
    · obtain ⟨outbound, member, message⟩ := mem_send sent
      exact votesLate vote (List.mem_filterMap.mpr ⟨outbound, member, by rw [message]⟩)

theorem Plain.reachable {params : Params} {count headerSize : Nat} {byzantine : PublicKey → Bool}
    {net : Network} (reachable : Reachable params count headerSize byzantine net) : net.Plain := by
  induction reachable with
  | refl => exact plain_init count headerSize byzantine
  | tail _ step plain =>
      obtain ⟨action, acted⟩ := step
      exact plain.act acted

theorem Step.persists {params : Params} {net next : Network} (step : Step params net next)
    {replica : PublicKey} {proposer : Proposer} (found : net.replicas[replica]? = some proposer) :
    ∃ later, next.replicas[replica]? = some later ∧ proposer.Persists later := by
  obtain ⟨action, acted⟩ := step
  obtain ⟨inFlight, actor, state, out, -, located, handled, rfl⟩ := act_eq_some acted
  rw [getElem?_set_found located state replica]
  split
  · next same =>
      subst same
      rw [located, Option.some.injEq] at found
      subst found
      exact ⟨state, rfl, handle_persists handled⟩
  · exact ⟨proposer, found, .refl _⟩

theorem persists_of_steps {params : Params} {net later : Network}
    (steps : Relation.ReflTransGen (Step params) net later) {replica : PublicKey}
    {proposer : Proposer} (found : net.replicas[replica]? = some proposer) :
    ∃ current, later.replicas[replica]? = some current ∧ proposer.Persists current := by
  induction steps with
  | refl => exact ⟨proposer, found, .refl _⟩
  | tail _ step induction =>
      obtain ⟨middle, located, persists⟩ := induction
      obtain ⟨last, kept, more⟩ := step.persists located
      exact ⟨last, kept, persists.trans more⟩

/-- A decided election stays decided, with the same `commit`, `proof_round` and quorums of
commits, in every later state. -/
theorem network_decisions_stable (params : Params) (count headerSize : Nat)
    (byzantine : PublicKey → Bool) (net later : Network)
    (reachable : Reachable params count headerSize byzantine net)
    (steps : Relation.ReflTransGen (Step params) net later) (positive : 0 < params.quorum)
    (replica : PublicKey) (proposer : Proposer) (round : Round) (electionId : ElectionId)
    (election : Election) (found : net.replicas[replica]? = some proposer)
    (held : proposer.election? round electionId = some election)
    (decided : election.decided = true) :
    ∃ current kept, later.replicas[replica]? = some current ∧
      current.election? round electionId = some kept ∧ kept.decided = true ∧
      kept.commit = election.commit ∧ kept.proofRound = election.proofRound ∧
      ∀ voteRound, (kept.tallies.lookup voteRound).bind (·.findQuorum params.quorum true) =
        (election.tallies.lookup voteRound).bind (·.findQuorum params.quorum true) := by
  obtain ⟨current, located, persists⟩ := persists_of_steps steps found
  obtain ⟨kept, keptFound, evolves⟩ := persists round electionId election held
  have settled := evolves.settled decided
  have plainBefore := (Plain.reachable reachable).replicas proposer (List.getElem?_mem found)
  have plainAfter :=
    (Plain.reachable (reachable.trans steps)).replicas current (List.getElem?_mem located)
  exact ⟨current, kept, located, keptFound, settled.decided.trans decided, settled.commit,
    settled.proofRound, settled.findQuorum (plainBefore.elections _ _ _ held)
      (plainAfter.elections _ _ _ keptFound) positive⟩

/-- Replica `1` decides election `5`, and the echo of its own vote leaves the decision as it was. -/
theorem network_decisions_stable_echo :
    let params : Params :=
      { quorum := 1, numberOfNodes := 2, logsInfo := false, headerDigest := fun _ _ _ => 7 }
    let header : Header := { round := 0, author := 0, votes := [(7, 5)], id := 7 }
    let vote (round : Round) (commit : Bool) (author : PublicKey) : Vote :=
      { round, txHash := 7, electionId := 5, proposalRound := 0, commit, author, headerId := 7 }
    let net := ((init 2 1 fun _ => false).runActions params
      [.worker 0 7 5, .deliver 0 (.header header), .deliver 1 (.header header),
        .deliver 0 (.vote (vote 0 false 1)), .deliver 1 (.vote (vote 1 true 0))]).get (by decide)
    let later := (net.act params (.deliver 1 (.vote (vote 0 false 1)))).get (by decide)
    ∃ proposer election, net.replicas[1]? = some proposer ∧
      proposer.election? 0 5 = some election ∧ election.decided = true ∧
      ∃ current kept, later.replicas[1]? = some current ∧ current.election? 0 5 = some kept ∧
        kept.decided = true ∧ kept.commit = election.commit ∧
        kept.proofRound = election.proofRound ∧
        ∀ voteRound, (kept.tallies.lookup voteRound).bind (·.findQuorum params.quorum true) =
          (election.tallies.lookup voteRound).bind (·.findQuorum params.quorum true) := by
  dsimp only
  refine ⟨_, _, rfl, rfl, rfl, network_decisions_stable _ 2 1 _ _ _
    (Reachable.runActions .refl (Option.some_get _).symm) (.single ⟨_, (Option.some_get _).symm⟩)
    (by decide) 1 _ 0 5 _ rfl rfl rfl⟩

/-- Every replica is plain and backs its decisions. -/
def Backed (quorum : Nat) (net : Network) : Prop :=
  ∀ proposer ∈ net.replicas, proposer.Backed quorum

theorem Backed.reachable {params : Params} {count headerSize : Nat}
    {byzantine : PublicKey → Bool} {net : Network} (positive : 0 < params.quorum)
    (reachable : Reachable params count headerSize byzantine net) : net.Backed params.quorum := by
  induction reachable with
  | refl =>
      intro proposer member
      obtain ⟨replica, -, rfl⟩ := List.mem_map.mp member
      exact stores_new _ _ _
  | tail reached step backed =>
      obtain ⟨action, acted⟩ := step
      obtain ⟨inFlight, proposer, stepped, out, consumed, found, handled, rfl⟩ := act_eq_some acted
      intro other member
      rcases List.mem_or_eq_of_mem_set member with old | rfl
      · exact backed other old
      · exact (Stores.handle (backed_preserved params positive)
          (backed proposer (List.getElem?_mem found))
          ((Plain.reachable reached).event consumed _) handled).1

/-- Every decided election has a vote-round after `0` holding a quorum of commits. -/
theorem network_decisions_backed (params : Params) (count headerSize : Nat)
    (byzantine : PublicKey → Bool) (net : Network)
    (reachable : Reachable params count headerSize byzantine net) (positive : 0 < params.quorum) :
    ∀ proposer ∈ net.replicas, ∀ round electionId election,
      proposer.election? round electionId = some election → election.decided = true →
        (∃ voteRound tally txHash, voteRound ≠ 0 ∧ election.tallies.lookup voteRound = some tally ∧
          tally.findQuorum params.quorum true = some txHash) ∧
        (decision params proposer round electionId).isSome := by
  intro proposer member round electionId election held decided
  obtain ⟨start, backed⟩ :=
    (Backed.reachable positive reachable proposer member).elections _ _ _ held
  obtain ⟨voteRound, tally, txHash, found, reached⟩ := backed decided
  refine ⟨⟨voteRound, tally, txHash, start.round_ne_zero positive found reached, found, reached⟩,
    ?_⟩
  simp only [decision, held, Option.some_bind, decided, if_true, Option.isSome_iff_ne_none]
  intro none
  have missed :=
    List.findSome?_eq_none_iff.mp none ⟨voteRound, tally⟩ (AList.mem_lookup_iff.mp found)
  rw [missed] at reached
  cases reached

/-- The two correct replicas of the stability run, after replica `1` decided election `5`. -/
theorem network_decisions_backed_echo :
    let params : Params :=
      { quorum := 1, numberOfNodes := 2, logsInfo := false, headerDigest := fun _ _ _ => 7 }
    let header : Header := { round := 0, author := 0, votes := [(7, 5)], id := 7 }
    let vote (round : Round) (commit : Bool) (author : PublicKey) : Vote :=
      { round, txHash := 7, electionId := 5, proposalRound := 0, commit, author, headerId := 7 }
    let net := ((init 2 1 fun _ => false).runActions params
      [.worker 0 7 5, .deliver 0 (.header header), .deliver 1 (.header header),
        .deliver 0 (.vote (vote 0 false 1)), .deliver 1 (.vote (vote 1 true 0))]).get (by decide)
    0 < params.quorum ∧ ∀ proposer ∈ net.replicas, ∀ round electionId election,
      proposer.election? round electionId = some election → election.decided = true →
        (∃ voteRound tally txHash, voteRound ≠ 0 ∧ election.tallies.lookup voteRound = some tally ∧
          tally.findQuorum params.quorum true = some txHash) ∧
        (decision params proposer round electionId).isSome := by
  intro params header vote net
  exact ⟨by decide, network_decisions_backed params 2 1 (fun _ => false) net
    (Reachable.runActions .refl (Option.some_get _).symm) (by decide)⟩

end Network
end Primary
end DelegatedRingCT
