import DelegatedRingCT.Primary.Stability

/-!
# Every counted vote is attributed

A replica fills its tallies in three ways: the implicit vote of a header, in the header author's
name at vote-round `0`; its own votes, in its own name; and the votes it processes, in their
authors' names.  The code checks no signature, so nothing in a replica keeps a vote out of a
tally on its own; what keeps the tallies honest is where votes come from.  In every reachable
state of the committee, every entry a replica holds in the name of another replica is attributed
to that replica: it is a correct replica, and the entry is the implicit vote of a header it
broadcast for that round and election, or it counts the same entry in its own tally.  Headers are
only appended and tallies only grow, so an attribution, once made, stays.

With the backing of decisions this bounds who must take part in one: a replica decides only once
`QUORUM - 1` other correct replicas have each counted an entry of their own at the deciding
vote-round, which is after `0`.
-/

namespace DelegatedRingCT
namespace Primary

namespace Tally

/-- The authors whose entry in the tally is a commit for `txHash`. -/
def committers (tally : Tally) (txHash : TxHash) : List PublicKey :=
  (tally.votes.entries.filter fun entry => entry.2 = (txHash, true)).map Sigma.fst

theorem committers_nodup (tally : Tally) (txHash : TxHash) : (tally.committers txHash).Nodup :=
  ((List.filter_sublist _).map Sigma.fst).nodup tally.votes.nodupKeys

theorem length_committers (tally : Tally) (txHash : TxHash) :
    (tally.committers txHash).length = tally.count txHash true :=
  List.length_map _ _

theorem mem_of_mem_committers {tally : Tally} {txHash : TxHash} {author : PublicKey}
    (member : author ∈ tally.committers txHash) : author ∈ tally.votes :=
  ((List.filter_sublist _).map Sigma.fst).subset member

end Tally

namespace Election

theorem votedOrCommitted_of_mem {election : Election} {voteRound : Round} {tally : Tally}
    (found : election.tallies.lookup voteRound = some tally) {author : PublicKey}
    (member : author ∈ tally.votes) : election.votedOrCommitted author voteRound = true := by
  simp [votedOrCommitted, found, member]

theorem votedOrCommitted_of_insertVote {election : Election} {vote : Vote} {author : PublicKey}
    {voteRound : Round}
    (voted : (election.insertVote vote).votedOrCommitted author voteRound = true) :
    election.votedOrCommitted author voteRound = true ∨
      author = vote.author ∧ voteRound = vote.round := by
  unfold votedOrCommitted at *
  by_cases same : voteRound = vote.round
  · subst same
    simp only [insertVote, AList.lookup_insert, decide_eq_true_eq, AList.mem_insert] at voted
    rcases voted with rfl | old
    · exact .inr ⟨rfl, rfl⟩
    · left
      cases found : election.tallies.lookup vote.round with
      | none => simp [found, Tally.new] at old
      | some tally => simpa [found] using old
  · left
    rwa [insertVote, AList.lookup_insert_ne same] at voted

theorem votedOrCommitted_expire (election : Election) (round : Round) (author : PublicKey)
    (voteRound : Round) :
    (election.expire round).votedOrCommitted author voteRound =
      election.votedOrCommitted author voteRound := by
  have same := expire_votes election round voteRound
  unfold votedOrCommitted
  cases found : (election.expire round).tallies.lookup voteRound <;>
    cases found' : election.tallies.lookup voteRound <;>
    simp_all [AList.mem_keys]

end Election

theorem transition_entries {params : Params} {name : PublicKey}
    {decidedElections : Map Digest Bool} {election : Election} {vote : Vote} {outcome : Outcome}
    (ruled : transition params name decidedElections election vote = some outcome)
    {author : PublicKey} {voteRound : Round}
    (voted : outcome.election.votedOrCommitted author voteRound = true) :
    election.votedOrCommitted author voteRound = true ∨
      (author = vote.author ∧ voteRound = vote.round) ∨ author = name := by
  have counted (voted : (election.insertVote vote).votedOrCommitted author voteRound = true) :
      election.votedOrCommitted author voteRound = true ∨
        (author = vote.author ∧ voteRound = vote.round) ∨ author = name :=
    (Election.votedOrCommitted_of_insertVote voted).imp_right Or.inl
  rcases transition_cases ruled with rfl | rfl | rfl | ⟨_, _, _, _, rfl⟩ | ⟨_, _, _, _, rfl⟩
  · exact counted voted
  · exact counted voted
  · exact counted voted
  all_goals
    rcases Election.votedOrCommitted_of_insertVote voted with old | ⟨rfl, -⟩
    · exact counted old
    · exact .inr (.inr rfl)

namespace Proposer

/-- Every entry of an election at instance `(round, election_id)` in the name of an author other
than the replica is vouched for by `ok`. -/
def EntriesVouched (ok : Round → ElectionId → PublicKey → Round → Prop) (name : PublicKey)
    (round : Round) (electionId : ElectionId) (election : Election) : Prop :=
  ∀ author voteRound, election.votedOrCommitted author voteRound = true → author ≠ name →
    ok round electionId author voteRound

/-- A vote of an author other than the replica is vouched for by `ok`. -/
def VoteVouched (ok : Round → ElectionId → PublicKey → Round → Prop) (name : PublicKey)
    (vote : Vote) : Prop :=
  vote.author ≠ name → ok vote.proposalRound vote.electionId vote.author vote.round

/-- The implicit votes of a header of an author other than the replica are vouched for by
`ok`. -/
def HeaderVouched (ok : Round → ElectionId → PublicKey → Round → Prop) (name : PublicKey)
    (header : Header) : Prop :=
  ∀ txHash electionId, (txHash, electionId) ∈ header.votes → header.author ≠ name →
    ok header.round electionId header.author 0

/-- One step of the committee keeps every attribution. -/
theorem vouched_preserved (params : Params) (ok : Round → ElectionId → PublicKey → Round → Prop) :
    Preserved params (EntriesVouched ok) (VoteVouched ok) (HeaderVouched ok) fun _ _ => True := by
  refine ⟨fun _ _ _ _ _ voted => by simp [Election.votedOrCommitted, Election.new] at voted,
    fun vouched incoming _ ruled => ⟨fun author voteRound voted other => ?_, fun _ _ => trivial⟩,
    fun header listed vouched author voteRound voted other => ?_,
    fun _ _ _ vouched => ⟨fun author voteRound voted other => ?_, trivial⟩,
    fun round vouched author voteRound voted => ?_⟩
  · rcases transition_entries ruled voted with old | ⟨rfl, rfl⟩ | rfl
    · exact vouched author voteRound old other
    · exact incoming other
    · exact absurd rfl other
  · rcases Election.votedOrCommitted_of_insertVote voted with old | ⟨rfl, rfl⟩
    · exact vouched author voteRound old other
    · exact header _ _ listed other
  · rcases Election.votedOrCommitted_of_insertVote voted with old | ⟨rfl, -⟩
    · exact vouched author voteRound old other
    · exact absurd rfl other
  · rw [Election.votedOrCommitted_expire] at voted
    exact vouched author voteRound voted

theorem Stores.vouched_mono {ok ok' : Round → ElectionId → PublicKey → Round → Prop}
    {proposer : Proposer} (stores : proposer.Stores (EntriesVouched ok) (VoteVouched ok))
    (weaker : ∀ round electionId author voteRound, ok round electionId author voteRound →
      ok' round electionId author voteRound) :
    proposer.Stores (EntriesVouched ok') (VoteVouched ok') :=
  ⟨fun round electionId election found author voteRound voted other =>
      weaker _ _ _ _
        (stores.elections round electionId election found author voteRound voted other),
    fun round votes found vote member other =>
      weaker _ _ _ _ (stores.pending round votes found vote member other)⟩

end Proposer

open Proposer

namespace Network

/-- Who may stand behind an entry of a tally of instance `(round, election_id)` in the name of
`author` at `vote_round`: a correct replica, which broadcast a header of that round proposing the
election, the entry being its implicit vote at vote-round `0`, or which counts the entry in its
own tally. -/
def Vouched (byzantine : PublicKey → Bool) (net : Network) (round : Round)
    (electionId : ElectionId) (author : PublicKey) (voteRound : Round) : Prop :=
  byzantine author = false ∧
    ((∃ header ∈ net.headers, header.author = author ∧ header.round = round ∧ voteRound = 0 ∧
        ∃ txHash, (txHash, electionId) ∈ header.votes) ∨
      ∃ voter election, net.replicas[author]? = some voter ∧
        voter.election? round electionId = some election ∧
        election.votedOrCommitted author voteRound = true)

theorem Vouched.act {params : Params} {byzantine : PublicKey → Bool} {net next : Network}
    {action : Action} (acted : net.act params action = some next) {round : Round}
    {electionId : ElectionId} {author : PublicKey} {voteRound : Round}
    (vouched : Vouched byzantine net round electionId author voteRound) :
    Vouched byzantine next round electionId author voteRound := by
  obtain ⟨inFlight, proposer, step, out, -, found, handled, rfl⟩ := act_eq_some acted
  refine ⟨vouched.1, vouched.2.imp (fun ⟨header, member, facts⟩ =>
    ⟨header, List.mem_append_left _ member, facts⟩)
    fun ⟨voter, election, located, held, voted⟩ => ?_⟩
  rw [getElem?_set_found found step]
  split
  · next same =>
      rw [← same, found, Option.some.injEq] at located
      subst located
      obtain ⟨later, kept, evolves⟩ := handle_persists handled _ _ _ held
      exact ⟨step, later, rfl, kept, evolves.voted _ _ voted⟩
  · exact ⟨voter, election, located, held, voted⟩

/-- Every replica's tallies and buffered votes are vouched for by the committee. -/
def Attributed (byzantine : PublicKey → Bool) (net : Network) : Prop :=
  ∀ (replica : PublicKey) (proposer : Proposer), net.replicas[replica]? = some proposer →
    proposer.Stores (EntriesVouched (Vouched byzantine net)) (VoteVouched (Vouched byzantine net))

theorem attributed_init (count headerSize : Nat) (byzantine : PublicKey → Bool) :
    (init count headerSize byzantine).Attributed byzantine := fun _ _ found => by
  rw [init_replicas found]
  exact stores_new _ _ _

theorem Attributed.event {params : Params} {count headerSize : Nat}
    {byzantine : PublicKey → Bool} {net : Network}
    (reachable : Reachable params count headerSize byzantine net) {action : Action}
    {inFlight : List (PublicKey × PrimaryMessage)} (consumed : net.consume action = some inFlight)
    (name : PublicKey) :
    EventHolds (HeaderVouched (Vouched byzantine net)) (VoteVouched (Vouched byzantine net)) name
      action.event := by
  have accountable := Accountable.reachable reachable
  cases action with
  | deliver replica message =>
      have member := consume_deliver consumed
      cases message with
      | header header =>
          have broadcast := (Valid.reachable reachable).headers _ _ member
          obtain ⟨_, -, honest, -⟩ := accountable.headers header broadcast
          exact fun txHash electionId listed _ =>
            ⟨honest, .inl ⟨header, broadcast, rfl, rfl, rfl, txHash, listed⟩⟩
      | vote vote =>
          obtain ⟨voter, located, honest, election, held, voted⟩ := accountable.votes _ _ member
          exact fun _ => ⟨honest, .inr ⟨voter, election, located, held, voted⟩⟩
      | certificate => trivial
  | _ => trivial

theorem Attributed.act {params : Params} {count headerSize : Nat} {byzantine : PublicKey → Bool}
    {net next : Network} {action : Action}
    (reachable : Reachable params count headerSize byzantine net)
    (attributed : net.Attributed byzantine) (acted : net.act params action = some next) :
    next.Attributed byzantine := by
  have carried := fun round electionId author voteRound
    (vouched : Vouched byzantine net round electionId author voteRound) => vouched.act acted
  obtain ⟨inFlight, proposer, step, out, consumed, found, handled, rfl⟩ := act_eq_some acted
  intro replica state located
  rw [getElem?_set_found found step] at located
  split at located
  · cases located
    obtain ⟨stepped, -, -⟩ := Stores.handle (vouched_preserved _ _) (attributed _ _ found)
      (Attributed.event reachable consumed _) handled
    exact stepped.vouched_mono carried
  · exact (attributed _ _ located).vouched_mono carried

theorem Attributed.reachable {params : Params} {count headerSize : Nat}
    {byzantine : PublicKey → Bool} {net : Network}
    (reachable : Reachable params count headerSize byzantine net) : net.Attributed byzantine := by
  induction reachable with
  | refl => exact attributed_init count headerSize byzantine
  | tail reached step attributed =>
      obtain ⟨action, acted⟩ := step
      exact attributed.act reached acted

/-- A decision needs `QUORUM - 1` other correct replicas, each with an entry of its own at the
deciding vote-round, which is after `0`. -/
theorem network_decisions_participated (params : Params) (count headerSize : Nat)
    (byzantine : PublicKey → Bool) (net : Network)
    (reachable : Reachable params count headerSize byzantine net) (positive : 0 < params.quorum) :
    ∀ (replica : PublicKey) (proposer : Proposer), net.replicas[replica]? = some proposer →
      ∀ (round : Round) (electionId : ElectionId) (election : Election),
        proposer.election? round electionId = some election → election.decided = true →
          ∃ (voteRound : Round) (voters : List PublicKey), voteRound ≠ 0 ∧ voters.Nodup ∧
            params.quorum - 1 ≤ voters.length ∧
            ∀ voter ∈ voters, voter ≠ replica ∧ byzantine voter = false ∧
              ∃ (state : Proposer) (own : Election), net.replicas[voter]? = some state ∧
                state.election? round electionId = some own ∧
                own.votedOrCommitted voter voteRound = true := by
  intro replica proposer found round electionId election held decided
  obtain ⟨start, backed⟩ :=
    (Backed.reachable positive reachable proposer (List.getElem?_mem found)).elections _ _ _ held
  obtain ⟨voteRound, tally, txHash, located, reached⟩ := backed decided
  have later := start.round_ne_zero positive located reached
  have named := ((Accountable.reachable reachable).replicas _ _ found).1
  have nodup := tally.committers_nodup txHash
  have counted : params.quorum ≤ (tally.committers txHash).length :=
    (Tally.findQuorum_count reached).trans_eq (tally.length_committers txHash).symm
  refine ⟨voteRound, (tally.committers txHash).erase replica, later, nodup.erase _,
    (Nat.sub_le_sub_right counted 1).trans (List.le_length_erase _ _), fun voter member => ?_⟩
  obtain ⟨other, committed⟩ := nodup.mem_erase_iff.mp member
  obtain ⟨honest, vouched⟩ := (Attributed.reachable reachable replica proposer found).elections
    round electionId election held voter voteRound
    (Election.votedOrCommitted_of_mem located (Tally.mem_of_mem_committers committed))
    (named ▸ other)
  rcases vouched with ⟨_, -, -, -, zero, -⟩ | counts
  · exact absurd zero later
  · exact ⟨other, honest, counts⟩

/-- With `QUORUM = 2`, replica `0` decides election `5` on its commit and that of replica `1`. -/
theorem network_decisions_participated_commit :
    let params : Params :=
      { quorum := 2, numberOfNodes := 2, logsInfo := false, headerDigest := fun _ _ _ => 7 }
    let header : Header := { round := 0, author := 0, votes := [(7, 5)], id := 7 }
    let vote (round : Round) (commit : Bool) (author : PublicKey) : Vote :=
      { round, txHash := 7, electionId := 5, proposalRound := 0, commit, author, headerId := 7 }
    let net := ((init 2 1 fun _ => false).runActions params
      [.worker 0 7 5, .deliver 0 (.header header), .deliver 1 (.header header),
        .deliver 0 (.vote (vote 0 false 1)), .deliver 1 (.vote (vote 1 true 0)),
        .deliver 0 (.vote (vote 1 true 1))]).get (by decide)
    (net.replicas[0]?.bind fun proposer => proposer.election? 0 5).map Election.decided =
        some true ∧ 0 < params.quorum ∧
      ∀ (replica : PublicKey) (proposer : Proposer), net.replicas[replica]? = some proposer →
        ∀ (round : Round) (electionId : ElectionId) (election : Election),
          proposer.election? round electionId = some election → election.decided = true →
            ∃ (voteRound : Round) (voters : List PublicKey), voteRound ≠ 0 ∧ voters.Nodup ∧
              params.quorum - 1 ≤ voters.length ∧
              ∀ voter ∈ voters, voter ≠ replica ∧ (fun _ => false) voter = false ∧
                ∃ (state : Proposer) (own : Election), net.replicas[voter]? = some state ∧
                  state.election? round electionId = some own ∧
                  own.votedOrCommitted voter voteRound = true := by
  dsimp only
  exact ⟨rfl, by decide, network_decisions_participated _ 2 1 _ _
    (Reachable.runActions .refl (Option.some_get _).symm) (by decide)⟩

end Network
end Primary
end DelegatedRingCT
