import DelegatedRingCT.Primary.Accountability
import DelegatedRingCT.Primary.Proposer.Ballots

/-!
# What no replica equivocates on

Headers: `make_header` runs only when `own_proposals` does not hold the current round, and
records the round there.  Lifted to the committee, in every reachable state the rounds of the
headers broadcast in replica `i`'s name, in broadcast order, are exactly the `own_proposals` of
replica `i`, so they strictly increase, none is beyond its current round, and two broadcast
headers with the same author and round are the same header.

Votes after vote-round `0`: a replica casts such a vote only where it has no entry yet, and
every vote in flight is counted by its author.  So, whatever the interleaving, two votes in
flight with the same author, election instance and vote-round after `0` are the same vote.  At
vote-round `0` the proposal loop of `process_header` casts once per header that proposes the
election, without that check.
-/

namespace DelegatedRingCT
namespace Primary

open Proposer

namespace Network

/-- The headers broadcast in replica `replica`'s name, in broadcast order. -/
def headersOf (net : Network) (replica : PublicKey) : List Header :=
  net.headers.filter fun header => header.author = replica

/-- Every replica's `own_proposals` is strictly increasing and bounded by its round, and lists
the rounds of the headers broadcast in its name. -/
def Logged (net : Network) : Prop :=
  ∀ replica proposer, net.replicas[replica]? = some proposer →
    proposer.OwnRounds ∧ (net.headersOf replica).map Header.round = proposer.ownProposals

theorem logged_init (count headerSize : Nat) (byzantine : PublicKey → Bool) :
    (init count headerSize byzantine).Logged := fun _ _ found => by
  rw [init_replicas found]
  exact ⟨ownRounds_new _ _ _, rfl⟩

theorem Logged.act {params : Params} {byzantine : PublicKey → Bool} {net next : Network}
    {action : Action} (logged : net.Logged) (accountable : net.Accountable byzantine)
    (acted : net.act params action = some next) : next.Logged := by
  obtain ⟨inFlight, proposer, step, out, -, found, handled, rfl⟩ := act_eq_some acted
  have header := handle_headerStep handled
  have authored : ∀ made ∈ Outbound.headers out, made.author = action.replica := fun made member =>
    ((handle_sends handled).headers made member).trans (accountable.replicas _ _ found).1
  intro replica state located
  have appended (next : Network) (headers : next.headers = net.headers ++ Outbound.headers out) :
      next.headersOf replica = net.headersOf replica ++
        (Outbound.headers out).filter fun header => header.author = replica := by
    rw [headersOf, headers, List.filter_append]
    rfl
  rw [getElem?_set_found found step] at located
  rw [appended _ rfl, List.map_append]
  split at located
  · next same =>
      subst same
      cases located
      obtain ⟨rounds, listed⟩ := logged _ _ found
      have kept : (Outbound.headers out).filter (fun header => header.author = action.replica) =
          Outbound.headers out :=
        List.filter_eq_self.mpr fun made member => by simp [authored made member]
      rw [kept, listed]
      exact ⟨header.ownRounds rounds, header.ownProposals.symm⟩
  · next other =>
      have dropped : (Outbound.headers out).filter (fun header => header.author = replica) = [] :=
        List.filter_eq_nil_iff.mpr fun made member => by simp [authored made member, other]
      simpa [dropped] using logged _ _ located

theorem Logged.reachable {params : Params} {count headerSize : Nat}
    {byzantine : PublicKey → Bool} {net : Network}
    (reachable : Reachable params count headerSize byzantine net) : net.Logged := by
  induction reachable with
  | refl => exact logged_init count headerSize byzantine
  | tail earlier step logged =>
      obtain ⟨action, acted⟩ := step
      exact logged.act (Accountable.reachable earlier) acted

/-- Headers broadcast in one replica's name have strictly increasing rounds, so one author and
one round name one header. -/
theorem network_headers_unique (params : Params) (count headerSize : Nat)
    (byzantine : PublicKey → Bool) (net : Network)
    (reachable : Reachable params count headerSize byzantine net) :
    (∀ (replica : PublicKey) (proposer : Proposer), net.replicas[replica]? = some proposer →
      ((net.headersOf replica).map Header.round).Sorted (· < ·) ∧
        ∀ header ∈ net.headersOf replica, header.round ≤ proposer.round) ∧
      ∀ first ∈ net.headers, ∀ second ∈ net.headers, first.author = second.author →
        first.round = second.round → first = second := by
  have logged := Logged.reachable reachable
  have sorted {replica : PublicKey} {proposer : Proposer}
      (found : net.replicas[replica]? = some proposer) :
      ((net.headersOf replica).map Header.round).Sorted (· < ·) := by
    rw [(logged _ _ found).2]
    exact (logged _ _ found).1.1
  refine ⟨fun replica proposer found => ⟨sorted found, fun header member => ?_⟩,
    fun first member second member' same round => ?_⟩
  · obtain ⟨⟨-, bounded⟩, listed⟩ := logged _ _ found
    exact bounded _ (listed ▸ List.mem_map_of_mem _ member)
  · obtain ⟨author, found, -⟩ := (Accountable.reachable reachable).headers first member
    exact List.inj_on_of_nodup_map (sorted found).nodup
      (List.mem_filter.mpr ⟨member, by simp⟩) (List.mem_filter.mpr ⟨member', by simp [same]⟩)
      round

/-- Replica `0` made its round-`0` header and replica `1` voted on it. -/
theorem network_headers_unique_vote :
    let params : Params :=
      { quorum := 3, numberOfNodes := 4, logsInfo := false, headerDigest := fun _ _ _ => 1001 }
    let header : Header := { round := 0, author := 0, votes := [(7, 5)], id := 1001 }
    let net := ((init 2 1 fun _ => false).runActions params
      [.worker 0 7 5, .deliver 1 (.header header)]).get (by decide)
    (∀ (replica : PublicKey) (proposer : Proposer), net.replicas[replica]? = some proposer →
      ((net.headersOf replica).map Header.round).Sorted (· < ·) ∧
        ∀ header ∈ net.headersOf replica, header.round ≤ proposer.round) ∧
      ∀ first ∈ net.headers, ∀ second ∈ net.headers, first.author = second.author →
        first.round = second.round → first = second := by
  intro params header net
  exact network_headers_unique params 2 1 (fun _ => false) net
    (Reachable.runActions .refl (Option.some_get _).symm)

/-! ## Votes after vote-round `0` -/

/-- Two in-flight votes of one author, election instance and vote-round after `0` are the same
vote. -/
def Unequivocal (net : Network) : Prop :=
  ∀ replica vote, (replica, .vote vote) ∈ net.inFlight →
    ∀ replica' other, (replica', .vote other) ∈ net.inFlight →
      other.author = vote.author → other.slot = vote.slot → vote.round ≠ 0 → other = vote

theorem unequivocal_init (count headerSize : Nat) (byzantine : PublicKey → Bool) :
    (init count headerSize byzantine).Unequivocal :=
  fun _ _ member => (List.not_mem_nil _ member).elim

theorem mem_votes_of_send {count : Nat} {sender replica : PublicKey} {out : List Outbound}
    {vote : Vote} (member : (replica, .vote vote) ∈ send count sender out) :
    vote ∈ Outbound.votes out := by
  obtain ⟨outbound, outMember, message⟩ := mem_send member
  exact List.mem_filterMap.mpr ⟨outbound, outMember, by rw [message]⟩

theorem Unequivocal.act {params : Params} {byzantine : PublicKey → Bool} {net next : Network}
    {action : Action} (unequivocal : net.Unequivocal) (accountable : net.Accountable byzantine)
    (acted : net.act params action = some next) : next.Unequivocal := by
  obtain ⟨inFlight, proposer, step, out, consumed, found, handled, rfl⟩ := act_eq_some acted
  have casts := handle_casts handled
  have named := (accountable.replicas _ _ found).1
  have round {vote other : Vote} (slot : other.slot = vote.slot) : other.round = vote.round :=
    congrArg (fun slot => slot.2.2) slot
  -- A vote still in flight is counted by its author, so its author casts no other vote there.
  have fresh {replica : PublicKey} {vote other : Vote}
      (old : (replica, .vote vote) ∈ inFlight) (new : other ∈ Outbound.votes out)
      (author : other.author = vote.author) (slot : other.slot = vote.slot)
      (nonzero : vote.round ≠ 0) : False := by
    obtain ⟨voter, located, -, counts⟩ := accountable.votes _ _ (mem_consume consumed old)
    have same : vote.author = action.replica :=
      author.symm.trans ((casts.sends.votes other new).1.trans named)
    rw [same, found] at located
    obtain rfl := Option.some.inj located
    exact casts.fresh other new (round slot ▸ nonzero) (counts.slot author slot)
  intro replica vote member replica' other member' author slot nonzero
  rcases List.mem_append.mp member with old | new <;>
    rcases List.mem_append.mp member' with old' | new'
  · exact unequivocal _ _ (mem_consume consumed old) _ _ (mem_consume consumed old') author slot
      nonzero
  · exact (fresh old (mem_votes_of_send new') author slot nonzero).elim
  · exact (fresh old' (mem_votes_of_send new) author.symm slot.symm
      (round slot ▸ nonzero)).elim
  · exact List.inj_on_of_nodup_map casts.once
      (List.mem_filter.mpr ⟨mem_votes_of_send new', by simpa [round slot] using nonzero⟩)
      (List.mem_filter.mpr ⟨mem_votes_of_send new, by simpa using nonzero⟩) slot

theorem Unequivocal.reachable {params : Params} {count headerSize : Nat}
    {byzantine : PublicKey → Bool} {net : Network}
    (reachable : Reachable params count headerSize byzantine net) : net.Unequivocal := by
  induction reachable with
  | refl => exact unequivocal_init count headerSize byzantine
  | tail earlier step unequivocal =>
      obtain ⟨action, acted⟩ := step
      exact unequivocal.act (Accountable.reachable earlier) acted

/-- Two votes in flight with one author, instance and vote-round after `0` are the same vote. -/
theorem network_votes_unequivocal (params : Params) (count headerSize : Nat)
    (byzantine : PublicKey → Bool) (net : Network)
    (reachable : Reachable params count headerSize byzantine net) :
    ∀ (replica replica' : PublicKey) (vote other : Vote), (replica, .vote vote) ∈ net.inFlight →
      (replica', .vote other) ∈ net.inFlight → other.author = vote.author →
      other.proposalRound = vote.proposalRound → other.electionId = vote.electionId →
      other.round = vote.round → vote.round ≠ 0 → other = vote :=
  fun replica replica' vote other member member' author proposalRound electionId round =>
    Unequivocal.reachable reachable replica vote member replica' other member' author
      (by simp [Vote.slot, proposalRound, electionId, round])

/-- Replica `1` voted on replica `0`'s header and committed at vote-round `1`. -/
theorem network_votes_unequivocal_commit :
    let params : Params :=
      { quorum := 1, numberOfNodes := 2, logsInfo := false, headerDigest := fun _ _ _ => 7 }
    let header : Header := { round := 0, author := 0, votes := [(7, 5)], id := 7 }
    let vote : Vote :=
      { round := 0, txHash := 7, electionId := 5, proposalRound := 0, commit := false,
        author := 1, headerId := 7 }
    let net := ((init 2 1 fun _ => false).runActions params
      [.worker 0 7 5, .deliver 1 (.header header), .deliver 1 (.vote vote)]).get (by decide)
    ∀ (replica replica' : PublicKey) (vote other : Vote), (replica, .vote vote) ∈ net.inFlight →
      (replica', .vote other) ∈ net.inFlight → other.author = vote.author →
      other.proposalRound = vote.proposalRound → other.electionId = vote.electionId →
      other.round = vote.round → vote.round ≠ 0 → other = vote := by
  intro params header vote net
  exact network_votes_unequivocal params 2 1 (fun _ => false) net
    (Reachable.runActions .refl (Option.some_get _).symm)

end Network

end Primary
end DelegatedRingCT
