import DelegatedRingCT.Primary.Accountability
import DelegatedRingCT.Primary.Proposer.Stores

/-!
# A committee of one never decides

The spec's boundary case `N = 1` expects a decision at once.  In the code, `process_header` casts
the replica's own vote only on a header of another author, and only `process_vote` runs the
voting rules, the one place an election is decided.  A committee of one replica has no other
author, so no vote is ever cast: in every reachable state no vote is in flight, none is buffered,
and no election the replica holds is decided.
-/

namespace DelegatedRingCT
namespace Primary

namespace Proposer

/-- No election the replica holds is decided, and no vote is buffered. -/
def Quiet (proposer : Proposer) : Prop :=
  proposer.Stores (fun _ _ _ election => election.decided = false) fun _ _ => False

/-- One step of a one-replica committee keeps it quiet. -/
theorem quiet_preserved (params : Params) :
    Preserved params (fun _ _ _ election => election.decided = false) (fun _ _ => False)
      (fun name header => header.author = name) fun _ _ => False :=
  ⟨fun _ _ _ => rfl, fun _ buffered _ _ => buffered.elim, fun _ _ undecided => undecided,
    fun own _ other _ => (other own).elim,
    fun voteRound undecided => (Election.expire_decided _ voteRound).trans undecided⟩

end Proposer

open Proposer

namespace Network

/-- No vote is in flight and every replica is quiet. -/
structure Quiet (net : Network) : Prop where
  replicas : ∀ proposer ∈ net.replicas, proposer.Quiet
  votes : ∀ replica vote, (replica, .vote vote) ∉ net.inFlight

theorem quiet_init (headerSize : Nat) (byzantine : PublicKey → Bool) :
    (init 1 headerSize byzantine).Quiet :=
  ⟨fun _ member => (by
      obtain ⟨replica, -, rfl⟩ := List.mem_map.mp member
      exact stores_new _ _ _),
    fun _ _ member => List.not_mem_nil _ member⟩

theorem Quiet.event {params : Params} {headerSize : Nat} {byzantine : PublicKey → Bool}
    {net : Network} (reachable : Reachable params 1 headerSize byzantine net) (quiet : net.Quiet)
    {action : Action} {inFlight : List (PublicKey × PrimaryMessage)}
    (consumed : net.consume action = some inFlight) {proposer : Proposer}
    (found : net.replicas[action.replica]? = some proposer) :
    EventHolds (fun name header => header.author = name) (fun _ _ => False) proposer.name
      action.event := by
  cases action with
  | deliver replica message =>
      have member := consume_deliver consumed
      cases message with
      | header header =>
          have accountable := Accountable.reachable reachable
          obtain ⟨_, located, -⟩ :=
            accountable.headers header ((Valid.reachable reachable).headers _ _ member)
          have length := (Reachable.replicas_run reachable).1
          have only {index : Nat} {replica : Proposer}
              (found : net.replicas[index]? = some replica) : index = 0 :=
            Nat.lt_one_iff.mp (length ▸ (List.getElem?_eq_some_iff.mp found).1)
          show header.author = proposer.name
          rw [(accountable.replicas _ _ found).1, only located, only found]
      | vote vote => exact quiet.votes _ _ member
      | certificate => trivial
  | _ => trivial

theorem Quiet.act {params : Params} {headerSize : Nat} {byzantine : PublicKey → Bool}
    {net next : Network} {action : Action}
    (reachable : Reachable params 1 headerSize byzantine net) (quiet : net.Quiet)
    (acted : net.act params action = some next) : next.Quiet := by
  obtain ⟨inFlight, proposer, step, out, consumed, found, handled, rfl⟩ := act_eq_some acted
  obtain ⟨stepQuiet, -, silent⟩ := Stores.handle (quiet_preserved _)
    (quiet.replicas proposer (List.getElem?_mem found)) (quiet.event reachable consumed found)
    handled
  refine ⟨fun other member => ?_, fun replica vote member => ?_⟩
  · rcases List.mem_or_eq_of_mem_set member with old | rfl
    · exact quiet.replicas other old
    · exact stepQuiet
  · rcases List.mem_append.mp member with old | sent
    · exact quiet.votes _ _ (mem_consume consumed old)
    · obtain ⟨outbound, outMember, message⟩ := mem_send sent
      have voted : vote ∈ Outbound.votes out :=
        List.mem_filterMap.mpr ⟨outbound, outMember, by rw [message]⟩
      exact silent vote voted

theorem Quiet.reachable {params : Params} {headerSize : Nat} {byzantine : PublicKey → Bool}
    {net : Network} (reachable : Reachable params 1 headerSize byzantine net) : net.Quiet := by
  induction reachable with
  | refl => exact quiet_init headerSize byzantine
  | tail reached step quiet =>
      obtain ⟨action, acted⟩ := step
      exact quiet.act reached acted

/-- A committee of one replica never has a vote in flight and never decides. -/
theorem network_single_replica_never_decides (params : Params) (headerSize : Nat)
    (byzantine : PublicKey → Bool) (net : Network)
    (reachable : Reachable params 1 headerSize byzantine net) :
    (∀ replica vote, (replica, .vote vote) ∉ net.inFlight) ∧
      ∀ proposer ∈ net.replicas, ∀ round electionId election,
        proposer.election? round electionId = some election → election.decided = false :=
  let quiet := Quiet.reachable reachable
  ⟨quiet.votes, fun proposer member => (quiet.replicas proposer member).elections⟩

/-- A lone replica after it made a header and received it back. -/
theorem network_single_replica_never_decides_header :
    let params : Params :=
      { quorum := 1, numberOfNodes := 1, logsInfo := false, headerDigest := fun _ _ _ => 7 }
    let header : Header := { round := 0, author := 0, votes := [(7, 5)], id := 7 }
    let net := ((init 1 1 fun _ => false).runActions params
      [.worker 0 7 5, .deliver 0 (.header header)]).get (by decide)
    (∀ replica vote, (replica, .vote vote) ∉ net.inFlight) ∧
      ∀ proposer ∈ net.replicas, ∀ round electionId election,
        proposer.election? round electionId = some election → election.decided = false := by
  intro params header net
  exact network_single_replica_never_decides params 1 (fun _ => false) net
    (Reachable.runActions .refl (Option.some_get _).symm)

end Network
end Primary
end DelegatedRingCT
