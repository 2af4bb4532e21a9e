import DelegatedRingCT.Primary.Network
import DelegatedRingCT.Primary.Proposer.Persistence

/-!
# The committee, replica by replica

Each replica of the committee runs its own loop: in every reachable state, replica `i` is the
state `Proposer::run` reaches from `Proposer::spawn` with name `i` on some sequence of events,
so every fact about a replica's runs from the spawned state holds of every replica of the
committee, whatever the interleaving.

And every message traces back to a correct replica that stands by it.  A replica's name is its
index and its Byzantine flag never changes; a Byzantine replica sends nothing; a correct one
sends votes only in its own name, counts each in its own tally before it leaves and keeps it
counted, and sends headers only in its own name, of a round it records in `own_proposals`.  So
in every reachable state every vote in flight names a correct replica that counts it, and every
header broadcast names a correct replica that recorded the header's round.
-/

namespace DelegatedRingCT
namespace Primary

open Proposer

namespace Network

theorem init_replicas {count headerSize : Nat} {byzantine : PublicKey → Bool}
    {replica : PublicKey} {proposer : Proposer}
    (found : (init count headerSize byzantine).replicas[replica]? = some proposer) :
    proposer = new replica headerSize (byzantine replica) := by
  simp only [init, List.getElem?_map] at found
  obtain ⟨index, ranged, rfl⟩ := Option.map_eq_some'.mp found
  obtain ⟨bound, rfl⟩ := List.getElem?_eq_some_iff.mp ranged
  rw [List.getElem_range]

theorem getElem?_set_found {replicas : List Proposer} {replica : PublicKey}
    {proposer : Proposer} (found : replicas[replica]? = some proposer) (step : Proposer)
    (other : PublicKey) :
    (replicas.set replica step)[other]? = if replica = other then some step else replicas[other]? := by
  rw [List.getElem?_set]
  split
  · rw [if_pos (List.getElem?_eq_some_iff.mp found).1]
  · rfl

/-! ## Each replica runs its own loop -/

/-- Replica `i` of a reachable committee is a state its own loop reaches from `Proposer::spawn`. -/
theorem Reachable.replicas_run {params : Params} {count headerSize : Nat}
    {byzantine : PublicKey → Bool} {net : Network}
    (reachable : Reachable params count headerSize byzantine net) :
    net.replicas.length = count ∧ ∀ replica proposer, net.replicas[replica]? = some proposer →
      ∃ events out,
        (new replica headerSize (byzantine replica)).run params events = some (proposer, out) := by
  induction reachable with
  | refl =>
      refine ⟨by simp [init], fun replica proposer found => ⟨[], [], ?_⟩⟩
      rw [init_replicas found]
      rfl
  | tail _ step induction =>
      obtain ⟨action, acted⟩ := step
      obtain ⟨inFlight, proposer, step, out, -, found, handled, rfl⟩ := act_eq_some acted
      refine ⟨by simp [induction.1], fun replica state located => ?_⟩
      rw [getElem?_set_found found step replica] at located
      split at located
      · next same =>
          subst same
          cases located
          obtain ⟨events, before, ran⟩ := induction.2 _ _ found
          exact ⟨events ++ [action.event], _, run_concat ran handled⟩
      · exact induction.2 _ _ located

/-- Every replica is named by its index and keeps the committee's Byzantine flag; every vote in
flight names a correct replica that counts it; every broadcast header names a correct replica
that recorded its round. -/
structure Accountable (byzantine : PublicKey → Bool) (net : Network) : Prop where
  replicas : ∀ replica proposer, net.replicas[replica]? = some proposer →
    proposer.name = replica ∧ proposer.byzantine = byzantine replica
  votes : ∀ replica vote, (replica, .vote vote) ∈ net.inFlight →
    ∃ author, net.replicas[vote.author]? = some author ∧ byzantine vote.author = false ∧
      author.Counts vote
  headers : ∀ header ∈ net.headers, ∃ author, net.replicas[header.author]? = some author ∧
    byzantine header.author = false ∧ header.round ∈ author.ownProposals

theorem accountable_init (count headerSize : Nat) (byzantine : PublicKey → Bool) :
    (init count headerSize byzantine).Accountable byzantine :=
  ⟨fun _ _ found => by rw [init_replicas found]; exact ⟨rfl, rfl⟩,
    fun _ _ member => (List.not_mem_nil _ member).elim,
    fun _ member => (List.not_mem_nil _ member).elim⟩

theorem Accountable.act {params : Params} {byzantine : PublicKey → Bool} {net next : Network}
    {action : Action} (accountable : net.Accountable byzantine)
    (acted : net.act params action = some next) : next.Accountable byzantine := by
  obtain ⟨inFlight, proposer, step, out, consumed, found, handled, rfl⟩ := act_eq_some acted
  have sends := handle_sends handled
  have own := (handle_headerStep handled).ownProposals
  obtain ⟨named, flagged⟩ := accountable.replicas _ _ found
  have lookup := getElem?_set_found found step
  have correct (sent : out ≠ []) : byzantine action.replica = false := by
    cases silent : proposer.byzantine
    · exact flagged ▸ silent
    · exact absurd (handle_silent handled silent) sent
  refine ⟨fun replica state located => ?_, fun replica vote member => ?_,
    fun header member => ?_⟩
  · rw [lookup] at located
    split at located
    · next same =>
        subst same
        cases located
        exact ⟨sends.name.trans named, sends.byzantine.trans flagged⟩
    · exact accountable.replicas _ _ located
  · rcases List.mem_append.mp member with old | sent
    · obtain ⟨author, located, honest, counts⟩ := accountable.votes _ _ (mem_consume consumed old)
      rw [lookup]
      split
      · next same =>
          rw [← same, found, Option.some.injEq] at located
          subst located
          exact ⟨step, rfl, honest, sends.persists.counts counts⟩
      · exact ⟨author, located, honest, counts⟩
    · obtain ⟨outbound, outMember, message⟩ := mem_send sent
      have voted : vote ∈ Outbound.votes out :=
        List.mem_filterMap.mpr ⟨outbound, outMember, by rw [message]⟩
      obtain ⟨author, counts⟩ := sends.votes vote voted
      have same : vote.author = action.replica := author.trans named
      refine ⟨step, by rw [lookup, if_pos same.symm], same ▸ correct ?_, counts⟩
      rintro rfl
      cases voted
  · rcases List.mem_append.mp member with old | made
    · obtain ⟨author, located, honest, recorded⟩ := accountable.headers header old
      rw [lookup]
      split
      · next same =>
          rw [← same, found, Option.some.injEq] at located
          subst located
          exact ⟨step, rfl, honest, own ▸ List.mem_append_left _ recorded⟩
      · exact ⟨author, located, honest, recorded⟩
    · have same : header.author = action.replica := (sends.headers header made).trans named
      refine ⟨step, by rw [lookup, if_pos same.symm], same ▸ correct ?_,
        own ▸ List.mem_append_right _ (List.mem_map_of_mem _ made)⟩
      rintro rfl
      cases made

theorem Accountable.reachable {params : Params} {count headerSize : Nat}
    {byzantine : PublicKey → Bool} {net : Network}
    (reachable : Reachable params count headerSize byzantine net) :
    net.Accountable byzantine := by
  induction reachable with
  | refl => exact accountable_init count headerSize byzantine
  | tail _ step accountable =>
      obtain ⟨action, acted⟩ := step
      exact accountable.act acted

end Network
end Primary
end DelegatedRingCT
