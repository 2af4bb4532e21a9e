import DelegatedRingCT.Primary.Proposer.Validity
import Mathlib.Logic.Relation

/-!
# The committee of primaries

Modelled from the spec: `N` proposers, replica `i` with public key `i`, exchange headers and
votes over a network that holds every message in flight, addressed to one replica, until it is
delivered, in any order.  `addresses` reaches every primary, `other_primaries` every primary
but the sender.  Workers feed any pair to any replica, header timers and tally timers fire at
any point, and a replica whose handler panics does not take the step.  Byzantine replicas are
the silent ones of `proposer.rs`.  The network also records every header a replica broadcast:
these are the headers `make_header` created.

Validity holds in every reachable state: every vote counted in a tally, buffered or in flight
carries a hash that a created header of the vote's proposal round proposed for its election.
Agreement does not: a run of four correct replicas ends with two of them deciding different
hashes for the same election.
-/

namespace DelegatedRingCT
namespace Primary

open Proposer

/-- The global state. -/
structure Network where
  /-- Replica `i` is `replicas[i]`. -/
  replicas : List Proposer
  /-- The messages sent and not yet delivered, with their destination. -/
  inFlight : List (PublicKey × PrimaryMessage)
  /-- Every header broadcast so far. -/
  headers : List Header

/-- What can happen next. -/
inductive Action
  | /-- A worker hands a pair to a replica. -/
    worker (replica : PublicKey) (txHash : TxHash) (electionId : ElectionId)
  | /-- A replica's header timer fires. -/
    timer (replica : PublicKey)
  | /-- A tally timer of a replica expires. -/
    expire (replica : PublicKey) (round : Round) (electionId : ElectionId) (voteRound : Round)
  | /-- An in-flight message reaches its destination. -/
    deliver (replica : PublicKey) (message : PrimaryMessage)
  deriving DecidableEq, Repr

namespace Action

/-- The replica that acts. -/
def replica : Action → PublicKey
  | .worker replica _ _ | .timer replica | .expire replica _ _ _ | .deliver replica _ => replica

/-- The event of its loop. -/
def event : Action → Event
  | .worker _ txHash electionId => .worker txHash electionId
  | .timer _ => .timer
  | .expire _ proposalRound electionId voteRound => .expire proposalRound electionId voteRound
  | .deliver _ message => .primary message

end Action

namespace Network

/-- The replicas an address list reaches in a committee of `count`. -/
def recipients (count : Nat) (sender : PublicKey) : Recipients → List PublicKey
  | .addresses => List.range count
  | .otherPrimaries => (List.range count).filter (· ≠ sender)

/-- The messages a replica's broadcasts put in flight. -/
def send (count : Nat) (sender : PublicKey) (out : List Outbound) :
    List (PublicKey × PrimaryMessage) :=
  out.flatMap fun outbound =>
    (recipients count sender outbound.recipients).map fun replica => (replica, outbound.message)

/-- The in-flight messages once a delivered message is taken out; `none` if it is not in flight. -/
def consume (net : Network) : Action → Option (List (PublicKey × PrimaryMessage))
  | .deliver replica message =>
      if (replica, message) ∈ net.inFlight then some (net.inFlight.erase (replica, message))
      else none
  | _ => some net.inFlight

/-- One step; `none` if the action is not enabled or the replica's handler panics. -/
def act (params : Params) (net : Network) (action : Action) : Option Network := do
  let inFlight ← net.consume action
  let proposer ← net.replicas[action.replica]?
  let (next, out) ← proposer.handle params action.event
  pure { replicas := net.replicas.set action.replica next,
         inFlight := inFlight ++ send net.replicas.length action.replica out,
         headers := net.headers ++ Outbound.headers out }

/-- `count` replicas fresh from `Proposer::spawn`, nothing in flight. -/
def init (count headerSize : Nat) (byzantine : PublicKey → Bool) : Network :=
  { replicas := (List.range count).map fun replica => new replica headerSize (byzantine replica),
    inFlight := [], headers := [] }

/-- A sequence of steps. -/
def runActions (params : Params) (net : Network) : List Action → Option Network
  | [] => some net
  | action :: actions => (net.act params action).bind fun next => next.runActions params actions

/-- One step of the network. -/
def Step (params : Params) (net next : Network) : Prop :=
  ∃ action, net.act params action = some next

/-- The states reachable from `init`. -/
def Reachable (params : Params) (count headerSize : Nat) (byzantine : PublicKey → Bool)
    (net : Network) : Prop :=
  Relation.ReflTransGen (Step params) (init count headerSize byzantine) net

theorem Reachable.runActions {params : Params} {count headerSize : Nat}
    {byzantine : PublicKey → Bool} {net final : Network} {actions : List Action}
    (reachable : Reachable params count headerSize byzantine net)
    (ran : net.runActions params actions = some final) :
    Reachable params count headerSize byzantine final := by
  induction actions generalizing net with
  | nil => exact (Option.some.inj ran) ▸ reachable
  | cons action actions induction =>
      obtain ⟨next, step, rest⟩ := Option.bind_eq_some.mp ran
      exact induction (reachable.tail ⟨action, step⟩) rest

/-! ## What a step does -/

theorem act_eq_some {params : Params} {net next : Network} {action : Action}
    (acted : net.act params action = some next) :
    ∃ inFlight proposer step out, net.consume action = some inFlight ∧
      net.replicas[action.replica]? = some proposer ∧
      proposer.handle params action.event = some (step, out) ∧
      next = { replicas := net.replicas.set action.replica step,
               inFlight := inFlight ++ send net.replicas.length action.replica out,
               headers := net.headers ++ Outbound.headers out } := by
  simp only [act, Option.bind_eq_bind, Option.bind_eq_some, Option.pure_def,
    Option.some.injEq] at acted
  obtain ⟨inFlight, consumed, proposer, found, ⟨step, out⟩, handled, rfl⟩ := acted
  exact ⟨inFlight, proposer, step, out, consumed, found, handled, rfl⟩

theorem mem_send {count : Nat} {sender replica : PublicKey} {out : List Outbound}
    {message : PrimaryMessage} (member : (replica, message) ∈ send count sender out) :
    ∃ outbound ∈ out, outbound.message = message := by
  obtain ⟨outbound, member, sent⟩ := List.mem_flatMap.mp member
  obtain ⟨_, -, same⟩ := List.mem_map.mp sent
  exact ⟨outbound, member, (Prod.mk.inj same).2⟩

theorem mem_consume {net : Network} {action : Action} {inFlight : List (PublicKey × PrimaryMessage)}
    (consumed : net.consume action = some inFlight) : inFlight ⊆ net.inFlight := by
  cases action with
  | deliver replica message =>
      simp only [consume] at consumed
      split at consumed
      · exact (Option.some.inj consumed) ▸ List.erase_subset _ _
      · cases consumed
  | _ => exact (Option.some.inj consumed) ▸ List.Subset.refl _

theorem consume_deliver {net : Network} {replica : PublicKey} {message : PrimaryMessage}
    {inFlight : List (PublicKey × PrimaryMessage)}
    (consumed : net.consume (.deliver replica message) = some inFlight) :
    (replica, message) ∈ net.inFlight := by
  simp only [consume] at consumed
  split at consumed
  · assumption
  · cases consumed

/-! ## Validity -/

/-- Every replica is valid for the recorded headers, and so is every message in flight. -/
structure Valid (net : Network) : Prop where
  replicas : ∀ proposer ∈ net.replicas, proposer.Valid net.headers
  votes : ∀ replica vote, (replica, .vote vote) ∈ net.inFlight → ValidVote net.headers vote
  headers : ∀ replica header, (replica, .header header) ∈ net.inFlight → header ∈ net.headers

theorem valid_init (count headerSize : Nat) (byzantine : PublicKey → Bool) :
    (init count headerSize byzantine).Valid :=
  ⟨fun _ member => (by
      obtain ⟨replica, -, rfl⟩ := List.mem_map.mp member
      exact valid_new _ _ _),
    fun _ _ member => (List.not_mem_nil _ member).elim,
    fun _ _ member => (List.not_mem_nil _ member).elim⟩

theorem Valid.event {net : Network} (valid : net.Valid) {action : Action}
    {inFlight : List (PublicKey × PrimaryMessage)} (consumed : net.consume action = some inFlight) :
    EventValid net.headers action.event := by
  cases action with
  | deliver replica message =>
      have member := consume_deliver consumed
      cases message with
      | header header => exact valid.headers _ _ member
      | vote vote => exact valid.votes _ _ member
      | certificate => trivial
  | _ => trivial

theorem Valid.act {params : Params} {net next : Network} {action : Action} (valid : net.Valid)
    (acted : net.act params action = some next) : next.Valid := by
  obtain ⟨inFlight, proposer, step, out, consumed, found, handled, rfl⟩ := act_eq_some acted
  have wider : net.headers ⊆ net.headers ++ Outbound.headers out := List.subset_append_left _ _
  obtain ⟨stepValid, votesValid⟩ :=
    (valid.replicas proposer (List.getElem?_mem found)).handle (valid.event consumed) handled
  refine ⟨fun other member => ?_, fun replica vote member => ?_, fun replica header member => ?_⟩
  · rcases List.mem_or_eq_of_mem_set member with old | rfl
    · exact (valid.replicas other old).mono wider
    · exact stepValid.mono wider
  · rcases List.mem_append.mp member with old | sent
    · exact (valid.votes _ _ (mem_consume consumed old)).mono wider
    · obtain ⟨outbound, member, message⟩ := mem_send sent
      have voted : vote ∈ Outbound.votes out :=
        List.mem_filterMap.mpr ⟨outbound, member, by rw [message]⟩
      exact (votesValid vote voted).mono wider
  · rcases List.mem_append.mp member with old | sent
    · exact wider (valid.headers _ _ (mem_consume consumed old))
    · obtain ⟨outbound, member, message⟩ := mem_send sent
      exact List.mem_append_right _ (List.mem_filterMap.mpr ⟨outbound, member, by rw [message]⟩)

theorem Valid.reachable {params : Params} {count headerSize : Nat} {byzantine : PublicKey → Bool}
    {net : Network} (reachable : Reachable params count headerSize byzantine net) : net.Valid := by
  induction reachable with
  | refl => exact valid_init count headerSize byzantine
  | tail _ step valid =>
      obtain ⟨action, acted⟩ := step
      exact valid.act acted

theorem headers_made {params : Params} {proposer next : Proposer} {event : Event}
    {out : List Outbound} (handled : proposer.handle params event = some (next, out))
    {header : Header} (member : header ∈ Outbound.headers out) :
    ∃ maker : Proposer, header ∈ Outbound.headers (maker.makeHeader params).2 := by
  rcases handle_cases handled with ⟨_, -, made⟩ | ⟨_, -, processed⟩ | ⟨_, -, processed⟩ |
      ⟨_, _, _, -, rfl⟩ | ⟨_, -, rfl⟩
  · exact ⟨_, by rw [made]; exact member⟩
  · rw [(processHeader_frame processed).headers] at member; cases member
  · rw [(processVote_frame processed).headers] at member; cases member
  · cases member
  · cases member

theorem Reachable.headers_made {params : Params} {count headerSize : Nat}
    {byzantine : PublicKey → Bool} {net : Network}
    (reachable : Reachable params count headerSize byzantine net) :
    ∀ header ∈ net.headers,
      ∃ maker : Proposer, header ∈ Outbound.headers (maker.makeHeader params).2 := by
  induction reachable with
  | refl => intro _ member; cases member
  | tail _ step made =>
      obtain ⟨action, acted⟩ := step
      obtain ⟨inFlight, proposer, step, out, -, -, handled, rfl⟩ := act_eq_some acted
      intro header member
      rcases List.mem_append.mp member with old | new
      exacts [made header old, Network.headers_made handled new]

/-- Validity: every header is made by `make_header`, and every hash a replica holds or a vote
carries was proposed for its instance in a header of that round. -/
theorem network_validity (params : Params) (count headerSize : Nat) (byzantine : PublicKey → Bool)
    (net : Network) (reachable : Reachable params count headerSize byzantine net) :
    (∀ header ∈ net.headers, ∃ maker : Proposer, header ∈ Outbound.headers (maker.makeHeader params).2) ∧
      (∀ proposer ∈ net.replicas, ∀ round electionId election,
        proposer.election? round electionId = some election →
        (∀ voteRound tally author entry, election.tallies.lookup voteRound = some tally →
          tally.votes.lookup author = some entry → Proposed net.headers round electionId entry.1) ∧
        ∀ txHash, election.findQuorumOfCommits params.quorum = some txHash →
          Proposed net.headers round electionId txHash) ∧
      (∀ proposer ∈ net.replicas, ∀ round votes, proposer.pendingVotes.lookup round = some votes →
        ∀ vote ∈ votes, ValidVote net.headers vote) ∧
      ∀ replica vote, (replica, .vote vote) ∈ net.inFlight → ValidVote net.headers vote := by
  have valid := Valid.reachable reachable
  refine ⟨reachable.headers_made, fun proposer member round electionId election found => ?_,
    fun proposer member => (valid.replicas proposer member).pending, valid.votes⟩
  have holds := (valid.replicas proposer member).elections round electionId election found
  exact ⟨holds.1, fun _ quorum => holds.findQuorumOfCommits quorum⟩

/-- Validity at the end of the run of network_disagreement below. -/
theorem network_validity_disagreement :
    let params : Params :=
      { quorum := 3, numberOfNodes := 4, logsInfo := true,
        headerDigest := fun round author _ => 1000 + 10 * round + author }
    let header (author : PublicKey) (txHash : TxHash) (electionId : ElectionId) : Header :=
      { round := 0, author, votes := [(txHash, electionId)], id := 1000 + author }
    let vote (round : Round) (txHash : TxHash) (commit : Bool) (author : PublicKey)
        (headerId : Digest) : Vote :=
      { round, txHash, electionId := 5, proposalRound := 0, commit, author, headerId }
    let actions : List Action :=
      [.worker 0 500 600, .deliver 0 (.header (header 0 500 600)),
        .worker 3 501 601, .deliver 3 (.header (header 3 501 601)),
        .worker 1 1000 5, .worker 2 1003 5,
        .deliver 0 (.header (header 2 1003 5)), .deliver 0 (.header (header 1 1000 5)),
        .deliver 3 (.header (header 1 1000 5)), .deliver 3 (.header (header 2 1003 5)),
        .deliver 0 (.vote (vote 0 1000 false 3 1001)), .deliver 3 (.vote (vote 0 1003 false 0 1002)),
        .deliver 1 (.header (header 1 1000 5)), .deliver 2 (.header (header 1 1000 5)),
        .deliver 1 (.vote (vote 1 1000 true 0 1001)), .deliver 2 (.vote (vote 1 1000 true 0 1001)),
        .deliver 0 (.vote (vote 1 1000 true 1 1001)), .deliver 0 (.vote (vote 1 1000 true 2 1001)),
        .expire 3 0 5 1,
        .deliver 3 (.vote (vote 1 1000 true 1 1001)), .deliver 3 (.vote (vote 1 1000 true 0 1001)),
        .deliver 1 (.header (header 2 1003 5)), .deliver 2 (.header (header 2 1003 5)),
        .deliver 1 (.vote (vote 2 1003 true 3 1001)), .deliver 2 (.vote (vote 2 1003 true 3 1001)),
        .deliver 3 (.vote (vote 2 1003 true 1 1001)), .deliver 3 (.vote (vote 2 1003 true 2 1001))]
    let net := ((init 4 1 fun _ => false).runActions params actions).get (by decide)
    net.headers.length = 4 ∧ net.inFlight.length = 39 ∧
      (∀ header ∈ net.headers, ∃ maker : Proposer, header ∈ Outbound.headers (maker.makeHeader params).2) ∧
      (∀ proposer ∈ net.replicas, ∀ round electionId election,
        proposer.election? round electionId = some election →
        (∀ voteRound tally author entry, election.tallies.lookup voteRound = some tally →
          tally.votes.lookup author = some entry → Proposed net.headers round electionId entry.1) ∧
        ∀ txHash, election.findQuorumOfCommits params.quorum = some txHash →
          Proposed net.headers round electionId txHash) ∧
      (∀ proposer ∈ net.replicas, ∀ round votes, proposer.pendingVotes.lookup round = some votes →
        ∀ vote ∈ votes, ValidVote net.headers vote) ∧
      ∀ replica vote, (replica, .vote vote) ∈ net.inFlight → ValidVote net.headers vote := by
  dsimp only
  exact ⟨rfl, rfl, network_validity _ 4 1 _ _ (Reachable.runActions .refl (Option.some_get _).symm)⟩

/-! ## Agreement -/

/-- The hash a replica decided for an election instance: the hash holding a quorum of commit
votes in its decided election. -/
def decision (params : Params) (proposer : Proposer) (round : Round) (electionId : ElectionId) :
    Option TxHash :=
  (proposer.election? round electionId).bind fun election =>
    if election.decided then election.findQuorumOfCommits params.quorum else none

/-- Two correct replicas that decided the same election instance decided the same hash. -/
def Agreement (params : Params) (net : Network) : Prop :=
  ∀ (first second : Nat) (one other : Proposer), net.replicas[first]? = some one →
    net.replicas[second]? = some other → one.byzantine = false → other.byzantine = false →
    ∀ round electionId x y, decision params one round electionId = some x →
      decision params other round electionId = some y → x = y

theorem exists_of_getElem?_map {α β : Type} {list : List α} {f : α → β} {index : Nat}
    {value : β} (found : (list.map f)[index]? = some value) :
    ∃ element, list[index]? = some element ∧ f element = value := by
  rw [List.getElem?_map] at found
  exact Option.map_eq_some'.mp found

theorem not_agreement {params : Params} {net : Network} {first second : Nat} {round : Round}
    {electionId : ElectionId} {x y : TxHash}
    (one : (net.replicas.map fun replica =>
      (replica.byzantine, decision params replica round electionId))[first]? = some (false, some x))
    (other : (net.replicas.map fun replica =>
      (replica.byzantine, decision params replica round electionId))[second]? =
        some (false, some y))
    (differ : x ≠ y) : ¬ net.Agreement params := by
  intro agree
  obtain ⟨oneReplica, oneFound, oneDecided⟩ := exists_of_getElem?_map one
  obtain ⟨otherReplica, otherFound, otherDecided⟩ := exists_of_getElem?_map other
  simp only [Prod.mk.injEq] at oneDecided otherDecided
  exact differ (agree first second _ _ oneFound otherFound oneDecided.1 otherDecided.1 round
    electionId x y oneDecided.2 otherDecided.2)

/-- A run whose decisions differ at two correct replicas reaches a state without agreement. -/
theorem disagreement_of_run {params : Params} {count headerSize : Nat}
    {byzantine : PublicKey → Bool} {actions : List Action} {round : Round}
    {electionId : ElectionId} {decided : List (Bool × Option TxHash)} (first second : Nat)
    {x y : TxHash}
    (computed : ((init count headerSize byzantine).runActions params actions).map (fun net =>
      net.replicas.map fun replica =>
        (replica.byzantine, decision params replica round electionId)) =
        some decided)
    (one : decided[first]? = some (false, some x)) (other : decided[second]? = some (false, some y))
    (differ : x ≠ y) :
    ∃ net, (init count headerSize byzantine).runActions params actions = some net ∧
      Reachable params count headerSize byzantine net ∧
      net.replicas.map
          (fun replica => (replica.byzantine, decision params replica round electionId)) =
        decided ∧
      ¬ net.Agreement params := by
  obtain ⟨net, ran, listed⟩ := Option.map_eq_some'.mp computed
  exact ⟨net, ran, Reachable.runActions .refl ran, listed,
    not_agreement (listed ▸ one) (listed ▸ other) differ⟩

/-- Two correct replicas decide different hashes for one election: each sees a quorum for its own
hash, and the other replicas echo both commits. -/
theorem network_disagreement :
    let params : Params :=
      { quorum := 3, numberOfNodes := 4, logsInfo := true,
        headerDigest := fun round author _ => 1000 + 10 * round + author }
    let header (author : PublicKey) (txHash : TxHash) (electionId : ElectionId) : Header :=
      { round := 0, author, votes := [(txHash, electionId)], id := 1000 + author }
    let vote (round : Round) (txHash : TxHash) (commit : Bool) (author : PublicKey)
        (headerId : Digest) : Vote :=
      { round, txHash, electionId := 5, proposalRound := 0, commit, author, headerId }
    let actions : List Action :=
      [.worker 0 500 600, .deliver 0 (.header (header 0 500 600)),
        .worker 3 501 601, .deliver 3 (.header (header 3 501 601)),
        .worker 1 1000 5, .worker 2 1003 5,
        .deliver 0 (.header (header 2 1003 5)), .deliver 0 (.header (header 1 1000 5)),
        .deliver 3 (.header (header 1 1000 5)), .deliver 3 (.header (header 2 1003 5)),
        .deliver 0 (.vote (vote 0 1000 false 3 1001)), .deliver 3 (.vote (vote 0 1003 false 0 1002)),
        .deliver 1 (.header (header 1 1000 5)), .deliver 2 (.header (header 1 1000 5)),
        .deliver 1 (.vote (vote 1 1000 true 0 1001)), .deliver 2 (.vote (vote 1 1000 true 0 1001)),
        .deliver 0 (.vote (vote 1 1000 true 1 1001)), .deliver 0 (.vote (vote 1 1000 true 2 1001)),
        .expire 3 0 5 1,
        .deliver 3 (.vote (vote 1 1000 true 1 1001)), .deliver 3 (.vote (vote 1 1000 true 0 1001)),
        .deliver 1 (.header (header 2 1003 5)), .deliver 2 (.header (header 2 1003 5)),
        .deliver 1 (.vote (vote 2 1003 true 3 1001)), .deliver 2 (.vote (vote 2 1003 true 3 1001)),
        .deliver 3 (.vote (vote 2 1003 true 1 1001)), .deliver 3 (.vote (vote 2 1003 true 2 1001))]
    ∃ net, (init 4 1 fun _ => false).runActions params actions = some net ∧
      Reachable params 4 1 (fun _ => false) net ∧
      net.replicas.map (fun replica => (replica.byzantine, decision params replica 0 5)) =
        [(false, some 1000), (false, none), (false, none), (false, some 1003)] ∧
      ¬ net.Agreement params := by
  dsimp only
  exact disagreement_of_run 0 3 rfl rfl rfl (by decide)

end Network

end Primary
end DelegatedRingCT
