import DelegatedRingCT.Primary.Proposer.Loop

/-!
# Invariants of what a replica stores

Many facts about a replica are facts about what it stores: each election it holds, under its
instance `(round, election_id)`, and each vote it buffers in `pending_votes`.  The loop writes an
election in four ways only: the voting rules of `process_vote`, the implicit vote and the own vote
of the proposal loop of `process_header`, and an expiring tally timer; it buffers a vote as it
came.  So such a fact survives every iteration of the loop once it survives those four writes,
given that the messages handed to the replica satisfy it too.  `Stores.handle` proves this once,
for every such fact; each invariant then only discharges the four obligations of `Preserved`.
-/

namespace DelegatedRingCT
namespace Primary
namespace Proposer

/-- Every election the replica holds satisfies `E` at its instance, and every vote it buffers
satisfies `B`; both may depend on the replica's name. -/
structure Stores (E : PublicKey → Round → ElectionId → Election → Prop)
    (B : PublicKey → Vote → Prop) (proposer : Proposer) : Prop where
  elections : ∀ round electionId election, proposer.election? round electionId = some election →
    E proposer.name round electionId election
  pending : ∀ round votes, proposer.pendingVotes.lookup round = some votes →
    ∀ vote ∈ votes, B proposer.name vote

/-- What a fact about stored elections must survive, write by write, under the parameters of the
run: an election is created empty; the voting rules, on a vote satisfying `B` and an undecided
election, keep `E` and cast own votes satisfying `O`; the implicit vote of a header satisfying `H`
keeps `E`, and so does the replica's own vote on it, which satisfies `O`; an expiring tally timer
keeps `E`. -/
structure Preserved (params : Params) (E : PublicKey → Round → ElectionId → Election → Prop)
    (B : PublicKey → Vote → Prop) (H : PublicKey → Header → Prop) (O : PublicKey → Vote → Prop) :
    Prop where
  new : ∀ name round electionId, E name round electionId Election.new
  transition : ∀ {name : PublicKey} {decidedElections : Map Digest Bool}
    {election : Election} {vote : Vote} {outcome : Outcome},
    E name vote.proposalRound vote.electionId election → B name vote →
    election.decided = false → transition params name decidedElections election vote = some outcome →
    E name vote.proposalRound vote.electionId outcome.election ∧
      ∀ own, outcome.own = some own → O name own
  implicit : ∀ {name : PublicKey} {header : Header} {txHash : TxHash} {electionId : ElectionId}
    {election : Election}, H name header → (txHash, electionId) ∈ header.votes →
    E name header.round electionId election →
    E name header.round electionId (election.insertVote (implicitVote header txHash electionId))
  own : ∀ {name : PublicKey} {header : Header} {txHash : TxHash} {electionId : ElectionId}
    {election : Election}, H name header → (txHash, electionId) ∈ header.votes →
    header.author ≠ name → E name header.round electionId election →
    E name header.round electionId
        (election.insertVote { implicitVote header txHash electionId with author := name }) ∧
      O name { implicitVote header txHash electionId with author := name }
  expire : ∀ {name : PublicKey} {round : Round} {electionId : ElectionId} {election : Election}
    (voteRound : Round), E name round electionId election →
    E name round electionId (election.expire voteRound)

/-- What a message handed to a replica named `name` must satisfy: a header `H`, a vote `B`. -/
def EventHolds (H : PublicKey → Header → Prop) (B : PublicKey → Vote → Prop) (name : PublicKey) :
    Event → Prop
  | .primary (.header header) => H name header
  | .primary (.vote vote) => B name vote
  | _ => True

section Stores

variable {E : PublicKey → Round → ElectionId → Election → Prop} {B : PublicKey → Vote → Prop}
  {H : PublicKey → Header → Prop} {O : PublicKey → Vote → Prop}

theorem stores_new (name : PublicKey) (headerSize : Nat) (byzantine : Bool) :
    (new name headerSize byzantine).Stores E B :=
  ⟨fun _ _ _ found => by simp [new, election?, roundElections] at found,
    fun _ _ found => by simp [new] at found⟩

theorem Stores.congr {proposer other : Proposer} (stores : proposer.Stores E B)
    (name : other.name = proposer.name) (elections : other.elections = proposer.elections)
    (pendingVotes : other.pendingVotes = proposer.pendingVotes) : other.Stores E B := by
  refine ⟨fun round electionId election found => ?_, fun round votes found => ?_⟩
  · rw [name]
    exact stores.elections round electionId election
      (by simpa [election?, roundElections, elections] using found)
  · rw [name]
    exact stores.pending round votes (pendingVotes ▸ found)

theorem Stores.setElection {proposer : Proposer} (stores : proposer.Stores E B) {round : Round}
    {electionId : ElectionId} {election : Election}
    (holds : E proposer.name round electionId election) :
    (proposer.setElection round electionId election).Stores E B := by
  refine ⟨fun round' electionId' election' found => ?_, stores.pending⟩
  rw [election?_setElection] at found
  split at found
  · next same =>
      obtain ⟨rfl, rfl⟩ := same
      exact Option.some.inj found ▸ holds
  · exact stores.elections _ _ _ found

theorem Stores.bufferVote {proposer : Proposer} (stores : proposer.Stores E B) {vote : Vote}
    (buffered : B proposer.name vote) : (proposer.bufferVote vote).Stores E B := by
  refine ⟨stores.elections, fun round votes found member inserted => ?_⟩
  simp only [Proposer.bufferVote] at found
  by_cases sameRound : round = vote.proposalRound
  · subst sameRound
    simp only [AList.lookup_insert, Option.some.injEq] at found
    subst found
    rcases mem_insertSorted inserted with rfl | old
    · exact buffered
    · cases previous : proposer.pendingVotes.lookup vote.proposalRound with
      | none => simp [previous] at old
      | some votes => exact stores.pending _ votes previous _ (by simpa [previous] using old)
  · rw [AList.lookup_insert_ne sameRound] at found
    exact stores.pending _ _ found _ inserted

theorem Stores.recordHeader {proposer : Proposer} (stores : proposer.Stores E B)
    (header : Header) : (proposer.recordHeader header).Stores E B := by
  refine ⟨fun round electionId election found => ?_, stores.pending⟩
  rw [election?_recordHeader] at found
  exact stores.elections round electionId election found

theorem Stores.erasePending {proposer : Proposer} (stores : proposer.Stores E B) (round : Round) :
    ({ proposer with pendingVotes := proposer.pendingVotes.erase round } : Proposer).Stores E B :=
  ⟨stores.elections, fun round' votes erased => stores.pending round' votes <| by
    by_cases same : round' = round
    · rw [same, AList.lookup_erase] at erased
      cases erased
    · rwa [AList.lookup_erase_ne same] at erased⟩

/-- What a stretch of the run keeps of a replica named `name`: its name, and the invariant, with
every vote it sends satisfying `O`. -/
def Keeps (E : PublicKey → Round → ElectionId → Election → Prop) (B : PublicKey → Vote → Prop)
    (O : PublicKey → Vote → Prop) (name : PublicKey) (before after : Proposer)
    (out : List Outbound) : Prop :=
  before.name = name → before.Stores E B →
    after.name = name ∧ after.Stores E B ∧ ∀ own ∈ Outbound.votes out, O name own

theorem keeps_refl (name : PublicKey) (proposer : Proposer) :
    Keeps E B O name proposer proposer [] :=
  fun named stores => ⟨named, stores, by simp⟩

theorem Keeps.trans {name : PublicKey} {first second third : Proposer} {out more : List Outbound}
    (early : Keeps E B O name first second out) (late : Keeps E B O name second third more) :
    Keeps E B O name first third (out ++ more) := fun named stores =>
  have ⟨named', stores', sent⟩ := early named stores
  have ⟨named'', stores'', sent'⟩ := late named' stores'
  ⟨named'', stores'', fun own member => (List.mem_append.mp (by simpa using member)).elim
    (sent own) (sent' own)⟩

theorem Stores.processVote {params : Params} (preserved : Preserved params E B H O)
    {proposer next : Proposer} {vote : Vote} {out : List Outbound} {name : PublicKey}
    (buffered : B name vote) (processed : proposer.processVote params vote = some (next, out)) :
    Keeps E B O name proposer next out := by
  rintro rfl stores
  rcases processVote_cases processed with ⟨rfl, rfl⟩ | ⟨-, rfl, rfl⟩ |
      ⟨election, outcome, stored, undecided, ruled, rfl, rfl⟩
  · exact keeps_refl _ _ rfl stores
  · exact ⟨rfl, stores.bufferVote buffered, by simp⟩
  · obtain ⟨holds, owns⟩ :=
      preserved.transition (stores.elections _ _ _ stored) buffered undecided ruled
    have settled := stores.setElection holds
    have sent : Outbound.votes (sendOwn outcome.own) = outcome.own.toList := by
      cases outcome.own <;> rfl
    refine ⟨?_, ?_, fun own member => owns own (by simpa [sent] using member)⟩
    all_goals unfold afterOutcome; split
    · rfl
    · rfl
    · exact settled.congr rfl rfl rfl
    · exact settled

theorem Stores.castHeaderVote {params : Params} (preserved : Preserved params E B H O)
    {header : Header} {name : PublicKey}
    (holds : H name header) {txHash : TxHash} {electionId : ElectionId}
    (listed : (txHash, electionId) ∈ header.votes) (proposer : Proposer) :
    Keeps E B O name proposer (proposer.castHeaderVote header txHash electionId).1
      (proposer.castHeaderVote header txHash electionId).2 := by
  rintro rfl stores
  have opened : E proposer.name header.round electionId
      (((proposer.election? header.round electionId).getD Election.new).insertVote
        (implicitVote header txHash electionId)) := by
    refine preserved.implicit holds listed ?_
    cases stored : proposer.election? header.round electionId with
    | none => exact preserved.new _ _ _
    | some election => exact stores.elections _ _ _ stored
  rw [castHeaderVote_eq, openElection_eq]
  split
  · refine ⟨rfl, Stores.setElection ?_ opened, by simp⟩
    exact stores.congr rfl rfl rfl
  · next other =>
      obtain ⟨owned, ownHolds⟩ := preserved.own holds listed other opened
      refine ⟨rfl, Stores.setElection ?_ owned, ?_⟩
      · exact stores.congr rfl rfl rfl
      · simp only [Outbound.votes, List.filterMap_cons, List.filterMap_nil, List.mem_singleton]
        rintro own rfl
        exact ownHolds

theorem Stores.processVotes {params : Params} (preserved : Preserved params E B H O)
    {name : PublicKey}
    {votes : List Vote} (buffered : ∀ vote ∈ votes, B name vote) {proposer final : Proposer}
    {out : List Outbound} (processed : processVotes params proposer votes = some (final, out)) :
    Keeps E B O name proposer final out :=
  processVotes_rec (Keeps E B O name) (keeps_refl name) Keeps.trans
    (fun member step => Stores.processVote preserved (buffered _ member) step) processed

theorem Stores.processHeader {params : Params} (preserved : Preserved params E B H O)
    {proposer next : Proposer} {header : Header} {out : List Outbound}
    (holds : H proposer.name header)
    (processed : proposer.processHeader params header = some (next, out)) :
    Keeps E B O proposer.name proposer next out := by
  rcases processHeader_cases processed with ⟨rfl, rfl⟩ | ⟨-, more, drained, rfl⟩
  · exact keeps_refl _ _
  intro named stores
  refine Keeps.trans (castHeaderVotes_rec header (Keeps E B O proposer.name)
      (keeps_refl _) Keeps.trans (fun listed => Stores.castHeaderVote preserved holds listed _) _)
    (fun named' loop => ?_) named (stores.recordHeader header)
  rcases drainPending_cases drained with ⟨rfl, rfl⟩ | ⟨pending, found, drained⟩
  · exact ⟨named', loop, by simp⟩
  · exact Stores.processVotes preserved (named' ▸ loop.pending _ _ found) drained named'
      (loop.erasePending _)

theorem Stores.handle {params : Params} (preserved : Preserved params E B H O)
    {proposer next : Proposer} {event : Event} {out : List Outbound}
    (stores : proposer.Stores E B) (holds : EventHolds H B proposer.name event)
    (handled : proposer.handle params event = some (next, out)) :
    next.Stores E B ∧ next.name = proposer.name ∧
      ∀ own ∈ Outbound.votes out, O proposer.name own := by
  have kept : Keeps E B O proposer.name proposer next out := by
    rcases handle_cases handled with ⟨proposals, -, made⟩ | ⟨header, rfl, processed⟩ |
        ⟨vote, rfl, processed⟩ | ⟨round, electionId, voteRound, rfl, rfl⟩ |
        ⟨proposals, rfl, rfl⟩
    · have header : Keeps E B O proposer.name proposer
          (({ proposer with proposals } : Proposer).makeHeader params).1
          (({ proposer with proposals } : Proposer).makeHeader params).2 := fun named stores =>
        have name : (({ proposer with proposals } : Proposer).makeHeader params).1.name =
            proposer.name := by
          unfold makeHeader; split <;> rfl
        ⟨name.trans named, stores.congr name (makeHeader_elections _ _)
          (makeHeader_pendingVotes _ _), by simp⟩
      rwa [made] at header
    · exact Stores.processHeader preserved holds processed
    · exact Stores.processVote preserved holds processed
    · intro named stores
      refine ⟨?_, ?_, by simp⟩
      · unfold expireTally; split <;> exact named
      · rcases expireTally_cases proposer round electionId voteRound with
          ⟨_, stored, expired⟩ | expired <;>
          rw [expired]
        exacts [stores.setElection (preserved.expire voteRound (stores.elections _ _ _ stored)),
          stores]
    · exact fun named stores => ⟨named, stores.congr rfl rfl rfl, by simp⟩
  obtain ⟨named, stores', sent⟩ := kept rfl stores
  exact ⟨stores', named, sent⟩

end Stores

end Proposer
end Primary
end DelegatedRingCT
