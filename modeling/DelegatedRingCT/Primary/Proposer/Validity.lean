import DelegatedRingCT.Primary.Proposer.Loop

/-!
# Validity on one replica

A hash is *proposed* for an election instance `(round, election_id)` when some header of that
round lists it for that election.  Given a set of headers, a replica is valid when every hash
its elections hold is proposed for the election's instance and every vote it buffers is
proposed for the vote's own instance.

One iteration of the loop keeps a replica valid, provided the message it handles is valid: a
header from the set, or a vote whose hash is proposed for its instance.  The votes it sends are
then valid too.  The implicit and own votes of `process_header` carry a pair of the header; the
voting rules only report hashes the election was given (`transition_holds`); and every vote is
stored or buffered under its own instance.
-/

namespace DelegatedRingCT
namespace Primary

/-- Some header of the round lists `(tx_hash, election_id)`. -/
def Proposed (headers : List Header) (round : Round) (electionId : ElectionId)
    (txHash : TxHash) : Prop :=
  ∃ header ∈ headers, header.round = round ∧ (txHash, electionId) ∈ header.votes

/-- A vote is valid when its hash is proposed for its own election instance. -/
def ValidVote (headers : List Header) (vote : Vote) : Prop :=
  Proposed headers vote.proposalRound vote.electionId vote.txHash

theorem Proposed.mono {headers more : List Header} {round : Round} {electionId : ElectionId}
    {txHash : TxHash} (proposed : Proposed headers round electionId txHash)
    (sub : headers ⊆ more) : Proposed more round electionId txHash :=
  let ⟨header, member, facts⟩ := proposed
  ⟨header, sub member, facts⟩

@[simp] theorem votes_sendOwn (own : Option Vote) :
    Outbound.votes (Proposer.sendOwn own) = own.toList := by
  cases own <;> rfl

namespace Proposer

/-- Every hash in an election is proposed for its instance, and every buffered vote for its own. -/
structure Valid (headers : List Header) (proposer : Proposer) : Prop where
  elections : ∀ round electionId election, proposer.election? round electionId = some election →
    election.Holds (Proposed headers round electionId)
  pending : ∀ round votes, proposer.pendingVotes.lookup round = some votes →
    ∀ vote ∈ votes, ValidVote headers vote

section Valid

variable {headers : List Header}

theorem valid_new (name : PublicKey) (headerSize : Nat) (byzantine : Bool) :
    (new name headerSize byzantine).Valid headers :=
  ⟨fun _ _ _ found => by simp [new, election?, roundElections] at found,
    fun _ _ found => by simp [new] at found⟩

theorem Valid.mono {proposer : Proposer} (valid : proposer.Valid headers) {more : List Header}
    (sub : headers ⊆ more) : proposer.Valid more :=
  ⟨fun _ _ _ found => (valid.elections _ _ _ found).mono fun _ proposed => proposed.mono sub,
    fun _ _ found vote member => (valid.pending _ _ found vote member).mono sub⟩

theorem Valid.congr {proposer other : Proposer} (valid : proposer.Valid headers)
    (elections : other.elections = proposer.elections)
    (pendingVotes : other.pendingVotes = proposer.pendingVotes) : other.Valid headers := by
  refine ⟨fun round electionId election found => ?_, fun round votes found => ?_⟩
  · exact valid.elections round electionId election
      (by simpa [election?, roundElections, elections] using found)
  · exact valid.pending round votes (pendingVotes ▸ found)

theorem Valid.setElection {proposer : Proposer} (valid : proposer.Valid headers)
    {round : Round} {electionId : ElectionId} {election : Election}
    (holds : election.Holds (Proposed headers round electionId)) :
    (proposer.setElection round electionId election).Valid headers := by
  refine ⟨fun round' electionId' election' found => ?_, valid.pending⟩
  rw [election?_setElection] at found
  split at found
  · next same =>
      obtain ⟨rfl, rfl⟩ := same
      exact Option.some.inj found ▸ holds
  · exact valid.elections _ _ _ found

/-- What a valid replica keeps over a stretch of its run: it stays valid, and every vote it sends
is valid. -/
def KeepsValid (headers : List Header) (before after : Proposer) (out : List Outbound) : Prop :=
  before.Valid headers → after.Valid headers ∧ ∀ own ∈ Outbound.votes out, ValidVote headers own

theorem keepsValid_refl (proposer : Proposer) : KeepsValid headers proposer proposer [] :=
  fun valid => ⟨valid, by simp⟩

theorem KeepsValid.trans {first second third : Proposer} {out more : List Outbound}
    (early : KeepsValid headers first second out) (late : KeepsValid headers second third more) :
    KeepsValid headers first third (out ++ more) := fun valid =>
  have ⟨middle, earlyVotes⟩ := early valid
  have ⟨final, lateVotes⟩ := late middle
  ⟨final, fun own member => (List.mem_append.mp (by simpa using member)).elim
    (earlyVotes own) (lateVotes own)⟩

theorem Valid.bufferVote {proposer : Proposer} (valid : proposer.Valid headers) {vote : Vote}
    (voteValid : ValidVote headers vote) : (proposer.bufferVote vote).Valid headers := by
  refine ⟨valid.elections, fun round votes found buffered member => ?_⟩
  simp only [Proposer.bufferVote] at found
  by_cases sameRound : round = vote.proposalRound
  · subst sameRound
    simp only [AList.lookup_insert, Option.some.injEq] at found
    subst found
    rcases mem_insertSorted member with rfl | old
    · exact voteValid
    · cases previous : proposer.pendingVotes.lookup vote.proposalRound with
      | none => simp [previous] at old
      | some votes => exact valid.pending _ votes previous _ (by simpa [previous] using old)
  · rw [AList.lookup_insert_ne sameRound] at found
    exact valid.pending _ _ found _ member

theorem Valid.processVote {params : Params} {proposer next : Proposer} {vote : Vote}
    {out : List Outbound} (valid : proposer.Valid headers) (voteValid : ValidVote headers vote)
    (processed : proposer.processVote params vote = some (next, out)) :
    next.Valid headers ∧ ∀ own ∈ Outbound.votes out, ValidVote headers own := by
  rcases processVote_cases processed with ⟨rfl, rfl⟩ | ⟨-, rfl, rfl⟩ |
      ⟨election, outcome, stored, -, ruled, rfl, rfl⟩
  · exact keepsValid_refl _ valid
  · exact ⟨valid.bufferVote voteValid, by simp⟩
  · obtain ⟨holds, ownValid⟩ :=
      transition_holds (valid.elections _ _ _ stored) voteValid ruled
    have settled := valid.setElection holds
    refine ⟨?_, fun own member => ?_⟩
    · unfold afterOutcome
      split
      · exact settled.congr rfl rfl
      · exact settled
    · have emitted : outcome.own = some own := by simpa using member
      obtain ⟨electionId, proposalRound, -, -⟩ := transition_own ruled emitted
      unfold ValidVote
      rw [electionId, proposalRound]
      exact ownValid own emitted

theorem Valid.castHeaderVote {proposer : Proposer} (valid : proposer.Valid headers)
    {header : Header} (known : header ∈ headers) {txHash : TxHash} {electionId : ElectionId}
    (listed : (txHash, electionId) ∈ header.votes) :
    (proposer.castHeaderVote header txHash electionId).1.Valid headers ∧
      ∀ own ∈ Outbound.votes (proposer.castHeaderVote header txHash electionId).2,
        ValidVote headers own := by
  have proposed : Proposed headers header.round electionId txHash := ⟨header, known, rfl, listed⟩
  have opened : (((proposer.election? header.round electionId).getD Election.new).insertVote
      (implicitVote header txHash electionId)).Holds
        (Proposed headers header.round electionId) := by
    refine Election.Holds.insertVote ?_ proposed
    cases stored : proposer.election? header.round electionId with
    | none => exact Election.holds_new
    | some election => exact valid.elections _ _ _ stored
  rw [castHeaderVote_eq, openElection_eq]
  split
  · refine ⟨Valid.setElection ?_ opened, by simp⟩
    exact valid.congr rfl rfl
  · refine ⟨Valid.setElection ?_ (opened.insertVote proposed), ?_⟩
    · exact valid.congr rfl rfl
    · simp only [Outbound.votes, List.filterMap_cons, List.filterMap_nil, List.mem_singleton]
      rintro own rfl
      exact proposed

theorem Valid.castHeaderVotes {header : Header} (known : header ∈ headers)
    {proposer : Proposer} (valid : proposer.Valid headers) :
    (castHeaderVotes header proposer header.votes).1.Valid headers ∧
      ∀ own ∈ Outbound.votes (castHeaderVotes header proposer header.votes).2,
        ValidVote headers own :=
  castHeaderVotes_rec header (KeepsValid headers) keepsValid_refl KeepsValid.trans
    (fun listed valid => valid.castHeaderVote known listed) proposer valid

theorem Valid.processVotes {params : Params} {proposer final : Proposer} {votes : List Vote}
    {out : List Outbound} (valid : proposer.Valid headers)
    (votesValid : ∀ vote ∈ votes, ValidVote headers vote)
    (processed : processVotes params proposer votes = some (final, out)) :
    final.Valid headers ∧ ∀ own ∈ Outbound.votes out, ValidVote headers own :=
  processVotes_rec (KeepsValid headers) keepsValid_refl KeepsValid.trans
    (fun member step valid => valid.processVote (votesValid _ member) step) processed valid

theorem Valid.recordHeader {proposer : Proposer} (valid : proposer.Valid headers)
    (header : Header) : (proposer.recordHeader header).Valid headers := by
  refine ⟨fun round electionId election found => ?_, valid.pending⟩
  rw [election?_recordHeader] at found
  exact valid.elections round electionId election found

theorem Valid.erasePending {proposer : Proposer} (valid : proposer.Valid headers) (round : Round) :
    ({ proposer with pendingVotes := proposer.pendingVotes.erase round } : Proposer).Valid
      headers :=
  ⟨valid.elections, fun round' votes erased => valid.pending round' votes <| by
    by_cases same : round' = round
    · rw [same, AList.lookup_erase] at erased
      cases erased
    · rwa [AList.lookup_erase_ne same] at erased⟩

theorem Valid.processHeader {params : Params} {proposer next : Proposer} {header : Header}
    {out : List Outbound} (valid : proposer.Valid headers) (known : header ∈ headers)
    (processed : proposer.processHeader params header = some (next, out)) :
    next.Valid headers ∧ ∀ own ∈ Outbound.votes out, ValidVote headers own := by
  rcases processHeader_cases processed with ⟨rfl, rfl⟩ | ⟨-, more, drained, rfl⟩
  · exact keepsValid_refl _ valid
  refine KeepsValid.trans (fun valid => valid.castHeaderVotes known) (fun loop => ?_)
    (valid.recordHeader header)
  rcases drainPending_cases drained with ⟨rfl, rfl⟩ | ⟨pending, found, drained⟩
  · exact keepsValid_refl _ loop
  · exact Valid.processVotes (loop.erasePending _) (loop.pending _ _ found) drained

/-- What a message handed to a replica must satisfy: a header is one of the known headers, and
a vote is valid. -/
def EventValid (headers : List Header) : Event → Prop
  | .primary (.header header) => header ∈ headers
  | .primary (.vote vote) => ValidVote headers vote
  | _ => True

theorem Valid.handle {params : Params} {proposer next : Proposer} {event : Event}
    {out : List Outbound} (valid : proposer.Valid headers) (eventValid : EventValid headers event)
    (handled : proposer.handle params event = some (next, out)) :
    next.Valid headers ∧ ∀ own ∈ Outbound.votes out, ValidVote headers own := by
  rcases handle_cases handled with ⟨proposals, -, made⟩ | ⟨header, rfl, processed⟩ |
      ⟨vote, rfl, processed⟩ | ⟨round, electionId, voteRound, rfl, rfl⟩ | ⟨proposals, rfl, rfl⟩
  · have header : (({ proposer with proposals } : Proposer).makeHeader params).1.Valid headers ∧
        Outbound.votes (({ proposer with proposals } : Proposer).makeHeader params).2 = [] :=
      ⟨valid.congr (makeHeader_elections _ _) (makeHeader_pendingVotes _ _), makeHeader_votes _ _⟩
    rw [made] at header
    exact ⟨header.1, by simp [header.2]⟩
  · exact valid.processHeader eventValid processed
  · exact valid.processVote eventValid processed
  · refine ⟨?_, by simp⟩
    rcases expireTally_cases proposer round electionId voteRound with
      ⟨_, stored, expired⟩ | expired <;>
      rw [expired]
    exacts [valid.setElection ((valid.elections _ _ _ stored).expire voteRound), valid]
  · exact ⟨valid.congr rfl rfl, by simp⟩

end Valid

end Proposer
end Primary
end DelegatedRingCT
