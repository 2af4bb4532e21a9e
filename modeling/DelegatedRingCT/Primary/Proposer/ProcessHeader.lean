import DelegatedRingCT.Primary.Proposer.ProcessVote

/-!
# `process_header`

`Proposer::process_header` records the header, makes sure `elections[header.round]` exists and
then, for every proposal `(tx_hash, election_id)` of the header, materialises the author's
implicit vote at vote-round 0, creates the election if needed and, unless the header is its
own, casts and broadcasts this replica's own vote for the same proposal.  Last, it drains
`pending_votes[header.round]` through `process_vote`.

The proposal loop is `castHeaderVotes` and the drain is `processVotes`, both structurally
recursive over their lists, so that facts about one proposal or one pending vote lift to the
whole handler by induction.
-/

namespace DelegatedRingCT
namespace Primary
namespace Proposer

/-- The implicit vote a header carries for one of its proposals. -/
def implicitVote (header : Header) (txHash : TxHash) (electionId : ElectionId) : Vote :=
  { round := 0, txHash, electionId, proposalRound := header.round, commit := false,
    author := header.author, headerId := header.id }

/-- Record an election created by a header as active, unless it is already active or decided. -/
def activate (proposer : Proposer) (electionId : ElectionId) : Proposer :=
  { proposer with
    activeElections :=
      if electionId ∉ proposer.activeElections ∧ electionId ∉ proposer.decided then
        proposer.activeElections ++ [electionId]
      else proposer.activeElections }

/-- The `match elections.get_mut(&election_id)` of the proposal loop: the implicit vote goes into
the existing election, or into a new one, which is then recorded as active. -/
def openElection (proposer : Proposer) (round : Round) (electionId : ElectionId) (vote : Vote) :
    Proposer × Election :=
  match proposer.election? round electionId with
  | some election => (proposer, election.insertVote vote)
  | none => (proposer.activate electionId, Election.new.insertVote vote)

/-- One iteration of the proposal loop of `process_header`. -/
def castHeaderVote (proposer : Proposer) (header : Header) (txHash : TxHash)
    (electionId : ElectionId) : Proposer × List Outbound :=
  let vote := implicitVote header txHash electionId
  let proposer := { proposer with proposals := proposer.proposals.filter fun p => p.2 ≠ electionId }
  let (proposer, election) := proposer.openElection header.round electionId vote
  if vote.author = proposer.name then (proposer.setElection header.round electionId election, [])
  else
    let own := { vote with author := proposer.name }
    (proposer.setElection header.round electionId (election.insertVote own),
      [{ recipients := .addresses, message := .vote own }])

/-- The proposal loop of `process_header`. -/
def castHeaderVotes (header : Header) :
    Proposer → List (TxHash × ElectionId) → Proposer × List Outbound
  | proposer, [] => (proposer, [])
  | proposer, (txHash, electionId) :: rest =>
      let (next, out) := proposer.castHeaderVote header txHash electionId
      let (final, more) := castHeaderVotes header next rest
      (final, out ++ more)

/-- `process_vote` on each vote of a list, in order; `none` if one of them panics. -/
def processVotes (params : Params) : Proposer → List Vote → Option (Proposer × List Outbound)
  | proposer, [] => some (proposer, [])
  | proposer, vote :: votes => do
      let (next, out) ← proposer.processVote params vote
      let (final, more) ← processVotes params next votes
      pure (final, out ++ more)

/-- What `process_header` writes before its proposal loop. -/
def recordHeader (proposer : Proposer) (header : Header) : Proposer :=
  { proposer with
    decidedElections := proposer.decidedElections.insert header.id false
    elections := if header.round ∈ proposer.elections then proposer.elections
      else proposer.elections.insert header.round ∅
    votes := proposer.votes.insert header.id header.votes }

/-- Take the pending votes of a round out of `pending_votes` and process them. -/
def drainPending (params : Params) (proposer : Proposer) (round : Round) :
    Option (Proposer × List Outbound) :=
  match proposer.pendingVotes.lookup round with
  | none => some (proposer, [])
  | some pending =>
      processVotes params
        { proposer with pendingVotes := proposer.pendingVotes.erase round } pending

/-- `process_header`; `none` is a panic of a re-processed pending vote. -/
def processHeader (params : Params) (proposer : Proposer) (header : Header) :
    Option (Proposer × List Outbound) :=
  if proposer.byzantine then some (proposer, []) else
  let (proposer, out) := castHeaderVotes header (proposer.recordHeader header) header.votes
  (drainPending params proposer header.round).map fun (final, more) => (final, out ++ more)

/-! ## Structure of the handler -/

theorem openElection_eq (proposer : Proposer) (round : Round) (electionId : ElectionId)
    (vote : Vote) :
    proposer.openElection round electionId vote =
      ({ proposer with
          activeElections :=
            if (proposer.election? round electionId).isNone ∧
                electionId ∉ proposer.activeElections ∧ electionId ∉ proposer.decided then
              proposer.activeElections ++ [electionId]
            else proposer.activeElections },
        ((proposer.election? round electionId).getD Election.new).insertVote vote) := by
  unfold openElection activate
  split <;> simp_all

theorem castHeaderVote_eq (proposer : Proposer) (header : Header) (txHash : TxHash)
    (electionId : ElectionId) :
    let opened := openElection
      { proposer with proposals := proposer.proposals.filter fun p => p.2 ≠ electionId }
      header.round electionId (implicitVote header txHash electionId)
    proposer.castHeaderVote header txHash electionId =
      if header.author = proposer.name then
        (opened.1.setElection header.round electionId opened.2, [])
      else
        (opened.1.setElection header.round electionId
            (opened.2.insertVote
              { implicitVote header txHash electionId with author := proposer.name }),
          [{ recipients := .addresses,
             message :=
              .vote { implicitVote header txHash electionId with author := proposer.name } }]) := by
  simp only [castHeaderVote, openElection_eq]
  rfl

@[simp] theorem castHeaderVotes_nil (header : Header) (proposer : Proposer) :
    castHeaderVotes header proposer [] = (proposer, []) := rfl

theorem castHeaderVotes_cons (header : Header) (proposer : Proposer) (txHash : TxHash)
    (electionId : ElectionId) (rest : List (TxHash × ElectionId)) :
    castHeaderVotes header proposer ((txHash, electionId) :: rest) =
      ((castHeaderVotes header (proposer.castHeaderVote header txHash electionId).1 rest).1,
        (proposer.castHeaderVote header txHash electionId).2 ++
          (castHeaderVotes header (proposer.castHeaderVote header txHash electionId).1 rest).2) :=
  rfl

@[simp] theorem processVotes_nil (params : Params) (proposer : Proposer) :
    processVotes params proposer [] = some (proposer, []) := rfl

theorem processVotes_cons {params : Params} {proposer final : Proposer} {vote : Vote}
    {votes : List Vote} {out : List Outbound}
    (processed : processVotes params proposer (vote :: votes) = some (final, out)) :
    ∃ next first rest, proposer.processVote params vote = some (next, first) ∧
      processVotes params next votes = some (final, rest) ∧ out = first ++ rest := by
  simp only [processVotes, Option.bind_eq_bind] at processed
  cases first : proposer.processVote params vote with
  | none => simp [first] at processed
  | some step =>
      cases rest : processVotes params step.1 votes with
      | none => simp [first, rest] at processed
      | some tail =>
          simp only [first, rest, Option.some_bind, Option.pure_def, Option.some.injEq,
            Prod.mk.injEq] at processed
          exact ⟨step.1, step.2, tail.2, rfl, by rw [rest, ← processed.1], processed.2.symm⟩

theorem castHeaderVotes_rec (header : Header) (R : Proposer → Proposer → List Outbound → Prop)
    (refl : ∀ proposer, R proposer proposer [])
    (trans : ∀ {first second third : Proposer} {out more : List Outbound},
      R first second out → R second third more → R first third (out ++ more))
    {proposals : List (TxHash × ElectionId)}
    (step : ∀ {proposer : Proposer} {txHash : TxHash} {electionId : ElectionId},
      (txHash, electionId) ∈ proposals →
      R proposer (proposer.castHeaderVote header txHash electionId).1
        (proposer.castHeaderVote header txHash electionId).2)
    (proposer : Proposer) :
    R proposer (castHeaderVotes header proposer proposals).1
      (castHeaderVotes header proposer proposals).2 := by
  induction proposals generalizing proposer with
  | nil => exact refl proposer
  | cons proposal rest induction =>
      rw [castHeaderVotes_cons]
      exact trans (step (.head _)) (induction (fun member => step (.tail _ member)) _)

theorem processVotes_rec {params : Params} (R : Proposer → Proposer → List Outbound → Prop)
    (refl : ∀ proposer, R proposer proposer [])
    (trans : ∀ {first second third : Proposer} {out more : List Outbound},
      R first second out → R second third more → R first third (out ++ more))
    {votes : List Vote}
    (step : ∀ {proposer next : Proposer} {vote : Vote} {out : List Outbound}, vote ∈ votes →
      proposer.processVote params vote = some (next, out) → R proposer next out)
    {proposer final : Proposer} {out : List Outbound}
    (processed : processVotes params proposer votes = some (final, out)) :
    R proposer final out := by
  induction votes generalizing proposer out with
  | nil =>
      simp only [processVotes_nil, Option.some.injEq, Prod.mk.injEq] at processed
      obtain ⟨rfl, rfl⟩ := processed
      exact refl proposer
  | cons vote votes induction =>
      obtain ⟨next, first, rest, head, tail, rfl⟩ := processVotes_cons processed
      exact trans (step (.head _) head) (induction (fun member => step (.tail _ member)) tail)

theorem election?_recordHeader (proposer : Proposer) (header : Header) (round : Round)
    (electionId : ElectionId) :
    (proposer.recordHeader header).election? round electionId =
      proposer.election? round electionId := by
  unfold Proposer.recordHeader election? roundElections
  split_ifs with present
  · rfl
  · by_cases same : round = header.round
    · subst same
      simp [AList.lookup_insert, AList.lookup_eq_none.mpr present]
    · simp [AList.lookup_insert_ne same]

theorem drainPending_cases {params : Params} {proposer next : Proposer} {round : Round}
    {out : List Outbound} (drained : drainPending params proposer round = some (next, out)) :
    (next = proposer ∧ out = []) ∨
      ∃ pending, proposer.pendingVotes.lookup round = some pending ∧
        processVotes params { proposer with pendingVotes := proposer.pendingVotes.erase round }
          pending = some (next, out) := by
  unfold drainPending at drained
  split at drained
  · simp only [Option.some.injEq, Prod.mk.injEq] at drained
    exact .inl ⟨drained.1.symm, drained.2.symm⟩
  · next pending found => exact .inr ⟨pending, found, drained⟩

theorem processHeader_cases {params : Params} {proposer next : Proposer} {header : Header}
    {out : List Outbound} (processed : proposer.processHeader params header = some (next, out)) :
    (next = proposer ∧ out = []) ∨
      (proposer.byzantine = false ∧ ∃ more,
        drainPending params (castHeaderVotes header (proposer.recordHeader header) header.votes).1
          header.round = some (next, more) ∧
        out = (castHeaderVotes header (proposer.recordHeader header) header.votes).2 ++ more) := by
  unfold processHeader at processed
  split at processed
  · simp only [Option.some.injEq, Prod.mk.injEq] at processed
    exact .inl ⟨processed.1.symm, processed.2.symm⟩
  next honest =>
  obtain ⟨⟨final, more⟩, drained, result⟩ := Option.map_eq_some'.mp processed
  simp only [Prod.mk.injEq] at result
  exact .inr ⟨by simpa using honest, more, result.1 ▸ drained, result.2.symm⟩

/-- A relation every step of `process_header` establishes holds of the whole handler. -/
theorem processHeader_rec {params : Params} {header : Header}
    (R : Proposer → Proposer → List Outbound → Prop) (refl : ∀ proposer, R proposer proposer [])
    (trans : ∀ {first second third : Proposer} {out more : List Outbound},
      R first second out → R second third more → R first third (out ++ more))
    (record : ∀ proposer : Proposer, R proposer (proposer.recordHeader header) [])
    (cast : ∀ {proposer : Proposer} {txHash : TxHash} {electionId : ElectionId},
      R proposer (proposer.castHeaderVote header txHash electionId).1
        (proposer.castHeaderVote header txHash electionId).2)
    (erase : ∀ proposer : Proposer,
      R proposer { proposer with pendingVotes := proposer.pendingVotes.erase header.round } [])
    (vote : ∀ {proposer next : Proposer} {vote : Vote} {out : List Outbound},
      proposer.processVote params vote = some (next, out) → R proposer next out)
    {proposer next : Proposer} {out : List Outbound}
    (processed : proposer.processHeader params header = some (next, out)) : R proposer next out := by
  rcases processHeader_cases processed with ⟨rfl, rfl⟩ | ⟨-, more, drained, rfl⟩
  · exact refl _
  let recorded := proposer.recordHeader header
  have loop : R recorded (castHeaderVotes header recorded header.votes).1
      (castHeaderVotes header recorded header.votes).2 :=
    castHeaderVotes_rec header R refl trans (fun _ => cast) recorded
  replace loop := trans (record proposer) loop
  rcases drainPending_cases drained with ⟨rfl, rfl⟩ | ⟨_, -, drained⟩
  · simpa using loop
  · simpa using trans loop
      (trans (erase _) (processVotes_rec R refl trans (fun _ step => vote step) drained))

end Proposer
end Primary
end DelegatedRingCT
