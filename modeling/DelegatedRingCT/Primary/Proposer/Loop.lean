import DelegatedRingCT.Primary.Proposer.ProcessHeader
import Mathlib.Data.List.Sort

/-!
# The proposer's event loop

`Proposer::run` selects between three channels: a `(tx_hash, election_id)` pair from the
workers, which is queued and may trigger `make_header` once `header_size` proposals wait; the
header timer, which triggers `make_header` on any pending proposal; and a message from another
primary, dispatched to `process_header` or `process_vote`.  Both triggers of `make_header` are
guarded by `own_proposals` not holding the current round.  A fourth event, from the absent
`election` module, latches a tally timer to `Expired`.

The main result is that a replica makes at most one header per round: its round never
decreases, `own_proposals` stays strictly increasing, and every header carries the round it
was made in.
-/

namespace DelegatedRingCT
namespace Primary
namespace Proposer

/-- `make_header`: drop proposals whose election is decided or active, drain the rest into a
header of the current round, record the round in `own_proposals` and broadcast the header. -/
def makeHeader (params : Params) (proposer : Proposer) : Proposer × List Outbound :=
  if proposer.byzantine then (proposer, []) else
  let proposals := (proposer.proposals.filter fun p => p.2 ∉ proposer.decided).filter
    fun p => p.2 ∉ proposer.activeElections
  let header : Header :=
    { round := proposer.round, author := proposer.name, votes := proposals,
      id := params.headerDigest proposer.round proposer.name proposals }
  ({ proposer with proposals := [], ownProposals := proposer.ownProposals ++ [proposer.round] },
    [{ recipients := .addresses, message := .header header }])

/-- Modelled from the spec: the tally timer of vote-round `voteRound` of
`elections[round][election_id]` latches to `Expired`. -/
def expireTally (proposer : Proposer) (round : Round) (electionId : ElectionId)
    (voteRound : Round) : Proposer :=
  match proposer.election? round electionId with
  | some election => proposer.setElection round electionId (election.expire voteRound)
  | none => proposer

/-- The events the loop reacts to. -/
inductive Event
  | /-- A `(tx_hash, election_id)` pair on `rx_workers`. -/
    worker (txHash : TxHash) (electionId : ElectionId)
  | /-- The `max_header_delay` timer fires. -/
    timer
  | /-- A message on `rx_primaries`. -/
    primary (message : PrimaryMessage)
  | /-- A tally timer latches to `Expired`. -/
    expire (round : Round) (electionId : ElectionId) (voteRound : Round)
  deriving DecidableEq, Repr

/-- A correct replica queues a pair from its workers. -/
def queueProposal (proposer : Proposer) (txHash : TxHash) (electionId : ElectionId) : Proposer :=
  if proposer.byzantine then proposer
  else { proposer with proposals := proposer.proposals ++ [(txHash, electionId)] }

/-- The guard shared by both triggers of `make_header`: enough proposals wait, and no header
was made in the current round. -/
def makeHeaderIf (params : Params) (proposer : Proposer) (ready : Bool) :
    Proposer × List Outbound :=
  if ready ∧ proposer.round ∉ proposer.ownProposals then proposer.makeHeader params
  else (proposer, [])

/-- One iteration of the loop; `none` is a panic. -/
def handle (params : Params) (proposer : Proposer) : Event → Option (Proposer × List Outbound)
  | .worker txHash electionId =>
      let proposer := proposer.queueProposal txHash electionId
      some (proposer.makeHeaderIf params (proposer.headerSize ≤ proposer.proposals.length))
  | .timer => some (proposer.makeHeaderIf params (0 < proposer.proposals.length))
  | .primary (.header header) => proposer.processHeader params header
  | .primary (.vote vote) => proposer.processVote params vote
  | .primary .certificate => some (proposer, [])
  | .expire round electionId voteRound => some (proposer.expireTally round electionId voteRound, [])

/-- The loop over a sequence of events, collecting everything broadcast. -/
def run (params : Params) (proposer : Proposer) : List Event → Option (Proposer × List Outbound)
  | [] => some (proposer, [])
  | event :: events => do
      let (next, out) ← proposer.handle params event
      let (final, more) ← next.run params events
      pure (final, out ++ more)

theorem queueProposal_eq (proposer : Proposer) (txHash : TxHash) (electionId : ElectionId) :
    ∃ proposals, proposer.queueProposal txHash electionId = { proposer with proposals } := by
  unfold queueProposal
  split
  exacts [⟨_, rfl⟩, ⟨_, rfl⟩]

@[simp] theorem makeHeader_round (params : Params) (proposer : Proposer) :
    (proposer.makeHeader params).1.round = proposer.round := by
  unfold makeHeader; split <;> rfl

@[simp] theorem makeHeader_elections (params : Params) (proposer : Proposer) :
    (proposer.makeHeader params).1.elections = proposer.elections := by
  unfold makeHeader; split <;> rfl

@[simp] theorem makeHeader_pendingVotes (params : Params) (proposer : Proposer) :
    (proposer.makeHeader params).1.pendingVotes = proposer.pendingVotes := by
  unfold makeHeader; split <;> rfl

@[simp] theorem makeHeader_votes (params : Params) (proposer : Proposer) :
    Outbound.votes (proposer.makeHeader params).2 = [] := by
  unfold makeHeader; split <;> rfl

theorem makeHeaderIf_cases (params : Params) (proposer : Proposer) (ready : Bool) :
    (proposer.makeHeaderIf params ready = proposer.makeHeader params ∧
        proposer.round ∉ proposer.ownProposals) ∨
      proposer.makeHeaderIf params ready = (proposer, []) := by
  unfold makeHeaderIf
  split
  · next trigger => exact .inl ⟨rfl, trigger.2⟩
  · exact .inr rfl

/-- Everything one iteration of the loop can do. -/
theorem handle_cases {params : Params} {proposer next : Proposer} {event : Event}
    {out : List Outbound} (handled : proposer.handle params event = some (next, out)) :
    (∃ proposals : List (TxHash × ElectionId), proposer.round ∉ proposer.ownProposals ∧
        ({ proposer with proposals } : Proposer).makeHeader params = (next, out)) ∨
      (∃ header, event = .primary (.header header) ∧
        proposer.processHeader params header = some (next, out)) ∨
      (∃ vote, event = .primary (.vote vote) ∧
        proposer.processVote params vote = some (next, out)) ∨
      (∃ round electionId voteRound,
        next = proposer.expireTally round electionId voteRound ∧ out = []) ∨
      (∃ proposals : List (TxHash × ElectionId),
        next = { proposer with proposals } ∧ out = []) := by
  have triggered (proposals : List (TxHash × ElectionId)) (ready : Bool)
      (made : ({ proposer with proposals } : Proposer).makeHeaderIf params ready = (next, out)) :
      (∃ proposals : List (TxHash × ElectionId), proposer.round ∉ proposer.ownProposals ∧
        ({ proposer with proposals } : Proposer).makeHeader params = (next, out)) ∨
      (∃ proposals : List (TxHash × ElectionId),
        next = { proposer with proposals } ∧ out = []) := by
    rcases makeHeaderIf_cases params { proposer with proposals } ready with
      ⟨header, fresh⟩ | unchanged
    · exact .inl ⟨proposals, fresh, header ▸ made⟩
    · rw [unchanged, Prod.mk.injEq] at made
      exact .inr ⟨proposals, made.1.symm, made.2.symm⟩
  cases event with
  | worker txHash electionId =>
      obtain ⟨proposals, queued⟩ := queueProposal_eq proposer txHash electionId
      simp only [handle, queued, Option.some.injEq] at handled
      rcases triggered proposals _ handled with made | unchanged
      exacts [.inl made, .inr (.inr (.inr (.inr unchanged)))]
  | timer =>
      rcases triggered proposer.proposals _ (Option.some.inj handled) with made | unchanged
      exacts [.inl made, .inr (.inr (.inr (.inr unchanged)))]
  | primary message =>
      cases message with
      | header header => exact .inr (.inl ⟨header, rfl, handled⟩)
      | vote vote => exact .inr (.inr (.inl ⟨vote, rfl, handled⟩))
      | certificate =>
          simp only [handle, Option.some.injEq, Prod.mk.injEq] at handled
          exact .inr (.inr (.inr (.inr ⟨proposer.proposals, handled.1.symm, handled.2.symm⟩)))
  | expire round electionId voteRound =>
      simp only [handle, Option.some.injEq, Prod.mk.injEq] at handled
      exact .inr (.inr (.inr (.inl ⟨round, electionId, voteRound, handled.1.symm, handled.2.symm⟩)))

theorem expireTally_cases (proposer : Proposer) (round : Round) (electionId : ElectionId)
    (voteRound : Round) :
    (∃ election, proposer.election? round electionId = some election ∧
      proposer.expireTally round electionId voteRound =
        proposer.setElection round electionId (election.expire voteRound)) ∨
      proposer.expireTally round electionId voteRound = proposer := by
  unfold expireTally
  split
  · next election stored => exact .inl ⟨election, stored, rfl⟩
  · exact .inr rfl

theorem run_cons {params : Params} {proposer final : Proposer} {event : Event}
    {events : List Event} {out : List Outbound}
    (ran : proposer.run params (event :: events) = some (final, out)) :
    ∃ next first rest, proposer.handle params event = some (next, first) ∧
      next.run params events = some (final, rest) ∧ out = first ++ rest := by
  simp only [run, Option.bind_eq_bind] at ran
  cases first : proposer.handle params event with
  | none => simp [first] at ran
  | some step =>
      cases rest : step.1.run params events with
      | none => simp [first, rest] at ran
      | some tail =>
          simp only [first, rest, Option.some_bind, Option.pure_def, Option.some.injEq,
            Prod.mk.injEq] at ran
          exact ⟨step.1, step.2, tail.2, rfl, by rw [rest, ← ran.1], ran.2.symm⟩

theorem run_concat {params : Params} {proposer middle final : Proposer}
    {events : List Event} {event : Event} {out more : List Outbound}
    (ran : proposer.run params events = some (middle, out))
    (handled : middle.handle params event = some (final, more)) :
    proposer.run params (events ++ [event]) = some (final, out ++ more) := by
  induction events generalizing proposer out with
  | nil =>
      obtain ⟨rfl, rfl⟩ := Prod.mk.inj (Option.some.inj ran)
      simp [run, handled]
  | cons first events induction =>
      obtain ⟨next, head, rest, stepped, tail, rfl⟩ := run_cons ran
      simp [run, stepped, induction tail]

/-- A relation every handler establishes, and that composes, holds of every run. -/
theorem run_rec {params : Params} (R : Proposer → Proposer → List Outbound → Prop)
    (refl : ∀ proposer, R proposer proposer [])
    (trans : ∀ {first second third : Proposer} {out more : List Outbound},
      R first second out → R second third more → R first third (out ++ more))
    (step : ∀ {proposer next : Proposer} {event : Event} {out : List Outbound},
      proposer.handle params event = some (next, out) → R proposer next out)
    {proposer final : Proposer} {events : List Event} {out : List Outbound}
    (ran : proposer.run params events = some (final, out)) : R proposer final out := by
  induction events generalizing proposer out with
  | nil =>
      simp only [run, Option.some.injEq, Prod.mk.injEq] at ran
      obtain ⟨rfl, rfl⟩ := ran
      exact refl proposer
  | cons event events induction =>
      obtain ⟨next, first, rest, head, tail, rfl⟩ := run_cons ran
      exact trans (step head) (induction tail)

/-! ## Runs that go wrong

Four runs of a correct replica `0` with `QUORUM = 3` and `NUMBER_OF_NODES = 4`, fed one header
of replica `1` proposing `tx_hash = 7` for election `5` in round `0`, and then other messages. -/

/-- The unwraps of `decided_elections[x]` and of `votes[header_id]` in `process_vote` panic on
reachable inputs. -/
theorem proposer_decision_unwrap_panics :
    let params : Params :=
      { quorum := 3, numberOfNodes := 4, logsInfo := true, headerDigest := fun _ _ _ => 0 }
    let header : Header := { round := 0, author := 1, votes := [(7, 5)], id := 1001 }
    let commit (author : PublicKey) : Vote :=
      { round := 1, txHash := 7, electionId := 5, proposalRound := 0, commit := true, author,
        headerId := 1001 }
    (new 0 1 false).run params
        [.primary (.header header), .primary (.vote (commit 2)), .primary (.vote (commit 3))] =
      none ∧
    (new 0 1 false).run params
        [.primary (.header header),
          .primary (.vote
            { round := 0, txHash := 8, electionId := 6, proposalRound := 0, commit := false,
              author := 2, headerId := 1002 })] = none := ⟨rfl, rfl⟩

/-- A vote delivered before its round's header is dropped, not buffered. -/
theorem proposer_vote_before_header_dropped :
    let params : Params :=
      { quorum := 3, numberOfNodes := 4, logsInfo := true, headerDigest := fun _ _ _ => 0 }
    let header : Header := { round := 0, author := 1, votes := [(7, 5)], id := 1001 }
    let vote : Vote :=
      { round := 0, txHash := 7, electionId := 5, proposalRound := 0, commit := false,
        author := 2, headerId := 1001 }
    let counted (events : List Event) := ((new 0 1 false).run params events).map fun result =>
      ((result.1.election? 0 5).map fun election => election.votedOrCommitted 2 0,
        (result.1.pendingVotes.lookup 0).isSome)
    counted [.primary (.vote vote), .primary (.header header)] = some (some false, false) ∧
      counted [.primary (.header header), .primary (.vote vote)] = some (some true, false) :=
  ⟨rfl, rfl⟩

/-- Two headers proposing different hashes for one election draw two own votes at vote-round `0`. -/
theorem proposer_equivocates_on_shared_election :
    let params : Params :=
      { quorum := 3, numberOfNodes := 4, logsInfo := true, headerDigest := fun _ _ _ => 0 }
    ((new 0 1 false).run params
        [.primary (.header { round := 0, author := 1, votes := [(7, 5)], id := 1001 }),
          .primary (.header { round := 0, author := 2, votes := [(8, 5)], id := 1002 })]).map
        (fun result => Outbound.votes result.2) =
      some
        [{ round := 0, txHash := 7, electionId := 5, proposalRound := 0, commit := false,
           author := 0, headerId := 1001 },
         { round := 0, txHash := 8, electionId := 5, proposalRound := 0, commit := false,
           author := 0, headerId := 1002 }] := rfl

/-- One commit vote of another replica makes the replica echo a commit vote without any quorum. -/
theorem proposer_echoes_unjustified_commit :
    let params : Params :=
      { quorum := 3, numberOfNodes := 4, logsInfo := true, headerDigest := fun _ _ _ => 0 }
    ((new 0 1 false).run params
        [.primary (.header { round := 0, author := 1, votes := [(7, 5)], id := 1001 }),
          .primary (.vote
            { round := 1, txHash := 7, electionId := 5, proposalRound := 0, commit := true,
              author := 2, headerId := 1001 })]).map
        (fun result => (Outbound.votes result.2,
          (result.1.election? 0 5).map fun election => election.commit)) =
      some
        ([{ round := 0, txHash := 7, electionId := 5, proposalRound := 0, commit := false,
            author := 0, headerId := 1001 },
          { round := 1, txHash := 7, electionId := 5, proposalRound := 0, commit := true,
            author := 0, headerId := 1001 }], some none) := rfl

/-! ## What the message handlers leave alone -/

/-- What the message handlers never do: they only advance the round, keep `own_proposals`, and
broadcast no header. -/
structure Frame (before after : Proposer) (out : List Outbound) : Prop where
  round_le : before.round ≤ after.round
  ownProposals : after.ownProposals = before.ownProposals
  headers : Outbound.headers out = []

theorem Frame.refl (proposer : Proposer) : Frame proposer proposer [] := ⟨le_rfl, rfl, rfl⟩

theorem Frame.trans {first second third : Proposer} {out more : List Outbound}
    (early : Frame first second out) (late : Frame second third more) :
    Frame first third (out ++ more) :=
  ⟨early.round_le.trans late.round_le, late.ownProposals.trans early.ownProposals,
    by simp [early.headers, late.headers]⟩

theorem Frame.silent {first second third : Proposer} {out : List Outbound}
    (late : Frame second third out) (round_le : first.round ≤ second.round)
    (ownProposals : second.ownProposals = first.ownProposals) : Frame first third out := by
  simpa using (⟨round_le, ownProposals, rfl⟩ : Frame first second []).trans late

theorem Frame.setElection (proposer : Proposer) (round : Round) (electionId : ElectionId)
    (election : Election) : Frame proposer (proposer.setElection round electionId election) [] :=
  ⟨le_rfl, rfl, rfl⟩

@[simp] theorem headers_sendOwn (own : Option Vote) : Outbound.headers (sendOwn own) = [] := by
  cases own <;> rfl

theorem processVote_frame {params : Params} {proposer next : Proposer} {vote : Vote}
    {out : List Outbound} (processed : proposer.processVote params vote = some (next, out)) :
    Frame proposer next out := by
  rcases processVote_cases processed with
    ⟨rfl, rfl⟩ | ⟨-, rfl, rfl⟩ | ⟨-, outcome, -, -, -, rfl, rfl⟩
  · exact .refl _
  · exact ⟨le_rfl, rfl, rfl⟩
  · refine ⟨?_, ?_, headers_sendOwn _⟩ <;> unfold afterOutcome <;> split <;> simp

theorem castHeaderVote_frame (proposer : Proposer) (header : Header) (txHash : TxHash)
    (electionId : ElectionId) :
    Frame proposer (proposer.castHeaderVote header txHash electionId).1
      (proposer.castHeaderVote header txHash electionId).2 := by
  rw [castHeaderVote_eq, openElection_eq]
  split <;> exact ⟨le_rfl, rfl, rfl⟩

theorem processHeader_frame {params : Params} {proposer next : Proposer} {header : Header}
    {out : List Outbound} (processed : proposer.processHeader params header = some (next, out)) :
    Frame proposer next out :=
  processHeader_rec Frame Frame.refl Frame.trans (fun _ => ⟨le_rfl, rfl, rfl⟩)
    (castHeaderVote_frame _ _ _ _) (fun _ => ⟨le_rfl, rfl, rfl⟩) processVote_frame processed

/-! ## Fields no handler writes -/

/-- The two fields the loop reads but never writes: the `decided` set, which `make_header` and
`process_header` consult, and `all_proposals`, which the header-commit check consults. -/
structure Unwritten (before after : Proposer) : Prop where
  decided : after.decided = before.decided
  allProposals : after.allProposals = before.allProposals

theorem Unwritten.refl (proposer : Proposer) : Unwritten proposer proposer := ⟨rfl, rfl⟩

theorem Unwritten.trans {first second third : Proposer} (early : Unwritten first second)
    (late : Unwritten second third) : Unwritten first third :=
  ⟨late.decided.trans early.decided, late.allProposals.trans early.allProposals⟩

theorem routeVote_unwritten {params : Params} {proposer next : Proposer} {vote : Vote}
    {out : List Outbound} {check : Option (Map ElectionId Election)}
    (routed : routeVote params proposer vote = some (next, out, check)) :
    Unwritten proposer next := by
  rcases routeVote_cases routed with ⟨rfl, -⟩ | ⟨-, rfl, -⟩ | ⟨-, outcome, -, -, -, rfl, -⟩
  · exact .refl _
  · exact ⟨rfl, rfl⟩
  · unfold afterOutcome; split <;> exact ⟨rfl, rfl⟩

theorem processVote_unwritten {params : Params} {proposer next : Proposer} {vote : Vote}
    {out : List Outbound} (processed : proposer.processVote params vote = some (next, out)) :
    Unwritten proposer next :=
  routeVote_unwritten (routeVote_of_processVote processed).choose_spec

theorem processHeader_unwritten {params : Params} {proposer next : Proposer} {header : Header}
    {out : List Outbound} (processed : proposer.processHeader params header = some (next, out)) :
    Unwritten proposer next :=
  processHeader_rec (fun before after _ => Unwritten before after) Unwritten.refl
    (fun early late => early.trans late) (fun _ => ⟨rfl, rfl⟩)
    (by
      intros
      rw [castHeaderVote_eq, openElection_eq]
      split <;> exact ⟨rfl, rfl⟩)
    (fun _ => ⟨rfl, rfl⟩) processVote_unwritten processed

theorem makeHeader_unwritten (params : Params) (proposer : Proposer) :
    Unwritten proposer (proposer.makeHeader params).1 := by
  unfold makeHeader; split <;> exact ⟨rfl, rfl⟩

theorem handle_unwritten {params : Params} {proposer next : Proposer} {event : Event}
    {out : List Outbound} (handled : proposer.handle params event = some (next, out)) :
    Unwritten proposer next := by
  rcases handle_cases handled with ⟨proposals, -, made⟩ | ⟨_, -, processed⟩ | ⟨_, -, processed⟩ |
      ⟨round, electionId, voteRound, rfl, -⟩ | ⟨proposals, rfl, -⟩
  · have header := makeHeader_unwritten params { proposer with proposals }
    rw [made] at header
    exact ⟨header.decided, header.allProposals⟩
  · exact processHeader_unwritten processed
  · exact processVote_unwritten processed
  · rcases expireTally_cases proposer round electionId voteRound with ⟨_, -, expired⟩ | expired <;>
      rw [expired]
    exacts [⟨rfl, rfl⟩, .refl _]
  · exact ⟨rfl, rfl⟩

theorem run_new_unwritten {params : Params} {name : PublicKey} {headerSize : Nat}
    {byzantine : Bool} {events : List Event} {final : Proposer} {out : List Outbound}
    (ran : (new name headerSize byzantine).run params events = some (final, out)) :
    final.decided = [] ∧ final.allProposals = ∅ :=
  let unwritten := run_rec (fun before after _ => Unwritten before after) Unwritten.refl
    (fun early late => early.trans late) handle_unwritten ran
  ⟨unwritten.decided, unwritten.allProposals⟩

/-! ## One header per round -/

/-- What one iteration of the loop does to the rounds: the round does not decrease, at most one
header goes out, it carries the round and was not made before, and `own_proposals` records it. -/
structure HeaderStep (before after : Proposer) (out : List Outbound) : Prop where
  round_le : before.round ≤ after.round
  single : (Outbound.headers out).length ≤ 1
  current : ∀ header ∈ Outbound.headers out, header.round = before.round
  ownProposals : after.ownProposals = before.ownProposals ++ (Outbound.headers out).map Header.round
  fresh : Outbound.headers out ≠ [] → before.round ∉ before.ownProposals

theorem Frame.headerStep {before after : Proposer} {out : List Outbound}
    (frame : Frame before after out) : HeaderStep before after out :=
  ⟨frame.round_le, by simp [frame.headers], by simp [frame.headers],
    by simp [frame.headers, frame.ownProposals], by simp [frame.headers]⟩

theorem HeaderStep.congr {before same after : Proposer} {out : List Outbound}
    (step : HeaderStep same after out) (round : same.round = before.round)
    (ownProposals : same.ownProposals = before.ownProposals) : HeaderStep before after out := by
  obtain ⟨round_le, single, current, own, fresh⟩ := step
  rw [round] at round_le current fresh
  rw [ownProposals] at own fresh
  exact ⟨round_le, single, current, own, fresh⟩

theorem makeHeader_headerStep (params : Params) (proposer : Proposer)
    (fresh : proposer.round ∉ proposer.ownProposals) :
    HeaderStep proposer (proposer.makeHeader params).1 (proposer.makeHeader params).2 := by
  unfold makeHeader
  split
  · exact (Frame.refl _).headerStep
  · exact ⟨le_rfl, by simp [Outbound.headers], by simp [Outbound.headers],
      by simp [Outbound.headers], fun _ => fresh⟩

theorem handle_headerStep {params : Params} {proposer next : Proposer} {event : Event}
    {out : List Outbound} (handled : proposer.handle params event = some (next, out)) :
    HeaderStep proposer next out := by
  rcases handle_cases handled with ⟨proposals, fresh, made⟩ | ⟨_, -, processed⟩ |
      ⟨_, -, processed⟩ | ⟨round, electionId, voteRound, rfl, rfl⟩ | ⟨proposals, rfl, rfl⟩
  · have step := makeHeader_headerStep params { proposer with proposals } fresh
    rw [made] at step
    exact step.congr rfl rfl
  · exact (processHeader_frame processed).headerStep
  · exact (processVote_frame processed).headerStep
  · rcases expireTally_cases proposer round electionId voteRound with ⟨_, -, expired⟩ | expired <;>
      rw [expired]
    exacts [(Frame.setElection _ _ _ _).headerStep, (Frame.refl _).headerStep]
  · exact Frame.headerStep ⟨le_rfl, rfl, rfl⟩

/-- The rounds of `own_proposals` increase strictly and never exceed the current round. -/
def OwnRounds (proposer : Proposer) : Prop :=
  proposer.ownProposals.Sorted (· < ·) ∧ ∀ round ∈ proposer.ownProposals, round ≤ proposer.round

theorem HeaderStep.ownRounds {before after : Proposer} {out : List Outbound}
    (step : HeaderStep before after out) (rounds : before.OwnRounds) : after.OwnRounds := by
  obtain ⟨sorted, bounded⟩ := rounds
  refine ⟨?_, fun round member => ?_⟩
  · rw [step.ownProposals]
    match made : Outbound.headers out with
    | [] => simpa using sorted
    | [header] =>
        have current : header.round = before.round := step.current header (by simp [made])
        have older : ∀ round ∈ before.ownProposals, round < before.round := fun round member =>
          lt_of_le_of_ne (bounded round member) fun same =>
            step.fresh (by simp [made]) (same ▸ member)
        simpa [List.Sorted, List.pairwise_append, current] using ⟨sorted, older⟩
    | _ :: _ :: _ => simpa [made] using step.single
  · rw [step.ownProposals, List.mem_append] at member
    rcases member with member | member
    · exact (bounded round member).trans step.round_le
    · obtain ⟨header, made, rfl⟩ := List.mem_map.mp member
      exact (step.current header made).le.trans step.round_le

theorem ownRounds_new (name : PublicKey) (headerSize : Nat) (byzantine : Bool) :
    (new name headerSize byzantine).OwnRounds :=
  ⟨List.sorted_nil, fun _ member => by simp [new] at member⟩

theorem run_ownRounds {params : Params} {proposer final : Proposer} {events : List Event}
    {out : List Outbound} (ran : proposer.run params events = some (final, out))
    (rounds : proposer.OwnRounds) :
    final.OwnRounds ∧ proposer.round ≤ final.round ∧
      final.ownProposals = proposer.ownProposals ++ (Outbound.headers out).map Header.round := by
  refine (run_rec (fun before after out => (before.OwnRounds → after.OwnRounds) ∧
      before.round ≤ after.round ∧
      after.ownProposals = before.ownProposals ++ (Outbound.headers out).map Header.round)
    (fun _ => ⟨id, le_rfl, by simp⟩) ?_ (fun step => ?_) ran).imp_left (· rounds)
  · rintro _ _ _ _ _ ⟨early, earlyRound, earlyOwn⟩ ⟨late, lateRound, lateOwn⟩
    exact ⟨late ∘ early, earlyRound.trans lateRound, by simp [lateOwn, earlyOwn]⟩
  · have header := handle_headerStep step
    exact ⟨header.ownRounds, header.round_le, header.ownProposals⟩

/-- The round never decreases and the loop makes headers only of its current round, so no two
headers share a round. -/
theorem proposer_one_header_per_round (params : Params) (proposer : Proposer)
    (rounds : proposer.OwnRounds) (events : List Event) (final : Proposer) (out : List Outbound)
    (ran : proposer.run params events = some (final, out)) :
    (∀ (state next : Proposer) (event : Event) (sent : List Outbound),
        state.handle params event = some (next, sent) →
        state.round ≤ next.round ∧ ∀ header ∈ Outbound.headers sent, header.round = state.round) ∧
      proposer.round ≤ final.round ∧ final.ownProposals.Sorted (· < ·) ∧
      final.ownProposals = proposer.ownProposals ++ (Outbound.headers out).map Header.round ∧
      ((Outbound.headers out).map Header.round).Sorted (· < ·) := by
  obtain ⟨⟨sorted, -⟩, round_le, own⟩ := run_ownRounds ran rounds
  refine ⟨fun _ _ _ _ handled => ?_, round_le, sorted, own, ?_⟩
  · have step := handle_headerStep handled
    exact ⟨step.round_le, step.current⟩
  · rw [own] at sorted
    exact (List.pairwise_append.mp sorted).2.1

theorem proposer_one_header_per_round_worker :
    let params : Params :=
      { quorum := 3, numberOfNodes := 4, logsInfo := true, headerDigest := fun _ _ _ => 0 }
    let start := new 0 1 false
    let final : Proposer := { start with proposals := [(6, 8)], ownProposals := [0] }
    let out : List Outbound :=
      [{ recipients := .addresses,
         message := .header { round := 0, author := 0, votes := [(5, 7)], id := 0 } }]
    start.OwnRounds ∧ start.run params [.worker 5 7, .timer, .worker 6 8] = some (final, out) ∧
      (∀ (state next : Proposer) (event : Event) (sent : List Outbound),
        state.handle params event = some (next, sent) →
        state.round ≤ next.round ∧ ∀ header ∈ Outbound.headers sent, header.round = state.round) ∧
      start.round ≤ final.round ∧ final.ownProposals.Sorted (· < ·) ∧
      final.ownProposals = start.ownProposals ++ (Outbound.headers out).map Header.round ∧
      ((Outbound.headers out).map Header.round).Sorted (· < ·) :=
  ⟨ownRounds_new 0 1 false, rfl, proposer_one_header_per_round _ _ (ownRounds_new 0 1 false)
    [.worker 5 7, .timer, .worker 6 8] _ _ rfl⟩

end Proposer
end Primary
end DelegatedRingCT
