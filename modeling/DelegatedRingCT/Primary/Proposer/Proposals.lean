import DelegatedRingCT.Primary.Proposer.Persistence

/-!
# Where the workers' proposals go

`Proposer::run` queues every `(tx_hash, election_id)` pair a correct replica's workers hand it
in `proposals`.  A pair leaves the queue in two ways only: `make_header` drains the queue into a
header, dropping the pairs whose election is decided or active, and the proposal loop of
`process_header` drops every pair of an election the header proposes, an election it then finds
held or opens.  `active_elections` records each election the replica opens, once.

So a replica neither loses nor makes up proposals.  On every run from `Proposer::spawn`, each
copy of a pair the workers handed over still waits in `proposals`, or went out in one header of
the replica, or was dropped because its election is active; no pair waits or goes out more often
than the workers handed it over; and `active_elections` lists, without repetition, exactly the
elections the replica holds.
-/

namespace DelegatedRingCT
namespace Primary
namespace Proposer

/-- How often a pair is proposed by the headers among `out`. -/
def headerCount (pair : TxHash × ElectionId) (out : List Outbound) : Nat :=
  ((Outbound.headers out).map fun header => header.votes.count pair).sum

@[simp] theorem headerCount_nil (pair : TxHash × ElectionId) : headerCount pair [] = 0 := rfl

@[simp] theorem headerCount_append (pair : TxHash × ElectionId) (out more : List Outbound) :
    headerCount pair (out ++ more) = headerCount pair out + headerCount pair more := by
  simp [headerCount]

theorem headerCount_of_headers {pair : TxHash × ElectionId} {out : List Outbound}
    (silent : Outbound.headers out = []) : headerCount pair out = 0 := by
  simp [headerCount, silent]

@[simp] theorem makeHeader_activeElections (params : Params) (proposer : Proposer) :
    (proposer.makeHeader params).1.activeElections = proposer.activeElections := by
  unfold makeHeader; split <;> rfl

@[simp] theorem castHeaderVote_proposals (proposer : Proposer) (header : Header)
    (txHash : TxHash) (electionId : ElectionId) :
    (proposer.castHeaderVote header txHash electionId).1.proposals =
      proposer.proposals.filter fun p => p.2 ≠ electionId := by
  rw [castHeaderVote_eq, openElection_eq]; split <;> rfl

@[simp] theorem castHeaderVote_decided (proposer : Proposer) (header : Header)
    (txHash : TxHash) (electionId : ElectionId) :
    (proposer.castHeaderVote header txHash electionId).1.decided = proposer.decided := by
  rw [castHeaderVote_eq, openElection_eq]; split <;> rfl

theorem castHeaderVote_activeElections (proposer : Proposer) (header : Header)
    (txHash : TxHash) (electionId : ElectionId) :
    (proposer.castHeaderVote header txHash electionId).1.activeElections =
      (({ proposer with proposals := proposer.proposals.filter (fun p => p.2 ≠ electionId) } :
        Proposer).openElection header.round electionId
          (implicitVote header txHash electionId)).1.activeElections := by
  rw [castHeaderVote_eq]; split <;> rfl

/-! ## `active_elections` -/

/-- `active_elections` lists, without repetition, elections the replica holds, and every
election it holds is listed there or in `decided`. -/
structure Active (proposer : Proposer) : Prop where
  nodup : proposer.activeElections.Nodup
  listed : ∀ electionId ∈ proposer.activeElections,
    ∃ (round : Round) (election : Election), proposer.election? round electionId = some election
  opened : ∀ round electionId election, proposer.election? round electionId = some election →
    electionId ∈ proposer.activeElections ∨ electionId ∈ proposer.decided

theorem active_new (name : PublicKey) (headerSize : Nat) (byzantine : Bool) :
    (new name headerSize byzantine).Active :=
  ⟨List.nodup_nil, fun _ member => (List.not_mem_nil _ member).elim,
    fun _ _ _ found => by simp [election?, roundElections, new] at found⟩

theorem Active.congr {before after : Proposer} (active : before.Active)
    (activeElections : after.activeElections = before.activeElections)
    (decided : after.decided = before.decided)
    (same : ∀ round electionId, after.election? round electionId =
      before.election? round electionId) : after.Active := by
  refine ⟨activeElections ▸ active.nodup, fun electionId member => ?_,
    fun round electionId election found => ?_⟩
  · obtain ⟨round, election, found⟩ := active.listed electionId (activeElections ▸ member)
    exact ⟨round, election, (same round electionId).trans found⟩
  · rw [activeElections, decided]
    exact active.opened round electionId election ((same round electionId).symm.trans found)

theorem Active.setElection {proposer : Proposer} (active : proposer.Active) (round : Round)
    {electionId : ElectionId} (listedId : electionId ∈ proposer.activeElections ∨
      electionId ∈ proposer.decided) (election : Election) :
    (proposer.setElection round electionId election).Active := by
  refine ⟨active.nodup, fun other member => ?_, fun round' other stored found => ?_⟩
  · obtain ⟨round', old, found⟩ := active.listed other member
    by_cases same : round' = round ∧ other = electionId
    · exact ⟨round', election, by rw [election?_setElection, if_pos same]⟩
    · exact ⟨round', old, by rw [election?_setElection, if_neg same, found]⟩
  · rw [election?_setElection] at found
    split at found
    · next same => exact same.2 ▸ listedId
    · exact active.opened round' other stored found

theorem Active.openElection_listed {proposer : Proposer} (active : proposer.Active)
    (round : Round) (electionId : ElectionId) (vote : Vote) :
    electionId ∈ (proposer.openElection round electionId vote).1.activeElections ∨
      electionId ∈ proposer.decided := by
  rw [openElection_eq]
  split
  · exact .inl (List.mem_append_right _ (List.mem_singleton_self _))
  · next closed =>
      cases found : proposer.election? round electionId with
      | some election => exact active.opened round electionId election found
      | none =>
          by_cases listed : electionId ∈ proposer.activeElections
          · exact .inl listed
          · exact .inr (by simpa [found, listed] using closed)

theorem Active.openElection {proposer : Proposer} (active : proposer.Active) (round : Round)
    (electionId : ElectionId) (vote : Vote) (election : Election) :
    ((proposer.openElection round electionId vote).1.setElection round electionId
      election).Active := by
  have listedId := active.openElection_listed round electionId vote
  rw [openElection_eq] at listedId ⊢
  by_cases fresh : (proposer.election? round electionId).isNone ∧
      electionId ∉ proposer.activeElections ∧ electionId ∉ proposer.decided
  · rw [if_pos fresh] at listedId ⊢
    refine ⟨?_, fun other member => ?_, fun round' other stored found => ?_⟩
    · exact active.nodup.append (List.nodup_singleton _) (List.disjoint_singleton.mpr fresh.2.1)
    · rcases List.mem_append.mp member with member | member
      · obtain ⟨round', old, found⟩ := active.listed other member
        by_cases same : round' = round ∧ other = electionId
        · exact ⟨round', _, by rw [election?_setElection, if_pos same]⟩
        · exact ⟨round', old, by rw [election?_setElection, if_neg same]; exact found⟩
      · exact ⟨round, _, by rw [election?_setElection, if_pos ⟨rfl, List.mem_singleton.mp member⟩]⟩
    · rw [election?_setElection] at found
      split at found
      · next same => exact .inl (same.2 ▸ List.mem_append_right _ (List.mem_singleton_self _))
      · exact (active.opened round' other stored found).imp_left (List.mem_append_left _)
  · rw [if_neg fresh] at listedId ⊢
    exact active.setElection round listedId election

theorem Active.castHeaderVote {proposer : Proposer} (active : proposer.Active) (header : Header)
    (txHash : TxHash) (electionId : ElectionId) :
    (proposer.castHeaderVote header txHash electionId).1.Active := by
  have filtered : ({ proposer with
      proposals := proposer.proposals.filter (fun p => p.2 ≠ electionId) } : Proposer).Active :=
    ⟨active.1, active.2, active.3⟩
  rw [castHeaderVote_eq]
  split <;> exact filtered.openElection _ _ _ _

theorem Active.processVote {params : Params} {proposer next : Proposer} {vote : Vote}
    {out : List Outbound} (active : proposer.Active)
    (processed : proposer.processVote params vote = some (next, out)) : next.Active := by
  rcases processVote_cases processed with ⟨rfl, -⟩ | ⟨-, rfl, -⟩ |
      ⟨election, outcome, found, -, -, rfl, -⟩
  · exact active
  · exact ⟨active.1, active.2, active.3⟩
  · have stored :=
      active.setElection vote.proposalRound (active.opened _ _ _ found) outcome.election
    unfold afterOutcome
    split
    exacts [⟨stored.1, stored.2, stored.3⟩, stored]

theorem Active.processHeader {params : Params} {proposer next : Proposer} {header : Header}
    {out : List Outbound} (active : proposer.Active)
    (processed : proposer.processHeader params header = some (next, out)) : next.Active :=
  processHeader_rec (fun before after _ => before.Active → after.Active) (fun _ => id)
    (fun early late => late ∘ early)
    (fun _ active => active.congr rfl rfl (election?_recordHeader _ header))
    (fun active => active.castHeaderVote _ _ _) (fun _ active => ⟨active.1, active.2, active.3⟩)
    (fun processed active => active.processVote processed) processed active

theorem Active.handle {params : Params} {proposer next : Proposer} {event : Event}
    {out : List Outbound} (active : proposer.Active)
    (handled : proposer.handle params event = some (next, out)) : next.Active := by
  rcases handle_cases handled with ⟨proposals, -, made⟩ | ⟨_, -, processed⟩ | ⟨_, -, processed⟩ |
      ⟨round, electionId, voteRound, rfl, -⟩ | ⟨proposals, rfl, -⟩
  · obtain rfl : (({ proposer with proposals } : Proposer).makeHeader params).1 = next :=
      congrArg Prod.fst made
    exact active.congr (makeHeader_activeElections _ _) (makeHeader_unwritten _ _).decided
      fun round electionId => by simp only [election?, roundElections, makeHeader_elections]
  · exact active.processHeader processed
  · exact active.processVote processed
  · rcases expireTally_cases proposer round electionId voteRound with
      ⟨_, found, expired⟩ | expired <;> rw [expired]
    exacts [active.setElection _ (active.opened _ _ _ found) _, active]
  · exact ⟨active.1, active.2, active.3⟩

theorem Active.run {params : Params} {proposer final : Proposer} {events : List Event}
    {out : List Outbound} (active : proposer.Active)
    (ran : proposer.run params events = some (final, out)) : final.Active :=
  run_rec (fun before after _ => before.Active → after.Active) (fun _ => id)
    (fun early late => late ∘ early) (fun handled active => active.handle handled) ran active

/-- `active_elections` lists, without repetition, exactly the elections the replica holds. -/
theorem proposer_active_elections_held (params : Params) (name : PublicKey) (headerSize : Nat)
    (byzantine : Bool) (events : List Event) (final : Proposer) (out : List Outbound)
    (ran : (new name headerSize byzantine).run params events = some (final, out)) :
    final.activeElections.Nodup ∧ ∀ electionId, electionId ∈ final.activeElections ↔
      ∃ (round : Round) (election : Election),
        final.election? round electionId = some election := by
  have active := (active_new name headerSize byzantine).run ran
  have decided := (run_new_unwritten ran).1
  refine ⟨active.nodup, fun electionId => ⟨active.listed electionId, ?_⟩⟩
  rintro ⟨round, election, found⟩
  simpa [decided] using active.opened round electionId election found

/-- A replica's own election `5`, and election `6` opened by another replica's header. -/
theorem proposer_active_elections_held_opened :
    let params : Params :=
      { quorum := 3, numberOfNodes := 4, logsInfo := false, headerDigest := fun _ _ _ => 0 }
    let events : List Event := [.worker 7 5, .worker 8 6,
      .primary (.header { round := 0, author := 1, votes := [(9, 6)], id := 1001 })]
    let result := ((new 0 1 false).run params events).get (by decide)
    result.1.activeElections.Nodup ∧ ∀ electionId, electionId ∈ result.1.activeElections ↔
      ∃ (round : Round) (election : Election),
        result.1.election? round electionId = some election := by
  intro params events result
  exact proposer_active_elections_held params 0 1 false events result.1 result.2
    ((Option.some_get _).symm.trans (congrArg some Prod.mk.eta.symm))

/-! ## Accounting for every pair -/

/-- Where the copies of `pair` went between two states, with `handed` more from the workers:
they still wait in `proposals`, went out in headers, or were dropped, and copies are dropped only
when the pair's election is active or decided.  `active_elections` only grows, and `decided`
stays. -/
structure Accounted (pair : TxHash × ElectionId) (before after : Proposer) (out : List Outbound)
    (handed : Nat) : Prop where
  active : before.activeElections <+: after.activeElections
  decided : after.decided = before.decided
  balance : ∃ dropped, after.proposals.count pair + headerCount pair out + dropped =
      before.proposals.count pair + handed ∧
    (dropped ≠ 0 → pair.2 ∈ after.activeElections ∨ pair.2 ∈ after.decided)

theorem Accounted.refl (pair : TxHash × ElectionId) (proposer : Proposer) :
    Accounted pair proposer proposer [] 0 :=
  ⟨List.prefix_refl _, rfl, 0, rfl, fun nonzero => absurd rfl nonzero⟩

theorem Accounted.trans {pair : TxHash × ElectionId} {first second third : Proposer}
    {out more : List Outbound} {handed more' : Nat} (early : Accounted pair first second out handed)
    (late : Accounted pair second third more more') :
    Accounted pair first third (out ++ more) (handed + more') := by
  obtain ⟨earlyActive, earlyDecided, dropped, earlyBalance, earlyListed⟩ := early
  obtain ⟨lateActive, lateDecided, dropped', lateBalance, lateListed⟩ := late
  refine ⟨earlyActive.trans lateActive, lateDecided.trans earlyDecided, dropped + dropped',
    by rw [headerCount_append]; omega, fun nonzero => ?_⟩
  by_cases first : dropped = 0
  · exact lateListed (by omega)
  · rw [lateDecided]
    exact (earlyListed first).imp_left (lateActive.subset ·)

theorem Accounted.quiet {pair : TxHash × ElectionId} {before after : Proposer}
    {out : List Outbound} (proposals : after.proposals = before.proposals)
    (activeElections : after.activeElections = before.activeElections)
    (decided : after.decided = before.decided) (silent : Outbound.headers out = []) :
    Accounted pair before after out 0 :=
  ⟨activeElections ▸ List.prefix_refl _, decided, 0,
    by rw [proposals, headerCount_of_headers silent], fun nonzero => absurd rfl nonzero⟩

theorem count_filter_dropped (pair : TxHash × ElectionId) (queue : List (TxHash × ElectionId))
    (keep : TxHash × ElectionId → Bool) :
    ∃ dropped, (queue.filter keep).count pair + dropped = queue.count pair ∧
      (dropped ≠ 0 → keep pair = false) := by
  refine ⟨queue.count pair - (queue.filter keep).count pair,
    Nat.add_sub_cancel' ((List.filter_sublist _).count_le _), fun nonzero => ?_⟩
  cases kept : keep pair
  · rfl
  · rw [List.count_filter kept, Nat.sub_self] at nonzero
    exact absurd rfl nonzero

theorem makeHeader_accounted (pair : TxHash × ElectionId) (params : Params)
    (proposer : Proposer) :
    Accounted pair proposer (proposer.makeHeader params).1 (proposer.makeHeader params).2 0 := by
  unfold makeHeader
  split
  · exact .refl pair proposer
  · obtain ⟨dropped, balance, rejected⟩ := count_filter_dropped pair proposer.proposals
      fun p => !decide (p.2 ∈ proposer.activeElections) && !decide (p.2 ∈ proposer.decided)
    refine ⟨List.prefix_refl _, rfl, dropped, ?_, fun nonzero => ?_⟩
    · simpa [headerCount, Outbound.headers, List.filter_filter] using balance
    · exact or_iff_not_imp_left.mpr (by simpa using rejected nonzero)

theorem makeHeaderIf_accounted (pair : TxHash × ElectionId) (params : Params)
    (proposer : Proposer) (ready : Bool) :
    Accounted pair proposer (proposer.makeHeaderIf params ready).1
      (proposer.makeHeaderIf params ready).2 0 := by
  rcases makeHeaderIf_cases params proposer ready with ⟨made, -⟩ | unchanged
  · rw [made]
    exact makeHeader_accounted pair params proposer
  · rw [unchanged]
    exact .refl pair proposer

theorem queueProposal_accounted (pair : TxHash × ElectionId) {proposer : Proposer}
    (correct : proposer.byzantine = false) (txHash : TxHash) (electionId : ElectionId) :
    Accounted pair proposer (proposer.queueProposal txHash electionId) []
      ([(txHash, electionId)].count pair) := by
  refine ⟨?_, ?_, 0, ?_, fun nonzero => absurd rfl nonzero⟩ <;>
    simp [queueProposal, correct, List.count_append]

theorem castHeaderVote_accounted (pair : TxHash × ElectionId) {proposer : Proposer}
    (active : proposer.Active) (header : Header) (txHash : TxHash) (electionId : ElectionId) :
    Accounted pair proposer (proposer.castHeaderVote header txHash electionId).1
      (proposer.castHeaderVote header txHash electionId).2 0 := by
  have filtered : ({ proposer with
      proposals := proposer.proposals.filter (fun p => p.2 ≠ electionId) } : Proposer).Active :=
    ⟨active.1, active.2, active.3⟩
  have listed := filtered.openElection_listed header.round electionId
    (implicitVote header txHash electionId)
  obtain ⟨dropped, balance, rejected⟩ :=
    count_filter_dropped pair proposer.proposals fun p => decide (p.2 ≠ electionId)
  rw [← castHeaderVote_activeElections] at listed
  refine ⟨?_, ?_, dropped, ?_, fun nonzero => ?_⟩
  · rw [castHeaderVote_activeElections, openElection_eq]
    split
    exacts [List.prefix_append _ _, List.prefix_refl _]
  · exact castHeaderVote_decided _ _ _ _
  · rw [castHeaderVote_proposals, headerCount_of_headers (castHeaderVote_frame _ _ _ _).headers]
    simpa using balance
  · have same : pair.2 = electionId := by simpa using rejected nonzero
    rw [same, castHeaderVote_decided]
    exact listed

theorem processVote_accounted (pair : TxHash × ElectionId) {params : Params}
    {proposer next : Proposer} {vote : Vote} {out : List Outbound}
    (processed : proposer.processVote params vote = some (next, out)) :
    Accounted pair proposer next out 0 := by
  have silent := (processVote_frame processed).headers
  rcases processVote_cases processed with ⟨rfl, -⟩ | ⟨-, rfl, -⟩ | ⟨-, outcome, -, -, -, rfl, -⟩
  · exact .quiet rfl rfl rfl silent
  · exact .quiet rfl rfl rfl silent
  · unfold afterOutcome at silent ⊢
    split <;> exact .quiet rfl rfl rfl silent

theorem processHeader_accounted (pair : TxHash × ElectionId) {params : Params}
    {proposer next : Proposer} {header : Header} {out : List Outbound} (active : proposer.Active)
    (processed : proposer.processHeader params header = some (next, out)) :
    Accounted pair proposer next out 0 :=
  (processHeader_rec
    (fun before after out => before.Active → after.Active ∧ Accounted pair before after out 0)
    (fun proposer active => ⟨active, .refl pair proposer⟩)
    (fun early late active =>
      let ⟨middle, first⟩ := early active
      let ⟨last, second⟩ := late middle
      ⟨last, first.trans second⟩)
    (fun _ active => ⟨active.congr rfl rfl (election?_recordHeader _ header),
      .quiet rfl rfl rfl rfl⟩)
    (fun active => ⟨active.castHeaderVote _ _ _, castHeaderVote_accounted pair active _ _ _⟩)
    (fun _ active => ⟨⟨active.1, active.2, active.3⟩, .quiet rfl rfl rfl rfl⟩)
    (fun processed active => ⟨active.processVote processed, processVote_accounted pair processed⟩)
    processed active).2

theorem handle_accounted (pair : TxHash × ElectionId) {params : Params}
    {proposer next : Proposer} {event : Event} {out : List Outbound}
    (correct : proposer.byzantine = false) (active : proposer.Active)
    (handled : proposer.handle params event = some (next, out)) :
    Accounted pair proposer next out ([event].count (.worker pair.1 pair.2)) := by
  cases event with
  | worker txHash electionId =>
      simp only [handle, Option.some.injEq] at handled
      have queued := queueProposal_accounted pair correct txHash electionId
      have made := makeHeaderIf_accounted pair params (proposer.queueProposal txHash electionId)
        ((proposer.queueProposal txHash electionId).headerSize ≤
          (proposer.queueProposal txHash electionId).proposals.length)
      rw [handled] at made
      have counted : [(txHash, electionId)].count pair =
          [Event.worker txHash electionId].count (.worker pair.1 pair.2) := by
        simp only [List.count_singleton, beq_iff_eq, Event.worker.injEq, Prod.ext_iff]
      simpa [counted] using queued.trans made
  | timer =>
      have made := makeHeaderIf_accounted pair params proposer (0 < proposer.proposals.length)
      rw [Option.some.inj handled] at made
      simpa using made
  | primary message =>
      cases message with
      | header header => simpa using processHeader_accounted pair active handled
      | vote vote => simpa using processVote_accounted pair handled
      | certificate =>
          simp only [handle, Option.some.injEq, Prod.mk.injEq] at handled
          obtain ⟨rfl, rfl⟩ := handled
          simpa using Accounted.refl pair proposer
  | expire round electionId voteRound =>
      simp only [handle, Option.some.injEq, Prod.mk.injEq] at handled
      obtain ⟨rfl, rfl⟩ := handled
      have stored :
          Accounted pair proposer (proposer.expireTally round electionId voteRound) [] 0 := by
        rcases expireTally_cases proposer round electionId voteRound with
          ⟨_, -, expired⟩ | expired <;> rw [expired]
        exacts [.quiet rfl rfl rfl rfl, .refl pair proposer]
      simpa using stored

theorem run_accounted (pair : TxHash × ElectionId) {params : Params} {proposer final : Proposer}
    {events : List Event} {out : List Outbound} (correct : proposer.byzantine = false)
    (active : proposer.Active) (ran : proposer.run params events = some (final, out)) :
    Accounted pair proposer final out (events.count (.worker pair.1 pair.2)) := by
  induction events generalizing proposer out with
  | nil =>
      simp only [run, Option.some.injEq, Prod.mk.injEq] at ran
      obtain ⟨rfl, rfl⟩ := ran
      exact .refl pair proposer
  | cons event events induction =>
      obtain ⟨next, first, rest, head, tail, rfl⟩ := run_cons ran
      have step := handle_accounted pair correct active head
      have later := induction ((handle_sends head).byzantine.trans correct)
        (active.handle head) tail
      have counted : (event :: events).count (.worker pair.1 pair.2) =
          [event].count (.worker pair.1 pair.2) + events.count (.worker pair.1 pair.2) := by
        rw [← List.count_append]; rfl
      exact counted ▸ step.trans later

/-- The copies of a worker pair still queued or sent in headers never exceed the pairs handed over,
and match them unless the election is active. -/
theorem proposer_worker_pairs_accounted (params : Params) (name : PublicKey) (headerSize : Nat)
    (events : List Event) (final : Proposer) (out : List Outbound)
    (ran : (new name headerSize false).run params events = some (final, out))
    (txHash : TxHash) (electionId : ElectionId) :
    final.proposals.count (txHash, electionId) + headerCount (txHash, electionId) out ≤
        events.count (.worker txHash electionId) ∧
      (electionId ∉ final.activeElections →
        final.proposals.count (txHash, electionId) + headerCount (txHash, electionId) out =
          events.count (.worker txHash electionId)) := by
  obtain ⟨-, -, dropped, balance, listed⟩ :=
    run_accounted (txHash, electionId) rfl (active_new name headerSize false) ran
  rw [(run_new_unwritten ran).1] at listed
  simp only [new, List.count_nil, Nat.zero_add] at balance
  refine ⟨by omega, fun inactive => ?_⟩
  have kept : dropped = 0 := Decidable.by_contra fun nonzero =>
    (listed nonzero).elim inactive (List.not_mem_nil _)
  omega

/-- The pair `(8, 6)` is dropped when another replica's header opens election `6`. -/
theorem proposer_worker_pairs_accounted_dropped :
    let params : Params :=
      { quorum := 3, numberOfNodes := 4, logsInfo := false, headerDigest := fun _ _ _ => 0 }
    let events : List Event := [.worker 7 5, .worker 8 6,
      .primary (.header { round := 0, author := 1, votes := [(9, 6)], id := 1001 })]
    let result := ((new 0 1 false).run params events).get (by decide)
    result.1.proposals.count (8, 6) + headerCount (8, 6) result.2 ≤ events.count (.worker 8 6) ∧
      (6 ∉ result.1.activeElections →
        result.1.proposals.count (8, 6) + headerCount (8, 6) result.2 =
          events.count (.worker 8 6)) := by
  intro params events result
  exact proposer_worker_pairs_accounted params 0 1 events result.1 result.2
    ((Option.some_get _).symm.trans (congrArg some Prod.mk.eta.symm)) 8 6

end Proposer
end Primary
end DelegatedRingCT
