import Mathlib.Data.List.Basic
import Mathlib.Data.Fintype.Card
import Mathlib.Algebra.Order.Ring.Nat

/-!
# Vote and certificate aggregators

`primary/src/aggregators.rs` turns votes on a header into a certificate and certificates of a
round into a round payload.  Both aggregators refuse an authority they have already accepted
(the votes aggregator with `AuthorityReuse`, the certificates aggregator silently), add the
stake of each new one, and when the accumulated weight reaches the quorum threshold they emit
and reset the weight to zero, while the set of used authorities is kept.  The votes aggregator
emits a copy of its votes; the certificates aggregator drains its digests into the emission.

Only the weight reset stands between an aggregator and a second emission.  Under the committee
assumption that two quorums together outweigh the whole committee, the authorities accepted
after an emission can never again reach a quorum, which is the arithmetic core `WeightInv`
below.  The committee is a parameter: its stake table and threshold come from the `config`
crate, which is not part of the sources.
-/

namespace DelegatedRingCT
namespace Primary
namespace Aggregators

variable {Authority Signature Header Digest : Type}

/-- The two things the aggregators ask the committee: an authority's stake, and the quorum
threshold.  Stakes and weights are `Nat`, while `config::Stake`, absent from the sources, is
fixed-width: the results about the aggregators assume `weight += stake` never overflows. -/
structure Committee (Authority : Type) where
  /-- `committee.stake(&PK(author.to_bytes()))`; zero for an unknown authority. -/
  stake : Authority → Nat
  /-- `committee.quorum_threshold()`. -/
  quorumThreshold : Nat

/-- The protocol error of `append`. -/
inductive DagError (Authority : Type)
  | /-- `DagError::AuthorityReuse`: the author already voted. -/
    authorityReuse (author : Authority)
  deriving DecidableEq, Repr

/-- A vote, reduced to the two fields `VotesAggregator::append` reads. -/
structure Vote (Authority Signature : Type) where
  /-- The voting authority. -/
  author : Authority
  /-- Its signature on the header. -/
  signature : Signature
  deriving DecidableEq, Repr

/-- A certificate: the header and the `(author, signature)` pairs of its votes. -/
structure Certificate (Header Authority Signature : Type) where
  /-- The certified header. -/
  header : Header
  /-- The collected votes, in acceptance order. -/
  votes : List (Authority × Signature)
  deriving DecidableEq, Repr

/-! ## Stake bookkeeping shared by both aggregators -/

/-- The weight of an aggregator against the stake `accepted` of all authorities it has
accepted, given how many times it has emitted: before its emission the two agree, and after
it the stake accepted up to the emission was already a quorum. -/
def WeightInv (quorum emitted weight accepted : Nat) : Prop :=
  (emitted = 0 ∧ weight = accepted) ∨ (emitted = 1 ∧ quorum + weight ≤ accepted)

theorem weightInv_zero (quorum : Nat) : WeightInv quorum 0 0 0 := .inl ⟨rfl, rfl⟩

section Accept

variable {quorum total emitted weight accepted stake : Nat}

theorem WeightInv.add (inv : WeightInv quorum emitted weight accepted) :
    WeightInv quorum emitted (weight + stake) (accepted + stake) := by
  unfold WeightInv at *
  omega

/-- The threshold is reached only before the first emission, which leaves weight zero. -/
theorem WeightInv.reset (majority : total < 2 * quorum) (bounded : accepted + stake ≤ total)
    (inv : WeightInv quorum emitted weight accepted) (reached : quorum ≤ weight + stake) :
    emitted = 0 ∧ weight + stake = accepted + stake ∧ WeightInv quorum 1 0 (accepted + stake) := by
  unfold WeightInv at *
  omega

end Accept

/-! ## How both aggregators cut what they accept

Without the committee assumption an aggregator may emit more than once.  What it does then is
still exact: it cuts the items it accepts, in order, into groups, closing a group at the first
item with which the group's stake reaches the threshold, and holds the items since the last cut.
-/

/-- Groups cut at the threshold `quorum`: every group is non-empty and reaches the threshold,
while without its last item it is empty or below it; the held items are below it too. -/
structure Cuts {Item : Type} (quorum : Nat) (stake : Item → Nat) (groups : List (List Item))
    (held : List Item) : Prop where
  full : ∀ group ∈ groups, group ≠ [] ∧ quorum ≤ (group.map stake).sum ∧
    (group.dropLast = [] ∨ (group.dropLast.map stake).sum < quorum)
  below : held = [] ∨ (held.map stake).sum < quorum

section Cuts

variable {Item : Type} {quorum : Nat} {stake : Item → Nat} {groups : List (List Item)}
  {held : List Item}

theorem cuts_nil (quorum : Nat) (stake : Item → Nat) : Cuts quorum stake [] [] :=
  ⟨fun _ member => (List.not_mem_nil _ member).elim, .inl rfl⟩

theorem Cuts.close (cuts : Cuts quorum stake groups held) (item : Item)
    (reached : quorum ≤ (held.map stake).sum + stake item) :
    Cuts quorum stake (groups ++ [held ++ [item]]) [] := by
  refine ⟨fun group member => ?_, .inl rfl⟩
  rcases List.mem_append.mp member with old | closed
  · exact cuts.full group old
  · rw [List.mem_singleton.mp closed, List.dropLast_concat]
    exact ⟨by simp, by simpa using reached, cuts.below⟩

theorem Cuts.hold (cuts : Cuts quorum stake groups held) (item : Item)
    (below : (held.map stake).sum + stake item < quorum) :
    Cuts quorum stake groups (held ++ [item]) :=
  ⟨cuts.full, .inr (by simpa using below)⟩

end Cuts

theorem inits_tail_concat {Item : Type} (groups : List Item) (group : Item) :
    (groups ++ [group]).inits.tail = groups.inits.tail ++ [groups ++ [group]] := by
  rw [List.inits_append, List.tail_append_of_ne_nil (by cases groups <;> simp)]
  simp

/-! ## `VotesAggregator` -/

/-- The state of a `VotesAggregator`. -/
structure VotesAggregator (Authority Signature : Type) where
  /-- Stake accepted since the last emission. -/
  weight : Nat
  /-- Accepted `(author, signature)` pairs, in order. -/
  votes : List (Authority × Signature)
  /-- The `HashSet` of accepted authors. -/
  used : List Authority
  deriving DecidableEq, Repr

/-- What one call of `VotesAggregator::append` returns. -/
abbrev AppendResult (Header Authority Signature : Type) :=
  Except (DagError Authority) (Option (Certificate Header Authority Signature))

/-- Whether a call returned `Ok(Some(certificate))`. -/
def AppendResult.isCertificate : AppendResult Header Authority Signature → Bool
  | .ok (some _) => true
  | _ => false

/-- The certificate a call returned, if it returned one. -/
def AppendResult.certificate? :
    AppendResult Header Authority Signature → Option (Certificate Header Authority Signature)
  | .ok certificate => certificate
  | .error _ => none

namespace VotesAggregator

/-- The `(author, signature)` pairs of the calls whose result is `Ok`, in call order. -/
def acceptedVotes (calls : List (Vote Authority Signature))
    (results : List (AppendResult Header Authority Signature)) : List (Authority × Signature) :=
  (calls.zip results).filterMap fun (vote, result) =>
    match result with
    | .ok _ => some (vote.author, vote.signature)
    | .error _ => none

theorem acceptedVotes_concat (calls : List (Vote Authority Signature))
    (results : List (AppendResult Header Authority Signature))
    (lengths : calls.length = results.length)
    (vote : Vote Authority Signature) (result : AppendResult Header Authority Signature) :
    acceptedVotes (calls ++ [vote]) (results ++ [result]) =
      acceptedVotes calls results ++
        match result with
        | .ok _ => [(vote.author, vote.signature)]
        | .error _ => [] := by
  rw [acceptedVotes, List.zip_append lengths]
  cases result <;> simp [acceptedVotes]

variable [DecidableEq Authority]

/-- `VotesAggregator::new`. -/
def new : VotesAggregator Authority Signature := { weight := 0, votes := [], used := [] }

/-- `VotesAggregator::append`: reject a reused author, otherwise record the vote, add its stake
and emit a certificate, resetting the weight, once the threshold is reached. -/
def append (aggregator : VotesAggregator Authority Signature) (vote : Vote Authority Signature)
    (committee : Committee Authority) (header : Header) :
    VotesAggregator Authority Signature × AppendResult Header Authority Signature :=
  if vote.author ∈ aggregator.used then
    (aggregator, .error (.authorityReuse vote.author))
  else
    let votes := aggregator.votes ++ [(vote.author, vote.signature)]
    let used := vote.author :: aggregator.used
    let weight := aggregator.weight + committee.stake vote.author
    if committee.quorumThreshold ≤ weight then
      ({ weight := 0, votes, used }, .ok (some { header, votes }))
    else
      ({ weight, votes, used }, .ok none)

/-- A sequence of `append` calls on one aggregator, with every call's result. -/
def appendAll (committee : Committee Authority) (header : Header)
    (aggregator : VotesAggregator Authority Signature) (calls : List (Vote Authority Signature)) :
    VotesAggregator Authority Signature × List (AppendResult Header Authority Signature) :=
  calls.foldl (fun (current, results) vote =>
    let (next, result) := current.append vote committee header
    (next, results ++ [result])) (aggregator, [])

@[simp]
theorem appendAll_nil (committee : Committee Authority) (header : Header)
    (aggregator : VotesAggregator Authority Signature) :
    appendAll committee header aggregator [] = (aggregator, []) := rfl

theorem appendAll_concat (committee : Committee Authority) (header : Header)
    (aggregator : VotesAggregator Authority Signature) (calls : List (Vote Authority Signature))
    (vote : Vote Authority Signature) :
    appendAll committee header aggregator (calls ++ [vote]) =
      (((appendAll committee header aggregator calls).1.append vote committee header).1,
        (appendAll committee header aggregator calls).2 ++
          [((appendAll committee header aggregator calls).1.append vote committee header).2]) := by
  simp [appendAll, List.foldl_append]

theorem append_cases (aggregator : VotesAggregator Authority Signature)
    (vote : Vote Authority Signature) (committee : Committee Authority) (header : Header) :
    (vote.author ∈ aggregator.used ∧
        aggregator.append vote committee header =
          (aggregator, .error (.authorityReuse vote.author))) ∨
      (vote.author ∉ aggregator.used ∧
        (aggregator.append vote committee header).1.votes =
          aggregator.votes ++ [(vote.author, vote.signature)] ∧
        (aggregator.append vote committee header).1.used = vote.author :: aggregator.used ∧
        ((committee.quorumThreshold ≤ aggregator.weight + committee.stake vote.author ∧
            (aggregator.append vote committee header).1.weight = 0 ∧
            (aggregator.append vote committee header).2 =
              .ok (some { header, votes := aggregator.votes ++ [(vote.author, vote.signature)] })) ∨
          (aggregator.weight + committee.stake vote.author < committee.quorumThreshold ∧
            (aggregator.append vote committee header).1.weight =
              aggregator.weight + committee.stake vote.author ∧
            (aggregator.append vote committee header).2 = .ok none))) := by
  simp only [append]
  split_ifs <;> simp_all

/-- What a sequence of calls from `new` leaves behind, read off the calls' results: the
recorded votes are the accepted ones, `used` holds exactly their authors, who are pairwise
distinct, and the weight satisfies `WeightInv` against their stake. -/
structure Reached (committee : Committee Authority) (calls : List (Vote Authority Signature))
    (aggregator : VotesAggregator Authority Signature)
    (results : List (AppendResult Header Authority Signature)) : Prop where
  lengths : calls.length = results.length
  votes : aggregator.votes = acceptedVotes calls results
  used : ∀ author, author ∈ aggregator.used ↔ author ∈ aggregator.votes.map Prod.fst
  nodup : (aggregator.votes.map Prod.fst).Nodup
  weight : WeightInv committee.quorumThreshold (results.countP AppendResult.isCertificate)
    aggregator.weight (aggregator.votes.map (committee.stake ∘ Prod.fst)).sum

section Quorum

variable {committee : Committee Authority} {total : Nat}

theorem Reached.append (majority : total < 2 * committee.quorumThreshold)
    (bounded : ∀ authors : List Authority, authors.Nodup →
      (authors.map committee.stake).sum ≤ total)
    {calls : List (Vote Authority Signature)} {aggregator : VotesAggregator Authority Signature}
    {results : List (AppendResult Header Authority Signature)}
    (reached : Reached committee calls aggregator results) (vote : Vote Authority Signature)
    (header : Header) :
    Reached committee (calls ++ [vote]) (aggregator.append vote committee header).1
      (results ++ [(aggregator.append vote committee header).2]) := by
  rcases append_cases aggregator vote committee header with
    ⟨-, rejected⟩ | ⟨fresh, votes, used, accepted⟩
  · rw [rejected]
    refine ⟨by simp [reached.lengths], ?_, reached.used, reached.nodup,
      by simpa [AppendResult.isCertificate] using reached.weight⟩
    simp [acceptedVotes_concat _ _ reached.lengths, reached.votes]
  · have unseen : vote.author ∉ aggregator.votes.map Prod.fst := fun seen =>
      fresh ((reached.used _).mpr seen)
    have nodup : ((aggregator.votes ++ [(vote.author, vote.signature)]).map Prod.fst).Nodup := by
      simpa [List.nodup_append, unseen] using reached.nodup
    have stakeSum : ((aggregator.votes ++ [(vote.author, vote.signature)]).map
        (committee.stake ∘ Prod.fst)).sum =
        (aggregator.votes.map (committee.stake ∘ Prod.fst)).sum + committee.stake vote.author := by
      simp
    have within := bounded _ nodup
    rw [List.map_map] at within
    have used' : ∀ author, author ∈ (aggregator.append vote committee header).1.used ↔
        author ∈ (aggregator.append vote committee header).1.votes.map Prod.fst := by
      simp [used, votes, reached.used, or_comm]
    rcases accepted with ⟨reachedQuorum, reset, certificate⟩ | ⟨below, weight, none⟩
    · obtain ⟨first, -, inv⟩ := reached.weight.reset majority (stakeSum ▸ within) reachedQuorum
      refine ⟨by simp [reached.lengths], ?_, used', votes ▸ nodup, ?_⟩
      · rw [votes, acceptedVotes_concat _ _ reached.lengths, certificate, reached.votes]
      · simpa [certificate, AppendResult.isCertificate, first, reset, votes, stakeSum] using inv
    · refine ⟨by simp [reached.lengths], ?_, used', votes ▸ nodup, ?_⟩
      · rw [votes, acceptedVotes_concat _ _ reached.lengths, none, reached.votes]
      · simpa [none, AppendResult.isCertificate, weight, votes, stakeSum] using reached.weight.add

theorem reached_appendAll (majority : total < 2 * committee.quorumThreshold)
    (bounded : ∀ authors : List Authority, authors.Nodup →
      (authors.map committee.stake).sum ≤ total)
    (header : Header) (calls : List (Vote Authority Signature)) :
    Reached committee calls (appendAll committee header new calls).1
      (appendAll committee header new calls).2 := by
  induction calls using List.reverseRecOn with
  | nil => exact ⟨rfl, rfl, fun _ => Iff.rfl, List.nodup_nil, weightInv_zero _⟩
  | append_singleton calls vote induction =>
      rw [appendAll_concat]
      exact induction.append majority bounded vote header

end Quorum

/-- The votes aggregator under the committee assumptions: `AuthorityReuse` exactly on a reused
author, at most one certificate, and it holds the accepted votes, reaching the threshold. -/
theorem votesAggregator_append_spec (committee : Committee Authority) (total : Nat)
    (majority : total < 2 * committee.quorumThreshold)
    (bounded : ∀ authors : List Authority, authors.Nodup →
      (authors.map committee.stake).sum ≤ total)
    (header : Header) (calls : List (Vote Authority Signature)) (vote : Vote Authority Signature) :
    let before := appendAll committee header new calls
    let call := before.1.append vote committee header
    ((call.2 = .error (.authorityReuse vote.author) ↔
        vote.author ∈ (acceptedVotes calls before.2).map Prod.fst) ∧
      (call.2 = .error (.authorityReuse vote.author) → call.1 = before.1)) ∧
    (before.2 ++ [call.2]).countP AppendResult.isCertificate ≤ 1 ∧
    ∀ certificate, call.2 = .ok (some certificate) →
      certificate.votes = acceptedVotes calls before.2 ++ [(vote.author, vote.signature)] ∧
      (certificate.votes.map Prod.fst).Nodup ∧
      committee.quorumThreshold ≤ (certificate.votes.map (committee.stake ∘ Prod.fst)).sum := by
  intro before call
  have reached : Reached committee calls before.1 before.2 :=
    reached_appendAll majority bounded header calls
  have next := reached.append majority bounded vote header
  have emittedOnce := next.weight
  simp only [call]
  unfold WeightInv at emittedOnce
  refine ⟨?_, by omega, ?_⟩
  · rcases append_cases before.1 vote committee header with
      ⟨used, rejected⟩ | ⟨fresh, -, -, ⟨-, -, accepted⟩ | ⟨-, -, accepted⟩⟩
    · simp only [rejected, true_iff, forall_const]
      exact ⟨by simpa [← reached.votes] using (reached.used _).mp used, trivial⟩
    all_goals
      simp only [accepted, reduceCtorEq, false_iff, false_implies, and_true]
      rw [← reached.votes]
      exact fun seen => fresh ((reached.used _).mpr seen)
  · intro certificate issued
    rcases append_cases before.1 vote committee header with
      ⟨-, rejected⟩ | ⟨-, votes, -, ⟨-, reset, accepted⟩ | ⟨-, -, accepted⟩⟩
    · simp [rejected] at issued
    · rw [issued, Except.ok.injEq, Option.some.injEq] at accepted
      subst accepted
      simp [issued, AppendResult.isCertificate, reset, votes] at emittedOnce
      refine ⟨by rw [reached.votes], by simpa [votes] using next.nodup,
        by simpa using emittedOnce.2⟩
    · simp [accepted] at issued

/-- The votes of `1` and `2` are held, and the vote of `0` is emitted in a certificate. -/
theorem votesAggregator_append_spec_four :
    let committee : Committee (Fin 4) := { stake := fun _ => 1, quorumThreshold := 3 }
    let calls : List (Vote (Fin 4) Unit) := [⟨1, ()⟩, ⟨2, ()⟩]
    let before := appendAll committee () new calls
    let call := before.1.append ⟨0, ()⟩ committee ()
    call.2.isCertificate = true ∧
    ((call.2 = .error (.authorityReuse 0) ↔ (0 : Fin 4) ∈ (acceptedVotes calls before.2).map Prod.fst) ∧
      (call.2 = .error (.authorityReuse 0) → call.1 = before.1)) ∧
    (before.2 ++ [call.2]).countP AppendResult.isCertificate ≤ 1 ∧
    ∀ certificate, call.2 = .ok (some certificate) →
      certificate.votes = acceptedVotes calls before.2 ++ [(0, ())] ∧
      (certificate.votes.map Prod.fst).Nodup ∧
      committee.quorumThreshold ≤ (certificate.votes.map (committee.stake ∘ Prod.fst)).sum :=
  ⟨rfl, votesAggregator_append_spec { stake := fun _ => 1, quorumThreshold := 3 } 4 (by decide)
    (fun authors nodup => by simpa using nodup.length_le_card) () [⟨1, ()⟩, ⟨2, ()⟩] ⟨0, ()⟩⟩

/-! ## Any committee -/

section Cuts

variable {committee : Committee Authority} {header : Header}

/-- What a sequence of calls from `new` leaves behind, for any committee: the accepted votes,
recorded in order with distinct authors, are cut into `groups` and the `held` votes since the
last cut, whose stake is the weight; the calls returned one certificate per group, holding
every vote accepted up to the end of that group. -/
structure Batched (committee : Committee Authority) (header : Header)
    (calls : List (Vote Authority Signature)) (groups : List (List (Authority × Signature)))
    (held : List (Authority × Signature)) (aggregator : VotesAggregator Authority Signature)
    (results : List (AppendResult Header Authority Signature)) : Prop where
  lengths : calls.length = results.length
  accepted : acceptedVotes calls results = groups.flatten ++ held
  votes : aggregator.votes = groups.flatten ++ held
  used : ∀ author, author ∈ aggregator.used ↔ author ∈ aggregator.votes.map Prod.fst
  nodup : (aggregator.votes.map Prod.fst).Nodup
  certificates : results.filterMap AppendResult.certificate? =
    groups.inits.tail.map fun closed => { header, votes := closed.flatten }
  weight : aggregator.weight = (held.map (committee.stake ∘ Prod.fst)).sum
  cuts : Cuts committee.quorumThreshold (committee.stake ∘ Prod.fst) groups held

theorem Batched.append {calls : List (Vote Authority Signature)}
    {groups : List (List (Authority × Signature))} {held : List (Authority × Signature)}
    {aggregator : VotesAggregator Authority Signature}
    {results : List (AppendResult Header Authority Signature)}
    (batched : Batched committee header calls groups held aggregator results)
    (vote : Vote Authority Signature) :
    ∃ groups held, Batched committee header (calls ++ [vote]) groups held
      (aggregator.append vote committee header).1
      (results ++ [(aggregator.append vote committee header).2]) := by
  have lengths : (calls ++ [vote]).length =
      (results ++ [(aggregator.append vote committee header).2]).length := by
    simp [batched.lengths]
  rcases append_cases aggregator vote committee header with
    ⟨-, rejected⟩ | ⟨fresh, votes, used, accepted⟩
  · rw [rejected] at lengths ⊢
    refine ⟨groups, held, lengths, ?_, batched.votes, batched.used, batched.nodup, ?_,
      batched.weight, batched.cuts⟩
    · simp [acceptedVotes_concat _ _ batched.lengths, batched.accepted]
    · simp [AppendResult.certificate?, batched.certificates]
  have unseen : vote.author ∉ aggregator.votes.map Prod.fst := fun seen =>
    fresh ((batched.used _).mpr seen)
  have nodup : ((aggregator.append vote committee header).1.votes.map Prod.fst).Nodup := by
    simpa [votes, List.nodup_append, unseen] using batched.nodup
  have used' : ∀ author, author ∈ (aggregator.append vote committee header).1.used ↔
      author ∈ (aggregator.append vote committee header).1.votes.map Prod.fst := by
    simp [used, votes, batched.used, or_comm]
  rcases accepted with ⟨reached, reset, certificate⟩ | ⟨below, weight, none⟩
  · refine ⟨groups ++ [held ++ [(vote.author, vote.signature)]], [], lengths, ?_, ?_, used',
      nodup, ?_, by simp [reset], batched.cuts.close _ (by simpa [batched.weight] using reached)⟩
    · rw [acceptedVotes_concat _ _ batched.lengths, certificate, batched.accepted]
      simp
    · rw [votes, batched.votes]
      simp
    · rw [List.filterMap_append, batched.certificates, certificate, inits_tail_concat,
        batched.votes]
      simp [AppendResult.certificate?]
  · refine ⟨groups, held ++ [(vote.author, vote.signature)], lengths, ?_, ?_, used', nodup, ?_,
      by simp [weight, batched.weight], batched.cuts.hold _ (by simpa [batched.weight] using below)⟩
    · rw [acceptedVotes_concat _ _ batched.lengths, none, batched.accepted]
      simp
    · rw [votes, batched.votes]
      simp
    · simp [none, AppendResult.certificate?, batched.certificates]

theorem batched_appendAll (committee : Committee Authority) (header : Header)
    (calls : List (Vote Authority Signature)) :
    ∃ groups held, Batched committee header calls groups held
      (appendAll committee header new calls).1 (appendAll committee header new calls).2 := by
  induction calls using List.reverseRecOn with
  | nil => exact ⟨[], [], rfl, rfl, rfl, fun _ => Iff.rfl, List.nodup_nil, rfl, rfl, cuts_nil _ _⟩
  | append_singleton calls vote induction =>
      obtain ⟨groups, held, batched⟩ := induction
      rw [appendAll_concat]
      exact batched.append vote

end Cuts

/-- For every committee, the accepted votes are cut into one certificate per group that reaches
the threshold, in call order, and the rest stays below it. -/
theorem votesAggregator_cuts (committee : Committee Authority) (header : Header)
    (calls : List (Vote Authority Signature)) :
    let after := appendAll committee header new calls
    ∃ groups held, acceptedVotes calls after.2 = groups.flatten ++ held ∧
      ((acceptedVotes calls after.2).map Prod.fst).Nodup ∧
      Cuts committee.quorumThreshold (committee.stake ∘ Prod.fst) groups held ∧
      after.2.filterMap AppendResult.certificate? =
        groups.inits.tail.map fun closed => { header, votes := closed.flatten } := by
  intro after
  obtain ⟨groups, held, batched⟩ := batched_appendAll committee header calls
  refine ⟨groups, held, batched.accepted, ?_, batched.cuts, batched.certificates⟩
  rw [batched.accepted, ← batched.votes]
  exact batched.nodup

end VotesAggregator

/-! ## `CertificatesAggregator` -/

/-- A certificate as `CertificatesAggregator::append` sees it: its `origin()`, the author of its
header, and its `digest()`.  Both are defined in `messages.rs`, which is not among the
sources. -/
structure CertificateRef (Authority Digest : Type) where
  /-- `certificate.origin()`. -/
  origin : Authority
  /-- `certificate.digest()`. -/
  digest : Digest
  deriving DecidableEq, Repr

/-- The state of a `CertificatesAggregator`. -/
structure CertificatesAggregator (Authority Digest : Type) where
  /-- Stake accepted since the last emission. -/
  weight : Nat
  /-- Digests of the certificates accepted since the last emission, in order. -/
  certificates : List Digest
  /-- The `HashSet` of accepted origins; never cleared. -/
  used : List Authority
  deriving DecidableEq, Repr

namespace CertificatesAggregator

variable [DecidableEq Authority]

/-- The certificates a sequence of calls accepts: those whose origin no earlier call had, in
call order. -/
def acceptedCertificates (calls : List (CertificateRef Authority Digest)) :
    List (CertificateRef Authority Digest) :=
  calls.foldl (fun accepted certificate =>
    if certificate.origin ∈ accepted.map CertificateRef.origin then accepted
    else accepted ++ [certificate]) []

theorem acceptedCertificates_concat (calls : List (CertificateRef Authority Digest))
    (certificate : CertificateRef Authority Digest) :
    acceptedCertificates (calls ++ [certificate]) =
      if certificate.origin ∈ (acceptedCertificates calls).map CertificateRef.origin then
        acceptedCertificates calls
      else acceptedCertificates calls ++ [certificate] := by
  simp [acceptedCertificates, List.foldl_append]

/-- `CertificatesAggregator::new`. -/
def new : CertificatesAggregator Authority Digest := { weight := 0, certificates := [], used := [] }

/-- `CertificatesAggregator::append`, with its result's `Ok` value (it never returns an error):
ignore a reused origin, otherwise record the digest, add the origin's stake and, once the
threshold is reached, reset the weight and drain the recorded digests into the result. -/
def append (aggregator : CertificatesAggregator Authority Digest)
    (certificate : CertificateRef Authority Digest) (committee : Committee Authority) :
    CertificatesAggregator Authority Digest × Option (List Digest) :=
  if certificate.origin ∈ aggregator.used then
    (aggregator, none)
  else
    let certificates := aggregator.certificates ++ [certificate.digest]
    let used := certificate.origin :: aggregator.used
    let weight := aggregator.weight + committee.stake certificate.origin
    if committee.quorumThreshold ≤ weight then
      ({ weight := 0, certificates := [], used }, some certificates)
    else
      ({ weight, certificates, used }, none)

/-- A sequence of `append` calls on one aggregator, with every call's result. -/
def appendAll (committee : Committee Authority) (aggregator : CertificatesAggregator Authority Digest)
    (calls : List (CertificateRef Authority Digest)) :
    CertificatesAggregator Authority Digest × List (Option (List Digest)) :=
  calls.foldl (fun (current, results) certificate =>
    let (next, result) := current.append certificate committee
    (next, results ++ [result])) (aggregator, [])

theorem appendAll_concat (committee : Committee Authority)
    (aggregator : CertificatesAggregator Authority Digest)
    (calls : List (CertificateRef Authority Digest)) (certificate : CertificateRef Authority Digest) :
    appendAll committee aggregator (calls ++ [certificate]) =
      (((appendAll committee aggregator calls).1.append certificate committee).1,
        (appendAll committee aggregator calls).2 ++
          [((appendAll committee aggregator calls).1.append certificate committee).2]) := by
  simp [appendAll, List.foldl_append]

theorem append_cases (aggregator : CertificatesAggregator Authority Digest)
    (certificate : CertificateRef Authority Digest) (committee : Committee Authority) :
    (certificate.origin ∈ aggregator.used ∧
        aggregator.append certificate committee = (aggregator, none)) ∨
      (certificate.origin ∉ aggregator.used ∧
        (aggregator.append certificate committee).1.used =
          certificate.origin :: aggregator.used ∧
        ((committee.quorumThreshold ≤ aggregator.weight + committee.stake certificate.origin ∧
            (aggregator.append certificate committee).1.weight = 0 ∧
            (aggregator.append certificate committee).1.certificates = [] ∧
            (aggregator.append certificate committee).2 =
              some (aggregator.certificates ++ [certificate.digest])) ∨
          (aggregator.weight + committee.stake certificate.origin < committee.quorumThreshold ∧
            (aggregator.append certificate committee).1.weight =
              aggregator.weight + committee.stake certificate.origin ∧
            (aggregator.append certificate committee).1.certificates =
              aggregator.certificates ++ [certificate.digest] ∧
            (aggregator.append certificate committee).2 = none))) := by
  simp only [append]
  split_ifs <;> simp_all

/-- What a sequence of calls from `new` leaves behind, in terms of the certificates it
accepted: `used` holds exactly their origins, which are pairwise distinct; every accepted
digest has been emitted or is still recorded, in order, so a drain loses nothing; and the
weight satisfies `WeightInv` against their stake. -/
structure Reached (committee : Committee Authority)
    (accepted : List (CertificateRef Authority Digest))
    (aggregator : CertificatesAggregator Authority Digest) (results : List (Option (List Digest))) :
    Prop where
  used : ∀ origin, origin ∈ aggregator.used ↔ origin ∈ accepted.map CertificateRef.origin
  nodup : (accepted.map CertificateRef.origin).Nodup
  certificates : (results.filterMap id).flatten ++ aggregator.certificates =
    accepted.map CertificateRef.digest
  weight : WeightInv committee.quorumThreshold (results.countP Option.isSome) aggregator.weight
    (accepted.map (committee.stake ∘ CertificateRef.origin)).sum

section Quorum

variable {committee : Committee Authority} {total : Nat}

theorem Reached.append (majority : total < 2 * committee.quorumThreshold)
    (bounded : ∀ authors : List Authority, authors.Nodup →
      (authors.map committee.stake).sum ≤ total)
    {accepted : List (CertificateRef Authority Digest)}
    {aggregator : CertificatesAggregator Authority Digest} {results : List (Option (List Digest))}
    (reached : Reached committee accepted aggregator results)
    (certificate : CertificateRef Authority Digest) :
    Reached committee
      (if certificate.origin ∈ accepted.map CertificateRef.origin then accepted
        else accepted ++ [certificate])
      (aggregator.append certificate committee).1
      (results ++ [(aggregator.append certificate committee).2]) := by
  rcases append_cases aggregator certificate committee with
    ⟨used, rejected⟩ | ⟨fresh, used, outcome⟩
  · rw [rejected, if_pos ((reached.used _).mp used)]
    exact ⟨reached.used, reached.nodup, by simpa using reached.certificates,
      by simpa using reached.weight⟩
  · have unseen : certificate.origin ∉ accepted.map CertificateRef.origin :=
      fun seen => fresh ((reached.used _).mpr seen)
    rw [if_neg unseen]
    have nodup : ((accepted ++ [certificate]).map CertificateRef.origin).Nodup := by
      simpa [List.nodup_append, unseen] using reached.nodup
    have within := bounded _ nodup
    rw [List.map_map] at within
    have used' : ∀ origin, origin ∈ (aggregator.append certificate committee).1.used ↔
        origin ∈ (accepted ++ [certificate]).map CertificateRef.origin := by
      simp [used, reached.used, or_comm]
    rcases outcome with ⟨reachedQuorum, reset, drained, emitted⟩ | ⟨-, weight, recorded, none⟩
    · obtain ⟨first, -, inv⟩ :=
        reached.weight.reset majority (by simpa using within) reachedQuorum
      refine ⟨used', nodup, ?_, ?_⟩
      · simp [emitted, drained, ← reached.certificates]
      · simpa [emitted, first, reset] using inv
    · refine ⟨used', nodup, ?_, ?_⟩
      · simp [none, recorded, ← reached.certificates]
      · simpa [none, weight] using reached.weight.add

theorem reached_appendAll (majority : total < 2 * committee.quorumThreshold)
    (bounded : ∀ authors : List Authority, authors.Nodup →
      (authors.map committee.stake).sum ≤ total)
    (calls : List (CertificateRef Authority Digest)) :
    Reached committee (acceptedCertificates calls) (appendAll committee new calls).1
      (appendAll committee new calls).2 := by
  induction calls using List.reverseRecOn with
  | nil => exact ⟨fun _ => Iff.rfl, List.nodup_nil, rfl, weightInv_zero _⟩
  | append_singleton calls certificate induction =>
      rw [appendAll_concat, acceptedCertificates_concat]
      exact induction.append majority bounded certificate

omit [DecidableEq Authority] in
theorem Reached.certificates_of_unemitted {accepted : List (CertificateRef Authority Digest)}
    {aggregator : CertificatesAggregator Authority Digest} {results : List (Option (List Digest))}
    (reached : Reached committee accepted aggregator results)
    (unemitted : results.countP Option.isSome = 0) :
    aggregator.certificates = accepted.map CertificateRef.digest := by
  have none : results.filterMap id = [] :=
    List.filterMap_eq_nil_iff.mpr fun result member => by
      simpa using List.countP_eq_zero.mp unemitted result member
  simpa [none] using reached.certificates

end Quorum

/-- The certificates aggregator under the committee assumptions: a reused origin changes nothing,
at most one emission, and it holds the digests of all accepted certificates. -/
theorem certificatesAggregator_append_spec (committee : Committee Authority) (total : Nat)
    (majority : total < 2 * committee.quorumThreshold)
    (bounded : ∀ authors : List Authority, authors.Nodup →
      (authors.map committee.stake).sum ≤ total)
    (calls : List (CertificateRef Authority Digest)) (certificate : CertificateRef Authority Digest) :
    let before := appendAll committee new calls
    let call := before.1.append certificate committee
    (certificate.origin ∈ (acceptedCertificates calls).map CertificateRef.origin →
      call = (before.1, none)) ∧
    (before.2 ++ [call.2]).countP Option.isSome ≤ 1 ∧
    ∀ digests, call.2 = some digests →
      digests = (acceptedCertificates calls ++ [certificate]).map CertificateRef.digest ∧
      ((acceptedCertificates calls ++ [certificate]).map CertificateRef.origin).Nodup ∧
      committee.quorumThreshold ≤ ((acceptedCertificates calls ++ [certificate]).map
        (committee.stake ∘ CertificateRef.origin)).sum := by
  intro before call
  have reached : Reached committee (acceptedCertificates calls) before.1 before.2 :=
    reached_appendAll majority bounded calls
  have next := reached.append majority bounded certificate
  have emittedOnce := next.weight
  simp only [call]
  unfold WeightInv at emittedOnce
  refine ⟨fun seen => ?_, by omega, fun digests issued => ?_⟩
  · rcases append_cases before.1 certificate committee with ⟨-, rejected⟩ | ⟨fresh, -⟩
    exacts [rejected, absurd ((reached.used _).mpr seen) fresh]
  · rcases append_cases before.1 certificate committee with
      ⟨-, rejected⟩ | ⟨fresh, -, ⟨-, -, -, emitted⟩ | ⟨-, -, -, none⟩⟩
    · simp [rejected] at issued
    · rw [if_neg fun seen => fresh ((reached.used _).mpr seen)] at next
      have counted := next.weight
      simp only [emitted, List.countP_append, List.countP_singleton, Option.isSome_some,
        if_true] at counted
      unfold WeightInv at counted
      rw [issued, Option.some.injEq] at emitted
      subst emitted
      exact ⟨by simp [reached.certificates_of_unemitted (by omega)], next.nodup, by omega⟩
    · simp [none] at issued

/-- The certificates of `1` and `2` are held, and that of `0` emits the three digests. -/
theorem certificatesAggregator_append_spec_four :
    let committee : Committee (Fin 4) := { stake := fun _ => 1, quorumThreshold := 3 }
    let calls : List (CertificateRef (Fin 4) Nat) := [⟨1, 8⟩, ⟨2, 9⟩]
    let certificate : CertificateRef (Fin 4) Nat := ⟨0, 7⟩
    let before := appendAll committee new calls
    let call := before.1.append certificate committee
    call.2 = some [8, 9, 7] ∧
    (certificate.origin ∈ (acceptedCertificates calls).map CertificateRef.origin →
      call = (before.1, none)) ∧
    (before.2 ++ [call.2]).countP Option.isSome ≤ 1 ∧
    ∀ digests, call.2 = some digests →
      digests = (acceptedCertificates calls ++ [certificate]).map CertificateRef.digest ∧
      ((acceptedCertificates calls ++ [certificate]).map CertificateRef.origin).Nodup ∧
      committee.quorumThreshold ≤ ((acceptedCertificates calls ++ [certificate]).map
        (committee.stake ∘ CertificateRef.origin)).sum :=
  ⟨rfl, certificatesAggregator_append_spec { stake := fun _ => 1, quorumThreshold := 3 } 4
    (by decide) (fun authors nodup => by simpa using nodup.length_le_card) [⟨1, 8⟩, ⟨2, 9⟩] ⟨0, 7⟩⟩

/-! ## Any committee -/

section Cuts

variable {committee : Committee Authority}

/-- What a sequence of calls from `new` leaves behind, for any committee, in terms of the
accepted certificates cut into `groups` and the `held` ones since the last cut: every group was
emitted as the list of its digests, the aggregator records the digests of the held ones, whose
stake is the weight, and `used` holds every accepted origin. -/
structure Batched (committee : Committee Authority)
    (groups : List (List (CertificateRef Authority Digest)))
    (held : List (CertificateRef Authority Digest))
    (aggregator : CertificatesAggregator Authority Digest) (results : List (Option (List Digest))) :
    Prop where
  used : ∀ origin, origin ∈ aggregator.used ↔
    origin ∈ (groups.flatten ++ held).map CertificateRef.origin
  emitted : results.filterMap id = groups.map (List.map CertificateRef.digest)
  certificates : aggregator.certificates = held.map CertificateRef.digest
  weight : aggregator.weight = (held.map (committee.stake ∘ CertificateRef.origin)).sum
  cuts : Cuts committee.quorumThreshold (committee.stake ∘ CertificateRef.origin) groups held

theorem Batched.append {groups : List (List (CertificateRef Authority Digest))}
    {held : List (CertificateRef Authority Digest)}
    {aggregator : CertificatesAggregator Authority Digest} {results : List (Option (List Digest))}
    (batched : Batched committee groups held aggregator results)
    (certificate : CertificateRef Authority Digest) :
    ∃ groups' held', groups'.flatten ++ held' =
        (if certificate.origin ∈ (groups.flatten ++ held).map CertificateRef.origin then
          groups.flatten ++ held
        else groups.flatten ++ held ++ [certificate]) ∧
      Batched committee groups' held' (aggregator.append certificate committee).1
        (results ++ [(aggregator.append certificate committee).2]) := by
  rcases append_cases aggregator certificate committee with
    ⟨used, rejected⟩ | ⟨fresh, used, outcome⟩
  · rw [rejected, if_pos ((batched.used _).mp used)]
    exact ⟨groups, held, rfl, batched.used, by simpa using batched.emitted, batched.certificates,
      batched.weight, batched.cuts⟩
  rw [if_neg fun seen => fresh ((batched.used _).mpr seen)]
  have used' (groups' : List (List (CertificateRef Authority Digest)))
      (held' : List (CertificateRef Authority Digest))
      (same : groups'.flatten ++ held' = groups.flatten ++ held ++ [certificate]) (origin : Authority) :
      origin ∈ (aggregator.append certificate committee).1.used ↔
        origin ∈ (groups'.flatten ++ held').map CertificateRef.origin := by
    rw [same, used]
    simp only [List.mem_cons, batched.used, List.map_append, List.mem_append, List.map_cons,
      List.map_nil, List.mem_singleton]
    tauto
  rcases outcome with ⟨reached, reset, drained, emitted⟩ | ⟨below, weight, recorded, none⟩
  · have same : (groups ++ [held ++ [certificate]]).flatten ++ [] =
        groups.flatten ++ held ++ [certificate] := by simp
    refine ⟨_, _, same, used' _ _ same, ?_, drained, by simp [reset],
      batched.cuts.close _ (by simpa [batched.weight] using reached)⟩
    simp [emitted, batched.emitted, batched.certificates]
  · have same : groups.flatten ++ (held ++ [certificate]) =
        groups.flatten ++ held ++ [certificate] := by simp
    exact ⟨_, _, same, used' _ _ same, by simp [none, batched.emitted],
      by simp [recorded, batched.certificates], by simp [weight, batched.weight],
      batched.cuts.hold _ (by simpa [batched.weight] using below)⟩

theorem batched_appendAll (committee : Committee Authority)
    (calls : List (CertificateRef Authority Digest)) :
    ∃ groups held, acceptedCertificates calls = groups.flatten ++ held ∧
      Batched committee groups held (appendAll committee new calls).1
        (appendAll committee new calls).2 := by
  induction calls using List.reverseRecOn with
  | nil => exact ⟨[], [], rfl, fun _ => Iff.rfl, rfl, rfl, rfl, cuts_nil _ _⟩
  | append_singleton calls certificate induction =>
      obtain ⟨groups, held, accepted, batched⟩ := induction
      obtain ⟨groups', held', same, next⟩ := batched.append certificate
      refine ⟨groups', held', ?_, ?_⟩
      · rw [acceptedCertificates_concat, accepted, same]
      · rw [appendAll_concat]
        exact next

end Cuts

/-- For every committee, the accepted certificates are emitted one group per threshold reached, in
call order, and the aggregator keeps the digests of the rest. -/
theorem certificatesAggregator_cuts (committee : Committee Authority)
    (calls : List (CertificateRef Authority Digest)) :
    let after := appendAll committee new calls
    ∃ groups held, acceptedCertificates calls = groups.flatten ++ held ∧
      Cuts committee.quorumThreshold (committee.stake ∘ CertificateRef.origin) groups held ∧
      after.2.filterMap id = groups.map (List.map CertificateRef.digest) ∧
      after.1.certificates = held.map CertificateRef.digest := by
  intro after
  obtain ⟨groups, held, accepted, batched⟩ := batched_appendAll committee calls
  exact ⟨groups, held, accepted, batched.cuts, batched.emitted, batched.certificates⟩

end CertificatesAggregator

end Aggregators
end Primary
end DelegatedRingCT
