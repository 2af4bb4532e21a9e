import DelegatedRingCT.Primary.Messages
import Mathlib.Order.MinMax

/-!
# Elections and tallies

The `election` module of the primary is not part of the sources; `proposer.rs` only calls it.
Everything here is modelled from the spec's data model and election state machine: an
election keeps one tally per vote-round, a tally holds at most one `(tx_hash, commit)` entry
per author (a later vote of the same author replaces the earlier one), `highest` is the
highest tx hash seen, and a quorum counts distinct authors against the `QUORUM` constant.

Besides the operations, the file proves what the proposer needs of them: what `insert_vote`
changes, and that every hash an election reports (a quorum, `highest`, `commit`) is one of the
hashes it was given, which is the election half of validity.
-/

namespace DelegatedRingCT
namespace Primary

/-- Modelled from the spec: the per-tally timer, `Running` until it latches to `Expired`. -/
inductive Timer
  | running
  | expired
  deriving DecidableEq, Repr

/-- Modelled from the spec: the tally of one vote-round, mapping each author to the tx hash and
commit bit of its latest vote in that round. -/
structure Tally where
  /-- One entry per author. -/
  votes : Map PublicKey (TxHash × Bool)
  /-- The round's timer. -/
  timer : Timer
  deriving DecidableEq

namespace Tally

/-- Modelled from the spec: a fresh tally, created on the first vote of its round. -/
def new : Tally := { votes := ∅, timer := .running }

/-- Modelled from the spec: `total_votes`, the number of distinct authors in the round. -/
def totalVotes (tally : Tally) : Nat := tally.votes.entries.length

/-- Modelled from the spec: the number of authors whose entry is `(txHash, commit)`. -/
def count (tally : Tally) (txHash : TxHash) (commit : Bool) : Nat :=
  (tally.votes.entries.filter fun entry => entry.2 = (txHash, commit)).length

/-- Modelled from the spec: a tx hash whose entries of commit bit `commit` reach the quorum. -/
def findQuorum (tally : Tally) (quorum : Nat) (commit : Bool) : Option TxHash :=
  (tally.votes.entries.map fun entry => entry.2.1).find? fun txHash =>
    quorum ≤ tally.count txHash commit

/-- Modelled from the spec: `find_quorum_of_votes`, a quorum of non-commit votes. -/
def findQuorumOfVotes (tally : Tally) (quorum : Nat) : Option TxHash :=
  tally.findQuorum quorum false

theorem findQuorum_entry {tally : Tally} {quorum : Nat} {commit : Bool} {txHash : TxHash}
    (found : tally.findQuorum quorum commit = some txHash) :
    ∃ author entry, tally.votes.lookup author = some entry ∧ entry.1 = txHash := by
  obtain ⟨entry, member, rfl⟩ := List.mem_map.mp (List.mem_of_find?_eq_some found)
  exact ⟨entry.1, entry.2, AList.mem_lookup_iff.mpr member, rfl⟩

/-- A quorum `find_quorum` reports is reached. -/
theorem findQuorum_count {tally : Tally} {quorum : Nat} {commit : Bool} {txHash : TxHash}
    (found : tally.findQuorum quorum commit = some txHash) :
    quorum ≤ tally.count txHash commit := by
  unfold findQuorum at found
  simpa using List.find?_some found

end Tally

/-- Modelled from the spec: an election, with its tallies by vote-round, the highest tx hash
seen, the committed hash with the round of its proof, and the decided flag. -/
structure Election where
  /-- `tallies`: vote-round to tally. -/
  tallies : Map Round Tally
  /-- `highest`: the highest tx hash seen. -/
  highest : Option TxHash
  /-- `commit`: the hash this replica committed to. -/
  commit : Option TxHash
  /-- `proof_round`: the vote-round whose quorum justified `commit`. -/
  proofRound : Option Round
  /-- `decided`. -/
  decided : Bool
  deriving DecidableEq

namespace Election

/-- Modelled from the spec: `Election::new`. -/
def new : Election :=
  { tallies := ∅, highest := none, commit := none, proofRound := none, decided := false }

/-- Modelled from the spec: `insert_vote` records the vote as its author's entry in the tally of
its vote-round, creating that tally if needed, and raises `highest`. -/
def insertVote (election : Election) (vote : Vote) : Election :=
  let tally := (election.tallies.lookup vote.round).getD Tally.new
  { election with
    tallies := election.tallies.insert vote.round
      { tally with votes := tally.votes.insert vote.author (vote.txHash, vote.commit) }
    highest := some (match election.highest with
      | none => vote.txHash
      | some highest => max highest vote.txHash) }

/-- Modelled from the spec: `voted_or_committed`, whether the author has an entry in the tally
of the round. -/
def votedOrCommitted (election : Election) (author : PublicKey) (round : Round) : Bool :=
  match election.tallies.lookup round with
  | some tally => decide (author ∈ tally.votes)
  | none => false

/-- Modelled from the spec: `find_quorum_of_commits`, a hash with a quorum of commit votes in
some tally of the election. -/
def findQuorumOfCommits (election : Election) (quorum : Nat) : Option TxHash :=
  election.tallies.entries.findSome? fun entry => entry.2.findQuorum quorum true

/-- Modelled from the spec: the tally timer of a round latches to `Expired`. -/
def expire (election : Election) (round : Round) : Election :=
  match election.tallies.lookup round with
  | some tally =>
      { election with tallies := election.tallies.insert round { tally with timer := .expired } }
  | none => election

@[simp] theorem insertVote_decided (election : Election) (vote : Vote) :
    (election.insertVote vote).decided = election.decided := rfl

@[simp] theorem insertVote_commit (election : Election) (vote : Vote) :
    (election.insertVote vote).commit = election.commit := rfl

@[simp] theorem insertVote_proofRound (election : Election) (vote : Vote) :
    (election.insertVote vote).proofRound = election.proofRound := rfl

@[simp] theorem expire_decided (election : Election) (round : Round) :
    (election.expire round).decided = election.decided := by
  unfold expire; split <;> rfl

theorem insertVote_highest_isSome (election : Election) (vote : Vote) :
    (election.insertVote vote).highest.isSome := rfl

@[simp] theorem votedOrCommitted_insertVote_self (election : Election) (vote : Vote) :
    (election.insertVote vote).votedOrCommitted vote.author vote.round = true := by
  simp [votedOrCommitted, insertVote, AList.lookup_insert, AList.mem_insert]

/-! ## Every hash an election reports is one it was given -/

/-- All hashes an election holds, in its tallies, `highest` and `commit`, satisfy `ok`. -/
def Holds (ok : TxHash → Prop) (election : Election) : Prop :=
  (∀ round tally author entry, election.tallies.lookup round = some tally →
      tally.votes.lookup author = some entry → ok entry.1) ∧
    (∀ txHash, election.highest = some txHash → ok txHash) ∧
    (∀ txHash, election.commit = some txHash → ok txHash)

section Holds

variable {ok : TxHash → Prop}

theorem Holds.mono {election : Election} (holds : election.Holds ok) {wider : TxHash → Prop}
    (widen : ∀ txHash, ok txHash → wider txHash) : election.Holds wider :=
  ⟨fun _ _ _ _ found entryFound => widen _ (holds.1 _ _ _ _ found entryFound),
    fun _ found => widen _ (holds.2.1 _ found), fun _ found => widen _ (holds.2.2 _ found)⟩

theorem holds_new : new.Holds ok :=
  ⟨fun _ _ _ _ found => by simp [new] at found, fun _ => by simp [new], fun _ => by simp [new]⟩

theorem Holds.insertVote {election : Election} (holds : election.Holds ok) {vote : Vote}
    (valid : ok vote.txHash) : (election.insertVote vote).Holds ok := by
  obtain ⟨tallies, highest, commit⟩ := holds
  refine ⟨fun round tally author entry found entryFound => ?_, fun txHash found => ?_, commit⟩
  · by_cases sameRound : round = vote.round
    · subst sameRound
      simp only [Election.insertVote, AList.lookup_insert, Option.some.injEq] at found
      subst found
      by_cases sameAuthor : author = vote.author
      · subst sameAuthor
        simp only [AList.lookup_insert, Option.some.injEq] at entryFound
        exact entryFound ▸ valid
      · rw [AList.lookup_insert_ne sameAuthor] at entryFound
        cases previous : election.tallies.lookup vote.round with
        | none => simp [previous, Tally.new] at entryFound
        | some before => exact tallies _ before _ _ previous (by simpa [previous] using entryFound)
    · rw [Election.insertVote, AList.lookup_insert_ne sameRound] at found
      exact tallies _ _ _ _ found entryFound
  · simp only [Election.insertVote, Option.some.injEq] at found
    split at found
    · exact found ▸ valid
    · next previous =>
        rcases max_choice _ vote.txHash with larger | larger <;> rw [larger] at found
        · exact found ▸ highest _ previous
        · exact found ▸ valid

theorem Holds.expire {election : Election} (holds : election.Holds ok) (round : Round) :
    (election.expire round).Holds ok := by
  obtain ⟨tallies, highest, commit⟩ := holds
  unfold Election.expire
  split
  · next tally previous =>
      refine ⟨fun round' tally' author entry found entryFound => ?_, highest, commit⟩
      by_cases sameRound : round' = round
      · subst sameRound
        simp only [AList.lookup_insert, Option.some.injEq] at found
        subst found
        exact tallies _ _ _ _ previous entryFound
      · rw [AList.lookup_insert_ne sameRound] at found
        exact tallies _ _ _ _ found entryFound
  · exact ⟨tallies, highest, commit⟩

theorem Holds.findQuorum {election : Election} (holds : election.Holds ok) {round : Round}
    {tally : Tally} (found : election.tallies.lookup round = some tally) {quorum : Nat}
    {commit : Bool} {txHash : TxHash} (quorumFound : tally.findQuorum quorum commit = some txHash) :
    ok txHash := by
  obtain ⟨author, entry, entryFound, rfl⟩ := Tally.findQuorum_entry quorumFound
  exact holds.1 _ _ _ _ found entryFound

theorem Holds.findQuorumOfCommits {election : Election} (holds : election.Holds ok)
    {quorum : Nat} {txHash : TxHash} (found : election.findQuorumOfCommits quorum = some txHash) :
    ok txHash := by
  obtain ⟨entry, member, quorumFound⟩ := List.exists_of_findSome?_eq_some found
  exact holds.findQuorum (AList.mem_lookup_iff.mpr member) quorumFound

end Holds

end Election

end Primary
end DelegatedRingCT
