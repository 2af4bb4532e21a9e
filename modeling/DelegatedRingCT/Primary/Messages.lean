import Mathlib.Data.List.AList
import Mathlib.Algebra.BigOperators.Group.List
import Mathlib.Algebra.Order.Ring.Nat

/-!
# Primary messages

The identifiers and wire messages the proposer exchanges with its peers
(`primary/src/messages.rs` is not part of the sources; the fields are those `proposer.rs`
reads and writes).  Digests, hashes, election ids, rounds and public keys are all numbers:
the proposer only compares them, looks them up and, for `highest`, orders them.  Signatures
are left out, since nothing in the proposer checks one.
-/

namespace DelegatedRingCT
namespace Primary

/-- A 32-byte digest, read as a big-endian number, so that the numeric order is the
lexicographic order of the bytes. -/
abbrev Digest := Nat

/-- `TxHash = Digest`: the digest of a batch a worker announces. -/
abbrev TxHash := Digest

/-- An election id: the digest identifying one unit of agreement. -/
abbrev ElectionId := Digest

/-- A round of the DAG, or a vote-round of an election. -/
abbrev Round := Nat

/-- An authority's public key. -/
abbrev PublicKey := Nat

/-- The hash maps of the proposer, as association lists with distinct keys. -/
abbrev Map (κ ν : Type) := AList fun _ : κ => ν

namespace Map

variable {κ ν : Type}

/-- The sum of `f` over the values of a map. -/
def sum (map : Map κ ν) (f : ν → Nat) : Nat := (map.entries.map fun entry => f entry.2).sum

@[simp]
theorem sum_empty (f : ν → Nat) : (∅ : Map κ ν).sum f = 0 := rfl

theorem sum_insert [DecidableEq κ] (map : Map κ ν) (key : κ) (value : ν) (f : ν → Nat) :
    Map.sum (map.insert key value) f + ((map.lookup key).map f).getD 0 = map.sum f + f value := by
  by_cases present : key ∈ map
  · obtain ⟨old, front, back, notFront, split, erased⟩ :=
      List.exists_of_kerase (AList.mem_keys.mp present)
    have found : map.lookup key = some old := by
      rw [AList.lookup, split, List.dlookup_append, List.dlookup_eq_none.mpr notFront]
      simp
    simp only [sum, AList.insert_entries, erased, found, Option.map_some', Option.getD_some]
    rw [split]
    simp only [List.map_cons, List.map_append, List.sum_cons, List.sum_append]
    omega
  · simp only [sum, AList.insert_entries_of_neg present, AList.lookup_eq_none.mpr present,
      List.map_cons, List.sum_cons, Option.map_none', Option.getD_none]
    omega

end Map

/-- A vote of the per-election voting protocol. -/
structure Vote where
  /-- The vote-round inside the election. -/
  round : Round
  /-- The proposed batch the vote endorses. -/
  txHash : TxHash
  /-- The election the vote belongs to. -/
  electionId : ElectionId
  /-- The round of the header that opened the election. -/
  proposalRound : Round
  /-- Whether this is a commit vote. -/
  commit : Bool
  /-- The voting authority. -/
  author : PublicKey
  /-- The header that opened the election. -/
  headerId : Digest
  deriving DecidableEq, Ord, Repr

/-- A header: one replica's proposals of a round. -/
structure Header where
  /-- The round the header was made in. -/
  round : Round
  /-- The proposing authority. -/
  author : PublicKey
  /-- The proposed `(tx_hash, election_id)` pairs (`header.votes` in the sources). -/
  votes : List (TxHash × ElectionId)
  /-- The header digest. -/
  id : Digest
  deriving DecidableEq, Repr

/-- The messages primaries exchange; the proposer ignores certificates. -/
inductive PrimaryMessage
  | header (header : Header)
  | vote (vote : Vote)
  | certificate
  deriving DecidableEq, Repr

/-- Where a broadcast goes: `self.addresses`, every primary of the committee, or
`self.other_primaries`, every primary but this one. -/
inductive Recipients
  | addresses
  | otherPrimaries
  deriving DecidableEq, Repr

/-- A message handed to `network.broadcast`. -/
structure Outbound where
  /-- The address list it is sent to. -/
  recipients : Recipients
  /-- The serialised message. -/
  message : PrimaryMessage
  deriving DecidableEq, Repr

/-- The votes among a list of outbound messages. -/
def Outbound.votes (out : List Outbound) : List Vote :=
  out.filterMap fun outbound =>
    match outbound.message with
    | .vote vote => some vote
    | _ => none

/-- The headers among a list of outbound messages. -/
def Outbound.headers (out : List Outbound) : List Header :=
  out.filterMap fun outbound =>
    match outbound.message with
    | .header header => some header
    | _ => none

@[simp]
theorem Outbound.votes_nil : Outbound.votes [] = [] := rfl

@[simp]
theorem Outbound.votes_append (left right : List Outbound) :
    Outbound.votes (left ++ right) = Outbound.votes left ++ Outbound.votes right := by
  simp [Outbound.votes]

@[simp]
theorem Outbound.headers_nil : Outbound.headers [] = [] := rfl

@[simp]
theorem Outbound.headers_append (left right : List Outbound) :
    Outbound.headers (left ++ right) = Outbound.headers left ++ Outbound.headers right := by
  simp [Outbound.headers]

end Primary
end DelegatedRingCT
