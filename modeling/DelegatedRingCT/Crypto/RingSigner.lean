import Mathlib.Data.List.Basic

/-!
# `NoKeysRingSigner::sign`

`crypto/ring-signature/signer/src/no_keys_ring_signer.rs` signs with the one-time private key
the input secret carries, after three checks, in this order: the real input index lies inside
the ring, the real input's target key is a valid point, and the secret is a one-time key (not a
subaddress index) whose public key is that point.  It then decompresses the target key of every
ring member, unwrapping each, and calls the Triptych `Sign` on the lossy UTF-8 reading of the
message.

The curve arithmetic, the signature scheme and the UTF-8 decoder belong to crates that are not
part of the sources; they are the fields of `Primitives`.  The result: `sign` panics exactly
when the checks pass and some member does not decompress, and, when `try_from` accepts only
points that decompress, that member is a decoy, never the real input.
-/

namespace DelegatedRingCT
namespace Crypto

/-- The operations `sign` calls, of crates that are not part of the sources. -/
structure Primitives (Scalar Compressed Point Signature KeyError : Type) where
  /-- `RistrettoPublic::try_from(&CompressedRistrettoPublic)`. -/
  tryFrom : Compressed → Except KeyError Point
  /-- `RistrettoPublic::from(&RistrettoPrivate)`: the public key of a private scalar. -/
  publicOf : Scalar → Point
  /-- `CompressedRistretto::decompress`. -/
  decompress : Compressed → Option Point
  /-- `String::from_utf8_lossy`. -/
  fromUtf8Lossy : List UInt8 → String
  /-- The Triptych `Sign(private_key, message, ring)`. -/
  sign : Scalar → String → List Point → Signature

/-- `OneTimeKeyDeriveData`: the one-time private key itself, or the subaddress index it would
be derived from. -/
inductive OneTimeKeyDeriveData (Scalar : Type)
  | oneTimeKey (key : Scalar)
  | subaddressIndex (index : Nat)
  deriving DecidableEq, Repr

/-- A ring member, reduced to the `target_key` that `sign` reads. -/
structure RingMember (Compressed : Type) where
  /-- `target_key`, a compressed point. -/
  targetKey : Compressed
  deriving DecidableEq, Repr

/-- `SignableInputRing`, reduced to the fields `sign` reads. -/
structure SignableInputRing (Scalar Compressed : Type) where
  /-- `members`: the ring, real input and decoys. -/
  members : List (RingMember Compressed)
  /-- `real_input_index`. -/
  realInputIndex : Nat
  /-- `input_secret.onetime_key_derive_data`. -/
  onetimeKeyDeriveData : OneTimeKeyDeriveData Scalar

/-- The variants of the signer's `Error` that `sign` returns. -/
inductive Error (KeyError : Type)
  | realInputIndexOutOfBounds
  | /-- A `KeyError` of `try_from`, converted by `?`. -/
    keys (error : KeyError)
  | noPathToSpendKey
  | trueInputNotOwned
  deriving DecidableEq, Repr

namespace NoKeysRingSigner

variable {Scalar Compressed Point Signature KeyError : Type}
  (primitives : Primitives Scalar Compressed Point Signature KeyError)

/-- `ring.members.iter().map(|x| x.target_key.0.decompress().unwrap()).collect()`; `none` is the
panic of an `unwrap`. -/
def decompressAll : List (RingMember Compressed) → Option (List Point)
  | [] => some []
  | member :: members => do
      let point ← primitives.decompress member.targetKey
      let points ← decompressAll members
      pure (point :: points)

/-- `NoKeysRingSigner::sign`; `none` is the panic of a `decompress().unwrap()`. -/
def sign [DecidableEq Point] (message : List UInt8) (ring : SignableInputRing Scalar Compressed) :
    Option (Except (Error KeyError) Signature) :=
  match ring.members[ring.realInputIndex]? with
  | none => some (.error .realInputIndexOutOfBounds)
  | some realInput =>
      match primitives.tryFrom realInput.targetKey with
      | .error error => some (.error (.keys error))
      | .ok targetKey =>
          match ring.onetimeKeyDeriveData with
          | .subaddressIndex _ => some (.error .noPathToSpendKey)
          | .oneTimeKey key =>
              if primitives.publicOf key ≠ targetKey then some (.error .trueInputNotOwned)
              else (decompressAll primitives ring.members).map fun points =>
                .ok (primitives.sign key (primitives.fromUtf8Lossy message) points)

variable {primitives}

theorem decompressAll_eq_none {members : List (RingMember Compressed)} :
    decompressAll primitives members = none ↔
      ∃ member ∈ members, primitives.decompress member.targetKey = none := by
  induction members with
  | nil => simp [decompressAll]
  | cons member members induction =>
      cases found : primitives.decompress member.targetKey <;>
        cases rest : decompressAll primitives members <;>
        simp [decompressAll, found, rest, ← induction]

/-- The three checks of `sign` pass with `key`: the real input is in the ring, its target key is
the point `key` is the private key of, and the secret is that one-time key. -/
def Owns (primitives : Primitives Scalar Compressed Point Signature KeyError)
    (ring : SignableInputRing Scalar Compressed) (key : Scalar) : Prop :=
  ring.onetimeKeyDeriveData = .oneTimeKey key ∧ ∃ realInput,
    ring.members[ring.realInputIndex]? = some realInput ∧
      primitives.tryFrom realInput.targetKey = .ok (primitives.publicOf key)

/-- When the checks pass, `sign` signs the decompressed ring, or panics if it cannot. -/
theorem sign_of_owns [DecidableEq Point] {ring : SignableInputRing Scalar Compressed} {key : Scalar}
    (owns : Owns primitives ring key) (message : List UInt8) :
    sign primitives message ring = (decompressAll primitives ring.members).map fun points =>
      .ok (primitives.sign key (primitives.fromUtf8Lossy message) points) := by
  obtain ⟨secret, realInput, found, parsed⟩ := owns
  simp [sign, found, parsed, secret]

theorem sign_of_not_owns [DecidableEq Point] {ring : SignableInputRing Scalar Compressed}
    (disowned : ∀ key, ¬Owns primitives ring key) (message : List UInt8) :
    ∃ error, sign primitives message ring = some (.error error) := by
  unfold sign
  split
  · exact ⟨_, rfl⟩
  next realInput found =>
  split
  · exact ⟨_, rfl⟩
  next targetKey parsed =>
  split
  · exact ⟨_, rfl⟩
  next key secret =>
  rw [if_pos (show primitives.publicOf key ≠ targetKey from fun same =>
    disowned key ⟨secret, realInput, found, same ▸ parsed⟩)]
  exact ⟨_, rfl⟩

/-- `sign` panics only when the checks pass and a member does not decompress, and that member is
a decoy, never the real input. -/
theorem noKeysRingSigner_sign_panics [DecidableEq Point] (message : List UInt8)
    (ring : SignableInputRing Scalar Compressed)
    (agree : ∀ compressed point, primitives.tryFrom compressed = .ok point →
      primitives.decompress compressed = some point)
    (panicked : sign primitives message ring = none) :
    (∃ key, Owns primitives ring key) ∧ ∃ index member, ring.members[index]? = some member ∧
      index ≠ ring.realInputIndex ∧ primitives.decompress member.targetKey = none := by
  by_cases owned : ∃ key, Owns primitives ring key
  · obtain ⟨key, owns⟩ := owned
    rw [sign_of_owns owns, Option.map_eq_none'] at panicked
    obtain ⟨member, member_in, broken⟩ := decompressAll_eq_none.mp panicked
    obtain ⟨index, found⟩ := List.getElem?_of_mem member_in
    refine ⟨⟨key, owns⟩, index, member, found, fun same => ?_, broken⟩
    obtain ⟨-, realInput, real, parsed⟩ := owns
    rw [same, real, Option.some.injEq] at found
    subst found
    rw [agree _ _ parsed] at broken
    cases broken
  · obtain ⟨error, failed⟩ := sign_of_not_owns (fun key owns => owned ⟨key, owns⟩) message
    rw [failed] at panicked
    cases panicked

/-- A decoy that does not decompress makes `sign` panic although the secret owns the real input. -/
theorem noKeysRingSigner_sign_panics_decoy :
    let primitives : Primitives Nat Nat Nat Nat Unit :=
      { tryFrom := fun compressed => if compressed < 100 then .ok compressed else .error ()
        publicOf := id
        decompress := fun compressed => if compressed < 100 then some compressed else none
        fromUtf8Lossy := fun _ => ""
        sign := fun key _ ring => key + ring.length }
    let ring : SignableInputRing Nat Nat :=
      { members := [⟨5⟩, ⟨500⟩], realInputIndex := 0, onetimeKeyDeriveData := .oneTimeKey 5 }
    (∀ compressed point, primitives.tryFrom compressed = .ok point →
      primitives.decompress compressed = some point) ∧
    sign primitives [] ring = none ∧
    (∃ key, Owns primitives ring key) ∧ ∃ index member, ring.members[index]? = some member ∧
      index ≠ ring.realInputIndex ∧ primitives.decompress member.targetKey = none := by
  intro primitives ring
  have agree : ∀ compressed point, primitives.tryFrom compressed = .ok point →
      primitives.decompress compressed = some point := by
    intro compressed point parsed
    simp only [primitives] at parsed ⊢
    split at parsed
    · next small => rw [if_pos small, Except.ok.inj parsed]
    · cases parsed
  have panicked : sign primitives [] ring = none := rfl
  exact ⟨agree, panicked, noKeysRingSigner_sign_panics [] ring agree panicked⟩

end NoKeysRingSigner
end Crypto
end DelegatedRingCT
