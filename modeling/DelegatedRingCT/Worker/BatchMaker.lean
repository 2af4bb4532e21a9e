import Mathlib.Algebra.BigOperators.Group.List
import Mathlib.Algebra.Order.Ring.Nat

/-!
# The batch maker

`BatchMaker::run` of `worker/src/batch_maker.rs` assembles client transactions into batches.
Every arrival is appended to `current_batch` and adds `data.len() + 32` to
`current_batch_size`; the batch is sealed as soon as that size reaches `batch_size`, or when
the batch timer fires on a non-empty batch.  `seal` drains the batch into a `Block`, names it
by the first transaction's id and sends the pair on `tx_batch`.

The loop is modelled as an executable step function over the two events of its `select!`.  How
`seal` can panic depends on the build and on the channel: indexing `batch[0]` on an empty batch
panics in every build, the benchmark build first reads `tx.id[0]` of every transaction to log
sample ids, and `tx_batch.send(..).await.expect(..)` panics once the receiver of `tx_batch` is
gone.  `runIn` runs the loop in any `Setting`; `run` is the default build with the receiver
alive.  For `run`, no input reaches the panic on `batch[0]`; sealing neither loses, duplicates
nor reorders a transaction; and `current_batch_size` is the size of `current_batch` and stays
below `batch_size` at the head of every iteration, so that a block without its last transaction
is below `batch_size` too, unless `batch_size` is zero.  In any other setting the loop sends
what `run` sends, until the first block that the setting's `seal` panics on.
-/

namespace DelegatedRingCT
namespace Worker

/-- A client transaction, reduced to the two byte strings the batch maker reads. -/
structure Transaction where
  /-- Client-chosen identifier; its first 32 bytes name the batch it opens. -/
  id : List UInt8
  /-- Payload; it counts `data.len() + 32` bytes towards the batch size. -/
  data : List UInt8
  deriving DecidableEq, Repr

/-- The bytes a transaction adds to `current_batch_size`. -/
def Transaction.size (tx : Transaction) : Nat := tx.data.length + 32

/-- A sealed batch, `Block { txs }`. -/
structure Block where
  /-- The drained transactions, in arrival order. -/
  txs : List Transaction
  deriving DecidableEq, Repr

/-- The 32-byte batch name: the first transaction id, zero-padded or truncated to 32 bytes. -/
def batchDigest (id : List UInt8) : List UInt8 :=
  (id ++ List.replicate (32 - id.length) 0).take 32

@[simp]
theorem batchDigest_length (id : List UInt8) : (batchDigest id).length = 32 := by
  simp only [batchDigest, List.length_take, List.length_append, List.length_replicate]
  omega

/-- What `seal` sends on `tx_batch`: the block and its digest. -/
structure Sealed where
  /-- The block, before serialisation. -/
  block : Block
  /-- `Digest(array)`, built from the first transaction id. -/
  digest : List UInt8
  deriving DecidableEq, Repr

/-- The state of `BatchMaker` that its loop reads and writes. -/
structure BatchMaker where
  /-- The preferred batch size, in bytes. -/
  batchSize : Nat
  /-- The batch being assembled. -/
  currentBatch : List Transaction
  /-- The accumulated size of `currentBatch`, in bytes. -/
  currentBatchSize : Nat
  deriving DecidableEq, Repr

namespace BatchMaker

/-- The state `BatchMaker::spawn` starts the loop from. -/
def new (batchSize : Nat) : BatchMaker :=
  { batchSize, currentBatch := [], currentBatchSize := 0 }

/-- `seal`: reset the size, drain the batch and name it by `batch[0].id`; `none` is the
panic of indexing an empty batch. -/
def «seal» (maker : BatchMaker) : Option (BatchMaker × Sealed) :=
  match maker.currentBatch with
  | [] => none
  | first :: rest =>
      some ({ maker with currentBatchSize := 0, currentBatch := [] },
        { block := { txs := first :: rest }, digest := batchDigest first.id })

/-- The build and the channel a batch maker runs with. -/
structure Setting where
  /-- Built with the `benchmark` feature. -/
  benchmark : Bool
  /-- The receiver of `tx_batch` is still alive, so `send` succeeds. -/
  receiverAlive : Bool
  deriving DecidableEq, Repr

/-- The default build, with the receiver of `tx_batch` alive. -/
def Setting.plain : Setting := { benchmark := false, receiverAlive := true }

/-- The benchmark build's scan for sample transactions: the 8 bytes after a leading `0` of every
id longer than 8 bytes; `none` is the panic of `tx.id[0]` on an empty id. -/
def sampleIds : List Transaction → Option (List (List UInt8))
  | [] => some []
  | tx :: rest =>
      match tx.id with
      | [] => none
      | first :: _ =>
          (sampleIds rest).map fun ids =>
            if first = 0 ∧ 8 < tx.id.length then (tx.id.drop 1).take 8 :: ids else ids

/-- `seal` in a setting: the benchmark build scans the batch first, and the send on `tx_batch`
panics, `expect("Failed to deliver batch")`, when the receiver is gone. -/
def sealIn (setting : Setting) (maker : BatchMaker) : Option (BatchMaker × Sealed) := do
  let _txIds ← if setting.benchmark then sampleIds maker.currentBatch else pure []
  let result ← maker.«seal»
  if setting.receiverAlive then pure result else none

/-- The two branches of the loop's `select!`. -/
inductive Event
  | /-- A transaction arrives on `rx_transaction`. -/
    transaction (tx : Transaction)
  | /-- The `max_batch_delay` timer fires. -/
    timer
  deriving DecidableEq, Repr

/-- The transactions an event delivers on `rx_transaction`. -/
def Event.arrivals : Event → List Transaction
  | .transaction tx => [tx]
  | .timer => []

/-- `seal`, with its output as the list of batches sent in this iteration. -/
def sealOut (setting : Setting) (maker : BatchMaker) : Option (BatchMaker × List Sealed) :=
  (maker.sealIn setting).map fun (sealed, out) => (sealed, [out])

/-- One iteration of the loop. -/
def stepIn (setting : Setting) (maker : BatchMaker) : Event → Option (BatchMaker × List Sealed)
  | .transaction tx =>
      let grown := { maker with
        currentBatchSize := maker.currentBatchSize + tx.size
        currentBatch := maker.currentBatch ++ [tx] }
      if grown.batchSize ≤ grown.currentBatchSize then grown.sealOut setting
      else some (grown, [])
  | .timer => if maker.currentBatch.isEmpty then some (maker, []) else maker.sealOut setting

/-- The loop over a sequence of events, collecting every batch sent on `tx_batch`. -/
def runIn (setting : Setting) (maker : BatchMaker) : List Event → Option (BatchMaker × List Sealed)
  | [] => some (maker, [])
  | event :: events => do
      let (next, out) ← maker.stepIn setting event
      let (final, rest) ← next.runIn setting events
      pure (final, out ++ rest)

/-- One iteration in the default build with the receiver alive. -/
def step (maker : BatchMaker) (event : Event) : Option (BatchMaker × List Sealed) :=
  maker.stepIn .plain event

/-- The loop in the default build with the receiver alive. -/
def run (maker : BatchMaker) (events : List Event) : Option (BatchMaker × List Sealed) :=
  maker.runIn .plain events

theorem run_cons (maker : BatchMaker) (event : Event) (events : List Event) :
    maker.run (event :: events) = (do
      let (next, out) ← maker.step event
      let (final, rest) ← next.run events
      pure (final, out ++ rest)) := rfl

@[simp]
theorem sealIn_plain (maker : BatchMaker) : maker.sealIn .plain = maker.«seal» := by
  simp only [sealIn, Setting.plain]
  cases maker.«seal» <;> rfl

/-- The transactions of a list of sent batches, in emission order. -/
def sealedTxs (sent : List Sealed) : List Transaction :=
  (sent.map fun sealed => sealed.block.txs).flatten

@[simp]
theorem sealedTxs_nil : sealedTxs [] = [] := rfl

@[simp]
theorem sealedTxs_append (left right : List Sealed) :
    sealedTxs (left ++ right) = sealedTxs left ++ sealedTxs right := by
  simp [sealedTxs]

theorem sealOut_of_ne_nil {maker : BatchMaker} (nonempty : maker.currentBatch ≠ []) :
    ∃ next out, maker.sealOut .plain = some (next, out) ∧
      sealedTxs out ++ next.currentBatch = maker.currentBatch ∧
      next.batchSize = maker.batchSize := by
  rw [sealOut, sealIn_plain]
  unfold «seal»
  cases batch : maker.currentBatch with
  | nil => exact absurd batch nonempty
  | cons first rest => exact ⟨_, _, rfl, by simp [sealedTxs], rfl⟩

theorem step_preserves_txs (maker : BatchMaker) (event : Event) :
    ∃ next out, maker.step event = some (next, out) ∧
      sealedTxs out ++ next.currentBatch = maker.currentBatch ++ event.arrivals ∧
      next.batchSize = maker.batchSize := by
  cases event with
  | transaction tx =>
      simp only [step, stepIn, Event.arrivals]
      split
      · exact sealOut_of_ne_nil (by simp)
      · exact ⟨_, [], rfl, rfl, rfl⟩
  | timer =>
      simp only [step, stepIn, Event.arrivals, List.append_nil]
      split
      · exact ⟨_, [], rfl, rfl, rfl⟩
      · next nonempty => exact sealOut_of_ne_nil (by simpa [List.isEmpty_iff] using nonempty)

/-- A run sends the batch it started from followed by every arrival, in order. -/
theorem run_preserves_txs (maker : BatchMaker) (events : List Event) :
    ∃ final sent, maker.run events = some (final, sent) ∧
      sealedTxs sent ++ final.currentBatch =
        maker.currentBatch ++ (events.map Event.arrivals).flatten := by
  induction events generalizing maker with
  | nil => exact ⟨maker, [], rfl, by simp⟩
  | cons event events induction =>
      obtain ⟨next, out, stepped, preserved, -⟩ := maker.step_preserves_txs event
      obtain ⟨final, sent, ran, rest⟩ := induction next
      refine ⟨final, out ++ sent, by simp [run_cons, stepped, ran], ?_⟩
      calc sealedTxs (out ++ sent) ++ final.currentBatch
          = sealedTxs out ++ (next.currentBatch ++ (events.map Event.arrivals).flatten) := by
            simp [rest]
        _ = maker.currentBatch ++ ((event :: events).map Event.arrivals).flatten := by
            rw [← List.append_assoc, preserved]
            simp

/-- The sent blocks followed by `current_batch` are the arrivals, in order. -/
theorem batchMaker_run_no_loss (batchSize : Nat) (events : List Event) :
    ∃ final sent, (new batchSize).run events = some (final, sent) ∧
      sealedTxs sent ++ final.currentBatch = (events.map Event.arrivals).flatten := by
  simpa [new] using run_preserves_txs (new batchSize) events

/-! ## The size invariant -/

/-- The invariant at the head of every iteration: `current_batch_size` is the size of
`current_batch`, and a non-empty batch is still below `batch_size`. -/
structure Invariant (maker : BatchMaker) : Prop where
  size : maker.currentBatchSize = (maker.currentBatch.map Transaction.size).sum
  below : maker.currentBatch = [] ∨ maker.currentBatchSize < maker.batchSize

/-- What every sent block satisfies: it is non-empty, and without its last transaction it is
below `batch_size`, unless `batch_size` is zero and the block is a single transaction. -/
def Bounded (batchSize : Nat) (sealed : Sealed) : Prop :=
  sealed.block.txs ≠ [] ∧
    ((sealed.block.txs.dropLast.map Transaction.size).sum < batchSize ∨
      batchSize = 0 ∧ sealed.block.txs.length = 1)

theorem invariant_new (batchSize : Nat) : (new batchSize).Invariant := ⟨rfl, .inl rfl⟩

theorem sealOut_eq (maker : BatchMaker) (nonempty : maker.currentBatch ≠ []) :
    ∃ digest, maker.sealOut .plain = some ({ maker with currentBatchSize := 0, currentBatch := [] },
      [{ block := { txs := maker.currentBatch }, digest }]) := by
  rw [sealOut, sealIn_plain]
  unfold «seal»
  cases batch : maker.currentBatch with
  | nil => exact absurd batch nonempty
  | cons first rest => exact ⟨_, rfl⟩

theorem bounded_of_arrival {maker : BatchMaker} (inv : maker.Invariant) (tx : Transaction)
    (digest : List UInt8) :
    Bounded maker.batchSize { block := { txs := maker.currentBatch ++ [tx] }, digest } := by
  refine ⟨by simp, ?_⟩
  simp only [List.dropLast_concat, ← inv.size]
  rcases inv.below with empty | below
  · simp only [empty, List.nil_append, List.length_singleton, and_true, inv.size, List.map_nil,
      List.sum_nil]
    omega
  · exact .inl below

theorem bounded_of_timer {maker : BatchMaker} (inv : maker.Invariant)
    (nonempty : maker.currentBatch ≠ []) (digest : List UInt8) :
    Bounded maker.batchSize { block := { txs := maker.currentBatch }, digest } := by
  have split := congrArg (fun txs => (txs.map Transaction.size).sum)
    (List.dropLast_append_getLast nonempty)
  simp only [List.map_append, List.sum_append, List.map_singleton, List.sum_singleton] at split
  have below := inv.below.resolve_left nonempty
  rw [inv.size] at below
  refine ⟨nonempty, .inl ?_⟩
  dsimp only
  omega

theorem step_invariant {maker : BatchMaker} (inv : maker.Invariant) (event : Event) :
    ∃ next out, maker.step event = some (next, out) ∧ next.Invariant ∧
      next.batchSize = maker.batchSize ∧ ∀ sealed ∈ out, Bounded maker.batchSize sealed := by
  have emptied : ({ maker with currentBatchSize := 0, currentBatch := [] } : BatchMaker).Invariant :=
    ⟨rfl, .inl rfl⟩
  cases event with
  | transaction tx =>
      simp only [step, stepIn]
      split
      · obtain ⟨digest, sealed⟩ := sealOut_eq { maker with
          currentBatchSize := maker.currentBatchSize + tx.size
          currentBatch := maker.currentBatch ++ [tx] } (by simp)
        refine ⟨_, _, sealed, emptied, rfl, ?_⟩
        simpa using bounded_of_arrival inv tx digest
      · next below =>
          refine ⟨_, [], rfl, ⟨by simp [inv.size], .inr (by simpa using below)⟩, rfl, by simp⟩
  | timer =>
      simp only [step, stepIn]
      split
      · exact ⟨maker, [], rfl, inv, rfl, by simp⟩
      · next nonempty =>
          have nonempty : maker.currentBatch ≠ [] := by simpa [List.isEmpty_iff] using nonempty
          obtain ⟨digest, sealed⟩ := sealOut_eq maker nonempty
          refine ⟨_, _, sealed, emptied, rfl, ?_⟩
          simpa using bounded_of_timer inv nonempty digest

/-- A run from a state with the invariant keeps it and sends only bounded blocks. -/
theorem run_invariant {maker : BatchMaker} (inv : maker.Invariant) (events : List Event) :
    ∃ final sent, maker.run events = some (final, sent) ∧ final.Invariant ∧
      final.batchSize = maker.batchSize ∧ ∀ sealed ∈ sent, Bounded maker.batchSize sealed := by
  induction events generalizing maker with
  | nil => exact ⟨maker, [], rfl, inv, rfl, by simp⟩
  | cons event events induction =>
      obtain ⟨next, out, stepped, nextInv, sameSize, bounded⟩ := step_invariant inv event
      obtain ⟨final, sent, ran, finalInv, finalSize, rest⟩ := induction nextInv
      refine ⟨final, out ++ sent, by simp [run_cons, stepped, ran], finalInv,
        finalSize.trans sameSize, fun sealed member => ?_⟩
      rcases List.mem_append.mp member with member | member
      exacts [bounded sealed member, sameSize ▸ rest sealed member]

/-- The size invariant of `run` and the bound on every sent block; `batch[0]` never panics. -/
theorem batchMaker_run_sizes (batchSize : Nat) (events : List Event) :
    ∃ final sent, (new batchSize).run events = some (final, sent) ∧
      final.currentBatchSize = (final.currentBatch.map Transaction.size).sum ∧
      (final.currentBatch = [] ∨ final.currentBatchSize < batchSize) ∧
      ∀ sealed ∈ sent, sealed.block.txs ≠ [] ∧
        ((sealed.block.txs.dropLast.map Transaction.size).sum < batchSize ∨
          batchSize = 0 ∧ sealed.block.txs.length = 1) := by
  obtain ⟨final, sent, ran, inv, sameSize, bounded⟩ := run_invariant (invariant_new batchSize) events
  exact ⟨final, sent, ran, inv.size, (show final.batchSize = batchSize from sameSize) ▸ inv.below,
    bounded⟩

/-- With `batch_size = 0` a block is not below the size without its last transaction. -/
theorem batchMaker_zero_batch_size :
    ∃ final sent, (new 0).run [.transaction ⟨[], []⟩] = some (final, sent) ∧
      ∃ sealed ∈ sent, ¬(sealed.block.txs.dropLast.map Transaction.size).sum < (new 0).batchSize :=
  ⟨_, _, rfl, _, List.mem_singleton_self _, Nat.not_lt_zero _⟩

/-! ## Blocks under load -/

theorem step_transaction_full {maker : BatchMaker} (inv : maker.Invariant) (tx : Transaction)
    {next : BatchMaker} {out : List Sealed}
    (stepped : maker.step (.transaction tx) = some (next, out)) :
    ∀ sealed ∈ out, maker.batchSize ≤ (sealed.block.txs.map Transaction.size).sum := by
  simp only [step, stepIn] at stepped
  split at stepped
  · next reached =>
      obtain ⟨digest, sealed⟩ := sealOut_eq { maker with
        currentBatchSize := maker.currentBatchSize + tx.size
        currentBatch := maker.currentBatch ++ [tx] } (by simp)
      rw [sealed, Option.some.injEq, Prod.mk.injEq] at stepped
      rw [← stepped.2]
      intro block member
      rw [List.mem_singleton.mp member]
      simpa [← inv.size] using reached
  · rw [Option.some.injEq, Prod.mk.injEq] at stepped
    rw [← stepped.2]
    simp

theorem run_arrivals_full {maker : BatchMaker} (inv : maker.Invariant) (events : List Event)
    (arrivals : ∀ event ∈ events, event ≠ .timer) :
    ∃ final sent, maker.run events = some (final, sent) ∧
      ∀ sealed ∈ sent, maker.batchSize ≤ (sealed.block.txs.map Transaction.size).sum := by
  induction events generalizing maker with
  | nil => exact ⟨maker, [], rfl, by simp⟩
  | cons event events induction =>
      obtain ⟨next, out, stepped, nextInv, sameSize, -⟩ := step_invariant inv event
      obtain ⟨final, sent, ran, full⟩ :=
        induction nextInv fun later member => arrivals later (.tail _ member)
      refine ⟨final, out ++ sent, by simp [run_cons, stepped, ran], fun sealed member => ?_⟩
      rcases List.mem_append.mp member with member | member
      · cases event with
        | transaction tx => exact step_transaction_full inv tx stepped sealed member
        | timer => exact absurd rfl (arrivals _ (.head _))
      · exact sameSize ▸ full sealed member

/-- Without timer fires, every block sent reaches `batch_size`. -/
theorem batchMaker_arrivals_fill_blocks (batchSize : Nat) (events : List Event)
    (arrivals : ∀ event ∈ events, event ≠ .timer) :
    ∃ final sent, (new batchSize).run events = some (final, sent) ∧
      ∀ sealed ∈ sent, batchSize ≤ (sealed.block.txs.map Transaction.size).sum :=
  run_arrivals_full (invariant_new batchSize) events arrivals

/-- Two arrivals of `36` bytes against `batch_size = 64` seal one block of `72` bytes. -/
theorem batchMaker_arrivals_fill_blocks_two :
    (∀ event ∈ [Event.transaction ⟨[1], [0, 0, 0, 0]⟩, .transaction ⟨[2], [0, 0, 0, 0]⟩],
      event ≠ .timer) ∧
    ∃ final sent, (new 64).run [.transaction ⟨[1], [0, 0, 0, 0]⟩, .transaction ⟨[2], [0, 0, 0, 0]⟩] =
        some (final, sent) ∧
      ∀ sealed ∈ sent, 64 ≤ (sealed.block.txs.map Transaction.size).sum :=
  ⟨by decide, batchMaker_arrivals_fill_blocks 64 _ (by decide)⟩

/-! ## Other builds and a dropped receiver -/

/-- Whether `seal` in `setting` survives sending `sealed`: the receiver is alive and, in the
benchmark build, no transaction of the block has an empty id. -/
def Setting.survives (setting : Setting) (sealed : Sealed) : Bool :=
  setting.receiverAlive && (!setting.benchmark || sealed.block.txs.all fun tx => !tx.id.isEmpty)

/-- The benchmark scan panics exactly on a batch holding a transaction with an empty id. -/
theorem sampleIds_isSome (txs : List Transaction) :
    (sampleIds txs).isSome = txs.all fun tx => !tx.id.isEmpty := by
  induction txs with
  | nil => rfl
  | cons tx rest induction => cases named : tx.id <;> simp [sampleIds, named, induction]

theorem seal_txs {maker : BatchMaker} {result : BatchMaker × Sealed}
    (found : maker.«seal» = some result) : result.2.block.txs = maker.currentBatch := by
  unfold «seal» at found
  split at found
  · cases found
  · next batch => rw [← Option.some.inj found, batch]

theorem sealIn_of_seal (setting : Setting) {maker : BatchMaker} {result : BatchMaker × Sealed}
    (found : maker.«seal» = some result) :
    maker.sealIn setting = if setting.survives result.2 then some result else none := by
  have scan := sampleIds_isSome maker.currentBatch
  obtain ⟨benchmark, alive⟩ := setting
  simp only [sealIn, Setting.survives, found, seal_txs found]
  cases benchmark <;> cases alive <;> cases ids : sampleIds maker.currentBatch <;>
    simp only [ids, Option.isSome_none, Option.isSome_some] at scan <;> simp [ids, ← scan]

theorem sealOut_of_plain (setting : Setting) {maker next : BatchMaker} {out : List Sealed}
    (sealed : maker.sealOut .plain = some (next, out)) :
    maker.sealOut setting = if out.all setting.survives then some (next, out) else none := by
  rw [sealOut, sealIn_plain] at sealed
  obtain ⟨⟨emptied, block⟩, found, made⟩ := Option.map_eq_some'.mp sealed
  obtain ⟨rfl, rfl⟩ := Prod.mk.inj made
  rw [sealOut, sealIn_of_seal setting found]
  by_cases survives : setting.survives block <;> simp [survives]

theorem stepIn_of_step (setting : Setting) {maker next : BatchMaker} {event : Event}
    {out : List Sealed} (stepped : maker.step event = some (next, out)) :
    maker.stepIn setting event = if out.all setting.survives then some (next, out) else none := by
  cases event with
  | transaction tx =>
      simp only [step, stepIn] at stepped ⊢
      split
      · next full =>
          rw [if_pos full] at stepped
          exact sealOut_of_plain setting stepped
      · next below =>
          rw [if_neg below] at stepped
          obtain ⟨rfl, rfl⟩ := Prod.mk.inj (Option.some.inj stepped)
          simp
  | timer =>
      simp only [step, stepIn] at stepped ⊢
      split
      · next empty =>
          rw [if_pos empty] at stepped
          obtain ⟨rfl, rfl⟩ := Prod.mk.inj (Option.some.inj stepped)
          simp
      · next nonempty =>
          rw [if_neg nonempty] at stepped
          exact sealOut_of_plain setting stepped

/-- A run in a setting is `run`, unless a block it sends panics there. -/
theorem runIn_of_run (setting : Setting) {maker final : BatchMaker} {events : List Event}
    {sent : List Sealed} (ran : maker.run events = some (final, sent)) :
    maker.runIn setting events = if sent.all setting.survives then some (final, sent) else none := by
  induction events generalizing maker sent with
  | nil =>
      obtain ⟨rfl, rfl⟩ := Prod.mk.inj (Option.some.inj ran)
      rfl
  | cons event events induction =>
      rw [run_cons] at ran
      obtain ⟨⟨next, out⟩, stepped, ran⟩ := Option.bind_eq_some.mp ran
      obtain ⟨⟨last, rest⟩, ranRest, made⟩ := Option.bind_eq_some.mp ran
      obtain ⟨rfl, rfl⟩ := Prod.mk.inj (Option.some.inj made)
      simp only [runIn, stepIn_of_step setting stepped, List.all_append]
      cases out.all setting.survives
      · rfl
      · simp only [eq_self_iff_true, if_true, Option.bind_eq_bind, Option.some_bind, induction ranRest,
          Bool.true_and]
        cases rest.all setting.survives <;> rfl

/-- In every build and channel state the loop sends what `run` sends, and panics exactly on a
block sent to a dropped receiver or, in the benchmark build, holding an empty id. -/
theorem batchMaker_run_settings (setting : Setting) (batchSize : Nat) (events : List Event) :
    ∃ final sent, (new batchSize).run events = some (final, sent) ∧
      (new batchSize).runIn setting events =
        if sent.all setting.survives then some (final, sent) else none := by
  obtain ⟨final, sent, ran, -⟩ := run_preserves_txs (new batchSize) events
  exact ⟨final, sent, ran, runIn_of_run setting ran⟩

example : (new 0).runIn { benchmark := true, receiverAlive := true } [.transaction ⟨[], []⟩] =
    none := rfl

end BatchMaker

end Worker
end DelegatedRingCT
