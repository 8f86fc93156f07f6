import Mathlib.Algebra.Order.Floor.Div
import Peer.Basis.OrderedMap
import Peer.Basis.ProRata
import Peer.Storage.Base

/-! `MemoryQuotaAssigner`: how an overall amount of memory is divided among its consumers.
The sharing ratio is taken over the rationals; `size_t` has `w` bits. -/
namespace Storage

open Basis

/-- `MemoryUsageDescription::MemoryUsagePriority`. -/
inductive MemoryUsagePriority where
  | none
  | low
  | normal
  | high
deriving DecidableEq, Repr

namespace MemoryUsagePriority

def value : MemoryUsagePriority → Nat
  | .none => 0
  | .low => 10
  | .normal => 20
  | .high => 30

theorem value_injective : Function.Injective value := by
  intro p q h
  cases p <;> cases q <;> first | rfl | cases h

instance : LinearOrder MemoryUsagePriority := LinearOrder.lift' value value_injective

end MemoryUsagePriority

/-- Assignment to a `size_t`. -/
def sizeT (w n : Nat) : Nat := n % 2 ^ w

/-- The blocks of `blockSize` bytes that a quota of bytes allows. -/
def blocksAllowed (blockSize quota : Nat) : Nat := quota ⌈/⌉ blockSize

/-- What is left of them where the sum that rounds up is a `size_t`. -/
def blocksGranted (w blockSize quota : Nat) : Nat := sizeT w (quota + blockSize - 1) / blockSize

theorem blocksGranted_of_lt {w blockSize quota : Nat} (h : quota + blockSize - 1 < 2 ^ w) :
    blocksGranted w blockSize quota = blocksAllowed blockSize quota := by
  rw [blocksGranted, sizeT, Nat.mod_eq_of_lt h, blocksAllowed, Nat.ceilDiv_eq_add_pred_div]

theorem blocksGranted_zero (w blockSize : Nat) : blocksGranted w blockSize 0 = 0 := by
  unfold blocksGranted
  rw [Nat.zero_add]
  cases blockSize with
  | zero => exact Nat.div_zero _
  | succ size => exact Nat.div_eq_of_lt (Nat.lt_succ_of_le (Nat.mod_le size _))

/-- `MemoryUsageDescription`; the sizes are in bytes. -/
structure MemoryUsageDescription (w : Nat) where
  minimumSize : Nat
  desirableSize : Nat
  priority : MemoryUsagePriority
  minimumSize_lt : minimumSize < 2 ^ w
  desirableSize_lt : desirableSize < 2 ^ w

/-- `MemoryConsumptionEntry`; a consumer is named by its place in `memory_consumers_`. -/
structure MemoryConsumptionEntry (w : Nat) where
  consumer : Nat
  usage : MemoryUsageDescription w
  quota : Nat

variable {w : Nat}

/-- What the consumer still needs: `GetDesirableSize() - GetMinimumSize()`. -/
def MemoryConsumptionEntry.additional (entry : MemoryConsumptionEntry w) : Nat :=
  sizeT w (entry.usage.desirableSize + 2 ^ w - entry.usage.minimumSize)

/-- `PriorityToConsumptionEntryMapping`. -/
abbrev ConsumptionEntries (w : Nat) :=
  OrderedMap MemoryUsagePriority (List (MemoryConsumptionEntry w))

/-- `MemoryQuotaAssigner`, with the calls of `SetMemoryQuota` it has made. -/
structure MemoryQuotaAssigner (w : Nat) where
  consumptionEntries : ConsumptionEntries w
  quotaLeft : Nat
  told : List (MemoryConsumptionEntry w)

namespace MemoryQuotaAssigner

/-- One round of `BuildConsumptionEntries`. -/
def addConsumer (s : MemoryQuotaAssigner w) (consumer : MemoryUsageDescription w × Nat) :
    MemoryQuotaAssigner w :=
  let entry : MemoryConsumptionEntry w := ⟨consumer.2, consumer.1, 0⟩
  if consumer.1.priority = .none then
    { s with told := s.told ++ [entry] }
  else
    { s with
      quotaLeft :=
        if consumer.1.minimumSize < s.quotaLeft then s.quotaLeft - consumer.1.minimumSize else 0
      consumptionEntries := s.consumptionEntries.update consumer.1.priority []
        (· ++ [{ entry with quota := consumer.1.minimumSize }]) }

def buildConsumptionEntries (consumers : List (MemoryUsageDescription w)) (overallBytes : UInt32) :
    MemoryQuotaAssigner w :=
  consumers.zipIdx.foldl addConsumer ⟨[], overallBytes.toNat, []⟩

/-- Step 1: the sum of the additional bytes needed, in a `uint32_t`. -/
def additionalBytesNeeded (entries : List (MemoryConsumptionEntry w)) : Nat :=
  entries.foldl (fun sum entry => u32 (sum + entry.additional)) 0

/-- Step 3: the additional quota of an entry. -/
def grant (ratio : ℚ) (entry : MemoryConsumptionEntry w) : MemoryConsumptionEntry w :=
  { entry with quota := sizeT w (entry.quota + u32 (share ratio entry.additional)) }

/-- Steps 2 and 3 for one priority. The literal `1.00000001f` has more digits than a
`float` keeps: it is 1. -/
def assignGroup (quotaLeft : Nat) (entries : List (MemoryConsumptionEntry w)) :
    Nat × List (MemoryConsumptionEntry w) :=
  if quotaLeft < additionalBytesNeeded entries then
    (0, entries.map (grant ((quotaLeft : ℚ) / additionalBytesNeeded entries)))
  else
    (quotaLeft - additionalBytesNeeded entries, entries.map (grant 1))

/-- The loop of `AssignQuotaUpToDesirableBytes` over the priorities from the highest down.
It ends when nothing is left, which may be so from the start. -/
def assignQuotaUpToDesirableBytes : Nat → ConsumptionEntries w → ConsumptionEntries w
  | _, [] => []
  | quotaLeft, (priority, entries) :: rest =>
      if quotaLeft = 0 then (priority, entries) :: rest
      else
        let (quotaLeft', entries') := assignGroup quotaLeft entries
        (priority, entries') :: assignQuotaUpToDesirableBytes quotaLeft' rest

/-- `AssignQuota`: the quotas that the consumers are told, in the order of the calls. -/
def assignQuota (consumers : List (MemoryUsageDescription w)) (overallBytes : UInt32) :
    List (MemoryConsumptionEntry w) :=
  let s := buildConsumptionEntries consumers overallBytes
  let entries := (assignQuotaUpToDesirableBytes s.quotaLeft s.consumptionEntries.reverse).reverse
  s.told ++ entries.flatMap Prod.snd

-- Of the 30 bytes left behind the minima each consumer gets half of what it needs.
example : (assignQuota (w := 32) [⟨10, 30, .high, by decide, by decide⟩,
    ⟨10, 50, .high, by decide, by decide⟩, ⟨0, 5, .low, by decide, by decide⟩] 50).map (·.quota) =
    [0, 20, 30] := by decide +kernel

end MemoryQuotaAssigner

end Storage
