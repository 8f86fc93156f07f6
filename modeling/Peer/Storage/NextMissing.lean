import Peer.Storage.BlockAgreement

/-! The search for the next missing subpiece, over blocks of any capacity. The inner
loop counts in 16 bits, and the answer is a pair of 16-bit numbers. -/
namespace Storage

open Basis

namespace SubPieceManager

variable {μ : Type} [BlockMap μ] {r : RidInfo} {m : SubPieceManager μ} {start : SubPieceInfo}

/-- Subpiece `s` of block `b` is in memory, being saved or on disk. A block without
a node is on disk when its bit is set. -/
def Held (m : SubPieceManager μ) (b s : Nat) : Prop :=
  match m.nodeAt b with
  | some node => node.isBlockSavedOnDisk = true ∨ s ∈ node.keys
  | none => m.hasFullBlock b = true

/-- Subpiece `s` of block `b` is at `start` or after it. -/
def After (start : SubPieceInfo) (b s : Nat) : Prop :=
  start.blockIndex < b ∨ start.blockIndex = b ∧ start.subpieceIndex ≤ s

/-- Subpiece `s` of block `b` is the first one from `start` on that is not held. -/
structure FirstMissingAt (r : RidInfo) (m : SubPieceManager μ) (start : SubPieceInfo)
    (b s : Nat) : Prop where
  block_lt : b < r.blockCount
  subpiece_lt : s < r.capacity b
  after : After start b s
  missing : ¬ m.Held b s
  first : ∀ b' s', s' < r.capacity b' → After start b' s' → b' < b ∨ b' = b ∧ s' < s →
    m.Held b' s'

/-- The right answer of the search. -/
def ExactAnswer (r : RidInfo) (m : SubPieceManager μ) (start : SubPieceInfo) :
    Option SubPieceInfo → Prop
  | none => ∀ b < r.blockCount, ∀ s < r.capacity b, After start b s → m.Held b s
  | some found => FirstMissingAt r m start found.blockIndex found.subpieceIndex

/-- What the 16-bit numbers of the search allow: the first missing subpiece has a
name, and in a block of 2^16 subpieces and more that misses nothing from `start` on,
the piece of `start` misses nothing before it either. -/
structure Searchable (r : RidInfo) (m : SubPieceManager μ) (start : SubPieceInfo) : Prop where
  named : ∀ b s, FirstMissingAt r m start b s → b < 2 ^ 16 ∧ s < 2 ^ 16
  startPiece : 2 ^ 16 ≤ r.capacity start.blockIndex →
    (∀ s < r.capacity start.blockIndex, start.subpieceIndex ≤ s → m.Held start.blockIndex s) →
    ∀ s < start.subpieceIndex,
      s / subpieceNumPerPiece = start.subpieceIndex / subpieceNumPerPiece →
      m.Held start.blockIndex s

theorem FirstMissingAt.unique {b s b' s' : Nat} (h : FirstMissingAt r m start b s)
    (h' : FirstMissingAt r m start b' s') : b' = b ∧ s' = s := by
  have hNotBefore : ¬ (b' < b ∨ b' = b ∧ s' < s) := fun hBefore =>
    h'.missing (h.first b' s' h'.subpiece_lt h'.after hBefore)
  have hNotAfter : ¬ (b < b' ∨ b = b' ∧ s < s') := fun hAfter =>
    h.missing (h'.first b s h.subpiece_lt h.after hAfter)
  omega

/-- What a node without its bit holds is what it has in memory. -/
theorem BlocksAgree.held_iff (h : BlocksAgree r m) {b : Nat} (hb : b < r.blockCount) {node : BlockNode}
    (hNode : m.nodeAt b = some node) (hBit : m.hasFullBlock b = false) :
    node.isFull = false ∧ node.isBlockSavedOnDisk = false ∧ ∀ s, m.Held b s ↔ s ∈ node.keys := by
  have hFull : node.isFull = false := by
    rw [← (h.node hb hNode).2]
    exact hBit
  have hDisk := BlockNode.not_onDisk_of_not_full hFull
  refine ⟨hFull, hDisk, fun s => ?_⟩
  simp [Held, hNode, hDisk]

section Search

variable (h : BlocksAgree r m) (hr : r.Valid)
include h hr

theorem BlocksAgree.bit_iff {b : Nat} (hb : b < r.blockCount) :
    m.hasFullBlock b = true ↔ ∀ s < r.capacity b, m.Held b s := by
  unfold Held
  cases hNode : m.nodeAt b with
  | none => exact ⟨fun hBit _ _ => hBit, fun hAll => hAll 0 (RidInfo.capacity_pos hr b)⟩
  | some node =>
      obtain ⟨hFits, hBit⟩ := h.node hb hNode
      rw [hBit, hFits.isFull_iff]
      simp only [BlockNode.hasSubPiece_iff]

/-- The search inside one block that is not full, from the subpiece on at which the
scan over the blocks comes to it. -/
theorem BlocksAgree.searchNode (hSearch : Searchable r m start) {b startSidx : Nat}
    (hb : b < r.blockCount) {node : BlockNode} (hNode : m.nodeAt b = some node)
    (hBit : m.hasFullBlock b = false) (hFrom : startSidx < r.capacity b)
    (hIndex : (if b = start.blockIndex then start.subpieceIndex else 0) = startSidx)
    (hFirst : ∀ s, startSidx ≤ s → s < r.capacity b → ¬ m.Held b s →
      (∀ i, startSidx ≤ i → i < s → m.Held b i) → FirstMissingAt r m start b s) :
    ∃ answer, node.getNextNullSubPiece startSidx = some answer ∧
      FirstFrom (· ∉ node.keys) startSidx (r.capacity b) answer := by
  obtain ⟨hFull, hDisk, hHeld⟩ := h.held_iff hb hNode hBit
  have hFits := (h.node hb hNode).1
  have hCap := RidInfo.capacity_lt hr b
  by_cases hName : r.capacity b < 2 ^ 16
  · exact hFits.getNextNullSubPiece_first hName hDisk hFrom
  by_cases hSome : ∃ s, startSidx ≤ s ∧ s < r.capacity b ∧ s ∉ node.keys
  · obtain ⟨hLe, hLt, hMissing⟩ := Nat.find_spec hSome
    have hBefore : ∀ i, startSidx ≤ i → i < Nat.find hSome → i ∈ node.keys := by
      intro i hLo hi
      by_contra hOut
      exact Nat.find_min hSome hi ⟨hLo, by omega, hOut⟩
    have hAt := hFirst _ hLe hLt (fun hIn => hMissing ((hHeld _).mp hIn))
      fun i hLo hi => (hHeld i).mpr (hBefore i hLo hi)
    exact hFits.getNextNullSubPiece_below (by omega) hDisk hLe hLt (hSearch.named _ _ hAt).2
      hMissing hBefore
  · -- Only the block of `start` can be partial without missing anything from there on.
    have hAll : ∀ s, startSidx ≤ s → s < r.capacity b → s ∈ node.keys := by
      intro s hLo hHi
      by_contra hOut
      exact hSome ⟨s, hLo, hHi, hOut⟩
    have hStartBlock : b = start.blockIndex := by
      by_contra hOther
      rw [if_neg hOther] at hIndex
      subst hIndex
      have hFullNode : node.isFull = true := hFits.isFull_iff.mpr fun s hs =>
        BlockNode.hasSubPiece_iff.mpr (Or.inr (hAll s (Nat.zero_le s) hs))
      rw [hFull] at hFullNode
      cases hFullNode
    rw [if_pos hStartBlock] at hIndex
    subst hStartBlock hIndex
    refine ⟨none, ?_, fun i hLo hHi hOut => hOut (hAll i hLo hHi)⟩
    apply hFits.getNextNullSubPiece_none (by omega) hDisk hFrom hAll
    intro s hs hPiece
    rw [← hHeld]
    exact hSearch.startPiece (by omega) (fun i hi hLo => (hHeld i).mpr (hAll i hLo hi)) s hs hPiece

/-- The scan over the blocks: from block `bidx` on it finds the first missing
subpiece when nothing before that block is missing. -/
theorem BlocksAgree.nextNullFrom_exact (hStart : r.Inside start) (hSearch : Searchable r m start)
    {rounds bidx : Nat} (hRounds : rounds + bidx = r.blockCount)
    (hFrom : start.blockIndex ≤ bidx)
    (hBefore : ∀ b < bidx, ∀ s < r.capacity b, After start b s → m.Held b s) :
    ∃ found, m.nextNullFrom start rounds bidx = some found ∧ ExactAnswer r m start found := by
  induction rounds generalizing bidx with
  | zero =>
      refine ⟨none, rfl, fun b hb => hBefore b ?_⟩
      omega
  | succ rounds ih =>
      have hb : bidx < r.blockCount := by omega
      -- Going on is right when all of this block from the start on is held.
      have hNext : (∀ s < r.capacity bidx, (bidx = start.blockIndex → start.subpieceIndex ≤ s) →
          m.Held bidx s) → ∃ found, m.nextNullFrom start rounds (bidx + 1) = some found ∧
          ExactAnswer r m start found := by
        intro hAll
        apply ih (by omega) (by omega)
        intro b hLt s hs hAfter
        by_cases hEq : b = bidx
        · subst hEq
          apply hAll s hs
          intro hSame
          rcases hAfter with hBlock | hSub
          · omega
          · exact hSub.2
        · exact hBefore b (by omega) s hs hAfter
      unfold SubPieceManager.nextNullFrom
      cases hBit : m.hasFullBlock bidx with
      | true =>
          rw [if_pos rfl]
          exact hNext fun s hs _ => (h.bit_iff hr hb).mp hBit s hs
      | false =>
          rw [if_neg Bool.false_ne_true]
          generalize hIndex : (if bidx = start.blockIndex then start.subpieceIndex else 0) =
            startSidx
          have hIn : startSidx < r.capacity bidx := by
            rw [← hIndex]
            split
            · rename_i hEq
              exact hEq ▸ hStart.2
            · exact RidInfo.capacity_pos hr bidx
          -- What the block answers is the answer of the whole search.
          have hFirst : ∀ s, startSidx ≤ s → s < r.capacity bidx → ¬ m.Held bidx s →
              (∀ i, startSidx ≤ i → i < s → m.Held bidx i) → FirstMissingAt r m start bidx s := by
            intro s hLo hHi hMissing hHeld
            refine ⟨hb, hHi, ?_, hMissing, ?_⟩
            · rw [After]
              rw [← hIndex] at hLo
              split at hLo <;> omega
            · rintro b' s' hs' hAfter (hLt | ⟨rfl, hLt⟩)
              · exact hBefore b' hLt s' hs' hAfter
              · apply hHeld s' _ hLt
                rw [← hIndex]
                rcases hAfter with hBlock | ⟨hSame, hSub⟩
                · rw [if_neg (by omega)]
                  exact Nat.zero_le _
                · rw [if_pos hSame.symm]
                  exact hSub
          have hAnswer : ∀ s, FirstMissingAt r m start bidx s →
              ExactAnswer r m start (some (SubPieceInfo.make bidx s)) := by
            intro s hAt
            obtain ⟨hBlock, hSub⟩ := hSearch.named _ _ hAt
            rw [ExactAnswer, SubPieceInfo.make_blockIndex, SubPieceInfo.make_subpieceIndex,
              u16_of_lt hBlock, u16_of_lt hSub]
            exact hAt
          dsimp only
          cases hNode : m.nodeAt bidx with
          | none =>
              refine ⟨_, rfl, hAnswer _ (hFirst _ (Nat.le_refl _) hIn ?_ fun i _ _ => by omega)⟩
              simp [Held, hNode, hBit]
          | some node =>
              obtain ⟨hFull, -, hHeld⟩ := h.held_iff hb hNode hBit
              obtain ⟨answer, hFound, hAt⟩ :=
                h.searchNode hr hSearch hb hNode hBit hIn hIndex hFirst
              simp only [hFull, Bool.false_eq_true, if_false, hFound]
              cases answer with
              | none =>
                  apply hNext
                  intro s hs hFromStart
                  apply (hHeld s).mpr
                  apply not_not.mp
                  apply hAt s _ hs
                  rw [← hIndex]
                  split
                  · exact hFromStart ‹_›
                  · exact Nat.zero_le s
              | some s =>
                  obtain ⟨hLo, hHi, hMissing, hBelow⟩ := hAt
                  refine ⟨_, rfl, hAnswer s (hFirst s hLo hHi ?_ ?_)⟩
                  · exact fun hHere => hMissing ((hHeld s).mp hHere)
                  · exact fun i hi hLt => (hHeld i).mpr (not_not.mp (hBelow i hi hLt))

theorem BlocksAgree.getNextNullSubPiece_exact (hStart : r.Inside start)
    (hSearch : Searchable r m start) :
    ∃ found, m.getNextNullSubPiece start = some found ∧ ExactAnswer r m start found := by
  have hBlock := hStart.1
  apply h.nextNullFrom_exact hr hStart hSearch
  · rw [h.builtFor.length_eq]
    omega
  · exact Nat.le_refl _
  · intro b hb s _ hAfter
    rcases hAfter with hLater | ⟨hSame, -⟩ <;> omega

/-- An answer before `start`, or an endless loop, is what remains otherwise. -/
theorem BlocksAgree.searchable_of_exact (hStart : r.Inside start) {found : Option SubPieceInfo}
    (hFound : m.getNextNullSubPiece start = some found) (hExact : ExactAnswer r m start found) :
    Searchable r m start := by
  obtain ⟨hBlock, hSub⟩ := hStart
  constructor
  · intro b s hAt
    cases found with
    | none => exact absurd (hExact b hAt.block_lt s hAt.subpiece_lt hAt.after) hAt.missing
    | some info =>
        obtain ⟨rfl, rfl⟩ := hAt.unique hExact
        exact ⟨info.blockIndex_lt, info.subpieceIndex_lt⟩
  · intro hLarge hAll x hx hPiece
    by_contra hMissing
    have hBit : m.hasFullBlock start.blockIndex = false := by
      rw [Bool.eq_false_iff]
      exact fun hBit => hMissing ((h.bit_iff hr hBlock).mp hBit x (by omega))
    have hStartHeld := hAll _ hSub (Nat.le_refl _)
    cases hNode : m.nodeAt start.blockIndex with
    | none =>
        simp [Held, hNode, hBit] at hStartHeld
    | some node =>
        obtain ⟨hFull, hDisk, hHeld⟩ := h.held_iff hBlock hNode hBit
        obtain ⟨rounds, hRounds⟩ : ∃ rounds,
            m.blocks.length - start.blockIndex = rounds + 1 := by
          rw [h.builtFor.length_eq]
          exact ⟨r.blockCount - start.blockIndex - 1, by omega⟩
        have hCap := RidInfo.capacity_lt hr start.blockIndex
        have hWraps := (h.node hBlock hNode).1.getNextNullSubPiece_wraps (by omega) hDisk hSub
          start.subpieceIndex_lt hLarge ((hHeld _).mp hStartHeld) (by omega) hPiece
          fun hIn => hMissing ((hHeld x).mpr hIn)
        simp only [getNextNullSubPiece, hRounds, SubPieceManager.nextNullFrom, hBit,
          Bool.false_eq_true, if_false, if_true, hNode, hFull] at hFound
        rcases hWraps with hNone | ⟨y, hOut, hSmall, hSome⟩
        · rw [hNone] at hFound
          cases hFound
        · rw [hSome] at hFound
          cases hFound
          have hAt : FirstMissingAt r m start (u16 start.blockIndex) (u16 y) := hExact
          rw [u16_of_lt start.blockIndex_lt, u16_of_lt hSmall] at hAt
          rcases hAt.after with hLater | ⟨-, hLe⟩
          · omega
          · exact hAt.missing (hAll y hAt.subpiece_lt hLe)

/-- The search ends with the right answer exactly where 16 bits are enough. -/
theorem exactAnswer_iff (hStart : r.Inside start) :
    (∃ found, m.getNextNullSubPiece start = some found ∧ ExactAnswer r m start found) ↔
      Searchable r m start := by
  constructor
  · rintro ⟨found, hFound, hExact⟩
    exact h.searchable_of_exact hr hStart hFound hExact
  · exact h.getNextNullSubPiece_exact hr hStart

end Search

section LargeBlocks

/-- Adding to a block other than the last one, of any capacity. -/
theorem BlocksAgree.addSubPiece_inner (h : BlocksAgree r m) (hr : r.Valid) {info : SubPieceInfo}
    (hBlock : info.blockIndex + 1 < r.blockCount)
    (hSub : info.subpieceIndex < r.capacity info.blockIndex) {buf : SubPieceBuffer} {added : Bool}
    {m' : SubPieceManager μ} (hAdd : m.addSubPiece info buf = some (m', added)) :
    BlocksAgree r m' := by
  have hInner : info.blockIndex ≠ r.blockCount - 1 := by omega
  have hCapacity : m.newBlockCapacity info.blockIndex = r.capacity info.blockIndex := by
    rw [newBlockCapacity, h.builtFor.length_eq, if_pos hInner, h.builtFor.blockSize_eq,
      RidInfo.capacity, if_neg hInner]
  have hNew : m.nodeAt info.blockIndex = none → m.nodeOrNew info.blockIndex =
      BlockNode.create info.blockIndex (r.capacity info.blockIndex) false := by
    intro hNode
    rw [nodeOrNew, hNode, hCapacity]
    rfl
  cases addSubPiece_step h.builtFor.sized hAdd with
  | rejected hSame => exact hSame ▸ h
  | emptyBlock hFull hBit _ =>
      exfalso
      cases hNode : m.nodeAt info.blockIndex with
      | some node =>
          rw [nodeOrNew, hNode, Option.getD_some, ← (h.node (by omega) hNode).2, hBit] at hFull
          cases hFull
      | none =>
          have hPos := RidInfo.capacity_pos hr info.blockIndex
          rw [hNew hNode, BlockNode.isFull_iff] at hFull
          simp only [BlockNode.create_keys, BlockNode.create_total, BlockNode.create_onDisk,
            Finset.card_empty, Bool.false_eq_true, or_false] at hFull
          omega
  | stored node' hFull _ _ hAdded hBecomes =>
      have hFits : BlockNode.Fits (r.capacity info.blockIndex) (m.nodeOrNew info.blockIndex) := by
        cases hNode : m.nodeAt info.blockIndex with
        | some node =>
            rw [nodeOrNew, hNode]
            exact (h.node (by omega) hNode).1
        | none =>
            rw [hNew hNode]
            exact .create _ _
      exact h.becomes hBecomes (BlockOk.some
        (hFits.added hAdded hSub (BlockNode.not_onDisk_of_not_full hFull)) rfl)

/-- A file of two blocks of 65536 subpieces. -/
def twoLargeBlocks : RidInfo :=
  ⟨Guid.zero, 2 ^ 27, 2 ^ 26, 2, [], by decide, by decide, two_lt_uint32⟩

theorem twoLargeBlocks_valid : twoLargeBlocks.Valid :=
  ⟨by decide, ⟨65536, by decide⟩, by decide⟩

/-- A fresh store of these blocks, with one subpiece of the first block added. -/
def withSubpiece (s : Nat) : Option (SubPieceManager (List Bool) × Bool) :=
  (new twoLargeBlocks false false).bind fun m =>
    m.addSubPiece (.make 0 s) ⟨List.replicate 1024 0, true⟩

theorem withSubpiece_agrees {s : Nat} (hs : s < 2 ^ 16) {m : SubPieceManager (List Bool)}
    {added : Bool} (h : withSubpiece s = some (m, added)) : BlocksAgree twoLargeBlocks m := by
  obtain ⟨fresh, hNew, hAdd⟩ := Option.bind_eq_some_iff.mp h
  obtain ⟨-, hBuilt, hNone, -⟩ := new_eq_some hNew
  have hFresh : BlocksAgree twoLargeBlocks fresh := ⟨hBuilt, fun b _ => hNone b ▸ BlockOk.none _ _⟩
  apply hFresh.addSubPiece_inner twoLargeBlocks_valid _ _ hAdd
  · show u16 0 + 1 < 2
    rw [u16_of_lt (by decide)]
    decide
  · show u16 s < twoLargeBlocks.capacity (u16 0)
    rw [u16_of_lt hs, u16_of_lt (by decide)]
    exact hs

/-- The subpiece after the one that is there is found. -/
theorem exactAnswer_of_oneSubpiece : ∃ m, withSubpiece 4 = some (m, true) ∧
    ∃ found, m.getNextNullSubPiece (.make 0 4) = some (some found) ∧
      FirstMissingAt twoLargeBlocks m (.make 0 4) found.blockIndex found.subpieceIndex := by
  have hTest : (withSubpiece 4).any (fun state => decide (state.2 = true) &&
      (state.1.nodeAt 0).any fun node =>
        decide (node.isBlockSavedOnDisk = false ∧ 5 ∉ node.keys)) = true := by decide +kernel
  obtain ⟨⟨m, added⟩, hRun, hState⟩ := (Option.any_eq_true _ _).mp hTest
  obtain ⟨hAdded, hAny⟩ := (Bool.and_eq_true _ _).mp hState
  obtain rfl := of_decide_eq_true hAdded
  obtain ⟨node, hNode, hKeys⟩ := (Option.any_eq_true _ _).mp hAny
  obtain ⟨hDisk, hOut⟩ := of_decide_eq_true hKeys
  have hMissing : ¬ m.Held 0 5 := by
    simp only [Held, hNode, hDisk, Bool.false_eq_true, false_or]
    exact hOut
  have hAfter : After (.make 0 4) 0 5 := by
    rw [After]
    decide +kernel
  have hInside : 5 < twoLargeBlocks.capacity 0 := by decide
  refine ⟨m, hRun, ?_⟩
  have hSearch : Searchable twoLargeBlocks m (.make 0 4) := by
    constructor
    · intro b s hAt
      have hNotPast : ¬ (0 < b ∨ 0 = b ∧ 5 < s) := fun hPast =>
        hMissing (hAt.first 0 5 hInside hAfter hPast)
      omega
    · intro _ hAll
      have hBlock : (SubPieceInfo.make 0 4).blockIndex = 0 := u16_of_lt (by decide)
      have hSub : (SubPieceInfo.make 0 4).subpieceIndex = 4 := u16_of_lt (by decide)
      rw [hBlock, hSub] at hAll
      exact absurd (hAll 5 hInside (by decide)) hMissing
  obtain ⟨found, hFound, hExact⟩ := (exactAnswer_iff (withSubpiece_agrees (by decide) hRun)
    twoLargeBlocks_valid (by decide +kernel)).mpr hSearch
  cases found with
  | none => exact absurd (hExact 0 (by decide) 5 hInside hAfter) hMissing
  | some found => exact ⟨found, hFound, hExact⟩

/-- With the last subpiece of a block of 65536 alone, the search from there on comes
back to the first one. -/
theorem exactAnswer_fails : ∃ m, withSubpiece 65535 = some (m, true) ∧
    BlocksAgree twoLargeBlocks m ∧ twoLargeBlocks.Inside (.make 0 65535) ∧
    ∃ found, m.getNextNullSubPiece (.make 0 65535) = some found ∧
      ¬ ExactAnswer twoLargeBlocks m (.make 0 65535) found := by
  have hTest : (withSubpiece 65535).any (fun state => decide (state.2 = true ∧
      state.1.getNextNullSubPiece (.make 0 65535) = some (some (.make 0 0)))) = true := by
    decide +kernel
  obtain ⟨⟨m, added⟩, hRun, hState⟩ := (Option.any_eq_true _ _).mp hTest
  obtain ⟨rfl, hFound⟩ := of_decide_eq_true hState
  refine ⟨m, hRun, withSubpiece_agrees (by decide) hRun, by decide +kernel, _, hFound, ?_⟩
  intro hExact
  have hAfter : After (.make 0 65535) (u16 0) (u16 0) := hExact.after
  have hNot : ¬ After (.make 0 65535) (u16 0) (u16 0) := by
    rw [After]
    decide +kernel
  exact hNot hAfter

end LargeBlocks

end SubPieceManager

end Storage
