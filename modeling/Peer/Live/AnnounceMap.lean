import Peer.Live.Announce
import Peer.Live.Delivery

/-! What an announce map says of a cache: the blocks are one live interval apart, and the
bits of a block are its header and its validated pieces. -/
namespace Live

open Basis Storage HeaderSubPiece LiveBlockNode LiveAnnounceMapBuilder

variable {D : Digests} {c : LiveCacheManager} {node : LiveBlockNode} {header : HeaderSubPiece}
  {x y : LiveAnnounceMapBuilder} {m : LiveAnnounceMap} {b first n : Nat}

section Bits

/-- The bits of a block with a header. -/
def announcedBits (node : LiveBlockNode) : List Bool :=
  true :: (List.range ((node.getSubPiecesCount + 14) / 16)).map fun p =>
    decide (p ∈ node.validatedPieces)

theorem announcedBits_getD (node : LiveBlockNode) (p : Nat)
    (hp : p < (node.getSubPiecesCount + 14) / 16) :
    (announcedBits node).getD (p + 1) false = decide (p ∈ node.validatedPieces) := by
  simp [announcedBits, hp]

/-- The block has a valid header, and its complete pieces are validated. -/
def Headed (D : Digests) (c : LiveCacheManager) (b : Nat) (node : LiveBlockNode) : Prop :=
  c.node b = some node ∧ ∃ header, CheckedUpTo D header (pieceCount header) node

theorem headed_of_isBlockHeaderValid (hSound : CacheSound D c)
    (h : c.isBlockHeaderValid D b = true) : ∃ node, Headed D c b node := by
  unfold LiveCacheManager.isBlockHeaderValid at h
  cases hNode : c.node b with
  | none =>
      rw [hNode] at h
      cases h
  | some node =>
      rw [hNode] at h
      rcases (hSound b node hNode).1 with hHeadless | hChecked
      · simp [isHeaderValid, hHeadless.flag_eq, hHeadless.header_eq] at h
      · exact ⟨node, hNode, hChecked⟩

theorem LiveBlockNode.CheckedUpTo.count_eq {limit : Nat} (h : CheckedUpTo D header limit node) :
    node.getSubPiecesCount = subpieceCount header := by
  rw [getSubPiecesCount, h.hasHeader, if_pos rfl, h.length_eq]

/-- The builder computes the number of subpieces from the size of the block. -/
theorem Headed.subpiecesCount_eq (h : Headed D c b node) :
    u16 (u32 (c.getBlockSizeInBytes b + liveSubPieceSize - 1) / liveSubPieceSize) =
      node.getSubPiecesCount := by
  obtain ⟨hNode, header, hChecked⟩ := h
  have hBounds := subpieceCount_bounds hChecked.describes.1
  have hSize : c.getBlockSizeInBytes b = u32 (header.dataLength + liveSubPieceSize) := by
    rw [LiveCacheManager.getBlockSizeInBytes, hNode]
    simp only [getBlockSizeInBytes, hChecked.header_eq]
  rw [hSize, hChecked.count_eq]
  unfold subpieceCount at hBounds ⊢
  simp only [liveSubPieceSize]
  rw [u32_of_lt (show header.dataLength + 1400 < 2 ^ 32 by omega), u32_of_lt (by omega),
    u16_of_lt (by omega)]
  omega

/-- A piece is offered when it is validated. -/
theorem Headed.bitsOf_eq (h : Headed D c b node) :
    bitsOf D c b node.getSubPiecesCount = announcedBits node := by
  obtain ⟨hNode, header, hChecked⟩ := h
  have hBounds := subpieceCount_bounds hChecked.describes.1
  have hCount := hChecked.count_eq
  have hLength := hChecked.length_eq
  unfold bitsOf announcedBits subpieceCountInOneCheck
  rw [show node.getSubPiecesCount - 1 + 16 - 1 = node.getSubPiecesCount + 14 by omega]
  congr 1
  apply List.map_congr_left
  intro p hp
  have hPiece : 16 * p + 1 < node.subpieces.length := by
    rw [List.mem_range] at hp
    omega
  have hMax := hChecked.lt_max hPiece
  have hComplete := isPieceComplete_iff hChecked.hasHeader hMax
  have hMem := hChecked.mem_iff p
  rw [lt_pieceCount_iff hChecked.describes.1, ← hLength] at hMem
  rw [LiveCacheManager.isPieceComplete, LiveCacheManager.isPieceValid, hNode]
  dsimp only
  by_cases hValidated : p ∈ node.validatedPieces
  · have hValid : node.isPieceValid D p = (node, true) := by
      simp [isPieceValid, Nat.not_le.mpr hMax, hValidated]
    rw [hComplete.mpr (hMem.mp hValidated).2, hValid, Bool.true_and, decide_eq_true hValidated]
  · have hNot : node.isPieceComplete p = false := by
      rw [← Bool.not_eq_true, hComplete]
      exact fun hAll => hValidated (hMem.mpr ⟨hPiece, hAll⟩)
    rw [hNot, Bool.false_and, decide_eq_false hValidated]

end Bits

section Blocks

/-- `n` block ids from `first` on, one live interval apart. -/
def blockIds (first liveInterval n : Nat) : List Nat :=
  (List.range n).map fun i => first + i * liveInterval

theorem blockIds_succ (first liveInterval n : Nat) :
    blockIds first liveInterval (n + 1) =
      blockIds first liveInterval n ++ [first + n * liveInterval] := by
  simp [blockIds, List.range_succ]

theorem not_mem_blockIds {liveInterval : Nat} (h : 0 < liveInterval) (first n : Nat) :
    first + n * liveInterval ∉ blockIds first liveInterval n := by
  intro hMem
  obtain ⟨i, hRange, hEq⟩ := List.mem_map.mp hMem
  have hLt := Nat.mul_lt_mul_of_pos_right (List.mem_range.mp hRange) h
  omega

/-- The bits that are accounted for the blocks. -/
def accountedBits (c : LiveCacheManager) (ids : List Nat) : Nat :=
  (ids.map c.getSubPiecesCount).sum

/-- The map describes the `n` blocks from `first` on as they are in the cache. -/
structure Announces (D : Digests) (c : LiveCacheManager) (first n : Nat) (m : LiveAnnounceMap) :
    Prop where
  count_eq : m.blockInfoCount = n
  liveInterval_eq : m.liveInterval = c.liveInterval
  headed : ∀ b ∈ blockIds first c.liveInterval n, ∃ node, Headed D c b node
  subpieceNos_eq : ∀ b, m.subpieceNos.lookup b =
    if b ∈ blockIds first c.liveInterval n then (c.node b).map (·.getSubPiecesCount) else none
  subpieceMap_eq : ∀ b, m.subpieceMap.lookup b =
    if b ∈ blockIds first c.liveInterval n then (c.node b).map announcedBits else none

/-- The size that the builder accounts for the blocks. -/
structure Accounts (c : LiveCacheManager) (first n : Nat) (x : LiveAnnounceMapBuilder) : Prop where
  size_eq : x.accumulatedPacketSize =
    14 + 2 * n + accountedBits c (blockIds first c.liveInterval n) / 8
  bits_eq : x.additionalBitsBeyondTheLastByte =
    accountedBits c (blockIds first c.liveInterval n) % 8
  fits : 14 + 2 * n + (accountedBits c (blockIds first c.liveInterval n) + 7) / 8 ≤ 1400

theorem announces_nothing (D : Digests) (c : LiveCacheManager) (first : Nat) (m : LiveAnnounceMap) :
    Announces D c first 0 (resetState c m).announceMap ∧ Accounts c first 0 (resetState c m) := by
  have hNone : accountedBits c (blockIds first c.liveInterval 0) = 0 := rfl
  constructor
  · exact ⟨rfl, rfl, fun b hMem => (List.not_mem_nil hMem).elim, Finmap.lookup_empty,
      Finmap.lookup_empty⟩
  · refine ⟨?_, ?_, ?_⟩ <;> rw [hNone] <;> simp [resetState]

theorem insertNew_lookup {α : Type} (m : Finmap fun _ : Nat => α) (key : Nat) (value : α)
    (b : Nat) : (insertNew m key value).lookup b =
      (m.lookup b).or (if b = key then some value else none) := by
  unfold insertNew
  by_cases hb : b = key
  · subst hb
    split
    · rename_i hOld
      obtain ⟨old, hSome⟩ := Option.isSome_iff_exists.mp (Finmap.lookup_isSome.mpr hOld)
      simp [hSome]
    · rename_i hNew
      simp [Finmap.lookup_eq_none.mpr hNew]
  · split
    · simp
    · rw [Finmap.lookup_insert_of_ne _ hb, Option.or_none]

/-- A block is added whole, or not at all. -/
theorem tryAdd_spec (hMap : Announces D c first n x.announceMap) (hSize : Accounts c first n x)
    (hHeaded : Headed D c (first + n * c.liveInterval) node) {added : Bool}
    (hTry : x.tryAddBlockToAnnounceMap D c (first + n * c.liveInterval) = (y, added)) :
    y.announceMap.requestBlockId = x.announceMap.requestBlockId ∧
      ((added = false ∧ y.announceMap = x.announceMap) ∨
        (added = true ∧ Announces D c first (n + 1) y.announceMap ∧ Accounts c first (n + 1) y)) := by
  have hIds := blockIds_succ first c.liveInterval n
  have hNew := not_mem_blockIds c.liveInterval_pos first n
  have hCount : c.getSubPiecesCount (first + n * c.liveInterval) = node.getSubPiecesCount := by
    rw [LiveCacheManager.getSubPiecesCount, hHeaded.1]
  have hBits : accountedBits c (blockIds first c.liveInterval (n + 1)) =
      accountedBits c (blockIds first c.liveInterval n) + node.getSubPiecesCount := by
    rw [hIds]
    simp [accountedBits, hCount]
  have hLe : node.getSubPiecesCount ≤ 5409 := by
    obtain ⟨-, header, hChecked⟩ := hHeaded
    rw [hChecked.count_eq]
    exact (subpieceCount_bounds hChecked.describes.1).2
  obtain ⟨hSizeEq, hBitsEq, hFits⟩ := hSize
  unfold tryAddBlockToAnnounceMap at hTry
  rw [hHeaded.subpiecesCount_eq] at hTry
  dsimp only at hTry
  rw [hHeaded.bitsOf_eq, hSizeEq, hBitsEq, u32_of_lt (by omega)] at hTry
  split at hTry
  · obtain ⟨rfl, rfl⟩ := Prod.mk.inj hTry
    exact ⟨rfl, Or.inl ⟨rfl, rfl⟩⟩
  · rename_i hRoom
    obtain ⟨rfl, rfl⟩ := Prod.mk.inj hTry
    refine ⟨rfl, Or.inr ⟨rfl, ⟨?_, hMap.liveInterval_eq, ?_, ?_, ?_⟩, ?_, ?_, ?_⟩⟩
    · simp only [hMap.count_eq]
    · intro b hMem
      rw [hIds, List.mem_append, List.mem_singleton] at hMem
      rcases hMem with hOld | rfl
      · exact hMap.headed b hOld
      · exact ⟨node, hHeaded⟩
    · intro b
      rw [insertNew_lookup, hMap.subpieceNos_eq, hIds]
      by_cases hb : b = first + n * c.liveInterval
      · simp [hb, hNew, hHeaded.1]
      · simp [hb]
    · intro b
      rw [insertNew_lookup, hMap.subpieceMap_eq, hIds]
      by_cases hb : b = first + n * c.liveInterval
      · simp [hb, hNew, hHeaded.1]
      · simp [hb]
    · dsimp only
      rw [hBits]
      omega
    · dsimp only
      rw [hBits]
      omega
    · rw [hBits]
      unfold maximumPacketSizeAllowed at hRoom
      simp only [liveSubPieceSize] at hRoom
      split at hRoom <;> omega

end Blocks

section Build

/-- The loop ends, and what it leaves describes consecutive blocks. -/
theorem addBlocks_spec (hSound : CacheSound D c) {lastBlockId request : Nat}
    (hBound : lastBlockId + c.liveInterval < 2 ^ 32) {rounds : Nat}
    (hRounds : lastBlockId < b + rounds * c.liveInterval) (hRequest : request ≤ b)
    (hMap : Announces D c first n x.announceMap) (hSize : Accounts c first n x)
    (hFirst : request ≤ first) (hNext : n = 0 ∨ b = first + n * c.liveInterval) :
    ∃ y first n, x.addBlocks D c lastBlockId (rounds + 1) b = some y ∧ request ≤ first ∧
      y.announceMap.requestBlockId = x.announceMap.requestBlockId ∧
      Announces D c first n y.announceMap ∧
      14 + 2 * n + (accountedBits c (blockIds first c.liveInterval n) + 7) / 8 ≤ 1400 := by
  induction rounds generalizing b x first n with
  | zero =>
      refine ⟨x, first, n, ?_, hFirst, rfl, hMap, hSize.fits⟩
      rw [addBlocks, if_pos (by omega)]
  | succ rounds ih =>
      rw [addBlocks]
      by_cases hEnd : lastBlockId < b
      · rw [if_pos hEnd]
        exact ⟨x, first, n, rfl, hFirst, rfl, hMap, hSize.fits⟩
      rw [if_neg hEnd, u32_of_lt (show b + c.liveInterval < 2 ^ 32 by omega)]
      have hMore : lastBlockId < b + c.liveInterval + rounds * c.liveInterval := by
        rw [Nat.add_mul] at hRounds
        omega
      by_cases hHeader : c.isBlockHeaderValid D b = true
      · rw [if_pos hHeader]
        obtain ⟨node, hHeaded⟩ := headed_of_isBlockHeaderValid hSound hHeader
        -- The first block of the map may be any; the others follow it.
        obtain ⟨start, hStart, hMap, hSize, rfl⟩ : ∃ start, request ≤ start ∧
            Announces D c start n x.announceMap ∧ Accounts c start n x ∧
            b = start + n * c.liveInterval := by
          rcases hNext with rfl | hEq
          · have hMap' : Announces D c b 0 x.announceMap :=
              { hMap with headed := fun _ hMem => by cases hMem }
            exact ⟨b, hRequest, hMap', ⟨hSize.size_eq, hSize.bits_eq, hSize.fits⟩, by simp⟩
          · exact ⟨first, hFirst, hMap, hSize, hEq⟩
        obtain ⟨next, added, hTry⟩ : ∃ next added,
            x.tryAddBlockToAnnounceMap D c (start + n * c.liveInterval) = (next, added) :=
          ⟨_, _, rfl⟩
        obtain ⟨hSame, ⟨rfl, hKept⟩ | ⟨rfl, hMap', hSize'⟩⟩ := tryAdd_spec hMap hSize hHeaded hTry
        · refine ⟨next, start, n, ?_, hStart, hSame, hKept ▸ hMap, hSize.fits⟩
          simp [hTry]
        · obtain ⟨y, first', n', hLoop, hRest⟩ := ih hMore (by omega) hMap' hSize' hStart
            (Or.inr (by rw [Nat.add_mul, Nat.one_mul, Nat.add_assoc]))
          refine ⟨y, first', n', ?_, hRest.1, hRest.2.1.trans hSame, hRest.2.2⟩
          simpa [hTry] using hLoop
      · rw [if_neg hHeader]
        by_cases hSome : 0 < x.announceMap.blockInfoCount
        · rw [if_pos hSome]
          exact ⟨x, first, n, rfl, hFirst, rfl, hMap, hSize.fits⟩
        · rw [if_neg hSome]
          have hZero : n = 0 := by
            have := hMap.count_eq
            omega
          exact ih hMore (by omega) hMap hSize hFirst (Or.inl hZero)

/-- What is built for a request: the map of some consecutive blocks from the requested one
on, in a packet that is not too long. -/
structure Built (D : Digests) (c : LiveCacheManager) (request first n : Nat)
    (m : LiveAnnounceMap) : Prop where
  announces : Announces D c first n m
  request_le : request ≤ first
  requestBlockId_eq : 0 < n → m.requestBlockId = request
  packetSize_le : 14 + 2 * n + (accountedBits c (blockIds first c.liveInterval n) + 7) / 8 ≤ 1400

theorem buildAnnounceMap_spec (hSound : CacheSound D c)
    (hBound : c.getCacheLastBlockId + c.liveInterval < 2 ^ 32) (request : Nat)
    (announceMap : LiveAnnounceMap) (rounds : Nat) (hRounds : c.getCacheLastBlockId + 1 < rounds) :
    ∃ m first n, buildAnnounceMap D c rounds request announceMap = some m ∧
      Built D c request first n m := by
  have hPos := c.liveInterval_pos
  have hNothing := announces_nothing D c request announceMap
  unfold buildAnnounceMap
  by_cases hEmpty : c.blockNodes.keys = ∅
  · rw [if_pos hEmpty]
    exact ⟨_, request, 0, rfl, hNothing.1, Nat.le_refl _, fun h => absurd h (by omega), hNothing.2.fits⟩
  rw [if_neg hEmpty]
  by_cases hLate : c.getCacheLastBlockId < request
  · rw [if_pos hLate]
    exact ⟨_, request, 0, rfl, { hNothing.1 with }, Nat.le_refl _,
      fun h => absurd h (by omega), hNothing.2.fits⟩
  rw [if_neg hLate]
  obtain ⟨start, hStart⟩ : ∃ start, start =
      if request < c.getCacheFirstBlockId then c.getCacheFirstBlockId else request := ⟨_, rfl⟩
  have hLe : request ≤ start := by
    rw [hStart]
    split <;> omega
  have hEnough : c.getCacheLastBlockId < start + (rounds - 1) * c.liveInterval := by
    have hMul := Nat.le_mul_of_pos_right (rounds - 1) hPos
    omega
  obtain ⟨y, first, n, hLoop, hFirst, hSame, hMap, hSize⟩ := addBlocks_spec
    (x := { resetState c announceMap with
      announceMap := { (resetState c announceMap).announceMap with requestBlockId := request } })
    (n := 0) hSound hBound hEnough hLe { hNothing.1 with }
    { hNothing.2 with } (Nat.le_refl _) (Or.inl rfl)
  rw [show rounds - 1 + 1 = rounds by omega] at hLoop
  refine ⟨y.announceMap, first, n, ?_, hMap, hFirst, fun _ => hSame, hSize⟩
  dsimp only
  rw [← hStart, hLoop]
  rfl

end Build

end Live
