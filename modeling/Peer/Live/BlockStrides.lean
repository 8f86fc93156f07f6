import Peer.Live.MemoryConsumerQuota

/-! The loops that walk block ids in steps of the live interval, round by round: when they
end, see every id once and do not wrap. -/
namespace Live

open Basis Storage LiveAnnounceMapBuilder LiveInstanceMemoryConsumer

variable {D : Digests} {c : LiveCacheManager} {x : LiveInstance} {w n request : Nat}

section Rounds

/-- The first id that `Build` looks at. -/
def buildFrom (c : LiveCacheManager) (request : Nat) : Nat :=
  if request < c.getCacheFirstBlockId then c.getCacheFirstBlockId else request

/-- The builder when the loop of `Build` begins. -/
def builderFor (c : LiveCacheManager) (request : Nat) (announceMap : LiveAnnounceMap) :
    LiveAnnounceMapBuilder :=
  { resetState c announceMap with
    announceMap := { (resetState c announceMap).announceMap with requestBlockId := request } }

/-- The body of the loop of `Build`; `none` is `break`. -/
def announceBlock (D : Digests) (c : LiveCacheManager) (x : LiveAnnounceMapBuilder)
    (blockId : Nat) : Option LiveAnnounceMapBuilder :=
  if c.isBlockHeaderValid D blockId then
    if (x.tryAddBlockToAnnounceMap D c blockId).2 then
      some (x.tryAddBlockToAnnounceMap D c blockId).1
    else none
  else if 0 < x.announceMap.blockInfoCount then none
  else some x

def buildingRound (D : Digests) (c : LiveCacheManager) :
    Nat × LiveAnnounceMapBuilder → Option (Nat × LiveAnnounceMapBuilder) :=
  breakRound (2 ^ 32) c.liveInterval (fun _ => c.getCacheLastBlockId + 1) (announceBlock D c)

/-- What the loop of `Build` leaves when it ends. -/
def builtAt (D : Digests) (c : LiveCacheManager) (s : Nat × LiveAnnounceMapBuilder) :
    LiveAnnounceMapBuilder :=
  if c.getCacheLastBlockId < s.1 then s.2
  else if c.isBlockHeaderValid D s.1 then (s.2.tryAddBlockToAnnounceMap D c s.1).1
  else s.2

theorem addBlocks_succ (rounds : Nat) (s : Nat × LiveAnnounceMapBuilder) :
    s.2.addBlocks D c c.getCacheLastBlockId (rounds + 1) s.1 =
      (buildingRound D c s).elim (some (builtAt D c s))
        fun t => t.2.addBlocks D c c.getCacheLastBlockId rounds t.1 := by
  obtain ⟨blockId, x⟩ := s
  rw [addBlocks]
  unfold buildingRound breakRound builtAt announceBlock
  dsimp only
  by_cases hEnd : c.getCacheLastBlockId < blockId
  · rw [if_pos hEnd, if_neg (Nat.not_lt.mpr hEnd), if_pos hEnd]
    rfl
  rw [if_neg hEnd, if_pos (Nat.lt_succ_of_le (Nat.not_lt.mp hEnd)), if_neg hEnd]
  by_cases hHeader : c.isBlockHeaderValid D blockId = true
  · rw [if_pos hHeader, if_pos hHeader, if_pos hHeader]
    cases hAdded : (x.tryAddBlockToAnnounceMap D c blockId).2 <;> simp [u32]
  · rw [if_neg hHeader, if_neg hHeader, if_neg hHeader]
    by_cases hCount : 0 < x.announceMap.blockInfoCount
    · simp [hCount]
    · simp [hCount, u32]

/-- A round of the loop of `OnAnnounce` that forgets blocks. -/
def forgettingRound (firstBlockId liveInterval : Nat) :
    Nat × (Finmap fun _ : Nat => List Bool) → Option (Nat × (Finmap fun _ : Nat => List Bool)) :=
  breakRound (2 ^ 32) liveInterval (fun _ => firstBlockId) fun bitmap blockId =>
    some (bitmap.erase blockId)

theorem forget_succ (firstBlockId liveInterval rounds : Nat)
    (s : Nat × (Finmap fun _ : Nat => List Bool)) :
    AnnounceReceiver.forget firstBlockId liveInterval (rounds + 1) s.1 s.2 =
      (forgettingRound firstBlockId liveInterval s).elim (some s.2)
        fun t => AnnounceReceiver.forget firstBlockId liveInterval rounds t.1 t.2 := by
  rw [AnnounceReceiver.forget]
  unfold forgettingRound breakRound
  split
  · simp [u32]
  · rfl

/-- A round of a loop over the block ids of the cache. -/
def blockIdsRound {σ : Type} (c : LiveCacheManager) (cacheOf : σ → LiveCacheManager)
    (body : σ → Nat → σ) : Nat × σ → Option (Nat × σ) :=
  strideRound (2 ^ 32) c.liveInterval (fun s => (cacheOf s).getCacheLastBlockId) body

end Rounds

section Building

/-- The subpieces that the builder counts for a block. -/
def countedSubPieces (c : LiveCacheManager) (blockId : Nat) : Nat :=
  u16 (u32 (c.getBlockSizeInBytes blockId + liveSubPieceSize - 1) / liveSubPieceSize)

/-- The size of a packet that announces so many blocks with so many subpieces. -/
def packetSize (blocks subPieces : Nat) : Nat := 14 + 2 * blocks + (subPieces + 7) / 8

/-- The blocks that can be announced, and their subpieces. -/
def announceable (D : Digests) (c : LiveCacheManager) (ids : List Nat) : List Nat :=
  ids.filter fun b => c.isBlockHeaderValid D b

def announceableSubPieces (D : Digests) (c : LiveCacheManager) (ids : List Nat) : Nat :=
  ((announceable D c ids).map (countedSubPieces c)).sum

/-- Nothing breaks the loop of `Build` off: no block without a valid header comes behind one
that has it, and the announceable blocks fit in a packet. -/
structure AnnouncesAll (D : Digests) (c : LiveCacheManager) (ids : List Nat) : Prop where
  noGap : ids.Pairwise fun a b => c.isBlockHeaderValid D a = true → c.isBlockHeaderValid D b = true
  fits : packetSize (announceable D c ids).length (announceableSubPieces D c ids) ≤ liveSubPieceSize

/-- What the builder has accounted for so far. -/
structure Counted (x : LiveAnnounceMapBuilder) (blocks subPieces : Nat) : Prop where
  count_eq : x.announceMap.blockInfoCount = blocks
  size_eq : x.accumulatedPacketSize = 14 + 2 * blocks + subPieces / 8
  bits_eq : x.additionalBitsBeyondTheLastByte = subPieces % 8
  fits : packetSize blocks subPieces ≤ liveSubPieceSize

theorem counted_builderFor (c : LiveCacheManager) (request : Nat) (announceMap : LiveAnnounceMap) :
    Counted (builderFor c request announceMap) 0 0 :=
  ⟨rfl, rfl, rfl, by decide⟩

/-- A block is added just if the packet has room for it. -/
theorem Counted.tryAdd {x y : LiveAnnounceMapBuilder} {added : Bool} {blocks subPieces blockId : Nat}
    (h : Counted x blocks subPieces)
    (hTry : x.tryAddBlockToAnnounceMap D c blockId = (y, added)) :
    (added = true ↔
      packetSize (blocks + 1) (subPieces + countedSubPieces c blockId) ≤ liveSubPieceSize) ∧
    (added = true → Counted y (blocks + 1) (subPieces + countedSubPieces c blockId)) := by
  obtain ⟨hCount, hSize, hBits, hFits⟩ := h
  have hCounted : countedSubPieces c blockId < 2 ^ 16 := u16_lt _
  unfold packetSize liveSubPieceSize at *
  unfold tryAddBlockToAnnounceMap at hTry
  dsimp only at hTry
  rw [show u16 (u32 (c.getBlockSizeInBytes blockId + liveSubPieceSize - 1) / liveSubPieceSize) =
    countedSubPieces c blockId from rfl, hSize, hBits] at hTry
  generalize countedSubPieces c blockId = counted at hTry hCounted ⊢
  rw [u32_of_lt (by omega)] at hTry
  have hRoom : ∀ size, size = 14 + 2 * blocks + subPieces / 8 + 2 + (counted + subPieces % 8) / 8 →
      ((if 0 < (counted + subPieces % 8) % 8 then liveSubPieceSize - 1 else liveSubPieceSize) < size ↔
        1400 < 14 + 2 * (blocks + 1) + (subPieces + counted + 7) / 8) := by
    intro size hEq
    unfold liveSubPieceSize
    split <;> omega
  unfold maximumPacketSizeAllowed at hTry
  dsimp only at hTry
  by_cases hFull : 1400 < 14 + 2 * (blocks + 1) + (subPieces + counted + 7) / 8
  · rw [if_pos ((hRoom _ rfl).mpr hFull)] at hTry
    obtain ⟨rfl, rfl⟩ := Prod.mk.inj hTry
    constructor
    · constructor
      · intro hAdded
        cases hAdded
      · omega
    · intro hAdded
      cases hAdded
  · rw [if_neg (mt (hRoom _ rfl).mp hFull)] at hTry
    obtain ⟨rfl, rfl⟩ := Prod.mk.inj hTry
    constructor
    · simp only [true_iff]
      omega
    · intro _
      refine ⟨?_, ?_, ?_, ?_⟩
      · show x.announceMap.blockInfoCount + 1 = _
        rw [hCount]
      · show 14 + 2 * blocks + subPieces / 8 + 2 + (counted + subPieces % 8) / 8 = _
        omega
      · show (counted + subPieces % 8) % 8 = _
        omega
      · unfold packetSize liveSubPieceSize
        omega

/-- The loop is not broken off just if nothing is there that breaks it off. -/
theorem announceBlocks_isSome_iff (ids : List Nat) {x : LiveAnnounceMapBuilder}
    {blocks subPieces : Nat} (h : Counted x blocks subPieces) :
    (ids.foldlM (announceBlock D c) x).isSome ↔
      (0 < blocks → ∀ b ∈ ids, c.isBlockHeaderValid D b = true) ∧
      (ids.Pairwise fun a b => c.isBlockHeaderValid D a = true → c.isBlockHeaderValid D b = true) ∧
      packetSize (blocks + (announceable D c ids).length)
        (subPieces + announceableSubPieces D c ids) ≤ liveSubPieceSize := by
  induction ids generalizing x blocks subPieces with
  | nil => simpa [announceable, announceableSubPieces] using h.fits
  | cons b ids ih =>
      have hCount := h.count_eq
      rw [List.foldlM_cons]
      unfold announceBlock
      by_cases hHeader : c.isBlockHeaderValid D b = true
      · rw [if_pos hHeader]
        have hLength : (announceable D c (b :: ids)).length = (announceable D c ids).length + 1 := by
          simp [announceable, hHeader]
        have hSum : announceableSubPieces D c (b :: ids) =
            countedSubPieces c b + announceableSubPieces D c ids := by
          simp [announceableSubPieces, announceable, hHeader]
        obtain ⟨y, added, hTry⟩ : ∃ y added, x.tryAddBlockToAnnounceMap D c b = (y, added) :=
          ⟨_, _, rfl⟩
        obtain ⟨hAdded, hNext⟩ := h.tryAdd hTry
        rw [hTry, hLength, hSum]
        cases added with
        | false =>
            have hFull : ¬ packetSize (blocks + 1) (subPieces + countedSubPieces c b) ≤
                liveSubPieceSize := fun hLe => Bool.false_ne_true (hAdded.mpr hLe)
            apply iff_of_false
            · simp
            · rintro ⟨-, -, hLe⟩
              unfold packetSize at hFull hLe
              omega
        | true =>
            have hRest := ih (hNext rfl)
            show (ids.foldlM (announceBlock D c) y).isSome ↔ _
            have hBlocks : blocks + ((announceable D c ids).length + 1) =
                blocks + 1 + (announceable D c ids).length := by omega
            rw [hRest, List.pairwise_cons, hBlocks, ← Nat.add_assoc subPieces]
            simp only [Nat.zero_lt_succ, true_implies, List.forall_mem_cons, hHeader, true_and,
              and_assoc]
            constructor
            · rintro ⟨hAll, hRest⟩
              exact ⟨fun _ => hAll, hAll, hRest⟩
            · rintro ⟨-, hRest⟩
              exact hRest
      · rw [if_neg hHeader]
        have hSame : announceable D c (b :: ids) = announceable D c ids := by
          simp [announceable, hHeader]
        rw [announceableSubPieces, hSame, ← announceableSubPieces]
        by_cases hSome : 0 < blocks
        · rw [if_pos (by omega)]
          apply iff_of_false
          · simp
          · rintro ⟨hAll, -⟩
            exact hHeader (hAll hSome b List.mem_cons_self)
        · rw [if_neg (by omega)]
          show (ids.foldlM (announceBlock D c) x).isSome ↔ _
          rw [ih h, List.pairwise_cons]
          simp [hSome, hHeader]

end Building

section Strides

/-- What is promised of the loops that walk block ids: they return, their ids only grow, and
none comes twice. Those of the memory consumer run when the cache tells a size. -/
structure StridesOrderly (D : Digests) (w : Nat) (x : LiveInstance) (request : Nat)
    (announceMap : LiveAnnounceMap) (receiver : AnnounceReceiver) (m : LiveAnnounceMap) : Prop where
  averaging : x.cacheManager.getCacheSize ≠ 0 →
    Orderly (blockIdsRound x.cacheManager (fun _ => x.cacheManager) (addBlockSize w x.cacheManager))
      Prod.fst (x.cacheManager.getCacheFirstBlockId, (0, 0)) ∧
    Settles (fun rounds => forBlockIds x.cacheManager (fun _ => x.cacheManager)
      (addBlockSize w x.cacheManager) rounds (0, 0)) fun _ => True
  scoring : x.cacheManager.getCacheSize ≠ 0 →
    Orderly (blockIdsRound x.cacheManager (fun _ => x.cacheManager) (scoreBlock x))
      Prod.fst (x.cacheManager.getCacheFirstBlockId, ∅) ∧
    Settles (fun rounds => forBlockIds x.cacheManager (fun _ => x.cacheManager)
      (scoreBlock x) rounds ∅) fun _ => True
  removing : x.cacheManager.getCacheSize ≠ 0 → ∀ scores,
    Settles (buildBlocksImportanceScore x) (· = scores) →
    Orderly (blockIdsRound x.cacheManager Prod.snd removeUnimportant)
      Prod.fst (x.cacheManager.getCacheFirstBlockId, (scores, x.cacheManager)) ∧
    Settles (fun rounds => forBlockIds x.cacheManager Prod.snd removeUnimportant rounds
      (scores, x.cacheManager)) fun _ => True
  building : x.cacheManager.blockNodes.keys ≠ ∅ → request ≤ x.cacheManager.getCacheLastBlockId →
    Orderly (buildingRound D x.cacheManager) Prod.fst
      (buildFrom x.cacheManager request, builderFor x.cacheManager request announceMap) ∧
    Settles (fun rounds => (builderFor x.cacheManager request announceMap).addBlocks D
      x.cacheManager x.cacheManager.getCacheLastBlockId rounds (buildFrom x.cacheManager request))
      fun _ => True
  reading : 0 < m.blockInfoCount → ∀ first, (entries m.subpieceMap).head? = some first →
    Orderly (forgettingRound first.1 receiver.liveInterval) Prod.fst
      (m.requestBlockId, receiver.blockBitmap) ∧
    Settles (fun rounds => AnnounceReceiver.forget first.1 receiver.liveInterval rounds
      m.requestBlockId receiver.blockBitmap) fun _ => True

/-- From an id on, the first id of the stride that is not below the bound is a
`boost::uint32_t`. -/
def StrideFits (liveInterval start bound : Nat) : Prop :=
  start + strideCount liveInterval start bound * liveInterval < 2 ^ 32

instance (liveInterval start bound : Nat) : Decidable (StrideFits liveInterval start bound) :=
  inferInstanceAs (Decidable (_ < _))

/-- The ids of a stride below the bound. -/
def strideIds (liveInterval start bound : Nat) : List Nat :=
  strideNumbers (2 ^ 32) liveInterval start (strideCount liveInterval start bound)

/-- When the strides fit: those over the cache, the one over the request unless the loop is
broken off before, and the one to the first block of the map that is received. -/
structure StridesFit (D : Digests) (c : LiveCacheManager) (request : Nat)
    (receiver : AnnounceReceiver) (m : LiveAnnounceMap) : Prop where
  scoring : c.getCacheSize ≠ 0 →
    StrideFits c.liveInterval c.getCacheFirstBlockId (c.getCacheLastBlockId + 1)
  building : c.blockNodes.keys ≠ ∅ → request ≤ c.getCacheLastBlockId →
    AnnouncesAll D c
      (strideIds c.liveInterval (buildFrom c request) (c.getCacheLastBlockId + 1)) →
    StrideFits c.liveInterval (buildFrom c request) (c.getCacheLastBlockId + 1)
  reading : 0 < m.blockInfoCount → ∀ first, (entries m.subpieceMap).head? = some first →
    StrideFits receiver.liveInterval m.requestBlockId first.1

/-- A loop over the ids of the cache is orderly if its last id stays. -/
theorem blockIds_orderly_iff {σ : Type} {cacheOf : σ → LiveCacheManager} {body : σ → Nat → σ} {s : σ}
    (hTyped : c.Typed) (hLast : ∀ t, Visits (blockIdsRound c cacheOf body)
      (c.getCacheFirstBlockId, s) t → (cacheOf t.2).getCacheLastBlockId = c.getCacheLastBlockId) :
    (Orderly (blockIdsRound c cacheOf body) Prod.fst (c.getCacheFirstBlockId, s) ∧
      Settles (fun rounds => forBlockIds c cacheOf body rounds s) fun _ => True) ↔
    StrideFits c.liveInterval c.getCacheFirstBlockId (c.getCacheLastBlockId + 1) := by
  have hInterval := hTyped.liveInterval_lt
  rw [and_iff_left_of_imp]
  · exact orderly_strideRound_iff hLast hTyped.first_lt c.liveInterval_pos (by omega) hTyped.last_lt
  · intro h
    exact h.settles _ strideLoop_succ

theorem removing_orderly (hTyped : x.cacheManager.Typed) (hSize : x.cacheManager.getCacheSize ≠ 0)
    {scores : Scores} (hScores : Settles (buildBlocksImportanceScore x) (· = scores))
    (hFits : StrideFits x.cacheManager.liveInterval x.cacheManager.getCacheFirstBlockId
      (x.cacheManager.getCacheLastBlockId + 1)) :
    Orderly (blockIdsRound x.cacheManager Prod.snd removeUnimportant)
      Prod.fst (x.cacheManager.getCacheFirstBlockId, (scores, x.cacheManager)) ∧
    Settles (fun rounds => forBlockIds x.cacheManager Prod.snd removeUnimportant rounds
      (scores, x.cacheManager)) fun _ => True := by
  have hSome : cached x ≠ ∅ := fun hNone => hSize (getCacheSize_eq_zero hNone)
  -- The scores are those of a walk that ends, and the last id stays as long as it goes.
  have hBuild : Settles (fun rounds => forBlockIds x.cacheManager (fun _ => x.cacheManager)
      (scoreBlock x) rounds ∅) (· = scores) := by
    unfold buildBlocksImportanceScore at hScores
    simpa only [if_neg hSize] using hScores
  obtain ⟨n, hEnds, rfl⟩ := (forBlockIds_settles_iff hTyped).mp hBuild
  apply (blockIds_orderly_iff hTyped _).mpr hFits
  intro t ht
  obtain ⟨k, rfl, hBefore⟩ := (visits_strideRound hTyped.first_lt).mp ht
  apply removal_last hSome
  by_contra hBeyond
  have hLate := hBefore n (Nat.not_le.mp hBeyond)
  rw [show (walked x.cacheManager n).foldl (scoreBlock x) ∅ = allScores x (walked x.cacheManager n)
    from rfl, removal_last hSome (Nat.le_refl n)] at hLate
  exact absurd hEnds.1 (Nat.not_lt.mpr hLate)

theorem building_orderly_iff (hTyped : c.Typed) (hRequest : request < 2 ^ 32)
    (announceMap : LiveAnnounceMap) :
    (Orderly (buildingRound D c) Prod.fst (buildFrom c request, builderFor c request announceMap) ∧
      Settles (fun rounds => (builderFor c request announceMap).addBlocks D c c.getCacheLastBlockId
        rounds (buildFrom c request)) fun _ => True) ↔
    (AnnouncesAll D c (strideIds c.liveInterval (buildFrom c request) (c.getCacheLastBlockId + 1)) →
      StrideFits c.liveInterval (buildFrom c request) (c.getCacheLastBlockId + 1)) := by
  have hInterval := hTyped.liveInterval_lt
  have hFrom : buildFrom c request < 2 ^ 32 := by
    unfold buildFrom
    split
    · exact hTyped.first_lt
    · exact hRequest
  have hAll : AnnouncesAll D c
      (strideIds c.liveInterval (buildFrom c request) (c.getCacheLastBlockId + 1)) ↔
      ((strideIds c.liveInterval (buildFrom c request) (c.getCacheLastBlockId + 1)).foldlM
        (announceBlock D c) (builderFor c request announceMap)).isSome := by
    rw [announceBlocks_isSome_iff _ (counted_builderFor c request announceMap)]
    constructor
    · intro h
      exact ⟨fun hNone => absurd hNone (Nat.lt_irrefl 0), h.noGap, by simpa using h.fits⟩
    · rintro ⟨-, hNoGap, hFits⟩
      exact ⟨hNoGap, by simpa using hFits⟩
  rw [and_iff_left_of_imp, hAll]
  · exact orderly_breakRound_iff (fun _ _ => rfl) hFrom c.liveInterval_pos (by omega) hTyped.last_lt
  · intro h
    exact h.settles (fun rounds s => s.2.addBlocks D c c.getCacheLastBlockId rounds s.1)
      addBlocks_succ

theorem forgetting_orderly_iff {firstBlockId liveInterval : Nat} (hPos : 0 < liveInterval)
    (hInterval : liveInterval < 2 ^ 16) (hRequest : request < 2 ^ 32)
    (hFirst : firstBlockId < 2 ^ 32) (bitmap : Finmap fun _ : Nat => List Bool) :
    (Orderly (forgettingRound firstBlockId liveInterval) Prod.fst (request, bitmap) ∧
      Settles (fun rounds => AnnounceReceiver.forget firstBlockId liveInterval rounds request bitmap)
        fun _ => True) ↔ StrideFits liveInterval request firstBlockId := by
  have hWhole : ∀ (ids : List Nat) (bitmap : Finmap fun _ : Nat => List Bool),
      (ids.foldlM (fun bitmap b => some (bitmap.erase b)) bitmap).isSome := by
    intro ids
    induction ids with
    | nil => exact fun _ => rfl
    | cons b ids ih => exact fun bitmap => ih (bitmap.erase b)
  rw [and_iff_left_of_imp]
  · unfold forgettingRound
    rw [orderly_breakRound_iff (fun _ _ => rfl) hRequest hPos (by omega) hFirst.le]
    simp only [hWhole, true_implies]
    rfl
  · intro h
    exact h.settles (fun rounds s => AnnounceReceiver.forget firstBlockId liveInterval rounds s.1 s.2)
      (forget_succ firstBlockId liveInterval)

theorem StridesOrderly.scoring_fits {announceMap m : LiveAnnounceMap} {receiver : AnnounceReceiver}
    (h : StridesOrderly D w x request announceMap receiver m) (hTyped : x.cacheManager.Typed)
    (hSize : x.cacheManager.getCacheSize ≠ 0) :
    StrideFits x.cacheManager.liveInterval x.cacheManager.getCacheFirstBlockId
      (x.cacheManager.getCacheLastBlockId + 1) :=
  (blockIds_orderly_iff hTyped fun _ _ => rfl).mp (h.scoring hSize)

/-- The loops that walk block ids are orderly exactly if the strides that they walk fit. -/
theorem blockStrides_iff (D : Digests) (w : Nat) (x : LiveInstance) (hTyped : x.cacheManager.Typed)
    (hRequest : request < 2 ^ 32) (announceMap : LiveAnnounceMap) (receiver : AnnounceReceiver)
    (hPos : 0 < receiver.liveInterval) (hInterval : receiver.liveInterval < 2 ^ 16)
    (m : LiveAnnounceMap) (hMap : m.requestBlockId < 2 ^ 32)
    (hIds : ∀ b ∈ m.subpieceMap, b < 2 ^ 32) :
    StridesOrderly D w x request announceMap receiver m ↔
      StridesFit D x.cacheManager request receiver m := by
  have hFirst : ∀ first, (entries m.subpieceMap).head? = some first → first.1 < 2 ^ 32 := by
    intro first hHead
    have hMem := List.mem_of_head? hHead
    simp only [entries, List.mem_filterMap, Option.map_eq_some_iff] at hMem
    obtain ⟨b, hKey, value, -, rfl⟩ := hMem
    exact hIds b (mem_keysInOrder.mp hKey)
  constructor
  · intro h
    refine ⟨fun hSize => ?_, fun hSome hLe => ?_, fun hCount first hHead => ?_⟩
    · exact h.scoring_fits hTyped hSize
    · exact (building_orderly_iff hTyped hRequest announceMap).mp (h.building hSome hLe)
    · exact (forgetting_orderly_iff hPos hInterval hMap (hFirst first hHead) _).mp
        (h.reading hCount first hHead)
  · intro h
    refine ⟨fun hSize => ?_, fun hSize => ?_, fun hSize scores hScores => ?_,
      fun hSome hLe => ?_, fun hCount first hHead => ?_⟩
    · exact (blockIds_orderly_iff hTyped fun _ _ => rfl).mpr (h.scoring hSize)
    · exact (blockIds_orderly_iff hTyped fun _ _ => rfl).mpr (h.scoring hSize)
    · exact removing_orderly hTyped hSize hScores (h.scoring hSize)
    · exact (building_orderly_iff hTyped hRequest announceMap).mpr (h.building hSome hLe)
    · exact (forgetting_orderly_iff hPos hInterval hMap (hFirst first hHead) _).mpr
        (h.reading hCount first hHead)

/-- A cache of one block with an interval of ten seconds. -/
private def cacheOfOne (blockId : Nat) : LiveInstance where
  cacheManager := ⟨Guid.zero, Finmap.singleton blockId (.create blockId Guid.zero), 10, ten_pos⟩
  liveStreams := []

private def receiverOfTen : AnnounceReceiver := ⟨∅, ⟨∅, 10⟩, 10⟩

private theorem mem_cacheOfOne {b blockId : Nat} :
    b ∈ (cacheOfOne blockId).cacheManager.blockNodes ↔ b = blockId := Finmap.mem_singleton _ _ _

private theorem cacheOfOne_typed {blockId : Nat} (h : blockId < 2 ^ 32) :
    (cacheOfOne blockId).cacheManager.Typed := by
  constructor
  · intro b hb
    rwa [mem_cacheOfOne.mp hb]
  · show 10 < 2 ^ 16
    decide

private theorem cacheOfOne_ne_empty (blockId : Nat) :
    (cacheOfOne blockId).cacheManager.blockNodes.keys ≠ ∅ :=
  Finset.ne_empty_of_mem (Finmap.mem_keys.mpr (mem_cacheOfOne.mpr rfl))

private theorem cacheOfOne_size (blockId : Nat) :
    (cacheOfOne blockId).cacheManager.getCacheSize = 1 := by
  show u16 (Finset.card {blockId}) = 1
  rw [Finset.card_singleton, u16_of_lt (by decide)]

/-- The strides of a request for block 0 to a cache that has it, and of an announce map that
begins with block 20. -/
theorem blockStrides_of_oneBlock :
    StridesOrderly ⟨fun _ => Guid.zero, fun _ => 0⟩ 32 (cacheOfOne 0) 0 ⟨0, 10, 0, ∅, ∅⟩ receiverOfTen
      ⟨0, 10, 1, Finmap.singleton 20 1, Finmap.singleton 20 [true]⟩ := by
  apply (blockStrides_iff _ 32 (cacheOfOne 0) (cacheOfOne_typed (by decide)) (by decide) _
    receiverOfTen (by decide) (by decide) _ (by decide) ?_).mpr
  · refine ⟨fun _ => by decide +kernel, fun _ _ _ => by decide +kernel, fun _ first hHead => ?_⟩
    have hFirst : first = (20, [true]) := by
      have hHere : (entries (Finmap.singleton 20 [true])).head? = some (20, [true]) := by
        decide +kernel
      exact Option.some.inj (hHead.symm.trans hHere)
    rw [hFirst]
    decide +kernel
  · intro b hb
    rw [(Finmap.mem_singleton _ _ _).mp hb]
    decide

/-- Behind the greatest block id the loops begin anew. -/
theorem blockStrides_fail : ¬ ∀ (D : Digests) (w : Nat) (x : LiveInstance) (request : Nat)
    (announceMap : LiveAnnounceMap) (receiver : AnnounceReceiver) (m : LiveAnnounceMap),
    x.cacheManager.Typed → StridesOrderly D w x request announceMap receiver m := by
  intro h
  have hTyped : (cacheOfOne (2 ^ 32 - 1)).cacheManager.Typed := cacheOfOne_typed (by decide)
  have hOrderly := h ⟨fun _ => Guid.zero, fun _ => 0⟩ 32 (cacheOfOne (2 ^ 32 - 1)) 0 ⟨0, 10, 0, ∅, ∅⟩ receiverOfTen
    ⟨0, 10, 0, ∅, ∅⟩ hTyped
  have hSize : (cacheOfOne (2 ^ 32 - 1)).cacheManager.getCacheSize ≠ 0 := by
    rw [cacheOfOne_size]
    exact Nat.one_ne_zero
  have hFits := hOrderly.scoring_fits hTyped hSize
  rw [mem_cacheOfOne.mp (first_mem (cacheOfOne_ne_empty _)),
    mem_cacheOfOne.mp (last_mem (cacheOfOne_ne_empty _))] at hFits
  exact absurd hFits (by decide)

end Strides

end Live
