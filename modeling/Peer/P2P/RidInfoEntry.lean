import Peer.P2P.RidInfoText

/-! What a store makes of RID information that came from text. Nothing between
the parsers and the constructor of the store compares the numbers with each other,
so the fields of the text decide whether the store fits its file. -/
namespace P2P

open Storage

/-- The part of an `Instance` that `SetRidInfo` reads and writes. -/
structure RidHolder (μ : Type) where
  isRunning : Bool
  isPureDownloadMode : Bool
  subPieceManager : Option (SubPieceManager μ)

/-- The MD5s the store has agree with the new ones. Outside a vector nothing is read. -/
def md5sAgree (known new : List Guid) : List Nat → Option Bool
  | [] => some true
  | i :: rest =>
    match known[i]? with
    | none => none
    | some md5 =>
      if md5 = Guid.zero then md5sAgree known new rest
      else
        match new[i]? with
        | none => none
        | some md5' => if md5 ≠ md5' then some false else md5sAgree known new rest

/-- A count, a block size and a length that belong together. -/
structure GeometryFields (fileLength blockSize blockCount : Nat) : Prop where
  fileLength_pos : 0 < fileLength
  blockSize_pos : 0 < blockSize
  subpiece_dvd : bytesNumPerSubpiece ∣ blockSize
  lastBlock_lt : (blockCount - 1) * blockSize < fileLength
  blocks_ge : fileLength ≤ blockCount * blockSize
  blockCount_le : blockCount ≤ 2 ^ 16

namespace RidHolder

variable {μ : Type} [BlockMap μ]

/-- `Instance::SetRidInfo`, without the notices to the drivers and the application
for a resource. -/
def setRidInfo (inst : RidHolder μ) (r : RidInfo) (needVerifyBlock : Bool) :
    Option (RidHolder μ × Bool) :=
  if !inst.isRunning then some (inst, false)
  else
    match inst.subPieceManager with
    | none =>
      (SubPieceManager.new r false needVerifyBlock).map fun m =>
        ({ inst with subPieceManager := some m }, true)
    | some m =>
      if inst.isPureDownloadMode || m.ridInfo.rid ≠ Guid.zero ||
          m.ridInfo.fileLength ≠ r.fileLength then some (inst, false)
      else
        (md5sAgree m.ridInfo.blockMd5s r.blockMd5s (List.range m.ridInfo.blockCount)).map fun agree =>
          if agree then ({ inst with subPieceManager := some (m.initRidInfo r) }, true)
          else (inst, false)

end RidHolder

variable {μ : Type} [BlockMap μ] {r : RidInfo}

/-- The store has a block for every position of the file, and its last subpiece
is the one with the last byte, in its last block. -/
structure FitsFile (r : RidInfo) (m : SubPieceManager μ) : Prop where
  blocks : ∀ p < r.fileLength, ∃ info, m.posToSubPieceInfo p = some info ∧
    info.blockIndex = p / r.blockSize ∧ info.blockIndex < m.blocks.length
  last : m.posToSubPieceInfo (r.fileLength - 1) = some m.lastSubpieceInfo
  last_block : m.lastSubpieceInfo.blockIndex + 1 = m.blocks.length

/-- The RID information is consistent, and every running instance that has no store
yet makes a store from it that fits the file. -/
structure EntersConsistently (μ : Type) [BlockMap μ] (r : RidInfo) : Prop where
  fileLength_pos : 0 < r.fileLength
  valid : r.Valid
  store : ∀ (inst : RidHolder μ) (verify : Bool), inst.isRunning = true →
    inst.subPieceManager = none → ∃ m, FitsFile r m ∧
      inst.setRidInfo r verify = some ({ inst with subPieceManager := some m }, true)

/-- The count is the ceiling of the quotient. -/
theorem GeometryFields.valid (h : GeometryFields r.fileLength r.blockSize r.blockCount) :
    r.Valid := by
  refine ⟨h.blockSize_pos, h.subpiece_dvd, ?_⟩
  have hLast := h.lastBlock_lt
  have hBlocks := h.blocks_ge
  have hCount : 0 < r.blockCount := by
    by_contra hZero
    rw [Nat.eq_zero_of_not_pos hZero, Nat.zero_mul] at hBlocks
    exact Nat.not_lt.mpr hBlocks h.fileLength_pos
  symm
  rw [Nat.div_eq_iff h.blockSize_pos]
  have hSplit : r.blockCount * r.blockSize = (r.blockCount - 1) * r.blockSize + r.blockSize := by
    rw [← Nat.succ_mul, Nat.succ_eq_add_one, Nat.sub_add_cancel hCount]
  omega

theorem geometryFields_of_valid (h : r.Valid) (hLength : 0 < r.fileLength)
    (hCount : r.blockCount ≤ 2 ^ 16) :
    GeometryFields r.fileLength r.blockSize r.blockCount := by
  have hSplit := Nat.div_add_mod (r.fileLength - 1) r.blockSize
  have hMod := Nat.mod_lt (r.fileLength - 1) h.blockSize_pos
  have hBlocks := h.blockCount_sub_one hLength
  refine ⟨hLength, h.blockSize_pos, h.subpiece_dvd, ?_, ?_, hCount⟩
  · rw [hBlocks, Nat.add_sub_cancel, Nat.mul_comm]
    omega
  · rw [hBlocks, Nat.succ_mul, Nat.mul_comm]
    omega

/-- A store built from consistent numbers fits its file. -/
theorem fitsFile_of_builtFor {m : SubPieceManager μ} (hm : SubPieceManager.BuiltFor r m)
    (h : r.Valid) (hLength : 0 < r.fileLength) (hCount : r.blockCount ≤ 2 ^ 16) :
    FitsFile r m := by
  have hBlocks := h.blockCount_sub_one hLength
  have hIndex : ∀ p < r.fileLength, p / r.blockSize < r.blockCount := by
    intro p hp
    rw [hBlocks]
    exact Nat.lt_succ_of_le (Nat.div_le_div_right (by omega))
  have hInfo : ∀ p < r.fileLength, m.posToSubPieceInfo p = some (SubPieceInfo.make
      (p / r.blockSize) (p % r.blockSize / bytesNumPerSubpiece)) := by
    intro p hp
    rw [SubPieceManager.posToSubPieceInfo, hm.fileLength_eq, hm.blockSize_eq,
      if_neg (Nat.not_le.mpr hp)]
  have hLast : r.blockCount - 1 = (r.fileLength - 1) / r.blockSize := by
    rw [hBlocks, Nat.add_sub_cancel]
  constructor
  · intro p hp
    have hBlock : u16 (p / r.blockSize) = p / r.blockSize :=
      u16_of_lt (Nat.lt_of_lt_of_le (hIndex p hp) hCount)
    refine ⟨_, hInfo p hp, hBlock, ?_⟩
    rw [SubPieceInfo.make_blockIndex, hBlock, hm.length_eq]
    exact hIndex p hp
  · rw [hInfo _ (by omega), hm.lastInfo_eq, SubPieceManager.lastInfoOf,
      subU32_of_le r.blockCount_lt (h.blockCount_pos hLength),
      subU32_of_le r.fileLength_lt hLength, hLast]
  · have hPos := h.blockCount_pos hLength
    rw [hm.lastInfo_eq, hm.length_eq, SubPieceManager.lastInfoOf, SubPieceInfo.make_blockIndex,
      subU32_of_le r.blockCount_lt hPos, u16_of_lt (by omega)]
    omega

/-- The numbers alone decide what the store makes of them. -/
theorem entersConsistently_iff :
    EntersConsistently μ r ↔ GeometryFields r.fileLength r.blockSize r.blockCount := by
  constructor
  · intro h
    obtain ⟨m, hFits, hSet⟩ := h.store ⟨true, false, none⟩ false rfl rfl
    have hLength : m.blocks.length = r.blockCount := by
      obtain ⟨m', hNew, hEq⟩ := Option.map_eq_some_iff.mp hSet
      have hSome := congrArg (fun pair : RidHolder μ × Bool => pair.1.subPieceManager) hEq
      rw [← Option.some.inj hSome]
      exact (SubPieceManager.new_eq_some hNew).2.1.length_eq
    have hCount := hFits.last_block
    have hIndex := m.lastSubpieceInfo.blockIndex_lt
    exact geometryFields_of_valid h.valid h.fileLength_pos (by omega)
  · intro h
    refine ⟨h.fileLength_pos, h.valid, ?_⟩
    intro inst verify hRunning hNone
    have hSize : r.blockSize ≠ 0 := Nat.ne_of_gt h.blockSize_pos
    obtain ⟨m, hNew⟩ := SubPieceManager.exists_new μ hSize false verify
    refine ⟨m, ?_, ?_⟩
    · exact fitsFile_of_builtFor (SubPieceManager.new_eq_some hNew).2.1 h.valid h.fileLength_pos
        h.blockCount_le
    · simp [RidHolder.setRidInfo, hRunning, hNone, hNew]

section Parsers

variable (readers : TextReaders)

/-- `tinydrag.f`, `tinydrag.s` and the number of MD5s in `tinydrag.m` belong together. -/
def DragFieldsFit (dragString : Text) : Prop :=
  ∃ vm f s m, readers.parseConfigFile dragString = some vm ∧
    vm.f = some f ∧ vm.s = some s ∧ vm.m = some m ∧
      GeometryFields f.toUInt32.toNat s.toUInt32.toNat (u32 (m.splitOn '@').length)

/-- The parameters `filelength`, `blocksize` and `blocknum` belong together. -/
def PlayFieldsFit (uri : Network.Uri) : Prop :=
  ∃ f s c, readers.parse2 (uri.getparameterOf "filelength".toList) = some f ∧
    readers.parse2 (uri.getparameterOf "blocksize".toList) = some s ∧
      readers.parse2 (uri.getparameterOf "blocknum".toList) = some c ∧
        GeometryFields f.toNat s.toNat c.toNat

variable {readers}

/-- The numbers of tiny-drag RID information are the fields of the text. -/
theorem HttpDragDownloader.parseTinyDrag_eq_some {isRunning : Bool} {dragString : Text}
    (h : parseTinyDrag readers isRunning dragString = some r) :
    ∃ vm f s m, readers.parseConfigFile dragString = some vm ∧
      vm.f = some f ∧ vm.s = some s ∧ vm.m = some m ∧
        r.fileLength = f.toUInt32.toNat ∧ r.blockSize = s.toUInt32.toNat ∧
          r.blockCount = u32 (m.splitOn '@').length := by
  unfold parseTinyDrag at h
  split at h
  · cases h
  · split at h
    · cases h
    · rename_i vm hVm
      split at h
      · rename_i f s m _ _ hF hS hM
        refine ⟨vm, f, s, m, hVm, hF, hS, hM, ?_⟩
        unfold ridInfoOf at h
        split at h
        · cases h
        · split at h
          · cases h
          · obtain ⟨md5s, -, rfl⟩ := Option.map_eq_some_iff.mp h
            exact ⟨rfl, rfl, rfl⟩
      · cases h

/-- The numbers of RID information from a play URL are its parameters. -/
theorem PlayInfo.parseRidInfo_eq_some {pcClient : Bool} {uri : Network.Uri}
    (h : parseRidInfo readers pcClient uri = some r) :
    ∃ f s c, readers.parse2 (uri.getparameterOf "filelength".toList) = some f ∧
      readers.parse2 (uri.getparameterOf "blocksize".toList) = some s ∧
        readers.parse2 (uri.getparameterOf "blocknum".toList) = some c ∧
          r.fileLength = f.toNat ∧ r.blockSize = s.toNat ∧ r.blockCount = c.toNat := by
  unfold parseRidInfo at h
  obtain ⟨rid, -, h⟩ := Option.bind_eq_some_iff.mp h
  obtain ⟨f, hF, h⟩ := Option.bind_eq_some_iff.mp h
  obtain ⟨s, hS, h⟩ := Option.bind_eq_some_iff.mp h
  obtain ⟨c, hC, h⟩ := Option.bind_eq_some_iff.mp h
  refine ⟨f, s, c, hF, hS, hC, ?_⟩
  dsimp only at h
  split at h
  · split at h
    · cases h
    · obtain ⟨md5s, -, rfl⟩ := Option.map_eq_some_iff.mp h
      exact ⟨rfl, rfl, rfl⟩
  · cases h
    exact ⟨rfl, rfl, rfl⟩

theorem dragFieldsFit_iff {isRunning : Bool} {dragString : Text}
    (h : HttpDragDownloader.parseTinyDrag readers isRunning dragString = some r) :
    DragFieldsFit readers dragString ↔
      GeometryFields r.fileLength r.blockSize r.blockCount := by
  obtain ⟨vm, f, s, m, hVm, hF, hS, hM, hLength, hSize, hCount⟩ :=
    HttpDragDownloader.parseTinyDrag_eq_some h
  rw [hLength, hSize, hCount]
  constructor
  · rintro ⟨vm', f', s', m', hVm', hF', hS', hM', hFit⟩
    rw [hVm, Option.some.injEq] at hVm'
    subst hVm'
    rw [hF, Option.some.injEq] at hF'
    rw [hS, Option.some.injEq] at hS'
    rw [hM, Option.some.injEq] at hM'
    rwa [hF', hS', hM']
  · intro hFit
    exact ⟨vm, f, s, m, hVm, hF, hS, hM, hFit⟩

theorem playFieldsFit_iff {pcClient : Bool} {uri : Network.Uri}
    (h : PlayInfo.parseRidInfo readers pcClient uri = some r) :
    PlayFieldsFit readers uri ↔ GeometryFields r.fileLength r.blockSize r.blockCount := by
  obtain ⟨f, s, c, hF, hS, hC, hLength, hSize, hCount⟩ := PlayInfo.parseRidInfo_eq_some h
  rw [hLength, hSize, hCount]
  constructor
  · rintro ⟨f', s', c', hF', hS', hC', hFit⟩
    rw [hF, Option.some.injEq] at hF'
    rw [hS, Option.some.injEq] at hS'
    rw [hC, Option.some.injEq] at hC'
    rwa [hF', hS', hC']
  · intro hFit
    exact ⟨f, s, c, hF, hS, hC, hFit⟩

variable (μ) (readers)

/-- RID information that a parser hands on is consistent, and fits the store made
from it, exactly when the fields of its text belong together. -/
theorem parsed_enters_iff :
    (∀ isRunning dragString r,
      HttpDragDownloader.parseTinyDrag readers isRunning dragString = some r →
        (EntersConsistently μ r ↔ DragFieldsFit readers dragString)) ∧
    (∀ pcClient url r, PlayInfo.parseRidInfo readers pcClient (Network.Uri.parseurl url) = some r →
      (EntersConsistently μ r ↔ PlayFieldsFit readers (Network.Uri.parseurl url))) := by
  constructor
  · intro isRunning dragString r h
    rw [entersConsistently_iff, dragFieldsFit_iff h]
  · intro pcClient url r h
    rw [entersConsistently_iff, playFieldsFit_iff h]

end Parsers

section Samples

/-- A number in decimal digits below 2^32. -/
def decimal (text : Text) : Option UInt32 :=
  let value := text.foldl (fun n c => 10 * n + (c.toNat - 48)) 0
  if text.isEmpty || !text.all Char.isDigit || value ≥ 2 ^ 32 then none
  else some (UInt32.ofNat value)

/-- The value of an upper-case hexadecimal digit. -/
def hexDigit (c : Char) : Nat := if c.isDigit then c.toNat - 48 else c.toNat - 55

def hexBytes : Text → Basis.Bytes
  | c :: d :: text => UInt8.ofNat (16 * hexDigit c + hexDigit d) :: hexBytes text
  | _ => []

/-- A RID or MD5 in 32 hexadecimal digits. -/
def hexGuid (text : Text) : Option Guid :=
  if h : text.all (fun c => c.isDigit || ('A' ≤ c && c ≤ 'F')) ∧ (hexBytes text).length = 16 then
    some ⟨hexBytes text, h.2⟩
  else none

/-- A tiny-drag file for 3000 bytes in blocks of 1024 bytes, with one MD5. -/
def oneMd5Drag : Text :=
  "[tinydrag]\nn=1\nr=00112233445566778899AABBCCDDEEFF\nf=3000\ns=1024\n".toList ++
    "m=00112233445566778899AABBCCDDEEFF".toList

/-- Readers that know the file above. -/
def sampleReaders : TextReaders where
  parseConfigFile text :=
    if text = oneMd5Drag then
      some ⟨some 1, none, some "00112233445566778899AABBCCDDEEFF".toList, some 3000, some 1024,
        some "00112233445566778899AABBCCDDEEFF".toList⟩
    else none
  fromString := hexGuid
  parse2 := decimal

/-- A play URL with a block size of zero. -/
def zeroBlockUrl : Text :=
  "http://127.0.0.1/ppvaplaybyopen?rid=00112233445566778899AABBCCDDEEFF".toList ++
    "&filelength=10&blocksize=0&blocknum=1".toList

/-- A play URL for three blocks of 1024 bytes. -/
def threeBlockUrl : Text :=
  "http://127.0.0.1/ppvaplaybyopen?rid=00112233445566778899AABBCCDDEEFF".toList ++
    "&filelength=3000&blocksize=1024&blocknum=3".toList

theorem parsed_enters_threeBlocks :
    ∃ r, PlayInfo.parseRidInfo sampleReaders false (Network.Uri.parseurl threeBlockUrl) = some r ∧
      (EntersConsistently (List Bool) r ↔
        PlayFieldsFit sampleReaders (Network.Uri.parseurl threeBlockUrl)) := by
  have hSome : (PlayInfo.parseRidInfo sampleReaders false
      (Network.Uri.parseurl threeBlockUrl)).isSome := by
    decide +kernel
  obtain ⟨r, hParse⟩ := Option.isSome_iff_exists.mp hSome
  exact ⟨r, hParse, (parsed_enters_iff (List Bool) sampleReaders).2 false threeBlockUrl r hParse⟩

/-- Both parsers hand on numbers that do not belong together: a block size of zero,
by which the constructor of the store divides, and one block for a file of three. -/
theorem parsed_enters_fails :
    (∃ r, PlayInfo.parseRidInfo sampleReaders false (Network.Uri.parseurl zeroBlockUrl) = some r ∧
      (⟨true, false, none⟩ : RidHolder (List Bool)).setRidInfo r false = none ∧
      ¬ EntersConsistently (List Bool) r) ∧
    (∃ r, HttpDragDownloader.parseTinyDrag sampleReaders true oneMd5Drag = some r ∧
      ¬ EntersConsistently (List Bool) r) := by
  constructor
  · have hValues : (PlayInfo.parseRidInfo sampleReaders false
        (Network.Uri.parseurl zeroBlockUrl)).map
        (fun r => (r.fileLength, r.blockSize, r.blockCount)) = some (10, 0, 1) := by
      decide +kernel
    obtain ⟨r, hParse, hr⟩ := Option.map_eq_some_iff.mp hValues
    obtain ⟨-, hSize, -⟩ :
      r.fileLength = 10 ∧ r.blockSize = 0 ∧ r.blockCount = 1 := by simpa using hr
    refine ⟨r, hParse, ?_, ?_⟩
    · simp [RidHolder.setRidInfo, SubPieceManager.new, hSize]
    · intro hEnters
      exact Nat.ne_of_gt hEnters.valid.blockSize_pos hSize
  · have hValues : (HttpDragDownloader.parseTinyDrag sampleReaders true oneMd5Drag).map
        (fun r => (r.fileLength, r.blockSize, r.blockCount)) = some (3000, 1024, 1) := by
      decide +kernel
    obtain ⟨r, hParse, hr⟩ := Option.map_eq_some_iff.mp hValues
    obtain ⟨hLength, hSize, hCount⟩ :
      r.fileLength = 3000 ∧ r.blockSize = 1024 ∧ r.blockCount = 1 := by simpa using hr
    refine ⟨r, hParse, ?_⟩
    intro hEnters
    have hFit := (entersConsistently_iff.mp hEnters).blocks_ge
    rw [hLength, hSize, hCount] at hFit
    exact absurd hFit (by decide)

end Samples

end P2P
