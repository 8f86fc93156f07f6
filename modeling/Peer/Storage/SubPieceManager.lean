import Peer.Storage.BlockMap
import Peer.Storage.BlockNode

/-! The store of one resource. What is held is recorded three times: in the block
nodes, in the state of each node and in the block bitmap. -/
namespace Storage

open Basis

/-- What a build and its libraries fix: whether `DISK_MODE` is defined, and the
MD5 of a byte string. -/
structure Build where
  diskMode : Bool
  md5 : Bytes → Guid

structure SubPieceManager (μ : Type) where
  ridInfo : RidInfo
  lastBlockCapacity : Nat
  lastSubpieceInfo : SubPieceInfo
  lastSubpieceSize : Nat
  blocks : List (Option BlockNode)
  blockBitMap : μ
  blocksCount : Nat
  downloadBytes : Nat
  md5HashFailed : Nat
  needVerifyBlock : Bool

/-- The jobs that `WriteBlockToResource` posts to the storage thread. -/
inductive SaveJob where
  | threadPendingHashBlock (blockIndex : Nat) (bufferSet : List (SubPieceInfo × SubPieceBuffer))
  | secSaveResourceFileInfo

namespace SubPieceManager

variable {μ : Type} [BlockMap μ]

/-- The last subpiece of a file, from the geometry in 32-bit arithmetic. -/
def lastInfoOf (r : RidInfo) : SubPieceInfo :=
  SubPieceInfo.make (subU32 r.blockCount 1)
    (subU32 r.fileLength 1 % r.blockSize / bytesNumPerSubpiece)

/-- The constructor. It divides by the block size. -/
def new (r : RidInfo) (isFullFile needVerifyBlock : Bool) : Option (SubPieceManager μ) :=
  if r.blockSize = 0 then none
  else some {
    ridInfo := { r with
      blockMd5s := r.blockMd5s ++ List.replicate (r.blockCount - r.blockMd5s.length) Guid.zero }
    lastBlockCapacity := (lastInfoOf r).subpieceIndex + 1
    lastSubpieceInfo := lastInfoOf r
    lastSubpieceSize := subU32 r.fileLength 1 % bytesNumPerSubpiece + 1
    blocks := List.replicate r.blockCount none
    blockBitMap := BlockMap.setAll (BlockMap.create r.blockCount) isFullFile
    blocksCount := if isFullFile then r.blockCount else 0
    downloadBytes := if isFullFile then r.fileLength else 0
    md5HashFailed := 0
    needVerifyBlock := needVerifyBlock }

/-- `blocks_[block_index]`; outside the vector there is no node. -/
def nodeAt (m : SubPieceManager μ) (b : Nat) : Option BlockNode := m.blocks.getD b none

def setNode (m : SubPieceManager μ) (b : Nat) (node : Option BlockNode) : SubPieceManager μ :=
  { m with blocks := m.blocks.set b node }

def setBit (m : SubPieceManager μ) (b : Nat) (held : Bool) : SubPieceManager μ :=
  { m with blockBitMap :=
      if held then BlockMap.set m.blockBitMap b else BlockMap.reset m.blockBitMap b }

def hasFullBlock (m : SubPieceManager μ) (b : Nat) : Bool := BlockMap.hasBlock m.blockBitMap b

def isSubPieceValid (m : SubPieceManager μ) (info : SubPieceInfo) (buf : SubPieceBuffer) : Bool :=
  if !info.le m.lastSubpieceInfo then false
  else if info = m.lastSubpieceInfo then buf.length == m.lastSubpieceSize
  else buf.length == bytesNumPerSubpiece

def initRidInfo (m : SubPieceManager μ) (r : RidInfo) : SubPieceManager μ := { m with ridInfo := r }

/-- The capacity `AddSubPiece` gives a new node. -/
def newBlockCapacity (m : SubPieceManager μ) (b : Nat) : Nat :=
  if b ≠ m.blocks.length - 1 then m.ridInfo.blockSize / bytesNumPerSubpiece
  else m.lastBlockCapacity

/-- `GetBlockSubPieceCount`, which `SetBlockReading` spells out. -/
def getBlockSubPieceCount (m : SubPieceManager μ) (b : Nat) : Nat :=
  if b = m.lastSubpieceInfo.blockIndex then m.lastSubpieceInfo.subpieceIndex + 1
  else m.ridInfo.blockSize / bytesNumPerSubpiece

/-- The node `AddSubPiece` works on, and the count of blocks with it. -/
def ensureNode (m : SubPieceManager μ) (b : Nat) : SubPieceManager μ × BlockNode :=
  match m.nodeAt b with
  | some node => (m, node)
  | none =>
      let node := BlockNode.create b (m.newBlockCapacity b) false
      ({ m.setNode b (some node) with blocksCount := u32 (m.blocksCount + 1) }, node)

/-- The part of `AddSubPiece` that runs on a node that is not full. -/
def storeSubPiece (m : SubPieceManager μ) (node : BlockNode) (info : SubPieceInfo)
    (buf : SubPieceBuffer) : Option (SubPieceManager μ) :=
  (node.addSubpiece info.subpieceIndex buf).map fun (node, _) =>
    let m := { m.setNode info.blockIndex (some node) with
      downloadBytes := u32 (m.downloadBytes + buf.length) }
    if node.isFull then m.setBit info.blockIndex true else m

def addSubPiece (m : SubPieceManager μ) (info : SubPieceInfo) (buf : SubPieceBuffer) :
    Option (SubPieceManager μ × Bool) :=
  if m.hasFullBlock info.blockIndex then some (m, false)
  else if !buf.isValid then some (m, false)
  else if info.blockIndex < m.blocks.length then
    let (m, node) := m.ensureNode info.blockIndex
    if node.isFull then some (m, false)
    else (m.storeSubPiece node info buf).map fun m => (m, true)
  else none

def loadSubPiece (m : SubPieceManager μ) (info : SubPieceInfo) (content : Bytes) :
    Option (SubPieceManager μ × Bool) :=
  if info.blockIndex < m.blocks.length then
    match m.nodeAt info.blockIndex with
    | none => some (m, true)
    | some node =>
        let size := if info = m.lastSubpieceInfo then u16 m.lastSubpieceSize
          else bytesNumPerSubpiece
        let (node, loaded) :=
          node.loadSubPieceBuffer info.subpieceIndex (SubPieceBuffer.ofContent content size)
        some (m.setNode info.blockIndex (some node), loaded)
  else none

def hasSubPiece (m : SubPieceManager μ) (info : SubPieceInfo) : Bool :=
  if m.hasFullBlock info.blockIndex then true
  else
    match m.nodeAt info.blockIndex with
    | some node => node.hasSubPiece info.subpieceIndex
    | none => false

/-- `HasPiece`, given the two indexes of the piece. -/
def hasPiece (m : SubPieceManager μ) (blockIndex pieceIndex : Nat) : Bool :=
  if m.hasFullBlock blockIndex then true
  else
    match m.nodeAt blockIndex with
    | some node => node.hasPiece pieceIndex
    | none => false

def isBlockDataInMemCache (m : SubPieceManager μ) (b : Nat) : Bool :=
  match m.nodeAt b with
  | some node => !node.isEmpty
  | none => false

/-- `WriteBlockToResource` on the node of block `b`. -/
def writeBlockToResource (m : SubPieceManager μ) (b : Nat) (node : BlockNode) :
    Option (SubPieceManager μ × BlockNode × List SaveJob) :=
  node.getBufferForSave.map fun (node, bufferSet) =>
    (m.setNode b (some node), node,
      if bufferSet.isEmpty then []
      else [.threadPendingHashBlock b bufferSet, .secSaveResourceFileInfo])

/-- The `DISK_MODE` body of `RemoveBlockDataFromMemCache`. -/
def evictToDisk (m : SubPieceManager μ) (b : Nat) (node : BlockNode) :
    Option (SubPieceManager μ × List SaveJob) :=
  if node.needWrite && node.isFull then
    (m.writeBlockToResource b node).map fun (m, node, jobs) =>
      (if node.isFull then m.setNode b none else m, jobs)
  else some (if node.isFull then m.setNode b none else m, [])

/-- Clearing the memory of a block in a build without a disk: the bit goes when
the block is no longer full, the node when nothing is left. -/
def clearBlock (m : SubPieceManager μ) (b : Nat) (node : BlockNode) :
    Option (SubPieceManager μ) :=
  (node.clearBlockMemCache (m.ridInfo.blockSize / bytesNumPerSubpiece)).map fun node =>
    let m := m.setNode b (some node)
    let m := if m.hasFullBlock b && !node.isFull then m.setBit b false else m
    if node.isEmpty then m.setNode b none else m

/-- `need_verify_block_`: a full block is hashed before it is cleared. -/
def verifyAndClear (build : Build) (m : SubPieceManager μ) (b : Nat) (node : BlockNode) :
    Option (SubPieceManager μ) :=
  if node.needWrite && node.isFull then
    node.getBufferForSave.bind fun (node, bufferSet) =>
      let m := m.setNode b (some node)
      if bufferSet.isEmpty then some m
      else if bufferSet.length ≠ m.getBlockSubPieceCount b then some m
      else
        (m.ridInfo.blockMd5s[b]?).bind fun expected =>
          let hash := build.md5 (bufferSet.flatMap fun entry => entry.2.data)
          let m := if expected ≠ hash then
            { m with md5HashFailed := u32 (m.md5HashFailed + 1) } else m
          m.clearBlock b node
  else some m

def removeBlockDataFromMemCache (build : Build) (m : SubPieceManager μ) (b : Nat) :
    Option (SubPieceManager μ × List SaveJob) :=
  if b < m.blocks.length then
    match m.nodeAt b with
    | none => some (m, [])
    | some node =>
        if build.diskMode then m.evictToDisk b node
        else if m.needVerifyBlock then (m.verifyAndClear build b node).map fun m => (m, [])
        else (m.clearBlock b node).map fun m => (m, [])
  else none

def setBlockReading (m : SubPieceManager μ) (b : Nat) : Option (SubPieceManager μ × Bool) :=
  if b < m.blocks.length then
    match m.nodeAt b with
    | some node => some (m.setNode b (some node.setBlockReading.1), node.setBlockReading.2)
    | none =>
        if m.hasFullBlock b then
          let node := (BlockNode.create b (m.getBlockSubPieceCount b) true).setBlockReading
          some (m.setNode b (some node.1), node.2)
        else some (m, false)
  else none

def getSubPiece (m : SubPieceManager μ) (info : SubPieceInfo) : SubPieceBuffer :=
  match m.nodeAt info.blockIndex with
  | some node => node.getSubPiece info.subpieceIndex
  | none => ⟨[], false⟩

/-- The loop of `GetNextNullSubPiece` over `rounds` blocks from `bidx` on. The
outer `none` is a scan that never ends, the inner one the answer `false`. -/
def nextNullFrom (m : SubPieceManager μ) (start : SubPieceInfo) :
    Nat → Nat → Option (Option SubPieceInfo)
  | 0, _ => some none
  | rounds + 1, bidx =>
      if m.hasFullBlock bidx then nextNullFrom m start rounds (bidx + 1)
      else
        let startSidx := if bidx = start.blockIndex then start.subpieceIndex else 0
        match m.nodeAt bidx with
        | none => some (some (SubPieceInfo.make bidx startSidx))
        | some node =>
            if node.isFull then nextNullFrom m start rounds (bidx + 1)
            else
              match node.getNextNullSubPiece startSidx with
              | some none => nextNullFrom m start rounds (bidx + 1)
              | some (some sidx) => some (some (SubPieceInfo.make bidx sidx))
              | none => none

def getNextNullSubPiece (m : SubPieceManager μ) (start : SubPieceInfo) :
    Option (Option SubPieceInfo) :=
  m.nextNullFrom start (m.blocks.length - start.blockIndex) start.blockIndex

def removeBlockInfo (m : SubPieceManager μ) (b : Nat) : Option (SubPieceManager μ) :=
  if b < m.blocks.length then
    let m := if m.hasFullBlock b then m.setBit b false else m
    match m.nodeAt b with
    | some _ => some { m.setNode b none with blocksCount := subU32 m.blocksCount 1 }
    | none => some m
  else none

/-- `OnWriteFinish` on the node has no effect, because the node is dropped. -/
def onWriteBlockFinish (m : SubPieceManager μ) (b : Nat) : Option (SubPieceManager μ) :=
  if b < m.blocks.length then
    match m.nodeAt b with
    | some _ => some (m.setNode b none)
    | none => some m
  else none

def onReportBlockReadFailed (m : SubPieceManager μ) (info : SubPieceInfo) :
    Option (SubPieceManager μ) :=
  if info.blockIndex < m.blocks.length then
    let m := m.setBit info.blockIndex false
    match m.nodeAt info.blockIndex with
    | some node => some (m.setNode info.blockIndex (some node.resetForReDownload))
    | none => some m
  else none

/-- One round of the loop of `SaveAllBlock`. -/
def saveBlock (build : Build) (m : SubPieceManager μ) (b : Nat) :
    Option (SubPieceManager μ × List SaveJob) :=
  (m.removeBlockDataFromMemCache build b).bind fun (m, jobs) =>
    match m.nodeAt b with
    | some node =>
        if node.isFull then some (m, jobs)
        else
          (node.clearBlockMemCache (m.ridInfo.blockSize / bytesNumPerSubpiece)).map fun node =>
            (m.setNode b (some node), jobs)
    | none => some (m, jobs)

def isFull (m : SubPieceManager μ) : Bool := BlockMap.isFull m.blockBitMap

def isFullFile (m : SubPieceManager μ) : Bool :=
  m.isFull && m.blocks.all fun node? =>
    match node? with
    | some node => !(node.needWrite || node.isSaving)
    | none => true

def isEmpty (m : SubPieceManager μ) : Bool := m.blocksCount == 0

def subPieceInfoToPosition (m : SubPieceManager μ) (info : SubPieceInfo) : Nat :=
  u32 (info.blockIndex * m.ridInfo.blockSize + info.subpieceIndex * bytesNumPerSubpiece)

/-- `GetSubPiecePosition`: the offset and the length. -/
def getSubPiecePosition (m : SubPieceManager μ) (info : SubPieceInfo) : Nat × Nat :=
  (m.subPieceInfoToPosition info,
    if info = m.lastSubpieceInfo then subU32 m.ridInfo.fileLength 1 % bytesNumPerSubpiece + 1
    else bytesNumPerSubpiece)

end SubPieceManager

end Storage
