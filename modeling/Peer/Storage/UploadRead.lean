import Peer.Storage.Pipeline

/-! How a block is read for an upload: the instance asks the storage thread, the
resource reads, and the instance tells the listener. Every exit that tells the
listener nothing is kept. Builds with `DISK_MODE` are meant. -/
namespace Storage

open Basis

variable {μ : Type} [BlockMap μ]

/-- The codes of a failed read. -/
inductive GetSubPieceError where
  | blockNotFull
  | notFindSubpiece
  | blockVerifyFailed
deriving DecidableEq

/-- What an `IUploadListener` is told: `OnAsyncGetBlockSucced` or `OnAsyncGetBlockFailed`. -/
inductive BlockAnswer where
  | succeeded (rid : Guid) (blockIndex : Nat) (buffer : Bytes)
  | failed (rid : Guid) (blockIndex : Nat) (code : GetSubPieceError)
deriving DecidableEq

/-- The part of an `Instance` that uploads use. Pointers are indices into the store. -/
structure Instance where
  isRunning : Bool
  subpieceManager : Option Nat
  resource : Option Nat
  filesystemLastWriteTime : Nat
  blockHashTimeMap : Nat → Option Nat

/-- The part of a `Resource` that uploads use. `isFileOpen` is what
`IsFileOpen` or else `ReOpenFile` answers, `lastWriteTime` is 0 on an error. -/
structure Resource where
  isRunning : Bool
  instanceId : Option Nat
  subpieceManager : Option Nat
  isFileOpen : Bool
  lastWriteTime : Nat

/-- The running storage module and `std::time`. -/
structure Store (μ : Type) where
  isRunning : Bool
  ridInstanceMap : Guid → Option Nat
  instances : Nat → Instance
  resources : Nat → Resource
  managers : Nat → SubPieceManager μ
  time : Nat

/-- A block read is first a job of the storage thread and then a task of the main
thread; both carry the arguments bound to them. -/
inductive ReadStage where
  | threadReadBlockForUpload (resource : Nat) (rid : Guid) (blockIndex : Nat) (needHash : Bool)
  | onAsyncGetBlockFailed (rid : Guid) (blockIndex : Nat) (code : GetSubPieceError)
  | onReadBlockForUploadFinish (instanceId blockIndex : Nat) (buffer : Bytes)
  | onReadBlockForUploadFinishWithHash (instanceId blockIndex : Nat) (buffer : Bytes) (hash : Guid)

/-- What `AsyncGetBlock` does: nothing, an answer at once, or a job. -/
inductive Asked where
  | nothing
  | answered (answer : BlockAnswer)
  | posted (job : ReadStage)

namespace SubPieceManager

/-- `GetBlockPosition`: the offset and the length. -/
def getBlockPosition (m : SubPieceManager μ) (b : Nat) : Nat × Nat :=
  (u32 (b * m.ridInfo.blockSize),
    if b = m.ridInfo.fileLength / m.ridInfo.blockSize then
      m.ridInfo.fileLength % m.ridInfo.blockSize
    else m.ridInfo.blockSize)

def isBlockSavedOnDisk (m : SubPieceManager μ) (b : Nat) : Bool :=
  match m.nodeAt b with
  | some node => node.isBlockSavedOnDisk
  | none => m.hasFullBlock b

/-- The loop of `GetBlockBufferFromMemoryOrDisk` over the subpieces of a block in
memory. The buffer keeps its length; what is not copied over stays as it was. -/
def copySubPieces (m : SubPieceManager μ) (b : Nat) : Nat → Nat → Bytes → Bytes → Option Bytes
  | 0, _, done, rest => some (done ++ rest)
  | rounds + 1, i, done, rest =>
      let piece := m.getSubPiece (SubPieceInfo.make b i)
      if memcpy2Ok rest.length piece.length then
        copySubPieces m b rounds (i + 1) (done ++ piece.data) (rest.drop piece.length)
      else none

/-- `FileResource::ReadBuffer`, where `disk` is what `fread` fills the buffer with. -/
def readBuffer (m : SubPieceManager μ) (start length : Nat) (disk : Bytes) : Bytes :=
  if u32 (start + length) ≤ m.ridInfo.fileLength ∧ disk.length = length then disk else []

/-- `Resource::GetBlockBufferFromMemoryOrDisk`. A new `AppBuffer` holds what `fresh` says. -/
def getBlockBufferFromMemoryOrDisk (m : SubPieceManager μ) (b : Nat) (fresh : Nat → UInt8)
    (disk : Bytes) : Option Bytes :=
  let (start, length) := m.getBlockPosition b
  if m.isBlockSavedOnDisk b then some (m.readBuffer start length disk)
  else m.copySubPieces b (m.getTotalSubpieceCountInBlock b) 0 []
    ((List.range length).map fresh)

end SubPieceManager

namespace Store

/-- `GetInstanceByRID(rid, false)`. -/
def getInstanceByRID (store : Store μ) (rid : Guid) : Option Nat :=
  if store.isRunning then store.ridInstanceMap rid else none

/-- The `subpiece_manager_` of an instance. -/
def managerOf (store : Store μ) (i : Nat) : Option (SubPieceManager μ) :=
  (store.instances i).subpieceManager.map store.managers

/-- `Instance::GetRID`. -/
def getRID (store : Store μ) (i : Nat) : Guid :=
  match store.managerOf i with
  | some m => m.ridInfo.rid
  | none => Guid.zero

/-- `Instance::GetFileLength`. -/
def getFileLength (store : Store μ) (i : Nat) : Nat :=
  if (store.instances i).isRunning then
    match store.managerOf i with
    | some m => m.ridInfo.fileLength
    | none => 0
  else 0

/-- `Instance::GetBlockSize`. -/
def getBlockSize (store : Store μ) (i : Nat) : Nat :=
  match store.managerOf i with
  | some m => m.ridInfo.blockSize
  | none => 0

/-- The check of a requested subpiece: its `GetPosition` is larger than the file length. -/
def isBehindFile (store : Store μ) (getPosition : SubPieceInfo → Nat → Nat) (i : Nat)
    (info : SubPieceInfo) : Bool :=
  store.getFileLength i < getPosition info (store.getBlockSize i)

/-- `Instance::GetBlockPosition`. -/
def getBlockPosition (store : Store μ) (i b : Nat) : Nat × Nat :=
  match store.managerOf i with
  | some m => m.getBlockPosition b
  | none => (0, 0)

/-- `Instance::GetSubPiecePosition`. -/
def getSubPiecePosition (store : Store μ) (i : Nat) (info : SubPieceInfo) : Nat × Nat :=
  match store.managerOf i with
  | some m => m.getSubPiecePosition info
  | none => (0, 0)

/-- `Storage::GetSubPieceFromBlock`; `none` is a null buffer. The pool of subpiece
contents may be used up: then `allocated` is false. -/
def getSubPieceFromBlock (store : Store μ) (info : SubPieceInfo) (rid : Guid) (block : Bytes)
    (allocated : Bool) : Option Bytes :=
  match store.getInstanceByRID rid with
  | none => none
  | some i =>
      let (blockOffset, blockLen) := store.getBlockPosition i info.blockIndex
      let (subOffset, subLen) := store.getSubPiecePosition i info
      let start := subU32 subOffset blockOffset
      if block.length < u32 (start + subLen) ∨ subOffset < blockOffset ∨ blockLen < subLen ∨
          blockLen ≠ block.length then none
      else if allocated then some ((block.drop start).take subLen)
      else none

/-- `Instance::CheckBlockNeedHash` for an instance whose resource is `resource`. -/
def checkBlockNeedHash (store : Store μ) (i resource b : Nat) : Bool :=
  let lastWriteTimeNow := (store.resources resource).lastWriteTime
  match (store.instances i).blockHashTimeMap b with
  | none => true
  | some hashTime =>
      if lastWriteTimeNow = 0 ∨ (store.instances i).filesystemLastWriteTime ≠ lastWriteTimeNow then
        true
      else decide (hashTime + 24 * 60 * 60 < store.time)

/-- `Instance::AsyncGetBlock` with a listener that is not null. -/
def asyncGetBlock (store : Store μ) (i b : Nat) : Asked :=
  if !(store.instances i).isRunning then .nothing
  else
    match store.managerOf i with
    | none => .nothing
    | some m =>
        if !m.hasFullBlock b then .answered (.failed (store.getRID i) b .blockNotFull)
        else
          match (store.instances i).resource with
          | none => .answered (.failed (store.getRID i) b .blockNotFull)
          | some resource =>
              .posted (.threadReadBlockForUpload resource (store.getRID i) b
                (store.checkBlockNeedHash i resource b))

/-- `Resource::ThreadReadBlockForUpload`. The inner `none` is a read that ends
without a task, the outer one a fault. -/
def threadReadBlockForUpload (md5 : Bytes → Guid) (store : Store μ) (resource : Nat) (rid : Guid)
    (b : Nat) (needHash : Bool) (fresh : Nat → UInt8) (disk : Bytes) :
    Option (Option ReadStage) :=
  let r := store.resources resource
  if !r.isRunning then some none
  else
    match r.subpieceManager.map store.managers with
    | none => none
    | some m =>
        if !m.hasFullBlock b || !r.isFileOpen then
          some (some (.onAsyncGetBlockFailed rid b .notFindSubpiece))
        else
          (m.getBlockBufferFromMemoryOrDisk b fresh disk).map fun buffer =>
            r.instanceId.map fun i =>
              if needHash then .onReadBlockForUploadFinishWithHash i b buffer (md5 buffer)
              else .onReadBlockForUploadFinish i b buffer

/-- `Instance::UpdateBlockHashTime`, which dereferences the resource. -/
def updateBlockHashTime (store : Store μ) (i b : Nat) : Option (Store μ) :=
  (store.instances i).resource.map fun resource =>
    let now := (store.resources resource).lastWriteTime
    if now = 0 then store
    else
      let inst := store.instances i
      let times := if inst.filesystemLastWriteTime = now then inst.blockHashTimeMap else fun _ => none
      { store with
        instances := Function.update store.instances i { inst with
          filesystemLastWriteTime := now
          blockHashTimeMap := Function.update times b (some store.time) } }

/-- `block_md5_s_[block_index] = hash_val` in the manager an instance points to. -/
def setBlockMd5 (store : Store μ) (i b : Nat) (hash : Guid) : Store μ :=
  match (store.instances i).subpieceManager with
  | none => store
  | some k =>
      let m := store.managers k
      { store with
        managers := Function.update store.managers k { m with
          ridInfo := { m.ridInfo with blockMd5s := m.ridInfo.blockMd5s.set b hash } } }

/-- `Instance::OnReadBlockForUploadFinishWithHash`. The inner `none` tells the
listener nothing, the outer one is a fault. -/
def onReadBlockForUploadFinishWithHash (store : Store μ) (i b : Nat) (buffer : Bytes)
    (hash : Guid) : Option (Store μ × Option BlockAnswer) :=
  if !(store.instances i).isRunning then some (store, none)
  else
    match store.managerOf i with
    | none => some (store, none)
    | some m =>
        match m.ridInfo.blockMd5s[b]? with
        | none => none
        | some known =>
            let store' := if known = Guid.zero then store.setBlockMd5 i b hash else store
            if known = Guid.zero ∨ known = hash then
              (store'.updateBlockHashTime i b).map fun store'' =>
                (store'', some (.succeeded (store''.getRID i) b buffer))
            else some (store', some (.failed (store'.getRID i) b .blockVerifyFailed))

/-- `Instance::OnReadBlockForUploadFinish`. -/
def onReadBlockForUploadFinish (store : Store μ) (i b : Nat) (buffer : Bytes) :
    Option BlockAnswer :=
  if !(store.instances i).isRunning then none
  else some (.succeeded (store.getRID i) b buffer)

/-- Run a task of the main thread. A job of the storage thread is none of these. -/
def runTask (store : Store μ) : ReadStage → Option (Store μ × Option BlockAnswer)
  | .threadReadBlockForUpload .. => none
  | .onAsyncGetBlockFailed rid b code => some (store, some (.failed rid b code))
  | .onReadBlockForUploadFinish i b buffer =>
      some (store, store.onReadBlockForUploadFinish i b buffer)
  | .onReadBlockForUploadFinishWithHash i b buffer hash =>
      store.onReadBlockForUploadFinishWithHash i b buffer hash

end Store

end Storage
