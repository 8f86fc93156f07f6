import Peer.Basis.Outbox
import Peer.Storage.Admission
import Peer.Storage.Agreement

/-! The two threads of a resource on disk. The main thread changes the store and
posts jobs, the storage thread runs them in order and posts tasks back. A state
holds both queues; one step is a call on the main thread, the job at the head of
one queue, or the task at the head of the other. -/
namespace Storage

open Basis

/-- `protocol::SubPieceContent`: the memory of one subpiece. -/
structure SubPieceContent where
  bytes : Bytes
  length_eq : bytes.length = bytesNumPerSubpiece

/-- The jobs of the storage thread. `useFile` stands for `Rename`,
`ThreadReadBlockForUpload` and `ThreadMergeSubPieceToInstance`, which only open or
close the file as far as the blocks are concerned. -/
inductive StorageJob where
  | save (job : SaveJob)
  | threadReadBufferForPlay (info : SubPieceInfo) (buffs : Nat) (realPlayInfo : SubPieceInfo)
  | threadRemoveBlock (b : Nat)
  | threadTryRenameToNormalFile
  | useFile
  | closeFileHandle
  | closeResource

/-- The tasks that the storage thread posts to the main thread. -/
inductive MainTask where
  | threadPendingWriteBlockHelper (b startpos length : Nat)
  | threadPendingHashBlockHelper (b : Nat) (hash : Guid)
  | threadReadBufferForPlayHelper (info : SubPieceInfo) (buffs : List SubPieceContent)
      (realPlayInfo : SubPieceInfo)
  | onReportBlockReadFailed (info : SubPieceInfo)
  | onRemoveResourceBlockFinish (b : Nat)

/-- What the operating system answers while one job runs. -/
structure DiskAnswers where
  canReopen : Bool
  canExtend : Bool
  canWrite : Bool
  canRead : Bool
  contents : Nat → SubPieceContent
  canSaveInfo : Bool
  leavesOpen : Bool

/-- What was done, for statements about runs; no function of the source reads it:
the blocks the store had when the resource was opened, the data of the last write
posted for a block, and the writes that ended without success. -/
structure History where
  opened : Nat → Bool
  posted : Nat → Option Bytes
  failed : List (Nat × Bytes)

structure Pipeline (μ : Type) where
  manager : SubPieceManager μ
  jobs : List StorageJob
  tasks : List MainTask
  instanceRunning : Bool
  isRunning : Bool
  fileOpen : Bool
  hasEncrypted : Bool
  actualSize : Nat
  needSaveInfo : Bool
  /-- The data of the last successful write at an offset of the resource file. -/
  file : Nat → Option Bytes
  history : History

/-- `ENCRYPT_HEADER_LENGTH`. -/
def encryptHeaderLength : Nat := 1024

/-- The size `WriteBufferArray` extends a file to that ends before `stop`: by whole
steps of 2 MB, but not past the end of the resource. -/
def extendedSize (fileLength actualSize stop : Nat) (hasEncrypted : Bool) : Nat :=
  min (actualSize + (stop - actualSize + 2 * 1024 * 1024 - 1) / (2 * 1024 * 1024) * (2 * 1024 * 1024))
    (fileLength + if hasEncrypted then encryptHeaderLength else 0)

/-- The bytes of a buffer set in the order of its keys. -/
def blockData (bufferSet : List (SubPieceInfo × SubPieceBuffer)) : Bytes :=
  bufferSet.flatMap fun entry => entry.2.data

/-- The data a job writes to block `b`. -/
def StorageJob.writesTo (b : Nat) : StorageJob → Option Bytes
  | .save (.threadPendingHashBlock c bufferSet) => if c = b then some (blockData bufferSet) else none
  | _ => none

namespace SubPieceManager

variable {μ : Type} [BlockMap μ]

/-- `IncSubPieceInfo`: the next subpiece, and whether there is one. -/
def incSubPieceInfo (m : SubPieceManager μ) (info : SubPieceInfo) : SubPieceInfo × Bool :=
  let info :=
    if info.subpieceIndex = subU32 (m.ridInfo.blockSize / bytesNumPerSubpiece) 1 then
      SubPieceInfo.make (info.blockIndex + 1) 0
    else SubPieceInfo.make info.blockIndex (info.subpieceIndex + 1)
  (info, decide (m.subPieceInfoToPosition info < m.ridInfo.fileLength))

def getTotalSubpieceCountInBlock (m : SubPieceManager μ) (b : Nat) : Nat :=
  match m.nodeAt b with
  | some node => node.totalSubpieceCount
  | none => 0

/-- The loop of `ThreadReadBufferForPlay` that looks for the end of the file. -/
def scanToMax (m : SubPieceManager μ) : Nat → SubPieceInfo → SubPieceInfo × Bool
  | 0, info => (info, false)
  | rounds + 1, info =>
      if info = m.lastSubpieceInfo then (info, true)
      else if (m.incSubPieceInfo info).2 then scanToMax m rounds (m.incSubPieceInfo info).1
      else ((m.incSubPieceInfo info).1, true)

/-- The number of bytes `ThreadReadBufferForPlay` reads. -/
def readLength (m : SubPieceManager μ) (info : SubPieceInfo) (buffs : Nat) : Nat :=
  let (last, isMax) := m.scanToMax buffs info
  if isMax then u32 (subU32 buffs 1 * bytesNumPerSubpiece + (m.getSubPiecePosition last).2)
  else u32 (buffs * bytesNumPerSubpiece)

/-- The loop of `ThreadReadBufferForPlayHelper`, with the values its counter still has
before it. After 65536 rounds the `boost::uint16_t` is 0 again, and the loop takes the
same buffers once more, which is `none`. -/
def loadContents (m : SubPieceManager μ) : Nat → SubPieceInfo → List SubPieceContent →
    Option (SubPieceManager μ)
  | 0, _, _ => none
  | _ + 1, _, [] => some m
  | rounds + 1, info, content :: rest =>
      (m.loadSubPiece info content.bytes).bind fun (m, _) =>
        if (m.incSubPieceInfo info).2 then loadContents m rounds (m.incSubPieceInfo info).1 rest
        else some m

end SubPieceManager

namespace Pipeline

variable {μ : Type} [BlockMap μ]

def post (p : Pipeline μ) (job : StorageJob) : Pipeline μ := { p with jobs := p.jobs ++ [job] }

def postMain (p : Pipeline μ) (task : MainTask) : Pipeline μ :=
  { p with tasks := p.tasks ++ [task] }

/-- The store after a call, with the jobs that the call posted. -/
def postSaves (p : Pipeline μ) (m : SubPieceManager μ) (saves : List SaveJob) : Pipeline μ :=
  { p with
    manager := m
    jobs := p.jobs ++ saves.map .save
    history := { p.history with
      posted := fun b => (latest (StorageJob.writesTo b) (saves.map .save)).or
        (p.history.posted b) } }

/-- A job that needs the file opens it again when it was closed. -/
def reopenFile (p : Pipeline μ) (disk : DiskAnswers) : Option (Pipeline μ) :=
  if p.fileOpen || disk.canReopen then some { p with fileOpen := true } else none

section StorageThread

/-- The extension of the file in `WriteBufferArray`. -/
def extendFile (p : Pipeline μ) (disk : DiskAnswers) (stop : Nat) : Option (Pipeline μ) :=
  if p.actualSize < stop then
    let newSize := extendedSize p.manager.ridInfo.fileLength p.actualSize stop p.hasEncrypted
    if p.actualSize < newSize ∧ disk.canExtend then some { p with actualSize := u32 newSize }
    else none
  else some p

/-- `FileResource::WriteBufferArray`: the state after it, and whether it succeeded. -/
def writeBufferArray (p : Pipeline μ) (disk : DiskAnswers) (startpos : Nat) (data : Bytes) :
    Pipeline μ × Bool :=
  match p.reopenFile disk with
  | none => (p, false)
  | some p =>
      let newStartpos := if p.hasEncrypted then u32 (startpos + encryptHeaderLength) else startpos
      match p.extendFile disk (newStartpos + data.length) with
      | none => (p, false)
      | some p =>
          if disk.canWrite then
            ({ p with
              needSaveInfo := true
              file := fun offset => if offset = startpos then some data else p.file offset }, true)
          else (p, false)

/-- `Resource::ThreadPendingWriteBlock` on a running resource. -/
def threadPendingWriteBlock (p : Pipeline μ) (disk : DiskAnswers) (b : Nat)
    (bufferSet : List (SubPieceInfo × SubPieceBuffer)) : Pipeline μ × Bool :=
  match bufferSet with
  | [] => (p, false)
  | (first, _) :: _ =>
      let startoffset := (p.manager.getSubPiecePosition first).1
      let (p, written) := p.writeBufferArray disk startoffset (blockData bufferSet)
      if written then
        (p.postMain (.threadPendingWriteBlockHelper b startoffset
          (u32 (blockData bufferSet).length)), true)
      else (p, false)

/-- A write job that ended without success. -/
def failWrite (p : Pipeline μ) (b : Nat) (bufferSet : List (SubPieceInfo × SubPieceBuffer)) :
    Pipeline μ :=
  { p with history := { p.history with failed := (b, blockData bufferSet) :: p.history.failed } }

/-- `Resource::ThreadPendingHashBlock`. The hash is posted whether or not the write
succeeded. -/
def threadPendingHashBlock (md5 : Bytes → Guid) (p : Pipeline μ) (disk : DiskAnswers) (b : Nat)
    (bufferSet : List (SubPieceInfo × SubPieceBuffer)) : Pipeline μ :=
  if !p.isRunning then p.failWrite b bufferSet
  else
    match p.reopenFile disk with
    | none => p.failWrite b bufferSet
    | some p =>
        if bufferSet.length = p.manager.getBlockSubPieceCount b then
          let (p, written) := p.threadPendingWriteBlock disk b bufferSet
          let p := if written then p else p.failWrite b bufferSet
          p.postMain (.threadPendingHashBlockHelper b (md5 (blockData bufferSet)))
        else p.failWrite b bufferSet

/-- `Resource::SecSaveResourceFileInfo`; of the cfg file only whether it could be
written is kept. -/
def secSaveResourceFileInfo (p : Pipeline μ) (disk : DiskAnswers) : Pipeline μ :=
  if !p.isRunning || !p.needSaveInfo then p
  else { p with fileOpen := p.fileOpen || disk.canReopen, needSaveInfo := !disk.canSaveInfo }

/-- `Resource::ThreadReadBufferForPlay`. -/
def threadReadBufferForPlay (p : Pipeline μ) (disk : DiskAnswers) (info : SubPieceInfo)
    (buffs : Nat) (realPlayInfo : SubPieceInfo) : Pipeline μ :=
  if !p.isRunning then p
  else
    match p.reopenFile disk with
    | none => p
    | some p =>
        let stop := u32 (p.manager.subPieceInfoToPosition info + p.manager.readLength info buffs)
        if stop ≤ p.manager.ridInfo.fileLength ∧ disk.canRead then
          p.postMain (.threadReadBufferForPlayHelper info ((List.range buffs).map disk.contents)
            realPlayInfo)
        else p.postMain (.onReportBlockReadFailed info)

/-- `Resource::ThreadRemoveBlock`. -/
def threadRemoveBlock (p : Pipeline μ) (disk : DiskAnswers) (b : Nat) : Pipeline μ :=
  if !p.isRunning then p
  else
    secSaveResourceFileInfo ({ p with fileOpen := disk.leavesOpen, needSaveInfo := true }.postMain
      (.onRemoveResourceBlockFinish b)) disk

/-- `FileResource::CloseResource`. -/
def closeResource (p : Pipeline μ) : Pipeline μ :=
  if !p.isRunning then p else { p with isRunning := false, fileOpen := false }

/-- The job at the head of the queue of the storage thread. -/
def runJob (md5 : Bytes → Guid) (p : Pipeline μ) (disk : DiskAnswers) : StorageJob → Pipeline μ
  | .save (.threadPendingHashBlock b bufferSet) => threadPendingHashBlock md5 p disk b bufferSet
  | .save .secSaveResourceFileInfo => p.secSaveResourceFileInfo disk
  | .threadReadBufferForPlay info buffs realPlayInfo =>
      p.threadReadBufferForPlay disk info buffs realPlayInfo
  | .threadRemoveBlock b => p.threadRemoveBlock disk b
  | .threadTryRenameToNormalFile =>
      { p with fileOpen := disk.leavesOpen, needSaveInfo := false }
  | .useFile => { p with fileOpen := disk.leavesOpen }
  | .closeFileHandle => { p with fileOpen := false }
  | .closeResource => p.closeResource

end StorageThread

section MainThread

/-- `Instance::ReadFromDisk`. `left` is the number of free contents in the pool and
`allocated` how many allocations succeed. -/
def readFromDisk (p : Pipeline μ) (start : SubPieceInfo) (left allocated : Nat) :
    Option (Pipeline μ) :=
  if left < 100 then some p
  else
    (p.manager.setBlockReading start.blockIndex).map fun (m, reading) =>
      let p := { p with manager := m }
      let buffs :=
        if reading then min allocated (m.getTotalSubpieceCountInBlock start.blockIndex) else 0
      if 0 < buffs then
        p.post (.threadReadBufferForPlay (.make start.blockIndex 0) buffs start)
      else p

/-- `Resource::ThreadPendingWriteBlockHelper`, with `CheckFileDownComplete`. -/
def threadPendingWriteBlockHelper (p : Pipeline μ) (b : Nat) : Option (Pipeline μ) :=
  if !p.isRunning then some p
  else
    (if p.instanceRunning then p.manager.onWriteBlockFinish b else some p.manager).map fun m =>
      let p := { p with manager := m }
      if m.isFullFile then p.post .threadTryRenameToNormalFile else p

/-- `Instance::OnPendingHashBlockFinish`; the RID that `GenerateRid` may compute is
not used here. -/
def onPendingHashBlockFinish (p : Pipeline μ) (b : Nat) (hash : Guid) : Option (Pipeline μ) :=
  if !p.instanceRunning then some p
  else
    (p.manager.ridInfo.blockMd5s[b]?).map fun known =>
      if known = Guid.zero then
        { p with manager := p.manager.initRidInfo { p.manager.ridInfo with
            blockMd5s := p.manager.ridInfo.blockMd5s.set b hash } }
      else if known = hash then p
      else p.post (.threadRemoveBlock b)

/-- The task at the head of the queue of the main thread. -/
def runTask (p : Pipeline μ) : MainTask → Option (Pipeline μ)
  | .threadPendingWriteBlockHelper b _ _ => p.threadPendingWriteBlockHelper b
  | .threadPendingHashBlockHelper b hash => p.onPendingHashBlockFinish b hash
  | .threadReadBufferForPlayHelper info buffs _ =>
      (p.manager.loadContents (2 ^ 16) info buffs).map fun m => { p with manager := m }
  | .onReportBlockReadFailed info =>
      (p.manager.onReportBlockReadFailed info).map fun m => { p with manager := m }
  | .onRemoveResourceBlockFinish b =>
      if !p.instanceRunning then some p
      else (p.manager.removeBlockInfo b).map fun m => { p with manager := m }

end MainThread

end Pipeline

/-- What can happen next. The calls on the main thread come from the network, the
player, the memory manager and the timers, in any order. -/
inductive PipelineAction (μ : Type) where
  | asyncAddSubPiece (info : SubPieceInfo) (buf : SubPieceBuffer)
  | removeBlockDataFromMemCache (b : Nat)
  | saveBlock (b : Nat)
  | readFromDisk (start : SubPieceInfo) (left allocated : Nat)
  | setRidInfo (r : RidInfo)
  | postFileJob (close : Bool)
  | remove
  | storageThread (disk : DiskAnswers)
  | mainThread
  | reopen (m : SubPieceManager μ) (actualSize : Nat) (hasEncrypted : Bool)

namespace Pipeline

variable {μ : Type} [BlockMap μ]

/-- A resource with an instance bound to it and nothing under way. -/
def start (m : SubPieceManager μ) (actualSize : Nat) (hasEncrypted : Bool)
    (file : Nat → Option Bytes) : Pipeline μ where
  manager := m
  jobs := []
  tasks := []
  instanceRunning := true
  isRunning := true
  fileOpen := true
  hasEncrypted := hasEncrypted
  actualSize := actualSize
  needSaveInfo := true
  file := file
  history := ⟨m.hasFullBlock, fun _ => none, []⟩

/-- One step. A call on the main thread needs a running instance, and a resource is
opened again only after the last one was closed; what is still queued for that one
then has no effect. -/
def next (md5 : Bytes → Guid) (p : Pipeline μ) : PipelineAction μ → Option (Pipeline μ)
  | .asyncAddSubPiece info buf =>
      if p.instanceRunning then
        (p.manager.asyncAddSubPiece info buf).map fun (m, _) => { p with manager := m }
      else none
  | .removeBlockDataFromMemCache b =>
      if p.instanceRunning then
        (p.manager.removeBlockDataFromMemCache ⟨true, md5⟩ b).map fun (m, saves) =>
          p.postSaves m saves
      else none
  | .saveBlock b =>
      if p.instanceRunning then
        (p.manager.saveBlock ⟨true, md5⟩ b).map fun (m, saves) => p.postSaves m saves
      else none
  | .readFromDisk start left allocated =>
      if p.instanceRunning then p.readFromDisk start left allocated else none
  | .setRidInfo r => some { p with manager := p.manager.initRidInfo r }
  | .postFileJob close => some (p.post (if close then .closeFileHandle else .useFile))
  | .remove =>
      if p.instanceRunning then some ({ p with instanceRunning := false }.post .closeResource)
      else none
  | .storageThread disk =>
      match p.jobs with
      | [] => none
      | job :: rest => some (runJob md5 { p with jobs := rest } disk job)
  | .mainThread =>
      match p.tasks with
      | [] => none
      | task :: rest => runTask { p with tasks := rest } task
  | .reopen m actualSize hasEncrypted =>
      if p.isRunning then none else some (start m actualSize hasEncrypted p.file)

/-- The step relation of the pipeline. -/
def Step (md5 : Bytes → Guid) (p : Pipeline μ) (a : PipelineAction μ) (p' : Pipeline μ) : Prop :=
  p.next md5 a = some p'

end Pipeline

end Storage
