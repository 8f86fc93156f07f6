import Peer.Basis.OrderedMap
import Peer.P2P.PieceTask

/-! Which piece a downloader takes next. The manager of a driver keeps the requested
pieces and the ranges of bytes that are wanted, and asks the instance for missing
subpieces from the playing position on. -/
namespace Download

open Basis Storage P2P

/-- The order of the library: the block first. -/
instance : Before PieceInfo where
  before a b := a.blockIndex < b.blockIndex ||
    (a.blockIndex == b.blockIndex && a.pieceIndex < b.pieceIndex)
  irrefl a := by simp

/-- What the manager uses of an instance. -/
structure Instance (μ : Type) where
  isRunning : Bool
  subpieceManager : Option (SubPieceManager μ)

/-- `protocol::PieceInfoEx()`: up to the last subpiece of a piece. -/
def newPieceInfoEx : PieceInfoEx := ⟨0, 0, 0, subpieceNumPerPiece - 1⟩

section Instance

variable {μ : Type} [BlockMap μ]

/-- `SubPieceManager::PosToPieceInfoEx`. -/
def posToPieceInfoEx (m : SubPieceManager μ) (position : Nat) : Option PieceInfoEx :=
  if position ≥ m.ridInfo.fileLength then none
  else some { newPieceInfoEx with
    blockIndex := u16 (position / m.ridInfo.blockSize)
    pieceIndex := u16 (position % m.ridInfo.blockSize / pieceSize)
    subpieceIndex := u16 (position % m.ridInfo.blockSize % pieceSize / bytesNumPerSubpiece) }

/-- `SubPieceManager::PieceInfoExToSubPieceInfo`. -/
def pieceInfoExToSubPieceInfo (piece : PieceInfoEx) : SubPieceInfo :=
  .make piece.blockIndex (piece.pieceIndex * subpieceNumPerPiece + piece.subpieceIndex)

/-- `SubPieceManager::SubPieceInfoToPieceInfoEx`, into a new record. -/
def subPieceInfoToPieceInfoEx (info : SubPieceInfo) : PieceInfoEx :=
  { newPieceInfoEx with
    blockIndex := info.blockIndex
    pieceIndex := info.subpieceIndex / subpieceNumPerPiece
    subpieceIndex := info.subpieceIndex % subpieceNumPerPiece }

/-- `GetBlockSize`: 0 as long as the file is not known. -/
def Instance.getBlockSize (inst : Instance μ) : Nat :=
  match inst.subpieceManager with
  | some m => m.ridInfo.blockSize
  | none => 0

/-- `GetNextPieceForDownload`. The outer `none` is a search that does not end, the inner
one the answer `false`. -/
def Instance.getNextPieceForDownload (inst : Instance μ) (position : Nat) :
    Option (Option PieceInfoEx) :=
  if !inst.isRunning then some none
  else match inst.subpieceManager with
    | none => some (some newPieceInfoEx)
    | some m =>
        match posToPieceInfoEx m position with
        | none => some none
        | some piece => (m.getNextNullSubPiece (pieceInfoExToSubPieceInfo piece)).map fun found =>
            found.map subPieceInfoToPieceInfoEx

end Instance

/-- `p2sp::PieceTask`. `elapsed` is what its clock shows. -/
structure PieceTask where
  downloader : Nat
  elapsed : Nat
  timeout : Nat
  bStartDownloading : Bool

/-- What the downloaders answer. `failed` are the tasks that `OnPieceTimeout` reports as
failed, which all are of the downloader itself. -/
structure Downloaders where
  isP2PDownloader : Nat → Bool
  isPausing : Nat → Bool
  secondDownloadSpeed : Nat → Nat
  nowDownloadSpeed : Nat → Nat
  canPreemptive : Nat → PieceInfoEx → Bool
  failed : Nat → PieceInfoEx → List PieceInfo

/-- `PieceTask::IsTimeout`: whether another downloader may take the piece over. -/
def PieceTask.isTimeout (env : Downloaders) (task : PieceTask) (downloader : Nat)
    (piece : PieceInfoEx) : Bool :=
  if downloader ≠ task.downloader then
    if env.isP2PDownloader task.downloader then
      if env.isPausing task.downloader then true
      else if !task.bStartDownloading then true
      else if task.elapsed > u32 (2 * task.timeout) then true
      else if task.elapsed > task.timeout ∧ env.secondDownloadSpeed downloader ≥ 30 * 1024 then
        env.canPreemptive task.downloader piece
      else false
    else if env.isPausing task.downloader then true
    else (task.timeout < 2 * task.elapsed && env.nowDownloadSpeed task.downloader < 20 * 1024) ||
      task.elapsed > task.timeout
  else false

/-- The request may be given to the downloader. -/
def PieceTask.expired (env : Downloaders) (task : PieceTask) (downloader : Nat)
    (piece : PieceInfoEx) : Bool :=
  task.isTimeout env downloader piece || env.isPausing task.downloader

/-- What a lookup tells others. -/
inductive Notice where
  | setDownloaderToDeath (downloader : Nat)
  | onPieceTimeout (downloader : Nat) (piece : PieceInfoEx)
deriving DecidableEq

/-- `instance` is there as long as the driver and its instance are. -/
structure PieceRequestManager (μ : Type) where
  isRunning : Bool
  inst : Option (Instance μ)
  requestingMap : OrderedMap PieceInfo PieceTask
  taskRangeMap : OrderedMap Nat Nat

/-- What `GetNextPieceForDownload` leaves and answers. -/
structure Taken (μ : Type) where
  manager : PieceRequestManager μ
  piece : Option PieceInfoEx
  notices : List Notice

/-- The four comparisons of a piece with a range that has an end. -/
def overlapped (rangeStart rangeEnd pieceStart pieceEnd : Nat) : Bool :=
  (rangeStart ≤ pieceStart && pieceStart ≤ rangeEnd) ||
  (rangeStart ≤ pieceEnd && pieceEnd ≤ rangeEnd) ||
  (pieceStart ≤ rangeStart && rangeStart ≤ pieceEnd) ||
  (pieceStart ≤ rangeEnd && rangeEnd ≤ pieceEnd)

/-- The piece is wanted for the range; one that ends at 0 goes on to the end of the file. -/
def goodFor (pieceStart pieceEnd : Nat) (range : Nat × Nat) : Bool :=
  if range.2 = 0 then range.1 < pieceEnd else overlapped range.1 range.2 pieceStart pieceEnd

/-- The loop over the ranges in `GetNextPieceForDownload`. It cuts the piece off where a
range ends inside it. -/
def checkRanges (pieceStart pieceEnd : Nat) : List (Nat × Nat) → PieceInfoEx → PieceInfoEx × Bool
  | [], piece => (piece, false)
  | range :: rest, piece =>
      let piece :=
        if range.2 ≠ 0 ∧ pieceStart < range.2 ∧ range.2 < pieceEnd then rangedTask piece range.2
        else piece
      if goodFor pieceStart pieceEnd range then (piece, true)
      else checkRanges pieceStart pieceEnd rest piece

namespace PieceRequestManager

variable {μ : Type} [BlockMap μ] (g : ProtocolPieces) (env : Downloaders)

omit [BlockMap μ] in
def isRequesting (q : PieceRequestManager μ) (piece : PieceInfo) : Bool :=
  (q.requestingMap.find? piece).isSome

omit [BlockMap μ] in
def removePieceTask (q : PieceRequestManager μ) (downloader : Nat) (piece : PieceInfo) :
    PieceRequestManager μ :=
  if !q.isRunning then q
  else match q.requestingMap.find? piece with
    | none => q
    | some task =>
        if task.downloader ≠ downloader then q
        else { q with requestingMap := q.requestingMap.erase piece }

omit [BlockMap μ] in
def clearTaskRangeMap (q : PieceRequestManager μ) : PieceRequestManager μ :=
  if !q.isRunning then q else { q with taskRangeMap := [] }

omit [BlockMap μ] in
def addTaskRange (q : PieceRequestManager μ) (start rangeEnd : Nat) : PieceRequestManager μ :=
  if !q.isRunning then q
  else { q with taskRangeMap := q.taskRangeMap.update start 0 fun _ => rangeEnd }

/-- The loop of `HasNextPieceForDownload`, from a position on. -/
def hasNextFrom (q : PieceRequestManager μ) (inst : Instance μ) (downloader : Nat) :
    Nat → Nat → Option (Option PieceInfoEx)
  | 0, _ => none
  | rounds + 1, position =>
      let blockSize := inst.getBlockSize
      match inst.getNextPieceForDownload position with
      | none => none
      | some none => some none
      | some (some piece) =>
          match q.requestingMap.find? piece.getPieceInfo with
          | none =>
              if q.taskRangeMap.isEmpty then some (some piece)
              else if blockSize = 0 then some (some piece)
              else if q.taskRangeMap.any (goodFor (g.getPositionEx piece blockSize)
                  (g.getEndPositionEx piece blockSize)) then some (some piece)
              else hasNextFrom q inst downloader rounds (g.getEndPositionEx piece blockSize)
          | some task =>
              if task.expired env downloader piece then some (some piece)
              else if blockSize = 0 then some none
              else hasNextFrom q inst downloader rounds (g.getEndPositionEx piece blockSize)

/-- `HasNextPieceForDownload`: the piece it finds. It writes nothing. -/
def hasNextPieceForDownload (q : PieceRequestManager μ) (downloader position rounds : Nat) :
    Option (Option PieceInfoEx) :=
  if !q.isRunning then some none
  else match q.inst with
    | none => some none
    | some inst => q.hasNextFrom g env inst downloader rounds position

omit [BlockMap μ] in
/-- `task_range_map_[0]`, which makes an entry when there is none. -/
def indexZero (q : PieceRequestManager μ) : PieceRequestManager μ :=
  { q with taskRangeMap := q.taskRangeMap.update 0 0 id }

omit [BlockMap μ] in
/-- The first of the requested pieces begins before the end of the range from 0: the
header of the media has not come. -/
def headPending (q : PieceRequestManager μ) (blockSize : Nat) : Bool :=
  match q.requestingMap with
  | [] => false
  | (first, _) :: _ => g.getPosition first blockSize < (q.taskRangeMap.find? 0).getD 0

omit [BlockMap μ] in
/-- `task_range_map_.rbegin()->first`. -/
def lastStart (q : PieceRequestManager μ) : Nat := (q.taskRangeMap.getLast?.map Prod.fst).getD 0

omit [BlockMap μ] in
/-- A timed out request is dropped and its downloader told, which may drop others. -/
def takeOver (q : PieceRequestManager μ) (task : PieceTask) (downloader : Nat)
    (piece : PieceInfoEx) : Taken μ where
  manager := (env.failed task.downloader piece).foldl
    (fun q failed => q.removePieceTask task.downloader failed)
    { q with requestingMap := q.requestingMap.erase piece.getPieceInfo }
  piece := some piece
  notices :=
    (if env.isPausing downloader then [] else [.setDownloaderToDeath task.downloader]) ++
      [.onPieceTimeout task.downloader piece]

/-- The loop of `GetNextPieceForDownload`, from a position on. -/
def getNextFrom (inst : Instance μ) (downloader : Nat) :
    Nat → PieceRequestManager μ → Nat → Option (Taken μ)
  | 0, _, _ => none
  | rounds + 1, q, position =>
      let blockSize := inst.getBlockSize
      match inst.getNextPieceForDownload position with
      | none => none
      | some none => some ⟨q, none, []⟩
      | some (some piece) =>
          match q.requestingMap.find? piece.getPieceInfo with
          | none =>
              if q.taskRangeMap.isEmpty then some ⟨q, some piece, []⟩
              else if blockSize = 0 then some ⟨q, some piece, []⟩
              else
                let pieceEnd := g.getEndPositionEx piece blockSize
                let (piece, goodPiece) :=
                  checkRanges (g.getPositionEx piece blockSize) pieceEnd q.taskRangeMap piece
                let q := if q.requestingMap.isEmpty then q else q.indexZero
                if goodPiece && !(q.headPending g blockSize && q.lastStart < pieceEnd) then
                  some ⟨q, some piece, []⟩
                else getNextFrom inst downloader rounds q (g.getEndPositionEx piece blockSize)
          | some task =>
              if task.expired env downloader piece then
                some (q.takeOver env task downloader piece)
              else if blockSize = 0 then some ⟨q, none, []⟩
              else getNextFrom inst downloader rounds q (g.getEndPositionEx piece blockSize)

/-- `GetNextPieceForDownload`. -/
def getNextPieceForDownload (q : PieceRequestManager μ) (downloader position rounds : Nat) :
    Option (Taken μ) :=
  if !q.isRunning then some ⟨q, none, []⟩
  else match q.inst with
    | none => some ⟨q, none, []⟩
    | some inst => getNextFrom g env inst downloader rounds q position

end PieceRequestManager

end Download
