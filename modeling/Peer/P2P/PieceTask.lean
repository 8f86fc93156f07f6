import Mathlib.Data.List.Range
import Peer.Storage.BlockAgreement

/-! The piece tasks of a P2P downloader: the assigner turns them into requests for
subpieces, and every round asks the instance which tasks are complete. -/
namespace P2P

open Storage

/-- `PIECE_SIZE`. -/
def pieceSize : Nat := bytesNumPerSubpiece * subpieceNumPerPiece

/-- `protocol::PieceInfo`. -/
structure PieceInfo where
  blockIndex : Nat
  pieceIndex : Nat
deriving DecidableEq

/-- `protocol::PieceInfoEx`: the subpieces of a piece from one index to another. -/
structure PieceInfoEx where
  blockIndex : Nat
  pieceIndex : Nat
  subpieceIndex : Nat
  subpieceIndexEnd : Nat
deriving DecidableEq

def PieceInfoEx.getPieceInfo (t : PieceInfoEx) : PieceInfo := ⟨t.blockIndex, t.pieceIndex⟩

/-- The end that `PieceRequestManager` sets in a task whose piece lies across the end of
the range of bytes that is wanted. -/
def rangedTask (t : PieceInfoEx) (rangeEnd : Nat) : PieceInfoEx :=
  { t with subpieceIndexEnd := u16 (rangeEnd % pieceSize / bytesNumPerSubpiece) }

/-- What the library of the protocol computes for the two records, given the block size:
the positions in the file, and which tasks its order takes for the same. -/
structure ProtocolPieces where
  getPosition : PieceInfo → Nat → Nat
  getEndPosition : PieceInfo → Nat → Nat
  getPositionEx : PieceInfoEx → Nat → Nat
  getEndPositionEx : PieceInfoEx → Nat → Nat
  sameKey : PieceInfoEx → PieceInfoEx → Bool

/-- What the downloader asks the instance. -/
structure Pieces where
  hasPiece : PieceInfo → Bool
  hasSubPiece : SubPieceInfo → Bool

/-- The subpieces that a loop from the start of a task to `subpieceEnd` visits. -/
def subPiecesTo (t : PieceInfoEx) (subpieceEnd : Nat) : List SubPieceInfo :=
  (List.range' t.subpieceIndex (subpieceEnd + 1 - t.subpieceIndex)).map fun i =>
    SubPieceInfo.make t.blockIndex (t.pieceIndex * subpieceNumPerPiece + i)

section Complete

variable (g : ProtocolPieces) (r : RidInfo) (x : Pieces)

/-- The end of the loop in `CheckPieceComplete`. -/
def checkedEnd (t : PieceInfoEx) : Nat :=
  if r.fileLength < g.getEndPositionEx t r.blockSize then
    subU32 (subU32 r.fileLength (g.getPositionEx t r.blockSize)) 1 / bytesNumPerSubpiece
  else t.subpieceIndexEnd

/-- What `CheckPieceComplete` decides about one task. -/
def isComplete (t : PieceInfoEx) : Bool :=
  x.hasPiece t.getPieceInfo ||
    (t.subpieceIndex != 0 && (subPiecesTo t (checkedEnd g r t)).all x.hasSubPiece)

/-- `P2PDownloader::CheckPieceComplete`: the tasks reported to their drivers and erased,
and those that stay. -/
def checkPieceComplete (pieceTasks : List (PieceInfoEx × Nat)) :
    List (PieceInfoEx × Nat) × List (PieceInfoEx × Nat) :=
  pieceTasks.partition fun task => isComplete g r x task.1

end Complete

inductive DownloadMode where
  | normal
  | continuous
  | fast
  | other
deriving DecidableEq

/-- The members of `P2SPConfigs` that the assigner reads. -/
structure P2SPConfigs where
  redundantDecisionSize : Nat
  redundantDecisionSizeInterval : Nat
  redundantDecisionTimeout : Nat
  redundantPieceCount : Nat
  redundantTimesNormal : Nat
  redundantTimesUrgent : Nat
  continuousRedundantDecisionTimeout : Nat

/-- The defaults. -/
def P2SPConfigs.default : P2SPConfigs where
  redundantDecisionSize := 10
  redundantDecisionSizeInterval := 2
  redundantDecisionTimeout := 400
  redundantPieceCount := 3
  redundantTimesNormal := 1
  redundantTimesUrgent := 3
  continuousRedundantDecisionTimeout := 800

/-- What the assigner reads of the downloader and its `SubPieceRequestManager`. -/
structure AssignerView where
  configs : P2SPConfigs
  mode : DownloadMode
  hasSubPiece : SubPieceInfo → Bool
  isRequesting : SubPieceInfo → Bool
  isRequestingTimeout : SubPieceInfo → Nat → Bool
  getRequestingCount : SubPieceInfo → Nat

section Assign

variable (g : ProtocolPieces) (r : RidInfo) (v : AssignerView)

/-- The end of the loops in `CaclSubPieceAssignMap`. -/
def assignedEnd (t : PieceInfoEx) : Nat :=
  let endPosition := g.getEndPosition t.getPieceInfo r.blockSize
  if r.fileLength ≤ endPosition then
    subU32 (subU32 r.fileLength (subU32 endPosition pieceSize)) 1 / bytesNumPerSubpiece
  else t.subpieceIndexEnd

/-- What is asked for more than once of the first task. -/
def redundantFirst (few more : Nat) (need : Nat) (subpiece : SubPieceInfo) : List SubPieceInfo :=
  if v.hasSubPiece subpiece then []
  else if need ≤ few then [subpiece, subpiece]
  else if need ≤ more then [subpiece]
  else if v.isRequesting subpiece &&
      v.isRequestingTimeout subpiece v.configs.continuousRedundantDecisionTimeout then [subpiece]
  else []

/-- All that is requested and has not come. -/
def redundantAll (subpieces : List SubPieceInfo) : List SubPieceInfo :=
  subpieces.filter fun s => !v.hasSubPiece s && v.isRequesting s

/-- The redundant requests for a task; `index` is its place among the tasks. -/
def redundant (index : Nat) (eofFile : Bool) (need : Nat) (subpieces : List SubPieceInfo) :
    List SubPieceInfo :=
  let size := v.configs.redundantDecisionSize
  match v.mode with
  | .normal =>
      if index ≤ 5 ∨ eofFile then
        if eofFile ∧ need < u32 (size * 3) then redundantAll v subpieces
        else if index = 0 then subpieces.flatMap (redundantFirst v 3 10 need)
        else
          let urgent : Bool := index ≤ v.configs.redundantPieceCount
          if need < subU32 size (if urgent then 0 else v.configs.redundantDecisionSizeInterval) then
            let times :=
              if urgent then v.configs.redundantTimesUrgent else v.configs.redundantTimesNormal
            subpieces.filter fun s => !v.hasSubPiece s && (v.isRequesting s &&
              (v.isRequestingTimeout s v.configs.redundantDecisionTimeout &&
                v.getRequestingCount s < times))
          else []
      else []
  | .continuous =>
      if index = 0 then subpieces.flatMap (redundantFirst v 5 15 need)
      else if eofFile ∧ need < u32 (size * 3) then redundantAll v subpieces
      else if need < u32 (size * 3) then
        subpieces.filter fun s => !v.hasSubPiece s && (v.isRequesting s &&
          v.isRequestingTimeout s v.configs.continuousRedundantDecisionTimeout)
      else []
  | .fast => if eofFile ∧ need < u32 (size * 4) then redundantAll v subpieces else []
  | .other => []

/-- The requests for one task: those that are missing and not requested, counted, and the
redundant ones. -/
def assignTask (index : Nat) (eofFile : Bool) (t : PieceInfoEx) :
    List SubPieceInfo × List SubPieceInfo :=
  let subpieces := subPiecesTo t (assignedEnd g r t)
  let missing := subpieces.filter fun s => !v.hasSubPiece s
  (missing.filter fun s => !v.isRequesting s,
    redundant v index eofFile missing.length subpieces)

/-- The round over the tasks, by the place of the next one; `seen` are the tasks treated. -/
def assignTasks (eofFile : Bool) :
    Nat → List PieceInfoEx → List PieceInfoEx → List SubPieceInfo × Nat
  | _, _, [] => ([], 0)
  | index, seen, t :: rest =>
      if seen.any (g.sameKey t) then assignTasks eofFile (index + 1) seen rest
      else
        let (normal, extra) := assignTask g r v index eofFile t
        let (later, count) := assignTasks eofFile (index + 1) (t :: seen) rest
        (normal ++ extra ++ later, normal.length + count)

/-- The last of the tasks reaches the end of the file. -/
def eofOf (tasks : List PieceInfoEx) : Bool :=
  match tasks.getLast? with
  | some t =>
      let endPosition := g.getEndPosition t.getPieceInfo r.blockSize
      r.fileLength ≤ endPosition && endPosition < u32 (r.fileLength + pieceSize)
  | none => false

/-- `Assigner::CaclSubPieceAssignMap`: the subpieces to request, in order; when they are
few, several times. -/
def caclSubPieceAssignMap (pieceTasks : List (PieceInfoEx × Nat)) : List SubPieceInfo :=
  let tasks := pieceTasks.map (·.1)
  let (assigned, count) := assignTasks g r v (eofOf g r tasks) 0 [] tasks
  let repeated := if count < 32 then 4 else if count < 64 then 2 else if count < 96 then 1 else 0
  assigned ++ (List.replicate repeated assigned).flatten

end Assign

end P2P
