import Mathlib.Data.List.DropRight
import Peer.Basis.Run
import Peer.Storage.UploadRead

/-! The cache of the VOD uploads. A request for a subpiece is answered from a cached
block, or waits with the others of its block until the block has been read. -/
namespace P2P

open Basis Storage

variable {μ : Type} [BlockMap μ]

/-- What `P2SPConfigs` sets for the cache, and `SubPieceInfo::GetPosition`, which the
protocol library computes from a subpiece and the block size. -/
structure UploadConfigs where
  uploadMaxCacheLength : Nat := 10
  uploadCacheBlockExpireTime : Nat := 30 * 1000
  getPosition : SubPieceInfo → Nat → Nat := fun info blockSize =>
    u32 (info.blockIndex * blockSize + info.subpieceIndex * bytesNumPerSubpiece)

/-- `RBIndex`. -/
structure RBIndex where
  rid : Guid
  blockIndex : Nat
deriving DecidableEq

/-- Where a request came from. A `UDP_VOD` packet holds its end point, of a `TCP_VOD`
packet the connection is known. -/
inductive PacketSource where
  | udpVod (address port : Nat)
  | tcpVod (connection : Nat)
deriving DecidableEq

/-- A `RequestSubPiecePacket` or a `TcpSubPieceRequestPacket`. -/
structure UploadPacket where
  resourceId : Guid
  transactionId : Nat
  source : PacketSource
deriving DecidableEq

/-- `ApplySubPiece`. The listener is known by a number. -/
structure ApplySubPiece where
  subpieceInfo : SubPieceInfo
  packet : UploadPacket
  uploadManager : Nat
deriving DecidableEq

namespace ApplySubPiece

def index (apply : ApplySubPiece) : RBIndex :=
  ⟨apply.packet.resourceId, apply.subpieceInfo.blockIndex⟩

/-- `GetIpAddress`. A connection that has lost its remote end point has the address 0. -/
def getIpAddress (remoteEndpoint : Nat → Option Nat) (apply : ApplySubPiece) : Nat :=
  match apply.packet.source with
  | .udpVod address _ => address
  | .tcpVod connection => (remoteEndpoint connection).getD 0

/-- Neither is below the other in the order of the set index. -/
def equivalent (remoteEndpoint : Nat → Option Nat) (apply other : ApplySubPiece) : Bool :=
  apply.subpieceInfo = other.subpieceInfo &&
    apply.getIpAddress remoteEndpoint == other.getIpAddress remoteEndpoint

end ApplySubPiece

/-- `RidBlock`; `touched` is when its counter was last reset. -/
structure RidBlock where
  index : RBIndex
  buf : Bytes
  touched : Nat

/-- `UploadCacheModule`. -/
structure UploadCacheModule where
  cacheList : List RidBlock
  needResourceMap : RBIndex → Option (List ApplySubPiece)
  applySubpieceNum : Nat
  getFromCache : Nat

namespace UploadCacheModule

def findBlock (cache : UploadCacheModule) (index : RBIndex) : Option RidBlock :=
  cache.cacheList.find? fun block => block.index = index

/-- Reset the counter of a cached block and splice it to the front. -/
def touch (cache : UploadCacheModule) (block : RidBlock) (now : Nat) : UploadCacheModule :=
  { cache with
    cacheList := { block with touched := now } ::
      cache.cacheList.eraseP fun other => other.index = block.index }

/-- `AddUploadCache` and `ShrinkCacheListIfNeeded`. A block that is cached keeps its bytes. -/
def addUploadCache (cache : UploadCacheModule) (configs : UploadConfigs) (index : RBIndex)
    (buffer : Bytes) (now : Nat) : UploadCacheModule :=
  let cache :=
    match cache.findBlock index with
    | some block => cache.touch block now
    | none => { cache with cacheList := ⟨index, buffer, now⟩ :: cache.cacheList }
  { cache with cacheList := cache.cacheList.take configs.uploadMaxCacheLength }

/-- `EraseExpiredCache`. -/
def eraseExpiredCache (cache : UploadCacheModule) (configs : UploadConfigs) (now : Nat) :
    UploadCacheModule :=
  { cache with
    cacheList := cache.cacheList.rdropWhile fun block =>
      decide (configs.uploadCacheBlockExpireTime ≤ now - block.touched) }

end UploadCacheModule

/-- A call of a listener: `OnAsyncGetSubPieceSucced` or `OnAsyncGetSubPieceFailed`.
`none` is a null buffer. -/
inductive UploadAnswer where
  | succeeded (apply : ApplySubPiece) (buffer : Option Bytes)
  | failed (apply : ApplySubPiece)
deriving DecidableEq

/-- The request that is answered. -/
def UploadAnswer.apply : UploadAnswer → ApplySubPiece
  | .succeeded apply _ => apply
  | .failed apply => apply

/-- A block read that was asked for and has not ended, with the block it was asked for. -/
structure BlockRead where
  index : RBIndex
  stage : ReadStage

/-- The cache, the storage module and the reads between them. The last fields record
what happened: the requests that were queued, the answers they got, and the answers
given from the cache. -/
structure UploadSystem (μ : Type) where
  configs : UploadConfigs
  cache : UploadCacheModule
  store : Store μ
  reads : List BlockRead
  now : Nat
  queued : List ApplySubPiece
  answers : List UploadAnswer
  served : List UploadAnswer

namespace UploadSystem

def start (configs : UploadConfigs) (store : Store μ) : UploadSystem μ where
  configs := configs
  cache := ⟨[], fun _ => none, 0, 0⟩
  store := store
  reads := []
  now := 0
  queued := []
  answers := []
  served := []

/-- What `OnAsyncGetBlockSucced` tells one listener of a block that was read. -/
def answerFrom (s : UploadSystem μ) (rid : Guid) (buffer : Bytes)
    (allocates : ApplySubPiece → Bool) (apply : ApplySubPiece) : Option UploadAnswer :=
  (s.store.getSubPieceFromBlock apply.subpieceInfo rid buffer (allocates apply)).map fun data =>
    .succeeded apply (some data)

/-- Tell the requests that wait for a block, and forget them. -/
def release (s : UploadSystem μ) (index : RBIndex)
    (answer : ApplySubPiece → Option UploadAnswer) : UploadSystem μ :=
  match s.cache.needResourceMap index with
  | none => s
  | some applyList =>
      { s with
        answers := s.answers ++ applyList.filterMap answer
        cache := { s.cache with
          needResourceMap := Function.update s.cache.needResourceMap index none } }

def onAsyncGetBlockSucced (s : UploadSystem μ) (rid : Guid) (b : Nat) (buffer : Bytes)
    (allocates : ApplySubPiece → Bool) : UploadSystem μ :=
  let s := s.release ⟨rid, b⟩ (s.answerFrom rid buffer allocates)
  { s with cache := s.cache.addUploadCache s.configs ⟨rid, b⟩ buffer s.now }

def onAsyncGetBlockFailed (s : UploadSystem μ) (rid : Guid) (b : Nat) : UploadSystem μ :=
  s.release ⟨rid, b⟩ fun apply => some (.failed apply)

def onBlockAnswer (s : UploadSystem μ) (allocates : ApplySubPiece → Bool) :
    BlockAnswer → UploadSystem μ
  | .succeeded rid b buffer => s.onAsyncGetBlockSucced rid b buffer allocates
  | .failed rid b _ => s.onAsyncGetBlockFailed rid b

/-- `Instance::AsyncGetBlock` called by the cache. -/
def askBlock (s : UploadSystem μ) (i : Nat) (index : RBIndex)
    (allocates : ApplySubPiece → Bool) : UploadSystem μ :=
  match s.store.asyncGetBlock i index.blockIndex with
  | .nothing => s
  | .answered answer => s.onBlockAnswer allocates answer
  | .posted job => { s with reads := s.reads ++ [⟨index, job⟩] }

/-- `AddApplySubPiece`, with its answer. -/
def addApplySubPiece (s : UploadSystem μ) (remoteEndpoint : Nat → Option Nat)
    (apply : ApplySubPiece) : UploadSystem μ × Bool :=
  let enqueue (applyList : List ApplySubPiece) : UploadSystem μ :=
    { s with
      queued := s.queued ++ [apply]
      cache := { s.cache with
        needResourceMap := Function.update s.cache.needResourceMap apply.index (some applyList) } }
  match s.cache.needResourceMap apply.index with
  | none => (enqueue [apply], false)
  | some applyList =>
      if applyList.any (apply.equivalent remoteEndpoint) then (s, true)
      else (enqueue (applyList ++ [apply]), true)

def getSubPieceForUpload (s : UploadSystem μ) (i : Nat) (remoteEndpoint : Nat → Option Nat)
    (allocates : ApplySubPiece → Bool) (apply : ApplySubPiece) : UploadSystem μ :=
  let s := { s with
    cache := { s.cache with applySubpieceNum := u32 (s.cache.applySubpieceNum + 1) } }
  match s.cache.findBlock apply.index with
  | some block =>
      let buffer :=
        s.store.getSubPieceFromBlock apply.subpieceInfo apply.index.rid block.buf (allocates apply)
      { s with
        served := s.served ++ [.succeeded apply buffer]
        cache := { s.cache.touch block s.now with getFromCache := u32 (s.cache.getFromCache + 1) } }
  | none =>
      let (s, waits) := s.addApplySubPiece remoteEndpoint apply
      if waits then s else s.askBlock i apply.index allocates

/-- One subpiece of a packet in `OnRequestSubPiecePacket` or `OnTcpSubPieceRequestPacket`.
Without an instance the packet is refused; a subpiece behind the file is skipped. -/
def onRequestSubPiece (s : UploadSystem μ) (remoteEndpoint : Nat → Option Nat)
    (allocates : ApplySubPiece → Bool) (apply : ApplySubPiece) : UploadSystem μ :=
  match s.store.getInstanceByRID apply.index.rid with
  | none => s
  | some i =>
      if s.store.isBehindFile s.configs.getPosition i apply.subpieceInfo then s
      else s.getSubPieceForUpload i remoteEndpoint allocates apply

end UploadSystem

/-- What can happen. The storage thread may run its jobs in any order, and so may the
main thread its tasks; what the rest of the program does to the storage between two
steps is not restricted. -/
inductive UploadAction (μ : Type) where
  | request (remoteEndpoint : Nat → Option Nat) (allocates : ApplySubPiece → Bool)
      (apply : ApplySubPiece)
  | runJob (k : Nat) (fresh : Nat → UInt8) (disk : Bytes)
  | runTask (k : Nat) (allocates : ApplySubPiece → Bool)
  | onP2PTimer
  | others (store : Store μ) (now : Nat)

namespace UploadSystem

/-- One step. A fault is no step. -/
def next (md5 : Bytes → Guid) (s : UploadSystem μ) : UploadAction μ → Option (UploadSystem μ)
  | .request remoteEndpoint allocates apply =>
      some (s.onRequestSubPiece remoteEndpoint allocates apply)
  | .runJob k fresh disk =>
      match s.reads[k]? with
      | some ⟨index, .threadReadBlockForUpload resource rid b needHash⟩ =>
          (s.store.threadReadBlockForUpload md5 resource rid b needHash fresh disk).map fun done =>
            match done with
            | some task => { s with reads := s.reads.set k ⟨index, task⟩ }
            | none => { s with reads := s.reads.eraseIdx k }
      | _ => none
  | .runTask k allocates =>
      (s.reads[k]?).bind fun read =>
        (s.store.runTask read.stage).map fun (store, answer) =>
          let s := { s with store := store, reads := s.reads.eraseIdx k }
          match answer with
          | some answer => s.onBlockAnswer allocates answer
          | none => s
  | .onP2PTimer => some { s with cache := s.cache.eraseExpiredCache s.configs s.now }
  | .others store now => some { s with store := store, now := now }

def Step (md5 : Bytes → Guid) (s : UploadSystem μ) (a : UploadAction μ) (t : UploadSystem μ) :
    Prop := s.next md5 a = some t

end UploadSystem

end P2P
