import Mathlib.Logic.Function.Basic
import Peer.Basis.Rounds
import Peer.Basis.Run
import Peer.Live.Instance

/-! Which block a live stream asks for next, and of whom: the search of `LiveStream`, its
`LiveBlockRequestManager` and the block tasks of the downloaders, HTTP and P2P. Downloaders
are numbered. -/
namespace Live.Requests

open Basis Storage

inductive Kind where
  | http
  | p2p
deriving DecidableEq

/-- What a `LiveHttpDownloader` or a `LiveP2PDownloader` has to do with block tasks. -/
structure Downloader where
  kind : Kind
  isRunning : Bool
  /-- `live_stream_` is not null. -/
  liveStream : Bool
  isPausing : Bool
  /-- `status_` of an HTTP downloader is `closed`. -/
  isClosed : Bool
  blockTasks : List Nat
deriving DecidableEq

namespace Downloader

def create (kind : Kind) : Downloader := ⟨kind, false, true, true, true, []⟩

/-- `PutBlockTask`. With a task at hand `DoConnect` opens a connection; the map of a P2P
downloader's assigner keeps what it has. -/
def putBlockTask (d : Downloader) (blockId : Nat) : Downloader :=
  match d.kind with
  | .http =>
      { d with
        blockTasks := d.blockTasks ++ [blockId]
        isClosed := d.isClosed && !d.isRunning }
  | .p2p =>
      if blockId ∈ d.blockTasks then d
      else { d with blockTasks := d.blockTasks.orderedInsert (· ≤ ·) blockId }

def eraseTask (d : Downloader) (blockId : Nat) : Downloader :=
  { d with blockTasks := d.blockTasks.erase blockId }

/-- `DoConnect` with a task at hand. -/
def openConnection (d : Downloader) : Downloader :=
  { d with isClosed := d.isClosed && !d.isRunning }

end Downloader

/-- `LiveBlockTask`, with the time at which it was made. -/
structure BlockTask where
  download : Nat
  madeAt : Nat
deriving DecidableEq

/-- A stream with its instance's cache, its driver's playing position and its request
manager. -/
structure LiveStream where
  cacheManager : LiveCacheManager
  playingBlockId : Nat
  /-- The build has `USE_MEMORY_POOL`. -/
  useMemoryPool : Bool
  leftCapacity : Nat
  /-- Milliseconds. -/
  now : Nat
  liveBlockRequestingMap : Nat → Option BlockTask
  downloaders : Nat → Downloader

namespace LiveStream

variable (s : LiveStream)

def modify (g : Nat) (f : Downloader → Downloader) : LiveStream :=
  { s with downloaders := Function.update s.downloaders g (f (s.downloaders g)) }

def eraseEntry (blockId : Nat) : LiveStream :=
  { s with liveBlockRequestingMap := Function.update s.liveBlockRequestingMap blockId none }

/-- `LiveBlockTask::IsTimeout`. -/
def isTimeout (task : BlockTask) (download : Nat) : Bool :=
  task.download != download &&
    (decide (8 * 1000 < s.now - task.madeAt) || (s.downloaders task.download).isPausing)

-- Removing a task calls back into its downloader, and a pause removes every task. The
-- calls nest at most as deep as `rounds` says.
mutual

/-- `LiveBlockRequestManager::RemoveBlockTask`. -/
def removeBlockTask : Nat → LiveStream → Nat → Option LiveStream
  | 0, _, _ => none
  | rounds + 1, s, blockId =>
      match s.liveBlockRequestingMap blockId with
      | none => some s
      | some task => (onBlockTimeout rounds s task.download blockId).map (·.eraseEntry blockId)
termination_by structural rounds => rounds

def onBlockTimeout : Nat → LiveStream → Nat → Nat → Option LiveStream
  | 0, _, _, _ => none
  | rounds + 1, s, g, blockId =>
      let d := s.downloaders g
      match d.kind with
      | .p2p => some (s.modify g (·.eraseTask blockId))
      | .http =>
          if blockId ∈ d.blockTasks then
            let s := s.modify g (·.eraseTask blockId)
            if d.isPausing = false ∧ d.isClosed = false then pause rounds s g else some s
          else some s
termination_by structural rounds => rounds

/-- `LiveHttpDownloader::Pause`. -/
def pause : Nat → LiveStream → Nat → Option LiveStream
  | 0, _, _ => none
  | rounds + 1, s, g =>
      if (s.downloaders g).isPausing then some s
      else (removeBlockTasks rounds (s.modify g fun d => { d with isPausing := true }) g).map
        (·.modify g fun d => { d with isClosed := true })
termination_by structural rounds => rounds

/-- The loops that empty `block_tasks_`; `none` also when `live_stream_` is null. -/
def removeBlockTasks : Nat → LiveStream → Nat → Option LiveStream
  | 0, _, _ => none
  | rounds + 1, s, g =>
      match (s.downloaders g).blockTasks with
      | [] => some s
      | blockId :: _ =>
          if (s.downloaders g).liveStream then
            (removeBlockTask rounds s blockId).bind fun s => removeBlockTasks rounds s g
          else none
termination_by structural rounds => rounds

end

/-- `LiveBlockRequestManager::AddBlockTask`. -/
def addBlockTask (blockId g : Nat) : LiveStream :=
  { s with
    liveBlockRequestingMap :=
      Function.update s.liveBlockRequestingMap blockId (some ⟨g, s.now⟩) }.modify g
    (·.putBlockTask blockId)

/-- Too few contents are left for a block behind the playing position. -/
def isShort (blockId : Nat) : Bool :=
  s.useMemoryPool && decide (s.leftCapacity < 2048) && decide (s.playingBlockId < blockId)

/-- A block that nobody is asked for, or for which the request is too late. -/
def mayTake (blockId g : Nat) : Bool :=
  match s.liveBlockRequestingMap blockId with
  | none => true
  | some task => s.isTimeout task g

/-- The loop of `RequestNextBlock` up to where it takes a block or returns `false`. Every
round begins a live interval later. -/
def nextBlock (s : LiveStream) (g : Nat) : Nat → Nat → Option (Option Nat)
  | 0, _ => none
  | rounds + 1, startBlockId =>
      match s.cacheManager.getNextMissingSubPiece rounds startBlockId with
      | none => none
      | some liveBlock =>
          if s.isShort liveBlock.blockId then some none
          else if s.mayTake liveBlock.blockId g then some (some liveBlock.blockId)
          else nextBlock s g rounds (u32 (startBlockId + s.cacheManager.liveInterval))

/-- `LiveStream::RequestNextBlock`. -/
def requestNextBlock (rounds : Nat) (g : Nat) : Option (LiveStream × Bool) :=
  match s.nextBlock g rounds s.playingBlockId with
  | none => none
  | some none => some (s, false)
  | some (some blockId) =>
      match s.liveBlockRequestingMap blockId with
      | none => some (s.addBlockTask blockId g, true)
      | some _ => (removeBlockTask rounds s blockId).map fun s => (s.addBlockTask blockId g, true)

/-- `LiveHttpDownloader::RequestNextBlock`. -/
def httpRequestNextBlock (rounds : Nat) (g : Nat) : Option LiveStream :=
  if (s.downloaders g).liveStream then (s.requestNextBlock rounds g).map Prod.fst else some s

/-- `DoConnect`. -/
def doConnect (rounds : Nat) (g : Nat) : Option LiveStream :=
  if (s.downloaders g).isRunning then
    if (s.downloaders g).blockTasks ≠ [] then some (s.modify g (·.openConnection))
    else s.httpRequestNextBlock rounds g
  else some s

/-- `LiveHttpDownloader::Resume`. -/
def resume (rounds : Nat) (g : Nat) : Option LiveStream :=
  if (s.downloaders g).isPausing then
    (s.modify g fun d => { d with isPausing := false, isClosed := true }).httpRequestNextBlock
      rounds g
  else some s

/-- What `OnTimerElapsed` and `OnComplete` end with. -/
def proceed (rounds : Nat) (g : Nat) : Option LiveStream :=
  if (s.downloaders g).blockTasks ≠ [] then s.doConnect rounds g
  else s.httpRequestNextBlock rounds g

def onTimerElapsed (rounds : Nat) (g : Nat) : Option LiveStream :=
  let d := s.downloaders g
  if d.isRunning = false ∨ d.isPausing then some s
  else (s.modify g fun d => { d with isClosed := true }).proceed rounds g

/-- `OnComplete`; it reads `block_tasks_.front()`. -/
def onComplete (rounds : Nat) (g : Nat) : Option LiveStream :=
  if (s.downloaders g).isRunning then
    match (s.downloaders g).blockTasks with
    | [] => none
    | blockId :: _ =>
        (removeBlockTask rounds (s.modify g fun d => { d with isClosed := true }) blockId).bind
          fun s => s.proceed rounds g
  else some s

def doClose (rounds : Nat) (g : Nat) : Option LiveStream :=
  removeBlockTasks rounds (s.modify g fun d => { d with isClosed := true }) g

/-- `LiveAssigner::CheckBlockComplete`, with `RemoveBlockTask` for every block that it noted
as complete. -/
def checkBlockComplete (rounds : Nat) (g : Nat) : Option LiveStream :=
  ((s.downloaders g).blockTasks.filter s.cacheManager.hasCompleteBlock).foldlM
    (fun s blockId => removeBlockTask rounds s blockId) s

end LiveStream

/-- What happens to a stream and its downloaders. The surroundings move the playing position,
fill and empty the cache, use up contents and let time pass; the connection of an HTTP
downloader opens and closes as it likes. -/
inductive Action where
  | start (g : Nat)
  | stop (g : Nat)
  | pause (g : Nat)
  | resume (g : Nat)
  | timerElapsed (g : Nat)
  | complete (g : Nat)
  | close (g : Nat)
  | status (g : Nat) (isClosed : Bool)
  | p2pPausing (g : Nat) (isPausing : Bool)
  | p2pRequest (g : Nat)
  | p2pCheck (g : Nat)
  | plays (blockId : Nat)
  | caches (blockNodes : Finmap fun _ : Nat => LiveBlockNode)
  | capacity (left : Nat)
  | elapses (milliseconds : Nat)

namespace LiveStream

def initial (kinds : Nat → Kind) (cacheManager : LiveCacheManager) (useMemoryPool : Bool) :
    LiveStream where
  cacheManager := cacheManager
  playingBlockId := 0
  useMemoryPool := useMemoryPool
  leftCapacity := 0
  now := 0
  liveBlockRequestingMap := fun _ => none
  downloaders := fun g => .create (kinds g)

/-- The downloader is an HTTP one, and the action is its own. -/
def whenHttp (s : LiveStream) (g : Nat) (t : Option LiveStream) : Option LiveStream :=
  if (s.downloaders g).kind = .http then t else some s

/-- The timer of a running P2P downloader. -/
def whenP2P (s : LiveStream) (g : Nat) (t : Option LiveStream) : Option LiveStream :=
  if (s.downloaders g).kind = .p2p ∧ (s.downloaders g).isRunning then t else some s

/-- One action. What is not for this kind of downloader leaves the state as it is; `none` is
an access to what is not there, or a call that `rounds` does not suffice for. -/
def next (rounds : Nat) (s : LiveStream) : Action → Option LiveStream
  | .start g => some (s.modify g fun d => { d with isRunning := true })
  | .stop g => some (s.modify g fun d => { d with isRunning := false, liveStream := false })
  | .pause g => s.whenHttp g (s.pause rounds g)
  | .resume g => s.whenHttp g (s.resume rounds g)
  | .timerElapsed g => s.whenHttp g (s.onTimerElapsed rounds g)
  | .complete g => s.whenHttp g (s.onComplete rounds g)
  | .close g => s.whenHttp g (s.doClose rounds g)
  | .status g isClosed => s.whenHttp g (some (s.modify g fun d => { d with isClosed := isClosed }))
  | .p2pPausing g isPausing =>
      if (s.downloaders g).kind = .p2p then
        some (s.modify g fun d => { d with isPausing := isPausing })
      else some s
  | .p2pRequest g =>
      s.whenP2P g (if (s.downloaders g).isPausing then some s
        else (s.requestNextBlock rounds g).map Prod.fst)
  | .p2pCheck g => s.whenP2P g (s.checkBlockComplete rounds g)
  | .plays blockId => some { s with playingBlockId := u32 blockId }
  | .caches blockNodes =>
      some { s with cacheManager := { s.cacheManager with blockNodes := blockNodes } }
  | .capacity left => some { s with leftCapacity := left }
  | .elapses milliseconds => some { s with now := s.now + milliseconds }

/-- An action that comes to an end. -/
def Step (s : LiveStream) (a : Action) (t : LiveStream) : Prop :=
  Settles (fun rounds => s.next rounds a) (· = t)

end LiveStream

end Live.Requests
