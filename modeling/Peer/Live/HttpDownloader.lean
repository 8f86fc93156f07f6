import Mathlib.Logic.Function.Basic
import Peer.Basis.Run

/-! `LiveHttpDownloader`, `LiveBlockRequestManager` and the part of `LiveStream` that
connects them. Downloaders of a stream are numbered in the order of their creation. -/
namespace Live.Http

/-- Where an `HttpClient` stands: asking for the header or reading the body makes it busy
(`is_requesting_`), and `Close` takes its handler away for good. -/
inductive Phase where
  | connecting
  | requesting
  | idle
  | reading
  | closed
  deriving DecidableEq

/-- An `HttpClient` with the block that its request path names. -/
structure HttpClient where
  id : Nat
  blockId : Nat
  phase : Phase
  deriving DecidableEq

namespace HttpClient

def isConnected (c : HttpClient) : Bool :=
  match c.phase with
  | .requesting | .idle | .reading => true
  | .connecting | .closed => false

def isRequesting (c : HttpClient) : Bool :=
  match c.phase with
  | .requesting | .reading => true
  | .connecting | .idle | .closed => false

def close (c : HttpClient) : HttpClient :=
  { c with phase := .closed }

/-- The last branch of `HttpRecv`: read from the socket unless a read is under way. -/
def asyncRead (c : HttpClient) : HttpClient :=
  if c.isRequesting then c else { c with phase := .reading }

end HttpClient

inductive Status where
  | closed
  | connecting
  | sendingRequestHead
  | recvingResponseData
  | sleeping
  deriving DecidableEq

/-- Between `DoConnect` and the end of the transfer. -/
def Status.isActive : Status → Bool
  | .connecting | .sendingRequestHead | .recvingResponseData => true
  | .closed | .sleeping => false

structure LiveHttpDownloader where
  isRunning : Bool
  /-- `live_stream_` is not null. -/
  liveStream : Bool
  status : Status
  isHttpPausing : Bool
  blockTasks : List Nat
  httpClient : Option HttpClient
  /-- The number of clients created so far. -/
  clients : Nat
  /-- `sleep_timer_` is started. -/
  sleepTimer : Bool
  connectFailedTimes : Nat
  isPmsStatusGood : Bool
  deriving DecidableEq

namespace LiveHttpDownloader

/-- A number that no downloader has yet. -/
def absent : LiveHttpDownloader :=
  { isRunning := false, liveStream := false, status := .closed, isHttpPausing := true,
    blockTasks := [], httpClient := none, clients := 0, sleepTimer := false,
    connectFailedTimes := 0, isPmsStatusGood := true }

/-- The constructor and `Start`. -/
def started : LiveHttpDownloader :=
  { absent with isRunning := true, liveStream := true }

def stop (d : LiveHttpDownloader) : LiveHttpDownloader :=
  { d with isRunning := false, liveStream := false }

/-- `http_client_->Close()`, if there is a client. -/
def closeHttpClient (d : LiveHttpDownloader) : LiveHttpDownloader :=
  { d with httpClient := d.httpClient.map HttpClient.close }

/-- `Close` of the client that is numbered, which may be replaced by now. -/
def closeNumbered (id : Nat) (d : LiveHttpDownloader) : LiveHttpDownloader :=
  { d with httpClient := d.httpClient.map fun c => if c.id = id then c.close else c }

/-- The client that is numbered is still there with its handler. -/
def hasHandler (id : Nat) (d : LiveHttpDownloader) : Bool :=
  d.httpClient.any fun c => c.id = id ∧ c.phase ≠ .closed

/-- Only clients call it, so there is one to close. -/
def sleepForConnect (d : LiveHttpDownloader) : LiveHttpDownloader :=
  { d.closeHttpClient with status := .sleeping, sleepTimer := true }

def onConnectSucced (d : LiveHttpDownloader) : LiveHttpDownloader :=
  { d with
    connectFailedTimes := 0
    isPmsStatusGood := true
    httpClient := d.httpClient.map fun c => { c with phase := .requesting }
    status := .sendingRequestHead }

def onConnectFailed (d : LiveHttpDownloader) : LiveHttpDownloader :=
  if d.isRunning then
    let d := { d with connectFailedTimes := d.connectFailedTimes + 1, status := .closed }
    if d.connectFailedTimes > 20 then { d with isPmsStatusGood := false } else d.sleepForConnect
  else d

/-- `DoConnect` once there is a task. `Connect` fails before it returns if the domain is
empty, or if the resolver or the socket throws. -/
def openConnection (connectFails : Bool) (blockId : Nat) (d : LiveHttpDownloader) :
    LiveHttpDownloader :=
  let d := { d with
    httpClient := some { id := d.clients, blockId, phase := .connecting }
    clients := d.clients + 1 }
  let d := if connectFails then d.onConnectFailed.closeHttpClient else d
  { d with status := .connecting }

/-- `Pause` up to its loop. -/
def beginPause (d : LiveHttpDownloader) : LiveHttpDownloader :=
  { d with
    isHttpPausing := true
    sleepTimer := if d.status = .sleeping then false else d.sleepTimer }

/-- `Pause` after its loop, `DoClose` before its loop. -/
def closeDown (d : LiveHttpDownloader) : LiveHttpDownloader :=
  { d.closeHttpClient with status := .closed }

end LiveHttpDownloader

/-- The downloader that a block is requested by. -/
inductive Owner where
  | http (g : Nat)
  | p2p (g : Nat)
  deriving DecidableEq

/-- A stream with its request manager. -/
structure LiveStream where
  isRunning : Bool
  liveHttpDownloader : Option Nat
  created : Nat
  downloaders : Nat → LiveHttpDownloader
  liveBlockRequestingMap : Nat → Option Owner
  /-- The downloaders whose `Resume` is posted. -/
  posted : List Nat
  /-- The subpieces that HTTP stored: the block they are stored under and the block of
  the request that brought them. -/
  stored : List (Nat × Nat)

/-- What the surroundings answer to a search for the next block: the incomplete blocks it
is shown, each with whether the request for it is late, until memory is short. -/
structure Answers where
  candidates : List (Nat × Bool)
  connectFails : Bool
  deriving DecidableEq

/-- A change of the data rate, away from the stream or back to it. -/
inductive Switch where
  | leaves
  | returns (httpPaused : Bool) (answers : Answers)
  deriving DecidableEq

/-- What `RequestSubPiece` comes upon. Storing what is buffered may change the data rate. -/
inductive Supply where
  | blockComplete
  | contentEnds
  | buffered (switches : List Switch)
  deriving DecidableEq

namespace LiveStream

def initial : LiveStream :=
  { isRunning := false, liveHttpDownloader := none, created := 0, downloaders := fun _ => .absent,
    liveBlockRequestingMap := fun _ => none, posted := [], stored := [] }

def modify (s : LiveStream) (g : Nat) (f : LiveHttpDownloader → LiveHttpDownloader) : LiveStream :=
  { s with downloaders := Function.update s.downloaders g (f (s.downloaders g)) }

def eraseEntry (s : LiveStream) (blockId : Nat) : LiveStream :=
  { s with liveBlockRequestingMap := Function.update s.liveBlockRequestingMap blockId none }

def addEntry (s : LiveStream) (blockId : Nat) (owner : Owner) : LiveStream :=
  { s with liveBlockRequestingMap := Function.update s.liveBlockRequestingMap blockId (some owner) }

def start (s : LiveStream) : LiveStream :=
  if s.isRunning then s
  else { s with
    downloaders := Function.update s.downloaders s.created .started
    liveHttpDownloader := some s.created
    created := s.created + 1
    isRunning := true }

def stop (s : LiveStream) : LiveStream :=
  if s.isRunning then
    match s.liveHttpDownloader with
    | none => s
    | some g => { s.modify g .stop with liveHttpDownloader := none, isRunning := false }
  else s

/-- `LiveBlockTask::IsTimeout`; whether a P2P downloader pauses is part of `late`. -/
def isTimeout (s : LiveStream) (owner request : Owner) (late : Bool) : Bool :=
  owner ≠ request && (late ||
    match owner with
    | .http g => (s.downloaders g).isHttpPausing
    | .p2p _ => false)

/-- The search of `LiveStream::RequestNextBlock` ends at this block. -/
def mayTake (s : LiveStream) (request : Owner) (candidate : Nat × Bool) : Bool :=
  match s.liveBlockRequestingMap candidate.1 with
  | none => true
  | some owner => s.isTimeout owner request candidate.2

def findBlock (s : LiveStream) (request : Owner) (answers : Answers) : Option Nat :=
  (answers.candidates.find? (s.mayTake request)).map Prod.fst

-- Removing a task calls back into its downloader, and a pause removes every task. The
-- calls nest at most as deep as `rounds` says.
mutual

/-- `LiveBlockRequestManager::RemoveBlockTask` -/
def removeBlockTask : Nat → LiveStream → Nat → Option LiveStream
  | 0, _, _ => none
  | rounds + 1, s, blockId =>
    match s.liveBlockRequestingMap blockId with
    | none => some s
    | some (.p2p _) => some (s.eraseEntry blockId)
    | some (.http g) => (onBlockTimeout rounds s g blockId).map (·.eraseEntry blockId)
termination_by structural rounds => rounds

def onBlockTimeout : Nat → LiveStream → Nat → Nat → Option LiveStream
  | 0, _, _, _ => none
  | rounds + 1, s, g, blockId =>
    let d := s.downloaders g
    if blockId ∈ d.blockTasks then
      let s := s.modify g fun d => { d with blockTasks := d.blockTasks.erase blockId }
      if d.isHttpPausing = false ∧ d.status ≠ .closed then
        (pause rounds s g).map fun s => { s with posted := s.posted ++ [g] }
      else some s
    else some s
termination_by structural rounds => rounds

def pause : Nat → LiveStream → Nat → Option LiveStream
  | 0, _, _ => none
  | rounds + 1, s, g =>
    if (s.downloaders g).isHttpPausing then some s
    else (removeBlockTasks rounds (s.modify g .beginPause) g).map (·.modify g .closeDown)
termination_by structural rounds => rounds

/-- The loops that empty `block_tasks_`. -/
def removeBlockTasks : Nat → LiveStream → Nat → Option LiveStream
  | 0, _, _ => none
  | rounds + 1, s, g =>
    match (s.downloaders g).blockTasks with
    | [] => some s
    | blockId :: _ =>
      if (s.downloaders g).liveStream then
        (removeBlockTask rounds s blockId).bind fun s => removeBlockTasks rounds s g
      else none
termination_by structural rounds => rounds

end

mutual

/-- `LiveStream::RequestNextBlock` -/
def requestNextBlock (answers : Answers) : Nat → LiveStream → Owner → Option LiveStream
  | 0, _, _ => none
  | rounds + 1, s, request =>
    match s.findBlock request answers with
    | none => some s
    | some blockId =>
      match s.liveBlockRequestingMap blockId with
      | none => addBlockTask answers rounds s blockId request
      | some _ => (removeBlockTask rounds s blockId).bind fun s =>
          addBlockTask answers rounds s blockId request
termination_by structural rounds => rounds

/-- `AddBlockTask`; a P2P downloader only notes the block. -/
def addBlockTask (answers : Answers) : Nat → LiveStream → Nat → Owner → Option LiveStream
  | 0, _, _, _ => none
  | rounds + 1, s, blockId, owner =>
    match owner with
    | .p2p _ => some (s.addEntry blockId owner)
    | .http g => putBlockTask answers rounds (s.addEntry blockId owner) g blockId
termination_by structural rounds => rounds

def putBlockTask (answers : Answers) : Nat → LiveStream → Nat → Nat → Option LiveStream
  | 0, _, _, _ => none
  | rounds + 1, s, g, blockId =>
    let s := s.modify g fun d => { d with blockTasks := d.blockTasks ++ [blockId] }
    if (s.downloaders g).status = .closed then doConnect answers rounds s g else some s
termination_by structural rounds => rounds

def doConnect (answers : Answers) : Nat → LiveStream → Nat → Option LiveStream
  | 0, _, _ => none
  | rounds + 1, s, g =>
    if (s.downloaders g).isRunning then
      match (s.downloaders g).blockTasks with
      | blockId :: _ => some (s.modify g (.openConnection answers.connectFails blockId))
      | [] =>
        if (s.downloaders g).liveStream then requestNextBlock answers rounds s (.http g) else some s
    else some s
termination_by structural rounds => rounds

end

variable (answers : Answers) (rounds : Nat) (s : LiveStream) (g : Nat)

/-- `LiveHttpDownloader::RequestNextBlock` -/
def httpRequestNextBlock : Option LiveStream :=
  if (s.downloaders g).liveStream then s.requestNextBlock answers rounds (.http g) else some s

def resume : Option LiveStream :=
  if (s.downloaders g).isHttpPausing then
    (s.modify g fun d => { d with isHttpPausing := false, status := .closed }).httpRequestNextBlock
      answers rounds g
  else some s

/-- `LiveHttpDownloader::OnDataRateChanged` -/
def onDataRateChanged : Option LiveStream :=
  if (s.downloaders g).isHttpPausing then some s
  else (pause rounds s g).bind fun s => s.resume answers rounds g

def onTimerElapsed : Option LiveStream :=
  let s := s.modify g fun d => { d with sleepTimer := false }
  let d := s.downloaders g
  if d.isRunning = false ∨ d.isHttpPausing then some s
  else
    let s := s.modify g fun d => { d with status := .closed }
    if d.blockTasks ≠ [] then doConnect answers rounds s g
    else s.httpRequestNextBlock answers rounds g

/-- Reads `block_tasks_.front()`. -/
def onComplete : Option LiveStream :=
  if (s.downloaders g).isRunning then
    match (s.downloaders g).blockTasks with
    | [] => none
    | blockId :: _ =>
      (removeBlockTask rounds (s.modify g fun d => { d with status := .closed }) blockId).bind fun s =>
        if (s.downloaders g).blockTasks ≠ [] then doConnect answers rounds s g
        else s.httpRequestNextBlock answers rounds g
  else some s

def doClose : Option LiveStream :=
  removeBlockTasks rounds (s.modify g .closeDown) g

def onError : Option LiveStream :=
  if (s.downloaders g).isRunning then
    (s.doClose rounds g).map (·.modify g .sleepForConnect)
  else some s

/-- `LiveDownloadDriver::OnDataRateChanged` as far as it is about this stream. -/
def switch : Switch → Option LiveStream
  | .leaves => some s.stop
  | .returns httpPaused answers =>
    let s := s.stop.start
    match s.liveHttpDownloader with
    | none => none
    | some g => if httpPaused then some s else s.resume answers rounds g

def switchAll (s : LiveStream) : List Switch → Option LiveStream
  | [] => some s
  | first :: rest => (s.switch rounds first).bind fun s => switchAll s rest

/-- `OnRecvHttpDataSucced`, called by a client with this request. -/
def onRecvHttpDataSucced (requested : Nat) (switches : List Switch)
    (requestSubPiece : LiveStream → Option LiveStream) : Option LiveStream :=
  if (s.downloaders g).isRunning then
    match (s.downloaders g).blockTasks with
    | [] => none
    | blockId :: _ =>
      (switchAll rounds { s with stored := s.stored ++ [(blockId, requested)] } switches).bind
        requestSubPiece
  else some s

/-- `RequestSubPiece` with the part of `HttpRecv` that calls back. -/
def requestSubPiece : List Supply → LiveStream → Option LiveStream
  | supplies, s =>
    if (s.downloaders g).isRunning = false then some s
    else
      match (s.downloaders g).blockTasks, (s.downloaders g).httpClient with
      | _ :: _, some c =>
        match supplies with
        | .blockComplete :: _ => s.onComplete answers rounds g
        | .contentEnds :: _ =>
          if c.isConnected then
            (s.onComplete answers rounds g).map (·.modify g (.closeNumbered c.id))
          else some s
        | .buffered switches :: rest =>
          if c.isConnected then
            s.onRecvHttpDataSucced rounds g c.blockId switches (requestSubPiece rest)
          else some s
        | [] =>
          if c.isConnected then
            some (s.modify g fun d => { d with httpClient := some c.asyncRead })
          else some s
      | _, _ => none

end LiveStream

/-- What happens to a stream: calls of its driver, `Resume` as posted, timers, the P2P
downloaders, and what the sockets of the HTTP clients report. -/
inductive Action where
  | start
  | stop
  | pause
  | resume (answers : Answers)
  | dataRateChanged (answers : Answers)
  | posted (g : Nat) (answers : Answers)
  | timerElapsed (g : Nat) (answers : Answers)
  | p2pRequest (g : Nat) (answers : Answers)
  | p2pRemove (blockId : Nat)
  | connectSucced (g : Nat)
  | connectFailed (g : Nat)
  | headerSucced (g statusCode : Nat) (supplies : List Supply) (answers : Answers)
  | headerFailed (g : Nat)
  | data (g : Nat) (switches : List Switch) (supplies : List Supply) (answers : Answers)
  /-- The connection ends; a response is chunked if it has no content length. -/
  | dataEnd (g : Nat) (isChunked : Bool) (switches : List Switch) (supplies : List Supply)
    (answers : Answers)
  | dataFailed (g : Nat)
  deriving DecidableEq

namespace LiveStream

/-- The client of a downloader while it is in one of these phases. -/
def client (s : LiveStream) (g : Nat) (phases : List Phase) : Option HttpClient :=
  (s.downloaders g).httpClient.filter fun c => c.phase ∈ phases

/-- The read or the write that was under way is over (`is_requesting_ = false`). -/
def settle (s : LiveStream) (g : Nat) : LiveStream :=
  s.modify g fun d => { d with httpClient := d.httpClient.map fun c => { c with phase := .idle } }

/-- `OnRecvHttpHeaderSucced` -/
def onRecvHttpHeaderSucced (rounds : Nat) (s : LiveStream) (g statusCode : Nat)
    (supplies : List Supply) (answers : Answers) : Option LiveStream :=
  if (s.downloaders g).isRunning then
    if statusCode = 200 ∨ statusCode = 206 then
      requestSubPiece answers rounds g supplies
        (s.modify g fun d => { d with status := .recvingResponseData })
    else (s.doClose rounds g).map (·.modify g .sleepForConnect)
  else some s

/-- One action. What cannot happen in a state leaves it as it is; `none` is an access to
what is not there, or a call that `rounds` does not suffice for. -/
def next (rounds : Nat) (s : LiveStream) : Action → Option LiveStream
  | .start => some s.start
  | .stop => some s.stop
  | .pause =>
    match s.liveHttpDownloader with
    | none => some s
    | some g => s.pause rounds g
  | .resume answers =>
    match s.liveHttpDownloader with
    | none => some s
    | some g => s.resume answers rounds g
  | .dataRateChanged answers =>
    match s.liveHttpDownloader with
    | none => some s
    | some g => s.onDataRateChanged answers rounds g
  | .posted g answers =>
    if g ∈ s.posted then
      { s with posted := s.posted.erase g }.resume answers rounds g
    else some s
  | .timerElapsed g answers =>
    if (s.downloaders g).sleepTimer then s.onTimerElapsed answers rounds g else some s
  | .p2pRequest g answers => s.requestNextBlock answers rounds (.p2p g)
  | .p2pRemove blockId => s.removeBlockTask rounds blockId
  | .connectSucced g =>
    match s.client g [.connecting] with
    | none => some s
    | some _ => some (s.modify g .onConnectSucced)
  | .connectFailed g =>
    match s.client g [.connecting] with
    | none => some s
    | some c => some ((s.modify g .onConnectFailed).modify g (.closeNumbered c.id))
  | .headerSucced g statusCode supplies answers =>
    match s.client g [.requesting] with
    | none => some s
    | some _ => (s.settle g).onRecvHttpHeaderSucced rounds g statusCode supplies answers
  | .headerFailed g =>
    match s.client g [.requesting] with
    | none => some s
    | some c => (s.onError rounds g).map (·.modify g (.closeNumbered c.id))
  | .data g switches supplies answers =>
    match s.client g [.reading] with
    | none => some s
    | some c => (s.settle g).onRecvHttpDataSucced rounds g c.blockId switches
        (requestSubPiece answers rounds g supplies)
  | .dataEnd g isChunked switches supplies answers =>
    match s.client g [.reading] with
    | none => some s
    | some c =>
      ((s.settle g).onRecvHttpDataSucced rounds g c.blockId switches
        (requestSubPiece answers rounds g supplies)).bind fun s =>
          (if (s.downloaders g).hasHandler c.id then
            if isChunked then s.onComplete answers rounds g else s.onError rounds g
          else some s).map (·.modify g (.closeNumbered c.id))
  | .dataFailed g =>
    match s.client g [.requesting, .reading] with
    | none => some s
    | some c => (s.onError rounds g).map (·.modify g (.closeNumbered c.id))

end LiveStream

end Live.Http
