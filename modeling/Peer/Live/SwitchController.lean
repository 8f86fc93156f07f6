import Peer.Download.ControlMode

/-! `LiveSwitchController`, the streams of a `LiveDownloadDriver` whose downloaders it
pauses and resumes, the driver's record of each use of HTTP, and `LiveDataRateManager`,
which replaces the downloaders under the controller. Times are in milliseconds. -/
namespace Live.Switch

open Download

inductive StopHttpCondition where
  | restPlayableTimeEnougth
  | longTimeUsingCdn
  | block
  | uploadNotLargeEnough
  | noUseHttpWhenUrgent
  | worseThanP2P
  | restPlayableTimeNotShort
  deriving DecidableEq

inductive StartHttpCondition where
  | start
  | urgent
  | largeUpload
  | fallBehind
  | nonePeers
  | noP2P
  | drag
  deriving DecidableEq

/-- The getters of `BootStrapGeneralConfig` the controller reads, at the saving mode of
its driver. -/
structure BootStrapGeneralConfig where
  p2pSpeedThreshold : Nat
  timeOfAdvancingSwitchingHttp : Nat
  useCdnToAccelerateBasedOnHistory : Bool
  shouldUseCDNWhenLargeUpload : Bool
  timeToIgnoreHttpBad : Nat
  restPlayTimeDelim : Nat
  useHttpWhenConnectedNonePeers : Bool
  restPlayTimeDelimWhenNonePeers : Nat
  enoughRestPlayTimeDelimWhenNonePeers : Nat
  useHttpWhenUrgent : Bool
  p2pRestPlayableTimeDelim : Nat
  p2pRestPlayableTimeDelimWhenSwitchedWithLargeTime : Nat
  p2pProtectTimeWhenStart : Nat
  p2pProtectTimeIfStartAndSpeedIs0 : Nat
  p2pProtectTimeWhenSwitchedWithNotEnoughTime : Nat
  p2pProtectTimeWhenSwitchedWithBuffering : Nat
  p2pProtectTimeIfSpeedIs0 : Nat
  urgentRestPlayableTimeDelim : Nat
  safeRestPlayableTimeDelim : Nat
  safeEnoughRestPlayableTime : Nat
  httpProtectTimeWhenLargeUpload : Nat
  usingCDNOrUdpServerTimeDelim : Nat
  httpRunningLongEnoughTimeWhenStart : Nat
  httpProtectTimeWhenStart : Nat
  httpProtectTime2WhenStart : Nat
  httpDownloadBytesDelimWhenStart : Nat
  httpProtectTimeWhenUrgentSwitched : Nat
  httpRunningLongEnoughTimeWhenUrgentSwitched : Nat
  httpRunningLongestTimeWhenUrgentSwitched : Nat
  maxRestPlayableTime : Nat
  minRestPlayableTime : Nat
  shouldJudgeSwitchingDatarateManually : Bool
  restPlayableTimeDelimWhenSwitching : Nat
  shouldUseBWType : Bool
  autoSwitchStream : Bool

/-- What the rest of the program answers during one call. -/
structure Conditions where
  config : BootStrapGeneralConfig
  now : Nat
  restPlayableTime : Nat
  /-- `NowDownloadSpeed` of the P2P downloader. -/
  p2pNowDownloadSpeed : Nat
  connectedPeersCount : Nat
  doesFallBehindTooMuch : Bool
  shouldUseCdnToAccelerate : Bool
  isUploadSpeedLargeEnough : Bool
  isUploadSpeedSmallEnough : Bool
  /-- `LiveSubPieceContent::get_left_capacity()`, in a build with `USE_MEMORY_POOL`. -/
  leftCapacity : Option Nat

/-- One use of HTTP. A reason is `none` while it is the constructor's 255. -/
structure HttpDownloadStatistic where
  startTime : Nat
  stopTime : Nat
  startReason : Option StartHttpCondition
  stopReason : Option StopHttpCondition
  downloadBytes : Nat
  httpDownloadedBytesWhenStart : Nat
  isRunning : Bool
  deriving DecidableEq

namespace HttpDownloadStatistic

/-- The constructor and `Start`. -/
def start (startTime : Nat) (startReason : Option StartHttpCondition) (httpDownloadedBytes : Nat) :
    HttpDownloadStatistic :=
  { startTime, stopTime := 0, startReason, stopReason := none, downloadBytes := 0,
    httpDownloadedBytesWhenStart := httpDownloadedBytes, isRunning := true }

/-- `Stop`; the subtraction is one of `uint32_t`. -/
def stop (stopTime : Nat) (stopReason : Option StopHttpCondition) (httpDownloadedBytes : Nat)
    (r : HttpDownloadStatistic) : HttpDownloadStatistic :=
  { r with
    isRunning := false
    stopTime
    stopReason
    downloadBytes := (httpDownloadedBytes + 2 ^ 32 - r.httpDownloadedBytesWhenStart) % 2 ^ 32 }

end HttpDownloadStatistic

/-- The part of `LiveHttpDownloader` the controller sees. Downloaders of a driver are
numbered in the order of their creation. -/
structure LiveHttpDownloader where
  number : Nat
  isHttpPausing : Bool
  totalDownloadBytes : Nat
  deriving DecidableEq

namespace LiveHttpDownloader

def pause (d : LiveHttpDownloader) : LiveHttpDownloader :=
  { d with isHttpPausing := true }

def resume (d : LiveHttpDownloader) : LiveHttpDownloader :=
  { d with isHttpPausing := false }

end LiveHttpDownloader

/-- The part of `LiveP2PDownloader` the controller sees. -/
structure LiveP2PDownloader where
  isP2PPausing : Bool
  deriving DecidableEq

namespace LiveP2PDownloader

def pause (_ : LiveP2PDownloader) : LiveP2PDownloader :=
  { isP2PPausing := true }

def resume (_ : LiveP2PDownloader) : LiveP2PDownloader :=
  { isP2PPausing := false }

end LiveP2PDownloader

structure LiveStream where
  isRunning : Bool
  httpDownloader : Option LiveHttpDownloader
  p2pDownloader : Option LiveP2PDownloader
  deriving DecidableEq

namespace LiveStream

/-- The constructor. -/
def created : LiveStream :=
  { isRunning := false, httpDownloader := none, p2pDownloader := none }

/-- `Start` of a stream that is not running: the HTTP downloader is numbered. -/
def start (bwtype : JumpBWType) (number : Nat) (l : LiveStream) : LiveStream :=
  if l.isRunning then l
  else
    { isRunning := true
      httpDownloader := some { number, isHttpPausing := true, totalDownloadBytes := 0 }
      p2pDownloader :=
        if bwtype ≠ .httpOnly then some { isP2PPausing := true } else l.p2pDownloader }

def stop (l : LiveStream) : LiveStream :=
  if l.isRunning then { isRunning := false, httpDownloader := none, p2pDownloader := none } else l

end LiveStream

/-- `timer_` is the time of its last reset. -/
structure LiveDataRateManager where
  ridS : List Nat
  timer : Nat
  currentDataRatePos : Nat
  lastDataRatePos : Nat
  deriving DecidableEq

namespace LiveDataRateManager

def start (ridS : List Nat) (now : Nat) : LiveDataRateManager :=
  { ridS, timer := now, currentDataRatePos := 0, lastDataRatePos := 0 }

/-- The end of both switches. -/
def finish (now : Nat) (m : LiveDataRateManager) : Bool × LiveDataRateManager :=
  if m.lastDataRatePos ≠ m.currentDataRatePos then (true, { m with timer := now }) else (false, m)

def switchToHigherDataRateIfNeeded (now restTimeInSeconds : Nat) (m : LiveDataRateManager) :
    Bool × LiveDataRateManager :=
  let m := { m with lastDataRatePos := m.currentDataRatePos }
  if now - m.timer > 30 * 1000 ∧ restTimeInSeconds > 16 + 4 * m.currentDataRatePos then
    finish now { m with currentDataRatePos :=
      if m.currentDataRatePos + 1 > m.ridS.length - 1 then m.ridS.length - 1
      else m.currentDataRatePos + 1 }
  else finish now m

def switchToLowerDataRateIfNeeded (now restTimeInSeconds : Nat) (m : LiveDataRateManager) :
    Bool × LiveDataRateManager :=
  let m := { m with lastDataRatePos := m.currentDataRatePos }
  if now - m.timer > 20 * 1000 ∧ restTimeInSeconds < 8 + 4 * m.currentDataRatePos then
    finish now { m with currentDataRatePos :=
      if m.currentDataRatePos ≠ 0 then m.currentDataRatePos - 1 else m.currentDataRatePos }
  else finish now m

/-- The second test of `JumpOrSwitchIfNeeded` is made where the first one fails. -/
def switchIfNeeded (now restTimeInSeconds : Nat) (m : LiveDataRateManager) :
    Bool × LiveDataRateManager :=
  match m.switchToHigherDataRateIfNeeded now restTimeInSeconds with
  | (true, m) => (true, m)
  | (false, m) => m.switchToLowerDataRateIfNeeded now restTimeInSeconds

end LiveDataRateManager

/-- The tick counters are the times of their last resets. The two reasons have no value
before the first assignment. -/
structure LiveSwitchController where
  http : HttpState
  p2p : P2PState
  timeCounter2300 : Nat
  timeCounter3200 : Nat
  isMemoryFull : Bool
  isStarted : Bool
  restPlayTimeWhenSwitched : Nat
  isHttpFast : Bool
  changedToHttpBecauseOfLargeUpload : Bool
  blockedThisTime : Bool
  isTooNearFromLastVvOfSameChannel : Bool
  isSavingMode : Bool
  reasonOfUsingHttp : Option StartHttpCondition
  reasonOfStopingHttp : Option StopHttpCondition
  deriving DecidableEq

/-- The constructor. -/
def LiveSwitchController.created (now : Nat) : LiveSwitchController :=
  { http := .none, p2p := .none, timeCounter2300 := now, timeCounter3200 := now,
    isMemoryFull := false, isStarted := true, restPlayTimeWhenSwitched := 0, isHttpFast := true,
    changedToHttpBecauseOfLargeUpload := false, blockedThisTime := false,
    isTooNearFromLastVvOfSameChannel := false, isSavingMode := false, reasonOfUsingHttp := none,
    reasonOfStopingHttp := none }

/-- A `LiveDownloadDriver` with its controller. The last three fields are not of the
source: what `assert` found so far, the bytes all HTTP downloaders received, and the times
of the data rate changes, the last one first, with the positions before and after each. -/
structure LiveDownload where
  bwtype : JumpBWType
  replay : Bool
  /-- `source_type_` is `SOURCE_PPLIVE_LIVE2`. -/
  isPPLiveLive2 : Bool
  switch : LiveSwitchController
  dataRateManager : LiveDataRateManager
  liveStreams : List LiveStream
  httpDownloadStatistic : List HttpDownloadStatistic
  changedToP2PConditionWhenStart : Option StopHttpCondition
  httpDownloadBytesWhenStart : Nat
  changedToHttpTimesWhenUrgent : Nat
  blockTimesWhenUseHttpUnderUrgentSituation : Nat
  switchState : HttpState × P2PState
  /-- The number of HTTP downloaders created so far. -/
  created : Nat
  /-- The downloaders whose `Resume` is posted to the `io_service`, in its order. -/
  posted : List Nat
  asserted : Bool
  received : Nat
  changes : List (Nat × Nat × Nat)

namespace LiveDownload

/-- `assert`, which a release build leaves out. -/
def check (b : Bool) (s : LiveDownload) : LiveDownload :=
  { s with asserted := s.asserted && b }

def setSwitch (f : LiveSwitchController → LiveSwitchController) (s : LiveDownload) : LiveDownload :=
  { s with switch := f s.switch }

def currentStream (s : LiveDownload) : Option LiveStream :=
  s.liveStreams[s.dataRateManager.currentDataRatePos]?

def getHTTPControlTarget (s : LiveDownload) : Option LiveHttpDownloader :=
  s.currentStream.bind LiveStream.httpDownloader

def getP2PControlTarget (s : LiveDownload) : Option LiveP2PDownloader :=
  s.currentStream.bind LiveStream.p2pDownloader

def modifyStream (f : LiveStream → LiveStream) (s : LiveDownload) : LiveDownload :=
  { s with liveStreams := s.liveStreams.modify s.dataRateManager.currentDataRatePos f }

def modifyHttp (f : LiveHttpDownloader → LiveHttpDownloader) (s : LiveDownload) : LiveDownload :=
  s.modifyStream fun l => { l with httpDownloader := l.httpDownloader.map f }

def modifyP2P (f : LiveP2PDownloader → LiveP2PDownloader) (s : LiveDownload) : LiveDownload :=
  s.modifyStream fun l => { l with p2pDownloader := l.p2pDownloader.map f }

/-- `GetSpeedInfo().TotalDownloadBytes` of the HTTP target. -/
def totalDownloadBytes (s : LiveDownload) : Nat :=
  (s.getHTTPControlTarget.map LiveHttpDownloader.totalDownloadBytes).getD 0

def resumeHttpDownloader (s : LiveDownload) : LiveDownload :=
  (s.setSwitch fun w => { w with http := .downloading }).modifyHttp LiveHttpDownloader.resume

def pauseHttpDownloader (s : LiveDownload) : LiveDownload :=
  (s.setSwitch fun w => { w with http := .pausing }).modifyHttp LiveHttpDownloader.pause

def resumeP2PDownloader (s : LiveDownload) : LiveDownload :=
  (s.setSwitch fun w => { w with p2p := .downloading }).modifyP2P LiveP2PDownloader.resume

def pauseP2PDownloader (s : LiveDownload) : LiveDownload :=
  (s.setSwitch fun w => { w with p2p := .pausing }).modifyP2P LiveP2PDownloader.pause

def submitChangedToP2PCondition (condition : StopHttpCondition) (s : LiveDownload) : LiveDownload :=
  { (s.check s.getHTTPControlTarget.isSome) with
    changedToP2PConditionWhenStart := some condition
    httpDownloadBytesWhenStart := s.totalDownloadBytes }

/-- With `SubmitChangedToHttpTimesWhenUrgent`. -/
def setChangeToHttpBecauseOfUrgent (s : LiveDownload) : LiveDownload :=
  { (s.setSwitch fun w => { w with changedToHttpBecauseOfLargeUpload := false }) with
    changedToHttpTimesWhenUrgent := s.changedToHttpTimesWhenUrgent + 1 }

def startHttp (now : Nat) (s : LiveDownload) : LiveDownload :=
  { (s.check s.getHTTPControlTarget.isSome) with
    httpDownloadStatistic := s.httpDownloadStatistic ++
      [HttpDownloadStatistic.start now s.switch.reasonOfUsingHttp s.totalDownloadBytes] }

/-- `StopHttp` with the assertions of `HttpDownloadStatistic::Stop`. -/
def stopHttp (now : Nat) (s : LiveDownload) : LiveDownload :=
  let last := s.httpDownloadStatistic.getLast?
  { (s.check (s.getHTTPControlTarget.isSome && last.any fun r =>
      r.isRunning && decide (r.httpDownloadedBytesWhenStart ≤ s.totalDownloadBytes))) with
    httpDownloadStatistic := s.httpDownloadStatistic.modify (s.httpDownloadStatistic.length - 1)
      (HttpDownloadStatistic.stop now s.switch.reasonOfStopingHttp s.totalDownloadBytes) }

/-- `SetUseP2P` and `SetUseCdnBecauseOfLargeUpload` only keep statistics of the stream. -/
def changeTo3200 (c : Conditions) (s : LiveDownload) : LiveDownload :=
  s.pauseHttpDownloader.resumeP2PDownloader.setSwitch fun w => { w with
    timeCounter3200 := c.now
    restPlayTimeWhenSwitched := c.restPlayableTime }

def changeTo2300 (c : Conditions) (s : LiveDownload) : LiveDownload :=
  s.pauseP2PDownloader.resumeHttpDownloader.setSwitch fun w => { w with
    timeCounter2300 := c.now
    restPlayTimeWhenSwitched := c.restPlayableTime
    blockedThisTime := false }

def changeTo3300 (s : LiveDownload) : LiveDownload :=
  (s.setSwitch fun w => { w with isStarted := false }).pauseP2PDownloader.pauseHttpDownloader

/-- `return true` of `NeedChangeTo2300`. -/
def useHttp (reason : StartHttpCondition) (s : LiveDownload) : LiveDownload :=
  s.setSwitch fun w => { w with reasonOfUsingHttp := some reason }

def useHttpForLargeUpload (s : LiveDownload) : LiveDownload :=
  (s.setSwitch fun w => { w with changedToHttpBecauseOfLargeUpload := true }).useHttp .largeUpload

def elapsed3200 (c : Conditions) (s : LiveDownload) : Nat :=
  c.now - s.switch.timeCounter3200

def elapsed2300 (c : Conditions) (s : LiveDownload) : Nat :=
  c.now - s.switch.timeCounter2300

/-- `time_of_advancing_switching_to_http`. -/
def timeOfAdvancing (c : Conditions) : Nat :=
  if c.p2pNowDownloadSpeed < c.config.p2pSpeedThreshold * 1024 % 2 ^ 32 then
    c.config.timeOfAdvancingSwitchingHttp
  else 0

/-- The end of `NeedChangeTo2300`: the situation is urgent. -/
def isUrgent (c : Conditions) (s : LiveDownload) : Bool :=
  let w := s.switch
  let rest := c.restPlayableTime
  let late := (c.config.p2pRestPlayableTimeDelim + timeOfAdvancing c) % 2 ^ 32
  let stuck := c.p2pNowDownloadSpeed = 0 ∧ rest < c.config.urgentRestPlayableTimeDelim
  if w.isStarted then
    decide (rest < late ∧ elapsed3200 c s > c.config.p2pProtectTimeWhenStart) ||
    decide (stuck ∧ elapsed3200 c s > c.config.p2pProtectTimeIfStartAndSpeedIs0)
  else
    decide (w.restPlayTimeWhenSwitched > c.config.safeEnoughRestPlayableTime ∧
      rest < (c.config.p2pRestPlayableTimeDelimWhenSwitchedWithLargeTime +
        timeOfAdvancing c) % 2 ^ 32) ||
    decide (w.restPlayTimeWhenSwitched > 0 ∧ rest < late ∧
      elapsed3200 c s > c.config.p2pProtectTimeWhenSwitchedWithNotEnoughTime) ||
    decide (w.restPlayTimeWhenSwitched = 0 ∧ rest = 0 ∧
      elapsed3200 c s > c.config.p2pProtectTimeWhenSwitchedWithBuffering) ||
    decide (stuck ∧ elapsed3200 c s > c.config.p2pProtectTimeIfSpeedIs0 ∧
      w.restPlayTimeWhenSwitched ≠ 0)

/-- `NeedChangeTo2300`: `none` is `return false`, which leaves everything as it was. -/
def needChangeTo2300 (c : Conditions) (s : LiveDownload) : Option LiveDownload :=
  let w := s.switch
  let rest := c.restPlayableTime
  if c.doesFallBehindTooMuch then some (s.useHttp .fallBehind)
  else if c.config.useCdnToAccelerateBasedOnHistory ∧ c.config.shouldUseCDNWhenLargeUpload ∧
      c.shouldUseCdnToAccelerate then some s.useHttpForLargeUpload
  else if c.config.shouldUseCDNWhenLargeUpload ∧
      (w.isHttpFast ∨ elapsed3200 c s > c.config.timeToIgnoreHttpBad) ∧
      rest > c.config.restPlayTimeDelim ∧ c.isUploadSpeedLargeEnough then
    some s.useHttpForLargeUpload
  else if c.connectedPeersCount = 0 ∧ (w.isStarted → elapsed3200 c s > 5 * 1000) ∧
      c.config.useHttpWhenConnectedNonePeers ∧ rest < c.config.restPlayTimeDelimWhenNonePeers then
    some (s.setChangeToHttpBecauseOfUrgent.useHttp .nonePeers)
  else if c.config.useHttpWhenUrgent ∧ isUrgent c s then
    some (s.setChangeToHttpBecauseOfUrgent.useHttp .urgent)
  else none

/-- `return true` of `NeedChangeTo3200`. -/
def stopUsingHttp (reason : StopHttpCondition) (s : LiveDownload) : Bool × LiveDownload :=
  (true, s.setSwitch fun w => { w with reasonOfStopingHttp := some reason })

/-- The two tests the source makes of an upload that is no longer large. -/
def uploadIsNotLargeEnough (c : Conditions) (s : LiveDownload) : Bool :=
  decide (c.restPlayableTime < c.config.safeRestPlayableTimeDelim ∧
    elapsed2300 c s > c.config.httpProtectTimeWhenLargeUpload) ||
  decide (c.isUploadSpeedSmallEnough ∧
    elapsed2300 c s > c.config.usingCDNOrUdpServerTimeDelim * 1000 % 2 ^ 32)

/-- `NeedChangeTo3200` where HTTP is not for urgent situations. -/
def needChangeTo3200NotUrgent (c : Conditions) (s : LiveDownload) : Bool × LiveDownload :=
  let w := s.switch
  if w.isStarted then
    if c.config.shouldUseCDNWhenLargeUpload ∧ c.isUploadSpeedLargeEnough ∧
        c.restPlayableTime > 0 then (false, s)
    else s.stopUsingHttp .noUseHttpWhenUrgent
  else if c.config.shouldUseCDNWhenLargeUpload ∧ w.changedToHttpBecauseOfLargeUpload then
    if uploadIsNotLargeEnough c s then s.stopUsingHttp .uploadNotLargeEnough else (false, s)
  else s.stopUsingHttp .noUseHttpWhenUrgent

/-- `NeedChangeTo3200` while `is_started_`. -/
def needChangeTo3200Started (c : Conditions) (s : LiveDownload) : Bool × LiveDownload :=
  let rest := c.restPlayableTime
  if c.config.shouldUseCDNWhenLargeUpload ∧ c.isUploadSpeedLargeEnough ∧ rest > 0 then (false, s)
  else if rest > c.config.safeEnoughRestPlayableTime then
    (s.submitChangedToP2PCondition .restPlayableTimeEnougth).stopUsingHttp .restPlayableTimeEnougth
  else if elapsed2300 c s ≥ c.config.httpRunningLongEnoughTimeWhenStart then
    (s.submitChangedToP2PCondition .longTimeUsingCdn).stopUsingHttp .longTimeUsingCdn
  else if elapsed2300 c s ≥ c.config.httpProtectTime2WhenStart ∧
      s.totalDownloadBytes ≤ c.config.httpDownloadBytesDelimWhenStart then
    (s.submitChangedToP2PCondition .block).stopUsingHttp .block
  else if rest = 0 ∧ elapsed2300 c s ≥ c.config.httpProtectTimeWhenStart then
    (s.submitChangedToP2PCondition .block).stopUsingHttp .block
  else (false, s)

/-- `SubmitBlockTimesWhenUseHttpUnderUrgentCondition`, once each time HTTP is used. -/
def submitBlockTimes (c : Conditions) (s : LiveDownload) : LiveDownload :=
  if c.restPlayableTime = 0 ∧ elapsed2300 c s ≤ 10000 ∧ s.switch.blockedThisTime = false then
    { (s.setSwitch fun w => { w with blockedThisTime := true }) with
      blockTimesWhenUseHttpUnderUrgentSituation :=
        s.blockTimesWhenUseHttpUnderUrgentSituation + 1 }
  else s

/-- `NeedChangeTo3200` where HTTP was not chosen for a large upload. -/
def needChangeTo3200Urgent (c : Conditions) (s : LiveDownload) : Bool × LiveDownload :=
  let rest := c.restPlayableTime
  let s := s.submitBlockTimes c
  if rest ≤ s.switch.restPlayTimeWhenSwitched ∧
      elapsed2300 c s > c.config.httpProtectTimeWhenUrgentSwitched then
    s.stopUsingHttp .worseThanP2P
  else if rest > c.config.safeEnoughRestPlayableTime then s.stopUsingHttp .restPlayableTimeEnougth
  else if elapsed2300 c s > c.config.httpRunningLongEnoughTimeWhenUrgentSwitched ∧
      rest > c.config.safeRestPlayableTimeDelim then s.stopUsingHttp .restPlayableTimeNotShort
  else if elapsed2300 c s ≥ c.config.httpRunningLongestTimeWhenUrgentSwitched then
    s.stopUsingHttp .longTimeUsingCdn
  else (false, s)

def needChangeTo3200 (c : Conditions) (s : LiveDownload) : Bool × LiveDownload :=
  if !c.config.useHttpWhenUrgent then s.needChangeTo3200NotUrgent c
  else if s.switch.isStarted then s.needChangeTo3200Started c
  else if c.config.shouldUseCDNWhenLargeUpload = false ∨
      s.switch.changedToHttpBecauseOfLargeUpload = false then s.needChangeTo3200Urgent c
  else if uploadIsNotLargeEnough c s then s.stopUsingHttp .uploadNotLargeEnough
  else (false, s)

def needChangeTo3300 (c : Conditions) : Bool :=
  decide (c.restPlayableTime > c.config.maxRestPlayableTime)

/-- The assertions at the head of `CheckState2300` and `CheckState3200`. -/
def checkTargets (s : LiveDownload) : LiveDownload :=
  s.check (s.getHTTPControlTarget.isSome && s.getP2PControlTarget.isSome)

def checkState2300 (c : Conditions) (s : LiveDownload) : LiveDownload :=
  let s := s.checkTargets
  let rest := c.restPlayableTime
  if needChangeTo3300 c then s.changeTo3300
  else if c.connectedPeersCount = 0 ∧ c.config.useHttpWhenConnectedNonePeers ∧
      rest < c.config.enoughRestPlayTimeDelimWhenNonePeers then s
  else if c.doesFallBehindTooMuch then s
  else
    match s.needChangeTo3200 c with
    | (false, s) => s
    | (true, s) =>
        (s.setSwitch fun w => { w with
          isStarted := false
          isHttpFast := if rest > 20 then true else if rest < 5 then false else w.isHttpFast
          }).changeTo3200 c

def checkState3200 (c : Conditions) (s : LiveDownload) : LiveDownload :=
  let s := s.checkTargets
  if needChangeTo3300 c then s.changeTo3300
  else
    match s.needChangeTo2300 c with
    | none => s
    | some s => (s.setSwitch fun w => { w with isStarted := false }).changeTo2300 c

/-- `CheckState3300` before the first switch. -/
def checkState3300Started (c : Conditions) (s : LiveDownload) : LiveDownload :=
  let http := s.getHTTPControlTarget.isSome
  let p2p := s.getP2PControlTarget.isSome
  if c.config.shouldJudgeSwitchingDatarateManually ∧ s.switch.isTooNearFromLastVvOfSameChannel ∧
      c.restPlayableTime < c.config.restPlayableTimeDelimWhenSwitching ∧ http then
    (s.useHttp .drag).changeTo2300 c
  else if c.config.shouldUseBWType ∧ http ∧ p2p then
    if (s.bwtype = .normal ∨ s.switch.isSavingMode) ∧ s.replay = false ∧ s.isPPLiveLive2 then
      s.changeTo3200 c
    else (s.useHttp .start).changeTo2300 c
  else if http then (s.useHttp .start).resumeHttpDownloader
  else if p2p then s.resumeP2PDownloader
  else s

def checkState3300 (c : Conditions) (s : LiveDownload) : LiveDownload :=
  let http := s.getHTTPControlTarget.isSome
  let p2p := s.getP2PControlTarget.isSome
  if !c.config.useHttpWhenUrgent then
    if p2p then s.resumeP2PDownloader
    else if http then (s.useHttp .noP2P).resumeHttpDownloader
    else s
  else if s.switch.isStarted then s.checkState3300Started c
  else if c.restPlayableTime < c.config.minRestPlayableTime then
    if p2p ∧ http then
      if c.connectedPeersCount = 0 then (s.useHttp .nonePeers).resumeHttpDownloader
      else if c.doesFallBehindTooMuch then (s.useHttp .fallBehind).resumeHttpDownloader
      else s.resumeP2PDownloader
    else if p2p then s.resumeP2PDownloader
    else if http then (s.useHttp .noP2P).resumeHttpDownloader
    else s
  else s

/-- `CheckMemory`: `true` ends the control timer. Without `USE_MEMORY_POOL` there is no
such call. -/
def checkMemory (c : Conditions) (s : LiveDownload) : Bool × LiveDownload :=
  match c.leftCapacity with
  | none => (false, s)
  | some left =>
      if s.switch.isMemoryFull = false then
        if left < 1024 then
          let s := if s.getHTTPControlTarget.isSome then s.pauseHttpDownloader else s
          (true, if s.getP2PControlTarget.isSome then s.pauseP2PDownloader else s)
        else (false, s)
      else if left > 2048 then (false, s.setSwitch fun w => { w with isMemoryFull := false })
      else (true, s)

/-- `OnControlTimer` behind `CheckMemory`. -/
def checkState (c : Conditions) (s : LiveDownload) : LiveDownload :=
  match s.switch.http, s.switch.p2p with
  | .downloading, .pausing =>
      let s := s.checkState2300 c
      if s.switch.http ≠ .downloading then s.stopHttp c.now else s
  | .pausing, .downloading =>
      let s := s.checkState3200 c
      if s.switch.http = .downloading then s.startHttp c.now else s
  | .pausing, .pausing =>
      let s := s.checkState3300 c
      if s.switch.http = .downloading then s.startHttp c.now else s
  | _, _ => s

def onControlTimer (c : Conditions) (s : LiveDownload) : LiveDownload :=
  match s.checkMemory c with
  | (true, s) => s
  | (false, s) => s.checkState c

/-- `LiveSwitchController::OnTimerElapsed`, with `SetSwitchState`. -/
def onTimerElapsed (c : Conditions) (s : LiveDownload) : LiveDownload :=
  let s := s.onControlTimer c
  { s with switchState := (s.switch.http, s.switch.p2p) }

/-- `LiveSwitchController::Start` up to its `OnControlTimer`. -/
def prepareSwitch (isTooNear : Bool) (s : LiveDownload) : LiveDownload :=
  let s := s.setSwitch fun w => { w with
    isTooNearFromLastVvOfSameChannel := isTooNear
    isSavingMode := decide (s.bwtype = .p2pMore) }
  let http := s.getHTTPControlTarget.isSome
  let p2p := s.getP2PControlTarget.isSome
  let s := s.check (http || p2p)
  let s := if http then s.modifyHttp LiveHttpDownloader.pause else s
  let s := if p2p then s.modifyP2P LiveP2PDownloader.pause else s
  let s := s.setSwitch fun w => { w with
    http := if http then .pausing else .none
    p2p := if p2p then .pausing else .none }
  let s :=
    if http && !p2p then s.resumeHttpDownloader
    else if !http && p2p then s.resumeP2PDownloader
    else s
  s.setSwitch fun w => { w with isMemoryFull := false }

/-- The new HTTP downloader of the current stream takes the next number. -/
def startStream (s : LiveDownload) : LiveDownload :=
  { s.modifyStream (LiveStream.start s.bwtype s.created) with created := s.created + 1 }

/-- The constructor and `Start`. -/
def start (bwtype : JumpBWType) (replay isPPLiveLive2 isTooNear : Bool) (ridS : List Nat)
    (c : Conditions) : LiveDownload :=
  onControlTimer c <| prepareSwitch isTooNear <| startStream
    { bwtype, replay, isPPLiveLive2, switch := .created c.now
      dataRateManager := .start ridS c.now
      liveStreams := ridS.map fun _ => LiveStream.created
      httpDownloadStatistic := [], changedToP2PConditionWhenStart := none
      httpDownloadBytesWhenStart := 0, changedToHttpTimesWhenUrgent := 0
      blockTimesWhenUseHttpUnderUrgentSituation := 0, switchState := (.none, .none)
      created := 0, posted := [], asserted := true, received := 0, changes := [] }

/-- `OnDataRateChanged`. The old P2P downloader is asked whether it is pausing, but the
answer is dropped. -/
def onDataRateChanged (s : LiveDownload) : LiveDownload :=
  let last := s.liveStreams[s.dataRateManager.lastDataRatePos]?
  let httpPaused := (last.bind LiveStream.httpDownloader).any LiveHttpDownloader.isHttpPausing
  let p2pPaused := (last.bind LiveStream.p2pDownloader).isNone
  let s := { s with liveStreams := s.liveStreams.map LiveStream.stop }
  let s := s.startStream
  let s := if !httpPaused then s.modifyHttp LiveHttpDownloader.resume else s
  if !p2pPaused then s.modifyP2P LiveP2PDownloader.resume else s

/-- The data rate part of `JumpOrSwitchIfNeeded`. -/
def switchIfNeeded (c : Conditions) (s : LiveDownload) : LiveDownload :=
  if c.config.autoSwitchStream then
    match s.dataRateManager.switchIfNeeded c.now c.restPlayableTime with
    | (true, m) =>
        { { s with dataRateManager := m }.onDataRateChanged with
          changes := (c.now, m.lastDataRatePos, m.currentDataRatePos) :: s.changes }
    | (false, m) => { s with dataRateManager := m }
  else s

/-- What can happen to a download. -/
inductive Event where
  /-- The controller's timer. -/
  | timer (c : Conditions)
  /-- A block is delivered, or the driver's timer finds the position at its start. -/
  | jumpOrSwitch (c : Conditions)
  /-- Bytes arrive for the HTTP downloader, which are counted. -/
  | httpBytes (n : Nat)
  /-- The HTTP downloader's task is given to another: it pauses and posts its `Resume`. -/
  | blockTimeout
  /-- The first posted `Resume` runs. -/
  | resumePosted

def step (s : LiveDownload) : Event → Option LiveDownload
  | .timer c => some (s.onTimerElapsed c)
  | .jumpOrSwitch c => some (s.switchIfNeeded c)
  | .httpBytes n =>
      if s.getHTTPControlTarget.any fun d => d.isHttpPausing = false then
        some { s.modifyHttp fun d => { d with
            totalDownloadBytes := (d.totalDownloadBytes + n) % 2 ^ 32 } with
          received := s.received + n }
      else none
  | .blockTimeout =>
      match s.getHTTPControlTarget with
      | none => none
      | some d =>
          if d.isHttpPausing then none
          else some { s.modifyHttp LiveHttpDownloader.pause with posted := s.posted ++ [d.number] }
  | .resumePosted =>
      match s.posted with
      | [] => none
      | number :: rest =>
          -- a downloader that was replaced is resumed without effect
          some { s.modifyHttp fun d => if d.number = number then d.resume else d with posted := rest }

end LiveDownload

end Live.Switch
