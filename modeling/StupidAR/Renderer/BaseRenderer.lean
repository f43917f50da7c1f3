import Mathlib.Algebra.Group.Nat.Even
import Mathlib.Data.Int.Basic

/-!
# The base renderer

The state of `CBaseRenderer` and of its input pin, and what each member function does to it,
as `MyRenderer` inherits them: `MyRenderer` accepts every media type and its own
`DoRenderSample` has no effect on the filter. A function here is one that runs to its end
without letting another thread at what it works on; the calls made of several are in the next
module.
-/

namespace StupidAR

inductive FilterState where
  | stopped
  | paused
  | running
  deriving DecidableEq

/-- The results that the renderer distinguishes or passes on. -/
inductive HResult where
  | ok
  | sFalse
  | fail
  | unexpected
  | outOfMemory
  | wrongState
  | runTimeError
  | sampleRejected
  deriving DecidableEq

def HResult.failed : HResult → Bool
  | ok | sFalse => false
  | _ => true

/-- A media sample, with what its `GetTime` answers. -/
structure MediaSample where
  id : ℕ
  time : Option (ℤ × ℤ)
  deriving DecidableEq

/-- A sample as it reaches `Receive`: whether its properties can be read, whether the media
type it may carry can be copied, and the stop time among its properties. -/
structure Delivery where
  sample : MediaSample
  properties : Bool
  mediaType : Bool
  tStop : ℤ

/-- What the reference clock and the system timers answer at one moment. -/
structure Surroundings where
  getTime : ℤ
  adviseTime : ℤ → ℤ → Option ℕ
  timeSetEvent : ℤ → ℕ
  cookie_ne_zero : ∀ {base start : ℤ} {cookie : ℕ},
    adviseTime base start = some cookie → cookie ≠ 0

/-- What the renderer does with samples and tells the filter graph. The two completions are
the same event, from a filter that plays a stream and from one that is run unconnected. The
last two notices mark where what was said about a stream, or about an error, is forgotten. -/
inductive Notice where
  | addRef (s : MediaSample)
  | release (s : MediaSample)
  | rendered (s : MediaSample)
  | complete
  | completeUnconnected
  | errorAbort (hr : HResult)
  | displayChanged
  | streamReset
  | errorReset
  deriving DecidableEq

structure BaseRenderer where
  state : FilterState := .stopped
  connected : Bool := false
  flushing : Bool := false
  runTimeError : Bool := false
  clock : Bool := false
  tStart : ℤ := 0
  evComplete : Bool := true
  renderEvent : Bool := false
  threadSignal : Bool := false
  abort : Bool := false
  streaming : Bool := false
  advise : ℕ := 0
  mediaSample : Option MediaSample := none
  eos : Bool := false
  eosDelivered : Bool := false
  inReceive : Bool := false
  signalTime : ℤ := 0
  endOfStreamTimer : ℕ := 0
  notices : List Notice := []

/-- The time of a sample as `ScheduleSample` takes it: refused, due now, or due at a time. -/
inductive SampleTimes where
  | startAfterEnd
  | now
  | due (start : ℤ)

namespace BaseRenderer

variable (env : Surroundings) (r : BaseRenderer)

def notify (n : Notice) : BaseRenderer := { r with notices := r.notices ++ [n] }

def ready : BaseRenderer := { r with evComplete := true }

def notReady : BaseRenderer := { r with evComplete := false }

def sourceThreadCanWait (canWait : Bool) : BaseRenderer := { r with threadSignal := !canWait }

def signalTimerFired : BaseRenderer := { r with advise := 0 }

def cancelNotification : BaseRenderer :=
  if r.advise = 0 then { r with renderEvent := false }
  else { r.signalTimerFired with renderEvent := false }

def clearPendingSample : BaseRenderer :=
  match r.mediaSample with
  | none => r
  | some s => { r.notify (.release s) with mediaSample := none }

def getSampleTimes (s : MediaSample) : SampleTimes :=
  match s.time with
  | none => .now
  | some (start, stop) =>
    if stop < start then .startAfterEnd
    else if r.clock = false then .now
    else .due start

/-- `none` where the source answers `FALSE`, having changed nothing. -/
def scheduleSample (s : MediaSample) : Option BaseRenderer :=
  match r.getSampleTimes s with
  | .startAfterEnd => none
  | .now => some { r with renderEvent := true }
  | .due start => (env.adviseTime r.tStart start).map fun cookie => { r with advise := cookie }

def notifyEndOfStream : BaseRenderer :=
  if r.streaming = false then r
  else { r.notify .complete with endOfStreamTimer := 0, eosDelivered := true }

/-- Milliseconds until the last sample ends: a difference of 64-bit times, which wraps around,
cut to a 32-bit `LONG`. -/
def endOfStreamDelay : ℤ :=
  (((r.tStart + r.signalTime - env.getTime).bmod (2 ^ 64)).tdiv 10000).bmod (2 ^ 32)

def sendEndOfStream : BaseRenderer :=
  if r.eos = false ∨ r.eosDelivered = true ∨ r.endOfStreamTimer ≠ 0 then r
  else if r.clock = false ∨ r.endOfStreamDelay env < 50 ∨
      env.timeSetEvent (r.endOfStreamDelay env) = 0 then
    r.notifyEndOfStream
  else { r with endOfStreamTimer := env.timeSetEvent (r.endOfStreamDelay env) }

def timerCallback : BaseRenderer :=
  if r.endOfStreamTimer = 0 then r
  else sendEndOfStream env { r with endOfStreamTimer := 0 }

def resetEndOfStreamTimer : BaseRenderer := { r with endOfStreamTimer := 0 }

/-- The part of `ResetEndOfStream` that holds the renderer lock. -/
def resetEndOfStream : BaseRenderer :=
  { r.notify .streamReset with eos := false, eosDelivered := false, signalTime := 0 }

def startStreaming : BaseRenderer :=
  if r.streaming = true then r
  else
    match r.mediaSample with
    | none => sendEndOfStream env { r with streaming := true }
    | some s =>
      (scheduleSample env { r with streaming := true } s).getD
        { r with streaming := true, renderEvent := true }

def stopStreaming : BaseRenderer :=
  { r.notify .streamReset with eosDelivered := false, streaming := false }

def completeStateChange (old : FilterState) : BaseRenderer :=
  if r.connected = false then r.ready
  else if r.eos = true then r.ready
  else if r.mediaSample.isSome = true ∧ old ≠ .stopped then r.ready
  else r.notReady

def checkStreaming : HResult :=
  if r.state = .stopped then .wrongState
  else if r.flushing = true then .sFalse
  else if r.runTimeError = true then .runTimeError
  else .ok

/-- `CRendererInputPin::Inactive`. -/
def inactive : BaseRenderer :=
  ({ r with runTimeError := false }.notify .errorReset).clearPendingSample

/-- `CRendererInputPin::EndOfStream`. -/
def endOfStream : BaseRenderer :=
  if r.checkStreaming ≠ .ok ∨ r.state = .stopped then r
  else if r.mediaSample.isSome = true then { r with eos := true }
  else if r.streaming = true then sendEndOfStream env { r with eos := true, evComplete := true }
  else { r with eos := true, evComplete := true }

/-- `CRendererInputPin::BeginFlush` up to the wait for `Receive`. -/
def beginFlush : BaseRenderer :=
  let r : BaseRenderer := { r with flushing := true }
  let r := if r.state = .paused then r.notReady else r
  (r.sourceThreadCanWait false).cancelNotification.clearPendingSample

/-- `CRendererInputPin::EndFlush`. -/
def endFlush : BaseRenderer :=
  { (r.sourceThreadCanWait true).notify .errorReset with flushing := false, runTimeError := false }

/-- The pin is connected to an output pin. -/
def completeConnect : BaseRenderer := { r with connected := true, abort := false }

def onDisplayChange : BaseRenderer :=
  if r.connected = false then r
  else { r.notify .displayChanged with abort := true }.clearPendingSample

def keepSample (d : Delivery) : BaseRenderer :=
  { r.notify (.addRef d.sample) with signalTime := d.tStop, mediaSample := some d.sample }

/-- `PrepareReceive` behind the checks of the input pin. -/
def acceptSample (d : Delivery) : HResult × BaseRenderer :=
  if r.mediaSample.isSome = true ∨ r.eos = true ∨ r.abort = true then
    (.unexpected, { r.ready with inReceive := false })
  else if r.streaming = true then
    match scheduleSample env r d.sample with
    | none => (.sampleRejected, { r with inReceive := false })
    | some r => (.ok, r.keepSample d)
  else (.ok, r.keepSample d)

def prepareReceive (d : Delivery) : HResult × BaseRenderer :=
  let r : BaseRenderer := { r with inReceive := true }
  if r.checkStreaming ≠ .ok ∨ d.properties = false then (.fail, { r with inReceive := false })
  else if d.mediaType = false then (.outOfMemory, { r with inReceive := false })
  else r.acceptSample env d

def render : BaseRenderer :=
  match r.mediaSample with
  | none => r
  | some s => if r.streaming = false then r else r.notify (.rendered s)

/-- The end of `Receive`, with both locks held and the filter not stopped. -/
def finishReceive : BaseRenderer :=
  (sendEndOfStream env r.render.clearPendingSample).cancelNotification

/-- The end of stream that goes with an aborting error. -/
def endStreamOnError : BaseRenderer :=
  if r.streaming = true ∧ r.eosDelivered = false then r.notifyEndOfStream else r

end BaseRenderer

end StupidAR
