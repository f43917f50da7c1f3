import Mathlib.Logic.Relation
import StupidAR.Renderer.BaseRenderer

/-!
# The threads of a renderer

The calls of the filter graph and of the upstream pin run inside the interface lock, one at a
time, and are given as the list of things they do. One thread delivers samples: it enters the
lock three times in the course of a `Receive` and waits for the render time outside. The
clock, the system timer and a change of the display act whenever they like, the latter two
when the renderer lock is free.
-/

namespace StupidAR

/-- What the thread inside the interface lock does, one thing at a time. -/
inductive Action where
  | setState (st : FilterState)
  | setStart (t : ℤ)
  | setClock (clock : Bool)
  | setConnected (connected : Bool)
  | ready
  | completeStateChange (old : FilterState)
  | canWait (b : Bool)
  | startStreaming
  | stopStreaming
  | cancelNotification
  | killTimer
  | resetEndOfStream
  | clearPendingSample
  | clearAbort
  | inactive
  | waitReceive
  | beginFlush
  | waitFlush
  | endFlush
  | endOfStream
  | completeUnconnected
  | errorAbort (hr : HResult)
  | endStreamOnError
  | setRunTimeError
  deriving DecidableEq

namespace Action

def run (env : Surroundings) (r : BaseRenderer) : Action → BaseRenderer
  | setState st => { r with state := st }
  | setStart t => { r with tStart := t }
  | setClock clock => { r with clock := clock }
  | setConnected true => r.completeConnect
  | setConnected false => { r with connected := false }
  | ready => r.ready
  | completeStateChange old => r.completeStateChange old
  | canWait b => r.sourceThreadCanWait b
  | startStreaming => r.startStreaming env
  | stopStreaming => r.stopStreaming
  | cancelNotification => r.cancelNotification
  | killTimer => r.resetEndOfStreamTimer
  | resetEndOfStream => r.resetEndOfStream
  | clearPendingSample => r.clearPendingSample
  | clearAbort => { r with abort := false }
  | inactive => r.inactive
  | waitReceive => r
  | beginFlush => r.beginFlush
  | waitFlush => r
  | endFlush => r.endFlush
  | endOfStream => r.endOfStream env
  | completeUnconnected => r.notify .completeUnconnected
  | errorAbort hr => r.notify (.errorAbort hr)
  | endStreamOnError => r.endStreamOnError
  | setRunTimeError => { r with runTimeError := true }

/-- `WaitForReceiveToComplete` ends when `m_bInReceive` is found false. -/
def waits : Action → Bool
  | waitReceive | waitFlush => true
  | _ => false

end Action

/-- `CBaseFilter::Pause` and what `CBaseRenderer::Pause` does after it, on a connected pin. -/
def pauseActions (old : FilterState) : List Action :=
  [.setState .paused, .stopStreaming, .canWait true, .cancelNotification, .killTimer] ++
    (if old = .stopped then [.clearAbort, .clearPendingSample] else []) ++
    [.completeStateChange old]

def stopActions : List Action :=
  [.inactive, .setState .stopped, .stopStreaming, .canWait false, .killTimer, .resetEndOfStream,
    .cancelNotification, .ready, .waitReceive, .clearAbort]

/-- `CBaseFilter::Run` pauses a stopped filter before it runs it. -/
def runActions (old : FilterState) (t : ℤ) : List Action :=
  [.ready, .setStart t] ++ (if old = .stopped then pauseActions old else []) ++
    [.setState .running, .canWait true] ++
    (if old = .stopped then [.clearAbort, .clearPendingSample] else []) ++ [.startStreaming]

inductive Request where
  | stop
  | pause
  | run (t : ℤ)
  | setSyncSource (clock : Bool)
  | receiveConnection
  | disconnect
  | beginFlush
  | endFlush
  | endOfStream

namespace Request

def actions (r : BaseRenderer) : Request → List Action
  | stop =>
    if r.state = .stopped then []
    else if r.connected = false then [.setState .stopped]
    else stopActions
  | pause =>
    if r.state = .paused then [.completeStateChange .paused]
    else if r.connected = false then [.setState .paused, .completeStateChange .paused]
    else pauseActions r.state
  | run t =>
    if r.state = .running then []
    else if r.connected = false then [.completeUnconnected, .setState .running]
    else runActions r.state t
  | setSyncSource clock => [.setClock clock]
  | receiveConnection =>
    if r.connected = true ∨ r.state ≠ .stopped then [] else [.setConnected true]
  | disconnect =>
    if r.state ≠ .stopped ∨ r.connected = false then []
    else [.killTimer, .resetEndOfStream, .clearPendingSample, .clearAbort, .setConnected false]
  | beginFlush => [.beginFlush, .waitFlush, .killTimer, .resetEndOfStream]
  | endFlush => [.endFlush]
  | endOfStream => [.endOfStream]

/-- The graph changes the clock of a stopped filter only; only a connected pin is called by
the pin it is connected to. -/
def Allowed (r : BaseRenderer) : Request → Prop
  | setSyncSource _ => r.state = .stopped
  | beginFlush | endFlush | endOfStream => r.connected = true
  | _ => True

end Request

/-- Where the source thread is in `Receive`. -/
inductive Source where
  | idle
  | prepared
  | pauseSeen
  | firstSample
  | signalReady
  | waiting
  | cancelled
  | fired
  | rendering
  | renderLock
  | failed (hr : HResult)
  deriving DecidableEq

structure System where
  renderer : BaseRenderer := {}
  locked : List Action := []
  source : Source := .idle

def Source.afterPrepare (hr : HResult) : Source :=
  if hr.failed = false then prepared
  else if hr = .sampleRejected then idle
  else failed hr

/-- What the input pin does about a failed `Receive`. -/
def errorActions (hr : HResult) (r : BaseRenderer) : List Action :=
  if r.state ≠ .stopped ∧ r.flushing = false ∧ r.abort = false ∧ r.runTimeError = false then
    [.errorAbort hr, .endStreamOnError, .setRunTimeError]
  else []

namespace System

variable (s : System)

/-- Nobody is inside the renderer lock for longer than a step: `BeginFlush` keeps it while it
waits for `Receive`. -/
def RendererFree : Prop := ∀ rest, s.locked ≠ .waitFlush :: rest

/-- A call enters the interface lock. -/
inductive CallStep : System → System → Prop
  | call {s : System} (c : Request) (free : s.locked = []) (allowed : c.Allowed s.renderer) :
    CallStep s { s with locked := c.actions s.renderer }

/-- The thread inside the interface lock goes on. -/
inductive ActStep : System → System → Prop
  | act {s : System} (env : Surroundings) {a : Action} {rest : List Action}
    (head : s.locked = a :: rest) (go : a.waits = true → s.renderer.inReceive = false) :
    ActStep s { s with renderer := a.run env s.renderer, locked := rest }

/-- The source thread goes on outside the interface lock. -/
inductive SourceStep : System → System → Prop
  | paused {s : System} (pc : s.source = .prepared) (h : s.renderer.state = .paused) :
    SourceStep s { s with source := .pauseSeen }
  | notPaused {s : System} (pc : s.source = .prepared) (h : s.renderer.state ≠ .paused) :
    SourceStep s { s with source := .waiting }
  | leave {s : System} (pc : s.source = .pauseSeen) :
    SourceStep s { s with source := .firstSample, renderer.inReceive := false }
  | ready {s : System} (pc : s.source = .signalReady) :
    SourceStep s { s with source := .waiting, renderer := s.renderer.ready }
  | cancel {s : System} (pc : s.source = .waiting) (h : s.renderer.threadSignal = true) :
    SourceStep s { s with source := .cancelled }
  | fire {s : System} (pc : s.source = .waiting) (h : s.renderer.threadSignal = false)
    (h' : s.renderer.renderEvent = true) :
    SourceStep s { s with source := .fired, renderer.renderEvent := false }
  | giveUp {s : System} (pc : s.source = .cancelled) :
    SourceStep s { s with source := .idle, renderer.inReceive := false }
  | fired {s : System} (pc : s.source = .fired) :
    SourceStep s { s with source := .rendering, renderer := s.renderer.signalTimerFired }
  | render {s : System} (pc : s.source = .rendering) :
    SourceStep s { s with source := .renderLock, renderer.inReceive := false }

/-- The source thread enters the interface lock. -/
inductive EntryStep : System → System → Prop
  | receive {s : System} (env : Surroundings) (d : Delivery) (free : s.locked = [])
    (pc : s.source = .idle) (connected : s.renderer.connected = true) :
    EntryStep s { s with
      renderer := (s.renderer.prepareReceive env d).2
      source := .afterPrepare (s.renderer.prepareReceive env d).1 }
  | firstSampleStopped {s : System} (free : s.locked = []) (pc : s.source = .firstSample)
    (h : s.renderer.state = .stopped) : EntryStep s { s with source := .idle }
  | firstSample {s : System} (free : s.locked = []) (pc : s.source = .firstSample)
    (h : s.renderer.state ≠ .stopped) :
    EntryStep s { s with source := .signalReady, renderer.inReceive := true }
  | renderStopped {s : System} (free : s.locked = []) (pc : s.source = .renderLock)
    (h : s.renderer.state = .stopped) : EntryStep s { s with source := .idle }
  | finish {s : System} (env : Surroundings) (free : s.locked = [])
    (pc : s.source = .renderLock) (h : s.renderer.state ≠ .stopped) :
    EntryStep s { s with source := .idle, renderer := s.renderer.finishReceive env }
  | failed {s : System} {hr : HResult} (free : s.locked = []) (pc : s.source = .failed hr) :
    EntryStep s { s with source := .idle, locked := errorActions hr s.renderer }

/-- The clock sets the render event, the timer calls back or the display changes. -/
inductive ExternalStep : System → System → Prop
  | clock {s : System} : ExternalStep s { s with renderer.renderEvent := true }
  | timer {s : System} (env : Surroundings) (free : s.RendererFree) :
    ExternalStep s { s with renderer := s.renderer.timerCallback env }
  | display {s : System} (free : s.RendererFree) :
    ExternalStep s { s with renderer := s.renderer.onDisplayChange }

inductive Step (s s' : System) : Prop
  | call (h : CallStep s s')
  | act (h : ActStep s s')
  | source (h : SourceStep s s')
  | entry (h : EntryStep s s')
  | external (h : ExternalStep s s')

/-- The states of a new filter's runs. -/
def Reachable (s : System) : Prop := Relation.ReflTransGen Step {} s

end System

end StupidAR
