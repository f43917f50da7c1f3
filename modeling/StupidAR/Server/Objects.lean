import StupidAR.Counting.Memory

/-!
# The objects of the server

The class factories, filters and enumerators that clients of the DLL hold interface pointers
to: their reference counts, what they hold themselves, and the counts of objects and locks by
which the DLL decides whether it may be unloaded. All counts are 32-bit integers, and a `new`
that finds no memory throws, but for the one in `CreateFilter`.
-/

namespace StupidAR

open Counting

structure Guid where
  data1 : ℕ
  data2 : ℕ
  data3 : ℕ
  data4 : List ℕ
  deriving DecidableEq

def kMyFilterGuid : Guid :=
  ⟨0x13f5a78d, 0x2331, 0x4edc, [0xa5, 0xc3, 0xb2, 0xec, 0x95, 0x34, 0x63, 0xbb]⟩

def kMyFilterName : String := "Stupid Audio Renderer"

inductive MediaMajorType where
  | audio
  deriving DecidableEq

inductive MediaSubtype where
  | pcm
  | ieeeFloat
  deriving DecidableEq

def kSetupMediaTypes : List (MediaMajorType × MediaSubtype) :=
  [(.audio, .pcm), (.audio, .ieeeFloat)]

structure SetupPin where
  name : String
  rendered : Bool
  output : Bool
  zero : Bool
  many : Bool
  connectsToFilter : Guid
  connectsToPin : Option String
  mediaTypes : List (MediaMajorType × MediaSubtype)
  deriving DecidableEq

def clsidNull : Guid :=
  ⟨0, 0, 0, [0, 0, 0, 0, 0, 0, 0, 0]⟩

def kSetupPins : List SetupPin :=
  [⟨"", true, false, false, false, clsidNull, none, kSetupMediaTypes⟩]

structure SetupFilter where
  clsID : Guid
  name : String
  merit : ℕ
  pins : List SetupPin
  deriving DecidableEq

def meritDoNotUse : ℕ := 0x200000

def kSetupFilter : SetupFilter :=
  ⟨kMyFilterGuid, kMyFilterName, meritDoNotUse, kSetupPins⟩

/-- `CFactoryTemplate`; the function that makes an object is `CreateFilter` in every one. -/
structure FactoryTemplate where
  name : String
  clsID : Guid
  setupFilter : Option SetupFilter
  deriving DecidableEq

def gTemplates : List FactoryTemplate :=
  [⟨kMyFilterName, kMyFilterGuid, some kSetupFilter⟩]

/-- The interfaces the objects know, and any other. -/
inductive Iid where
  | unknown
  | classFactory
  | baseFilter
  | mediaFilter
  | persist
  | aMovieSetup
  | mediaPosition
  | mediaSeeking
  | pin
  | qualityControl
  | memInputPin
  | enumPins
  | enumMediaTypes
  | other (iid : Guid)
  deriving DecidableEq

inductive ComError where
  | noInterface
  | outOfMemory
  | classNotAvailable
  | notFound
  | enumOutOfSync
  | invalidArg
  deriving DecidableEq

/-- Where a filter is, and its owner when it is aggregated: `CUnknown::m_pUnknown` never
changes. -/
structure Filter where
  self : ℕ
  outer : Option ℕ
  deriving DecidableEq

def Filter.getOwner (f : Filter) : ℕ :=
  f.outer.getD f.self

/-- An interface pointer. `unknown` is the non-delegating `IUnknown` of a filter, `filter` any
of the interfaces that delegate to its owner; `outer` points to an object of a client, which
may aggregate filters. -/
inductive Pointer where
  | factory (i : ℕ)
  | unknown (f : Filter)
  | filter (f : Filter)
  | pin (f : Filter)
  | position (f : Filter)
  | enumPins (i : ℕ)
  | enumMediaTypes (i : ℕ)
  | outer (i : ℕ)
  deriving DecidableEq

/-- The object whose count `AddRef` and `Release` of an interface change: those of a pin and
of the position object are the owner's. -/
def Pointer.counted : Pointer → ℕ
  | factory i | enumPins i | enumMediaTypes i | outer i => i
  | unknown f => f.self
  | filter f | pin f | position f => f.getOwner

/-- What an object keeps. A filter owns its input pin and its position object; an aggregating
object keeps the `IUnknown` of the filters it has made. -/
inductive Body where
  | classFactory
  | renderer (outer : Option ℕ) (inputPin position : Bool)
  | enumPins (filter : Filter) (position pinCount : ℕ) (pinCache : Bool)
  | enumMediaTypes (pin : Filter)
  | outer (inner : List Filter)
  deriving DecidableEq

/-- The interface pointers an object holds. -/
def Body.pointers : Body → List Pointer
  | classFactory | renderer .. => []
  | enumPins f .. => [.filter f]
  | enumMediaTypes f => [.pin f]
  | outer inner => inner.map .unknown

def Body.holds (b : Body) : List ℕ :=
  b.pointers.map Pointer.counted

def Body.withPin : Body → Body
  | renderer owner _ position => .renderer owner true position
  | b => b

def Body.withPosition : Body → Body
  | renderer owner inputPin _ => .renderer owner inputPin true
  | b => b

def Body.withPins (position pinCount : ℕ) (pinCache : Bool) : Body → Body
  | enumPins f _ _ _ => .enumPins f position pinCount pinCache
  | b => b

def Body.adopt (f : Filter) : Body → Body
  | outer inner => .outer (f :: inner)
  | b => b

/-- How many instances of `CBaseObject` there are in an object. -/
def Body.baseObjects : Body → ℤ
  | classFactory => 1
  | renderer _ inputPin position => 1 + inputPin.toNat + position.toNat
  | enumPins .. | enumMediaTypes .. | outer _ => 0

/-- How far `new MyRenderer` gets: the events of the filter may not be to be had. -/
inductive Construction where
  | noMemory
  | noEvents
  | done
  deriving DecidableEq

/-- How a function ends: it returns, or a `std::bad_alloc` leaves it. The references that were
taken on the way and that nobody gives up any more are lost then. -/
inductive Ending (α : Type) where
  | returned (result : α)
  | thrown (lost : List Pointer)
  deriving DecidableEq

def Ending.lost {α : Type} : Ending α → List Pointer
  | returned _ => []
  | thrown lost => lost

abbrev Object := Cell 32 ℕ Body

/-- The DLL: the objects in memory, a free address, `CBaseObject::m_cObjects` and
`CClassFactory::m_cLocked`. -/
structure Server where
  memory : List Object := []
  next : ℕ := 0
  objects : BitVec 32 := 0
  locked : BitVec 32 := 0
  deriving DecidableEq

/-- What a call that asks for an interface pointer comes to. -/
abbrev Reply := Server × Ending (Except ComError Pointer)

namespace Server

variable (s : Server)

/-- `new`, with the constructor's `CBaseObject` counted in. -/
def construct (count : BitVec 32) (b : Body) : Server :=
  { s with
    memory := ⟨s.next, count, b⟩ :: s.memory
    next := s.next + 1
    objects := s.objects + BitVec.ofInt 32 b.baseObjects }

def addRef (p : Pointer) : Server :=
  { s with memory := Counting.addRef p.counted s.memory }

/-- The decrement of a count and `delete this` at zero; the destructors count out what was
counted in. -/
def drop (i : ℕ) : Server × Option Body :=
  match Counting.release i s.memory with
  | (m, some b) =>
    ({ s with memory := m, objects := s.objects - BitVec.ofInt 32 b.baseObjects }, some b)
  | (m, none) => ({ s with memory := m }, none)

/-- `CUnknown::NonDelegatingRelease` of a filter. -/
def nonDelegatingRelease (f : Filter) : Server :=
  (s.drop f.self).1

/-- `Release` of an aggregating object, which gives up the filters it made when it goes. -/
def outerRelease (i : ℕ) : Server :=
  match s.drop i with
  | (s', some (.outer inner)) => inner.foldl nonDelegatingRelease s'
  | (s', _) => s'

/-- `CBaseFilter::Release`, and that of its pin and its position object. -/
def filterRelease (f : Filter) : Server :=
  match f.outer with
  | none => s.nonDelegatingRelease f
  | some i => s.outerRelease i

/-- `CEnumPins::Release`. -/
def enumPinsRelease (i : ℕ) : Server :=
  match s.drop i with
  | (s', some (.enumPins f ..)) => s'.filterRelease f
  | (s', _) => s'

/-- `CEnumMediaTypes::Release`. -/
def enumMediaTypesRelease (i : ℕ) : Server :=
  match s.drop i with
  | (s', some (.enumMediaTypes f)) => s'.filterRelease f
  | (s', _) => s'

def release : Pointer → Server
  | .factory i => (s.drop i).1
  | .unknown f => s.nonDelegatingRelease f
  | .filter f | .pin f | .position f => s.filterRelease f
  | .enumPins i => s.enumPinsRelease i
  | .enumMediaTypes i => s.enumMediaTypesRelease i
  | .outer i => s.outerRelease i

def hasPin (f : Filter) : Bool :=
  match find f.self s.memory with
  | some ⟨_, _, .renderer _ inputPin _⟩ => inputPin
  | _ => false

def hasPosition (f : Filter) : Bool :=
  match find f.self s.memory with
  | some ⟨_, _, .renderer _ _ position⟩ => position
  | _ => false

/-- The filter makes its input pin. -/
def createPin (f : Filter) : Server :=
  { s with
    memory := setBody f.self Body.withPin s.memory
    objects := s.objects + 1 }

/-- The filter makes its position object. -/
def createPosition (f : Filter) : Server :=
  { s with
    memory := setBody f.self Body.withPosition s.memory
    objects := s.objects + 1 }

/-- `CBaseRenderer::GetPin`, where `new` may throw. No reference is added. -/
def getPin (f : Filter) (n : ℕ) (alloc : Bool) : Server × Ending (Option Pointer) :=
  if n ≠ 0 then (s, .returned none)
  else if s.hasPin f then (s, .returned (some (.pin f)))
  else if alloc then (s.createPin f, .returned (some (.pin f)))
  else (s, .thrown [])

/-- `CBaseRenderer::GetPinCount`. -/
def getPinCount (f : Filter) (alloc : Bool) : Server × Ending ℕ :=
  match s.getPin f 0 alloc with
  | (s', .returned _) => (s', .returned (s'.hasPin f).toNat)
  | (s', .thrown lost) => (s', .thrown lost)

/-- `CBaseRenderer::FindPin`. -/
def findPin (f : Filter) (id : String) (alloc : Bool) : Reply :=
  if id = "In" then
    match s.getPin f 0 alloc with
    | (s', .returned (some p)) => (s'.addRef p, .returned (.ok p))
    | (s', .returned none) => (s', .returned (.error .outOfMemory))
    | (s', .thrown lost) => (s', .thrown lost)
  else (s, .returned (.error .notFound))

/-- `CBaseRenderer::GetMediaPositionInterface`. -/
def getMediaPositionInterface (f : Filter) (allocPin allocPosition : Bool) : Reply :=
  if s.hasPosition f then (s.addRef (.position f), .returned (.ok (.position f)))
  else
    match s.getPin f 0 allocPin with
    | (s', .returned none) => (s', .returned (.error .outOfMemory))
    | (s', .returned (some _)) =>
      if allocPosition then
        ((s'.createPosition f).addRef (.position f), .returned (.ok (.position f)))
      else (s', .thrown [])
    | (s', .thrown lost) => (s', .thrown lost)

/-- `CBaseRenderer::NonDelegatingQueryInterface`, down to `CUnknown`'s. -/
def nonDelegatingQueryInterface (f : Filter) (riid : Iid) (allocPin allocPosition : Bool) :
    Reply :=
  match riid with
  | .mediaPosition | .mediaSeeking => s.getMediaPositionInterface f allocPin allocPosition
  | .baseFilter | .mediaFilter | .persist | .aMovieSetup =>
    (s.addRef (.filter f), .returned (.ok (.filter f)))
  | .unknown => (s.addRef (.unknown f), .returned (.ok (.unknown f)))
  | _ => (s, .returned (.error .noInterface))

/-- `QueryInterface` of an object that knows the interfaces `known`. -/
def queryOwn (p : Pointer) (known : List Iid) (riid : Iid) : Reply :=
  if riid ∈ known then (s.addRef p, .returned (.ok p))
  else (s, .returned (.error .noInterface))

/-- `QueryInterface` of the objects that answer for themselves; a filter that is aggregated,
and its position object, leave it to their owner. -/
def queryInterface (p : Pointer) (riid : Iid) (allocPin allocPosition : Bool) : Reply :=
  match p with
  | .unknown f | .filter f | .position f =>
    s.nonDelegatingQueryInterface f riid allocPin allocPosition
  | .factory _ => s.queryOwn p [.unknown, .classFactory] riid
  | .pin _ => s.queryOwn p [.unknown, .pin, .qualityControl, .memInputPin] riid
  | .enumPins _ => s.queryOwn p [.unknown, .enumPins] riid
  | .enumMediaTypes _ => s.queryOwn p [.unknown, .enumMediaTypes] riid
  | .outer _ => s.queryOwn p [.unknown] riid

/-- `CreateFilter`, with what it leaves in `*pResult`. -/
def createFilter (outer : Option ℕ) (c : Construction) :
    Server × Option Filter × Option ComError :=
  match c with
  | .noMemory => (s, none, some .outOfMemory)
  | .noEvents =>
    (s.construct 0 (.renderer outer false false), some ⟨s.next, outer⟩, some .outOfMemory)
  | .done => (s.construct 0 (.renderer outer false false), some ⟨s.next, outer⟩, none)

def delete (i : ℕ) : Server :=
  match find i s.memory with
  | some c =>
    { s with
      memory := erase i s.memory
      objects := s.objects - BitVec.ofInt 32 c.body.baseObjects }
  | none => s

/-- `CClassFactory::CreateInstance`. An exception leaves it between `NonDelegatingAddRef` and
`NonDelegatingRelease`. -/
def createInstance (outer : Option ℕ) (riid : Iid) (c : Construction)
    (allocPin allocPosition : Bool) : Reply :=
  if outer.isSome ∧ riid ≠ .unknown then (s, .returned (.error .noInterface))
  else
    match s.createFilter outer c with
    | (s', none, hr) => (s', .returned (.error (hr.getD .outOfMemory)))
    | (s', some f, some hr) => (s'.delete f.self, .returned (.error hr))
    | (s', some f, none) =>
      match (s'.addRef (.unknown f)).nonDelegatingQueryInterface f riid allocPin
        allocPosition with
      | (s'', .returned result) => (s''.nonDelegatingRelease f, .returned result)
      | (s'', .thrown lost) => (s'', .thrown (.unknown f :: lost))

/-- The aggregating object at `i` keeps the `IUnknown` of a filter it has made. -/
def adopt (i : ℕ) (f : Filter) : Server :=
  { s with memory := setBody i (Body.adopt f) s.memory }

/-- `CClassFactory::LockServer`. -/
def lockServer (lock : Bool) : Server :=
  { s with locked := if lock then s.locked + 1 else s.locked - 1 }

def dllGetClassObject (clsID : Guid) (riid : Iid) (alloc : Bool) : Reply :=
  if riid ≠ .unknown ∧ riid ≠ .classFactory then (s, .returned (.error .noInterface))
  else if gTemplates.any (fun t => t.clsID = clsID) then
    if alloc then
      ((s.construct 0 .classFactory).addRef (.factory s.next),
        .returned (.ok (.factory s.next)))
    else (s, .thrown [])
  else (s, .returned (.error .classNotAvailable))

/-- `DllCanUnloadNow` answers `S_OK`. -/
def dllCanUnloadNow : Bool :=
  ¬ (0 < s.locked.toInt) ∧ s.objects = 0

/-- What an enumerator of pins remembers. -/
def setEnumPins (i position pinCount : ℕ) (pinCache : Bool) : Server :=
  { s with memory := setBody i (Body.withPins position pinCount pinCache) s.memory }

/-- `CBaseFilter::EnumPins` and the constructor of `CEnumPins`. The destructor, which would
release the filter, does not run for an object that is not constructed. -/
def enumPins (f : Filter) (alloc allocPin : Bool) : Reply :=
  if alloc then
    match (s.addRef (.filter f)).getPinCount f allocPin with
    | (s', .returned pinCount) =>
      (s'.construct 1 (.enumPins f 0 pinCount false), .returned (.ok (.enumPins s'.next)))
    | (s', .thrown lost) => (s', .thrown (.filter f :: lost))
  else (s, .thrown [])

/-- `CEnumPins::Clone` of an enumerator that remembers this. The cache is copied node by node. -/
def cloneEnumPins (f : Filter) (position pinCount : ℕ) (pinCache alloc allocNode : Bool) :
    Reply :=
  if alloc then
    let s' := s.addRef (.filter f)
    if pinCache = true ∧ allocNode = false then (s', .thrown [.filter f])
    else
      (s'.construct 1 (.enumPins f position pinCount pinCache),
        .returned (.ok (.enumPins s'.next)))
  else (s, .thrown [])

/-- The loop of `CEnumPins::Next`, over the pins that are left: the pins it has put in its place
and what becomes of it. -/
def nextPins (i : ℕ) (f : Filter) (pinCount : ℕ) (allocPin allocNode : Bool) :
    ℕ → ℕ → ℕ → Bool → Server → Server × List Pointer × Ending (Option ComError)
  | 0, _, _, _, s => (s, [], .returned none)
  | _ + 1, 0, _, _, s => (s, [], .returned none)
  | left + 1, wanted + 1, position, pinCache, s =>
    match s.getPin f position allocPin with
    | (s', .thrown lost) => (s'.setEnumPins i (position + 1) pinCount pinCache, [], .thrown lost)
    | (s', .returned none) =>
      (s'.setEnumPins i (position + 1) pinCount pinCache, [], .returned (some .enumOutOfSync))
    | (s', .returned (some p)) =>
      if pinCache then
        nextPins i f pinCount allocPin allocNode left (wanted + 1) (position + 1) true
          (s'.setEnumPins i (position + 1) pinCount true)
      else if allocNode then
        let r := nextPins i f pinCount allocPin allocNode left wanted (position + 1) true
          ((s'.addRef p).setEnumPins i (position + 1) pinCount true)
        (r.1, p :: r.2.1, r.2.2)
      else ((s'.addRef p).setEnumPins i (position + 1) pinCount false, [p], .thrown [])

/-- `CEnumPins::Next` of an enumerator that remembers this; without a place to report their
number, only one pin is fetched. -/
def nextEnumPins (i : ℕ) (f : Filter) (position pinCount : ℕ) (pinCache : Bool) (wanted : ℕ)
    (fetched allocPin allocNode : Bool) : Server × List Pointer × Ending (Option ComError) :=
  if ¬ fetched ∧ 1 < wanted then (s, [], .returned (some .invalidArg))
  else
    nextPins i f pinCount allocPin allocNode (pinCount - position) wanted position pinCache s

/-- `CEnumPins::Skip`; skipping too much skips nothing. -/
def skipPins (i position pinCount : ℕ) (pinCache : Bool) (n : ℕ) : Server :=
  if pinCount - position < n then s else s.setEnumPins i (position + n) pinCount pinCache

/-- `CEnumPins::Reset`. -/
def resetPins (i : ℕ) (f : Filter) (allocPin : Bool) : Server × Ending Unit :=
  match s.getPinCount f allocPin with
  | (s', .returned pinCount) => (s'.setEnumPins i 0 pinCount false, .returned ())
  | (s', .thrown lost) => (s', .thrown lost)

/-- `CBasePin::QueryPinInfo`, as far as it gives out the filter. -/
def queryPinInfo (f : Filter) : Reply :=
  (s.addRef (.filter f), .returned (.ok (.filter f)))

/-- `CBasePin::EnumMediaTypes`, and `CEnumMediaTypes::Clone`. -/
def enumMediaTypes (f : Filter) (alloc : Bool) : Reply :=
  if alloc then
    let s' := s.addRef (.pin f)
    (s'.construct 1 (.enumMediaTypes f), .returned (.ok (.enumMediaTypes s'.next)))
  else (s, .thrown [])

end Server

end StupidAR
