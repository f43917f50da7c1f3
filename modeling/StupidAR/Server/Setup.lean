import StupidAR.Server.Objects
import StupidAR.Server.Registry

/-!
# Registering the filter

`DllRegisterServer` and `DllUnregisterServer`: the base classes register the filter in the
default category, from where `DllRegUnregServer` moves it to the audio renderers.
-/

namespace StupidAR

/-- What `UnregisterFilter` returns for a filter that is not registered. -/
def Status.notRegistered : Status := 0x80070002

def amHresultFromWin32 (error : UInt32) : Status :=
  0x80070000 ||| error

def hresultFromWin32 (error : UInt32) : Status :=
  if error = 0 ∨ 0x80000000 ≤ error then error else (error &&& 0xffff) ||| 0x80070000

/-- The categories of filters; a null category is the default one. -/
inductive Category where
  | default
  | audioRenderer
  | other (category : Guid)
  deriving DecidableEq

structure RegFilter where
  name : String
  merit : ℕ
  pins : List SetupPin
  deriving DecidableEq

/-- The calls of `IFilterMapper`, which came before `IFilterMapper2`. -/
inductive FilterMapperCall where
  | unregisterFilter (clsID : Guid)
  | registerFilter (clsID : Guid) (name : String) (merit : ℕ)
  | registerPin (clsID : Guid) (name : String) (rendered output zero many : Bool)
      (connectsToFilter : Guid) (connectsToPin : Option String)
  | registerPinType (clsID : Guid) (pin : String) (majorType : MediaMajorType)
      (minorType : MediaSubtype)

def FilterMapperCall.clsID : FilterMapperCall → Guid
  | unregisterFilter clsID | registerFilter clsID .. | registerPin clsID ..
  | registerPinType clsID .. => clsID

/-- The functions of the system that registration calls, as documented; any call may fail. `tree`
shows the registry but for the places where the filter mapper keeps what is `registered` with
it. `IFilterMapper` knows the default category only, and it keeps pins below the key of the
filter's class, where nothing else is said of what it does. -/
structure Windows (σ ν : Type) extends Registry σ ν where
  registered : σ → Category → Guid → Option RegFilter
  stringFromGUID2 : Guid → String
  createKey : σ → List ν → UInt32 × σ
  setValue : σ → List ν → String → String → UInt32 × σ
  getModuleFileName : σ → Except UInt32 String × σ
  createFilterMapper2 : σ → Status × σ
  createFilterMapper : σ → Status × σ
  unregisterFilter : σ → Category → Guid → Status × σ
  registerFilter : σ → Category → Guid → RegFilter → Status × σ
  filterMapper : σ → FilterMapperCall → Status × σ
  path_single : ∀ {s}, s ≠ "" → '\\' ∉ s.toList → ∃ n, path s = [n]
  delete_registered : ∀ {m p}, registered (deleteKey m p).2 = registered m
  create_new : ∀ {m p q}, (createKey m p).1 = 0 → q <+: p → tree m q = none →
    ∃ rights, tree (createKey m p).2 q = some ⟨rights, fun _ => none⟩
  create_other : ∀ {m p q}, tree m q ≠ none ∨ ¬ q <+: p → tree (createKey m p).2 q = tree m q
  create_registered : ∀ {m p}, registered (createKey m p).2 = registered m
  set_value : ∀ {m p name value key}, (setValue m p name value).1 = 0 → tree m p = some key →
    ∃ values, tree (setValue m p name value).2 p = some ⟨key.rights, values⟩ ∧
      values name = some value ∧ (name ≠ "" → values "" = key.values "")
  set_other : ∀ {m p q name value}, q ≠ p → tree (setValue m p name value).2 q = tree m q
  set_registered : ∀ {m p name value}, registered (setValue m p name value).2 = registered m
  module_same : ∀ {m}, tree (getModuleFileName m).2 = tree m ∧
    registered (getModuleFileName m).2 = registered m
  mapper2_same : ∀ {m}, tree (createFilterMapper2 m).2 = tree m ∧
    registered (createFilterMapper2 m).2 = registered m
  mapper_same : ∀ {m}, tree (createFilterMapper m).2 = tree m ∧
    registered (createFilterMapper m).2 = registered m
  unregister_tree : ∀ {m c g}, tree (unregisterFilter m c g).2 = tree m
  unregister_ok : ∀ {m c g}, (unregisterFilter m c g).1.failed = false →
    ∀ c' g', registered (unregisterFilter m c g).2 c' g' =
      if c' = c ∧ g' = g then none else registered m c' g'
  unregister_failed : ∀ {m c g}, (unregisterFilter m c g).1.failed = true →
    registered (unregisterFilter m c g).2 = registered m
  unregister_missing : ∀ {m c g}, (unregisterFilter m c g).1 = .notRegistered →
    registered m c g = none
  register_tree : ∀ {m c g r}, tree (registerFilter m c g r).2 = tree m
  register_ok : ∀ {m c g r}, (registerFilter m c g r).1.failed = false →
    ∀ c' g', registered (registerFilter m c g r).2 c' g' =
      if c' = c ∧ g' = g then some r else registered m c' g'
  register_failed : ∀ {m c g r}, (registerFilter m c g r).1.failed = true →
    registered (registerFilter m c g r).2 = registered m
  call_registered : ∀ {m call c g}, ¬ (c = .default ∧ g = call.clsID) →
    registered (filterMapper m call).2 c g = registered m c g
  call_tree : ∀ {m call q}, ¬ path ("CLSID\\" ++ stringFromGUID2 call.clsID) <+: q →
    tree (filterMapper m call).2 q = tree m q
  call_unregister : ∀ {m g q}, tree (filterMapper m (.unregisterFilter g)).2 q ≠ none →
    tree (filterMapper m (.unregisterFilter g)).2 q = tree m q

namespace Windows

variable {σ ν : Type} (W : Windows σ ν)

/-- The key of a class in the registry. -/
def clsidKey (clsID : Guid) : List ν :=
  W.path ("CLSID\\" ++ W.stringFromGUID2 clsID)

/-- `AMovieSetupRegisterServer`, which stops at the first write that fails. -/
def amovieSetupRegisterServer (clsServer : Guid)
    (description fileName threadingModel serverType : String) (m : σ) : Status × σ :=
  let hkey := W.clsidKey clsServer
  let r := W.createKey m hkey
  if r.1 ≠ 0 then (amHresultFromWin32 r.1, r.2)
  else
    let r := W.setValue r.2 hkey "" description
    if r.1 ≠ 0 then (amHresultFromWin32 r.1, r.2)
    else
      let hsubkey := hkey ++ W.path serverType
      let r := W.createKey r.2 hsubkey
      if r.1 ≠ 0 then (amHresultFromWin32 r.1, r.2)
      else
        let r := W.setValue r.2 hsubkey "" fileName
        if r.1 ≠ 0 then (amHresultFromWin32 r.1, r.2)
        else
          let r := W.setValue r.2 hsubkey "ThreadingModel" threadingModel
          (hresultFromWin32 r.1, r.2)

/-- `AMovieSetupUnregisterServer`. -/
def amovieSetupUnregisterServer (fuel : ℕ) (clsServer : Guid) (m : σ) : Option (Status × σ) :=
  (W.eliminateSubKey fuel [] ("CLSID\\" ++ W.stringFromGUID2 clsServer) m).map fun r => (0, r.2)

/-- `RegisterAllServers` over the templates that are left. -/
def registerServers (fuel : ℕ) (fileName : String) (bRegister : Bool) :
    List FactoryTemplate → Status → σ → Option (Status × σ)
  | [], hr, m => some (hr, m)
  | t :: templates, _, m =>
    (if bRegister then
      some (W.amovieSetupRegisterServer t.clsID t.name fileName "Both" "InprocServer32" m)
    else W.amovieSetupUnregisterServer fuel t.clsID m).bind fun r =>
      if r.1.failed then some r
      else registerServers fuel fileName bRegister templates r.1 r.2

def registerAllServers (fuel : ℕ) (fileName : String) (bRegister : Bool) (m : σ) :
    Option (Status × σ) :=
  W.registerServers fuel fileName bRegister gTemplates 0 m

/-- `AMovieSetupRegisterFilter2`. -/
def amovieSetupRegisterFilter2 (setup : Option SetupFilter) (bRegister : Bool) (m : σ) :
    Status × σ :=
  match setup with
  | none => (1, m)
  | some d =>
    let r := W.unregisterFilter m .default d.clsID
    let r := if bRegister then W.registerFilter r.2 .default d.clsID ⟨d.name, d.merit, d.pins⟩
      else r
    if r.1 = .notRegistered then (0, r.2) else r

/-- The media types of a pin, in `AMovieSetupRegisterFilter`. -/
def registerPinTypes (clsID : Guid) (pin : String) :
    List (MediaMajorType × MediaSubtype) → Status → σ → Status × σ
  | [], hr, m => (hr, m)
  | t :: types, _, m =>
    let r := W.filterMapper m (.registerPinType clsID pin t.1 t.2)
    if r.1.failed then r else registerPinTypes clsID pin types r.1 r.2

/-- The pins of a filter, in `AMovieSetupRegisterFilter`. -/
def registerPins (clsID : Guid) : List SetupPin → Status → σ → Status × σ
  | [], hr, m => (hr, m)
  | p :: pins, _, m =>
    let r := W.filterMapper m (.registerPin clsID p.name p.rendered p.output p.zero p.many
      p.connectsToFilter p.connectsToPin)
    let r := if r.1.failed then r else W.registerPinTypes clsID p.name p.mediaTypes r.1 r.2
    if r.1.failed then r else registerPins clsID pins r.1 r.2

/-- `AMovieSetupRegisterFilter`. -/
def amovieSetupRegisterFilter (setup : Option SetupFilter) (bRegister : Bool) (m : σ) :
    Status × σ :=
  match setup with
  | none => (1, m)
  | some d =>
    let r := W.filterMapper m (.unregisterFilter d.clsID)
    let r :=
      if bRegister then
        let r := W.filterMapper r.2 (.registerFilter d.clsID d.name d.merit)
        if r.1.failed then r else W.registerPins d.clsID d.pins r.1 r.2
      else r
    if r.1 = .notRegistered then (0, r.2) else r

/-- The loop of `AMovieDllRegisterServer2` over the templates that are left, with the filter
mapper it has got. -/
def registerFilters (mapper2 bRegister : Bool) : List FactoryTemplate → Status → σ → Status × σ
  | [], hr, m => (hr, m)
  | t :: templates, hr, m =>
    let r :=
      if t.setupFilter.isSome then
        if mapper2 then W.amovieSetupRegisterFilter2 t.setupFilter bRegister m
        else W.amovieSetupRegisterFilter t.setupFilter bRegister m
      else (hr, m)
    if r.1.failed then r else registerFilters mapper2 bRegister templates r.1 r.2

/-- The middle part of `AMovieDllRegisterServer2`, which is left out after a failure. -/
def registerAllFilters (bRegister : Bool) (hr : Status) (m : σ) : Status × σ :=
  if hr.failed then (hr, m)
  else
    let r := W.createFilterMapper2 m
    if r.1.failed then
      let r := W.createFilterMapper r.2
      if r.1.failed then r else W.registerFilters false bRegister gTemplates r.1 r.2
    else W.registerFilters true bRegister gTemplates r.1 r.2

def amovieDllRegisterServer2 (fuel : ℕ) (bRegister : Bool) (m : σ) : Option (Status × σ) :=
  match W.getModuleFileName m with
  | (.error e, m) => some (amHresultFromWin32 e, m)
  | (.ok fileName, m) =>
    (if bRegister then W.registerAllServers fuel fileName true m else some (0, m)).bind fun r =>
      let r := W.registerAllFilters bRegister r.1 r.2
      if ¬ r.1.failed ∧ ¬ bRegister then W.registerAllServers fuel fileName false r.2
      else some r

/-- The part of `DllRegUnregServer` that moves the filter. -/
def moveFilter (reg : Bool) (m : σ) : Status × σ :=
  let r := W.createFilterMapper2 m
  if r.1.failed then r
  else
    let r := W.unregisterFilter r.2 .default kSetupFilter.clsID
    if r.1.failed ∧ r.1 ≠ .notRegistered then r
    else
      let r := W.unregisterFilter r.2 .audioRenderer kSetupFilter.clsID
      if r.1.failed ∧ r.1 ≠ .notRegistered then r
      else if reg then
        let r := W.registerFilter r.2 .audioRenderer kSetupFilter.clsID
          ⟨kSetupFilter.name, kSetupFilter.merit, kSetupFilter.pins⟩
        if r.1.failed then r else (0, r.2)
      else (0, r.2)

def dllRegUnregServer (fuel : ℕ) (reg : Bool) (m : σ) : Option (Status × σ) :=
  (W.amovieDllRegisterServer2 fuel reg m).map fun r =>
    if r.1.failed then r else W.moveFilter reg r.2

def dllRegisterServer (fuel : ℕ) (m : σ) : Option (Status × σ) :=
  W.dllRegUnregServer fuel true m

def dllUnregisterServer (fuel : ℕ) (m : σ) : Option (Status × σ) :=
  W.dllRegUnregServer fuel false m

end Windows

end StupidAR
