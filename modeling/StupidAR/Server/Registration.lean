import StupidAR.Server.Setup

/-!
# What registering the server leaves behind

The entries of the server in the registry and in the filter mapper after `DllRegisterServer` and
`DllUnregisterServer`, whatever fails on the way.
-/

namespace StupidAR

section Status

lemma or_failed {x y : Status} (h : x.failed = true) : Status.failed (x ||| y) = true := by
  simp only [Status.failed, UInt32.le_iff_toNat_le, UInt32.toNat_or, decide_eq_true_eq] at h ⊢
  exact Nat.le_trans h Nat.left_le_or

lemma amHresultFromWin32_failed (error : UInt32) : (amHresultFromWin32 error).failed = true :=
  or_failed rfl

lemma hresultFromWin32_ok {error : UInt32} (h : (hresultFromWin32 error).failed = false) :
    error = 0 := by
  unfold hresultFromWin32 at h
  split at h
  · next herror =>
    rcases herror with herror | herror
    · exact herror
    · rw [show Status.failed error = true from decide_eq_true herror] at h
      exact Bool.false_ne_true.elim h.symm
  · rw [UInt32.or_comm, or_failed rfl] at h
    exact Bool.false_ne_true.elim h.symm

end Status

/-- The entries of the filter mapper that belong to the server. -/
def Own (c : Category) (g : Guid) : Prop :=
  (c = .default ∨ c = .audioRenderer) ∧ g = kMyFilterGuid

namespace Windows

variable {σ ν : Type} {W : Windows σ ν} {m m' m'' : σ} {p q : List ν} {c c' : Category}
  {g g' : Guid} {rf : RegFilter} {reg : Bool} {fuel : ℕ} {hr : Status}

/-- The entries of others in the registry and in the filter mapper are as they were. -/
structure OthersKept (W : Windows σ ν) (m m' : σ) : Prop where
  tree : ∀ q, ¬ W.clsidKey kMyFilterGuid <+: q → W.tree m' q = W.tree m q
  registered : ∀ c g, ¬ Own c g → W.registered m' c g = W.registered m c g

/-- The keys above the server's own are there. -/
def Rooted (W : Windows σ ν) (m : σ) : Prop :=
  ∀ q, Below q (W.clsidKey kMyFilterGuid) → W.tree m q ≠ none

section Others

lemma OthersKept.refl (m : σ) : W.OthersKept m m :=
  ⟨fun _ _ => rfl, fun _ _ _ => rfl⟩

lemma OthersKept.trans (h : W.OthersKept m m') (h' : W.OthersKept m' m'') :
    W.OthersKept m m'' :=
  ⟨fun q hq => (h'.tree q hq).trans (h.tree q hq),
    fun c g hne => (h'.registered c g hne).trans (h.registered c g hne)⟩

lemma OthersKept.of_same (h : W.tree m' = W.tree m ∧ W.registered m' = W.registered m) :
    W.OthersKept m m' :=
  ⟨fun q _ => congrFun h.1 q, fun c g _ => by rw [h.2]⟩

lemma OthersKept.rooted (h : W.OthersKept m m') (hroot : W.Rooted m) : W.Rooted m' := by
  intro q hq
  rw [h.tree q hq.not_prefix]
  exact hroot q hq

lemma createKey_kept (hroot : W.Rooted m) (hp : W.clsidKey kMyFilterGuid <+: p) :
    W.OthersKept m (W.createKey m p).2 := by
  refine ⟨fun q hq => W.create_other ?_, fun c g _ => by rw [W.create_registered]⟩
  by_cases hqp : q <+: p
  · rcases List.prefix_or_prefix_of_prefix hqp hp with habove | hin
    · exact .inl (hroot q ⟨habove, fun heq => hq (heq ▸ List.prefix_refl _)⟩)
    · exact absurd hin hq
  · exact .inr hqp

lemma setValue_kept (hp : W.clsidKey kMyFilterGuid <+: p) (name value : String) :
    W.OthersKept m (W.setValue m p name value).2 := by
  refine ⟨fun q hq => W.set_other ?_, fun c g _ => by rw [W.set_registered]⟩
  rintro rfl
  exact hq hp

/-- A call of the filter mapper for one entry leaves the other entries. -/
lemma entry_other {r : Status × σ} {entry : Option RegFilter}
    (hok : r.1.failed = false → ∀ c' g', W.registered r.2 c' g' =
      if c' = c ∧ g' = g then entry else W.registered m c' g')
    (hfailed : r.1.failed = true → W.registered r.2 = W.registered m)
    (h : ¬ (c' = c ∧ g' = g)) : W.registered r.2 c' g' = W.registered m c' g' := by
  cases hr : r.1.failed with
  | true => rw [hfailed hr]
  | false => rw [hok hr, if_neg h]

lemma unregister_other (h : ¬ (c' = c ∧ g' = g)) :
    W.registered (W.unregisterFilter m c g).2 c' g' = W.registered m c' g' :=
  entry_other W.unregister_ok W.unregister_failed h

lemma register_other (h : ¬ (c' = c ∧ g' = g)) :
    W.registered (W.registerFilter m c g rf).2 c' g' = W.registered m c' g' :=
  entry_other W.register_ok W.register_failed h

lemma OthersKept.of_entry (hown : Own c g) (htree : W.tree m' = W.tree m)
    (hother : ∀ {c' g'}, ¬ (c' = c ∧ g' = g) → W.registered m' c' g' = W.registered m c' g') :
    W.OthersKept m m' := by
  refine ⟨fun q _ => by rw [htree], fun c' g' hne => hother ?_⟩
  rintro ⟨rfl, rfl⟩
  exact hne hown

lemma unregisterFilter_kept (hown : Own c g) : W.OthersKept m (W.unregisterFilter m c g).2 :=
  .of_entry hown W.unregister_tree unregister_other

lemma registerFilter_kept (hown : Own c g) : W.OthersKept m (W.registerFilter m c g rf).2 :=
  .of_entry hown W.register_tree register_other

lemma filterMapper_kept (call : FilterMapperCall) (h : call.clsID = kMyFilterGuid) :
    W.OthersKept m (W.filterMapper m call).2 := by
  refine ⟨fun q hq => W.call_tree (by rwa [h]), fun c g hne => W.call_registered ?_⟩
  rintro ⟨rfl, rfl⟩
  exact hne ⟨.inl rfl, h⟩

end Others

section FilterMapper

/-- The acceptable error changes what is returned only. -/
lemma snd_accept (r : Status × σ) :
    (if r.1 = .notRegistered then ((0 : Status), r.2) else r).2 = r.2 := by
  split <;> rfl

lemma amovieSetupRegisterFilter2_kept :
    W.OthersKept m (W.amovieSetupRegisterFilter2 (some kSetupFilter) reg m).2 := by
  have hown : Own .default kSetupFilter.clsID := ⟨.inl rfl, rfl⟩
  have hfirst : W.OthersKept m (W.unregisterFilter m .default kSetupFilter.clsID).2 :=
    unregisterFilter_kept hown
  unfold amovieSetupRegisterFilter2
  cases reg with
  | false =>
    dsimp only
    rw [if_neg Bool.false_ne_true, snd_accept]
    exact hfirst
  | true =>
    dsimp only
    rw [if_pos rfl, snd_accept]
    exact hfirst.trans (registerFilter_kept hown)

lemma registerPinTypes_kept {pin : String} {types : List (MediaMajorType × MediaSubtype)} :
    W.OthersKept m (W.registerPinTypes kMyFilterGuid pin types hr m).2 := by
  induction types generalizing hr m with
  | nil => exact .refl m
  | cons t types ih =>
    have hcall : W.OthersKept m
        (W.filterMapper m (.registerPinType kMyFilterGuid pin t.1 t.2)).2 := filterMapper_kept _ rfl
    rw [registerPinTypes]
    split
    · exact hcall
    · exact hcall.trans ih

lemma registerPins_kept {pins : List SetupPin} :
    W.OthersKept m (W.registerPins kMyFilterGuid pins hr m).2 := by
  induction pins generalizing hr m with
  | nil => exact .refl m
  | cons pin pins ih =>
    have hcall : W.OthersKept m (W.filterMapper m (.registerPin kMyFilterGuid pin.name pin.rendered
        pin.output pin.zero pin.many pin.connectsToFilter pin.connectsToPin)).2 :=
      filterMapper_kept _ rfl
    rw [registerPins]
    split_ifs with hpin htypes
    · exact hcall
    · exact hcall.trans registerPinTypes_kept
    · exact (hcall.trans registerPinTypes_kept).trans ih

lemma amovieSetupRegisterFilter_kept :
    W.OthersKept m (W.amovieSetupRegisterFilter (some kSetupFilter) reg m).2 := by
  have hfirst : W.OthersKept m (W.filterMapper m (.unregisterFilter kSetupFilter.clsID)).2 :=
    filterMapper_kept _ rfl
  unfold amovieSetupRegisterFilter
  cases reg with
  | false =>
    dsimp only
    rw [if_neg Bool.false_ne_true, snd_accept]
    exact hfirst
  | true =>
    have hsecond := hfirst.trans (filterMapper_kept (W := W)
      (.registerFilter kSetupFilter.clsID kSetupFilter.name kSetupFilter.merit) rfl)
    dsimp only
    rw [if_pos rfl, snd_accept]
    split
    · exact hsecond
    · exact hsecond.trans registerPins_kept

/-- There is one filter to register. -/
lemma registerFilters_gTemplates (mapper2 : Bool) :
    W.registerFilters mapper2 reg gTemplates hr m =
      if mapper2 then W.amovieSetupRegisterFilter2 (some kSetupFilter) reg m
      else W.amovieSetupRegisterFilter (some kSetupFilter) reg m := by
  simp only [gTemplates, registerFilters, Option.isSome_some, if_true, Prod.mk.eta, ite_self]

lemma registerAllFilters_kept : W.OthersKept m (W.registerAllFilters reg hr m).2 := by
  have hmapper2 : W.OthersKept m (W.createFilterMapper2 m).2 := .of_same W.mapper2_same
  have hmapper : W.OthersKept m (W.createFilterMapper (W.createFilterMapper2 m).2).2 :=
    hmapper2.trans (.of_same W.mapper_same)
  unfold registerAllFilters
  simp only [registerFilters_gTemplates, Bool.false_eq_true, if_false, if_true]
  split_ifs
  · exact .refl m
  · exact hmapper
  · exact hmapper.trans amovieSetupRegisterFilter_kept
  · exact hmapper2.trans amovieSetupRegisterFilter2_kept

/-- `IFilterMapper2` does not touch the rest of the registry. -/
lemma registerAllFilters_tree (hmapper2 : ∀ m, (W.createFilterMapper2 m).1.failed = false) :
    W.tree (W.registerAllFilters reg hr m).2 = W.tree m := by
  unfold registerAllFilters
  simp only [registerFilters_gTemplates, hmapper2, Bool.false_eq_true, if_false, if_true]
  split
  · rfl
  · unfold amovieSetupRegisterFilter2
    cases reg with
    | false =>
      dsimp only
      rw [if_neg Bool.false_ne_true, snd_accept, W.unregister_tree, W.mapper2_same.1]
    | true =>
      dsimp only
      rw [if_pos rfl, snd_accept, W.register_tree, W.unregister_tree, W.mapper2_same.1]

/-- Taking the filter back from either filter mapper adds no key. -/
lemma registerAllFilters_unregister
    (hq : W.tree (W.registerAllFilters false hr m).2 q ≠ none) :
    W.tree (W.registerAllFilters false hr m).2 q = W.tree m q := by
  have hmapper : W.tree (W.createFilterMapper (W.createFilterMapper2 m).2).2 = W.tree m :=
    W.mapper_same.1.trans W.mapper2_same.1
  unfold registerAllFilters at hq ⊢
  simp only [registerFilters_gTemplates, Bool.false_eq_true, if_false, if_true] at hq ⊢
  split_ifs at hq ⊢
  · rfl
  · rw [hmapper]
  · unfold amovieSetupRegisterFilter at hq ⊢
    dsimp only at hq ⊢
    rw [if_neg Bool.false_ne_true, snd_accept] at hq ⊢
    exact (W.call_unregister hq).trans (congrFun hmapper q)
  · unfold amovieSetupRegisterFilter2
    dsimp only
    rw [if_neg Bool.false_ne_true, snd_accept, W.unregister_tree, W.mapper2_same.1]

end FilterMapper

section Moves

/-- An `UnregisterFilter` that the server takes for good. -/
lemma unregister_accepted (h : ¬ ((W.unregisterFilter m c g).1.failed ∧
    (W.unregisterFilter m c g).1 ≠ .notRegistered)) :
    W.registered (W.unregisterFilter m c g).2 c g = none := by
  by_cases hmissing : (W.unregisterFilter m c g).1 = .notRegistered
  · have hfailed : (W.unregisterFilter m c g).1.failed = true := by
      rw [hmissing]
      rfl
    rw [W.unregister_failed hfailed]
    exact W.unregister_missing hmissing
  · have hok : (W.unregisterFilter m c g).1.failed = false := by
      cases hfailed : (W.unregisterFilter m c g).1.failed with
      | true => exact absurd ⟨hfailed, hmissing⟩ h
      | false => rfl
    rw [W.unregister_ok hok, if_pos ⟨rfl, rfl⟩]

lemma moveFilter_kept : W.OthersKept m (W.moveFilter reg m).2 := by
  have hmapper2 : W.OthersKept m (W.createFilterMapper2 m).2 := .of_same W.mapper2_same
  have hdefault := hmapper2.trans (unregisterFilter_kept (W := W) (c := .default)
    (g := kSetupFilter.clsID) ⟨.inl rfl, rfl⟩)
  have haudio := hdefault.trans (unregisterFilter_kept (W := W) (c := .audioRenderer)
    (g := kSetupFilter.clsID) ⟨.inr rfl, rfl⟩)
  unfold moveFilter
  dsimp only
  split_ifs
  · exact hmapper2
  · exact hdefault
  · exact haudio
  · exact haudio.trans (registerFilter_kept ⟨.inr rfl, rfl⟩)
  · exact haudio.trans (registerFilter_kept ⟨.inr rfl, rfl⟩)
  · exact haudio

lemma moveFilter_tree : W.tree (W.moveFilter reg m).2 = W.tree m := by
  unfold moveFilter
  dsimp only
  split_ifs
  · exact W.mapper2_same.1
  · rw [W.unregister_tree, W.mapper2_same.1]
  · rw [W.unregister_tree, W.unregister_tree, W.mapper2_same.1]
  · rw [W.register_tree, W.unregister_tree, W.unregister_tree, W.mapper2_same.1]
  · rw [W.register_tree, W.unregister_tree, W.unregister_tree, W.mapper2_same.1]
  · rw [W.unregister_tree, W.unregister_tree, W.mapper2_same.1]

/-- Where the filter is to be found after a registration, and after it is taken back. -/
def registration (reg : Bool) : Option RegFilter :=
  if reg then some ⟨kMyFilterName, meritDoNotUse, kSetupPins⟩ else none

lemma moveFilter_own (h : (W.moveFilter reg m).1.failed = false) :
    W.registered (W.moveFilter reg m).2 .default kMyFilterGuid = none ∧
      W.registered (W.moveFilter reg m).2 .audioRenderer kMyFilterGuid = registration reg := by
  unfold moveFilter at h ⊢
  dsimp only at h ⊢
  split at h
  · next hmapper => rw [h] at hmapper; exact Bool.false_ne_true.elim hmapper
  · next hmapper =>
    rw [if_neg hmapper]
    split at h
    · next hfailed => rw [h] at hfailed; exact Bool.false_ne_true.elim hfailed.1
    · next hfirst =>
      rw [if_neg hfirst]
      have hdefault := unregister_accepted hfirst
      split at h
      · next hfailed => rw [h] at hfailed; exact Bool.false_ne_true.elim hfailed.1
      · next hsecond =>
        rw [if_neg hsecond]
        have haudio := unregister_accepted hsecond
        cases reg with
        | false =>
          refine ⟨?_, haudio⟩
          exact (unregister_other (by simp)).trans hdefault
        | true =>
          simp only [if_true] at h ⊢
          split at h
          · next hfailed => rw [h] at hfailed; exact Bool.false_ne_true.elim hfailed
          · next hok =>
            rw [if_neg hok]
            refine ⟨?_, ?_⟩
            · exact (register_other (by simp)).trans
                ((unregister_other (by simp)).trans hdefault)
            · rw [W.register_ok (by simpa using hok)]
              rfl

end Moves

section Keys

variable {description fileName threadingModel serverType : String}

lemma amovieSetupRegisterServer_kept (hroot : W.Rooted m) :
    W.OthersKept m (W.amovieSetupRegisterServer kMyFilterGuid description fileName threadingModel
      serverType m).2 := by
  have hself := List.prefix_refl (W.clsidKey kMyFilterGuid)
  have hserver := List.prefix_append (W.clsidKey kMyFilterGuid) (W.path serverType)
  have hcreate := createKey_kept hroot hself
  have hdescription := hcreate.trans (setValue_kept hself "" description)
  have hsubkey := hdescription.trans (createKey_kept (hdescription.rooted hroot) hserver)
  have hfile := hsubkey.trans (setValue_kept hserver "" fileName)
  have hmodel := hfile.trans (setValue_kept hserver "ThreadingModel" threadingModel)
  unfold amovieSetupRegisterServer
  dsimp only
  split_ifs
  · exact hcreate
  · exact hdescription
  · exact hsubkey
  · exact hfile
  · exact hmodel

lemma createKey_there (h : (W.createKey m p).1 = 0) :
    ∃ key, W.tree (W.createKey m p).2 p = some key := by
  cases hp : W.tree m p with
  | none =>
    obtain ⟨rights, hnew⟩ := W.create_new h (List.prefix_refl p) hp
    exact ⟨_, hnew⟩
  | some key => exact ⟨key, (W.create_other (.inl (by simp [hp]))).trans hp⟩

/-- The server that the registry names for the filter. -/
def Serves (W : Windows σ ν) (m : σ) (fileName : String) : Prop :=
  ∃ key server, W.tree m (W.clsidKey kMyFilterGuid) = some key ∧
    key.values "" = some kMyFilterName ∧
    W.tree m (W.clsidKey kMyFilterGuid ++ W.path "InprocServer32") = some server ∧
    server.values "" = some fileName ∧ server.values "ThreadingModel" = some "Both"

lemma path_server_ne : W.clsidKey kMyFilterGuid ≠
    W.clsidKey kMyFilterGuid ++ W.path "InprocServer32" := by
  obtain ⟨n, hn⟩ := W.path_single (s := "InprocServer32") (by decide) (by decide)
  rw [hn]
  exact fun h => below_concat.2 h.symm

/-- A registration that went well has written all there is to write, over what was there. -/
lemma amovieSetupRegisterServer_serves
    (h : (W.amovieSetupRegisterServer kMyFilterGuid kMyFilterName fileName "Both" "InprocServer32"
      m).1.failed = false) :
    W.Serves (W.amovieSetupRegisterServer kMyFilterGuid kMyFilterName fileName "Both"
      "InprocServer32" m).2 fileName := by
  unfold amovieSetupRegisterServer at h ⊢
  dsimp only at h ⊢
  split at h
  · simp [amHresultFromWin32_failed] at h
  · next hcreate =>
    rw [if_neg hcreate]
    obtain ⟨key₁, hkey₁⟩ := createKey_there (not_not.mp hcreate)
    split at h
    · simp [amHresultFromWin32_failed] at h
    · next hdescription =>
      rw [if_neg hdescription]
      obtain ⟨values, hkey, hname, -⟩ := W.set_value (not_not.mp hdescription) hkey₁
      split at h
      · simp [amHresultFromWin32_failed] at h
      · next hsubkey =>
        rw [if_neg hsubkey]
        obtain ⟨server₁, hserver₁⟩ := createKey_there (not_not.mp hsubkey)
        split at h
        · simp [amHresultFromWin32_failed] at h
        · next hfile =>
          rw [if_neg hfile]
          obtain ⟨values₂, hserver₂, hfile₂, -⟩ := W.set_value (not_not.mp hfile) hserver₁
          obtain ⟨values₃, hserver₃, hmodel, hkept⟩ :=
            W.set_value (hresultFromWin32_ok h) hserver₂
          refine ⟨⟨key₁.rights, values⟩, _, ?_, hname, hserver₃, ?_, hmodel⟩
          · rw [W.set_other path_server_ne, W.set_other path_server_ne,
              W.create_other (.inl (by simp [hkey])), hkey]
          · exact (hkept (by decide)).trans hfile₂

lemma registerAllServers_register {fileName : String} :
    W.registerAllServers fuel fileName true m = some (W.amovieSetupRegisterServer kMyFilterGuid
      kMyFilterName fileName "Both" "InprocServer32" m) := by
  simp only [registerAllServers, gTemplates, registerServers, if_true, Option.bind_some,
    Prod.mk.eta, ite_self]

lemma registerAllServers_unregister {fileName : String} :
    W.registerAllServers fuel fileName false m = (W.eliminateSubKey fuel []
      ("CLSID\\" ++ W.stringFromGUID2 kMyFilterGuid) m).map fun r => (0, r.2) := by
  simp only [registerAllServers, gTemplates, registerServers, amovieSetupUnregisterServer,
    Bool.false_eq_true, if_false, Prod.mk.eta, ite_self]
  exact Option.bind_fun_some _

end Keys

section Elimination

lemma eliminate_registered :
    (∀ p name m r, W.eliminateSubKey fuel p name m = some r →
      W.registered r.2 = W.registered m) ∧
    (∀ p m m', W.eliminateAll fuel p m = some m' → W.registered m' = W.registered m) := by
  induction fuel with
  | zero => exact ⟨by simp [Registry.eliminateSubKey], by simp [Registry.eliminateAll]⟩
  | succ fuel ih =>
    refine ⟨fun p name m r h => ?_, fun p m m' h => ?_⟩
    · rw [Registry.eliminateSubKey] at h
      split at h
      · cases h
        rfl
      · dsimp only at h
        split at h
        · obtain ⟨m₀, hm₀, rfl⟩ := Option.map_eq_some_iff.mp h
          exact W.delete_registered.trans (ih.2 _ m m₀ hm₀)
        · cases h
          rfl
    · rw [Registry.eliminateAll] at h
      split at h
      · next name _ =>
        obtain ⟨r, hr, hrest⟩ := Option.bind_eq_some_iff.mp h
        exact (ih.2 _ r.2 m' hrest).trans (ih.1 _ name m r hr)
      · cases h
        rfl

lemma clsid_ne (s : String) : "CLSID\\" ++ s ≠ "" := by
  simp

/-- The keys of the server may be opened, listed and deleted. -/
def Deletable (W : Windows σ ν) (m : σ) : Prop :=
  ∀ q key, W.clsidKey kMyFilterGuid <+: q → W.tree m q = some key → key.rights = ⟨true, true, true⟩

lemma Deletable.free (h : W.Deletable m) (hq : W.clsidKey kMyFilterGuid <+: q)
    (hthere : W.tree m q ≠ none) : W.Free m q ∧ W.Opens m q ∧ W.Lists m q := by
  obtain ⟨key, hkey⟩ := Option.ne_none_iff_exists'.mp hthere
  have hrights := h q key hq hkey
  have hopens : W.Opens m q := ⟨key, hkey, by rw [hrights]⟩
  have hlists : W.Lists m q := ⟨key, hkey, by rw [hrights]⟩
  exact ⟨⟨hopens, ⟨key, hkey, by rw [hrights]⟩, .inl hlists⟩, hopens, hlists⟩

variable {r : Status × σ}

lemma eliminateServer_kept (h : W.eliminateSubKey fuel []
    ("CLSID\\" ++ W.stringFromGUID2 kMyFilterGuid) m = some r) : W.OthersKept m r.2 := by
  obtain ⟨-, htree⟩ := Registry.eliminateSubKey_taken (clsid_ne _) h
  refine ⟨fun q hq => (htree q).2 ?_, fun c g _ => by rw [eliminate_registered.1 _ _ m r h]⟩
  rintro (⟨rfl, -⟩ | ⟨hbelow, -⟩)
  · exact hq (List.prefix_refl _)
  · exact hq hbelow.1

lemma eliminateServer_returns (h : W.Deletable m) : ∃ fuel r, W.eliminateSubKey fuel []
    ("CLSID\\" ++ W.stringFromGUID2 kMyFilterGuid) m = some r :=
  Registry.eliminateSubKey_returns (clsid_ne _) fun _ _ _ hq hthere => (h.free hq.1 hthere).1

/-- Nothing of the server is left. -/
lemma eliminateServer_gone (hkeys : W.Deletable m) (h : W.eliminateSubKey fuel []
    ("CLSID\\" ++ W.stringFromGUID2 kMyFilterGuid) m = some r)
    (hq : W.clsidKey kMyFilterGuid <+: q) : W.tree r.2 q = none := by
  obtain ⟨htaken, hkept⟩ := (Registry.eliminateSubKey_taken (clsid_ne _) h).2 q
  by_cases hthere : W.tree m q = none
  · by_cases ht : W.Taken m ([] ++ W.path ("CLSID\\" ++ W.stringFromGUID2 kMyFilterGuid)) q
    · exact htaken ht
    · exact (hkept ht).trans hthere
  · obtain ⟨hfree, hopens, hlists⟩ := hkeys.free (List.prefix_refl _) (W.above hthere hq)
    by_cases hself : q = W.clsidKey kMyFilterGuid
    · exact htaken (.inl ⟨hself, hfree⟩)
    · exact htaken (.inr ⟨⟨hq, hself⟩, hopens, hlists⟩)

end Elimination

section Servers

lemma amovieDllRegisterServer2_register
    (h : W.amovieDllRegisterServer2 fuel true m = some (hr, m')) :
    (hr.failed = true ∧ m' = (W.getModuleFileName m).2) ∨
    ∃ fileName, (W.getModuleFileName m).1 = .ok fileName ∧
      (hr, m') = W.registerAllFilters true
        (W.amovieSetupRegisterServer kMyFilterGuid kMyFilterName fileName "Both" "InprocServer32"
          (W.getModuleFileName m).2).1
        (W.amovieSetupRegisterServer kMyFilterGuid kMyFilterName fileName "Both" "InprocServer32"
          (W.getModuleFileName m).2).2 := by
  unfold amovieDllRegisterServer2 at h
  split at h
  · next e m₁ hfile =>
    cases h
    exact .inl ⟨amHresultFromWin32_failed _, by rw [hfile]⟩
  · next fileName m₁ hfile =>
    refine .inr ⟨fileName, by rw [hfile], ?_⟩
    simp only [if_true, registerAllServers_register, Option.bind_some, not_true_eq_false,
      and_false, if_false, Option.some.injEq] at h
    rw [hfile]
    exact h.symm

lemma amovieDllRegisterServer2_unregister
    (h : W.amovieDllRegisterServer2 fuel false m = some (hr, m')) :
    (hr.failed = true ∧ m' = (W.getModuleFileName m).2) ∨
    (hr.failed = true ∧
      m' = (W.registerAllFilters false 0 (W.getModuleFileName m).2).2) ∨
    ∃ r, W.eliminateSubKey fuel [] ("CLSID\\" ++ W.stringFromGUID2 kMyFilterGuid)
      (W.registerAllFilters false 0 (W.getModuleFileName m).2).2 = some r ∧ m' = r.2 := by
  unfold amovieDllRegisterServer2 at h
  split at h
  · next e m₁ hfile =>
    cases h
    exact .inl ⟨amHresultFromWin32_failed _, by rw [hfile]⟩
  · next fileName m₁ hfile =>
    right
    simp only [Bool.false_eq_true, if_false, Option.bind_some, not_false_eq_true, and_true,
      registerAllServers_unregister] at h
    rw [hfile]
    split at h
    · obtain ⟨r, hr', heq⟩ := Option.map_eq_some_iff.mp h
      cases heq
      exact .inr ⟨r, hr', rfl⟩
    · next hfailed =>
      have heq := Option.some.inj h
      rw [heq] at hfailed
      exact .inl ⟨by simpa using hfailed, by rw [heq]⟩

lemma amovieDllRegisterServer2_returns (h : ∃ fuel r, W.eliminateSubKey fuel []
    ("CLSID\\" ++ W.stringFromGUID2 kMyFilterGuid)
    (W.registerAllFilters false 0 (W.getModuleFileName m).2).2 = some r) :
    ∃ fuel r, W.amovieDllRegisterServer2 fuel false m = some r := by
  obtain ⟨fuel, r, h⟩ := h
  refine ⟨fuel, ?_⟩
  unfold amovieDllRegisterServer2
  split
  · exact ⟨_, rfl⟩
  · next fileName m₁ hfile =>
    rw [hfile] at h
    simp only [Bool.false_eq_true, if_false, Option.bind_some, registerAllServers_unregister, h,
      Option.map_some]
    split <;> exact ⟨_, rfl⟩

lemma module_kept : W.OthersKept m (W.getModuleFileName m).2 :=
  .of_same W.module_same

lemma amovieDllRegisterServer2_kept (hroot : W.Rooted m)
    (h : W.amovieDllRegisterServer2 fuel reg m = some (hr, m')) : W.OthersKept m m' := by
  cases reg with
  | true =>
    rcases amovieDllRegisterServer2_register h with ⟨-, rfl⟩ | ⟨fileName, -, heq⟩
    · exact module_kept
    · have hm' := congrArg Prod.snd heq
      dsimp only at hm'
      rw [hm']
      exact (module_kept.trans
        (amovieSetupRegisterServer_kept (module_kept.rooted hroot))).trans registerAllFilters_kept
  | false =>
    rcases amovieDllRegisterServer2_unregister h with ⟨-, rfl⟩ | ⟨-, rfl⟩ | ⟨r, hr', rfl⟩
    · exact module_kept
    · exact module_kept.trans registerAllFilters_kept
    · exact (module_kept.trans registerAllFilters_kept).trans (eliminateServer_kept hr')

/-- The second half is made where the first has not failed, and leaves the registry alone. -/
lemma dllRegUnregServer_cases (h : W.dllRegUnregServer fuel reg m = some (hr, m')) :
    ∃ hr' m₁, W.amovieDllRegisterServer2 fuel reg m = some (hr', m₁) ∧ W.OthersKept m₁ m' ∧
      W.tree m' = W.tree m₁ ∧ (hr.failed = false → hr'.failed = false ∧
        W.registered m' .default kMyFilterGuid = none ∧
        W.registered m' .audioRenderer kMyFilterGuid = registration reg) := by
  obtain ⟨r, hfirst, heq⟩ := Option.map_eq_some_iff.mp h
  refine ⟨r.1, r.2, hfirst, ?_⟩
  split at heq
  · next hfailed =>
    rw [heq] at hfailed ⊢
    refine ⟨.refl _, rfl, fun hok => ?_⟩
    rw [hok] at hfailed
    exact Bool.false_ne_true.elim hfailed
  · next hgood =>
    obtain rfl : (W.moveFilter reg r.2).2 = m' := congrArg Prod.snd heq
    obtain rfl : (W.moveFilter reg r.2).1 = hr := congrArg Prod.fst heq
    exact ⟨moveFilter_kept, moveFilter_tree, fun hok => ⟨by simpa using hgood, moveFilter_own hok⟩⟩

lemma dllRegUnregServer_kept (hroot : W.Rooted m)
    (h : W.dllRegUnregServer fuel reg m = some (hr, m')) : W.OthersKept m m' := by
  obtain ⟨hr', m₁, hfirst, hkept, -⟩ := dllRegUnregServer_cases h
  exact (amovieDllRegisterServer2_kept hroot hfirst).trans hkept

lemma dllRegisterServer_serves (hmapper2 : ∀ m, (W.createFilterMapper2 m).1.failed = false)
    (h : W.dllRegUnregServer fuel true m = some (hr, m')) (hok : hr.failed = false) :
    ∃ fileName, (W.getModuleFileName m).1 = .ok fileName ∧ W.Serves m' fileName := by
  obtain ⟨hr', m₁, hfirst, -, htree, hgood⟩ := dllRegUnregServer_cases h
  obtain ⟨hok', -⟩ := hgood hok
  rcases amovieDllRegisterServer2_register hfirst with ⟨hfailed, -⟩ | ⟨fileName, hfile, heq⟩
  · rw [hok'] at hfailed
    exact Bool.false_ne_true.elim hfailed
  · refine ⟨fileName, hfile, ?_⟩
    have hserver : (W.amovieSetupRegisterServer kMyFilterGuid kMyFilterName fileName "Both"
        "InprocServer32" (W.getModuleFileName m).2).1.failed = false := by
      by_contra hfailed
      rw [registerAllFilters, if_pos (by simpa using hfailed)] at heq
      obtain ⟨rfl, -⟩ := Prod.mk.inj heq
      exact hfailed hok'
    have hserves := amovieSetupRegisterServer_serves hserver
    have hsame : W.tree m' = W.tree (W.amovieSetupRegisterServer kMyFilterGuid kMyFilterName
        fileName "Both" "InprocServer32" (W.getModuleFileName m).2).2 := by
      have hm₁ := congrArg Prod.snd heq
      dsimp only at hm₁
      rw [htree, hm₁]
      exact registerAllFilters_tree hmapper2
    rw [Serves, hsame]
    exact hserves

end Servers

end Windows

section Plain

def hexDigits (width n : ℕ) : String :=
  String.ofList ((List.range width).reverse.map fun k =>
    (Nat.digitChar (n / 16 ^ k % 16)).toUpper)

def Guid.toName (g : Guid) : String :=
  "\x7b" ++ hexDigits 8 g.data1 ++ "-" ++ hexDigits 4 g.data2 ++ "-" ++ hexDigits 4 g.data3 ++
    "-" ++ String.join ((g.data4.take 2).map (hexDigits 2)) ++ "-" ++
    String.join ((g.data4.drop 2).map (hexDigits 2)) ++ "\x7d"

/-- The key at `p`, and those missing on the way to it. -/
def Hive.create (m : Hive) (p : List KeyName) : Hive where
  keys := m.keys ++ p.inits
  closed := by
    intro q hq r hr
    rcases List.mem_append.mp hq with hq | hq
    · exact List.mem_append_left _ (m.closed q hq r hr)
    · rw [List.mem_inits] at hq
      exact List.mem_append_right _ ((List.mem_inits _ _).mpr (hr.trans hq))
  key q := (m.tree q).getD ⟨⟨true, true, true⟩, fun _ => none⟩

def Hive.set (m : Hive) (p : List KeyName) (name value : String) : Hive where
  keys := m.keys
  closed := m.closed
  key q :=
    if q = p then ⟨(m.key q).rights, fun n => if n = name then some value else (m.key q).values n⟩
    else m.key q

/-- Every key may be opened, listed and deleted. -/
def Hive.Full (m : Hive) : Prop :=
  ∀ q, (m.key q).rights = ⟨true, true, true⟩

lemma Hive.Full.create {m : Hive} (h : m.Full) (p : List KeyName) : (m.create p).Full := by
  intro q
  simp only [Hive.create, Hive.tree]
  split
  · exact h q
  · rfl

lemma Hive.Full.set {m : Hive} (h : m.Full) (p : List KeyName) (name value : String) :
    (m.set p name value).Full := by
  intro q
  simp only [Hive.set]
  split
  · exact h q
  · exact h q

/-- A machine that keeps what it is told. -/
structure Machine where
  hive : Hive
  registered : Category → Guid → Option RegFilter

def Machine.enter (m : Machine) (c : Category) (g : Guid) (r : Option RegFilter) : Machine :=
  { m with registered := fun c' g' => if c' = c ∧ g' = g then r else m.registered c' g' }

def Machine.call (m : Machine) : FilterMapperCall → Machine
  | .unregisterFilter g => m.enter .default g none
  | .registerFilter g name merit => m.enter .default g (some ⟨name, merit, []⟩)
  | .registerPin .. | .registerPinType .. => m

lemma Hive.tree_create {m : Hive} {p q : List KeyName} : (m.create p).tree q =
    if q ∈ m.keys then m.tree q
    else if q <+: p then some ⟨⟨true, true, true⟩, fun _ => none⟩ else none := by
  simp only [tree, create, List.mem_append, List.mem_inits]
  by_cases hq : q ∈ m.keys
  · simp [hq]
  · simp [hq]

/-- The machine, which writes no value that it refuses. -/
def plainWindows (refuses : String → Bool) : Windows Machine KeyName where
  tree m := plainRegistry.tree m.hive
  path := plainRegistry.path
  openKey m := plainRegistry.openKey m.hive
  enumKey m := plainRegistry.enumKey m.hive
  deleteKey m p :=
    ((plainRegistry.deleteKey m.hive p).1, { m with hive := (plainRegistry.deleteKey m.hive p).2 })
  finite m := plainRegistry.finite m.hive
  above := plainRegistry.above
  open_iff := plainRegistry.open_iff
  enum_iff := plainRegistry.enum_iff
  enum_ok := plainRegistry.enum_ok
  delete_iff := plainRegistry.delete_iff
  delete_gone := plainRegistry.delete_gone
  delete_other := plainRegistry.delete_other
  delete_failed := plainRegistry.delete_failed
  registered := Machine.registered
  stringFromGUID2 := Guid.toName
  createKey m p := (0, { m with hive := m.hive.create p })
  setValue m p name value :=
    if refuses value then (5, m) else (0, { m with hive := m.hive.set p name value })
  getModuleFileName m := (.ok "StupidAR.ax", m)
  createFilterMapper2 m := (0, m)
  createFilterMapper m := (0, m)
  unregisterFilter m c g :=
    if (m.registered c g).isSome then (0, m.enter c g none) else (.notRegistered, m)
  registerFilter m c g r := (0, m.enter c g (some r))
  filterMapper m call := (0, m.call call)
  path_single := fun hs hb => (Hive.path_single hs hb).imp fun _ h => h.2
  delete_registered := rfl
  create_new := by
    intro m p q _ hq hnone
    refine ⟨⟨true, true, true⟩, Hive.tree_create.trans ?_⟩
    rw [if_neg fun hmem => Hive.tree_ne_none.mpr hmem hnone, if_pos hq]
  create_other := by
    intro m p q hq
    refine Hive.tree_create.trans ?_
    by_cases hmem : q ∈ m.hive.keys
    · rw [if_pos hmem]
      rfl
    · have hnone : m.hive.tree q = none :=
        by_contra fun hne => hmem (Hive.tree_ne_none.mp hne)
      rw [if_neg hmem, if_neg (hq.resolve_left fun hne => hne hnone)]
      exact hnone.symm
  create_registered := rfl
  set_value := by
    intro m p name value key h hkey
    obtain ⟨hmem, rfl⟩ := Hive.tree_eq_some.mp hkey
    by_cases hrefused : refuses value = true
    · rw [if_pos hrefused] at h
      exact absurd (show (5 : UInt32) = 0 from h) (by decide)
    · rw [if_neg hrefused]
      refine ⟨_, Hive.tree_eq_some.mpr ⟨hmem, if_pos rfl⟩, if_pos rfl, fun hname => ?_⟩
      exact if_neg fun hempty => hname hempty.symm
  set_other := by
    intro m p q name value hne
    split
    · rfl
    · simp [plainRegistry, Hive.tree, Hive.set, hne]
  set_registered := by
    intro m p name value
    split <;> rfl
  module_same := ⟨rfl, rfl⟩
  mapper2_same := ⟨rfl, rfl⟩
  mapper_same := ⟨rfl, rfl⟩
  unregister_tree := by
    intro m c g
    split <;> rfl
  unregister_ok := by
    intro m c g h c' g'
    split at h
    · next hthere =>
      rw [if_pos hthere]
      rfl
    · exact Bool.noConfusion h
  unregister_failed := by
    intro m c g h
    split at h
    · exact Bool.noConfusion h
    · next hmissing => rw [if_neg hmissing]
  unregister_missing := by
    intro m c g h
    split at h
    · exact absurd (show (0 : Status) = .notRegistered from h) (by decide)
    · next hmissing => simpa using hmissing
  register_tree := rfl
  register_ok := fun _ _ _ => rfl
  register_failed := fun h => Bool.noConfusion h
  call_registered := by
    intro m call c g h
    cases call with
    | unregisterFilter | registerFilter => exact if_neg h
    | registerPin | registerPinType => rfl
  call_tree := by
    intro m call q _
    cases call <;> rfl
  call_unregister := fun _ => rfl

/-- A machine that the server has not been registered on. -/
def newMachine : Machine where
  hive := .upTo (Hive.path ("CLSID\\" ++ kMyFilterGuid.toName)).dropLast
    fun _ => ⟨⟨true, true, true⟩, fun _ => none⟩
  registered _ _ := none

variable {refuses : String → Bool} {q : List KeyName}

lemma plainWindows_clsidKey (g : Guid) :
    (plainWindows refuses).clsidKey g = Hive.path ("CLSID\\" ++ g.toName) := by
  simp only [Windows.clsidKey, plainWindows, plainRegistry]

lemma newMachine_tree (hq : q <+: (Hive.path ("CLSID\\" ++ kMyFilterGuid.toName)).dropLast) :
    newMachine.hive.tree q ≠ none :=
  Hive.tree_ne_none.mpr ((List.mem_inits _ _).mpr hq)

lemma newMachine_rooted : (plainWindows refuses).Rooted newMachine := by
  intro q hq
  rw [plainWindows_clsidKey] at hq
  obtain ⟨⟨l, hl⟩, hne⟩ := hq
  refine newMachine_tree ?_
  rw [← hl] at hne ⊢
  rw [List.dropLast_append_of_ne_nil fun hnil => hne (by simp [hnil])]
  exact List.prefix_append q l.dropLast

lemma newMachine_new (hq : (plainWindows refuses).clsidKey kMyFilterGuid <+: q) :
    (plainWindows refuses).tree newMachine q = none := by
  have hpath : Hive.path ("CLSID\\" ++ kMyFilterGuid.toName) ≠ [] := by decide +kernel
  by_contra hthere
  have hmem := (List.mem_inits _ _).mp (Hive.tree_ne_none.mp hthere)
  have hlength := (hq.trans hmem).length_le
  rw [List.length_dropLast] at hlength
  have hpos := List.length_pos_iff.mpr hpath
  rw [plainWindows_clsidKey] at hlength
  omega

end Plain

namespace Windows

variable {σ ν : Type} {W : Windows σ ν} {m m' : σ} {reg : Bool} {fuel : ℕ} {hr : Status}

/-- A call that comes back has touched nothing but the server's own entries in the registry and in
the filter mapper, failed or not. If it says that it went well, the filter is registered with the
audio renderers, or nowhere after it is taken back; and where `IFilterMapper2` is always to be
had, the registry names the file to load for it. -/
theorem dllRegUnregServer_registered (hroot : W.Rooted m)
    (h : W.dllRegUnregServer fuel reg m = some (hr, m')) :
    (∀ q, ¬ W.clsidKey kMyFilterGuid <+: q → W.tree m' q = W.tree m q) ∧
      (∀ c g, ¬ Own c g → W.registered m' c g = W.registered m c g) ∧
      (hr.failed = false → W.registered m' .default kMyFilterGuid = none ∧
        W.registered m' .audioRenderer kMyFilterGuid = registration reg ∧
        (reg = true → (∀ m, (W.createFilterMapper2 m).1.failed = false) →
          ∃ fileName, (W.getModuleFileName m).1 = .ok fileName ∧ W.Serves m' fileName)) := by
  have hkept := dllRegUnregServer_kept hroot h
  refine ⟨hkept.tree, hkept.registered, fun hok => ?_⟩
  obtain ⟨hr', m₁, -, -, -, hgood⟩ := dllRegUnregServer_cases h
  refine ⟨(hgood hok).2.1, (hgood hok).2.2, ?_⟩
  rintro rfl hmapper2
  exact dllRegisterServer_serves hmapper2 h hok

theorem dllRegUnregServer_registered_new :
    ∃ m, (plainWindows fun _ => false).dllRegUnregServer 0 true newMachine = some (0, m) ∧
      m.registered .audioRenderer kMyFilterGuid =
        some ⟨kMyFilterName, meritDoNotUse, kSetupPins⟩ ∧
      (plainWindows fun _ => false).Serves m "StupidAR.ax" := by
  have h : ∃ m, (plainWindows fun _ => false).dllRegUnregServer 0 true newMachine =
      some (0, m) := ⟨_, rfl⟩
  obtain ⟨m, hm⟩ := h
  obtain ⟨-, haudio, hserves⟩ := (dllRegUnregServer_registered newMachine_rooted hm).2.2 rfl
  obtain ⟨fileName, hfile, hserves⟩ := hserves rfl fun _ => rfl
  obtain rfl : "StupidAR.ax" = fileName := Except.ok.inj hfile
  exact ⟨m, hm, haudio, hserves⟩

/-- Whatever `DllRegisterServer` did to a machine without the server, and wherever it stopped, a
`DllUnregisterServer` comes back if the keys it has left may be opened, listed and deleted, and
leaves the machine as it was unless it says that it has failed. -/
theorem dllUnregisterServer_restores (hroot : W.Rooted m)
    (hnew : ∀ q, W.clsidKey kMyFilterGuid <+: q → W.tree m q = none)
    (hmapper : ∀ c, Own c kMyFilterGuid → W.registered m c kMyFilterGuid = none)
    (h : W.dllRegisterServer fuel m = some (hr, m')) (hkeys : W.Deletable m') :
    (∃ fuel r, W.dllUnregisterServer fuel m' = some r) ∧
      ∀ fuel hr m'', W.dllUnregisterServer fuel m' = some (hr, m'') → hr.failed = false →
        W.tree m'' = W.tree m ∧ W.registered m'' = W.registered m := by
  have hkept := dllRegUnregServer_kept hroot h
  have hleft : W.Deletable (W.registerAllFilters false 0 (W.getModuleFileName m').2).2 := by
    intro q key hq hkey
    refine hkeys q key hq ?_
    rw [registerAllFilters_unregister (by simp [hkey]), W.module_same.1] at hkey
    exact hkey
  refine ⟨?_, fun fuel' hr' m'' h' hok => ?_⟩
  · obtain ⟨fuel', r, hr'⟩ := amovieDllRegisterServer2_returns (eliminateServer_returns hleft)
    refine ⟨fuel', ?_⟩
    rw [dllUnregisterServer, dllRegUnregServer, hr', Option.map_some]
    exact ⟨_, rfl⟩
  · have hkept' := dllRegUnregServer_kept (hkept.rooted hroot) h'
    obtain ⟨hr₁, m₁, hfirst, -, htree, hgood⟩ := dllRegUnregServer_cases h'
    obtain ⟨hok₁, hdefault, haudio⟩ := hgood hok
    refine ⟨funext fun q => ?_, funext fun c => funext fun g => ?_⟩
    · by_cases hq : W.clsidKey kMyFilterGuid <+: q
      · rw [hnew q hq, htree]
        rcases amovieDllRegisterServer2_unregister hfirst with
          ⟨hfailed, -⟩ | ⟨hfailed, -⟩ | ⟨r, hr, rfl⟩
        · rw [hok₁] at hfailed
          exact Bool.false_ne_true.elim hfailed
        · rw [hok₁] at hfailed
          exact Bool.false_ne_true.elim hfailed
        · exact eliminateServer_gone hleft hr hq
      · exact (hkept'.tree q hq).trans (hkept.tree q hq)
    · by_cases hown : Own c g
      · obtain ⟨hcategory, rfl⟩ := hown
        rw [hmapper c ⟨hcategory, rfl⟩]
        rcases hcategory with rfl | rfl
        · exact hdefault
        · exact haudio
      · exact (hkept'.registered c g hown).trans (hkept.registered c g hown)

/-- The name of the file could not be written. -/
theorem dllUnregisterServer_restores_stopped :
    ∃ m, (plainWindows fun value => value = "StupidAR.ax").dllRegisterServer 0 newMachine =
        some (0x80070005, m) ∧
      ∃ fuel r, (plainWindows fun value => value = "StupidAR.ax").dllUnregisterServer fuel m =
        some r ∧ (r.1.failed = false → r.2.hive.tree = newMachine.hive.tree) := by
  have h : ∃ p p', (plainWindows fun value => value = "StupidAR.ax").dllRegisterServer 0
      newMachine = some (0x80070005, { newMachine with
        hive := ((newMachine.hive.create p).set p "" kMyFilterName).create p' }) := ⟨_, _, rfl⟩
  obtain ⟨p, p', hm⟩ := h
  have hkeys : (plainWindows fun value => value = "StupidAR.ax").Deletable { newMachine with
      hive := ((newMachine.hive.create p).set p "" kMyFilterName).create p' } := by
    intro q key _ hkey
    obtain ⟨-, rfl⟩ := Hive.tree_eq_some.mp hkey
    have hfull : newMachine.hive.Full := fun _ => rfl
    exact ((hfull.create p).set p "" kMyFilterName).create p' q
  obtain ⟨⟨fuel, r, hr⟩, hrestores⟩ := dllUnregisterServer_restores newMachine_rooted
    (fun q hq => newMachine_new hq) (fun _ _ => rfl) hm hkeys
  exact ⟨_, hm, fuel, r, hr, fun hok => (hrestores fuel r.1 r.2 hr hok).1⟩

end Windows

end StupidAR
