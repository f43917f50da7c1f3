import StupidAR.Server.Sessions

/-!
# Pointers, leaks and unloading

No client ever holds a pointer to an object that is gone, no object is left that no client
can give up unless an exception has left it behind, and the DLL says it may be unloaded when
nothing of it is in use.
-/

namespace StupidAR

open Counting Relation

/-- The object an interface pointer points to is there. -/
def Server.Valid (s : Server) : Pointer → Prop
  | .factory i => ∃ c ∈ s.memory, c.name = i ∧ c.body = .classFactory
  | .unknown f | .filter f => ∃ c ∈ s.memory, c.name = f.self ∧
      ∃ inputPin position, c.body = .renderer f.outer inputPin position
  | .pin f => ∃ c ∈ s.memory, c.name = f.self ∧
      ∃ position, c.body = .renderer f.outer true position
  | .position f => ∃ c ∈ s.memory, c.name = f.self ∧
      ∃ inputPin, c.body = .renderer f.outer inputPin true
  | .enumPins i => ∃ c ∈ s.memory, c.name = i ∧
      ∃ f position pinCount pinCache, c.body = .enumPins f position pinCount pinCache
  | .enumMediaTypes i => ∃ c ∈ s.memory, c.name = i ∧ ∃ f, c.body = .enumMediaTypes f
  | .outer i => ∃ c ∈ s.memory, c.name = i ∧ ∃ inner, c.body = .outer inner

/-- Enumerators hold filters or their owners, and owners hold filters. -/
def Body.rank : Body → ℕ
  | enumPins .. | enumMediaTypes _ => 2
  | outer _ => 1
  | classFactory | renderer .. => 0

section Safety

variable {n : ℕ} {held : List Pointer} {s : Server} {p : Pointer}

lemma Lifetime.valid (h : Lifetime n held s) (hp : p ∈ pointers held s.memory) : s.Valid p := by
  have hagrees := h.agrees p hp
  have hself : ∀ f, p = .filter f ∨ p = .pin f ∨ p = .position f →
      ∃ c ∈ s.memory, c.name = f.self := by
    intro f hf
    obtain ⟨c, hc, hname, -⟩ := (h.reaches hp hf).cell h
    exact ⟨c, hc, hname⟩
  cases p with
  | factory i =>
    obtain ⟨c, hc, hname⟩ := List.mem_map.mp (h.counted_mem hp)
    exact ⟨c, hc, hname, hagrees c hc hname⟩
  | unknown f =>
    obtain ⟨c, hc, hname⟩ := List.mem_map.mp (h.counted_mem hp)
    exact ⟨c, hc, hname, hagrees c hc hname⟩
  | filter f =>
    obtain ⟨c, hc, hname⟩ := hself f (.inl rfl)
    exact ⟨c, hc, hname, (hagrees c hc).1 hname⟩
  | pin f =>
    obtain ⟨c, hc, hname⟩ := hself f (.inr (.inl rfl))
    exact ⟨c, hc, hname, (hagrees c hc).2 hname⟩
  | position f =>
    obtain ⟨c, hc, hname⟩ := hself f (.inr (.inr rfl))
    exact ⟨c, hc, hname, (hagrees c hc).2 hname⟩
  | enumPins i =>
    obtain ⟨c, hc, hname⟩ := List.mem_map.mp (h.counted_mem hp)
    exact ⟨c, hc, hname, hagrees c hc hname⟩
  | enumMediaTypes i =>
    obtain ⟨c, hc, hname⟩ := List.mem_map.mp (h.counted_mem hp)
    exact ⟨c, hc, hname, hagrees c hc hname⟩
  | outer i =>
    obtain ⟨c, hc, hname⟩ := List.mem_map.mp (h.counted_mem hp)
    exact ⟨c, hc, hname, hagrees c hc hname⟩

lemma Lifetime.count_eq (h : Lifetime n held s) {c : Object} (hc : c ∈ s.memory) :
    c.count.toNat = (pointers held s.memory).countP fun p => p.counted = c.name := by
  rw [h.balanced.counted c hc, references_pointers, List.count_eq_countP, List.countP_map]
  exact List.countP_congr fun p _ => by simp

lemma Body.rank_le (b : Body) : b.rank ≤ 2 := by
  cases b <;> simp [Body.rank]

lemma Body.baseObjects_nonneg (b : Body) : 0 ≤ b.baseObjects := by
  cases b with
  | renderer _ inputPin position => simp only [baseObjects]; omega
  | classFactory | enumPins | enumMediaTypes | outer => simp [baseObjects]

lemma Body.baseObjects_le (b : Body) : b.baseObjects ≤ 3 := by
  cases b with
  | renderer _ inputPin position =>
    have hpin := Bool.toNat_le inputPin
    have hposition := Bool.toNat_le position
    simp only [baseObjects]
    omega
  | classFactory | enumPins | enumMediaTypes | outer => simp [baseObjects]

/-- The count of objects does not wrap around. -/
lemma Lifetime.objects_toInt (h : Lifetime n held s) :
    s.objects.toInt = totalWeight Body.baseObjects s.memory := by
  have hlow := totalWeight_nonneg (m := s.memory) Body.baseObjects_nonneg
  have hhigh := totalWeight_le (m := s.memory) Body.baseObjects_le
  have hcells := h.balanced.length_le h.used
  have hroom := h.room
  rw [references_pointers, List.length_map] at hcells
  rw [show maxPointers = 2 ^ 29 from rfl] at hroom
  rw [h.objects, BitVec.toInt_ofInt]
  exact Int.bmod_eq_of_le (by omega) (by omega)

lemma Lifetime.objects_eq_zero (h : Lifetime n held s) :
    s.objects = 0 ↔ totalWeight Body.baseObjects s.memory = 0 := by
  rw [← h.objects_toInt]
  constructor
  · intro hzero
    rw [hzero]
    rfl
  · intro hzero
    exact BitVec.eq_of_toInt_eq hzero

lemma Lifetime.owner_rank (h : Lifetime n held s) (hp : p ∈ pointers held s.memory) {f : Filter}
    (hpf : p = .filter f ∨ p = .pin f) {d : Object} (hd : d ∈ s.memory)
    (hname : d.name = f.getOwner) : d.body.rank < 2 := by
  have hf : s.Reaches f := h.reaches hp (hpf.elim .inl fun hp => .inr (.inl hp))
  cases ho : f.outer with
  | none =>
    rw [Filter.getOwner, ho, Option.getD_none] at hname
    obtain ⟨inputPin, position, hbody⟩ := (hf.agrees d hd).1 hname
    simp [hbody, Body.rank]
  | some o =>
    rw [Filter.getOwner, ho, Option.getD_some] at hname
    obtain ⟨inner, hbody, -⟩ := (hf.agrees d hd).2 (by rw [ho, hname])
    simp [hbody, Body.rank]

lemma Lifetime.rank_lt (h : Lifetime n held s) {c d : Object} (hc : c ∈ s.memory)
    (hd : d ∈ s.memory) (hcd : d.name ∈ c.body.holds) : d.body.rank < c.body.rank := by
  obtain ⟨p, hp, hname⟩ := List.mem_map.mp hcd
  have hmem : p ∈ pointers held s.memory :=
    List.mem_append_right _ (List.mem_flatMap.mpr ⟨c, hc, hp⟩)
  cases hbody : c.body with
  | classFactory | renderer => simp [hbody, Body.pointers] at hp
  | enumPins f =>
    obtain rfl : p = .filter f := by simpa [hbody, Body.pointers] using hp
    exact h.owner_rank hmem (.inl rfl) hd hname.symm
  | enumMediaTypes f =>
    obtain rfl : p = .pin f := by simpa [hbody, Body.pointers] using hp
    exact h.owner_rank hmem (.inr rfl) hd hname.symm
  | outer inner =>
    obtain ⟨f, -, rfl⟩ : ∃ f ∈ inner, Pointer.unknown f = p := by
      simpa [hbody, Body.pointers] using hp
    obtain ⟨inputPin, position, hd⟩ := h.agrees _ hmem d hd hname.symm
    simp [hd, Body.rank]

/-- Every object is there because a client holds a pointer that leads to it. -/
lemma Lifetime.reached (h : Lifetime n held s) {c : Object} (hc : c ∈ s.memory) :
    ∃ p ∈ held, ReflTransGen (Refers Body.holds s.memory) p.counted c.name := by
  obtain ⟨i, hi, hpath⟩ := h.balanced.reached h.used Body.rank_le
    (fun c hc d hd hcd => h.rank_lt hc hd hcd) hc
  obtain ⟨p, hp, rfl⟩ := List.mem_map.mp hi
  exact ⟨p, hp, hpath⟩

/-- Nothing is left that counts as an object when the clients hold objects of their own only. -/
lemma Lifetime.no_objects_iff (h : Lifetime n held s) :
    s.objects = 0 ↔ ∀ p ∈ held, ∃ c ∈ s.memory, p = .outer c.name ∧ c.body = .outer [] := by
  rw [h.objects_eq_zero, totalWeight_eq_zero Body.baseObjects_nonneg]
  constructor
  · intro hzero
    have hfilter : ∀ f, ¬ s.Valid (.filter f) := by
      rintro f ⟨c, hc, -, inputPin, position, hbody⟩
      have hc0 := hzero c hc
      rw [hbody, Body.baseObjects] at hc0
      omega
    have hstored : ∀ c ∈ s.memory, ∀ p ∈ c.body.pointers, s.Valid p := fun c hc p hp =>
      h.valid (List.mem_append_right _ (List.mem_flatMap.mpr ⟨c, hc, hp⟩))
    intro p hp
    have hvalid := h.valid (List.mem_append_left _ hp)
    cases p with
    | factory i =>
      obtain ⟨c, hc, -, hbody⟩ := hvalid
      have hc0 := hzero c hc
      simp [hbody, Body.baseObjects] at hc0
    | unknown f | filter f => exact absurd hvalid (hfilter f)
    | pin f =>
      obtain ⟨c, hc, hname, position, hbody⟩ := hvalid
      exact absurd ⟨c, hc, hname, true, position, hbody⟩ (hfilter f)
    | position f =>
      obtain ⟨c, hc, hname, inputPin, hbody⟩ := hvalid
      exact absurd ⟨c, hc, hname, inputPin, true, hbody⟩ (hfilter f)
    | enumPins i =>
      obtain ⟨c, hc, -, f, position, pinCount, pinCache, hbody⟩ := hvalid
      refine absurd (hstored c hc (.filter f) ?_) (hfilter f)
      rw [hbody]
      exact List.mem_cons_self
    | enumMediaTypes i =>
      obtain ⟨c, hc, -, f, hbody⟩ := hvalid
      obtain ⟨d, hd, hname, position, hdbody⟩ := hstored c hc (.pin f) (by
        rw [hbody]
        exact List.mem_cons_self)
      exact absurd ⟨d, hd, hname, true, position, hdbody⟩ (hfilter f)
    | outer i =>
      obtain ⟨c, hc, rfl, inner, hbody⟩ := hvalid
      refine ⟨c, hc, rfl, ?_⟩
      cases inner with
      | nil => exact hbody
      | cons f inner =>
        refine absurd (hstored c hc (.unknown f) ?_) (hfilter f)
        rw [hbody]
        exact List.mem_cons_self
  · intro hheld c hc
    obtain ⟨p, hp, hpath⟩ := h.reached hc
    obtain ⟨d, hd, rfl, hbody⟩ := hheld p hp
    cases hpath.cases_head with
    | inl he =>
      obtain rfl := h.cell_eq hd hc he.symm
      simp [hbody, Body.baseObjects]
    | inr hstep =>
      obtain ⟨j, ⟨e, he, hname, hj⟩, -⟩ := hstep
      obtain rfl := h.cell_eq hd he hname
      simp [hbody, Body.holds, Body.pointers] at hj

end Safety

section Creation

variable {m : List Object} {t : Server} {f : Filter} {riid : Iid}

/-- What a filter with one reference answers: an error, a pointer to it with another reference,
or an exception, when it is to make its pin and its position object and cannot. -/
def Server.Answers (f : Filter) (riid : Iid) (allocPin allocPosition : Bool) (m : List Object)
    (t : Server) (r : Reply) : Prop :=
  (∃ e, r = (t, .returned (.error e))) ∨
  (∃ p inputPin position, r.2 = .returned (.ok p) ∧
    (p = .unknown f ∨ p = .filter f ∨ p = .position f) ∧
    r.1.memory = ⟨f.self, 2, .renderer f.outer inputPin position⟩ :: m) ∨
  ∃ inputPin, r.2 = .thrown [] ∧ f.outer = none ∧
    (riid = .mediaPosition ∨ riid = .mediaSeeking) ∧
    (allocPin = false ∨ allocPosition = false) ∧
    r.1.memory = ⟨f.self, 1, .renderer f.outer inputPin false⟩ :: m

lemma Server.position_fresh (hm : f.self ∉ m.map Cell.name)
    (ht : t.memory = ⟨f.self, 1, .renderer f.outer false false⟩ :: m) (ho : f.outer = none)
    (hriid : riid = .mediaPosition ∨ riid = .mediaSeeking) (allocPin allocPosition : Bool) :
    Answers f riid allocPin allocPosition m t
      (t.getMediaPositionInterface f allocPin allocPosition) := by
  have howner : f.getOwner = f.self := by rw [Filter.getOwner, ho, Option.getD_none]
  have hpin : t.hasPin f = false := by simp [hasPin, ht, find]
  have hposition : t.hasPosition f = false := by simp [hasPosition, ht, find]
  have hmade : (t.createPin f).memory = ⟨f.self, 1, .renderer f.outer true false⟩ :: m := by
    simp only [createPin, ht]
    exact modify_cons_self (c := ⟨f.self, 1, .renderer f.outer false false⟩) hm
  have hboth : ((t.createPin f).createPosition f).memory =
      ⟨f.self, 1, .renderer f.outer true true⟩ :: m := by
    simp only [createPosition, hmade]
    exact modify_cons_self (c := ⟨f.self, 1, .renderer f.outer true false⟩) hm
  cases allocPin with
  | false =>
    have hr : t.getMediaPositionInterface f false allocPosition = (t, .thrown []) := by
      simp [getMediaPositionInterface, hposition, getPin, hpin]
    rw [hr]
    exact .inr (.inr ⟨false, rfl, ho, hriid, .inl rfl, ht⟩)
  | true =>
    cases allocPosition with
    | false =>
      have hr : t.getMediaPositionInterface f true false = (t.createPin f, .thrown []) := by
        simp [getMediaPositionInterface, hposition, getPin, hpin]
      rw [hr]
      exact .inr (.inr ⟨true, rfl, ho, hriid, .inr rfl, hmade⟩)
    | true =>
      have hr : t.getMediaPositionInterface f true true =
          (((t.createPin f).createPosition f).addRef (.position f),
            .returned (.ok (.position f))) := by
        simp [getMediaPositionInterface, hposition, getPin, hpin]
      rw [hr]
      refine .inr (.inl ⟨.position f, true, true, rfl, .inr (.inr rfl), ?_⟩)
      simp only [addRef, hboth, Pointer.counted, howner]
      exact modify_cons_self (c := ⟨f.self, 1, .renderer f.outer true true⟩) hm

/-- A filter that has just been made is asked for an interface. -/
lemma Server.query_fresh (hm : f.self ∉ m.map Cell.name)
    (ht : t.memory = ⟨f.self, 1, .renderer f.outer false false⟩ :: m)
    (ho : f.outer = none ∨ riid = .unknown) (allocPin allocPosition : Bool) :
    Answers f riid allocPin allocPosition m t
      (t.nonDelegatingQueryInterface f riid allocPin allocPosition) := by
  have hunknown : Answers f riid allocPin allocPosition m t
      (t.addRef (.unknown f), .returned (.ok (.unknown f))) := by
    refine .inr (.inl ⟨.unknown f, false, false, rfl, .inl rfl, ?_⟩)
    simp only [addRef, ht, Pointer.counted]
    exact modify_cons_self (c := ⟨f.self, 1, .renderer f.outer false false⟩) hm
  rcases ho with ho | rfl
  · have howner : f.getOwner = f.self := by rw [Filter.getOwner, ho, Option.getD_none]
    have hfilter : Answers f riid allocPin allocPosition m t
        (t.addRef (.filter f), .returned (.ok (.filter f))) := by
      refine .inr (.inl ⟨.filter f, false, false, rfl, .inr (.inl rfl), ?_⟩)
      simp only [addRef, ht, Pointer.counted, howner]
      exact modify_cons_self (c := ⟨f.self, 1, .renderer f.outer false false⟩) hm
    cases riid with
    | mediaPosition => exact position_fresh hm ht ho (.inl rfl) ..
    | mediaSeeking => exact position_fresh hm ht ho (.inr rfl) ..
    | baseFilter | mediaFilter | persist | aMovieSetup => exact hfilter
    | unknown => exact hunknown
    | classFactory | pin | qualityControl | memInputPin | enumPins | enumMediaTypes | other =>
      exact .inl ⟨.noInterface, rfl⟩
  · exact hunknown

/-- The reference of the class factory is given up, and it was not the last. -/
lemma Server.nonDelegatingRelease_cons {b : Body} (hm : f.self ∉ m.map Cell.name)
    (ht : t.memory = ⟨f.self, 2, b⟩ :: m) :
    (t.nonDelegatingRelease f).memory = ⟨f.self, 1, b⟩ :: m := by
  have hrelease : Counting.release f.self t.memory = (⟨f.self, 1, b⟩ :: m, none) := by
    rw [ht]
    have hone : (2 : BitVec 32) - 1 = 1 := by decide
    refine (release_cons (c := ⟨f.self, 2, b⟩) hm).trans ?_
    dsimp only
    rw [hone, if_neg (by decide)]
  simp only [nonDelegatingRelease, drop, hrelease]

/-- The reference of the class factory is given up, and the filter goes with it. -/
lemma Server.nonDelegatingRelease_cons_one {b : Body} (hm : f.self ∉ m.map Cell.name)
    (ht : t.memory = ⟨f.self, 1, b⟩ :: m) :
    (t.nonDelegatingRelease f).memory = m ∧
      (t.nonDelegatingRelease f).objects = t.objects - BitVec.ofInt 32 b.baseObjects := by
  have hrelease : Counting.release f.self t.memory = (m, some b) := by
    rw [ht]
    refine (release_cons (c := ⟨f.self, 1, b⟩) hm).trans ?_
    exact if_pos (show (1 : BitVec 32) - 1 = 0 by decide)
  simp only [nonDelegatingRelease, drop, hrelease, and_self]

end Creation

namespace Session

/-- In every session every interface pointer, of a client, in an object or lost by an exception,
points to an object that is there, and every count is the number of pointers counted there. -/
theorem pointers_valid {s : Session} (h : Reachable s) :
    (∀ p ∈ pointers s.outside s.server.memory, s.server.Valid p) ∧
      (∀ c ∈ s.server.memory, c.count ≠ 0 ∧
        c.count.toNat =
          (pointers s.outside s.server.memory).countP fun p => p.counted = c.name) ∧
      s.server.objects.toInt = totalWeight Body.baseObjects s.server.memory := by
  have hl := reachable_lifetime h
  exact ⟨fun p hp => hl.valid hp, fun c hc => ⟨hl.used c hc, hl.count_eq hc⟩, hl.objects_toInt⟩

lemma Reachable.step {s s' : Session} (h : Reachable s)
    (hroom : (pointers s.outside s.server.memory).length + 2 ≤ maxPointers) (hs : s.Step s') :
    Reachable s' :=
  h.tail ⟨hroom, hs⟩

/-- A client makes a filter. -/
lemma reachable_filter : Reachable
    ⟨⟨[⟨1, 1, .renderer none false false⟩, ⟨0, 1, .classFactory⟩], 2, 2, 0⟩,
      [.filter ⟨1, none⟩, .factory 0], []⟩ := by
  have h₁ : Reachable ⟨⟨[⟨0, 1, .classFactory⟩], 1, 1, 0⟩, [.factory 0], []⟩ :=
    Reachable.step (s := {}) ReflTransGen.refl (by decide)
      (.dllGetClassObject kMyFilterGuid .classFactory true)
  exact h₁.step (by decide) (.createInstance List.mem_cons_self .baseFilter .done true true)

/-- The client lets the filter enumerate its pins, and keeps the enumerator only. -/
lemma reachable_enumerating : Reachable
    ⟨⟨[⟨2, 1, .enumPins ⟨1, none⟩ 0 1 false⟩, ⟨1, 1, .renderer none true false⟩], 3, 2, 0⟩,
      [.enumPins 2], []⟩ := by
  have h₃ : Reachable ⟨⟨[⟨2, 1, .enumPins ⟨1, none⟩ 0 1 false⟩,
      ⟨1, 2, .renderer none true false⟩, ⟨0, 1, .classFactory⟩], 3, 3, 0⟩,
      [.enumPins 2, .filter ⟨1, none⟩, .factory 0], []⟩ :=
    reachable_filter.step (by decide) (.enumPins (f := ⟨1, none⟩) List.mem_cons_self true true)
  have h₄ : Reachable ⟨⟨[⟨2, 1, .enumPins ⟨1, none⟩ 0 1 false⟩,
      ⟨1, 1, .renderer none true false⟩, ⟨0, 1, .classFactory⟩], 3, 3, 0⟩,
      [.enumPins 2, .factory 0], []⟩ :=
    h₃.step (by decide) (.release (p := .filter ⟨1, none⟩) (by decide))
  exact h₄.step (by decide) (.release (p := .factory 0) (by decide))

theorem pointers_valid_enumerating :
    Server.Valid
      ⟨[⟨2, 1, .enumPins ⟨1, none⟩ 0 1 false⟩, ⟨1, 1, .renderer none true false⟩], 3, 2, 0⟩
      (.filter ⟨1, none⟩) :=
  (pointers_valid reachable_enumerating).1 (.filter ⟨1, none⟩) (by decide)

/-- What leaks is what an exception has left behind: every object is kept by a chain of pointers
from one that a client holds or from a lost one, only references to filters are lost, and nothing
is left when the clients have given up all of theirs and none is lost. -/
theorem leaks_accounted {s : Session} (h : Reachable s) :
    (∀ c ∈ s.server.memory, ∃ p ∈ s.held ++ s.lost,
      ReflTransGen (Refers Body.holds s.server.memory) p.counted c.name) ∧
    (∀ p ∈ s.lost, ∃ f, p = .unknown f ∨ p = .filter f ∨ p = .pin f) ∧
    (s.held = [] → s.lost = [] → s.server.memory = [] ∧ s.server.objects = 0) := by
  have hl := reachable_lifetime h
  refine ⟨fun c hc => hl.reached hc, reachable_lost h, fun hheld hlost => ?_⟩
  have hempty : s.server.memory = [] := by
    refine List.eq_nil_iff_forall_not_mem.mpr fun c hc => ?_
    obtain ⟨p, hp, -⟩ := hl.reached hc
    simp [outside, hheld, hlost] at hp
  exact ⟨hempty, by rw [hl.objects, hempty]; rfl⟩

/-- There is no memory for the position object of a filter: the filter is left behind when the
client has given up the class factory. -/
lemma reachable_lost_filter : Reachable
    ⟨⟨[⟨1, 1, .renderer none true false⟩], 2, 2, 0⟩, [], [.unknown ⟨1, none⟩]⟩ := by
  have h₁ : Reachable ⟨⟨[⟨0, 1, .classFactory⟩], 1, 1, 0⟩, [.factory 0], []⟩ :=
    Reachable.step (s := {}) ReflTransGen.refl (by decide)
      (.dllGetClassObject kMyFilterGuid .classFactory true)
  have h₂ : Reachable ⟨⟨[⟨1, 1, .renderer none true false⟩, ⟨0, 1, .classFactory⟩], 2, 3, 0⟩,
      [.factory 0], [.unknown ⟨1, none⟩]⟩ :=
    h₁.step (by decide) (.createInstance List.mem_cons_self .mediaSeeking .done true false)
  exact h₂.step (by decide) (.release (p := .factory 0) (by decide))

theorem leaks_accounted_filter :
    ∃ p ∈ [Pointer.unknown ⟨1, none⟩], ReflTransGen (Refers Body.holds
      ([⟨1, 1, .renderer none true false⟩] : List Object)) p.counted 1 :=
  (leaks_accounted reachable_lost_filter).1 ⟨1, 1, .renderer none true false⟩ (by decide)

/-- `CreateInstance` leaves the objects as they were when it answers an error. When it succeeds
there is one filter more, with one reference, which the client gets. An exception leaves the
filter behind with a reference that nobody has: it may come when a filter that is not aggregated is
asked for the interfaces of its position object, and there is no memory for it or for the pin. -/
theorem createInstance_outcomes {s : Session} (h : Reachable s) (outer : Option ℕ) (riid : Iid)
    (c : Construction) (allocPin allocPosition : Bool) :
    let r := s.server.createInstance outer riid c allocPin allocPosition
    let f : Filter := ⟨s.server.next, outer⟩
    (∃ e, r.2 = .returned (.error e) ∧ r.1.memory = s.server.memory ∧
      r.1.objects = s.server.objects) ∨
    (∃ p inputPin position, r.2 = .returned (.ok p) ∧
      (p = .unknown f ∨ p = .filter f ∨ p = .position f) ∧
      r.1.memory = ⟨f.self, 1, .renderer outer inputPin position⟩ :: s.server.memory) ∨
    ∃ inputPin, r.2 = .thrown [.unknown f] ∧ outer = none ∧
      (riid = .mediaPosition ∨ riid = .mediaSeeking) ∧
      (allocPin = false ∨ allocPosition = false) ∧
      r.1.memory = ⟨f.self, 1, .renderer outer inputPin false⟩ :: s.server.memory := by
  have hnext := (reachable_lifetime h).next_notMem
  simp only [Server.createInstance]
  split_ifs with hagg
  · exact .inl ⟨.noInterface, rfl, rfl, rfl⟩
  · cases c with
    | noMemory => exact .inl ⟨.outOfMemory, rfl, rfl, rfl⟩
    | noEvents =>
      have hdelete := Server.delete_construct hnext (.renderer outer false false)
      have hmemory := congrArg Server.memory hdelete
      have hobjects := congrArg Server.objects hdelete
      exact .inl ⟨.outOfMemory, rfl, hmemory, hobjects⟩
    | done =>
      have hadd : (s.server.construct 0 (.renderer outer false false)).addRef
          (.unknown ⟨s.server.next, outer⟩) =
          s.server.construct 1 (.renderer outer false false) :=
        Server.construct_addRef rfl hnext
      have ho : outer = none ∨ riid = .unknown := by
        cases outer with
        | none => exact .inl rfl
        | some o => exact .inr (by simpa using hagg)
      have hanswer := Server.query_fresh (f := ⟨s.server.next, outer⟩)
        (t := s.server.construct 1 (.renderer outer false false)) hnext rfl ho allocPin
        allocPosition
      simp only [Server.createFilter, hadd]
      rcases hanswer with ⟨e, he⟩ | ⟨p, inputPin, position, hp, hpf, hmemory⟩ |
        ⟨inputPin, hthrown, hnone, hriid, halloc, hmemory⟩
      · have hrelease := Server.nonDelegatingRelease_cons_one (f := ⟨s.server.next, outer⟩)
          (t := s.server.construct 1 (.renderer outer false false)) hnext rfl
        simp only [he]
        refine .inl ⟨e, rfl, hrelease.1, hrelease.2.trans ?_⟩
        exact BitVec.add_sub_cancel _ _
      · split
        · next t result heq =>
          rw [heq] at hp hmemory
          obtain rfl : result = .ok p := Ending.returned.inj hp
          refine .inr (.inl ⟨p, inputPin, position, rfl, hpf, ?_⟩)
          exact Server.nonDelegatingRelease_cons hnext hmemory
        · next heq =>
          rw [heq] at hp
          cases hp
      · split
        · next heq =>
          rw [heq] at hthrown
          cases hthrown
        · next t lost heq =>
          rw [heq] at hthrown hmemory
          obtain rfl : lost = [] := Ending.thrown.inj hthrown
          exact .inr (.inr ⟨inputPin, rfl, hnone, hriid, halloc, hmemory⟩)

theorem createInstance_outcomes_filter :
    let s : Server := ⟨[⟨1, 1, .renderer none false false⟩, ⟨0, 1, .classFactory⟩], 2, 2, 0⟩
    (∃ inputPin position, (s.createInstance none .baseFilter .done true true).1.memory =
      ⟨2, 1, .renderer none inputPin position⟩ :: s.memory) ∧
    ∃ inputPin, (s.createInstance none .mediaSeeking .done true false).1.memory =
      ⟨2, 1, .renderer none inputPin false⟩ :: s.memory := by
  refine ⟨?_, ?_⟩
  · rcases createInstance_outcomes reachable_filter none .baseFilter .done true true with
      ⟨e, he, -⟩ | ⟨p, inputPin, position, -, -, hmemory⟩ | ⟨inputPin, hthrown, -⟩
    · cases he
    · exact ⟨inputPin, position, hmemory⟩
    · cases hthrown
  · rcases createInstance_outcomes reachable_filter none .mediaSeeking .done true false with
      ⟨e, he, -⟩ | ⟨p, inputPin, position, hp, -⟩ | ⟨inputPin, -, -, -, -, hmemory⟩
    · cases he
    · cases hp
    · exact ⟨inputPin, hmemory⟩

/-- `DllCanUnloadNow` answers `S_OK` when the count of locks is not positive, no exception has
left a filter behind, and clients hold pointers to objects of their own only, none of which has
a filter inside. -/
theorem dllCanUnloadNow_iff {s : Session} (h : Reachable s) :
    s.server.dllCanUnloadNow = true ↔ s.server.locked.toInt ≤ 0 ∧ s.lost = [] ∧
      ∀ p ∈ s.held, ∃ c ∈ s.server.memory, p = .outer c.name ∧ c.body = .outer [] := by
  have hout : (∀ p ∈ s.outside, ∃ c ∈ s.server.memory, p = .outer c.name ∧ c.body = .outer []) ↔
      s.lost = [] ∧
        ∀ p ∈ s.held, ∃ c ∈ s.server.memory, p = .outer c.name ∧ c.body = .outer [] := by
    constructor
    · intro hown
      refine ⟨List.eq_nil_iff_forall_not_mem.mpr fun p hp => ?_,
        fun p hp => hown p (List.mem_append_left _ hp)⟩
      obtain ⟨c, -, rfl, -⟩ := hown p (List.mem_append_right _ hp)
      obtain ⟨f, hf⟩ := reachable_lost h _ hp
      simp at hf
    · rintro ⟨hlost, hheld⟩ p hp
      rw [outside, hlost, List.append_nil] at hp
      exact hheld p hp
  rw [← hout, ← (reachable_lifetime h).no_objects_iff, Server.dllCanUnloadNow,
    decide_eq_true_iff, Int.not_lt]

theorem dllCanUnloadNow_iff_enumerating :
    Server.dllCanUnloadNow
      ⟨[⟨2, 1, .enumPins ⟨1, none⟩ 0 1 false⟩, ⟨1, 1, .renderer none true false⟩], 3, 2, 0⟩ =
        false := by
  rw [← Bool.not_eq_true]
  intro h
  obtain ⟨c, -, hp, -⟩ := ((dllCanUnloadNow_iff reachable_enumerating).mp h).2.2 (.enumPins 2)
    List.mem_cons_self
  cases hp

end Session

end StupidAR
