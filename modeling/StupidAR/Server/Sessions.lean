import StupidAR.Server.Calls

/-!
# Sessions

The DLL and the interface pointers its clients hold. Clients may make any call in any order, one
at a time, on pointers they hold; they give up no more references than they have, and an object
that aggregates filters keeps them until it goes itself. The references of a function that an
exception leaves are recorded as lost.
-/

namespace StupidAR

open Counting Relation

structure Session where
  server : Server := {}
  held : List Pointer := []
  lost : List Pointer := []

namespace Session

/-- The references outside the DLL's objects, whoever is to give them up. -/
def outside (s : Session) : List Pointer :=
  s.held ++ s.lost

/-- The client keeps the pointer a call gives it. -/
def take (s : Session) (r : Reply) : Session :=
  match r.2 with
  | .returned (.ok p) => ⟨r.1, p :: s.held, s.lost⟩
  | .returned (.error _) => ⟨r.1, s.held, s.lost⟩
  | .thrown lost => ⟨r.1, s.held, lost ++ s.lost⟩

/-- The client keeps the pins an enumerator gives it, if it returns. -/
def fetch (s : Session) (r : Server × List Pointer × Ending (Option ComError)) : Session :=
  match r.2.2 with
  | .returned _ => ⟨r.1, r.2.1 ++ s.held, s.lost⟩
  | .thrown lost => ⟨r.1, s.held, r.2.1 ++ lost ++ s.lost⟩

/-- The aggregating object at `i` keeps the filter it has made. -/
def adopt (s : Session) (i : ℕ) (r : Reply) : Session :=
  match r.2 with
  | .returned (.ok (.unknown f)) => ⟨r.1.adopt i f, s.held, s.lost⟩
  | _ => s.take r

inductive Step (s : Session) : Session → Prop where
  | dllGetClassObject (clsID : Guid) (riid : Iid) (alloc : Bool) :
    Step s (s.take (s.server.dllGetClassObject clsID riid alloc))
  | createInstance {i : ℕ} (hp : .factory i ∈ s.held) (riid : Iid) (c : Construction)
      (allocPin allocPosition : Bool) :
    Step s (s.take (s.server.createInstance none riid c allocPin allocPosition))
  | newOuter :
    Step s ⟨s.server.construct 1 (.outer []), .outer s.server.next :: s.held, s.lost⟩
  | aggregate {i o : ℕ} (hp : .factory i ∈ s.held) (ho : .outer o ∈ s.held) (riid : Iid)
      (c : Construction) (allocPin allocPosition : Bool) :
    Step s (s.adopt o (s.server.createInstance (some o) riid c allocPin allocPosition))
  | addRef {p : Pointer} (hp : p ∈ s.held) : Step s ⟨s.server.addRef p, p :: s.held, s.lost⟩
  | release {p : Pointer} (hp : p ∈ s.held) :
    Step s ⟨s.server.release p, s.held.erase p, s.lost⟩
  | queryInterface {p : Pointer} (hp : p ∈ s.held)
      (ho : ∀ f, p = .unknown f ∨ p = .filter f ∨ p = .position f → f.outer = none) (riid : Iid)
      (allocPin allocPosition : Bool) :
    Step s (s.take (s.server.queryInterface p riid allocPin allocPosition))
  | queryOuter {p : Pointer} {f : Filter} {o : ℕ} (hp : p ∈ s.held)
      (hpf : p = .filter f ∨ p = .position f) (ho : f.outer = some o) :
    Step s ⟨s.server.addRef (.outer o), .outer o :: s.held, s.lost⟩
  | queryInner {c : Object} {inner : List Filter} {f : Filter} (hp : .outer c.name ∈ s.held)
      (hc : c ∈ s.server.memory) (hbody : c.body = .outer inner) (hf : f ∈ inner)
      (ho : f.outer = some c.name) (riid : Iid) (allocPin allocPosition : Bool) :
    Step s (s.take (s.server.nonDelegatingQueryInterface f riid allocPin allocPosition))
  | enumPins {f : Filter} (hp : .filter f ∈ s.held) (alloc allocPin : Bool) :
    Step s (s.take (s.server.enumPins f alloc allocPin))
  | findPin {f : Filter} (hp : .filter f ∈ s.held) (id : String) (alloc : Bool) :
    Step s (s.take (s.server.findPin f id alloc))
  | queryPinInfo {f : Filter} (hp : .pin f ∈ s.held) :
    Step s (s.take (s.server.queryPinInfo f))
  | enumMediaTypes {f : Filter} (hp : .pin f ∈ s.held) (alloc : Bool) :
    Step s (s.take (s.server.enumMediaTypes f alloc))
  | cloneEnumMediaTypes {c : Object} {f : Filter} (hp : .enumMediaTypes c.name ∈ s.held)
      (hc : c ∈ s.server.memory) (hbody : c.body = .enumMediaTypes f) (alloc : Bool) :
    Step s (s.take (s.server.enumMediaTypes f alloc))
  | cloneEnumPins {c : Object} {f : Filter} {position pinCount : ℕ} {pinCache : Bool}
      (hp : .enumPins c.name ∈ s.held) (hc : c ∈ s.server.memory)
      (hbody : c.body = .enumPins f position pinCount pinCache) (alloc allocNode : Bool) :
    Step s (s.take (s.server.cloneEnumPins f position pinCount pinCache alloc allocNode))
  | nextEnumPins {c : Object} {f : Filter} {position pinCount : ℕ} {pinCache : Bool}
      (hp : .enumPins c.name ∈ s.held) (hc : c ∈ s.server.memory)
      (hbody : c.body = .enumPins f position pinCount pinCache) (wanted : ℕ)
      (fetched allocPin allocNode : Bool) :
    Step s (s.fetch (s.server.nextEnumPins c.name f position pinCount pinCache wanted fetched
      allocPin allocNode))
  | skipPins {c : Object} {f : Filter} {position pinCount : ℕ} {pinCache : Bool}
      (hp : .enumPins c.name ∈ s.held) (hc : c ∈ s.server.memory)
      (hbody : c.body = .enumPins f position pinCount pinCache) (n : ℕ) :
    Step s ⟨s.server.skipPins c.name position pinCount pinCache n, s.held, s.lost⟩
  | resetPins {c : Object} {f : Filter} {position pinCount : ℕ} {pinCache : Bool}
      (hp : .enumPins c.name ∈ s.held) (hc : c ∈ s.server.memory)
      (hbody : c.body = .enumPins f position pinCount pinCache) (allocPin : Bool) :
    Step s ⟨(s.server.resetPins c.name f allocPin).1, s.held,
      (s.server.resetPins c.name f allocPin).2.lost ++ s.lost⟩
  | lockServer {i : ℕ} (hp : .factory i ∈ s.held) (lock : Bool) :
    Step s ⟨s.server.lockServer lock, s.held, s.lost⟩

/-- There is room for the pointers that one call makes: the session never comes to have so many
that a count could wrap around. -/
def Bounded (s : Session) : Prop :=
  (pointers s.outside s.server.memory).length + 2 ≤ maxPointers

/-- A DLL that has just been loaded has no objects. -/
def Reachable (s : Session) : Prop :=
  ReflTransGen (fun s s' => s.Bounded ∧ s.Step s') {} s

lemma lifetime_init : Lifetime 0 [] ({} : Server) := by
  refine ⟨⟨List.nodup_nil, by simp, by simp [references]⟩, by simp [Used], rfl, by simp, ?_, ?_,
    ?_⟩
  · simp [references]
  · simp [references]
  · simp [references]

section Kept

variable {s : Session}

lemma lifetime_take {r : Reply} (h : Returns 0 s.outside r) :
    Lifetime 0 (s.take r).outside (s.take r).server := by
  obtain ⟨server, result | lost⟩ := r
  · cases result with
    | error e => exact h
    | ok p => exact h
  · exact Lifetime.perm h (List.perm_append_comm_assoc ..)

/-- An aggregating object takes the filter it has made. -/
lemma lifetime_adopt (h : Lifetime 2 s.outside s.server) {o : ℕ} (ho : .outer o ∈ s.held)
    (riid : Iid) (c : Construction) (allocPin allocPosition : Bool) :
    let s' := s.adopt o (s.server.createInstance (some o) riid c allocPin allocPosition)
    Lifetime 0 s'.outside s'.server := by
  have hout : .outer o ∈ s.outside := List.mem_append_left _ ho
  have hbelow : o < s.server.next := h.below (.outer o) (List.mem_append_left _ hout)
  have hcreate : Returns 0 s.outside
      (s.server.createInstance (some o) riid c allocPin allocPosition) :=
    h.createInstance (fun _ hi => Option.some.inj hi ▸ hbelow) ..
  simp only [adopt]
  split
  · next f heq =>
    unfold Returns at hcreate
    simp only [heq] at hcreate
    have hmem : .outer o ∈ pointers (.unknown f :: s.outside)
        (s.server.createInstance (some o) riid c allocPin allocPosition).1.memory :=
      List.mem_append_left _ (List.mem_cons_of_mem _ hout)
    obtain ⟨d, hd, rfl⟩ := List.mem_map.mp (hcreate.counted_mem hmem)
    obtain ⟨inner, hbody⟩ := hcreate.agrees _ hmem d hd rfl
    exact hcreate.adopt hd hbody
  · exact lifetime_take hcreate

lemma lifetime_fetch {r : Server × List Pointer × Ending (Option ComError)}
    (h : Lifetime 0 (r.2.1 ++ s.outside) r.1) (hlost : r.2.2.lost = []) :
    Lifetime 0 (s.fetch r).outside (s.fetch r).server := by
  obtain ⟨server, pins, result | lost⟩ := r
  · rw [show (s.fetch (server, pins, .returned result)).outside = pins ++ s.outside from
      List.append_assoc ..]
    exact h
  · obtain rfl : lost = [] := hlost
    refine Lifetime.perm h ?_
    rw [show (s.fetch (server, pins, .thrown [])).outside = s.held ++ (pins ++ [] ++ s.lost) from
      rfl, List.append_nil]
    exact List.perm_append_comm_assoc ..

lemma lifetime_step {s' : Session} (h : Lifetime 2 s.outside s.server) (hs : s.Step s') :
    Lifetime 0 s'.outside s'.server := by
  have hkept : Lifetime 0 s.outside s.server := h.mono (Nat.zero_le 2)
  have hone : Lifetime 1 s.outside s.server := h.mono (Nat.le_succ 1)
  have hout : ∀ {p}, p ∈ s.held → p ∈ s.outside := fun hp => List.mem_append_left _ hp
  have hmem : ∀ {p}, p ∈ s.held → p ∈ pointers s.outside s.server.memory :=
    fun hp => List.mem_append_left _ (hout hp)
  have hstored : ∀ {c : Object} {p : Pointer}, c ∈ s.server.memory →
      p ∈ c.body.pointers → p ∈ pointers s.outside s.server.memory :=
    fun hc hp => List.mem_append_right _ (List.mem_flatMap.mpr ⟨_, hc, hp⟩)
  cases hs with
  | dllGetClassObject clsID riid alloc => exact lifetime_take (hone.dllGetClassObject ..)
  | createInstance hp riid c allocPin allocPosition =>
    exact lifetime_take (h.createInstance (by simp) ..)
  | newOuter =>
    refine Lifetime.construct (b := .outer []) hone rfl (Nat.lt_succ_self _)
      (fun _ => ⟨[], rfl⟩) fun c hc hi => ?_
    exact absurd (h.fresh c hc) (by omega)
  | aggregate hp ho riid c allocPin allocPosition => exact lifetime_adopt h ho ..
  | addRef hp => exact hone.addRef_held (hout hp)
  | @release p hp =>
    have hperm : s.outside.Perm (p :: (s.held.erase p ++ s.lost)) :=
      (List.perm_cons_erase hp).append_right s.lost
    exact (hkept.perm hperm).release
  | queryInterface hp ho riid allocPin allocPosition =>
    exact lifetime_take (hone.queryInterface (hout hp) ho ..)
  | @queryOuter p f o hp hpf ho =>
    have hf : s.server.Reaches f :=
      h.reaches (hmem hp) (hpf.elim .inl fun hp => .inr (.inr hp))
    have howner := hf.owner
    rw [Filter.getOwner, ho, Option.getD_some] at howner
    refine hone.addRef (q := .outer o) howner (hf.below.2 o ho) fun c hc hi => ?_
    obtain ⟨inner, hbody, -⟩ := (hf.agrees c hc).2 (by rw [ho, hi])
    exact ⟨inner, hbody⟩
  | queryInner hp hc hbody hf ho riid allocPin allocPosition =>
    exact lifetime_take (hone.nonDelegatingQueryInterface (h.reaches_inner hc hbody hf ho) ..)
  | enumPins hp alloc allocPin =>
    exact lifetime_take (h.enumPins (h.reaches (hmem hp) (.inl rfl)) ..)
  | findPin hp id alloc =>
    exact lifetime_take (hone.findPin (h.reaches (hmem hp) (.inl rfl)) ..)
  | queryPinInfo hp =>
    have hf := h.reaches (hmem hp) (.inr (.inl rfl))
    exact lifetime_take (r := s.server.queryPinInfo _)
      (hone.addRef hf.owner hf.below hf.agrees)
  | enumMediaTypes hp alloc => exact lifetime_take (h.enumMediaTypes (hmem hp) alloc)
  | cloneEnumMediaTypes hp hc hbody alloc =>
    refine lifetime_take (h.enumMediaTypes (hstored hc ?_) alloc)
    rw [hbody]
    exact List.mem_cons_self
  | cloneEnumPins hp hc hbody alloc allocNode =>
    have hf := h.reaches (hstored hc (by rw [hbody]; exact List.mem_cons_self)) (.inl rfl)
    exact lifetime_take (h.cloneEnumPins hf ..)
  | nextEnumPins hp hc hbody wanted fetched allocPin allocNode =>
    have hf := h.reaches (hstored hc (by rw [hbody]; exact List.mem_cons_self)) (.inl rfl)
    obtain ⟨hnext, -, hlost⟩ := hone.nextEnumPins hf ..
    exact lifetime_fetch hnext hlost
  | skipPins hp hc hbody n =>
    simp only [Server.skipPins]
    split
    · exact hkept
    · exact hkept.setEnumPins ..
  | @resetPins c f _ _ _ hp hc hbody allocPin =>
    have hf := h.reaches (hstored hc (by rw [hbody]; exact List.mem_cons_self)) (.inl rfl)
    have hreset := hkept.resetPins hf c.name allocPin
    rwa [show (⟨(s.server.resetPins c.name f allocPin).1, s.held,
      (s.server.resetPins c.name f allocPin).2.lost ++ s.lost⟩ : Session).outside = s.outside by
        rw [outside, Server.resetPins_lost, List.nil_append, outside]]
  | lockServer hp lock => exact { hkept with }

lemma lost_take {r : Reply} (h : LeavesBehind r.2.lost) :
    ∃ lost, LeavesBehind lost ∧ (s.take r).lost = lost ++ s.lost := by
  obtain ⟨server, result | lost⟩ := r
  · cases result with
    | error e => exact ⟨[], .inl rfl, rfl⟩
    | ok p => exact ⟨[], .inl rfl, rfl⟩
  · exact ⟨lost, h, rfl⟩

lemma lost_fetch {r : Server × List Pointer × Ending (Option ComError)} {f : Filter}
    (hpins : r.2.1 = [] ∨ r.2.1 = [.pin f]) (hlost : r.2.2.lost = []) :
    ∃ lost, LeavesBehind lost ∧ (s.fetch r).lost = lost ++ s.lost := by
  obtain ⟨server, pins, result | lost⟩ := r
  · exact ⟨[], .inl rfl, rfl⟩
  · obtain rfl : lost = [] := hlost
    refine ⟨pins, ?_, congrArg (· ++ s.lost) (List.append_nil pins)⟩
    exact hpins.imp id fun h => ⟨f, .inr (.inr h)⟩

/-- A call leaves what has been lost, and adds one reference at most. -/
lemma lost_step {s' : Session} (h : Lifetime 2 s.outside s.server) (hs : s.Step s') :
    ∃ lost, LeavesBehind lost ∧ s'.lost = lost ++ s.lost := by
  cases hs with
  | dllGetClassObject clsID riid alloc =>
    exact lost_take (.inl (Server.dllGetClassObject_lost ..))
  | createInstance hp riid c allocPin allocPosition =>
    exact lost_take (Server.createInstance_lost ..)
  | aggregate hp ho riid c allocPin allocPosition =>
    simp only [adopt]
    split
    · exact ⟨[], .inl rfl, rfl⟩
    · exact lost_take (Server.createInstance_lost ..)
  | queryInterface hp ho riid allocPin allocPosition =>
    exact lost_take (.inl (Server.queryInterface_lost ..))
  | queryInner hp hc hbody hf ho riid allocPin allocPosition =>
    exact lost_take (.inl (Server.nonDelegatingQueryInterface_lost ..))
  | enumPins hp alloc allocPin => exact lost_take (Server.enumPins_lost ..)
  | findPin hp id alloc => exact lost_take (.inl (Server.findPin_lost ..))
  | queryPinInfo hp => exact lost_take (.inl rfl)
  | enumMediaTypes hp alloc => exact lost_take (.inl (Server.enumMediaTypes_lost ..))
  | cloneEnumMediaTypes hp hc hbody alloc =>
    exact lost_take (.inl (Server.enumMediaTypes_lost ..))
  | cloneEnumPins hp hc hbody alloc allocNode => exact lost_take (Server.cloneEnumPins_lost ..)
  | @nextEnumPins c f position pinCount pinCache hp hc hbody wanted fetched allocPin allocNode =>
    have hmem : .filter f ∈ pointers s.outside s.server.memory := by
      refine List.mem_append_right _ (List.mem_flatMap.mpr ⟨c, hc, ?_⟩)
      rw [hbody]
      exact List.mem_cons_self
    obtain ⟨-, hpins, hlost⟩ := h.nextEnumPins (h.reaches hmem (.inl rfl)) c.name position
      pinCount pinCache wanted fetched allocPin allocNode
    exact lost_fetch hpins hlost
  | resetPins hp hc hbody allocPin =>
    exact ⟨[], .inl rfl, by rw [Server.resetPins_lost]⟩
  | newOuter | addRef | release | queryOuter | skipPins | lockServer => exact ⟨[], .inl rfl, rfl⟩

end Kept

theorem reachable_lifetime {s : Session} (h : Reachable s) : Lifetime 0 s.outside s.server := by
  induction h with
  | refl => exact lifetime_init
  | tail _ hs ih => exact lifetime_step { ih with room := hs.1 } hs.2

/-- Only references to filters are lost. -/
theorem reachable_lost {s : Session} (h : Reachable s) :
    ∀ p ∈ s.lost, ∃ f, p = .unknown f ∨ p = .filter f ∨ p = .pin f := by
  induction h with
  | refl => exact fun p hp => absurd hp List.not_mem_nil
  | @tail s s' h hs ih =>
    obtain ⟨lost, hlost, hs'⟩ := lost_step { reachable_lifetime h with room := hs.1 } hs.2
    intro p hp
    rw [hs'] at hp
    rcases List.mem_append.mp hp with hp | hp
    · rcases hlost with rfl | ⟨f, rfl | rfl | rfl⟩
      · exact absurd hp List.not_mem_nil
      · exact ⟨f, .inl (List.mem_singleton.mp hp)⟩
      · exact ⟨f, .inr (.inl (List.mem_singleton.mp hp))⟩
      · exact ⟨f, .inr (.inr (List.mem_singleton.mp hp))⟩
    · exact ih p hp

end Session

end StupidAR
