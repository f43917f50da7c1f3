import StupidAR.Server.Lifetime

/-!
# The calls of clients

Each call that gives out interface pointers keeps the lifetime of the objects in order,
whether it succeeds or not; an exception leaves references behind that nobody holds.
-/

namespace StupidAR

open Counting

variable {n : ℕ} {held held' : List Pointer} {s : Server} {p q : Pointer} {f : Filter} {i : ℕ}
  {b b' : Body}

section Exceptions

/-- An exception leaves behind no reference, or one to a filter. -/
def LeavesBehind (lost : List Pointer) : Prop :=
  lost = [] ∨ ∃ f, lost = [.unknown f] ∨ lost = [.filter f] ∨ lost = [.pin f]

lemma Server.getPin_lost (k : ℕ) (alloc : Bool) : (s.getPin f k alloc).2.lost = [] := by
  unfold Server.getPin
  split_ifs <;> rfl

lemma Server.getPin_thrown {k : ℕ} {alloc : Bool} {t : Server} {lost : List Pointer}
    (h : s.getPin f k alloc = (t, .thrown lost)) : lost = [] := by
  have hlost := s.getPin_lost (f := f) k alloc
  rwa [h] at hlost

lemma Server.getPinCount_lost (alloc : Bool) : (s.getPinCount f alloc).2.lost = [] := by
  unfold Server.getPinCount
  split
  · rfl
  · next heq => exact Server.getPin_thrown heq

lemma Server.getPinCount_thrown {alloc : Bool} {t : Server} {lost : List Pointer}
    (h : s.getPinCount f alloc = (t, .thrown lost)) : lost = [] := by
  have hlost := s.getPinCount_lost (f := f) alloc
  rwa [h] at hlost

lemma Server.findPin_lost (id : String) (alloc : Bool) : (s.findPin f id alloc).2.lost = [] := by
  unfold Server.findPin
  split
  · split
    · rfl
    · rfl
    · next heq => exact Server.getPin_thrown heq
  · rfl

lemma Server.getMediaPositionInterface_lost (allocPin allocPosition : Bool) :
    (s.getMediaPositionInterface f allocPin allocPosition).2.lost = [] := by
  unfold Server.getMediaPositionInterface
  split
  · rfl
  · split
    · rfl
    · split <;> rfl
    · next heq => exact Server.getPin_thrown heq

lemma Server.nonDelegatingQueryInterface_lost (riid : Iid) (allocPin allocPosition : Bool) :
    (s.nonDelegatingQueryInterface f riid allocPin allocPosition).2.lost = [] := by
  unfold Server.nonDelegatingQueryInterface
  split
  · exact getMediaPositionInterface_lost ..
  · exact getMediaPositionInterface_lost ..
  all_goals rfl

lemma Server.queryOwn_lost (known : List Iid) (riid : Iid) :
    (s.queryOwn p known riid).2.lost = [] := by
  unfold Server.queryOwn
  split <;> rfl

lemma Server.queryInterface_lost (riid : Iid) (allocPin allocPosition : Bool) :
    (s.queryInterface p riid allocPin allocPosition).2.lost = [] := by
  cases p with
  | unknown f | filter f | position f => exact nonDelegatingQueryInterface_lost ..
  | factory i | pin f | enumPins i | enumMediaTypes i | outer i => exact queryOwn_lost ..

lemma Server.dllGetClassObject_lost (clsID : Guid) (riid : Iid) (alloc : Bool) :
    (s.dllGetClassObject clsID riid alloc).2.lost = [] := by
  unfold Server.dllGetClassObject
  split_ifs <;> rfl

/-- What `CreateInstance` loses is its own reference to the filter. -/
lemma Server.createInstance_lost (outer : Option ℕ) (riid : Iid) (c : Construction)
    (allocPin allocPosition : Bool) :
    LeavesBehind (s.createInstance outer riid c allocPin allocPosition).2.lost := by
  unfold Server.createInstance
  split
  · exact .inl rfl
  · split
    · exact .inl rfl
    · exact .inl rfl
    · next t f _ =>
      have hlost := (t.addRef (.unknown f)).nonDelegatingQueryInterface_lost (f := f) riid
        allocPin allocPosition
      split
      · exact .inl rfl
      · next u lost heq =>
        rw [heq] at hlost
        exact .inr ⟨f, .inl (congrArg _ hlost)⟩

/-- What `EnumPins` loses is the reference the constructor of the enumerator took. -/
lemma Server.enumPins_lost (alloc allocPin : Bool) :
    LeavesBehind (s.enumPins f alloc allocPin).2.lost := by
  unfold Server.enumPins
  split
  · split
    · exact .inl rfl
    · next heq => exact .inr ⟨f, .inr (.inl (congrArg _ (getPinCount_thrown heq)))⟩
  · exact .inl rfl

lemma Server.cloneEnumPins_lost (position pinCount : ℕ) (pinCache alloc allocNode : Bool) :
    LeavesBehind (s.cloneEnumPins f position pinCount pinCache alloc allocNode).2.lost := by
  unfold Server.cloneEnumPins
  split
  · dsimp only
    split
    · exact .inr ⟨f, .inr (.inl rfl)⟩
    · exact .inl rfl
  · exact .inl rfl

lemma Server.enumMediaTypes_lost (alloc : Bool) : (s.enumMediaTypes f alloc).2.lost = [] := by
  unfold Server.enumMediaTypes
  split <;> rfl

lemma Server.resetPins_lost (i : ℕ) (allocPin : Bool) :
    (s.resetPins i f allocPin).2.lost = [] := by
  unfold Server.resetPins
  split
  · rfl
  · next heq => exact getPinCount_thrown heq

end Exceptions

section Queries

/-- A filter that can be asked: its owner is there, and at its address is a filter that its
owner keeps. -/
structure Server.Reaches (s : Server) (f : Filter) : Prop where
  below : f.Below s.next
  agrees : ∀ c ∈ s.memory, f.Agrees c.name c.body
  owner : f.getOwner ∈ s.memory.map Cell.name

/-- What a call leaves behind: the client gets a pointer or none, or references are lost. -/
def Returns (n : ℕ) (held : List Pointer) (r : Reply) : Prop :=
  match r.2 with
  | .returned (.ok p) => Lifetime n (p :: held) r.1
  | .returned (.error _) => Lifetime n held r.1
  | .thrown lost => Lifetime n (lost ++ held) r.1

lemma Lifetime.reaches (h : Lifetime n held s) (hp : p ∈ pointers held s.memory)
    (hpf : p = .filter f ∨ p = .pin f ∨ p = .position f) : s.Reaches f := by
  have hbelow := h.below p hp
  have hagrees := h.agrees p hp
  have howner := h.counted_mem hp
  rcases hpf with rfl | rfl | rfl
  · exact ⟨hbelow, hagrees, howner⟩
  · exact ⟨hbelow, fun c hc => (hagrees c hc).1, howner⟩
  · exact ⟨hbelow, fun c hc => (hagrees c hc).1, howner⟩

lemma Lifetime.reaches_unknown (h : Lifetime n held s) (hp : .unknown f ∈ pointers held s.memory)
    (ho : f.outer = none) : s.Reaches f := by
  refine ⟨h.below _ hp, fun c hc => ⟨h.agrees _ hp c hc, by simp [ho]⟩, ?_⟩
  have hself := h.counted_mem hp
  rwa [Filter.getOwner, ho, Option.getD_none]

lemma Lifetime.cell_eq (h : Lifetime n held s) {c d : Object} (hc : c ∈ s.memory)
    (hd : d ∈ s.memory) (hcd : d.name = c.name) : d = c := by
  have hfind := find_eq h.balanced.nodup hd
  rw [hcd, find_eq h.balanced.nodup hc] at hfind
  exact (Option.some.inj hfind).symm

/-- An aggregating object reaches the filters it has made. -/
lemma Lifetime.reaches_inner (h : Lifetime n held s) {c : Object} {inner : List Filter}
    (hc : c ∈ s.memory) (hbody : c.body = .outer inner) (hf : f ∈ inner)
    (ho : f.outer = some c.name) : s.Reaches f := by
  have hp : .unknown f ∈ pointers held s.memory := by
    refine List.mem_append_right held (List.mem_flatMap.mpr ⟨c, hc, ?_⟩)
    rw [hbody]
    exact List.mem_map_of_mem hf
  refine ⟨h.below _ hp, fun d hd => ⟨h.agrees _ hp d hd, fun hi => ?_⟩, ?_⟩
  · obtain rfl := h.cell_eq hc hd (Option.some.inj (hi.symm.trans ho))
    exact ⟨inner, hbody, hf⟩
  · rw [Filter.getOwner, ho]
    exact List.mem_map_of_mem hc

lemma Server.Reaches.self (hf : s.Reaches f) (h : Lifetime n held s) :
    f.self ∈ s.memory.map Cell.name := by
  have howner := hf.owner
  cases ho : f.outer with
  | none => rwa [Filter.getOwner, ho, Option.getD_none] at howner
  | some o =>
    rw [Filter.getOwner, ho, Option.getD_some] at howner
    obtain ⟨c, hc, rfl⟩ := List.mem_map.mp howner
    obtain ⟨inner, hbody, hinner⟩ := (hf.agrees c hc).2 ho
    refine h.counted_mem (p := .unknown f) (List.mem_append_right held ?_)
    refine List.mem_flatMap.mpr ⟨c, hc, ?_⟩
    rw [hbody]
    exact List.mem_map_of_mem hinner

/-- The filter itself. -/
lemma Server.Reaches.cell (hf : s.Reaches f) (h : Lifetime n held s) :
    ∃ c ∈ s.memory, c.name = f.self ∧
      c.body = .renderer f.outer (s.hasPin f) (s.hasPosition f) := by
  obtain ⟨c, hc, hname⟩ := List.mem_map.mp (hf.self h)
  obtain ⟨inputPin, position, hbody⟩ := (hf.agrees c hc).1 hname
  have hfind : find f.self s.memory = some c := hname ▸ find_eq h.balanced.nodup hc
  refine ⟨c, hc, hname, ?_⟩
  obtain ⟨name, count, body⟩ := c
  obtain rfl : body = _ := hbody
  simp [Server.hasPin, Server.hasPosition, hfind]

lemma Server.Reaches.addRef (hf : s.Reaches f) : (s.addRef q).Reaches f := by
  refine ⟨hf.below, fun d hd => ?_, ?_⟩
  · obtain ⟨c, hc, hname, hbody⟩ := exists_of_mem_modify
      (f := fun c => { c with count := c.count + 1 }) (fun _ => rfl) (fun _ => rfl) hd
    rw [← hname, ← hbody]
    exact hf.agrees c hc
  · rw [Server.addRef, names_addRef]
    exact hf.owner

lemma Server.Reaches.setBody (hf : s.Reaches f) {i : ℕ} {g : Body → Body} {k : BitVec 32}
    (hg : ∀ c ∈ s.memory, c.name = i → c.body.Grows (g c.body)) :
    Server.Reaches { s with memory := Counting.setBody i g s.memory, objects := k } f := by
  refine ⟨hf.below, fun d hd => ?_, ?_⟩
  · rcases mem_modify.mp hd with ⟨hd, -⟩ | ⟨c, hc, hname, rfl⟩
    · exact hf.agrees d hd
    · exact (hf.agrees c hc).grows (hg c hc hname)
  · rw [names_setBody]
    exact hf.owner

/-- A filter makes an object of its own. -/
lemma Lifetime.growFilter (h : Lifetime n held s) (hf : s.Reaches f) {g : Body → Body}
    (hp : ∀ b, (g b).pointers = b.pointers)
    (hg : (Body.renderer f.outer (s.hasPin f) (s.hasPosition f)).Grows
      (g (.renderer f.outer (s.hasPin f) (s.hasPosition f))))
    (ho : (g (.renderer f.outer (s.hasPin f) (s.hasPosition f))).baseObjects =
      (Body.renderer f.outer (s.hasPin f) (s.hasPosition f)).baseObjects + 1) :
    let s' := { s with memory := setBody f.self g s.memory, objects := s.objects + 1 }
    Lifetime n held s' ∧ s'.Reaches f ∧ ∀ d ∈ s'.memory, d.name = f.self →
      d.body = g (.renderer f.outer (s.hasPin f) (s.hasPosition f)) := by
  obtain ⟨c, hc, hname, hbody⟩ := hf.cell h
  have hcell : ∀ e ∈ s.memory, e.name = f.self → e.body = c.body := by
    intro e he hef
    rw [h.cell_eq hc he (hef.trans hname.symm)]
  refine ⟨?_, hf.setBody fun e he hef => ?_, fun d hd hi => ?_⟩
  · have hgrow := h.grow hc hp (by rw [hbody]; exact hg) (k := 1) (by rw [hbody, ho])
    rwa [hname] at hgrow
  · rw [hcell e he hef, hbody]
    exact hg
  · rcases mem_modify.mp hd with ⟨-, hne⟩ | ⟨e, he, hef, rfl⟩
    · exact absurd hi hne
    · change g e.body = _
      rw [hcell e he hef, hbody]

/-- A filter that has no pin makes one. -/
lemma Lifetime.createPin (h : Lifetime n held s) (hf : s.Reaches f) (hpin : s.hasPin f = false) :
    Lifetime n held (s.createPin f) ∧ (s.createPin f).Reaches f ∧
      ∀ d ∈ (s.createPin f).memory, d.name = f.self →
        d.body = .renderer f.outer true (s.hasPosition f) :=
  h.growFilter hf (g := Body.withPin) (fun b => by cases b <;> rfl) (.createPin _ _ _)
    (by simp only [hpin, Body.withPin, Body.baseObjects, Bool.toNat_true, Bool.toNat_false]; omega)

lemma Lifetime.hasPosition_createPin (h : Lifetime n held s) (hf : s.Reaches f)
    (hpin : s.hasPin f = false) : (s.createPin f).hasPosition f = s.hasPosition f := by
  obtain ⟨hl, hr, hcell⟩ := h.createPin hf hpin
  obtain ⟨c, hc, hname, hbody⟩ := hr.cell hl
  rw [hcell c hc hname] at hbody
  exact (Body.renderer.inj hbody).2.2.symm

/-- A filter that has no position object makes one. -/
lemma Lifetime.createPosition (h : Lifetime n held s) (hf : s.Reaches f)
    (hpos : s.hasPosition f = false) :
    Lifetime n held (s.createPosition f) ∧ (s.createPosition f).Reaches f ∧
      ∀ d ∈ (s.createPosition f).memory, d.name = f.self →
        d.body = .renderer f.outer (s.hasPin f) true :=
  h.growFilter hf (g := Body.withPosition) (fun b => by cases b <;> rfl) (.createPosition _ _ _)
    (by
      simp only [hpos, Body.withPosition, Body.baseObjects, Bool.toNat_true, Bool.toNat_false]
      omega)

lemma Lifetime.getPin (h : Lifetime n held s) (hf : s.Reaches f) (k : ℕ) (alloc : Bool) :
    Lifetime n held (s.getPin f k alloc).1 ∧ (s.getPin f k alloc).1.Reaches f ∧
      (s.getPin f k alloc).1.hasPosition f = s.hasPosition f ∧
      ∀ q, (s.getPin f k alloc).2 = .returned (some q) → q = .pin f ∧ k = 0 ∧
        ∀ d ∈ (s.getPin f k alloc).1.memory, q.Agrees d.name d.body := by
  rw [Server.getPin]
  split_ifs with hk hpin halloc
  · exact ⟨h, hf, rfl, by simp⟩
  · refine ⟨h, hf, rfl, fun q hq => ?_⟩
    obtain rfl : Pointer.pin f = q := by simpa using hq
    obtain ⟨c, hc, hname, hbody⟩ := hf.cell h
    refine ⟨rfl, by simpa using hk, fun d hd => ⟨hf.agrees d hd, fun hi => ?_⟩⟩
    obtain rfl := h.cell_eq hc hd (hi.trans hname.symm)
    exact ⟨s.hasPosition f, by rw [hbody, hpin]⟩
  · have hnone : s.hasPin f = false := by simpa using hpin
    obtain ⟨hl, hr, hcell⟩ := h.createPin hf hnone
    refine ⟨hl, hr, h.hasPosition_createPin hf hnone, fun q hq => ?_⟩
    obtain rfl : Pointer.pin f = q := by simpa using hq
    refine ⟨rfl, by simpa using hk, fun d hd => ⟨hr.agrees d hd, fun hi => ?_⟩⟩
    exact ⟨_, hcell d hd hi⟩
  · exact ⟨h, hf, rfl, by simp⟩

lemma Lifetime.getPinCount (h : Lifetime n held s) (hf : s.Reaches f) (alloc : Bool) :
    Lifetime n held (s.getPinCount f alloc).1 ∧ (s.getPinCount f alloc).1.Reaches f := by
  have hpin := h.getPin hf 0 alloc
  rw [Server.getPinCount]
  split
  · next heq =>
    rw [heq] at hpin
    exact ⟨hpin.1, hpin.2.1⟩
  · next heq =>
    rw [heq] at hpin
    exact ⟨hpin.1, hpin.2.1⟩

lemma Lifetime.findPin (h : Lifetime (n + 1) held s) (hf : s.Reaches f) (id : String)
    (alloc : Bool) : Returns n held (s.findPin f id alloc) := by
  have hpin := h.getPin hf 0 alloc
  rw [Server.findPin]
  split
  · split
    · next s' p heq =>
      rw [heq] at hpin
      obtain ⟨hl, hr, -, hq⟩ := hpin
      obtain ⟨rfl, -, ha⟩ := hq p rfl
      exact hl.addRef hr.owner hr.below ha
    · next s' heq =>
      rw [heq] at hpin
      exact hpin.1.mono (Nat.le_succ n)
    · next s' lost heq =>
      rw [heq] at hpin
      obtain rfl := Server.getPin_thrown heq
      exact hpin.1.mono (Nat.le_succ n)
  · exact h.mono (Nat.le_succ n)

lemma Lifetime.getMediaPositionInterface (h : Lifetime (n + 1) held s) (hf : s.Reaches f)
    (allocPin allocPosition : Bool) :
    Returns n held (s.getMediaPositionInterface f allocPin allocPosition) := by
  have hpin := h.getPin hf 0 allocPin
  rw [Server.getMediaPositionInterface]
  split
  · next hpos =>
    obtain ⟨c, hc, hname, hbody⟩ := hf.cell h
    refine h.addRef hf.owner hf.below fun d hd => ⟨hf.agrees d hd, fun hi => ?_⟩
    obtain rfl := h.cell_eq hc hd (hi.trans hname.symm)
    exact ⟨s.hasPin f, by rw [hbody, hpos]⟩
  · next hpos =>
    split
    · next s' heq =>
      rw [heq] at hpin
      exact hpin.1.mono (Nat.le_succ n)
    · next s' p heq =>
      rw [heq] at hpin
      split
      · have hnone : s'.hasPosition f = false := hpin.2.2.1.trans (by simpa using hpos)
        obtain ⟨hl, hr, hcell⟩ := hpin.1.createPosition hpin.2.1 hnone
        exact hl.addRef hr.owner hr.below fun d hd =>
          ⟨hr.agrees d hd, fun hi => ⟨_, hcell d hd hi⟩⟩
      · exact hpin.1.mono (Nat.le_succ n)
    · next s' lost heq =>
      rw [heq] at hpin
      obtain rfl := Server.getPin_thrown heq
      exact hpin.1.mono (Nat.le_succ n)

lemma Lifetime.nonDelegatingQueryInterface (h : Lifetime (n + 1) held s) (hf : s.Reaches f)
    (riid : Iid) (allocPin allocPosition : Bool) :
    Returns n held (s.nonDelegatingQueryInterface f riid allocPin allocPosition) := by
  unfold Server.nonDelegatingQueryInterface
  split
  · exact h.getMediaPositionInterface hf allocPin allocPosition
  · exact h.getMediaPositionInterface hf allocPin allocPosition
  · exact h.addRef hf.owner hf.below hf.agrees
  · exact h.addRef hf.owner hf.below hf.agrees
  · exact h.addRef hf.owner hf.below hf.agrees
  · exact h.addRef hf.owner hf.below hf.agrees
  · exact h.addRef (q := .unknown f) (hf.self h) hf.below fun c hc => (hf.agrees c hc).1
  · exact h.mono (Nat.le_succ n)

/-- Another reference where one is held. -/
lemma Lifetime.addRef_held (h : Lifetime (n + 1) held s) (hp : p ∈ held) :
    Lifetime n (p :: held) (s.addRef p) := by
  have hmem : p ∈ pointers held s.memory := List.mem_append_left _ hp
  exact h.addRef (h.counted_mem hmem) (h.below p hmem) (h.agrees p hmem)

lemma Lifetime.queryOwn (h : Lifetime (n + 1) held s) (hp : p ∈ held) (known : List Iid)
    (riid : Iid) : Returns n held (s.queryOwn p known riid) := by
  unfold Server.queryOwn
  split
  · exact h.addRef_held hp
  · exact h.mono (Nat.le_succ n)

lemma Lifetime.queryInterface (h : Lifetime (n + 1) held s) (hp : p ∈ held)
    (hf : ∀ f, p = .unknown f ∨ p = .filter f ∨ p = .position f → f.outer = none) (riid : Iid)
    (allocPin allocPosition : Bool) :
    Returns n held (s.queryInterface p riid allocPin allocPosition) := by
  have hmem : p ∈ pointers held s.memory := List.mem_append_left _ hp
  cases p with
  | unknown f =>
    exact h.nonDelegatingQueryInterface (h.reaches_unknown hmem (hf f (.inl rfl))) riid _ _
  | filter f => exact h.nonDelegatingQueryInterface (h.reaches hmem (.inl rfl)) riid _ _
  | position f =>
    exact h.nonDelegatingQueryInterface (h.reaches hmem (.inr (.inr rfl))) riid _ _
  | factory i | pin f | enumPins i | enumMediaTypes i | outer i => exact h.queryOwn hp _ riid

end Queries

section Factories

lemma Lifetime.dllGetClassObject (h : Lifetime (n + 1) held s) (clsID : Guid) (riid : Iid)
    (alloc : Bool) : Returns n held (s.dllGetClassObject clsID riid alloc) := by
  have hkept : Lifetime n held s := h.mono (Nat.le_succ n)
  unfold Server.dllGetClassObject
  split_ifs
  · exact hkept
  · rw [Server.construct_addRef rfl h.next_notMem]
    refine Lifetime.construct (b := .classFactory) (q := .factory s.next) h rfl
      (Nat.lt_succ_self s.next) (fun _ => rfl) fun c hc hi => ?_
    exact absurd (h.fresh c hc) (by omega)
  · exact hkept
  · exact hkept

/-- An address that is not used after all. -/
lemma Lifetime.skip (h : Lifetime n held s) :
    Lifetime n held { s with next := s.next + 1 } :=
  { h with
    fresh := fun c hc => Nat.lt_succ_of_lt (h.fresh c hc)
    below := fun p hp => (h.below p hp).mono (Nat.le_succ s.next) }

lemma Server.delete_construct (hnext : s.next ∉ s.memory.map Cell.name) (b : Body) :
    (s.construct 0 b).delete s.next = { s with next := s.next + 1 } := by
  have herase : erase s.next ((⟨s.next, 0, b⟩ : Object) :: s.memory) = s.memory := by
    have hm : ∀ d ∈ [] ++ s.memory, d.name ≠ s.next :=
      fun d hd he => hnext (he ▸ List.mem_map_of_mem hd)
    exact erase_split (c := ⟨s.next, 0, b⟩) (l := []) hm
  have hfind : find s.next ((⟨s.next, 0, b⟩ : Object) :: s.memory) = some ⟨s.next, 0, b⟩ := by
    simp [find]
  simp only [delete, construct, hfind, herase, BitVec.add_sub_cancel]

/-- A filter as the constructor leaves it, with the reference of the class factory. -/
lemma Lifetime.createFilter (h : Lifetime (n + 1) held s) {outer : Option ℕ}
    (ho : ∀ o, outer = some o → o < s.next) :
    Lifetime n (.unknown ⟨s.next, outer⟩ :: held)
      ((s.construct 0 (.renderer outer false false)).addRef (.unknown ⟨s.next, outer⟩)) := by
  rw [Server.construct_addRef rfl h.next_notMem]
  refine Lifetime.construct (b := .renderer outer false false) h rfl
    ⟨Nat.lt_succ_self s.next, fun o hoo => Nat.lt_succ_of_lt (ho o hoo)⟩
    (fun _ => ⟨false, false, rfl⟩) fun c hc hi => ?_
  exact absurd (h.fresh c hc) (by simp only [hi]; omega)

lemma Lifetime.createInstance (h : Lifetime (n + 2) held s) {outer : Option ℕ}
    (ho : ∀ o, outer = some o → o < s.next) (riid : Iid) (c : Construction)
    (allocPin allocPosition : Bool) :
    Returns n held (s.createInstance outer riid c allocPin allocPosition) := by
  have hkept : Lifetime n held s := h.mono (Nat.le_add_right n 2)
  unfold Server.createInstance
  split_ifs with hagg
  · exact hkept
  · cases c with
    | noMemory => exact hkept
    | noEvents =>
      change Lifetime n held ((s.construct 0 (.renderer outer false false)).delete s.next)
      rw [Server.delete_construct h.next_notMem]
      exact hkept.skip
    | done =>
      have hfilter := h.createFilter ho
      have hquery : Returns n (.unknown ⟨s.next, outer⟩ :: held)
          (((s.construct 0 (.renderer outer false false)).addRef
            (.unknown ⟨s.next, outer⟩)).nonDelegatingQueryInterface ⟨s.next, outer⟩ riid
            allocPin allocPosition) := by
        cases outer with
        | none =>
          exact hfilter.nonDelegatingQueryInterface
            (hfilter.reaches_unknown List.mem_cons_self rfl) riid _ _
        | some o =>
          obtain rfl : riid = .unknown := by simpa using hagg
          exact hfilter.addRef_held List.mem_cons_self
      simp only [Server.createFilter]
      split
      · next t result heq =>
        rw [heq] at hquery
        cases result with
        | error e =>
          exact Lifetime.nonDelegatingRelease (p := .unknown ⟨s.next, outer⟩) hquery rfl
            (hquery.agrees _ List.mem_cons_self)
        | ok p =>
          have hperm := Lifetime.perm hquery (.swap _ _ _)
          exact hperm.nonDelegatingRelease rfl (hperm.agrees _ List.mem_cons_self)
      · next t lost heq =>
        rw [heq] at hquery
        exact Lifetime.perm hquery List.perm_middle

/-- The aggregating object keeps the `IUnknown` of the filter it made. -/
lemma Lifetime.adopt (h : Lifetime n (.unknown f :: held) s) {c : Object}
    {inner : List Filter} (hc : c ∈ s.memory) (hbody : c.body = .outer inner) :
    Lifetime n held (s.adopt c.name f) := by
  have hcell : ∀ e ∈ s.memory, e.name = c.name → e.body = .outer inner := by
    intro e he hec
    rw [h.cell_eq hc he hec, hbody]
  have hgrows : ∀ d ∈ setBody c.name (Body.adopt f) s.memory,
      ∃ e ∈ s.memory, e.name = d.name ∧ e.body.Grows d.body := by
    intro d hd
    rcases mem_modify.mp hd with ⟨hd, -⟩ | ⟨e, he, hec, rfl⟩
    · exact ⟨d, hd, rfl, .same d.body⟩
    · refine ⟨e, he, rfl, ?_⟩
      rw [hcell e he hec]
      exact .adopt f inner
  have hadopted : (Body.adopt f c.body).pointers = .unknown f :: c.body.pointers := by
    rw [hbody]
    rfl
  have hpointers : (pointers held (setBody c.name (Body.adopt f) s.memory)).Perm
      (pointers (.unknown f :: held) s.memory) := references_store h.balanced.nodup hc hadopted
  have hholds : (Body.adopt f c.body).holds = f.self :: c.body.holds :=
    congrArg (List.map Pointer.counted) hadopted
  refine ⟨balanced_store h.balanced hc hholds, used_setBody h.used, ?_, fun d hd => ?_,
    fun p hp => h.below p (hpointers.mem_iff.mp hp), fun p hp => ?_, ?_⟩
  · have hweight : (Body.adopt f c.body).baseObjects = c.body.baseObjects := by
      rw [hbody]
      rfl
    change s.objects = BitVec.ofInt 32 (totalWeight _ (setBody c.name (Body.adopt f) s.memory))
    rw [totalWeight_setBody h.balanced.nodup hc, hweight, Int.sub_add_cancel]
    exact h.objects
  · obtain ⟨e, he, hname, -⟩ := hgrows d hd
    exact hname ▸ h.fresh e he
  · exact Pointer.agrees_of_grows hgrows (h.agrees p (hpointers.mem_iff.mp hp))
  · change (pointers held (setBody c.name (Body.adopt f) s.memory)).length + n ≤ maxPointers
    rw [hpointers.length_eq]
    exact h.room

end Factories

section Enumerators

/-- A new enumerator takes over a pointer to the filter or to its pin. -/
lemma Lifetime.createEnumerator (h : Lifetime (n + 1) (p :: held) s) (hb : b.pointers = [p])
    (hq : q.counted = s.next) (hqb : q.Below (s.next + 1)) (hself : q.Agrees s.next b)
    (hother : ∀ i, i ≠ s.next → ∀ b, q.Agrees i b) :
    Lifetime n (q :: held) (s.construct 1 b) := by
  refine Lifetime.construct (by rw [hb]; exact h) hq hqb hself fun c hc => ?_
  refine hother c.name ?_ c.body
  exact Nat.ne_of_lt (h.fresh c hc)

lemma Body.grows_withPins (b : Body) (position pinCount : ℕ) (pinCache : Bool) :
    b.Grows (b.withPins position pinCount pinCache) := by
  cases b with
  | enumPins f position' pinCount' pinCache' => exact .enumPins ..
  | classFactory | renderer | enumMediaTypes | outer => exact .same _

/-- What an enumerator remembers does not matter to anyone else. -/
lemma Lifetime.setEnumPins (h : Lifetime n held s) (i position pinCount : ℕ) (pinCache : Bool) :
    Lifetime n held (s.setEnumPins i position pinCount pinCache) := by
  by_cases hi : i ∈ s.memory.map Cell.name
  · obtain ⟨c, hc, rfl⟩ := List.mem_map.mp hi
    have hgrow := h.grow hc (g := Body.withPins position pinCount pinCache) (k := 0)
      (fun b => by cases b <;> rfl) (c.body.grows_withPins ..)
      (by cases c.body <;> simp [Body.baseObjects, Body.withPins])
    have hobjects : s.objects + BitVec.ofInt 32 0 = s.objects := BitVec.add_zero s.objects
    rw [hobjects] at hgrow
    exact hgrow
  · have hm : ∀ d ∈ s.memory, d.name ≠ i := fun d hd he => hi (he ▸ List.mem_map_of_mem hd)
    have hsame : s.setEnumPins i position pinCount pinCache = s := by
      rw [Server.setEnumPins, setBody, modify_eq_self hm]
    rwa [hsame]

/-- The filter is held by the call that makes an enumerator of its pins. -/
lemma Lifetime.addRef_filter (h : Lifetime (n + 1) held s) (hf : s.Reaches f) :
    Lifetime n (.filter f :: held) (s.addRef (.filter f)) ∧ (s.addRef (.filter f)).Reaches f :=
  ⟨h.addRef hf.owner hf.below hf.agrees, hf.addRef⟩

lemma Lifetime.enumPins (h : Lifetime (n + 2) held s) (hf : s.Reaches f)
    (alloc allocPin : Bool) : Returns n held (s.enumPins f alloc allocPin) := by
  unfold Server.enumPins
  split
  · obtain ⟨hadd, hfilter⟩ := h.addRef_filter hf
    have hcount := hadd.getPinCount hfilter allocPin
    split
    · next t pinCount heq =>
      rw [heq] at hcount
      exact hcount.1.createEnumerator (b := .enumPins f 0 pinCount false) rfl rfl
        (Nat.lt_succ_self t.next) (fun _ => ⟨f, 0, pinCount, false, rfl⟩)
        fun i hi _ hii => absurd hii hi
    · next t lost heq =>
      rw [heq] at hcount
      obtain rfl := Server.getPinCount_thrown heq
      exact hcount.1.mono (Nat.le_succ n)
  · exact h.mono (Nat.le_add_right n 2)

lemma Lifetime.cloneEnumPins (h : Lifetime (n + 2) held s) (hf : s.Reaches f)
    (position pinCount : ℕ) (pinCache alloc allocNode : Bool) :
    Returns n held (s.cloneEnumPins f position pinCount pinCache alloc allocNode) := by
  have hadd := (h.addRef_filter hf).1
  unfold Server.cloneEnumPins
  split
  · dsimp only
    split
    · exact hadd.mono (Nat.le_succ n)
    · exact hadd.createEnumerator (b := .enumPins f position pinCount pinCache) rfl rfl
        (Nat.lt_succ_self s.next) (fun _ => ⟨f, position, pinCount, pinCache, rfl⟩)
        fun i hi _ hii => absurd hii hi
  · exact h.mono (Nat.le_add_right n 2)

lemma Lifetime.enumMediaTypes (h : Lifetime (n + 2) held s)
    (hp : .pin f ∈ pointers held s.memory) (alloc : Bool) :
    Returns n held (s.enumMediaTypes f alloc) := by
  unfold Server.enumMediaTypes
  split
  · have hf := h.reaches hp (.inr (.inl rfl))
    have hadd : Lifetime (n + 1) (.pin f :: held) (s.addRef (.pin f)) :=
      h.addRef hf.owner hf.below (h.agrees _ hp)
    exact hadd.createEnumerator (b := .enumMediaTypes f) rfl rfl (Nat.lt_succ_self s.next)
      (fun _ => ⟨f, rfl⟩) fun i hi _ hii => absurd hii hi
  · exact h.mono (Nat.le_add_right n 2)

lemma Lifetime.resetPins (h : Lifetime n held s) (hf : s.Reaches f) (i : ℕ) (allocPin : Bool) :
    Lifetime n held (s.resetPins i f allocPin).1 := by
  have hcount := h.getPinCount hf allocPin
  unfold Server.resetPins
  split
  · next t pinCount heq =>
    rw [heq] at hcount
    exact hcount.1.setEnumPins ..
  · next t lost heq =>
    rw [heq] at hcount
    exact hcount.1

/-- After its only pin a filter has none to give. -/
lemma Lifetime.nextPins_later (h : Lifetime n held s) {position : ℕ} (hposition : position ≠ 0)
    (i : ℕ) (f : Filter) (pinCount left wanted : ℕ) (pinCache allocPin allocNode : Bool) :
    let r := Server.nextPins i f pinCount allocPin allocNode left wanted position pinCache s
    Lifetime n held r.1 ∧ r.2.1 = [] ∧ r.2.2.lost = [] := by
  cases left with
  | zero => exact ⟨h, rfl, rfl⟩
  | succ left =>
    cases wanted with
    | zero => exact ⟨h, rfl, rfl⟩
    | succ wanted =>
      have hnone : s.getPin f position allocPin = (s, .returned none) := if_pos hposition
      rw [Server.nextPins, hnone]
      exact ⟨h.setEnumPins .., rfl, rfl⟩

/-- The pins an enumerator gives out are held by the client, or by nobody. -/
lemma Lifetime.nextPins (h : Lifetime (n + 1) held s) (hf : s.Reaches f)
    (i pinCount left wanted position : ℕ) (pinCache allocPin allocNode : Bool) :
    let r := Server.nextPins i f pinCount allocPin allocNode left wanted position pinCache s
    Lifetime n (r.2.1 ++ held) r.1 ∧ (r.2.1 = [] ∨ r.2.1 = [.pin f]) ∧ r.2.2.lost = [] := by
  have hkept : Lifetime n held s := h.mono (Nat.le_succ n)
  cases left with
  | zero => exact ⟨hkept, .inl rfl, rfl⟩
  | succ left =>
    cases wanted with
    | zero => exact ⟨hkept, .inl rfl, rfl⟩
    | succ wanted =>
      have hpin := h.getPin hf position allocPin
      have hlater := Nat.succ_ne_zero position
      rw [Server.nextPins]
      split
      · next t lost heq =>
        rw [heq] at hpin
        exact ⟨(hpin.1.mono (Nat.le_succ n)).setEnumPins .., .inl rfl, Server.getPin_thrown heq⟩
      · next t heq =>
        rw [heq] at hpin
        exact ⟨(hpin.1.mono (Nat.le_succ n)).setEnumPins .., .inl rfl, rfl⟩
      · next t p heq =>
        rw [heq] at hpin
        obtain ⟨hl, hr, -, hq⟩ := hpin
        obtain ⟨rfl, -, ha⟩ := hq p rfl
        have hadd : Lifetime n (.pin f :: held) (t.addRef (.pin f)) :=
          hl.addRef hr.owner hr.below ha
        split
        · have hnext := (hl.mono (Nat.le_succ n)).setEnumPins i (position + 1) pinCount true
          obtain ⟨hrest, hnone, hlost⟩ := hnext.nextPins_later hlater i f pinCount left
            (wanted + 1) true allocPin allocNode
          refine ⟨?_, .inl hnone, hlost⟩
          rw [hnone]
          exact hrest
        · split
          · have hnext := hadd.setEnumPins i (position + 1) pinCount true
            obtain ⟨hrest, hnone, hlost⟩ := hnext.nextPins_later hlater i f pinCount left
              wanted true allocPin allocNode
            refine ⟨?_, .inr (congrArg _ hnone), hlost⟩
            dsimp only
            rw [hnone]
            exact hrest
          · exact ⟨hadd.setEnumPins .., .inr rfl, rfl⟩

lemma Lifetime.nextEnumPins (h : Lifetime (n + 1) held s) (hf : s.Reaches f)
    (i position pinCount : ℕ) (pinCache : Bool) (wanted : ℕ) (fetched allocPin allocNode : Bool) :
    let r := s.nextEnumPins i f position pinCount pinCache wanted fetched allocPin allocNode
    Lifetime n (r.2.1 ++ held) r.1 ∧ (r.2.1 = [] ∨ r.2.1 = [.pin f]) ∧ r.2.2.lost = [] := by
  unfold Server.nextEnumPins
  split
  · exact ⟨h.mono (Nat.le_succ n), .inl rfl, rfl⟩
  · exact h.nextPins hf ..

end Enumerators

end StupidAR
