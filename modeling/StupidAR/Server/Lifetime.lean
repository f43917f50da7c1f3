import StupidAR.Server.Objects

/-!
# The lifetime of the server's objects

What every operation keeps: reference counts are the numbers of interface pointers, pointers
point to objects of their kind, and the count of objects is right.
-/

namespace StupidAR

open Counting

/-- The addresses a pointer speaks of. -/
def Filter.Below (f : Filter) (n : ℕ) : Prop :=
  f.self < n ∧ ∀ o, f.outer = some o → o < n

def Pointer.Below (n : ℕ) : Pointer → Prop
  | factory i | enumPins i | enumMediaTypes i | outer i => i < n
  | unknown f | filter f | pin f | position f => f.Below n

/-- At the address of the filter there is a filter with its owner. -/
def Filter.Names (f : Filter) (i : ℕ) (b : Body) : Prop :=
  i = f.self → ∃ inputPin position, b = .renderer f.outer inputPin position

/-- What a pointer that delegates to the owner of the filter says of the object at `i`. -/
def Filter.Agrees (f : Filter) (i : ℕ) (b : Body) : Prop :=
  f.Names i b ∧ (f.outer = some i → ∃ inner, b = .outer inner ∧ f ∈ inner)

/-- What an interface pointer says of the object at address `i`. -/
def Pointer.Agrees (p : Pointer) (i : ℕ) (b : Body) : Prop :=
  match p with
  | factory j => i = j → b = .classFactory
  | unknown f => f.Names i b
  | filter f => f.Agrees i b
  | pin f => f.Agrees i b ∧ (i = f.self → ∃ position, b = .renderer f.outer true position)
  | position f => f.Agrees i b ∧ (i = f.self → ∃ inputPin, b = .renderer f.outer inputPin true)
  | enumPins j =>
    i = j → ∃ f position pinCount pinCache, b = .enumPins f position pinCount pinCache
  | enumMediaTypes j => i = j → ∃ f, b = .enumMediaTypes f
  | outer j => i = j → ∃ inner, b = .outer inner

/-- How the contents of an object change in its lifetime. -/
inductive Body.Grows : Body → Body → Prop where
  | same (b : Body) : Grows b b
  | createPin (outer : Option ℕ) (inputPin position : Bool) :
    Grows (.renderer outer inputPin position) (.renderer outer true position)
  | createPosition (outer : Option ℕ) (inputPin position : Bool) :
    Grows (.renderer outer inputPin position) (.renderer outer inputPin true)
  | enumPins (f : Filter) (position pinCount position' pinCount' : ℕ)
      (pinCache pinCache' : Bool) :
    Grows (.enumPins f position pinCount pinCache) (.enumPins f position' pinCount' pinCache')
  | adopt (f : Filter) (inner : List Filter) : Grows (.outer inner) (.outer (f :: inner))

/-- The interface pointers there are: those of clients and those in objects. -/
abbrev pointers (held : List Pointer) (m : List Object) : List Pointer :=
  references Body.pointers held m

/-- As many interface pointers as a session may come to have: three objects for each of them are
not too many for a `LONG`. -/
def maxPointers : ℕ := 0x20000000

/-- The objects are in order, and there may be `n` more pointers. -/
structure Lifetime (n : ℕ) (held : List Pointer) (s : Server) : Prop where
  balanced : Balanced Body.holds (held.map Pointer.counted) s.memory
  used : Used s.memory
  objects : s.objects = BitVec.ofInt 32 (totalWeight Body.baseObjects s.memory)
  fresh : ∀ c ∈ s.memory, c.name < s.next
  below : ∀ p ∈ pointers held s.memory, p.Below s.next
  agrees : ∀ p ∈ pointers held s.memory, ∀ c ∈ s.memory, p.Agrees c.name c.body
  room : (pointers held s.memory).length + n ≤ maxPointers

variable {n : ℕ} {held held' : List Pointer} {s : Server} {p q : Pointer} {f : Filter} {i : ℕ}
  {b b' : Body}

section Agreement

lemma Filter.Names.grows (h : f.Names i b) (hb : b.Grows b') : f.Names i b' := by
  intro hi
  obtain ⟨inputPin, position, rfl⟩ := h hi
  cases hb with
  | same => exact ⟨inputPin, position, rfl⟩
  | createPin => exact ⟨true, position, rfl⟩
  | createPosition => exact ⟨inputPin, true, rfl⟩

lemma Filter.Agrees.grows (h : f.Agrees i b) (hb : b.Grows b') : f.Agrees i b' := by
  obtain ⟨hself, houter⟩ := h
  refine ⟨hself.grows hb, fun hi => ?_⟩
  obtain ⟨inner, rfl, hf⟩ := houter hi
  cases hb with
  | same => exact ⟨inner, rfl, hf⟩
  | adopt g => exact ⟨g :: inner, rfl, List.mem_cons_of_mem g hf⟩

lemma Pointer.Agrees.grows (h : p.Agrees i b) (hb : b.Grows b') : p.Agrees i b' := by
  cases p with
  | factory j =>
    intro hi
    obtain rfl := h hi
    cases hb with
    | same => rfl
  | unknown f => exact Filter.Names.grows h hb
  | filter f => exact Filter.Agrees.grows h hb
  | pin f =>
    refine ⟨h.1.grows hb, fun hi => ?_⟩
    obtain ⟨position, rfl⟩ := h.2 hi
    cases hb with
    | same => exact ⟨position, rfl⟩
    | createPin => exact ⟨position, rfl⟩
    | createPosition => exact ⟨true, rfl⟩
  | position f =>
    refine ⟨h.1.grows hb, fun hi => ?_⟩
    obtain ⟨inputPin, rfl⟩ := h.2 hi
    cases hb with
    | same => exact ⟨inputPin, rfl⟩
    | createPin => exact ⟨true, rfl⟩
    | createPosition => exact ⟨inputPin, rfl⟩
  | enumPins j =>
    intro hi
    obtain ⟨f, position, pinCount, pinCache, rfl⟩ := h hi
    cases hb with
    | same => exact ⟨f, position, pinCount, pinCache, rfl⟩
    | enumPins _ _ _ position' pinCount' _ pinCache' =>
      exact ⟨f, position', pinCount', pinCache', rfl⟩
  | enumMediaTypes j =>
    intro hi
    obtain ⟨f, rfl⟩ := h hi
    cases hb with
    | same => exact ⟨f, rfl⟩
  | outer j =>
    intro hi
    obtain ⟨inner, rfl⟩ := h hi
    cases hb with
    | same => exact ⟨inner, rfl⟩
    | adopt g => exact ⟨g :: inner, rfl⟩

/-- A pointer says nothing of an address it does not speak of. -/
lemma Pointer.Below.agrees (h : p.Below i) (b : Body) : p.Agrees i b := by
  have hfilter : ∀ f : Filter, f.Below i → f.Agrees i b := by
    intro f hf
    exact ⟨fun hi => absurd hf.1 (by omega), fun hi => absurd (hf.2 i hi) (by omega)⟩
  cases p with
  | factory j => exact fun hi => absurd h (by simp [Below, hi])
  | unknown f => exact (hfilter f h).1
  | filter f => exact hfilter f h
  | pin f => exact ⟨hfilter f h, fun hi => absurd h.1 (by omega)⟩
  | position f => exact ⟨hfilter f h, fun hi => absurd h.1 (by omega)⟩
  | enumPins j => exact fun hi => absurd h (by simp [Below, hi])
  | enumMediaTypes j => exact fun hi => absurd h (by simp [Below, hi])
  | outer j => exact fun hi => absurd h (by simp [Below, hi])

lemma Pointer.Below.mono {n' : ℕ} (h : p.Below n) (hn : n ≤ n') : p.Below n' := by
  have hfilter : ∀ f : Filter, f.Below n → f.Below n' := fun f hf =>
    ⟨Nat.lt_of_lt_of_le hf.1 hn, fun o ho => Nat.lt_of_lt_of_le (hf.2 o ho) hn⟩
  cases p with
  | unknown f | filter f | pin f | position f => exact hfilter f h
  | factory j | enumPins j | enumMediaTypes j | outer j => exact Nat.lt_of_lt_of_le h hn

end Agreement

section References

lemma references_pointers (m : List Object) :
    references Body.holds (held.map Pointer.counted) m =
      (pointers held m).map Pointer.counted := by
  simp [references, Body.holds, List.map_flatMap]

lemma pointers_perm (hp : held.Perm held') (m : List Object) :
    (pointers held m).Perm (pointers held' m) :=
  hp.append_right _

lemma Lifetime.perm (h : Lifetime n held s) (hp : held.Perm held') : Lifetime n held' s :=
  { h with
    balanced := h.balanced.perm (hp.map _)
    below := fun q hq => h.below q ((pointers_perm hp s.memory).mem_iff.mpr hq)
    agrees := fun q hq => h.agrees q ((pointers_perm hp s.memory).mem_iff.mpr hq)
    room := (pointers_perm hp s.memory).length_eq ▸ h.room }

lemma Lifetime.mono {n' : ℕ} (h : Lifetime n held s) (hn : n' ≤ n) : Lifetime n' held s :=
  { h with room := by have hroom := h.room; omega }

lemma Lifetime.counted_mem (h : Lifetime n held s) (hp : p ∈ pointers held s.memory) :
    p.counted ∈ s.memory.map Cell.name := by
  refine h.balanced.named p.counted ?_
  rw [references_pointers]
  exact List.mem_map_of_mem hp

/-- No count wraps around when another pointer is counted. -/
lemma Lifetime.count_room (h : Lifetime (n + 1) held s) :
    (references Body.holds (held.map Pointer.counted) s.memory).length + 1 < 2 ^ 32 := by
  have hroom := h.room
  rw [references_pointers, List.length_map]
  rw [show maxPointers = 2 ^ 29 from rfl] at hroom
  omega

/-- What is said of the objects stays true while they grow. -/
lemma Pointer.agrees_of_grows {m m' : List Object}
    (hm : ∀ d ∈ m', ∃ c ∈ m, c.name = d.name ∧ c.body.Grows d.body)
    (h : ∀ c ∈ m, p.Agrees c.name c.body) : ∀ d ∈ m', p.Agrees d.name d.body := by
  intro d hd
  obtain ⟨c, hc, hname, hgrows⟩ := hm d hd
  rw [← hname]
  exact (h c hc).grows hgrows

end References

section Operations

lemma ofInt_sub (x y : ℤ) : BitVec.ofInt 32 (x - y) = BitVec.ofInt 32 x - BitVec.ofInt 32 y := by
  rw [Int.sub_eq_add_neg, BitVec.ofInt_add, BitVec.ofInt_neg, BitVec.sub_eq_add_neg]

/-- A client gets a pointer that is counted where a reference is already held. -/
lemma Lifetime.addRef (h : Lifetime (n + 1) held s) (hi : q.counted ∈ s.memory.map Cell.name)
    (hb : q.Below s.next) (ha : ∀ c ∈ s.memory, q.Agrees c.name c.body) :
    Lifetime n (q :: held) (s.addRef q) := by
  have hgrows : ∀ d ∈ Counting.addRef q.counted s.memory,
      ∃ c ∈ s.memory, c.name = d.name ∧ c.body.Grows d.body := by
    intro d hd
    obtain ⟨c, hc, hname, hbody⟩ := exists_of_mem_modify
      (f := fun c => { c with count := c.count + 1 }) (fun _ => rfl) (fun _ => rfl) hd
    exact ⟨c, hc, hname, hbody ▸ .same c.body⟩
  have hpointers : pointers (q :: held) (s.addRef q).memory = q :: pointers held s.memory :=
    references_addRef
  refine ⟨balanced_addRef h.balanced h.count_room hi, used_addRef h.balanced h.count_room h.used,
    ?_, fun d hd => ?_, fun p hp => ?_, fun p hp => ?_, ?_⟩
  · refine h.objects.trans (congrArg (BitVec.ofInt 32) ?_)
    exact (totalWeight_modify (f := fun c => { c with count := c.count + 1 }) fun _ => rfl).symm
  · obtain ⟨c, hc, hname, -⟩ := hgrows d hd
    exact hname ▸ h.fresh c hc
  · rw [hpointers] at hp
    rcases List.mem_cons.mp hp with rfl | hp
    · exact hb
    · exact h.below p hp
  · rw [hpointers] at hp
    rcases List.mem_cons.mp hp with rfl | hp
    · exact Pointer.agrees_of_grows hgrows ha
    · exact Pointer.agrees_of_grows hgrows (h.agrees p hp)
  · have hroom := h.room
    rw [hpointers, List.length_cons]
    omega

/-- A reference given up. -/
lemma Lifetime.drop (h : Lifetime n (p :: held) s) :
    ((s.drop p.counted).2 = none ∧ Lifetime n held (s.drop p.counted).1) ∨
    ∃ c ∈ s.memory, c.name = p.counted ∧ (s.drop p.counted).2 = some c.body ∧
      Lifetime n (c.body.pointers ++ held) (s.drop p.counted).1 := by
  have hheld : ∀ q ∈ pointers held s.memory, q ∈ pointers (p :: held) s.memory :=
    fun q hq => List.mem_cons_of_mem p hq
  have hroom : (pointers held s.memory).length + n ≤ maxPointers := by
    have hroom := h.room
    rw [show pointers (p :: held) s.memory = p :: pointers held s.memory from rfl,
      List.length_cons] at hroom
    omega
  rcases release_cases h.balanced h.used with ⟨hr, hbal, hused⟩ | ⟨c, hc, hname, hr, hbal, hused⟩
  · left
    have hs : s.drop p.counted = ({ s with memory := dropRef p.counted s.memory }, none) := by
      simp [Server.drop, hr]
    have hgrows : ∀ d ∈ dropRef p.counted s.memory,
        ∃ c ∈ s.memory, c.name = d.name ∧ c.body.Grows d.body := by
      intro d hd
      obtain ⟨c, hc, hname, hbody⟩ := exists_of_mem_modify
        (f := fun c => { c with count := c.count - 1 }) (fun _ => rfl) (fun _ => rfl) hd
      exact ⟨c, hc, hname, hbody ▸ .same c.body⟩
    have hpointers : pointers held (dropRef p.counted s.memory) = pointers held s.memory :=
      references_dropRef
    rw [hs]
    refine ⟨rfl, hbal, hused, ?_, fun d hd => ?_, fun q hq => ?_, fun q hq => ?_,
      hpointers ▸ hroom⟩
    · refine h.objects.trans (congrArg (BitVec.ofInt 32) ?_)
      exact (totalWeight_modify (f := fun c => { c with count := c.count - 1 }) fun _ => rfl).symm
    · obtain ⟨c, hc, hname, -⟩ := hgrows d hd
      exact hname ▸ h.fresh c hc
    · exact h.below q (hheld q (hpointers ▸ hq))
    · exact Pointer.agrees_of_grows hgrows (h.agrees q (hheld q (hpointers ▸ hq)))
  · right
    have hs : s.drop p.counted = ({ s with
        memory := erase p.counted s.memory
        objects := s.objects - BitVec.ofInt 32 c.body.baseObjects }, some c.body) := by
      simp [Server.drop, hr]
    have hpointers : (pointers (c.body.pointers ++ held) (erase p.counted s.memory)).Perm
        (pointers held s.memory) := hname ▸ references_erase h.balanced.nodup hc
    refine ⟨c, hc, hname, by rw [hs], ?_⟩
    rw [hs]
    refine ⟨?_, hused, ?_, fun d hd => ?_, fun q hq => ?_, fun q hq d hd => ?_,
      hpointers.length_eq ▸ hroom⟩
    · rw [List.map_append]
      exact hbal
    · change s.objects - BitVec.ofInt 32 c.body.baseObjects = _
      rw [← hname, totalWeight_erase h.balanced.nodup hc, ofInt_sub, h.objects]
    · exact h.fresh d (mem_erase.mp hd).1
    · exact h.below q (hheld q (hpointers.mem_iff.mp hq))
    · exact h.agrees q (hheld q (hpointers.mem_iff.mp hq)) d (mem_erase.mp hd).1

/-- An object grows, with what it counts among the objects. -/
lemma Lifetime.grow (h : Lifetime n held s) {c : Object} (hc : c ∈ s.memory)
    {g : Body → Body} (hp : ∀ b, (g b).pointers = b.pointers) (hg : c.body.Grows (g c.body))
    {k : ℤ} (hk : (g c.body).baseObjects = c.body.baseObjects + k) :
    Lifetime n held { s with
      memory := setBody c.name g s.memory
      objects := s.objects + BitVec.ofInt 32 k } := by
  have hgrows : ∀ d ∈ setBody c.name g s.memory,
      ∃ c ∈ s.memory, c.name = d.name ∧ c.body.Grows d.body := by
    intro d hd
    rcases mem_modify.mp hd with ⟨hd, -⟩ | ⟨e, he, hec, rfl⟩
    · exact ⟨d, hd, rfl, .same d.body⟩
    · have hfe := find_eq h.balanced.nodup he
      rw [hec, find_eq h.balanced.nodup hc] at hfe
      obtain rfl := Option.some.inj hfe
      exact ⟨c, hc, rfl, hg⟩
  have hpointers : pointers held (setBody c.name g s.memory) = pointers held s.memory :=
    references_modify fun d => hp d.body
  have hholds : ∀ b, (g b).holds = b.holds := fun b => by rw [Body.holds, hp, Body.holds]
  refine ⟨balanced_setBody h.balanced hc hholds, used_setBody h.used, ?_, fun d hd => ?_,
    fun q hq => ?_, fun q hq => ?_, ?_⟩
  · have htotal : totalWeight Body.baseObjects (setBody c.name g s.memory) =
        totalWeight Body.baseObjects s.memory + k := by
      rw [totalWeight_setBody h.balanced.nodup hc, hk]
      omega
    change s.objects + BitVec.ofInt 32 k = _
    rw [htotal, BitVec.ofInt_add, h.objects]
  · obtain ⟨c, hc, hname, -⟩ := hgrows d hd
    exact hname ▸ h.fresh c hc
  · exact h.below q (hpointers ▸ hq)
  · exact Pointer.agrees_of_grows hgrows (h.agrees q (hpointers ▸ hq))
  · change (pointers held (setBody c.name g s.memory)).length + n ≤ maxPointers
    rw [hpointers]
    exact h.room

lemma Lifetime.next_notMem (h : Lifetime n held s) : s.next ∉ s.memory.map Cell.name := by
  intro hm
  obtain ⟨c, hc, hname⟩ := List.mem_map.mp hm
  exact absurd (h.fresh c hc) (by omega)

/-- A new object takes over the pointers it is to hold, and the client gets one to it. -/
lemma Lifetime.construct (h : Lifetime (n + 1) (b.pointers ++ held) s) (hq : q.counted = s.next)
    (hb : q.Below (s.next + 1)) (hself : q.Agrees s.next b)
    (hother : ∀ c ∈ s.memory, q.Agrees c.name c.body) :
    Lifetime n (q :: held) (s.construct 1 b) := by
  have hnext := h.next_notMem
  have hpointers : (pointers (q :: held) (s.construct 1 b).memory).Perm
      (q :: pointers (b.pointers ++ held) s.memory) := references_cons.cons q
  have hinsert : Balanced Body.holds (held.map Pointer.counted)
      ((⟨s.next, 0, b⟩ : Object) :: s.memory) := by
    refine balanced_insert ?_ hnext
    have hbal := h.balanced
    rwa [List.map_append] at hbal
  have hbal : Balanced Body.holds ((q :: held).map Pointer.counted)
      ((⟨s.next, 1, b⟩ : Object) :: s.memory) := by
    have hroom : (references Body.holds (held.map Pointer.counted)
        ((⟨s.next, 0, b⟩ : Object) :: s.memory)).length + 1 < 2 ^ 32 := by
      have hcount := h.count_room
      rw [List.map_append] at hcount
      rwa [references_cons.length_eq]
    have hadd := balanced_addRef (i := s.next) hinsert hroom (by simp)
    have hone : Counting.addRef s.next ((⟨s.next, 0, b⟩ : Object) :: s.memory) =
        ⟨s.next, 1, b⟩ :: s.memory := modify_cons_self (c := ⟨s.next, 0, b⟩) hnext
    rw [hone] at hadd
    rw [List.map_cons, hq]
    exact hadd
  refine ⟨hbal, ?_, ?_, ?_, ?_, ?_, ?_⟩
  · intro c hc
    rcases List.mem_cons.mp hc with rfl | hc
    · exact fun hzero => absurd (show (1 : BitVec 32) = 0 from hzero) (by decide)
    · exact h.used c hc
  · change s.objects + BitVec.ofInt 32 b.baseObjects = BitVec.ofInt 32 (totalWeight _ (_ :: _))
    rw [totalWeight_cons, Int.add_comm, BitVec.ofInt_add, h.objects]
  · intro c hc
    rcases List.mem_cons.mp hc with rfl | hc
    · exact Nat.lt_succ_self s.next
    · exact Nat.lt_succ_of_lt (h.fresh c hc)
  · intro p hp
    rcases List.mem_cons.mp (hpointers.mem_iff.mp hp) with rfl | hp
    · exact hb
    · exact (h.below p hp).mono (Nat.le_succ s.next)
  · intro p hp c hc
    rcases List.mem_cons.mp (hpointers.mem_iff.mp hp) with rfl | hp <;>
      rcases List.mem_cons.mp hc with rfl | hc
    · exact hself
    · exact hother c hc
    · exact (h.below p hp).agrees b
    · exact h.agrees p hp c hc
  · have hroom := h.room
    rw [hpointers.length_eq, List.length_cons]
    omega

/-- An object that starts without references, and gets one. -/
lemma Server.construct_addRef (hq : q.counted = s.next)
    (hnext : s.next ∉ s.memory.map Cell.name) :
    (s.construct 0 b).addRef q = s.construct 1 b := by
  have hone : Counting.addRef s.next ((⟨s.next, 0, b⟩ : Object) :: s.memory) =
      ⟨s.next, 1, b⟩ :: s.memory := modify_cons_self (c := ⟨s.next, 0, b⟩) hnext
  simp only [construct, addRef, hq, hone]

end Operations

section Release

lemma Lifetime.nonDelegatingRelease (h : Lifetime n (p :: held) s) (hp : p.counted = f.self)
    (ha : ∀ c ∈ s.memory, f.Names c.name c.body) :
    Lifetime n held (s.nonDelegatingRelease f) := by
  rw [Server.nonDelegatingRelease, ← hp]
  rcases h.drop with ⟨-, h'⟩ | ⟨c, hc, hname, -, h'⟩
  · exact h'
  · obtain ⟨inputPin, position, hbody⟩ := ha c hc (hname.trans hp)
    rw [hbody] at h'
    exact h'

lemma Lifetime.releaseInner {inner : List Filter} (h : Lifetime n (inner.map .unknown ++ held) s) :
    Lifetime n held (inner.foldl Server.nonDelegatingRelease s) := by
  induction inner generalizing s with
  | nil => exact h
  | cons f inner ih =>
    refine ih ?_
    exact Lifetime.nonDelegatingRelease (p := .unknown f) h rfl
      (h.agrees (.unknown f) List.mem_cons_self)

lemma Lifetime.outerRelease (h : Lifetime n (p :: held) s) (hp : p.counted = i)
    (ha : ∀ c ∈ s.memory, c.name = i → ∃ inner, c.body = .outer inner) :
    Lifetime n held (s.outerRelease i) := by
  rw [Server.outerRelease, ← hp]
  rcases h.drop with ⟨hnone, h'⟩ | ⟨c, hc, hname, hsome, h'⟩
  · split
    · next s' inner heq => simp [heq] at hnone
    · next s' _ _ heq => simpa [heq] using h'
  · obtain ⟨inner, hbody⟩ := ha c hc (hname.trans hp)
    rw [hbody] at hsome h'
    rw [show s.drop p.counted = ((s.drop p.counted).1, some (.outer inner)) from
      Prod.ext rfl hsome]
    exact h'.releaseInner

lemma Lifetime.filterRelease (h : Lifetime n (p :: held) s) (hp : p.counted = f.getOwner)
    (ha : ∀ c ∈ s.memory, f.Agrees c.name c.body) : Lifetime n held (s.filterRelease f) := by
  rw [Server.filterRelease]
  cases ho : f.outer with
  | none =>
    refine h.nonDelegatingRelease ?_ fun c hc => (ha c hc).1
    rw [hp, Filter.getOwner, ho, Option.getD_none]
  | some i =>
    refine h.outerRelease ?_ fun c hc hname => ?_
    · rw [hp, Filter.getOwner, ho, Option.getD_some]
    · obtain ⟨inner, hbody, -⟩ := (ha c hc).2 (by rw [ho, hname])
      exact ⟨inner, hbody⟩

lemma Lifetime.release (h : Lifetime n (p :: held) s) : Lifetime n held (s.release p) := by
  have hself := h.agrees p List.mem_cons_self
  cases p with
  | factory i =>
    rcases h.drop with ⟨-, h'⟩ | ⟨c, hc, hname, -, h'⟩
    · exact h'
    · rw [hself c hc hname] at h'
      exact h'
  | unknown f => exact h.nonDelegatingRelease rfl hself
  | filter f => exact h.filterRelease rfl hself
  | pin f => exact h.filterRelease rfl fun c hc => (hself c hc).1
  | position f => exact h.filterRelease rfl fun c hc => (hself c hc).1
  | enumPins i =>
    rw [Server.release, Server.enumPinsRelease]
    rcases h.drop with ⟨hnone, h'⟩ | ⟨c, hc, hname, hsome, h'⟩
    · split
      · next heq => simp [Pointer.counted, heq] at hnone
      · next heq => simpa [Pointer.counted, heq] using h'
    · obtain ⟨f, position, pinCount, pinCache, hbody⟩ := hself c hc hname
      rw [hbody] at hsome h'
      rw [show s.drop i = ((s.drop i).1, some (.enumPins f position pinCount pinCache)) from
        Prod.ext rfl hsome]
      exact h'.filterRelease rfl (h'.agrees (.filter f) List.mem_cons_self)
  | enumMediaTypes i =>
    rw [Server.release, Server.enumMediaTypesRelease]
    rcases h.drop with ⟨hnone, h'⟩ | ⟨c, hc, hname, hsome, h'⟩
    · split
      · next heq => simp [Pointer.counted, heq] at hnone
      · next heq => simpa [Pointer.counted, heq] using h'
    · obtain ⟨f, hbody⟩ := hself c hc hname
      rw [hbody] at hsome h'
      rw [show s.drop i = ((s.drop i).1, some (.enumMediaTypes f)) from Prod.ext rfl hsome]
      exact h'.filterRelease rfl fun d hd => (h'.agrees (.pin f) List.mem_cons_self d hd).1
  | outer i => exact h.outerRelease rfl fun c hc hname => hself c hc hname

end Release

end StupidAR
