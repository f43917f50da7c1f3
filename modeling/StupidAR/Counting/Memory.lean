import Mathlib.Algebra.Group.Nat.Even
import Mathlib.Algebra.Ring.Int.Defs
import Mathlib.Data.List.Basic
import Mathlib.Data.List.Nodup
import Mathlib.Data.List.Perm.Subperm
import Mathlib.Logic.Relation

/-!
# Counted objects

A memory of objects with reference counts of a fixed width, which wrap around. Objects hold
references to one another, and the rest of the program holds some too; a count is right when it
is the number of references to the object, wherever they are.
-/

namespace Counting

/-- An object in memory. -/
structure Cell (w : ℕ) (ι α : Type) where
  name : ι
  count : BitVec w
  body : α
deriving Repr, DecidableEq

variable {w : ℕ} {ι κ α : Type} [DecidableEq ι]

/-- Changes the object named `i`. -/
def modify (i : ι) (f : Cell w ι α → Cell w ι α) (m : List (Cell w ι α)) : List (Cell w ι α) :=
  m.map fun c => if c.name = i then f c else c

/-- Takes the object named `i` out of the memory. -/
def erase (i : ι) (m : List (Cell w ι α)) : List (Cell w ι α) :=
  m.filter fun c => c.name ≠ i

/-- The object named `i`. -/
def find (i : ι) (m : List (Cell w ι α)) : Option (Cell w ι α) :=
  m.find? fun c => c.name = i

def addRef (i : ι) (m : List (Cell w ι α)) : List (Cell w ι α) :=
  modify i (fun c => { c with count := c.count + 1 }) m

def dropRef (i : ι) (m : List (Cell w ι α)) : List (Cell w ι α) :=
  modify i (fun c => { c with count := c.count - 1 }) m

def setBody (i : ι) (f : α → α) (m : List (Cell w ι α)) : List (Cell w ι α) :=
  modify i (fun c => { c with body := f c.body }) m

/-- Gives a reference up. The object is destroyed with its last reference, and its body is
handed to the destructor. -/
def release (i : ι) (m : List (Cell w ι α)) : List (Cell w ι α) × Option α :=
  match find i (dropRef i m) with
  | some c => if c.count = 0 then (erase i m, some c.body) else (dropRef i m, none)
  | none => (dropRef i m, none)

/-- What the objects weigh together. -/
def totalWeight (weight : α → ℤ) (m : List (Cell w ι α)) : ℤ :=
  (m.map fun c => weight c.body).sum

/-- Every object is referred to. -/
def Used (m : List (Cell w ι α)) : Prop :=
  ∀ c ∈ m, c.count ≠ 0

/-- The references there are, of whatever kind: those held outside and those held by
objects. -/
def references (holds : α → List κ) (held : List κ) (m : List (Cell w ι α)) : List κ :=
  held ++ m.flatMap fun c => holds c.body

/-- Names are unique, a count is the number of references, and what is referred to exists. -/
structure Balanced (holds : α → List ι) (held : List ι) (m : List (Cell w ι α)) : Prop where
  nodup : (m.map Cell.name).Nodup
  counted : ∀ c ∈ m, c.count.toNat = (references holds held m).count c.name
  named : ∀ i ∈ references holds held m, i ∈ m.map Cell.name

/-- The object named `i` refers to `j`. -/
def Refers (holds : α → List ι) (m : List (Cell w ι α)) (i j : ι) : Prop :=
  ∃ c ∈ m, c.name = i ∧ j ∈ holds c.body

variable {holds : α → List ι} {held held' : List ι} {m : List (Cell w ι α)} {i j : ι}
  {c d : Cell w ι α}

section Split

omit [DecidableEq ι] in
/-- A memory around one of its objects. -/
lemma exists_split (hm : (m.map Cell.name).Nodup) (hc : c ∈ m) :
    ∃ l r, m = l ++ c :: r ∧ (∀ d ∈ l ++ r, d.name ≠ c.name) := by
  obtain ⟨l, r, rfl⟩ := List.append_of_mem hc
  refine ⟨l, r, rfl, ?_⟩
  have hperm : (l ++ c :: r).Perm (c :: (l ++ r)) := List.perm_middle
  have hnodup := (hperm.map Cell.name).nodup_iff.mp hm
  rw [List.map_cons, List.nodup_cons] at hnodup
  intro d hd he
  exact hnodup.1 (he ▸ List.mem_map_of_mem hd)

lemma modify_eq_self {l : List (Cell w ι α)} {f : Cell w ι α → Cell w ι α}
    (h : ∀ d ∈ l, d.name ≠ i) : modify i f l = l := by
  have he : ∀ d ∈ l, (if d.name = i then f d else d) = id d := fun d hd => by simp [h d hd]
  rw [modify, List.map_congr_left he, List.map_id]

lemma modify_split {l r : List (Cell w ι α)} {f : Cell w ι α → Cell w ι α}
    (h : ∀ d ∈ l ++ r, d.name ≠ c.name) :
    modify c.name f (l ++ c :: r) = l ++ f c :: r := by
  have hl : modify c.name f l = l := modify_eq_self fun d hd => h d (by simp [hd])
  have hr : modify c.name f r = r := modify_eq_self fun d hd => h d (by simp [hd])
  simp only [modify] at hl hr ⊢
  rw [List.map_append, List.map_cons, hl, hr, if_pos rfl]

lemma erase_split {l r : List (Cell w ι α)} (h : ∀ d ∈ l ++ r, d.name ≠ c.name) :
    erase c.name (l ++ c :: r) = l ++ r := by
  have hl : l.filter (fun d => d.name ≠ c.name) = l :=
    List.filter_eq_self.mpr fun d hd => by simpa using h d (by simp [hd])
  have hr : r.filter (fun d => d.name ≠ c.name) = r :=
    List.filter_eq_self.mpr fun d hd => by simpa using h d (by simp [hd])
  simp only [erase, List.filter_append, List.filter_cons]
  rw [hl, hr]
  simp

lemma mem_modify {f : Cell w ι α → Cell w ι α} :
    d ∈ modify i f m ↔ (d ∈ m ∧ d.name ≠ i) ∨ ∃ c ∈ m, c.name = i ∧ d = f c := by
  simp only [modify, List.mem_map]
  constructor
  · rintro ⟨c, hc, rfl⟩
    by_cases hi : c.name = i
    · exact .inr ⟨c, hc, hi, if_pos hi⟩
    · exact .inl (by simpa [hi] using hc)
  · rintro (⟨hd, hi⟩ | ⟨c, hc, hi, rfl⟩)
    · exact ⟨d, hd, if_neg hi⟩
    · exact ⟨c, hc, if_pos hi⟩

/-- A change to the newest object. -/
lemma modify_cons_self {f : Cell w ι α → Cell w ι α} (hc : c.name ∉ m.map Cell.name) :
    modify c.name f (c :: m) = f c :: m := by
  have hm : ∀ d ∈ [] ++ m, d.name ≠ c.name := fun d hd he => hc (he ▸ List.mem_map_of_mem hd)
  exact modify_split hm

lemma exists_of_mem_modify {f : Cell w ι α → Cell w ι α} (hname : ∀ c, (f c).name = c.name)
    (hbody : ∀ c, (f c).body = c.body) (hd : d ∈ modify i f m) :
    ∃ c ∈ m, c.name = d.name ∧ c.body = d.body := by
  rcases mem_modify.mp hd with ⟨hd, -⟩ | ⟨c, hc, -, rfl⟩
  · exact ⟨d, hd, rfl, rfl⟩
  · exact ⟨c, hc, (hname c).symm, (hbody c).symm⟩

lemma mem_erase : d ∈ erase i m ↔ d ∈ m ∧ d.name ≠ i := by
  simp [erase]

lemma find_eq (hm : (m.map Cell.name).Nodup) (hc : c ∈ m) : find c.name m = some c := by
  obtain ⟨l, r, rfl, hlr⟩ := exists_split hm hc
  have hl : l.find? (fun d => d.name = c.name) = none :=
    List.find?_eq_none.mpr fun d hd => by simpa using hlr d (by simp [hd])
  simp [find, List.find?_append, hl]

end Split

section Rules

lemma references_modify {holds : α → List κ} {held : List κ} {f : Cell w ι α → Cell w ι α}
    (hf : ∀ c, holds (f c).body = holds c.body) :
    references holds held (modify i f m) = references holds held m := by
  have he : ∀ c : Cell w ι α, holds (if c.name = i then f c else c).body = holds c.body := by
    intro c
    split
    · exact hf c
    · rfl
  simp only [references, modify, List.flatMap_map, he]

lemma names_modify {f : Cell w ι α → Cell w ι α} (hf : ∀ c, (f c).name = c.name) :
    (modify i f m).map Cell.name = m.map Cell.name := by
  rw [modify, List.map_map]
  refine List.map_congr_left fun c _ => ?_
  simp only [Function.comp_apply]
  split
  · exact hf c
  · rfl

lemma names_addRef : (addRef i m).map Cell.name = m.map Cell.name :=
  names_modify fun _ => rfl

lemma names_setBody {f : α → α} : (setBody i f m).map Cell.name = m.map Cell.name :=
  names_modify fun _ => rfl

/-- An object is changed: no other count moves, and its own is right again. -/
lemma balanced_modify (h : Balanced holds held m) (hc : c ∈ m) {f : Cell w ι α → Cell w ι α}
    (hname : ∀ d, (f d).name = d.name)
    (hother : ∀ k, k ≠ c.name → (references holds held' (modify c.name f m)).count k =
      (references holds held m).count k)
    (hself : (f c).count.toNat = (references holds held' (modify c.name f m)).count c.name) :
    Balanced holds held' (modify c.name f m) := by
  refine ⟨by rw [names_modify hname]; exact h.nodup, ?_, ?_⟩
  · intro d hd
    rcases mem_modify.mp hd with ⟨hdm, hne⟩ | ⟨e, he, hei, rfl⟩
    · rw [h.counted d hdm, hother d.name hne]
    · have hec : e = c := by
        have hfe := find_eq h.nodup he
        rw [hei, find_eq h.nodup hc] at hfe
        exact (Option.some.inj hfe).symm
      rw [hec, hname c]
      exact hself
  · intro k hk
    rw [names_modify hname]
    by_cases hkc : k = c.name
    · rw [hkc]
      exact List.mem_map_of_mem hc
    · refine h.named k (List.count_pos_iff.mp ?_)
      rw [← hother k hkc]
      exact List.count_pos_iff.mpr hk

/-- Only how many references to an object are held matters. -/
lemma Balanced.perm (h : Balanced holds held m) (hp : held.Perm held') :
    Balanced holds held' m := by
  have hr : (references holds held m).Perm (references holds held' m) := hp.append_right _
  exact ⟨h.nodup, fun c hc => by rw [h.counted c hc, hr.count_eq],
    fun i hi => h.named i (hr.mem_iff.mpr hi)⟩

lemma Balanced.exists_cell (h : Balanced holds held m) (hi : i ∈ references holds held m) :
    ∃ c ∈ m, c.name = i ∧ 0 < c.count.toNat := by
  obtain ⟨c, hc, rfl⟩ := List.mem_map.mp (h.named i hi)
  refine ⟨c, hc, rfl, ?_⟩
  rw [h.counted c hc]
  exact List.count_pos_iff.mpr hi

lemma references_addRef {holds : α → List κ} {held : List κ} :
    references holds held (addRef i m) = references holds held m :=
  references_modify fun _ => rfl

lemma references_dropRef {holds : α → List κ} {held : List κ} :
    references holds held (dropRef i m) = references holds held m :=
  references_modify fun _ => rfl

/-- Where there are not too many references, a count does not wrap around. -/
lemma Balanced.count_succ (h : Balanced holds held m)
    (hroom : (references holds held m).length + 1 < 2 ^ w) (hc : c ∈ m) :
    (c.count + 1).toNat = c.count.toNat + 1 := by
  have hle : c.count.toNat ≤ (references holds held m).length := by
    rw [h.counted c hc]
    exact List.count_le_length
  have hone : (1 : BitVec w).toNat = 1 % 2 ^ w := BitVec.toNat_ofNat 1 w
  rw [BitVec.toNat_add, hone, Nat.add_mod_mod, Nat.mod_eq_of_lt (by omega)]

omit [DecidableEq ι] in
lemma Cell.count_pred (hc : 0 < c.count.toNat) : (c.count - 1).toNat = c.count.toNat - 1 := by
  have hlt := c.count.isLt
  have hone : (1 : BitVec w).toNat = 1 := by
    rw [show (1 : BitVec w).toNat = 1 % 2 ^ w from BitVec.toNat_ofNat 1 w]
    exact Nat.mod_eq_of_lt (by omega)
  have hsum : 2 ^ w - 1 + c.count.toNat = c.count.toNat - 1 + 2 ^ w := by omega
  rw [BitVec.toNat_sub, hone, hsum, Nat.add_mod_right, Nat.mod_eq_of_lt (by omega)]

lemma balanced_addRef (h : Balanced holds held m)
    (hroom : (references holds held m).length + 1 < 2 ^ w) (hi : i ∈ m.map Cell.name) :
    Balanced holds (i :: held) (addRef i m) := by
  obtain ⟨c, hc, rfl⟩ := List.mem_map.mp hi
  have hr : references holds (c.name :: held) (addRef c.name m) =
      c.name :: references holds held m := references_addRef
  refine balanced_modify h hc (fun _ => rfl) (fun k hk => ?_) ?_
  · exact (congrArg (List.count k) hr).trans (List.count_cons_of_ne (Ne.symm hk))
  · refine .trans ?_ (congrArg (List.count c.name) hr).symm
    rw [List.count_cons_self, ← h.counted c hc]
    exact h.count_succ hroom hc

lemma balanced_dropRef (h : Balanced holds (i :: held) m) :
    Balanced holds held (dropRef i m) := by
  obtain ⟨c, hc, rfl, hpos⟩ := h.exists_cell (i := i) (by simp [references])
  have hr : references holds held (dropRef c.name m) = references holds held m :=
    references_dropRef
  have hcons : references holds (c.name :: held) m = c.name :: references holds held m := rfl
  refine balanced_modify h hc (fun _ => rfl) (fun k hk => ?_) ?_
  · rw [hcons, List.count_cons_of_ne (Ne.symm hk)]
    exact congrArg (List.count k) hr
  · refine .trans ?_ (congrArg (List.count c.name) hr).symm
    have hcount := h.counted c hc
    rw [hcons, List.count_cons_self] at hcount
    exact (Cell.count_pred hpos).trans (Nat.sub_eq_of_eq_add hcount)

/-- An object whose references do not change. -/
lemma balanced_setBody (h : Balanced holds held m) (hc : c ∈ m) {f : α → α}
    (hf : ∀ b, holds (f b) = holds b) : Balanced holds held (setBody c.name f m) := by
  have hr : references holds held (setBody c.name f m) = references holds held m :=
    references_modify fun d => hf d.body
  refine balanced_modify h hc (fun _ => rfl) (fun k _ => congrArg (List.count k) hr) ?_
  exact (h.counted c hc).trans (congrArg (List.count c.name) hr).symm

/-- A reference held outside is given to an object to hold. -/
lemma references_store {holds : α → List κ} {held : List κ} {k : κ}
    (hm : (m.map Cell.name).Nodup) (hc : c ∈ m) {f : α → α}
    (hf : holds (f c.body) = k :: holds c.body) :
    (references holds held (setBody c.name f m)).Perm (references holds (k :: held) m) := by
  obtain ⟨l, r, rfl, hlr⟩ := exists_split hm hc
  have hs : setBody c.name f (l ++ c :: r) = l ++ { c with body := f c.body } :: r :=
    modify_split hlr
  rw [hs]
  simp only [references, List.flatMap_append, List.flatMap_cons, hf, List.cons_append]
  rw [← List.append_assoc held, ← List.append_assoc held]
  exact List.perm_middle

lemma balanced_store (h : Balanced holds (j :: held) m) (hc : c ∈ m) {f : α → α}
    (hf : holds (f c.body) = j :: holds c.body) : Balanced holds held (setBody c.name f m) := by
  have hr : (references holds held (setBody c.name f m)).Perm
      (references holds (j :: held) m) := references_store h.nodup hc hf
  refine balanced_modify h hc (fun _ => rfl) (fun k _ => ?_) ?_
  · exact hr.count_eq k
  · exact (h.counted c hc).trans (hr.count_eq c.name).symm

omit [DecidableEq ι] in
/-- The references around a new object are those it takes over and the others. -/
lemma references_cons {holds : α → List κ} {held : List κ} :
    (references holds held (c :: m)).Perm (references holds (holds c.body ++ held) m) := by
  simp only [references, List.flatMap_cons, ← List.append_assoc]
  exact List.perm_append_comm.append_right _

/-- The references of an object that is destroyed are in the hands of the one who destroys
it. -/
lemma references_erase {holds : α → List κ} {held : List κ} (hm : (m.map Cell.name).Nodup)
    (hc : c ∈ m) :
    (references holds (holds c.body ++ held) (erase c.name m)).Perm
      (references holds held m) := by
  obtain ⟨l, r, rfl, hlr⟩ := exists_split hm hc
  rw [erase_split hlr]
  simp only [references, List.flatMap_append, List.flatMap_cons]
  rw [List.append_assoc, ← List.append_assoc held, ← List.append_assoc held]
  exact List.perm_append_comm_assoc _ _ _

/-- An object nobody refers to is destroyed. -/
lemma balanced_erase (h : Balanced holds held m) (hc : c ∈ m) (h0 : c.count = 0) :
    Balanced holds (holds c.body ++ held) (erase c.name m) := by
  have hr : (references holds (holds c.body ++ held) (erase c.name m)).Perm
      (references holds held m) := references_erase h.nodup hc
  have hnone : c.name ∉ references holds held m := by
    rw [← List.count_eq_zero, ← h.counted c hc, h0]
    exact BitVec.toNat_ofNat 0 w
  refine ⟨?_, fun d hd => ?_, fun i hi => ?_⟩
  · exact (List.filter_sublist.map Cell.name).nodup h.nodup
  · rw [h.counted d (mem_erase.mp hd).1, hr.count_eq]
  · have him := hr.mem_iff.mp hi
    obtain ⟨d, hd, rfl⟩ := List.mem_map.mp (h.named i him)
    exact List.mem_map_of_mem (mem_erase.mpr ⟨hd, fun he => hnone (he ▸ him)⟩)

/-- A new object takes over references held outside. -/
lemma balanced_insert {b : α} (h : Balanced holds (holds b ++ held) m)
    (hi : i ∉ m.map Cell.name) : Balanced holds held (⟨i, 0, b⟩ :: m) := by
  have hr : (references holds held (⟨i, 0, b⟩ :: m : List (Cell w ι α))).Perm
      (references holds (holds b ++ held) m) := references_cons
  have hnone : i ∉ references holds (holds b ++ held) m := fun hm => hi (h.named i hm)
  refine ⟨List.nodup_cons.mpr ⟨hi, h.nodup⟩, fun d hd => ?_, fun k hk => ?_⟩
  · rw [hr.count_eq]
    rcases List.mem_cons.mp hd with rfl | hd
    · exact (BitVec.toNat_ofNat 0 w).trans (List.count_eq_zero.mpr hnone).symm
    · exact h.counted d hd
  · exact List.mem_cons_of_mem _ (h.named k (hr.mem_iff.mp hk))

/-- A reference to the newest object is given up. -/
lemma release_cons (hc : c.name ∉ m.map Cell.name) :
    release c.name (c :: m) =
      if c.count - 1 = 0 then (m, some c.body)
      else ({ c with count := c.count - 1 } :: m, none) := by
  have hm : ∀ d ∈ [] ++ m, d.name ≠ c.name := fun d hd he => hc (he ▸ List.mem_map_of_mem hd)
  have hdrop : dropRef c.name (c :: m) = { c with count := c.count - 1 } :: m :=
    modify_cons_self hc
  have herase : erase c.name (c :: m) = m := erase_split hm
  simp only [release, hdrop, herase, find, List.find?_cons, decide_true]

lemma used_addRef (h : Balanced holds held m)
    (hroom : (references holds held m).length + 1 < 2 ^ w) (hu : Used m) :
    Used (addRef i m) := by
  intro d hd
  rcases mem_modify.mp hd with ⟨hdm, -⟩ | ⟨c, hc, -, rfl⟩
  · exact hu d hdm
  · intro hzero
    have hsucc := h.count_succ hroom hc
    have hnone : (0 : BitVec w).toNat = 0 := BitVec.toNat_ofNat 0 w
    rw [show c.count + 1 = 0 from hzero, hnone] at hsucc
    omega

lemma used_setBody (h : Used m) {f : α → α} : Used (setBody i f m) := by
  intro d hd
  rcases mem_modify.mp hd with ⟨hdm, -⟩ | ⟨c, hc, -, rfl⟩
  · exact h d hdm
  · exact h c hc

/-- A reference given up: either there are others, or the object goes and what it held is in
the hands of the destructor. -/
lemma release_cases (h : Balanced holds (i :: held) m) (hu : Used m) :
    (release i m = (dropRef i m, none) ∧ Balanced holds held (dropRef i m) ∧
      Used (dropRef i m)) ∨
    ∃ c ∈ m, c.name = i ∧ release i m = (erase i m, some c.body) ∧
      Balanced holds (holds c.body ++ held) (erase i m) ∧ Used (erase i m) := by
  obtain ⟨c, hc, rfl, -⟩ := h.exists_cell (i := i) (by simp [references])
  have hdrop := balanced_dropRef h
  have hmem : { c with count := c.count - 1 } ∈ dropRef c.name m :=
    mem_modify.mpr (.inr ⟨c, hc, rfl, rfl⟩)
  have hfind : find c.name (dropRef c.name m) = some { c with count := c.count - 1 } :=
    find_eq hdrop.nodup hmem
  have herase : erase c.name (dropRef c.name m) = erase c.name m := by
    obtain ⟨l, r, rfl, hlr⟩ := exists_split h.nodup hc
    have hs : dropRef c.name (l ++ c :: r) = l ++ { c with count := c.count - 1 } :: r :=
      modify_split hlr
    rw [hs, erase_split hlr]
    exact erase_split (c := { c with count := c.count - 1 }) hlr
  by_cases h0 : c.count - 1 = 0
  · refine .inr ⟨c, hc, rfl, by simp only [release, hfind, if_pos h0], ?_, fun d hd => ?_⟩
    · rw [← herase]
      exact balanced_erase (c := { c with count := c.count - 1 }) hdrop hmem h0
    · exact hu d (mem_erase.mp hd).1
  · refine .inl ⟨by simp only [release, hfind, if_neg h0], hdrop, fun d hd => ?_⟩
    · rcases mem_modify.mp hd with ⟨hdm, -⟩ | ⟨e, he, hec, rfl⟩
      · exact hu d hdm
      · have hee : e = c := by
          have hfe := find_eq h.nodup he
          rw [hec, find_eq h.nodup hc] at hfe
          exact (Option.some.inj hfe).symm
        rw [hee]
        exact h0

end Rules

section Total

variable {weight : α → ℤ}

lemma totalWeight_modify {f : Cell w ι α → Cell w ι α}
    (hf : ∀ c, weight (f c).body = weight c.body) :
    totalWeight weight (modify i f m) = totalWeight weight m := by
  have he : ∀ c : Cell w ι α, weight (if c.name = i then f c else c).body = weight c.body := by
    intro c
    split
    · exact hf c
    · rfl
  simp only [totalWeight, modify, List.map_map, Function.comp_def, he]

lemma totalWeight_setBody (hm : (m.map Cell.name).Nodup) (hc : c ∈ m) {f : α → α} :
    totalWeight weight (setBody c.name f m) =
      totalWeight weight m - weight c.body + weight (f c.body) := by
  obtain ⟨l, r, rfl, hlr⟩ := exists_split hm hc
  have hs : setBody c.name f (l ++ c :: r) = l ++ { c with body := f c.body } :: r :=
    modify_split hlr
  rw [hs]
  simp only [totalWeight, List.map_append, List.map_cons, List.sum_append, List.sum_cons]
  omega

lemma totalWeight_erase (hm : (m.map Cell.name).Nodup) (hc : c ∈ m) :
    totalWeight weight (erase c.name m) = totalWeight weight m - weight c.body := by
  obtain ⟨l, r, rfl, hlr⟩ := exists_split hm hc
  rw [erase_split hlr]
  simp only [totalWeight, List.map_append, List.map_cons, List.sum_append, List.sum_cons]
  omega

omit [DecidableEq ι] in
lemma totalWeight_cons : totalWeight weight (c :: m) = weight c.body + totalWeight weight m := by
  simp [totalWeight]

omit [DecidableEq ι] in
lemma totalWeight_nonneg (hw : ∀ b, 0 ≤ weight b) : 0 ≤ totalWeight weight m := by
  induction m with
  | nil => simp [totalWeight]
  | cons c m ih =>
    have hc := hw c.body
    rw [totalWeight_cons]
    omega

omit [DecidableEq ι] in
lemma totalWeight_eq_zero (hw : ∀ b, 0 ≤ weight b) :
    totalWeight weight m = 0 ↔ ∀ c ∈ m, weight c.body = 0 := by
  induction m with
  | nil => simp [totalWeight]
  | cons c m ih =>
    have hc := hw c.body
    have hm := totalWeight_nonneg (m := m) hw
    rw [totalWeight_cons, List.forall_mem_cons, ← ih]
    omega

omit [DecidableEq ι] in
lemma totalWeight_le {k : ℤ} (hw : ∀ b, weight b ≤ k) : totalWeight weight m ≤ m.length * k := by
  induction m with
  | nil => simp [totalWeight]
  | cons c m ih =>
    have hc := hw c.body
    rw [totalWeight_cons, List.length_cons, Nat.cast_succ, Int.add_mul, Int.one_mul]
    omega

end Total

/-- There are at least as many references as objects. -/
lemma Balanced.length_le (h : Balanced holds held m) (hu : Used m) :
    m.length ≤ (references holds held m).length := by
  have hsub : m.map Cell.name ⊆ references holds held m := by
    intro i hi
    obtain ⟨c, hc, rfl⟩ := List.mem_map.mp hi
    rw [← List.count_pos_iff, ← h.counted c hc]
    exact Nat.pos_of_ne_zero fun hzero => hu c hc (BitVec.eq_of_toNat_eq hzero)
  have hlength := (List.subperm_of_subset h.nodup hsub).length_le
  rwa [List.length_map] at hlength

/-- Where references go down in rank, nothing is kept by a ring: every object is reached from
a reference held outside. -/
lemma Balanced.reached (h : Balanced holds held m) (hu : Used m) {rank : α → ℕ} {N : ℕ}
    (hN : ∀ b, rank b ≤ N)
    (hrank : ∀ c ∈ m, ∀ d ∈ m, d.name ∈ holds c.body → rank d.body < rank c.body)
    (hc : c ∈ m) : ∃ i ∈ held, Relation.ReflTransGen (Refers holds m) i c.name := by
  induction hn : N - rank c.body using Nat.strongRecOn generalizing c with
  | _ n ih =>
    have hmem : c.name ∈ references holds held m := by
      rw [← List.count_pos_iff, ← h.counted c hc]
      exact Nat.pos_of_ne_zero fun hzero => hu c hc (BitVec.eq_of_toNat_eq hzero)
    rcases List.mem_append.mp hmem with hheld | hobj
    · exact ⟨c.name, hheld, .refl⟩
    · obtain ⟨d, hd, hdc⟩ := List.mem_flatMap.mp hobj
      have hlt : rank c.body < rank d.body := hrank d hd c hc hdc
      have hle := hN d.body
      obtain ⟨i, hi, hpath⟩ := ih (N - rank d.body) (by omega) hd rfl
      exact ⟨i, hi, hpath.tail ⟨d, hd, rfl, hdc⟩⟩

end Counting
