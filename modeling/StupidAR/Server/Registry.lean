import Mathlib.Data.Finite.Defs
import Mathlib.Data.List.Infix
import Mathlib.Data.Set.Card

/-!
# Deleting a registry key with all below it

`EliminateSubKey` empties a key by deleting the first of its subkeys over and over, and does not
look at what came of a deletion. The registry itself is a parameter: what the documentation says
of its functions, when nobody else writes to it at the same time.
-/

namespace StupidAR

/-- An `HRESULT`, or an error code of the system. -/
abbrev Status := UInt32

def Status.failed (hr : Status) : Bool :=
  0x80000000 ≤ hr

def Status.fail : Status := 0x80004005

/-- What the security settings of a key let the server do to it. -/
structure Rights where
  opens : Bool
  lists : Bool
  deletes : Bool
  deriving DecidableEq

/-- A registry key. The empty name is that of its default value. -/
structure Key where
  rights : Rights
  values : String → Option String

/-- The functions of the registry that delete keys, as documented. A key is known by the names on
the way to it from `HKEY_CLASSES_ROOT`, which is taken for one tree; names are taken from strings
without regard to case. `σ` is the state of the machine. A key goes if it has no subkeys and may
be deleted. -/
structure Registry (σ ν : Type) where
  tree : σ → List ν → Option Key
  path : String → List ν
  openKey : σ → List ν → UInt32
  enumKey : σ → List ν → Except UInt32 String
  deleteKey : σ → List ν → UInt32 × σ
  finite : ∀ m, {p | tree m p ≠ none}.Finite
  above : ∀ {m p q}, tree m q ≠ none → p <+: q → tree m p ≠ none
  open_iff : ∀ {m p}, openKey m p = 0 ↔ ∃ key, tree m p = some key ∧ key.rights.opens = true
  enum_iff : ∀ {m p}, (∃ name, enumKey m p = .ok name) ↔
    (∃ key, tree m p = some key ∧ key.rights.lists = true) ∧ ∃ n, tree m (p ++ [n]) ≠ none
  enum_ok : ∀ {m p name}, enumKey m p = .ok name →
    name ≠ "" ∧ ∃ n, path name = [n] ∧ tree m (p ++ [n]) ≠ none
  delete_iff : ∀ {m p}, (deleteKey m p).1 = 0 ↔
    (∃ key, tree m p = some key ∧ key.rights.deletes = true) ∧ ∀ n, tree m (p ++ [n]) = none
  delete_gone : ∀ {m p}, (deleteKey m p).1 = 0 → tree (deleteKey m p).2 p = none
  delete_other : ∀ {m p q}, q ≠ p → tree (deleteKey m p).2 q = tree m q
  delete_failed : ∀ {m p}, (deleteKey m p).1 ≠ 0 → tree (deleteKey m p).2 = tree m

/-- The key at `q` is below the one at `p`. -/
def Below {ν : Type} (p q : List ν) : Prop :=
  p <+: q ∧ q ≠ p

section Paths

variable {ν : Type} {p q : List ν} {n : ν}

lemma below_concat : Below p (p ++ [n]) :=
  ⟨List.prefix_append p [n], fun h => by simpa using congrArg List.length h⟩

lemma below_of_concat (h : p ++ [n] <+: q) : Below p q := by
  refine ⟨(List.prefix_append p [n]).trans h, ?_⟩
  rintro rfl
  have hlength := h.length_le
  simp at hlength

/-- The first key on the way down. -/
lemma Below.exists_child (h : Below p q) : ∃ n, p ++ [n] <+: q := by
  obtain ⟨⟨l, rfl⟩, hne⟩ := h
  cases l with
  | nil => simp at hne
  | cons n l => exact ⟨n, l, by simp⟩

lemma Below.not_prefix (h : Below p q) : ¬ q <+: p :=
  fun hq => h.2 (hq.eq_of_length_le h.1.length_le)

end Paths

namespace Registry

variable {σ ν : Type} (R : Registry σ ν)

mutual

/-- `EliminateSubKey` of a key below `hkey`, as far as `fuel` allows. -/
def eliminateSubKey : ℕ → List ν → String → σ → Option (Status × σ)
  | 0, _, _, _ => none
  | fuel + 1, hkey, strSubKey, m =>
    if strSubKey = "" then some (.fail, m)
    else
      let hk := hkey ++ R.path strSubKey
      if R.openKey m hk = 0 then
        (eliminateAll fuel hk m).map fun m' => (0, (R.deleteKey m' hk).2)
      else some (0, m)

/-- The loop of `EliminateSubKey` over the subkeys of the key it has opened, which ends when
none is listed. -/
def eliminateAll : ℕ → List ν → σ → Option σ
  | 0, _, _ => none
  | fuel + 1, hk, m =>
    match R.enumKey m hk with
    | .ok name => (eliminateSubKey fuel hk name m).bind fun r => eliminateAll fuel hk r.2
    | .error _ => some m

end

def Opens (m : σ) (p : List ν) : Prop :=
  ∃ key, R.tree m p = some key ∧ key.rights.opens = true

def Lists (m : σ) (p : List ν) : Prop :=
  ∃ key, R.tree m p = some key ∧ key.rights.lists = true

def Deletes (m : σ) (p : List ν) : Prop :=
  ∃ key, R.tree m p = some key ∧ key.rights.deletes = true

def Bare (m : σ) (p : List ν) : Prop :=
  ∀ n, R.tree m (p ++ [n]) = none

/-- A key that can be opened and deleted, and listed unless nothing is below it. -/
structure Free (m : σ) (p : List ν) : Prop where
  opens : R.Opens m p
  deletes : R.Deletes m p
  lists : R.Lists m p ∨ R.Bare m p

/-- The key at `p` is gone with all below it, and the others are as they were. -/
structure Removed (p : List ν) (m m' : σ) : Prop where
  gone : ∀ q, p <+: q → R.tree m' q = none
  other : ∀ q, ¬ p <+: q → R.tree m' q = R.tree m q

/-- All keys below the one at `p` can be eliminated, if it lists them. -/
def FreeBelow (m : σ) (p : List ν) : Prop :=
  R.Lists m p → ∀ q, Below p q → R.tree m q ≠ none → R.Free m q

/-- What the loop leaves when it ends. -/
structure Emptied (p : List ν) (m m' : σ) : Prop where
  free : R.FreeBelow m p
  gone : R.Lists m p → ∀ q, Below p q → R.tree m' q = none
  other : ∀ q, ¬ (R.Lists m p ∧ Below p q) → R.tree m' q = R.tree m q

variable {R} {m m' m₀ m₁ : σ} {p q : List ν} {n : ν} {fuel fuel' : ℕ} {name : String}
  {r : Status × σ}

section Keys

lemma Bare.below (h : R.Bare m p) (hq : Below p q) : R.tree m q = none := by
  obtain ⟨n, hn⟩ := hq.exists_child
  by_contra hne
  exact R.above hne hn (h n)

lemma Removed.of_ne_none (h : R.Removed p m m') (hq : R.tree m' q ≠ none) :
    ¬ p <+: q ∧ R.tree m q ≠ none := by
  have hout : ¬ p <+: q := fun hp => hq (h.gone q hp)
  exact ⟨hout, by rwa [← h.other q hout]⟩

end Keys

section Loop

lemma opens_congr (h : R.tree m' p = R.tree m p) : R.Opens m' p ↔ R.Opens m p := by
  rw [Opens, Opens, h]

lemma lists_congr (h : R.tree m' p = R.tree m p) : R.Lists m' p ↔ R.Lists m p := by
  rw [Lists, Lists, h]

lemma deletes_congr (h : R.tree m' p = R.tree m p) : R.Deletes m' p ↔ R.Deletes m p := by
  rw [Deletes, Deletes, h]

/-- An emptied key goes if it may be deleted and nothing is left below it. -/
lemma Emptied.delete_iff (h : R.Emptied p m m') :
    (R.deleteKey m' p).1 = 0 ↔ R.Deletes m p ∧ (R.Lists m p ∨ R.Bare m p) := by
  have hself : R.tree m' p = R.tree m p := h.other p fun hp => hp.2.2 rfl
  refine R.delete_iff.trans (and_congr (deletes_congr hself) ?_)
  by_cases hlists : R.Lists m p
  · exact ⟨fun _ => .inl hlists, fun _ n => h.gone hlists _ below_concat⟩
  · have hsame : ∀ n, R.tree m' (p ++ [n]) = R.tree m (p ++ [n]) :=
      fun n => h.other _ fun hp => hlists hp.1
    simp only [hlists, false_or, Bare, hsame]

lemma Emptied.removed (h : R.Emptied p m m') (hd : (R.deleteKey m' p).1 = 0) :
    R.Removed p m (R.deleteKey m' p).2 := by
  refine ⟨fun q hq => ?_, fun q hq => ?_⟩
  · by_cases hp : q = p
    · rw [hp]
      exact R.delete_gone hd
    · rw [R.delete_other hp]
      exact Bare.below (R.delete_iff.mp hd).2 ⟨hq, hp⟩
  · have hp : q ≠ p := fun hp => hq (hp ▸ List.prefix_refl p)
    rw [R.delete_other hp]
    exact h.other q fun hb => hq hb.2.1

/-- After a subkey is removed the others can be eliminated as before. -/
lemma Removed.free_iff (h : R.Removed (p ++ [n]) m m') (hq : Below p q)
    (hout : ¬ p ++ [n] <+: q) : R.Free m' q ↔ R.Free m q := by
  have hself := h.other q hout
  have hchild : ∀ k, ¬ p ++ [n] <+: q ++ [k] := by
    intro k hk
    rcases List.prefix_concat_iff.mp hk with heq | hk
    · exact hq.2 (List.append_inj_left' heq rfl).symm
    · exact hout hk
  have hbare : R.Bare m' q ↔ R.Bare m q := by
    simp only [Bare, fun k => h.other _ (hchild k)]
  constructor
  · rintro ⟨hopens, hdeletes, hlists⟩
    exact ⟨(opens_congr hself).mp hopens, (deletes_congr hself).mp hdeletes,
      hlists.imp (lists_congr hself).mp hbare.mp⟩
  · rintro ⟨hopens, hdeletes, hlists⟩
    exact ⟨(opens_congr hself).mpr hopens, (deletes_congr hself).mpr hdeletes,
      hlists.imp (lists_congr hself).mpr hbare.mpr⟩

lemma eliminateSubKey_opens (hname : name ≠ "") (hopens : R.Opens m (p ++ R.path name)) :
    R.eliminateSubKey (fuel + 1) p name m =
      (R.eliminateAll fuel (p ++ R.path name) m).map fun m' =>
        (0, (R.deleteKey m' (p ++ R.path name)).2) := by
  rw [eliminateSubKey, if_neg hname]
  exact if_pos (R.open_iff.mpr hopens)

lemma eliminateSubKey_closed (hname : name ≠ "") (hopens : ¬ R.Opens m (p ++ R.path name)) :
    R.eliminateSubKey (fuel + 1) p name m = some (0, m) := by
  rw [eliminateSubKey, if_neg hname]
  exact if_neg fun h => hopens (R.open_iff.mp h)

lemma lists_of_enum (h : R.enumKey m p = .ok name) : R.Lists m p :=
  (R.enum_iff.mp ⟨name, h⟩).1

/-- Nothing is listed any more. -/
lemma emptied_of_error {e : UInt32} (h : R.enumKey m p = .error e) : R.Emptied p m m := by
  have hbare : R.Lists m p → R.Bare m p := by
    intro hlists n
    by_contra hne
    obtain ⟨name, hname⟩ := R.enum_iff.mpr ⟨hlists, n, hne⟩
    rw [h] at hname
    cases hname
  refine ⟨fun hlists q hq hne => absurd ((hbare hlists).below hq) hne,
    fun hlists q hq => (hbare hlists).below hq, fun _ _ => rfl⟩

/-- The loop goes on after it has removed a subkey. -/
lemma Emptied.of_removed (hlists : R.Lists m p) (hfree : R.Free m (p ++ [n]))
    (hbelow : R.FreeBelow m (p ++ [n])) (h : R.Removed (p ++ [n]) m m₁)
    (hrest : R.Emptied p m₁ m') : R.Emptied p m m' := by
  have hself : R.tree m₁ p = R.tree m p := h.other p below_concat.not_prefix
  have hlists₁ : R.Lists m₁ p := (lists_congr hself).mpr hlists
  refine ⟨fun _ q hq hne => ?_, fun _ q hq => hrest.gone hlists₁ q hq, fun q hq => ?_⟩
  · by_cases hin : p ++ [n] <+: q
    · by_cases heq : q = p ++ [n]
      · rwa [heq]
      · rcases hfree.lists with hchild | hbare
        · exact hbelow hchild q ⟨hin, heq⟩ hne
        · exact absurd (hbare.below ⟨hin, heq⟩) hne
    · refine (h.free_iff hq hin).mp (hrest.free hlists₁ q hq ?_)
      rwa [h.other q hin]
  · have hout : ¬ Below p q := fun hb => hq ⟨hlists, hb⟩
    rw [hrest.other q fun hb => hout hb.2]
    exact h.other q fun hin => hout (below_of_concat hin)

/-- If the loop ends, it has emptied the key, and nothing was in its way: it would have come
back to a subkey that stays there. -/
lemma eliminateAll_emptied (h : R.eliminateAll fuel p m = some m') : R.Emptied p m m' := by
  induction fuel using Nat.strongRecOn generalizing p m m' with
  | _ fuel ih =>
    match fuel with
    | 0 => simp [eliminateAll] at h
    | 1 =>
      rw [eliminateAll] at h
      split at h
      · simp [eliminateSubKey] at h
      · next hlisted =>
        cases h
        exact emptied_of_error hlisted
    | fuel + 2 =>
      rw [eliminateAll] at h
      split at h
      · next name hlisted =>
        have hlists := lists_of_enum hlisted
        obtain ⟨hname, n, hpath, hthere⟩ := R.enum_ok hlisted
        obtain ⟨r, hr, hrest⟩ := Option.bind_eq_some_iff.mp h
        have hafter := ih (fuel + 1) (by omega) hrest
        by_cases hopens : R.Opens m (p ++ R.path name)
        · rw [eliminateSubKey_opens hname hopens, hpath] at hr
          obtain ⟨m₀, hm₀, rfl⟩ := Option.map_eq_some_iff.mp hr
          have hchild := ih fuel (by omega) hm₀
          have hself : R.tree m₀ p = R.tree m p :=
            hchild.other p fun hb => below_concat.not_prefix hb.2.1
          have hchildSelf : R.tree m₀ (p ++ [n]) = R.tree m (p ++ [n]) :=
            hchild.other _ fun hb => hb.2.2 rfl
          have hdeleted : (R.deleteKey m₀ (p ++ [n])).1 = 0 := by
            by_contra hfailed
            have hsame := R.delete_failed hfailed
            have hlists₁ : R.Lists (R.deleteKey m₀ (p ++ [n])).2 p :=
              (lists_congr (by rw [hsame, hself])).mpr hlists
            have hfree := hafter.free hlists₁ _ below_concat (by rwa [hsame, hchildSelf])
            refine hfailed (R.delete_iff.mpr ⟨?_, ?_⟩)
            · exact (deletes_congr (congrFun hsame _)).mp hfree.deletes
            · rcases hfree.lists with hl | hbare
              · have hl' : R.Lists m (p ++ [n]) :=
                  (lists_congr (by rw [hsame, hchildSelf])).mp hl
                exact fun k => hchild.gone hl' _ below_concat
              · exact fun k => hsame ▸ hbare k
          obtain ⟨hdeletes, hbare⟩ := hchild.delete_iff.mp hdeleted
          rw [hpath] at hopens
          exact hafter.of_removed hlists ⟨hopens, hdeletes, hbare⟩ hchild.free
            (hchild.removed hdeleted)
        · rw [eliminateSubKey_closed hname hopens] at hr
          cases hr
          exact hafter
      · next hlisted =>
        cases h
        exact emptied_of_error hlisted

end Loop

section Fuel

lemma eliminate_succ :
    (∀ p name m r, R.eliminateSubKey fuel p name m = some r →
      R.eliminateSubKey (fuel + 1) p name m = some r) ∧
    (∀ p m m', R.eliminateAll fuel p m = some m' →
      R.eliminateAll (fuel + 1) p m = some m') := by
  induction fuel with
  | zero => exact ⟨by simp [eliminateSubKey], by simp [eliminateAll]⟩
  | succ fuel ih =>
    refine ⟨fun p name m r h => ?_, fun p m m' h => ?_⟩
    · rw [eliminateSubKey] at h ⊢
      split at h
      · next hname =>
        rw [if_pos hname]
        exact h
      · next hname =>
        rw [if_neg hname]
        dsimp only at h ⊢
        split at h
        · next hopens =>
          obtain ⟨m₀, hm₀, rfl⟩ := Option.map_eq_some_iff.mp h
          rw [if_pos hopens, ih.2 _ m m₀ hm₀, Option.map_some]
        · next hopens =>
          rw [if_neg hopens]
          exact h
    · rw [eliminateAll] at h ⊢
      split at h
      · next name hlisted =>
        obtain ⟨r, hr, hrest⟩ := Option.bind_eq_some_iff.mp h
        rw [ih.1 _ name m r hr, Option.bind_some]
        exact ih.2 _ r.2 m' hrest
      · exact h

lemma eliminateAll_mono (h : R.eliminateAll fuel p m = some m') (hf : fuel ≤ fuel') :
    R.eliminateAll fuel' p m = some m' := by
  induction hf with
  | refl => exact h
  | step _ ih => exact eliminate_succ.2 p m m' ih

/-- The keys below the one at `p`. -/
def below (R : Registry σ ν) (m : σ) (p : List ν) : Set (List ν) :=
  {q | Below p q ∧ R.tree m q ≠ none}

lemma finite_below (m : σ) (p : List ν) : (R.below m p).Finite :=
  (R.finite m).subset fun _ hq => hq.2

lemma Removed.freeBelow (h : R.Removed (p ++ [n]) m m') (hfree : R.FreeBelow m p) :
    R.FreeBelow m' p := by
  intro hlists q hq hne
  have hself : R.tree m' p = R.tree m p := h.other p below_concat.not_prefix
  obtain ⟨hout, hthere⟩ := h.of_ne_none hne
  exact (h.free_iff hq hout).mpr (hfree ((lists_congr hself).mp hlists) q hq hthere)

/-- The loop ends when every key below can be eliminated: each turn removes one. -/
lemma eliminateAll_returns (hfree : R.FreeBelow m p) :
    ∃ fuel m', R.eliminateAll fuel p m = some m' := by
  induction hN : (R.below m p).ncard using Nat.strongRecOn generalizing p m with
  | _ N ih =>
    cases hlisted : R.enumKey m p with
    | error e => exact ⟨1, m, by rw [eliminateAll, hlisted]⟩
    | ok name =>
      obtain ⟨hname, n, hpath, hthere⟩ := R.enum_ok hlisted
      have hlists := lists_of_enum hlisted
      have hchild := hfree hlists _ below_concat hthere
      have hmem : p ++ [n] ∈ R.below m p := ⟨below_concat, hthere⟩
      have hdown : ∀ q, Below (p ++ [n]) q → Below p q := fun q hq => below_of_concat hq.1
      have hless : (R.below m (p ++ [n])).ncard < N := by
        rw [← hN]
        refine Set.ncard_lt_ncard ⟨fun q hq => ⟨hdown q hq.1, hq.2⟩, fun hsub => ?_⟩
          (finite_below m p)
        exact (hsub hmem).1.2 rfl
      obtain ⟨fuel₁, m₀, hm₀⟩ := ih _ hless
        (fun _ q hq hne => hfree hlists q (hdown q hq) hne) rfl
      have hemptied := eliminateAll_emptied hm₀
      have hremoved := hemptied.removed (hemptied.delete_iff.mpr ⟨hchild.deletes, hchild.lists⟩)
      have hfewer : (R.below (R.deleteKey m₀ (p ++ [n])).2 p).ncard < N := by
        rw [← hN]
        refine Set.ncard_lt_ncard ⟨fun q hq => ⟨hq.1, (hremoved.of_ne_none hq.2).2⟩,
          fun hsub => ?_⟩ (finite_below m p)
        exact (hsub hmem).2 (hremoved.gone _ (List.prefix_refl _))
      obtain ⟨fuel₂, m', hm'⟩ := ih _ hfewer (hremoved.freeBelow hfree) rfl
      refine ⟨max fuel₁ fuel₂ + 2, m', ?_⟩
      rw [eliminateAll, hlisted]
      dsimp only
      rw [← hpath] at hm₀ hchild
      rw [eliminateSubKey_opens hname hchild.opens,
        eliminateAll_mono hm₀ (Nat.le_max_left _ _), Option.map_some, Option.bind_some, hpath]
      exact eliminateAll_mono hm' (by omega)

end Fuel

/-- What `EliminateSubKey` takes away when it is to delete the key at `p`. -/
def Taken (R : Registry σ ν) (m : σ) (p q : List ν) : Prop :=
  (q = p ∧ R.Free m p) ∨ (Below p q ∧ R.Opens m p ∧ R.Lists m p)

/-- What `EliminateSubKey` has done when it comes back, of a key it could open. -/
lemma eliminateSubKey_taken {hkey : List ν} (hname : name ≠ "")
    (h : R.eliminateSubKey fuel hkey name m = some r) :
    r.1 = 0 ∧ ∀ q, (R.Taken m (hkey ++ R.path name) q → R.tree r.2 q = none) ∧
      (¬ R.Taken m (hkey ++ R.path name) q → R.tree r.2 q = R.tree m q) := by
  cases fuel with
  | zero => simp [eliminateSubKey] at h
  | succ fuel =>
    by_cases hopens : R.Opens m (hkey ++ R.path name)
    · rw [eliminateSubKey_opens hname hopens] at h
      obtain ⟨m₀, hm₀, rfl⟩ := Option.map_eq_some_iff.mp h
      have hemptied := eliminateAll_emptied hm₀
      refine ⟨rfl, fun q => ⟨?_, fun hq => ?_⟩⟩
      · rintro (⟨rfl, hfree⟩ | ⟨hbelow, -, hlists⟩)
        · exact R.delete_gone (hemptied.delete_iff.mpr ⟨hfree.deletes, hfree.lists⟩)
        · rw [R.delete_other hbelow.2]
          exact hemptied.gone hlists q hbelow
      · have hkept : R.tree m₀ q = R.tree m q :=
          hemptied.other q fun hb => hq (.inr ⟨hb.2, hopens, hb.1⟩)
        by_cases hself : q = hkey ++ R.path name
        · have hrefused : (R.deleteKey m₀ (hkey ++ R.path name)).1 ≠ 0 := by
            intro hdeleted
            obtain ⟨hdeletes, hlists⟩ := hemptied.delete_iff.mp hdeleted
            exact hq (.inl ⟨hself, hopens, hdeletes, hlists⟩)
          rw [R.delete_failed hrefused]
          exact hkept
        · rw [R.delete_other hself]
          exact hkept
    · rw [eliminateSubKey_closed hname hopens] at h
      cases h
      refine ⟨rfl, fun q => ⟨?_, fun _ => rfl⟩⟩
      rintro (⟨-, hfree⟩ | ⟨-, hopen, -⟩)
      · exact absurd hfree.opens hopens
      · exact absurd hopen hopens

/-- Nothing in the way of the loop. -/
lemma eliminateSubKey_returns {hkey : List ν} (hname : name ≠ "")
    (hfree : R.Opens m (hkey ++ R.path name) → R.FreeBelow m (hkey ++ R.path name)) :
    ∃ fuel r, R.eliminateSubKey fuel hkey name m = some r := by
  by_cases hopens : R.Opens m (hkey ++ R.path name)
  · obtain ⟨fuel, m₀, hm₀⟩ := eliminateAll_returns (hfree hopens)
    refine ⟨fuel + 1, (0, (R.deleteKey m₀ (hkey ++ R.path name)).2), ?_⟩
    rw [eliminateSubKey_opens hname hopens, hm₀, Option.map_some]
  · exact ⟨1, (0, m), eliminateSubKey_closed hname hopens⟩

/-- `EliminateSubKey` comes back exactly when every key below the one it is to delete can be
opened, emptied and deleted, or when it cannot open that one or list what is below it; it goes on
for ever otherwise. When it comes back all below is gone if it was listed, and the key itself if
it may be deleted and nothing is left below it; nobody is told. -/
theorem eliminateSubKey_returns_iff {hkey : List ν} (hname : name ≠ "") :
    ((∃ fuel r, R.eliminateSubKey fuel hkey name m = some r) ↔
      (R.Opens m (hkey ++ R.path name) → R.FreeBelow m (hkey ++ R.path name))) ∧
    ∀ fuel r, R.eliminateSubKey fuel hkey name m = some r →
      r.1 = 0 ∧ ∀ q, (R.Taken m (hkey ++ R.path name) q → R.tree r.2 q = none) ∧
        (¬ R.Taken m (hkey ++ R.path name) q → R.tree r.2 q = R.tree m q) := by
  refine ⟨⟨?_, eliminateSubKey_returns hname⟩, fun fuel r h => eliminateSubKey_taken hname h⟩
  rintro ⟨fuel, r, h⟩ hopens
  cases fuel with
  | zero => simp [eliminateSubKey] at h
  | succ fuel =>
    rw [eliminateSubKey_opens hname hopens] at h
    obtain ⟨m₀, hm₀, -⟩ := Option.map_eq_some_iff.mp h
    exact (eliminateAll_emptied hm₀).free

end Registry

/-- A character of a name in capitals. -/
def nameChar (c : Char) : Bool :=
  c.toUpper = c ∧ c ≠ '\\'

/-- The name of a key, in capitals. -/
abbrev KeyName := {s : String // s ≠ "" ∧ s.toList.all nameChar = true}

lemma toUpper_eq_self {c : Char} (h : ¬ (97 ≤ c.toNat ∧ c.toNat ≤ 122)) : c.toUpper = c :=
  dif_neg h

lemma toNat_toUpper {c : Char} (h : 97 ≤ c.toNat ∧ c.toNat ≤ 122) :
    c.toUpper.toNat = c.toNat - 32 := by
  obtain ⟨hvalid, hcap⟩ : ∃ hvalid, c.toUpper = ⟨c.val + ('A'.val - 'a'.val), hvalid⟩ :=
    ⟨_, dif_pos h⟩
  have hnat := congrArg UInt32.toNat (congrArg Char.val hcap)
  rw [UInt32.toNat_add, show ('A'.val - 'a'.val).toNat = 2 ^ 32 - 32 from rfl] at hnat
  simp only [Char.toNat] at h ⊢
  omega

lemma nameChar_iff {c : Char} : nameChar c = true ↔ c.toUpper = c ∧ c ≠ '\\' :=
  decide_eq_true_iff

lemma nameChar_toUpper {c : Char} (hc : c ≠ '\\') : nameChar c.toUpper = true := by
  rw [nameChar_iff]
  by_cases h : 97 ≤ c.toNat ∧ c.toNat ≤ 122
  · have hcap := toNat_toUpper h
    refine ⟨toUpper_eq_self (by omega), fun heq => ?_⟩
    rw [heq, show '\\'.toNat = 92 from rfl] at hcap
    omega
  · rw [toUpper_eq_self h]
    exact ⟨toUpper_eq_self h, hc⟩

/-- A registry written down: the keys that are there, and what is in them. -/
structure Hive where
  keys : List (List KeyName)
  closed : ∀ q ∈ keys, ∀ p, p <+: q → p ∈ keys
  key : List KeyName → Key

namespace Hive

variable {m : Hive} {p q : List KeyName} {n : KeyName}

def tree (m : Hive) (p : List KeyName) : Option Key :=
  if p ∈ m.keys then some (m.key p) else none

/-- The name that is spelled like this. -/
def keyName (l : List Char) : Option KeyName :=
  let s := String.ofList (l.map Char.toUpper)
  if h : s ≠ "" ∧ s.toList.all nameChar = true then some ⟨s, h⟩ else none

def path (s : String) : List KeyName :=
  (s.toList.splitOn '\\').filterMap keyName

def subkeys (m : Hive) (p : List KeyName) : List KeyName :=
  m.keys.filterMap fun q => if q.dropLast = p then q.getLast? else none

lemma tree_ne_none : m.tree p ≠ none ↔ p ∈ m.keys := by
  unfold tree
  split <;> simpa

lemma tree_eq_some {key : Key} : m.tree p = some key ↔ p ∈ m.keys ∧ m.key p = key := by
  unfold tree
  split
  · next h => simp [h]
  · next h => simp [h]

lemma path_single {s : String} (h : s ≠ "") (hb : '\\' ∉ s.toList) :
    ∃ n : KeyName, n.val = String.ofList (s.toList.map Char.toUpper) ∧ path s = [n] := by
  have hsplit : s.toList.splitOn '\\' = [s.toList] :=
    List.splitOnP_eq_singleton fun x hx => beq_false_of_ne fun heq => hb (heq ▸ hx)
  have hname : String.ofList (s.toList.map Char.toUpper) ≠ "" ∧
      (String.ofList (s.toList.map Char.toUpper)).toList.all nameChar = true := by
    refine ⟨by simpa using h, List.all_eq_true.mpr fun c hc => ?_⟩
    rw [String.toList_ofList] at hc
    obtain ⟨d, hd, rfl⟩ := List.mem_map.mp hc
    exact nameChar_toUpper fun heq => hb (heq ▸ hd)
  refine ⟨⟨_, hname⟩, rfl, ?_⟩
  simp only [path, hsplit, List.filterMap_cons, List.filterMap_nil, keyName, dif_pos hname]

/-- A name is spelled in capitals already. -/
lemma path_val : path n.val = [n] := by
  have hname : ∀ c ∈ n.val.toList, c.toUpper = c ∧ c ≠ '\\' :=
    fun c hc => nameChar_iff.mp (List.all_eq_true.mp n.2.2 c hc)
  have hback : '\\' ∉ n.val.toList := fun hmem => (hname _ hmem).2 rfl
  have hcapital : n.val.toList.map Char.toUpper = n.val.toList :=
    (List.map_congr_left fun c hc => (hname c hc).1).trans (List.map_id _)
  obtain ⟨n', hn', hpath⟩ := path_single n.2.1 hback
  rw [hcapital, String.ofList_toList] at hn'
  rw [hpath, Subtype.ext hn']

lemma mem_subkeys : n ∈ m.subkeys p ↔ m.tree (p ++ [n]) ≠ none := by
  rw [tree_ne_none, subkeys, List.mem_filterMap]
  constructor
  · rintro ⟨q, hq, hlast⟩
    split at hlast
    · next hp =>
      rw [← hp, List.dropLast_append_getLast? n hlast]
      exact hq
    · cases hlast
  · intro hq
    exact ⟨p ++ [n], hq, by simp⟩

lemma subkeys_eq_nil : m.subkeys p = [] ↔ ∀ n, m.tree (p ++ [n]) = none := by
  simp only [List.eq_nil_iff_forall_not_mem, mem_subkeys, not_not]

/-- The registry without a key that has nothing below it. -/
def erase (m : Hive) (p : List KeyName) (hp : m.subkeys p = []) : Hive where
  keys := m.keys.filter (· ≠ p)
  closed := by
    intro q hq r hr
    obtain ⟨hmem, hne⟩ := List.mem_filter.mp hq
    refine List.mem_filter.mpr ⟨m.closed q hmem r hr, decide_eq_true fun heq => ?_⟩
    subst heq
    obtain ⟨n, hn⟩ := Below.exists_child ⟨hr, of_decide_eq_true hne⟩
    exact tree_ne_none.mpr (m.closed q hmem _ hn) (subkeys_eq_nil.mp hp n)
  key := m.key

def openKey (m : Hive) (p : List KeyName) : UInt32 :=
  match m.tree p with
  | some key => if key.rights.opens then 0 else 5
  | none => 2

def enumKey (m : Hive) (p : List KeyName) : Except UInt32 String :=
  match m.tree p, m.subkeys p with
  | some key, n :: _ => if key.rights.lists then .ok n.val else .error 5
  | some _, [] => .error 259
  | none, _ => .error 2

def deleteKey (m : Hive) (p : List KeyName) : UInt32 × Hive :=
  if h : (m.tree p).any (fun key => key.rights.deletes) ∧ m.subkeys p = [] then (0, m.erase p h.2)
  else (5, m)

lemma enumKey_ok {name : String} :
    m.enumKey p = .ok name ↔ (∃ key, m.tree p = some key ∧ key.rights.lists = true) ∧
      ∃ n, (m.subkeys p).head? = some n ∧ n.val = name := by
  unfold enumKey
  split
  · next key n l htree hsub =>
    rw [htree, hsub]
    by_cases hl : key.rights.lists = true
    · simp [hl]
    · simp [hl]
  · next hsub => simp [hsub]
  · next htree => simp [htree]

lemma deleteKey_eq_zero : (m.deleteKey p).1 = 0 ↔
    (m.tree p).any (fun key => key.rights.deletes) = true ∧ m.subkeys p = [] := by
  unfold deleteKey
  split
  · next h => exact ⟨fun _ => h, fun _ => rfl⟩
  · next h =>
    exact ⟨fun hzero => absurd (show (5 : UInt32) = 0 from hzero) (by decide),
      fun hyes => absurd hyes h⟩

end Hive

def plainRegistry : Registry Hive KeyName where
  tree := Hive.tree
  path := Hive.path
  openKey := Hive.openKey
  enumKey := Hive.enumKey
  deleteKey := Hive.deleteKey
  finite m := m.keys.finite_toSet.subset fun _ hp => Hive.tree_ne_none.mp hp
  above := fun hq hp => Hive.tree_ne_none.mpr (Hive.closed _ _ (Hive.tree_ne_none.mp hq) _ hp)
  open_iff := by
    intro m p
    unfold Hive.openKey
    split
    · next key htree =>
      by_cases ho : key.rights.opens = true
      · simp [ho, htree]
      · simp [ho, htree]
    · next htree => simp [htree]
  enum_iff := by
    intro m p
    simp only [Hive.enumKey_ok, exists_and_left, ← Hive.mem_subkeys]
    refine and_congr_right fun _ => ?_
    constructor
    · rintro ⟨name, n, hn, -⟩
      exact ⟨n, List.mem_of_mem_head? hn⟩
    · rintro ⟨n, hn⟩
      cases hkeys : m.subkeys p with
      | nil => simp [hkeys] at hn
      | cons k keys => exact ⟨k.val, k, rfl, rfl⟩
  enum_ok := by
    intro m p name h
    obtain ⟨-, n, hn, rfl⟩ := Hive.enumKey_ok.mp h
    exact ⟨n.2.1, n, Hive.path_val, Hive.mem_subkeys.mp (List.mem_of_mem_head? hn)⟩
  delete_iff := by
    intro m p
    rw [Hive.deleteKey_eq_zero, Hive.subkeys_eq_nil, Option.any_eq_true]
  delete_gone := by
    intro m p h
    rw [Hive.deleteKey, dif_pos (Hive.deleteKey_eq_zero.mp h)]
    simp [Hive.tree, Hive.erase]
  delete_other := by
    intro m p q hne
    unfold Hive.deleteKey
    split
    · simp [Hive.tree, Hive.erase, hne]
    · rfl
  delete_failed := by
    intro m p h
    rw [Hive.deleteKey, dif_neg fun hyes => h (Hive.deleteKey_eq_zero.mpr hyes)]

def filterKey : KeyName :=
  ⟨"FILTER", by decide⟩

def serverKey : KeyName :=
  ⟨"SERVER", by decide⟩

/-- The keys on the way to the one at `p`. -/
def Hive.upTo (p : List KeyName) (key : List KeyName → Key) : Hive where
  keys := p.inits
  closed _ hq _ hr := (List.mem_inits _ _).mpr (hr.trans ((List.mem_inits _ _).mp hq))
  key := key

/-- A key with a subkey that refuses to be deleted. -/
def refusing : Hive :=
  .upTo [filterKey, serverKey] fun p => ⟨⟨true, true, p ≠ [filterKey, serverKey]⟩, fun _ => none⟩

theorem eliminateSubKey_returns_iff_refused :
    ¬ ∃ fuel r, plainRegistry.eliminateSubKey fuel [] "filter" refusing = some r := by
  have hpath : plainRegistry.path "filter" = [filterKey] := by decide +kernel
  have htree : plainRegistry.tree refusing [filterKey, serverKey] =
      some (refusing.key [filterKey, serverKey]) := rfl
  rw [(Registry.eliminateSubKey_returns_iff (show "filter" ≠ "" by decide)).1, hpath]
  intro hfree
  have hserver := hfree ⟨_, rfl, rfl⟩ ⟨_, rfl, rfl⟩ [filterKey, serverKey]
    ⟨⟨[serverKey], rfl⟩, by decide⟩ (by simp [htree])
  obtain ⟨key, hkey, hdeletes⟩ := hserver.deletes
  obtain rfl := Option.some.inj (htree.symm.trans hkey)
  simp [refusing, Hive.upTo] at hdeletes

end StupidAR
