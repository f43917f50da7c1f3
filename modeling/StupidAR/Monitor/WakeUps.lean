import Mathlib.Data.ENat.Basic
import StupidAR.Monitor.Runs

/-!
# No lost wake-ups

`supply c d` is how many of the threads waiting on `c` the data `d` lets through, `⊤` when
it lets all of them through. A monitor that wakes one thread for each unit it adds, and all
threads where it adds more, never strands a sleeper: as long as somebody sleeps on `c`, the
supply is covered by the threads already woken from `c`.
-/

namespace Monitor

variable {σ τ κ α ρ : Type} [DecidableEq κ]

/-- The obligations of one lock-held section towards the threads that wait. The call `a`
waits on `target a` only. A section that ends the call gives up its own claim on the supply. -/
structure Accounted (body : α → σ → Section σ κ ρ) (I : σ → Prop) (target : α → Option κ)
    (supply : κ → σ → ℕ∞) : Prop where
  keeps : Keeps body I
  waits_target : ∀ a d c, body a d = .wait c → target a = some c
  wait_exhausted : ∀ a d c, I d → body a d = .wait c → supply c d = 0
  exit_balance : ∀ a d d' signals r, I d → body a d = .exit d' signals r → ∀ c,
    .all c ∈ signals ∨
      supply c d' + (if target a = some c then 1 else 0) ≤ supply c d + signals.count (.one c)

/-- Every waiting thread waits where its call can wait. -/
def Pool.Targeted (target : α → Option κ) (P : Pool τ κ α) : Prop :=
  ∀ t c a, P.phase t = .asleep c a ∨ P.phase t = .woken c a → target a = some c

/-- While a thread sleeps on `c`, the woken threads account for the whole supply. -/
def Covered (supply : κ → σ → ℕ∞) (s : State σ τ κ α) : Prop :=
  ∀ c, (s.pool.sleepers c).Nonempty → supply c s.data ≤ (s.pool.wokenFrom c).card

variable [DecidableEq τ] {body : α → σ → Section σ κ ρ} {I : σ → Prop} {target : α → Option κ}
  {supply : κ → σ → ℕ∞}

omit [DecidableEq κ] in
lemma Pool.Targeted.assign {P : Pool τ κ α} (hP : P.Targeted target) (t : τ) (x : Phase κ α)
    (hx : ∀ c a, x = .asleep c a ∨ x = .woken c a → target a = some c) :
    (P.assign t x).Targeted target := by
  intro u c a hu
  by_cases h : u = t
  · subst h
    rw [Pool.assign_phase_self] at hu
    exact hx c a hu
  · rw [Pool.assign_phase_of_ne _ _ h] at hu
    exact hP u c a hu

lemma Pool.Targeted.deliver {P Q : Pool τ κ α} (hP : P.Targeted target)
    {signals : List (Signal κ)} {us : List τ} (h : deliver signals us P = some Q) :
    Q.Targeted target := by
  intro t c a ht
  rcases deliver_phase h t with heq | ⟨d, b, hasleep, hwoken⟩
  · exact hP t c a (heq ▸ ht)
  · rw [hwoken] at ht
    rcases ht with ht | ht <;> cases ht
    exact hP t c a (.inl hasleep)

lemma Step.targeted (hwait : ∀ a d c, body a d = .wait c → target a = some c)
    {s s' : State σ τ κ α} {ev : Event τ α} {o : Outcome κ α ρ} (hs : s.pool.Targeted target)
    (h : Step body s ev o s') : s'.pool.Targeted target := by
  cases h with
  | sleep hr hb =>
    refine hs.assign _ _ ?_
    rintro c a (hx | hx) <;> cases hx
    exact hwait _ _ _ hb
  | exit hr hb hd =>
    refine Pool.Targeted.deliver ?_ hd
    exact hs.assign _ _ (by rintro c a (hx | hx) <;> cases hx)
  | wake hp =>
    refine hs.assign _ _ ?_
    rintro c a (hx | hx) <;> cases hx
    exact hs _ _ _ (.inl hp)

omit [DecidableEq τ] in
lemma Ready.target_of_woken {s : State σ τ κ α} {ev : Event τ α} {t : τ} {a : α} {us : List τ}
    (hs : s.pool.Targeted target) (h : Ready s ev t a us) {c : κ} (ht : t ∈ s.pool.wokenFrom c) :
    target a = some c := by
  obtain ⟨b, hb⟩ := (Pool.mem_wokenFrom _ _ _).mp ht
  cases h with
  | enter hp => simp [hp] at hb
  | resume hp =>
    rw [hp] at hb
    cases hb
    exact hs t c a (.inr hp)

/-- A thread that goes to sleep on `c` found nothing left there; elsewhere nothing changes. -/
lemma Covered.sleep {s : State σ τ κ α} {ev : Event τ α} {t : τ} {a : α} {us : List τ} {c : κ}
    (ht : s.pool.Targeted target) (hs : Covered supply s) (hr : Ready s ev t a us)
    (htarget : target a = some c) (hexhausted : supply c s.data = 0) :
    Covered supply (⟨s.data, s.pool.assign t (.asleep c a)⟩ : State σ τ κ α) := by
  intro e he
  by_cases hc : c = e
  · subst hc
    simp [hexhausted]
  · have hsleep : t ∉ s.pool.sleepers e := hr.not_asleep e
    have hwoken : t ∉ s.pool.wokenFrom e := by
      intro hmem
      have hwoken := hr.target_of_woken ht hmem
      rw [htarget] at hwoken
      exact hc (Option.some.inj hwoken)
    simp only [Pool.sleepers_assign, Pool.wokenFrom_assign, Phase.isAsleepOn, Phase.isWokenFrom,
      hc, decide_false, Bool.false_eq_true, if_false, Finset.erase_eq_of_notMem hsleep,
      Finset.erase_eq_of_notMem hwoken] at he ⊢
    exact hs e he

lemma le_of_balance {x y : ℕ∞} {k n w w₁ w₂ : ℕ} (hsupply : y ≤ w) (hexit : x + k ≤ y + n)
    (hleave : w ≤ w₁ + k) (hsignal : w₁ + n ≤ w₂) : x ≤ w₂ := by
  have hsum : x + k ≤ (w₂ : ℕ∞) + k :=
    calc x + k ≤ y + n := hexit
      _ ≤ (w : ℕ∞) + n := by gcongr
      _ = ((w + n : ℕ) : ℕ∞) := by push_cast; rfl
      _ ≤ ((w₂ + k : ℕ) : ℕ∞) := by
        exact_mod_cast (by omega : w + n ≤ w₂ + k)
      _ = (w₂ : ℕ∞) + k := by push_cast; rfl
  exact (ENat.add_le_add_iff_right (ENat.natCast_ne_top k)).mp hsum

lemma Pool.sleepers_leave_subset (P : Pool τ κ α) (t : τ) (c : κ) :
    (P.assign t .idle).sleepers c ⊆ P.sleepers c := by
  simpa [Pool.sleepers_assign, Phase.isAsleepOn] using Finset.erase_subset _ _

lemma Pool.wokenFrom_leave (P : Pool τ κ α) (t : τ) (c : κ) :
    (P.assign t .idle).wokenFrom c = (P.wokenFrom c).erase t := by
  simp [Pool.wokenFrom_assign, Phase.isWokenFrom]

/-- A section that ends its call wakes enough threads for what it adds to the supply. -/
lemma Covered.exit {s : State σ τ κ α} {ev : Event τ α} {t : τ} {a : α} {us : List τ} {d : σ}
    {signals : List (Signal κ)} {Q : Pool τ κ α} (ht : s.pool.Targeted target)
    (hs : Covered supply s) (hr : Ready s ev t a us)
    (hbalance : ∀ c, .all c ∈ signals ∨
      supply c d + (if target a = some c then 1 else 0) ≤ supply c s.data + signals.count (.one c))
    (hd : deliver signals us (s.pool.assign t .idle) = some Q) :
    Covered supply (⟨d, Q⟩ : State σ τ κ α) := by
  intro c hc
  have hc' : (Q.sleepers c).Nonempty := hc
  have hbefore : (s.pool.sleepers c).Nonempty :=
    (hc'.mono (deliver_sleepers_subset hd c)).mono (s.pool.sleepers_leave_subset t c)
  have hsignal := deliver_card_wokenFrom hd hc'
  rcases hbalance c with hall | hbalance
  · rw [deliver_all hd hall] at hc'
    exact absurd hc' Finset.not_nonempty_empty
  · have hleave : (s.pool.wokenFrom c).card ≤ ((s.pool.assign t .idle).wokenFrom c).card +
        if target a = some c then 1 else 0 := by
      rw [Pool.wokenFrom_leave]
      by_cases hmem : t ∈ s.pool.wokenFrom c
      · have hcard := Finset.card_erase_add_one hmem
        simp only [hr.target_of_woken ht hmem, if_true]
        omega
      · rw [Finset.erase_eq_of_notMem hmem]
        omega
    exact le_of_balance (hs c hbefore) (by exact_mod_cast hbalance) hleave hsignal

/-- A spurious wake-up only moves a sleeper to the woken threads. -/
lemma Covered.wake {s : State σ τ κ α} {t : τ} {c : κ} {a : α} (hs : Covered supply s)
    (hp : s.pool.phase t = .asleep c a) :
    Covered supply (⟨s.data, s.pool.assign t (.woken c a)⟩ : State σ τ κ α) := by
  intro e he
  rw [← Pool.wake_of_asleep _ hp] at he ⊢
  have hmem : t ∈ s.pool.sleepers c := (Pool.mem_sleepers _ _ _).mpr ⟨a, hp⟩
  have hcard := Pool.card_wokenFrom_wake s.pool hmem e
  have hgrow : (s.pool.wokenFrom e).card ≤ ((s.pool.wake t).wokenFrom e).card := by omega
  exact (hs e (he.mono (Pool.sleepers_wake_subset _ _ _))).trans (by exact_mod_cast hgrow)

theorem Step.covered (ha : Accounted body I target supply) {s s' : State σ τ κ α}
    {ev : Event τ α} {o : Outcome κ α ρ} (hI : I s.data) (ht : s.pool.Targeted target)
    (hs : Covered supply s) (h : Step body s ev o s') : Covered supply s' := by
  cases h with
  | sleep hr hb =>
    exact hs.sleep ht hr (ha.waits_target _ _ _ hb) (ha.wait_exhausted _ _ _ hI hb)
  | exit hr hb hd => exact hs.exit ht hr (ha.exit_balance _ _ _ _ _ hI hb) hd
  | wake hp => exact hs.wake hp

/-- Runs of an accounted monitor that start with nobody inside. -/
theorem Run.covered (ha : Accounted body I target supply) {d : σ} {s : State σ τ κ α}
    {tr : List (Transition σ τ κ α ρ)} (h : Run body ⟨d, .empty⟩ tr s) (hd : I d) :
    I s.data ∧ s.pool.Targeted target ∧ Covered supply s := by
  refine h.invariant (I := fun s => I s.data ∧ s.pool.Targeted target ∧ Covered supply s) ?_ ?_
  · refine ⟨hd, ?_, ?_⟩
    · rintro t c a (ht | ht) <;> cases ht
    · intro c hc
      simp at hc
  · rintro s ev o s' ⟨hI, ht, hs⟩ hstep
    exact ⟨hstep.data_invariant ha.keeps hI, hstep.targeted ha.waits_target ht,
      hstep.covered ha hI ht hs⟩

omit [DecidableEq τ] in
/-- Nobody sleeps where the data lets everybody through. -/
lemma Covered.sleepers_empty {s : State σ τ κ α} (hs : Covered supply s) {c : κ}
    (hc : supply c s.data = ⊤) : s.pool.sleepers c = ∅ := by
  by_contra hne
  have hle := hs c (Finset.nonempty_iff_ne_empty.mpr hne)
  rw [hc, top_le_iff] at hle
  exact ENat.natCast_ne_top _ hle

end Monitor
