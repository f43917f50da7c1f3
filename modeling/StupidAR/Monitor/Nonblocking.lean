import StupidAR.Monitor.Runs

/-!
# Non-blocking variants of calls

A variant `b` of a call `a` evaluates the same section and gives up with the result `r` where
`a` would wait. Entered in the same state, it does what `a` does if `a` gets through at once,
and otherwise it does nothing.
-/

namespace Monitor

/-- The section that leaves the data `d` as they are, with result `r`, instead of waiting. -/
def Section.orLeave {σ κ ρ : Type} (d : σ) (r : ρ) : Section σ κ ρ → Section σ κ ρ
  | .wait _ => .exit d [] r
  | .exit d' signals r' => .exit d' signals r'

variable {σ τ κ α ρ : Type} [DecidableEq τ] [DecidableEq κ]

section Enter

variable (body : α → σ → Section σ κ ρ) (s : State σ τ κ α) (t : τ) (a : α) (r : ρ)

/-- Call `a`, entered by thread `t`, neither waits nor returns `r`. -/
def Proceeds : Prop :=
  ∀ us o s', Step body s (.enter t a us) o s' → (∀ c, o ≠ .waits a c) ∧ o ≠ .returns a r

/-- Call `a`, entered by thread `t`, returns `r` at once, whomever it wakes. -/
structure Returns : Prop where
  possible : ∃ us s', Step body s (.enter t a us) (.returns a r) s'
  certain : ∀ us o s', Step body s (.enter t a us) o s' → o = .returns a r

end Enter

variable {body : α → σ → Section σ κ ρ} {s : State σ τ κ α} {t : τ} {a b : α} {r : ρ} {d : σ}
  {signals : List (Signal κ)}

lemma returns_of_exit (ht : s.pool.phase t = .idle) (hb : body a s.data = .exit d signals r) :
    Returns body s t a r where
  possible := by
    obtain ⟨us, P, hP⟩ := exists_deliver signals (s.pool.assign t .idle)
    exact ⟨us, _, .exit (.enter ht) hb hP⟩
  certain := fun _ _ _ hstep => (hstep.of_exit (.enter ht) hb).1

lemma Returns.exit (h : Returns body s t a r) : ∃ d signals, body a s.data = .exit d signals r := by
  obtain ⟨us, s', hstep⟩ := h.possible
  cases hstep with
  | exit hr hb =>
    cases hr
    exact ⟨_, _, hb⟩

lemma Returns.unique {r' : ρ} (h : Returns body s t a r) (h' : Returns body s t a r') :
    r = r' := by
  obtain ⟨us, s', hstep⟩ := h.possible
  have heq := h'.certain us _ s' hstep
  cases heq
  rfl

lemma proceeds_iff (ht : s.pool.phase t = .idle) : Proceeds body s t a r ↔
    ∃ d signals r', body a s.data = .exit d signals r' ∧ r' ≠ r := by
  constructor
  · intro h
    cases hb : body a s.data with
    | wait c => exact absurd rfl ((h [] _ _ (.sleep (.enter ht) hb)).1 c)
    | exit d signals r' =>
      refine ⟨d, signals, r', rfl, ?_⟩
      rintro rfl
      obtain ⟨us, s', hstep⟩ := (returns_of_exit ht hb).possible
      exact (h us _ s' hstep).2 rfl
  · rintro ⟨d, signals, r', hb, hne⟩ us o s' hstep
    obtain ⟨rfl, -⟩ := hstep.of_exit (.enter ht) hb
    refine ⟨fun c hc => (by cases hc), ?_⟩
    intro hr
    cases hr
    exact hne rfl

lemma enter_iff_of_exit (ha : body a s.data = .exit d signals r)
    (hb : body b s.data = .exit d signals r) (us : List τ) (s' : State σ τ κ α) :
    Step body s (.enter t b us) (.returns b r) s' ↔
      Step body s (.enter t a us) (.returns a r) s' := by
  constructor
  · intro h
    have ht := h.enter_idle
    obtain ⟨-, P, hP, rfl⟩ := h.of_exit (.enter ht) hb
    exact .exit (.enter ht) ha hP
  · intro h
    have ht := h.enter_idle
    obtain ⟨-, P, hP, rfl⟩ := h.of_exit (.enter ht) ha
    exact .exit (.enter ht) hb hP

/-- Where the call gets through, its variant does exactly the same. -/
theorem variant_proceeds (hvariant : body b s.data = (body a s.data).orLeave s.data r)
    (ht : s.pool.phase t = .idle) (h : Proceeds body s t a r) :
    ∃ r', r' ≠ r ∧ Returns body s t a r' ∧ Returns body s t b r' ∧ ∀ us s',
      Step body s (.enter t b us) (.returns b r') s' ↔
        Step body s (.enter t a us) (.returns a r') s' := by
  obtain ⟨d, signals, r', ha, hne⟩ := (proceeds_iff ht).mp h
  have hb : body b s.data = .exit d signals r' := by
    rw [hvariant, ha]
    rfl
  exact ⟨r', hne, returns_of_exit ht ha, returns_of_exit ht hb, enter_iff_of_exit ha hb⟩

/-- Where the call would wait or refuse, its variant refuses and leaves everything alone. -/
theorem variant_refuses (hvariant : body b s.data = (body a s.data).orLeave s.data r)
    (hrefuse : ∀ d signals, body a s.data = .exit d signals r → d = s.data ∧ signals = [])
    (ht : s.pool.phase t = .idle) (h : ¬Proceeds body s t a r) :
    Returns body s t b r ∧ ∀ us o s', Step body s (.enter t b us) o s' → s' = s := by
  have hb : body b s.data = .exit s.data [] r := by
    rw [hvariant]
    cases ha : body a s.data with
    | wait c => rfl
    | exit d signals r' =>
      have hr : r' = r := by
        by_contra hne
        exact h ((proceeds_iff ht).mpr ⟨d, signals, r', ha, hne⟩)
      subst hr
      obtain ⟨rfl, rfl⟩ := hrefuse d signals ha
      rfl
  refine ⟨returns_of_exit ht hb, ?_⟩
  intro us o s' hstep
  obtain ⟨-, P, hP, rfl⟩ := hstep.of_exit (.enter ht) hb
  rw [Pool.assign_of_phase_eq _ ht] at hP
  cases us with
  | nil =>
    cases hP
    rfl
  | cons u us => cases hP

end Monitor
