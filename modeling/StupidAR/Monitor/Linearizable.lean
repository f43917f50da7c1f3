import StupidAR.Monitor.Runs

/-!
# Linearizable histories

The clients' view of a monitor: invocations and responses, in the order of the atomic steps.
A history is linearizable for a sequential object when its answered calls, and perhaps some
of the pending ones, can be arranged into a legal sequential history in which no call is
moved in front of one that was answered before it was invoked.
-/

namespace Monitor

inductive ClientEvent (τ α ρ : Type) where
  | invoke (t : τ) (a : α)
  | respond (t : τ) (r : ρ)

def ClientEvent.thread {τ α ρ : Type} : ClientEvent τ α ρ → τ
  | invoke t _ => t
  | respond t _ => t

/-- A call of a history with its result, known by the position of its invocation. -/
structure Operation (τ α ρ : Type) where
  thread : τ
  call : α
  result : ρ
  invoked : ℕ

variable {τ α ρ : Type}

/-- The call invoked at position `i` of the history has not been answered. -/
def Open (h : List (ClientEvent τ α ρ)) (t : τ) (a : α) (i : ℕ) : Prop :=
  h[i]? = some (.invoke t a) ∧ ∀ k e, i < k → h[k]? = some e → e.thread ≠ t

/-- The operation is answered at position `j` of the history. -/
def Responds (h : List (ClientEvent τ α ρ)) (o : Operation τ α ρ) (j : ℕ) : Prop :=
  h[o.invoked]? = some (.invoke o.thread o.call) ∧ o.invoked < j ∧
    h[j]? = some (.respond o.thread o.result) ∧
    ∀ k e, o.invoked < k → k < j → h[k]? = some e → e.thread ≠ o.thread

section Linearizable

variable {X : Type} (apply : X → α → ρ → X → Prop) (x₀ : X)

/-- The calls with their results that the sequential object `apply` can perform from `x₀`. -/
inductive Legal : List (α × ρ) → X → Prop
  | nil : Legal [] x₀
  | snoc {l : List (α × ρ)} {x y : X} {a : α} {r : ρ} (hl : Legal l x) (h : apply x a r y) :
    Legal (l ++ [(a, r)]) y

structure Linearizes (h : List (ClientEvent τ α ρ)) (ops : List (Operation τ α ρ)) : Prop where
  invoked : ∀ o ∈ ops, h[o.invoked]? = some (.invoke o.thread o.call)
  distinct : (ops.map Operation.invoked).Nodup
  complete : ∀ o j, Responds h o j → o ∈ ops
  legal : ∃ x, Legal apply x₀ (ops.map fun o => (o.call, o.result)) x
  realTime : ops.Pairwise fun o o' => ∀ j, Responds h o' j → ¬j < o.invoked

def Linearizable (h : List (ClientEvent τ α ρ)) : Prop :=
  ∃ ops, Linearizes apply x₀ h ops

end Linearizable

/-! ### Histories that grow -/

section Growth

variable {h : List (ClientEvent τ α ρ)}

lemma getElem?_concat_lt {X : Type} {l : List X} {x y : X} {k : ℕ} (hk : l[k]? = some y) :
    (l ++ [x])[k]? = some y := by
  have hlt : k < l.length := (List.getElem?_eq_some_iff.mp hk).1
  rw [List.getElem?_append_left hlt, hk]

lemma getElem?_concat_iff {X : Type} {l : List X} {x y : X} {k : ℕ} :
    (l ++ [x])[k]? = some y ↔ l[k]? = some y ∨ (k = l.length ∧ x = y) := by
  constructor
  · intro hk
    rcases lt_trichotomy k l.length with hlt | heq | hgt
    · rw [List.getElem?_append_left hlt] at hk
      exact .inl hk
    · subst heq
      exact .inr ⟨rfl, by simpa using hk⟩
    · rw [List.getElem?_eq_none (by simp; omega)] at hk
      cases hk
  · rintro (hk | ⟨rfl, rfl⟩)
    · exact getElem?_concat_lt hk
    · simp

lemma Open.lt {t : τ} {a : α} {i : ℕ} (ho : Open h t a i) : i < h.length :=
  (List.getElem?_eq_some_iff.mp ho.1).1

lemma Responds.lt {o : Operation τ α ρ} {j : ℕ} (hr : Responds h o j) : j < h.length :=
  (List.getElem?_eq_some_iff.mp hr.2.2.1).1

lemma Open.unique {t : τ} {a b : α} {i j : ℕ} (ho : Open h t a i) (ho' : Open h t b j) :
    i = j ∧ a = b := by
  rcases lt_trichotomy i j with hlt | heq | hgt
  · exact absurd rfl (ho.2 j _ hlt ho'.1)
  · subst heq
    have heq := ho.1.symm.trans ho'.1
    simp only [Option.some.injEq, ClientEvent.invoke.injEq, true_and] at heq
    exact ⟨rfl, heq⟩
  · exact absurd rfl (ho'.2 i _ hgt ho.1)

/-- The first answer of the thread ends the call. -/
lemma Responds.unique {o o' : Operation τ α ρ} {j j' : ℕ} (hr : Responds h o j)
    (hr' : Responds h o' j') (hi : o.invoked = o'.invoked) : j = j' := by
  have ht : o.thread = o'.thread := by
    have heq := hr.1.symm.trans (hi ▸ hr'.1)
    simp only [Option.some.injEq, ClientEvent.invoke.injEq] at heq
    exact heq.1
  rcases lt_trichotomy j j' with hlt | heq | hgt
  · exact absurd ht (hr'.2.2.2 j _ (hi ▸ hr.2.1) hlt hr.2.2.1)
  · exact heq
  · exact absurd ht.symm (hr.2.2.2 j' _ (hi ▸ hr'.2.1) hgt hr'.2.2.1)

lemma open_concat_iff {e : ClientEvent τ α ρ} {t : τ} {a : α} {i : ℕ} :
    Open (h ++ [e]) t a i ↔
      (Open h t a i ∧ e.thread ≠ t) ∨ (i = h.length ∧ e = .invoke t a) := by
  constructor
  · rintro ⟨hi, hrest⟩
    rcases getElem?_concat_iff.mp hi with hi | ⟨rfl, rfl⟩
    · refine .inl ⟨⟨hi, fun k f hk hf => hrest k f hk (getElem?_concat_lt hf)⟩, ?_⟩
      have hlt : i < h.length := (List.getElem?_eq_some_iff.mp hi).1
      exact hrest h.length e hlt (by simp)
    · exact .inr ⟨rfl, rfl⟩
  · rintro (⟨ho, hne⟩ | ⟨rfl, rfl⟩)
    · refine ⟨getElem?_concat_lt ho.1, fun k f hk hf => ?_⟩
      rcases getElem?_concat_iff.mp hf with hf | ⟨_, rfl⟩
      · exact ho.2 k f hk hf
      · exact hne
    · refine ⟨by simp, fun k f hk hf => ?_⟩
      rw [List.getElem?_eq_none (by simp; omega)] at hf
      cases hf

lemma responds_concat_iff {e : ClientEvent τ α ρ} {o : Operation τ α ρ} {j : ℕ} :
    Responds (h ++ [e]) o j ↔ Responds h o j ∨
      (j = h.length ∧ e = .respond o.thread o.result ∧ Open h o.thread o.call o.invoked) := by
  constructor
  · rintro ⟨hi, hij, hj, hrest⟩
    rcases getElem?_concat_iff.mp hj with hj | ⟨rfl, rfl⟩
    · have hlt : j < h.length := (List.getElem?_eq_some_iff.mp hj).1
      rw [List.getElem?_append_left (by omega)] at hi
      exact .inl ⟨hi, hij, hj, fun k f hk hkj hf => hrest k f hk hkj (getElem?_concat_lt hf)⟩
    · rw [List.getElem?_append_left hij] at hi
      refine .inr ⟨rfl, rfl, hi, fun k f hk hf => ?_⟩
      have hlt : k < h.length := (List.getElem?_eq_some_iff.mp hf).1
      exact hrest k f hk hlt (getElem?_concat_lt hf)
  · rintro (hr | ⟨rfl, rfl, ho⟩)
    · have hlt := hr.lt
      refine ⟨getElem?_concat_lt hr.1, hr.2.1, getElem?_concat_lt hr.2.2.1, ?_⟩
      intro k f hk hkj hf
      rw [List.getElem?_append_left (by omega)] at hf
      exact hr.2.2.2 k f hk hkj hf
    · refine ⟨getElem?_concat_lt ho.1, ho.lt, by simp, fun k f hk hkj hf => ?_⟩
      rw [List.getElem?_append_left hkj] at hf
      exact ho.2 k f hk hf

end Growth

/-! ### Answered calls in the order of their answers -/

/-- The history leaves the calls `pending` open, and `ops` lists the answered ones with the
positions of their answers. -/
structure Recorded (h : List (ClientEvent τ α ρ)) (pending : τ → Option α)
    (ops : List (Operation τ α ρ × ℕ)) : Prop where
  pending : ∀ t a, (∃ i, Open h t a i) ↔ pending t = some a
  answered : ∀ o j, (o, j) ∈ ops ↔ Responds h o j
  ordered : ops.Pairwise fun p q => p.2 < q.2

namespace Recorded

variable {h : List (ClientEvent τ α ρ)} {pending : τ → Option α}
  {ops : List (Operation τ α ρ × ℕ)}

lemma nil : Recorded ([] : List (ClientEvent τ α ρ)) (fun _ => none) [] where
  pending t a := by simp [Open]
  answered o j := by simp [Responds]
  ordered := List.Pairwise.nil

section Step

variable [DecidableEq τ]

lemma invoke (hrec : Recorded h pending ops) (t : τ) (a : α) :
    Recorded (h ++ [.invoke t a]) (Function.update pending t (some a)) ops where
  pending u b := by
    simp only [open_concat_iff]
    by_cases hu : u = t
    · subst hu
      simp [ClientEvent.thread]
    · rw [Function.update_of_ne hu, ← hrec.pending]
      simp [ClientEvent.thread, Ne.symm hu]
  answered o j := by
    rw [hrec.answered, responds_concat_iff]
    simp
  ordered := hrec.ordered

lemma respond (hrec : Recorded h pending ops) {t : τ} {a : α} (r : ρ) (ht : pending t = some a) :
    ∃ i, Recorded (h ++ [.respond t r]) (Function.update pending t none)
      (ops ++ [(⟨t, a, r, i⟩, h.length)]) := by
  obtain ⟨i, hi⟩ := (hrec.pending t a).mpr ht
  refine ⟨i, ?_, ?_, ?_⟩
  · intro u b
    simp only [open_concat_iff]
    by_cases hu : u = t
    · subst hu
      simp [ClientEvent.thread]
    · rw [Function.update_of_ne hu, ← hrec.pending]
      simp [ClientEvent.thread, Ne.symm hu]
  · intro o j
    rw [List.mem_append, List.mem_singleton, hrec.answered, responds_concat_iff]
    refine or_congr_right ?_
    constructor
    · rintro heq
      cases heq
      exact ⟨rfl, rfl, hi⟩
    · rintro ⟨rfl, heq, ho⟩
      cases heq
      obtain ⟨hinv, hcall⟩ := hi.unique ho
      cases o
      simp_all
  · rw [List.pairwise_append]
    refine ⟨hrec.ordered, List.pairwise_singleton _ _, ?_⟩
    intro p hp q hq
    obtain rfl := List.mem_singleton.mp hq
    exact ((hrec.answered p.1 p.2).mp hp).lt

end Step

/-- The order of the answers is a linearization, if the object can perform it. -/
theorem linearizes (hrec : Recorded h pending ops) {X : Type} {apply : X → α → ρ → X → Prop}
    {x₀ x : X} (hlegal : Legal apply x₀ (ops.map fun p => (p.1.call, p.1.result)) x) :
    Linearizes apply x₀ h (ops.map Prod.fst) where
  invoked := by
    intro o ho
    obtain ⟨p, hp, rfl⟩ := List.mem_map.mp ho
    exact ((hrec.answered p.1 p.2).mp hp).1
  distinct := by
    rw [List.map_map, List.nodup_iff_pairwise_ne, List.pairwise_map]
    refine hrec.ordered.imp_of_mem fun {p q} hp hq hlt heq => ?_
    have hpos := ((hrec.answered p.1 p.2).mp hp).unique ((hrec.answered q.1 q.2).mp hq) heq
    omega
  complete := by
    intro o j hr
    exact List.mem_map.mpr ⟨(o, j), (hrec.answered o j).mpr hr, rfl⟩
  legal := by
    rw [List.map_map]
    exact ⟨x, hlegal⟩
  realTime := by
    rw [List.pairwise_map]
    refine hrec.ordered.imp_of_mem fun {p q} hp hq hlt j hj hearly => ?_
    have hp' := (hrec.answered p.1 p.2).mp hp
    have hpos := ((hrec.answered q.1 q.2).mp hq).unique hj rfl
    have hinv := hp'.2.1
    omega

end Recorded

/-! ### Runs -/

section Runs

variable {σ κ X : Type}

/-- The call that a thread is in. -/
def Phase.call? : Phase κ α → Option α
  | idle => none
  | asleep _ a | woken _ a => some a

def Event.invocation : Event τ α → List (ClientEvent τ α ρ)
  | enter t a _ => [.invoke t a]
  | _ => []

def clientEvents (x : Transition σ τ κ α ρ) : List (ClientEvent τ α ρ) :=
  match x.outcome with
  | .returns _ r => x.event.invocation ++ [.respond x.event.thread r]
  | _ => x.event.invocation

def clientHistory (tr : List (Transition σ τ κ α ρ)) : List (ClientEvent τ α ρ) :=
  tr.flatMap clientEvents

def returned? (x : Transition σ τ κ α ρ) : Option (α × ρ) :=
  match x.outcome with
  | .returns a r => some (a, r)
  | _ => none

/-- The calls that returned, in the order in which they did. -/
def returned (tr : List (Transition σ τ κ α ρ)) : List (α × ρ) :=
  tr.filterMap returned?

lemma clientHistory_concat (tr : List (Transition σ τ κ α ρ)) (x : Transition σ τ κ α ρ) :
    clientHistory (tr ++ [x]) = clientHistory tr ++ clientEvents x := by
  simp [clientHistory]

lemma returned_concat (tr : List (Transition σ τ κ α ρ)) (x : Transition σ τ κ α ρ) :
    returned (tr ++ [x]) = returned tr ++ (returned? x).toList := by
  unfold returned
  cases h : returned? x <;> simp [h]

/-- The calls that the threads of a pool are in. -/
def Pool.calls (P : Pool τ κ α) (t : τ) : Option α := (P.phase t).call?

variable [DecidableEq τ]

lemma Pool.calls_assign (P : Pool τ κ α) (t : τ) (x : Phase κ α) :
    (P.assign t x).calls = Function.update P.calls t x.call? := by
  funext u
  by_cases hu : u = t
  · subst hu
    simp [calls]
  · simp [calls, Pool.assign_phase_of_ne _ _ hu, hu]

variable [DecidableEq κ] {body : α → σ → Section σ κ ρ}

lemma Pool.calls_deliver {signals : List (Signal κ)} {us : List τ} {P Q : Pool τ κ α}
    (h : deliver signals us P = some Q) : Q.calls = P.calls := by
  funext t
  rcases deliver_phase h t with heq | ⟨c, a, hasleep, hwoken⟩
  · simp [calls, heq]
  · simp [calls, hasleep, hwoken, Phase.call?]

omit [DecidableEq κ] in
/-- A thread that has the lock is in the call that it evaluates. -/
lemma Ready.recorded {s : State σ τ κ α} {ev : Event τ α} {t : τ} {a : α} {us : List τ}
    (hr : Ready s ev t a us) {h : List (ClientEvent τ α ρ)} {ops : List (Operation τ α ρ × ℕ)}
    (hrec : Recorded h s.pool.calls ops) :
    Recorded (h ++ ev.invocation) (Function.update s.pool.calls t (some a)) ops := by
  cases hr with
  | enter => exact hrec.invoke t a
  | resume hp =>
    have hcall : s.pool.calls t = some a := by simp [Pool.calls, hp, Phase.call?]
    rw [← hcall, Function.update_eq_self]
    simpa [Event.invocation] using hrec

/-- One atomic step answers at most one call. -/
lemma Step.recorded {s s' : State σ τ κ α} {ev : Event τ α} {o : Outcome κ α ρ}
    (hstep : Step body s ev o s') {h : List (ClientEvent τ α ρ)}
    {ops : List (Operation τ α ρ × ℕ)} (hrec : Recorded h s.pool.calls ops) :
    ∃ ops', Recorded (h ++ clientEvents ⟨s, ev, o, s'⟩) s'.pool.calls (ops ++ ops') ∧
      ops'.map (fun p => (p.1.call, p.1.result)) =
        (returned? (⟨s, ev, o, s'⟩ : Transition σ τ κ α ρ)).toList := by
  cases hstep with
  | sleep hr hb =>
    refine ⟨[], ?_, rfl⟩
    rw [Pool.calls_assign, List.append_nil]
    exact hr.recorded hrec
  | @exit _ t a us d signals r P hr hb hd =>
    have hcall : Function.update s.pool.calls t (some a) t = some a := by simp
    obtain ⟨i, hi⟩ := (hr.recorded hrec).respond r hcall
    refine ⟨[(⟨t, a, r, i⟩, (h ++ ev.invocation).length)], ?_, rfl⟩
    rw [Pool.calls_deliver hd, Pool.calls_assign]
    rw [Function.update_idem, List.append_assoc, ← hr.thread_eq] at hi
    rwa [← hr.thread_eq]
  | @wake t c a hp =>
    refine ⟨[], ?_, rfl⟩
    have hcall : s.pool.calls t = some a := by simp [Pool.calls, hp, Phase.call?]
    rw [Pool.calls_assign, List.append_nil]
    have hself : Function.update s.pool.calls t (Phase.woken c a).call? = s.pool.calls := by
      rw [show (Phase.woken c a).call? = some a from rfl, ← hcall, Function.update_eq_self]
    rw [hself]
    simpa [clientEvents, Event.invocation] using hrec

theorem Run.recorded {s₀ s : State σ τ κ α} {tr : List (Transition σ τ κ α ρ)}
    (h : Run body s₀ tr s) (hidle : ∀ t, s₀.pool.phase t = .idle) :
    ∃ ops, Recorded (clientHistory tr) s.pool.calls ops ∧
      ops.map (fun p => (p.1.call, p.1.result)) = returned tr := by
  induction h with
  | nil =>
    refine ⟨[], ?_, rfl⟩
    have hcalls : s₀.pool.calls = fun _ => none := by
      funext t
      simp [Pool.calls, hidle t, Phase.call?]
    rw [hcalls]
    exact .nil
  | snoc _ hstep ih =>
    obtain ⟨ops, hrec, hops⟩ := ih
    obtain ⟨ops', hrec', hops'⟩ := hstep.recorded hrec
    refine ⟨ops ++ ops', ?_, ?_⟩
    · rwa [clientHistory_concat]
    · rw [List.map_append, hops, hops', returned_concat]

/-- The object that the data `d` implements through `abs`: each section that ends a call
performs the call on the object. -/
def Implements (body : α → σ → Section σ κ ρ) (I : σ → Prop) (apply : X → α → ρ → X → Prop)
    (abs : σ → X) : Prop :=
  ∀ a d d' signals r, I d → body a d = .exit d' signals r → apply (abs d) a r (abs d')

variable {I : σ → Prop} {apply : X → α → ρ → X → Prop} {abs : σ → X}

theorem Run.legal (hkeeps : Keeps body I) (himpl : Implements body I apply abs)
    {s₀ s : State σ τ κ α} {tr : List (Transition σ τ κ α ρ)} (h : Run body s₀ tr s)
    (hI : I s₀.data) : Legal apply (abs s₀.data) (returned tr) (abs s.data) := by
  induction h with
  | nil => exact .nil
  | snoc hrun hstep ih =>
    rw [returned_concat]
    cases hstep with
    | sleep => simpa [returned?] using ih
    | exit _ hb _ => exact ih.snoc (himpl _ _ _ _ _ (hrun.data_invariant hkeeps hI) hb)
    | wake => simpa [returned?] using ih

/-- A monitor whose sections perform their calls on an object is linearizable for it. -/
theorem Run.linearizable (hkeeps : Keeps body I) (himpl : Implements body I apply abs)
    {s₀ s : State σ τ κ α} {tr : List (Transition σ τ κ α ρ)} (h : Run body s₀ tr s)
    (hI : I s₀.data) (hidle : ∀ t, s₀.pool.phase t = .idle) :
    Linearizable apply (abs s₀.data) (clientHistory tr) := by
  obtain ⟨ops, hrec, hops⟩ := h.recorded hidle
  refine ⟨_, hrec.linearizes (x := abs s.data) ?_⟩
  rw [hops]
  exact h.legal hkeeps himpl hI

end Runs

end Monitor
