import StupidAR.Monitor.WakeUps

/-!
# The blocking queue

`BlockingQueue<T>` of `BlockingQueue.h` as a monitor. Each member function is its lock-held
section: the data guarded by `m_lock` in, and either a wait on a condition variable or the
new data, the notifications and the result out. Construction and assignment of `T` do not
throw here.
-/

namespace StupidAR

open Monitor

inductive CondVar where
  | notFull
  | notEmpty
  deriving DecidableEq

/-- The data members that `m_lock` guards. -/
structure BlockingQueue (T : Type) where
  flushing : Bool
  size : ℕ
  items : List T

/-- The public member functions with their arguments; `out` is the caller's variable. -/
inductive Call (T : Type) where
  | put (e : T)
  | offer (e : T)
  | take (out : T)
  | poll (out : T)
  | beginFlush
  | endFlush

/-- What a member function returns, with the caller's variable after `take` and `poll`. -/
inductive Result (T : Type) where
  | stored (ok : Bool)
  | fetched (ok : Bool) (out : T)
  | done

namespace BlockingQueue

variable {T : Type}

/-- The constructor. -/
def ofSize (size : ℕ) : BlockingQueue T where
  flushing := false
  size := size
  items := []

def put (e : T) (q : BlockingQueue T) : Section (BlockingQueue T) CondVar (Result T) :=
  waitUntil .notFull (q.items.length != q.size || q.flushing) <|
    if q.flushing then .exit q [] (.stored false)
    else .exit { q with items := q.items ++ [e] } [.one .notEmpty] (.stored true)

def offer (e : T) (q : BlockingQueue T) : Section (BlockingQueue T) CondVar (Result T) :=
  if q.items.length == q.size || q.flushing then .exit q [] (.stored false)
  else .exit { q with items := q.items ++ [e] } [.one .notEmpty] (.stored true)

def take (out : T) (q : BlockingQueue T) : Section (BlockingQueue T) CondVar (Result T) :=
  waitUntil .notEmpty (q.items.length != 0 || q.flushing) <|
    if q.flushing then .exit q [] (.fetched false out)
    else
      match q.items with
      | e :: rest => .exit { q with items := rest } [.one .notFull] (.fetched true e)
      | [] => .exit q [] (.fetched false out) -- not reached: the predicate excludes it

def poll (out : T) (q : BlockingQueue T) : Section (BlockingQueue T) CondVar (Result T) :=
  match q.items with
  | e :: rest => .exit { q with items := rest } [.one .notFull] (.fetched true e)
  | [] => .exit q [] (.fetched false out)

/-- The body of `begin_flush` behind its early return. -/
def flush (q : BlockingQueue T) : Section (BlockingQueue T) CondVar (Result T) :=
  .exit { q with flushing := true, items := [] } [.all .notFull, .all .notEmpty] .done

def beginFlush (q : BlockingQueue T) : Section (BlockingQueue T) CondVar (Result T) :=
  if q.flushing then .exit q [] .done else flush q

def endFlush (q : BlockingQueue T) : Section (BlockingQueue T) CondVar (Result T) :=
  .exit { q with flushing := false } [] .done

def call : Call T → BlockingQueue T → Section (BlockingQueue T) CondVar (Result T)
  | .put e => put e
  | .offer e => offer e
  | .take out => take out
  | .poll out => poll out
  | .beginFlush => beginFlush
  | .endFlush => endFlush

end BlockingQueue

/-- The queue together with the threads that use it. -/
abbrev QueueState (τ T : Type) := State (BlockingQueue T) τ CondVar (Call T)

def initial (τ T : Type) (size : ℕ) : QueueState τ T := ⟨.ofSize size, .empty⟩

abbrev QueueTransition (τ T : Type) :=
  Transition (BlockingQueue T) τ CondVar (Call T) (Result T)

/-- Any threads calling any member functions in any interleaving on a new queue. -/
abbrev QueueRun {τ T : Type} [DecidableEq τ] (size : ℕ) (tr : List (QueueTransition τ T))
    (s : QueueState τ T) : Prop :=
  Run BlockingQueue.call (initial τ T size) tr s

namespace Call

variable {T : Type}

/-- The element that the call tries to add. -/
def element? : Call T → Option T
  | put e | offer e => some e
  | _ => none

/-- The caller's variable that the call tries to fill. -/
def out? : Call T → Option T
  | take out | poll out => some out
  | _ => none

/-- The four calls that add or retrieve, as opposed to the two that open and close. -/
def transfers : Call T → Bool
  | beginFlush | endFlush => false
  | _ => true

/-- The result of a call that returns without having had an effect. -/
def refusal : Call T → Result T
  | put _ | offer _ => .stored false
  | take out | poll out => .fetched false out
  | beginFlush | endFlush => .done

/-- The condition variable that the call may wait on. -/
def target : Call T → Option CondVar
  | put _ => some .notFull
  | take _ => some .notEmpty
  | _ => none

end Call

section Exits

variable {T : Type}

/-- Everything that a call can do once it does not wait. -/
inductive Exits (q : BlockingQueue T) :
    Call T → BlockingQueue T → List (Signal CondVar) → Result T → Prop
  | accepted {a : Call T} {e : T} (ha : a.element? = some e) (hopen : q.flushing = false)
    (hroom : q.items.length ≠ q.size) :
    Exits q a { q with items := q.items ++ [e] } [.one .notEmpty] (.stored true)
  | handed {a : Call T} {out e : T} {rest : List T} (ha : a.out? = some out)
    (hopen : a = .take out → q.flushing = false) (hitems : q.items = e :: rest) :
    Exits q a { q with items := rest } [.one .notFull] (.fetched true e)
  | refused {a : Call T} (ha : a.transfers = true) (hguard : q.flushing = true ∨ a.target = none) :
    Exits q a q [] a.refusal
  | closed (hclosed : q.flushing = true) : Exits q .beginFlush q [] .done
  | closing (hopen : q.flushing = false) :
    Exits q .beginFlush { q with flushing := true, items := [] }
      [.all .notFull, .all .notEmpty] .done
  | opening : Exits q .endFlush { q with flushing := false } [] .done

lemma Exits.of_eq {a : Call T} {q d d' : BlockingQueue T} {signals signals' : List (Signal CondVar)}
    {r r' : Result T} (h : q.call a = .exit d signals r) (hcall : q.call a = .exit d' signals' r')
    (hexits : Exits q a d' signals' r') : Exits q a d signals r := by
  rw [hcall] at h
  cases h
  exact hexits

theorem exit_cases {a : Call T} {q d : BlockingQueue T} {signals : List (Signal CondVar)}
    {r : Result T} (h : q.call a = .exit d signals r) : Exits q a d signals r := by
  obtain ⟨flushing, size, items⟩ := q
  cases a with
  | put e =>
    cases flushing with
    | false =>
      by_cases hroom : items.length = size
      · simp [BlockingQueue.call, BlockingQueue.put, waitUntil, hroom] at h
      · refine .of_eq h ?_ (.accepted rfl rfl hroom)
        simp [BlockingQueue.call, BlockingQueue.put, waitUntil, hroom]
    | true =>
      refine .of_eq h ?_ (.refused rfl (.inl rfl))
      simp [BlockingQueue.call, BlockingQueue.put, waitUntil, Call.refusal]
  | offer e =>
    by_cases hguard : items.length = size ∨ flushing = true
    · refine .of_eq h ?_ (.refused rfl (.inr rfl))
      simp [BlockingQueue.call, BlockingQueue.offer, hguard, Call.refusal]
    · obtain ⟨hroom, hopen⟩ := not_or.mp hguard
      refine .of_eq h ?_ (.accepted rfl (Bool.not_eq_true _ ▸ hopen) hroom)
      simp [BlockingQueue.call, BlockingQueue.offer, hguard]
  | take out =>
    cases flushing with
    | false =>
      cases items with
      | nil => simp [BlockingQueue.call, BlockingQueue.take, waitUntil] at h
      | cons e rest =>
        refine .of_eq h ?_ (.handed rfl (fun _ => rfl) rfl)
        simp [BlockingQueue.call, BlockingQueue.take, waitUntil]
    | true =>
      refine .of_eq h ?_ (.refused rfl (.inl rfl))
      simp [BlockingQueue.call, BlockingQueue.take, waitUntil, Call.refusal]
  | poll out =>
    cases items with
    | nil => exact .of_eq h rfl (.refused rfl (.inr rfl))
    | cons e rest => exact .of_eq h rfl (.handed rfl (fun h => by cases h) rfl)
  | beginFlush =>
    cases flushing with
    | false => exact .of_eq h rfl (.closing rfl)
    | true => exact .of_eq h rfl (.closed rfl)
  | endFlush => exact .of_eq h rfl .opening

/-- `put` waits on a full open queue, `take` on an empty open one, and nothing else waits. -/
theorem wait_iff {a : Call T} {q : BlockingQueue T} {c : CondVar} :
    q.call a = .wait c ↔ a.target = some c ∧ q.flushing = false ∧
      (c = .notFull → q.items.length = q.size) ∧ (c = .notEmpty → q.items = []) := by
  obtain ⟨flushing, size, items⟩ := q
  cases a with
  | put e =>
    cases flushing <;> cases c <;> by_cases hroom : items.length = size <;>
      simp [BlockingQueue.call, BlockingQueue.put, waitUntil, Call.target, hroom]
  | offer e =>
    by_cases hguard : items.length = size ∨ flushing = true <;>
      simp [BlockingQueue.call, BlockingQueue.offer, Call.target, hguard]
  | take out =>
    cases flushing <;> cases c <;> cases items <;>
      simp [BlockingQueue.call, BlockingQueue.take, waitUntil, Call.target]
  | poll out => cases items <;> simp [BlockingQueue.call, BlockingQueue.poll, Call.target]
  | beginFlush =>
    cases flushing <;>
      simp [BlockingQueue.call, BlockingQueue.beginFlush, BlockingQueue.flush, Call.target]
  | endFlush => simp [BlockingQueue.call, BlockingQueue.endFlush, Call.target]

end Exits

end StupidAR
