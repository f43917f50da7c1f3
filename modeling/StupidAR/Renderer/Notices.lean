import Mathlib.Data.List.Induction
import StupidAR.Monitor.Protocol
import StupidAR.Renderer.Control

/-!
# What the renderer says and does

The notices of a run follow two protocols. The reference of a sample is taken, the sample is
rendered at most once while it is held, and the reference is given up before the next one is
taken. The completion of a stream is announced at most once until the stream is reset.
-/

namespace StupidAR

open Monitor Protocol

/-- What has become of the sample that the renderer took last. -/
inductive Custody where
  | away
  | held (s : MediaSample)
  | shown (s : MediaSample)
  deriving DecidableEq

def Custody.next (q : Custody) : Notice → Option Custody
  | .addRef s => if q = away then some (held s) else none
  | .rendered s => if q = held s then some (shown s) else none
  | .release s => if q = held s ∨ q = shown s then some away else none
  | _ => some q

def Custody.of : Option MediaSample → Custody
  | none => away
  | some s => held s

/-- The state is whether the completion of the stream has been announced. -/
def completionNext (told : Bool) : Notice → Option Bool
  | .complete => if told then none else some true
  | .streamReset => some false
  | _ => some told

def Notice.taken? : Notice → Option MediaSample
  | addRef s => some s
  | _ => none

def Notice.released? : Notice → Option MediaSample
  | release s => some s
  | _ => none

def Notice.rendered? : Notice → Option MediaSample
  | rendered s => some s
  | _ => none

def taken (l : List Notice) : List MediaSample := l.filterMap Notice.taken?

def released (l : List Notice) : List MediaSample := l.filterMap Notice.released?

def rendered (l : List Notice) : List MediaSample := l.filterMap Notice.rendered?

lemma taken_concat (l : List Notice) (n : Notice) :
    taken (l ++ [n]) = taken l ++ n.taken?.toList := by
  cases h : n.taken? <;> simp [taken, h]

lemma released_concat (l : List Notice) (n : Notice) :
    released (l ++ [n]) = released l ++ n.released?.toList := by
  cases h : n.released? <;> simp [released, h]

lemma rendered_concat (l : List Notice) (n : Notice) :
    rendered (l ++ [n]) = rendered l ++ n.rendered?.toList := by
  cases h : n.rendered? <;> simp [rendered, h]

def Custody.sample : Custody → Option MediaSample
  | away => none
  | held s | shown s => some s

def Custody.lastShown : Custody → Option MediaSample
  | shown s => some s
  | _ => none

/-- Every sample taken has been given up but the one in custody, and those rendered are among
them in order. -/
lemma Custody.balance {l : List Notice} {q : Custody} (h : Follows Custody.next .away l q) :
    taken l = released l ++ q.sample.toList ∧
      (rendered l).Sublist (released l ++ q.lastShown.toList) := by
  induction l using List.reverseRecOn generalizing q with
  | nil =>
    cases follows_nil.mp h
    exact ⟨rfl, .slnil⟩
  | append_singleton l n ih =>
    obtain ⟨p, hp, hlast⟩ := follows_append.mp h
    obtain ⟨q', hq', hnil⟩ := follows_cons.mp hlast
    cases follows_nil.mp hnil
    obtain ⟨htaken, hrendered⟩ := ih hp
    rw [taken_concat, released_concat, rendered_concat]
    cases n with
    | addRef s =>
      obtain ⟨rfl, rfl⟩ : p = .away ∧ .held s = q := by simpa [Custody.next] using hq'
      have htaken' : taken l = released l := by simpa [sample] using htaken
      exact ⟨by simp [Notice.taken?, Notice.released?, sample, htaken'],
        by simpa [Notice.rendered?, Notice.released?, lastShown] using hrendered⟩
    | rendered s =>
      obtain ⟨rfl, rfl⟩ : p = .held s ∧ .shown s = q := by simpa [Custody.next] using hq'
      have hrendered' : (rendered l).Sublist (released l) := by
        simpa [lastShown] using hrendered
      exact ⟨by simpa [Notice.taken?, Notice.released?, sample] using htaken,
        by simpa [Notice.rendered?, Notice.released?, lastShown] using hrendered'.append_right [s]⟩
    | release s =>
      obtain ⟨hheld, rfl⟩ : (p = .held s ∨ p = .shown s) ∧ .away = q := by
        simpa [Custody.next] using hq'
      rcases hheld with rfl | rfl
      · refine ⟨by simpa [Notice.taken?, Notice.released?, sample] using htaken, ?_⟩
        have hrendered' : (rendered l).Sublist (released l) := by
          simpa [lastShown] using hrendered
        have hmore := hrendered'.trans (List.sublist_append_left _ [s])
        simpa [Notice.rendered?, Notice.released?, lastShown] using hmore
      · exact ⟨by simpa [Notice.taken?, Notice.released?, sample] using htaken,
          by simpa [Notice.rendered?, Notice.released?, lastShown] using hrendered⟩
    | _ =>
      cases hq'
      exact ⟨by simpa [Notice.taken?, Notice.released?] using htaken,
        by simpa [Notice.rendered?, Notice.released?] using hrendered⟩

/-- A sample that is rendered is the one that has been taken and not given up yet. -/
lemma Custody.rendered_taken {l l' : List Notice} {x : MediaSample} {q : Custody}
    (h : Follows Custody.next .away (l ++ .rendered x :: l') q) :
    taken l = released l ++ [x] := by
  obtain ⟨p, hp, hrest⟩ := follows_append.mp h
  obtain ⟨p', hp', -⟩ := follows_cons.mp hrest
  obtain ⟨rfl, -⟩ : p = .held x ∧ .shown x = p' := by simpa [Custody.next] using hp'
  exact (Custody.balance hp).1

/-- A notice that neither takes or renders a sample nor speaks of an error. -/
def Notice.mild : Notice → Bool
  | errorAbort _ | addRef _ | rendered _ | errorReset => false
  | _ => true

namespace BaseRenderer

variable {r r' r'' : BaseRenderer} {env : Surroundings}

/-- Nothing but mild notices has been given. -/
def Mildly (r r' : BaseRenderer) : Prop :=
  ∃ l : List Notice, r'.notices = r.notices ++ l ∧ ∀ n ∈ l, n.mild = true

lemma Mildly.of_eq (h : r'.notices = r.notices) : r.Mildly r' :=
  ⟨[], by simp [h], by simp⟩

lemma Mildly.notify {n : Notice} (hn : n.mild = true) (h : r'.notices = r.notices ++ [n]) :
    r.Mildly r' :=
  ⟨[n], h, by simpa using hn⟩

lemma Mildly.trans (h : r.Mildly r') (h' : r'.Mildly r'') : r.Mildly r'' := by
  obtain ⟨l, hl, hmild⟩ := h
  obtain ⟨l', hl', hmild'⟩ := h'
  refine ⟨l ++ l', by rw [hl', hl, List.append_assoc], fun n hn => ?_⟩
  exact (List.mem_append.mp hn).elim (hmild n) (hmild' n)

lemma Sent.mildly (h : r.Sent r') : r.Mildly r' := by
  cases h with
  | skip => exact .of_eq rfl
  | complete => exact .notify (n := .complete) rfl rfl
  | arm => exact .of_eq rfl

lemma mildly_sendEndOfStream : r.Mildly (r.sendEndOfStream env) :=
  (sendEndOfStream_sent env r).mildly

lemma mildly_clearPendingSample : r.Mildly r.clearPendingSample := by
  unfold clearPendingSample
  split
  · exact .of_eq rfl
  · next s _ => exact .notify (n := .release s) rfl rfl

lemma mildly_cancelNotification : r.Mildly r.cancelNotification := by
  unfold cancelNotification
  split_ifs <;> exact .of_eq rfl

lemma mildly_completeStateChange (old : FilterState) : r.Mildly (r.completeStateChange old) := by
  unfold completeStateChange
  split_ifs <;> exact .of_eq rfl

lemma scheduleSample_notices {s : MediaSample} (h : r.scheduleSample env s = some r') :
    r'.notices = r.notices := by
  unfold scheduleSample at h
  split at h
  · cases h
  · cases h
    rfl
  · obtain ⟨cookie, -, rfl⟩ := Option.map_eq_some_iff.mp h
    rfl

lemma mildly_startStreaming : r.Mildly (r.startStreaming env) := by
  unfold startStreaming
  split_ifs
  · exact .of_eq rfl
  · split
    · exact Mildly.trans (.of_eq rfl) mildly_sendEndOfStream
    · next s _ =>
      cases hr : scheduleSample env { r with streaming := true } s with
      | none => exact .of_eq rfl
      | some r' =>
        have hsame := scheduleSample_notices hr
        exact .of_eq hsame

lemma mildly_endOfStream : r.Mildly (r.endOfStream env) := by
  unfold endOfStream
  split_ifs
  · exact .of_eq rfl
  · exact .of_eq rfl
  · exact Mildly.trans (.of_eq rfl) mildly_sendEndOfStream
  · exact .of_eq rfl

lemma mildly_beginFlush : r.Mildly r.beginFlush := by
  unfold beginFlush
  refine Mildly.trans ?_ (Mildly.trans mildly_cancelNotification mildly_clearPendingSample)
  dsimp only
  split_ifs <;> exact .of_eq rfl

lemma mildly_endStreamOnError : r.Mildly r.endStreamOnError := by
  unfold endStreamOnError notifyEndOfStream
  split_ifs
  · exact .of_eq rfl
  · exact .notify (n := .complete) rfl rfl
  · exact .of_eq rfl

lemma mildly_timerCallback : r.Mildly (r.timerCallback env) := by
  unfold timerCallback
  split_ifs
  · exact .of_eq rfl
  · exact Mildly.trans (.of_eq rfl) mildly_sendEndOfStream

lemma mildly_onDisplayChange : r.Mildly r.onDisplayChange := by
  unfold onDisplayChange
  split_ifs
  · exact .of_eq rfl
  · exact Mildly.trans (.notify (n := .displayChanged) rfl rfl) mildly_clearPendingSample

lemma mildly_finishReceive (hnone : r.mediaSample = none) : r.Mildly (r.finishReceive env) := by
  have hrender : r.render = r := by
    unfold render
    rw [hnone]
  unfold finishReceive
  rw [hrender]
  exact mildly_clearPendingSample.trans (mildly_sendEndOfStream.trans mildly_cancelNotification)

end BaseRenderer

/-- Only these report an error or reset it. -/
def Action.speaksOfErrors : Action → Bool
  | errorAbort _ | inactive | endFlush | setRunTimeError => true
  | _ => false

lemma Action.mildly_run {a : Action} (ha : a.speaksOfErrors = false) (env : Surroundings)
    (r : BaseRenderer) : r.Mildly (a.run env r) := by
  cases a with
  | errorAbort | inactive | endFlush | setRunTimeError => cases ha
  | completeStateChange old => exact BaseRenderer.mildly_completeStateChange old
  | startStreaming => exact BaseRenderer.mildly_startStreaming
  | stopStreaming => exact .notify (n := .streamReset) rfl rfl
  | cancelNotification => exact BaseRenderer.mildly_cancelNotification
  | resetEndOfStream => exact .notify (n := .streamReset) rfl rfl
  | clearPendingSample => exact BaseRenderer.mildly_clearPendingSample
  | beginFlush => exact BaseRenderer.mildly_beginFlush
  | endOfStream => exact BaseRenderer.mildly_endOfStream
  | completeUnconnected => exact .notify (n := .completeUnconnected) rfl rfl
  | endStreamOnError => exact BaseRenderer.mildly_endStreamOnError
  | setConnected b => cases b <;> exact .of_eq rfl
  | _ => exact .of_eq rfl

lemma rendered_of_mildly {r r' : BaseRenderer} (h : r.Mildly r') :
    rendered r'.notices = rendered r.notices := by
  obtain ⟨l, hl, hmild⟩ := h
  have hnone : rendered l = [] := by
    refine List.filterMap_eq_nil_iff.mpr fun n hn => ?_
    have hmild := hmild n hn
    cases n <;> first | rfl | cases hmild
  rw [hl, rendered, List.filterMap_append]
  exact (congrArg (rendered r.notices ++ ·) hnone).trans (List.append_nil _)

lemma rendered_run (env : Surroundings) (r : BaseRenderer) (a : Action) :
    rendered (a.run env r).notices = rendered r.notices := by
  cases a with
  | errorAbort hr => simp [Action.run, BaseRenderer.notify, rendered_concat, Notice.rendered?]
  | inactive =>
    rw [Action.run, BaseRenderer.inactive,
      rendered_of_mildly BaseRenderer.mildly_clearPendingSample]
    simp [BaseRenderer.notify, rendered_concat, Notice.rendered?]
  | endFlush =>
    simp [Action.run, BaseRenderer.endFlush, BaseRenderer.sourceThreadCanWait,
      BaseRenderer.notify, rendered_concat, Notice.rendered?]
  | setRunTimeError => rfl
  | _ => exact rendered_of_mildly (Action.mildly_run rfl env r)

structure BaseRenderer.Orderly (r : BaseRenderer) : Prop where
  custody : Follows Custody.next .away r.notices (Custody.of r.mediaSample)
  completion : Follows completionNext false r.notices r.eosDelivered
  delivered : r.eosDelivered = true → r.streaming = true

/-- A notice that neither takes, shows nor gives up a sample, nor speaks of the stream. -/
def Notice.silent : Notice → Bool
  | completeUnconnected | errorAbort _ | displayChanged | errorReset => true
  | _ => false

lemma Notice.silent_custody {n : Notice} (h : n.silent = true) (q : Custody) :
    q.next n = some q := by
  cases n <;> first | rfl | cases h

lemma Notice.silent_completion {n : Notice} (h : n.silent = true) (told : Bool) :
    completionNext told n = some told := by
  cases n <;> first | rfl | cases h

namespace BaseRenderer.Orderly

variable {r : BaseRenderer}

lemma notify_silent {n : Notice} (hn : n.silent = true) (h : r.Orderly) : (r.notify n).Orderly :=
  ⟨h.custody.concat (Notice.silent_custody hn _),
    h.completion.concat (Notice.silent_completion hn _), h.delivered⟩

lemma clearPendingSample (h : r.Orderly) : r.clearPendingSample.Orderly := by
  unfold BaseRenderer.clearPendingSample
  split
  · exact h
  · next s hs =>
    refine ⟨?_, h.completion.concat rfl, h.delivered⟩
    have hcust := h.custody
    rw [hs] at hcust
    exact hcust.concat (if_pos (.inl rfl))

lemma cancelNotification (h : r.Orderly) : r.cancelNotification.Orderly := by
  unfold BaseRenderer.cancelNotification
  split_ifs <;> exact ⟨h.custody, h.completion, h.delivered⟩

lemma custody_complete (h : r.Orderly) :
    Follows Custody.next .away (r.notices ++ [.complete]) (Custody.of r.mediaSample) :=
  h.custody.concat rfl

lemma sent (h : r.Orderly) {r' : BaseRenderer} (hr : r.Sent r') : r'.Orderly := by
  cases hr with
  | skip => exact h
  | complete heos hd hs =>
    exact ⟨h.custody_complete, h.completion.concat (by rw [hd]; rfl), fun _ => hs⟩
  | arm => exact ⟨h.custody, h.completion, h.delivered⟩

lemma scheduleSample (h : r.Orderly) {env : Surroundings} {s : MediaSample} {r' : BaseRenderer}
    (hr : r.scheduleSample env s = some r') : r'.Orderly := by
  unfold BaseRenderer.scheduleSample at hr
  split at hr
  · cases hr
  · cases hr
    exact ⟨h.custody, h.completion, h.delivered⟩
  · obtain ⟨cookie, -, rfl⟩ := Option.map_eq_some_iff.mp hr
    exact ⟨h.custody, h.completion, h.delivered⟩

lemma startStreaming (h : r.Orderly) (env : Surroundings) : (r.startStreaming env).Orderly := by
  have hplays : Orderly { r with streaming := true } := ⟨h.custody, h.completion, fun _ => rfl⟩
  unfold BaseRenderer.startStreaming
  split_ifs with hs
  · exact h
  · split
    · exact hplays.sent (sendEndOfStream_sent env _)
    · next s _ =>
      cases hr : BaseRenderer.scheduleSample env { r with streaming := true } s with
      | none => exact ⟨h.custody, h.completion, fun _ => rfl⟩
      | some r' => exact hplays.scheduleSample hr

lemma custody_reset (h : r.Orderly) :
    Follows Custody.next .away (r.notices ++ [.streamReset]) (Custody.of r.mediaSample) :=
  h.custody.concat rfl

lemma completion_reset (h : r.Orderly) :
    Follows completionNext false (r.notices ++ [.streamReset]) false :=
  h.completion.concat rfl

lemma completeStateChange (h : r.Orderly) (old : FilterState) :
    (r.completeStateChange old).Orderly := by
  unfold BaseRenderer.completeStateChange
  split_ifs <;> exact ⟨h.custody, h.completion, h.delivered⟩

lemma endOfStream (h : r.Orderly) (env : Surroundings) : (r.endOfStream env).Orderly := by
  unfold BaseRenderer.endOfStream
  split_ifs
  · exact h
  · exact ⟨h.custody, h.completion, h.delivered⟩
  · refine sent (r := { r with eos := true, evComplete := true }) ?_ (sendEndOfStream_sent env _)
    exact ⟨h.custody, h.completion, h.delivered⟩
  · exact ⟨h.custody, h.completion, h.delivered⟩

lemma beginFlush (h : r.Orderly) : r.beginFlush.Orderly := by
  unfold BaseRenderer.beginFlush
  refine clearPendingSample (cancelNotification ?_)
  dsimp only
  split_ifs <;> exact ⟨h.custody, h.completion, h.delivered⟩

lemma endStreamOnError (h : r.Orderly) : r.endStreamOnError.Orderly := by
  unfold BaseRenderer.endStreamOnError notifyEndOfStream
  split_ifs with hplays hs
  · exact h
  · exact ⟨h.custody_complete, h.completion.concat (by rw [hplays.2]; rfl), fun _ => hplays.1⟩
  · exact h

lemma run (h : r.Orderly) (env : Surroundings) (a : Action) : (a.run env r).Orderly := by
  cases a with
  | completeStateChange old => exact h.completeStateChange old
  | startStreaming => exact h.startStreaming env
  | stopStreaming => exact ⟨h.custody_reset, h.completion_reset, Bool.false_ne_true.elim⟩
  | cancelNotification => exact h.cancelNotification
  | resetEndOfStream => exact ⟨h.custody_reset, h.completion_reset, Bool.false_ne_true.elim⟩
  | clearPendingSample => exact h.clearPendingSample
  | inactive =>
    refine clearPendingSample (notify_silent rfl ?_)
    exact ⟨h.custody, h.completion, h.delivered⟩
  | beginFlush => exact h.beginFlush
  | endFlush =>
    have hn := notify_silent (n := .errorReset) rfl h
    exact ⟨hn.custody, hn.completion, hn.delivered⟩
  | endOfStream => exact h.endOfStream env
  | completeUnconnected => exact notify_silent rfl h
  | errorAbort hr => exact notify_silent rfl h
  | endStreamOnError => exact h.endStreamOnError
  | setConnected b => cases b <;> exact ⟨h.custody, h.completion, h.delivered⟩
  | _ => exact ⟨h.custody, h.completion, h.delivered⟩

lemma timerCallback (h : r.Orderly) (env : Surroundings) : (r.timerCallback env).Orderly := by
  unfold BaseRenderer.timerCallback
  split_ifs
  · exact h
  · refine sent (r := { r with endOfStreamTimer := 0 }) ?_ (sendEndOfStream_sent env _)
    exact ⟨h.custody, h.completion, h.delivered⟩

lemma onDisplayChange (h : r.Orderly) : r.onDisplayChange.Orderly := by
  unfold BaseRenderer.onDisplayChange
  split_ifs
  · exact h
  · have hn := notify_silent (n := .displayChanged) rfl h
    exact clearPendingSample ⟨hn.custody, hn.completion, hn.delivered⟩

lemma keepSample (h : r.Orderly) (hnone : r.mediaSample = none) (d : Delivery) :
    (r.keepSample d).Orderly := by
  refine ⟨?_, h.completion.concat rfl, h.delivered⟩
  have hcust := h.custody
  rw [hnone] at hcust
  exact hcust.concat rfl

lemma prepared (h : r.Orderly) {env : Surroundings} {d : Delivery} {x : HResult × BaseRenderer}
    (hx : r.Prepared env d x) : x.2.Orderly := by
  have hin : Orderly { r with inReceive := true } := ⟨h.custody, h.completion, h.delivered⟩
  cases hx with
  | refused => exact ⟨h.custody, h.completion, h.delivered⟩
  | kept hcheck hsample => exact hin.keepSample hsample d
  | scheduled hcheck hsample heos hs hr' =>
    refine (hin.scheduleSample hr').keepSample ?_ d
    have hcore := congrArg Core.holding (BaseRenderer.scheduleSample_core env _ hr')
    simpa [BaseRenderer.core, hsample] using hcore

/-- A rendered sample is given up at once. -/
lemma finishReceive (h : r.Orderly) (env : Surroundings) : (r.finishReceive env).Orderly := by
  refine cancelNotification (sent ?_ (sendEndOfStream_sent env _))
  unfold render
  split
  · exact h.clearPendingSample
  · next s hs =>
    split_ifs
    · exact h.clearPendingSample
    · simp only [BaseRenderer.clearPendingSample, notify, hs]
      refine ⟨?_, ?_, h.delivered⟩
      · have hcust := h.custody
        rw [hs] at hcust
        have hshown : Custody.next (.of (some s)) (.rendered s) = some (.shown s) := if_pos rfl
        exact (hcust.concat hshown).concat (if_pos (.inr rfl))
      · have hcomp : Follows completionNext false (r.notices ++ [.rendered s]) r.eosDelivered :=
          h.completion.concat rfl
        exact hcomp.concat rfl

end BaseRenderer.Orderly

namespace System

variable {s s' : System}

lemma Step.orderly (h : Step s s') (hs : s.renderer.Orderly) : s'.renderer.Orderly := by
  cases h with
  | call h => cases h with | call => exact hs
  | act h => cases h with | act env head => exact hs.run env _
  | source h => cases h <;> exact ⟨hs.custody, hs.completion, hs.delivered⟩
  | entry h =>
    cases h with
    | receive env d => exact hs.prepared (s.renderer.prepareReceive_prepared env d)
    | finish env => exact hs.finishReceive env
    | firstSample => exact ⟨hs.custody, hs.completion, hs.delivered⟩
    | _ => exact hs
  | external h =>
    cases h with
    | clock => exact ⟨hs.custody, hs.completion, hs.delivered⟩
    | timer env => exact hs.timerCallback env
    | display => exact hs.onDisplayChange

lemma Reachable.orderly (h : Reachable s) : s.renderer.Orderly :=
  invariant_of_step (I := fun s => s.renderer.Orderly)
    ⟨follows_nil.mpr rfl, follows_nil.mpr rfl, Bool.false_ne_true.elim⟩
    (fun _ _ hstep => hstep.orderly) h

/-- Every sample that the renderer took is given up, in order and once, except the one that
`Receive` is at work on; what is rendered is rendered once, in order, after it is taken and
before it is given up; and a filter that is stopped, unconnected or flushing holds none. -/
theorem samples_accounted (h : Reachable s) :
    taken s.renderer.notices = released s.renderer.notices ++ s.renderer.mediaSample.toList ∧
      (rendered s.renderer.notices).Sublist (released s.renderer.notices) ∧
      (∀ l x l', s.renderer.notices = l ++ .rendered x :: l' → taken l = released l ++ [x]) ∧
      (s.source.engaged = false → s.renderer.mediaSample = none) ∧
      (s.locked = [] → s.renderer.state = .stopped ∨ s.renderer.connected = false ∨
        s.renderer.flushing = true → s.renderer.mediaSample = none) := by
  obtain ⟨htaken, hrendered⟩ := Custody.balance h.orderly.custody
  have hs := h.controlled
  have hnone : s.renderer.core.holding = false → s.renderer.mediaSample = none := by
    simp [BaseRenderer.core]
  refine ⟨?_, ?_, fun l x l' hl => ?_, fun hsrc => hnone (hs.holding_false hsrc),
    fun free hquiet => ?_⟩
  · rw [htaken]
    cases s.renderer.mediaSample <;> rfl
  · have hlast : (Custody.of s.renderer.mediaSample).lastShown = none := by
      cases s.renderer.mediaSample <;> rfl
    simpa [hlast] using hrendered
  · have hcust := h.orderly.custody
    rw [hl] at hcust
    exact Custody.rendered_taken hcust
  · apply hnone
    by_contra hh
    obtain ⟨hconn, hst⟩ := (hs.settled free).holding (by simpa using hh)
    have hfl := (hs.stable.holding (by simpa using hh)).2.2
    rcases hquiet with hst' | hconn' | hfl'
    · exact hst hst'
    · exact absurd (hconn'.symm.trans hconn) (by simp)
    · exact absurd (hfl'.symm.trans hfl) (by simp)

/-- A running filter renders two samples one after the other. -/
lemma reachable_played : ∃ s, Reachable s ∧ s.source = .idle ∧
    s.renderer.notices = [.streamReset, .addRef ⟨1, none⟩, .rendered ⟨1, none⟩,
      .release ⟨1, none⟩, .addRef ⟨2, none⟩, .rendered ⟨2, none⟩, .release ⟨2, none⟩] := by
  have h₁ := reachable_running false
  have h₂ := h₁.step (.entry (.receive noClock (untimed 1) rfl rfl rfl))
  have h₃ := h₂.step (.source (.notPaused rfl (by decide)))
  have h₄ := h₃.step (.source (.fire rfl rfl rfl))
  have h₅ := h₄.step (.source (.fired rfl))
  have h₆ := h₅.step (.source (.render rfl))
  have h₇ := h₆.step (.entry (.finish noClock rfl rfl (by decide)))
  have h₈ := h₇.step (.entry (.receive noClock (untimed 2) rfl rfl rfl))
  have h₉ := h₈.step (.source (.notPaused rfl (by decide)))
  have h₁₀ := h₉.step (.source (.fire rfl rfl rfl))
  have h₁₁ := h₁₀.step (.source (.fired rfl))
  have h₁₂ := h₁₁.step (.source (.render rfl))
  have h₁₃ := h₁₂.step (.entry (.finish noClock rfl rfl (by decide)))
  exact ⟨_, h₁₃, rfl, rfl⟩

theorem samples_accounted_played : ∃ s, Reachable s ∧
    rendered s.renderer.notices = [⟨1, none⟩, ⟨2, none⟩] ∧
    taken s.renderer.notices = released s.renderer.notices ++ s.renderer.mediaSample.toList ∧
    taken [.streamReset, .addRef ⟨1, none⟩, .rendered ⟨1, none⟩, .release ⟨1, none⟩,
      .addRef ⟨2, none⟩] = [⟨1, none⟩] ++ [⟨2, none⟩] ∧
    s.renderer.mediaSample = none := by
  obtain ⟨s, h, hsrc, hnotices⟩ := reachable_played
  obtain ⟨htaken, -, hbefore, hidle, -⟩ := samples_accounted h
  exact ⟨s, h, by rw [hnotices]; rfl, htaken, hbefore _ ⟨2, none⟩ [.release ⟨2, none⟩] hnotices,
    hidle (by rw [hsrc]; rfl)⟩

/-- A sample is rendered only by a running, connected filter that is not being flushed, and it
is the sample held. -/
theorem rendered_when_running (h : Reachable s) (hstep : Step s s') :
    rendered s'.renderer.notices = rendered s.renderer.notices ∨
      ∃ x, s.renderer.mediaSample = some x ∧
        rendered s'.renderer.notices = rendered s.renderer.notices ++ [x] ∧
        s.renderer.state = .running ∧ s.renderer.connected = true ∧
        s.renderer.flushing = false ∧ s'.renderer.mediaSample = none := by
  have hs := h.controlled
  cases hstep with
  | call h => cases h with | call => exact .inl rfl
  | act h => cases h with | @act env a => exact .inl (rendered_run env s.renderer a)
  | source h => cases h <;> exact .inl rfl
  | external h =>
    cases h with
    | clock => exact .inl rfl
    | timer => exact .inl (rendered_of_mildly BaseRenderer.mildly_timerCallback)
    | display => exact .inl (rendered_of_mildly BaseRenderer.mildly_onDisplayChange)
  | entry h =>
    cases h with
    | receive env d =>
      have hx := s.renderer.prepareReceive_prepared env d
      generalize s.renderer.prepareReceive env d = x at hx
      left
      cases hx with
      | refused => rfl
      | kept =>
        simp [BaseRenderer.keepSample, BaseRenderer.notify, rendered_concat, Notice.rendered?]
      | scheduled _ _ _ _ hr' =>
        have hsame := BaseRenderer.scheduleSample_notices hr'
        simp [BaseRenderer.keepSample, BaseRenderer.notify, rendered_concat, Notice.rendered?,
          hsame]
    | finish env free pc hst =>
      have hmild : s.renderer.render.Mildly (s.renderer.finishReceive env) :=
        BaseRenderer.mildly_clearPendingSample.trans
          (BaseRenderer.mildly_sendEndOfStream.trans BaseRenderer.mildly_cancelNotification)
      dsimp only
      rw [rendered_of_mildly hmild]
      unfold BaseRenderer.render
      split
      · exact .inl rfl
      · next x hx =>
        split_ifs with hplays
        · exact .inl rfl
        · have hholding : s.renderer.core.holding = true := by simp [BaseRenderer.core, hx]
          obtain ⟨hrunning, hconn⟩ :=
            (hs.settled free).streaming (by simpa [BaseRenderer.core] using hplays)
          have hempty : (s.renderer.finishReceive env).mediaSample = none := by
            have hcore := congrArg Core.holding (s.renderer.core_finishReceive env)
            simpa [BaseRenderer.core] using hcore
          refine .inr ⟨x, hx, ?_, hrunning, hconn, (hs.stable.holding hholding).2.2, hempty⟩
          exact rendered_concat _ _
    | _ => exact .inl rfl

theorem rendered_when_running_sample : ∃ s s', Reachable s ∧ Step s s' ∧
    rendered s.renderer.notices = [] ∧ s.renderer.mediaSample = some ⟨1, none⟩ ∧
    rendered s'.renderer.notices = [⟨1, none⟩] ∧ s.renderer.state = .running := by
  let r : BaseRenderer :=
    { runningRenderer false with
      mediaSample := some ⟨1, none⟩
      notices := [.streamReset, .addRef ⟨1, none⟩] }
  have h₁ := reachable_running false
  have h₂ := h₁.step (.entry (.receive noClock (untimed 1) rfl rfl rfl))
  have h₃ := h₂.step (.source (.notPaused rfl (by decide)))
  have h₄ := h₃.step (.source (.fire rfl rfl rfl))
  have h₅ := h₄.step (.source (.fired rfl))
  have h₆ : Reachable ⟨r, [], .renderLock⟩ := h₅.step (.source (.render rfl))
  have hstep : Step ⟨r, [], .renderLock⟩ _ := .entry (.finish noClock rfl rfl (by decide))
  rcases rendered_when_running h₆ hstep with hsame | ⟨x, hx, hshown, hrunning, -⟩
  · cases hsame
  · exact ⟨_, _, h₆, hstep, rfl, rfl, rfl, hrunning⟩

/-- Between two announcements that a stream is complete the stream has been reset, and while
the filter does not run there is none since the last reset. -/
theorem completion_once (h : Reachable s) :
    (∀ l₁ l₂ l₃, s.renderer.notices = l₁ ++ .complete :: l₂ ++ .complete :: l₃ →
      Notice.streamReset ∈ l₂) ∧
    (s.locked = [] → s.renderer.state ≠ .running → ∀ l₁ l₂,
      s.renderer.notices = l₁ ++ .complete :: l₂ → Notice.streamReset ∈ l₂) := by
  have hord := h.orderly
  have hnext : ∀ told n p, told = true → n ≠ .streamReset → completionNext told n = some p →
      p = true := by
    intro told n p htold hn hp
    cases n <;> simp_all [completionNext]
  constructor
  · intro l₁ l₂ l₃ hl
    have hcomp := hord.completion
    rw [hl] at hcomp
    obtain ⟨n, hn, hreset⟩ := hcomp.between (P := (· = true)) (E := (· = .streamReset))
      (by simp [completionNext]) (by simp [completionNext]) hnext
    exact hreset ▸ hn
  · intro free hst l₁ l₂ hl
    have hnot : s.renderer.eosDelivered = false := by
      by_contra hd
      have hplays := hord.delivered (by simpa using hd)
      exact hst ((h.controlled.settled free).streaming hplays).1
    have hcomp := hord.completion
    rw [hl, hnot] at hcomp
    by_contra hno
    obtain ⟨p, -, hrest⟩ := follows_append.mp hcomp
    obtain ⟨q, hq, hl₂⟩ := follows_cons.mp hrest
    have htold : q = true := by
      simp only [completionNext] at hq
      split_ifs at hq
      cases hq
      rfl
    have hlast := hl₂.persists (P := (· = true)) (E := (· = .streamReset)) htold hnext
      fun n hn hreset => hno (hreset ▸ hn)
    cases hlast

/-- The end of the stream is announced, the filter is paused, and when it runs again the end is
announced once more. -/
lemma reachable_replayed :
    (∃ s, Reachable s ∧ s.locked = [] ∧ s.renderer.state = .paused ∧
      s.renderer.notices = [.streamReset] ++ .complete :: [.streamReset]) ∧
    ∃ s, Reachable s ∧
      s.renderer.notices = [.streamReset] ++ .complete :: [.streamReset] ++ .complete :: [] := by
  have h₁ := reachable_running false
  have h₂ := h₁.step (.call (.call .endOfStream rfl rfl))
  have h₃ := h₂.finishes noClock [.endOfStream] [] rfl
  have h₄ := h₃.step (.call (.call .pause rfl trivial))
  have h₅ := h₄.finishes noClock (pauseActions .running) [] rfl
  have h₆ := h₅.step (.call (.call (.run 0) rfl trivial))
  have h₇ := h₆.finishes noClock (runActions .paused 0) [] rfl
  exact ⟨⟨_, h₅, rfl, rfl, rfl⟩, ⟨_, h₇, rfl⟩⟩

theorem completion_once_replayed :
    (∃ s, Reachable s ∧ s.renderer.state = .paused ∧
      s.renderer.notices = [.streamReset] ++ .complete :: [.streamReset] ∧
      Notice.streamReset ∈ [Notice.streamReset]) ∧
    ∃ s, Reachable s ∧
      s.renderer.notices = [.streamReset] ++ .complete :: [.streamReset] ++ .complete :: [] ∧
      Notice.streamReset ∈ [Notice.streamReset] := by
  obtain ⟨⟨s, h, free, hpaused, hnotices⟩, ⟨s', h', hnotices'⟩⟩ := reachable_replayed
  constructor
  · have hst : s.renderer.state ≠ .running := by simp [hpaused]
    exact ⟨s, h, hpaused, hnotices, (completion_once h).2 free hst _ _ hnotices⟩
  · exact ⟨s', h', hnotices', (completion_once h').1 _ _ _ hnotices'⟩

end System

end StupidAR
