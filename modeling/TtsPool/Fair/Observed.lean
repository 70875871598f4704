/-
# Two queues that differ in forgotten keys

`score` and `snapshots` forget the keys that are idle for the time to live, and a
queue that is looked at more often forgets some of them sooner.  Two such queues are
the same but for states that a test leaves out (`SameOn`).  As long as requests come
in, the test is not to be expired by the last reading of the clock (`SameFrom`): the
next `enqueue` or `pop_next` forgets what is expired before it does anything else, and
finds the same queue.  From `drain` on, which marks idle keys idle once more, it is to
be busy (`SameBusy`), and by then `remove`, `complete` and `abandon` are all there is
to come.

These three and `drain` look for a job, and find it in a busy key, or nothing.  So
they do the same to both queues whatever the test, as long as busy states pass it
(`Spares`), as they do where the invariant holds.
-/

import TtsPool.Fair.Invariant

namespace TtsPool

namespace Dict

variable {α β γ : Type*} [DecidableEq α] {d : Dict α β} {k : α}

omit [DecidableEq α] in
theorem filter_filter (d : Dict α β) (p q : α → β → Bool) :
    (d.filter p).filter q = d.filter fun a b => q a b && p a b :=
  Dict.ext List.filter_filter

omit [DecidableEq α] in
theorem filter_congr {p q : α → β → Bool} (h : ∀ e ∈ d.entries, p e.1 e.2 = q e.1 e.2) :
    d.filter p = d.filter q :=
  Dict.ext (List.filter_congr h)

/-- A value that passes the test, replaced by another. -/
theorem filter_set {p : α → β → Bool} {v : β} (h : d.get? k = some v) (hv : p k v = true) (w : β) :
    (d.set k w).filter p = if p k w = true then (d.filter p).set k w else (d.filter p).erase k := by
  obtain ⟨pre, post, he, hpre, hpost⟩ := exists_split h
  have hpre' : ∀ e ∈ pre.filter fun e => p e.1 e.2, e.1 ≠ k := fun e hm =>
    hpre e (List.mem_filter.mp hm).1
  have hpost' : ∀ e ∈ post.filter fun e => p e.1 e.2, e.1 ≠ k := fun e hm =>
    hpost e (List.mem_filter.mp hm).1
  have hfiltered : (d.filter p).entries =
      (pre.filter fun e => p e.1 e.2) ++ (k, v) :: post.filter fun e => p e.1 e.2 := by
    simp [filter, he, hv]
  have hset : ((d.set k w).filter p).entries = (pre.filter fun e => p e.1 e.2) ++
      ([(k, w)].filter fun e => p e.1 e.2) ++ post.filter fun e => p e.1 e.2 := by
    simp only [filter, entries_set_of_split he hpre hpost]
    rw [← List.filter_append, ← List.filter_append, List.append_assoc, List.singleton_append]
  refine Dict.ext ?_
  rw [hset]
  split_ifs with hw
  · rw [entries_set_of_split hfiltered hpre' hpost']
    simp [hw]
  · rw [entries_erase_of_split hfiltered hpre' hpost']
    simp [hw]

omit [DecidableEq α] in
/-- What is left out after a change of the values may be left out before. -/
theorem filter_mapValues {f : β → γ} {p : α → β → Bool} {q : α → γ → Bool}
    (h : ∀ a b, q a (f b) = true → p a b = true) (d : Dict α β) :
    (d.mapValues f).filter q = ((d.filter p).mapValues f).filter q := by
  refine Dict.ext ?_
  simp only [filter, mapValues, List.filter_map, List.filter_filter]
  refine congrArg _ (List.filter_congr fun e _ => ?_)
  have hle := h e.1 e.2
  cases hq : q e.1 (f e.2) <;> simp_all

end Dict

namespace FairnessState

theorem Expired.later {settings : FairnessSettings} {now later : ℚ} {state : FairnessState}
    (h : state.Expired settings now) (hle : now ≤ later) : state.Expired settings later := by
  obtain ⟨since, hs, ht⟩ := h
  exact ⟨since, hs, ht.trans (sub_le_sub_right hle since)⟩

end FairnessState

namespace FairPendingQueue

variable {p : FairnessState → Bool} {q q' : FairPendingQueue} {t now : ℚ} {key : FairnessKey}

/-- The same but for states that fail the test. -/
structure SameOn (p : FairnessState → Bool) (q q' : FairPendingQueue) : Prop where
  rest : { q with states := .empty } = { q' with states := .empty }
  states : (q.states.filter fun _ state => p state) = q'.states.filter fun _ state => p state

/-- The same from a reading of the clock on. -/
def SameFrom (now : ℚ) (q q' : FairPendingQueue) : Prop :=
  q.SameOn (fun state => !decide (state.Expired q.settings now)) q'

/-- The same busy keys. -/
def SameBusy (q q' : FairPendingQueue) : Prop := q.SameOn (fun state => decide state.Busy) q'

/-- Busy states pass the test. -/
def Spares (p : FairnessState → Bool) (q : FairPendingQueue) : Prop :=
  ∀ key state, q.states.get? key = some state → state.Busy → p state = true

theorem spares_busy (q : FairPendingQueue) : q.Spares fun state => decide state.Busy :=
  fun _ _ _ hb => decide_eq_true hb

theorem Ok.spares (h : q.Ok) {settings : FairnessSettings} (hsettings : settings = q.settings) (now : ℚ) :
    q.Spares fun state => !decide (state.Expired settings now) := by
  intro key state hs hb
  simpa [hsettings] using (h.states key state hs).not_expired hb now

namespace SameOn

theorem settings (h : q.SameOn p q') : q.settings = q'.settings := by
  have hrest := congrArg FairPendingQueue.settings h.rest
  exact hrest

theorem pendingCount (h : q.SameOn p q') : q.pendingCount = q'.pendingCount := by
  have hrest := congrArg FairPendingQueue.pendingCount h.rest
  exact hrest

theorem refl (p : FairnessState → Bool) (q : FairPendingQueue) : q.SameOn p q := ⟨rfl, rfl⟩

theorem symm (h : q.SameOn p q') : q'.SameOn p q := ⟨h.rest.symm, h.states.symm⟩

/-- A state that passes the test stands in both. -/
theorem get? (h : q.SameOn p q') {state : FairnessState} (hs : q.states.get? key = some state)
    (hp : p state = true) : q'.states.get? key = some state := by
  have hfiltered := Dict.get?_filter (p := fun _ state => p state).mpr ⟨hs, hp⟩
  rw [h.states] at hfiltered
  exact (Dict.get?_filter.mp hfiltered).1

/-- A busy state of a kind is found in both, or in neither. -/
theorem find (h : q.SameOn p q') (hspare : q.Spares p) (hspare' : q'.Spares p) {P : FairnessState → Prop}
    (hP : ∀ state, P state → state.Busy) (key : FairnessKey) :
    (∃ state, q.states.get? key = some state ∧ q'.states.get? key = some state ∧ p state = true ∧
        P state) ∨
      (∀ state, q.states.get? key = some state → ¬ P state) ∧
        ∀ state, q'.states.get? key = some state → ¬ P state := by
  by_cases hfound : ∃ state, q.states.get? key = some state ∧ P state
  · obtain ⟨state, hs, hstate⟩ := hfound
    have hp := hspare key state hs (hP state hstate)
    exact .inl ⟨state, hs, h.get? hs hp, hp, hstate⟩
  · refine .inr ⟨fun state hs hstate => hfound ⟨state, hs, hstate⟩, fun state hs hstate => ?_⟩
    exact hfound ⟨state, h.symm.get? hs (hspare' key state hs (hP state hstate)), hstate⟩

/-- A state that both have, replaced in both. -/
theorem set (h : q.SameOn p q') {state : FairnessState} (hs : q.states.get? key = some state)
    (hs' : q'.states.get? key = some state) (hp : p state = true) (state' : FairnessState) :
    { q with states := q.states.set key state' }.SameOn p { q' with states := q'.states.set key state' } where
  rest := h.rest
  states := by
    show (q.states.set key state').filter (fun _ state => p state) =
      (q'.states.set key state').filter fun _ state => p state
    rw [Dict.filter_set hs hp, Dict.filter_set hs' hp, h.states]

theorem remove (h : q.SameOn p q') (hspare : q.Spares p) (hspare' : q'.Spares p) (job : SchedulerJob) (now : ℚ) :
    (q.remove job now).2 = (q'.remove job now).2 ∧ (q.remove job now).1.SameOn p (q'.remove job now).1 := by
  have hbusy : ∀ state : FairnessState,
      (state.pendingJobs.find? fun candidate => candidate.jobId = job.jobId) ≠ none → state.Busy := by
    intro state hfind
    refine .inl fun hnil => hfind ?_
    rw [hnil, List.find?_nil]
  rcases h.find hspare hspare' hbusy job.fairnessKey with ⟨state, hs, hs', hp, hfind⟩ | ⟨hnone, hnone'⟩
  · obtain ⟨found, hfound⟩ := Option.ne_none_iff_exists'.mp hfind
    simp only [FairPendingQueue.remove, hs, hs', hfound]
    have hset := h.set hs hs' hp
      ({ state with pendingJobs := state.pendingJobs.erase found }.markIdleIfNeeded now)
    have hrest := congrArg (fun q : FairPendingQueue => { q with pendingCount := q.pendingCount - 1 }) hset.rest
    exact ⟨trivial, hrest, hset.states⟩
  · have hmiss : ∀ q : FairPendingQueue, (∀ state, q.states.get? job.fairnessKey = some state →
        ¬ (state.pendingJobs.find? fun candidate => candidate.jobId = job.jobId) ≠ none) →
        q.remove job now = (q, false) := by
      intro q hnone
      unfold FairPendingQueue.remove
      cases hs : q.states.get? job.fairnessKey with
      | none => rfl
      | some state =>
        have hfind := not_not.mp (hnone state hs)
        simp only [hfind]
    rw [hmiss q hnone, hmiss q' hnone']
    exact ⟨rfl, h⟩

theorem complete (h : q.SameOn p q') (hspare : q.Spares p) (hspare' : q'.Spares p) (job : SchedulerJob)
    (serviceMs now : ℚ) : (q.complete job serviceMs now).SameOn p (q'.complete job serviceMs now) := by
  have hbusy : ∀ state : FairnessState, state.activeStartedAt.get? job.jobId ≠ none → state.Busy := by
    intro state hactive
    refine .inr fun hnil => hactive ?_
    simp [Dict.get?, hnil]
  rcases h.find hspare hspare' hbusy job.fairnessKey with ⟨state, hs, hs', hp, hactive⟩ | ⟨hnone, hnone'⟩
  · obtain ⟨startedAt, hstarted⟩ := Option.ne_none_iff_exists'.mp hactive
    simp only [FairPendingQueue.complete, hs, hs', hstarted]
    exact h.set hs hs' hp _
  · have hmiss : ∀ q : FairPendingQueue, (∀ state, q.states.get? job.fairnessKey = some state →
        ¬ state.activeStartedAt.get? job.jobId ≠ none) → q.complete job serviceMs now = q := by
      intro q hnone
      unfold FairPendingQueue.complete
      cases hs : q.states.get? job.fairnessKey with
      | none => rfl
      | some state =>
        have hfind := not_not.mp (hnone state hs)
        simp only [hfind]
    rw [hmiss q hnone, hmiss q' hnone']
    exact h

/-- The job abandoned is active. -/
theorem abandon (h : q.SameOn p q') (hspare : q.Spares p) {job : SchedulerJob}
    (hactive : job.ticket ∈ q.activeTickets) (now : ℚ) :
    (q.abandon job now).SameOn p (q'.abandon job now) := by
  obtain ⟨state, hs, startedAt, hstarted⟩ : ∃ state, q.states.get? job.fairnessKey = some state ∧
      ∃ startedAt, state.activeStartedAt.get? job.jobId = some startedAt := mem_activeTickets.mp hactive
  have hb : state.Busy := by
    refine .inr fun hnil => ?_
    simp [Dict.get?, hnil] at hstarted
  have hp := hspare _ state hs hb
  have hs' := h.get? hs hp
  simp only [FairPendingQueue.abandon, Dict.modify_of_get?_eq_some hs, Dict.modify_of_get?_eq_some hs']
  exact h.set hs hs' hp _

/-- Queues that are the same on more have the same busy keys. -/
theorem busy (h : q.SameOn p q') (hspare : q.Spares p) (hspare' : q'.Spares p) : q.SameBusy q' where
  rest := h.rest
  states := by
    have hfilter : ∀ q : FairPendingQueue, q.Spares p → (q.states.filter fun _ state => decide state.Busy) =
        (q.states.filter fun _ state => p state).filter fun _ state => decide state.Busy := by
      intro q hspare
      rw [Dict.filter_filter]
      refine Dict.filter_congr fun e he => ?_
      have hpass := hspare e.1 e.2 (Dict.get?_eq_some_iff.mpr he)
      by_cases hb : e.2.Busy <;> simp [hb]
      exact hpass hb
    rw [hfilter q hspare, hfilter q' hspare', h.states]

end SameOn

/-- An idle key has no jobs. -/
theorem flatMap_busy (q : FairPendingQueue) : q.states.values.flatMap FairnessState.pendingJobs =
    (q.states.filter fun _ state => decide state.Busy).values.flatMap FairnessState.pendingJobs := by
  have hlist : ∀ es : List (FairnessKey × FairnessState), es.flatMap (fun e => e.2.pendingJobs) =
      (es.filter fun e => decide e.2.Busy).flatMap fun e => e.2.pendingJobs := by
    intro es
    induction es with
    | nil => rfl
    | cons e es ih =>
      by_cases hb : e.2.Busy
      · rw [List.filter_cons_of_pos (by simpa using hb), List.flatMap_cons, List.flatMap_cons, ih]
      · have hnil : e.2.pendingJobs = [] := by
          by_contra hne
          exact hb (.inl hne)
        rw [List.filter_cons_of_neg (by simpa using hb), List.flatMap_cons, hnil, List.nil_append, ih]
  simpa [Dict.values, Dict.filter, List.flatMap_map] using hlist q.states.entries

/-- **The same jobs are drained**, in the same order; the idle keys are marked anew. -/
theorem SameBusy.drain (h : q.SameBusy q') (now : ℚ) :
    (q.drain now).2 = (q'.drain now).2 ∧ (q.drain now).1.SameBusy (q'.drain now).1 := by
  have hbusy : ∀ (_ : FairnessKey) (state : FairnessState),
      decide ({ state with pendingJobs := [] }.markIdleIfNeeded now).Busy = true → decide state.Busy = true := by
    intro _ state hdrained
    rw [decide_eq_true_iff] at hdrained ⊢
    rw [FairnessState.Busy, markIdleIfNeeded_pendingJobs, markIdleIfNeeded_activeStartedAt] at hdrained
    exact hdrained.imp_left fun hne => absurd rfl hne
  refine ⟨?_, ?_, ?_⟩
  · simp only [FairPendingQueue.drain]
    rw [q.flatMap_busy, q'.flatMap_busy, h.states]
  · exact congrArg (fun q : FairPendingQueue => { q with pendingCount := 0 }) h.rest
  · simp only [FairPendingQueue.drain]
    rw [Dict.filter_mapValues hbusy, h.states, ← Dict.filter_mapValues hbusy]

/-! ### While requests come in -/

theorem SameFrom.expire (h : q.SameFrom now q') : q.expireIdleStates now = q'.expireIdleStates now := by
  have hrest := h.rest
  have hstates := h.states
  rw [FairPendingQueue.mk.injEq] at hrest
  obtain ⟨hname, hsettings, -, hpending, hjob, hactivation, hselection, hperKey, hexecutor⟩ := hrest
  simp only [expireIdleStates, FairPendingQueue.mk.injEq, ← hsettings]
  exact ⟨hname, trivial, hstates, hpending, hjob, hactivation, hselection, hperKey, hexecutor⟩

theorem SameFrom.enqueue (h : q.SameFrom now q') (request : ResponseRequest) (streamHandle : HandleId) :
    q.enqueue request streamHandle now = q'.enqueue request streamHandle now := by
  simp only [FairPendingQueue.enqueue, h.expire]

theorem SameFrom.popNext (h : q.SameFrom now q') : q.popNext now = q'.popNext now := by
  simp only [FairPendingQueue.popNext, h.expire]

/-- What is expired later is left out later. -/
theorem SameFrom.later (h : q.SameFrom t q') (hle : t ≤ now) : q.SameFrom now q' where
  rest := h.rest
  states := by
    have hfilter : ∀ q' : FairPendingQueue,
        (q'.states.filter fun _ state => !decide (state.Expired q.settings now)) =
          (q'.states.filter fun _ state => !decide (state.Expired q.settings t)).filter fun _ state =>
            !decide (state.Expired q.settings now) := by
      intro q'
      rw [Dict.filter_filter]
      refine Dict.filter_congr fun e _ => ?_
      by_cases hx : e.2.Expired q.settings t
      · simp [hx, hx.later hle]
      · simp [hx]
    rw [hfilter q, hfilter q', h.states]

/-- **A look at the queue** forgets only what is left out already. -/
theorem SameFrom.observed (h : q.SameFrom now q') : q.SameFrom now (q'.expireIdleStates now) where
  rest := h.rest
  states := by
    rw [h.states]
    show _ = (q'.states.filter fun _ state => !decide (state.Expired q'.settings now)).filter _
    rw [Dict.filter_filter, h.settings]
    simp

/-- So it does once the queue is drained. -/
theorem SameBusy.observed (h : q.SameBusy q') (hok : q'.Ok) (now : ℚ) :
    q.SameBusy (q'.expireIdleStates now) where
  rest := h.rest
  states := by
    rw [h.states]
    show _ = (q'.states.filter fun _ state => !decide (state.Expired q'.settings now)).filter _
    rw [Dict.filter_filter]
    refine Dict.filter_congr fun e he => ?_
    by_cases hb : e.2.Busy
    · simp [hb, (hok.states e.1 e.2 (Dict.get?_eq_some_iff.mpr he)).not_expired hb now]
    · simp [hb]

/-! ### What is seen -/

/-- **The busy keys are the same**, and stand alike. -/
theorem SameBusy.get? (h : q.SameBusy q') {state : FairnessState} (hb : state.Busy) :
    q.states.get? key = some state ↔ q'.states.get? key = some state :=
  ⟨fun hs => SameOn.get? h hs (decide_eq_true hb), fun hs => SameOn.get? h.symm hs (decide_eq_true hb)⟩

/-- Looking at both. -/
theorem SameBusy.expire (h : q.SameBusy q') (hok : q.Ok) (hok' : q'.Ok) (now : ℚ) :
    (q.expireIdleStates now).SameBusy (q'.expireIdleStates now) :=
  SameOn.symm (SameBusy.observed (SameOn.symm (h.observed hok' now)) hok now)

/-- `score` of a busy key. -/
theorem SameBusy.score (h : q.SameBusy q') (hok : q.Ok) (hok' : q'.Ok) {state : FairnessState}
    (hs : q.states.get? key = some state) (hb : state.Busy) (now : ℚ) :
    (q.score key now).2 = (q'.score key now).2 := by
  have hstands : (q.expireIdleStates now).states.get? key = some state :=
    get?_expireIdleStates_of_busy hok hs hb
  have hstands' : (q'.expireIdleStates now).states.get? key = some state :=
    get?_expireIdleStates_of_busy hok' ((h.get? hb).mp hs) hb
  simp only [FairPendingQueue.score, hstands, hstands']

theorem snapshotOrder_trans (a b c : FairnessKey) (hab : snapshotOrder a b = true)
    (hbc : snapshotOrder b c = true) : snapshotOrder a c = true := by
  cases a <;> cases b <;> cases c <;> simp_all [snapshotOrder]
  exact String.le_trans hab hbc

theorem snapshotOrder_total (a b : FairnessKey) : (snapshotOrder a b || snapshotOrder b a) = true := by
  cases a <;> cases b <;> simp [snapshotOrder]
  exact String.le_total _ _

theorem snapshotOrder_antisymm {a b : FairnessKey} (hab : snapshotOrder a b = true)
    (hba : snapshotOrder b a = true) : a = b := by
  cases a <;> cases b <;> simp_all [snapshotOrder]
  exact String.le_antisymm hab hba

/-- **A snapshot** lists the busy keys in the order of their names, wherever they stand. -/
theorem SameBusy.snapshots (h : q.SameBusy q') (hok : q.Ok) (hok' : q'.Ok) (now : ℚ) :
    (q.snapshots now).2 = (q'.snapshots now).2 := by
  let sorted (q : FairPendingQueue) : List (FairnessKey × FairnessState) :=
    (q.states.entries.mergeSort fun a b => snapshotOrder a.1 b.1).filter fun e => e.2.Busy
  have hperm : ∀ q : FairPendingQueue,
      (sorted q).Perm (q.states.filter fun _ state => decide state.Busy).entries :=
    fun q => (List.mergeSort_perm ..).filter _
  have hsorted : ∀ q : FairPendingQueue, (sorted q).Pairwise fun a b => snapshotOrder a.1 b.1 = true :=
    fun q => (List.pairwise_mergeSort (fun a b c => snapshotOrder_trans a.1 b.1 c.1)
      (fun a b => snapshotOrder_total a.1 b.1) _).filter _
  have hsame := h.expire hok hok' now
  have hperm' := hperm (q'.expireIdleStates now)
  rw [← hsame.states] at hperm'
  have heq : sorted (q.expireIdleStates now) = sorted (q'.expireIdleStates now) := by
    refine List.Perm.eq_of_pairwise (fun a b ha hb hab hba => ?_) (hsorted _) (hsorted _)
      ((hperm _).trans hperm'.symm)
    -- two entries of one key of one dictionary
    have ha := Dict.get?_eq_some_iff.mpr ((hperm _).subset ha)
    have hb := Dict.get?_eq_some_iff.mpr (hperm'.subset hb)
    have hkey := snapshotOrder_antisymm hab hba
    rw [hkey, hb] at ha
    exact Prod.ext hkey (Option.some.inj ha).symm
  show (sorted (q.expireIdleStates now)).map _ = (sorted (q'.expireIdleStates now)).map _
  rw [heq]

end FairPendingQueue
end TtsPool
