/-
# What a key enters with

A key the scheduler does not know opens its account at the least score of the
busy keys, so it enters level with the one that is worst served.  A key it
remembers keeps the account it left with, whatever the others have been charged
meanwhile.  `enters_level_iff` says exactly when an accepted `enqueue` brings a
key in without a head start: when its state is gone, or when the account it
left with is not below every other score.

The other branch is real.  `enters_ahead` follows a client that is served for
one second, stays away for ten while another client keeps a slot, and comes
back with 1000 against 3333: until it has caught up, every free slot is its
own.
-/

import TtsPool.Fair.Account

namespace TtsPool
namespace FairPendingQueue

/-- The least score of the busy keys other than `key`. -/
def leastOtherScore (q : FairPendingQueue) (key : FairnessKey) (now : ℚ) : Option ℚ :=
  ((q.states.entries.filter fun e => e.1 ≠ key ∧ e.2.Busy).map fun e => e.2.score now).min?

/-- The key is scored no lower than the least of the other busy keys. -/
def Level (q : FairPendingQueue) (key : FairnessKey) (now : ℚ) : Prop :=
  ∃ least ∈ q.leastOtherScore key now, ∃ own ∈ (q.score key now).2, least ≤ own

instance (q : FairPendingQueue) (key : FairnessKey) (now : ℚ) : Decidable (q.Level key now) :=
  inferInstanceAs (Decidable (∃ least ∈ q.leastOtherScore key now, ∃ own ∈ (q.score key now).2, _))

/-- The account the key left with is at or above the score of some busy key. -/
def CaughtUp (q : FairPendingQueue) (now : ℚ) (state : FairnessState) : Prop :=
  ∃ e ∈ q.states.entries, e.2.Busy ∧ e.2.score now ≤ state.virtualServiceMs

instance (q : FairPendingQueue) (now : ℚ) (state : FairnessState) : Decidable (q.CaughtUp now state) :=
  inferInstanceAs (Decidable (∃ e ∈ q.states.entries, _))

/-- The least of a list is at most `x` iff some element is. -/
theorem exists_min?_le_iff {xs : List ℚ} {x : ℚ} : (∃ least ∈ xs.min?, least ≤ x) ↔ ∃ y ∈ xs, y ≤ x := by
  constructor
  · rintro ⟨least, hleast, hle⟩
    exact ⟨least, List.min?_mem hleast, hle⟩
  · rintro ⟨y, hy, hle⟩
    cases hmin : xs.min? with
    | none => simp [List.min?_eq_none_iff.mp hmin] at hy
    | some least => exact ⟨least, rfl, ((List.le_min?_iff hmin).mp le_rfl y hy).trans hle⟩

/-- The busy keys among the others, by entry. -/
theorem exists_leastOtherScore_le {q : FairPendingQueue} {key : FairnessKey} {now x : ℚ} :
    (∃ least ∈ q.leastOtherScore key now, least ≤ x) ↔
      ∃ other state, other ≠ key ∧ q.states.get? other = some state ∧ state.Busy ∧ state.score now ≤ x := by
  simp only [leastOtherScore, exists_min?_le_iff, List.mem_map, List.mem_filter, decide_eq_true_eq,
    Dict.get?_eq_some_iff]
  constructor
  · rintro ⟨_, ⟨e, ⟨he, hne, hb⟩, rfl⟩, hle⟩
    exact ⟨e.1, e.2, hne, he, hb, hle⟩
  · rintro ⟨other, state, hne, he, hb, hle⟩
    exact ⟨_, ⟨(other, state), ⟨he, hne, hb⟩, rfl⟩, hle⟩

/-- An accepted `enqueue` ages the queue and puts the job in its bucket. -/
theorem enqueue_accepted {q : FairPendingQueue} {request : ResponseRequest} {streamHandle : HandleId}
    {now : ℚ} {job : SchedulerJob} (h : (q.enqueue request streamHandle now).2 = .ok job) :
    (q.enqueue request streamHandle now).1 = (q.expireIdleStates now).accept request streamHandle now := by
  unfold enqueue at h ⊢
  simp only at h ⊢
  split_ifs at h ⊢
  rfl

/-- The busy keys other than the entering one stand as they stood. -/
theorem accept_others {q : FairPendingQueue} (h : q.Ok) {request : ResponseRequest}
    {streamHandle : HandleId} {now : ℚ} {other : FairnessKey} (hne : other ≠ request.fairnessKey)
    {state : FairnessState} (hb : state.Busy) :
    ((q.expireIdleStates now).accept request streamHandle now).states.get? other = some state ↔
      q.states.get? other = some state := by
  rw [accept, Dict.get?_set_of_ne _ hne]
  exact ⟨fun hs => (get?_expireIdleStates.mp hs).1, fun hs => get?_expireIdleStates_of_busy h hs hb⟩

/-- The score of a key that had no work is the account it is admitted with. -/
theorem score_accept {q : FairPendingQueue} (h : q.Ok) {request : ResponseRequest}
    (streamHandle : HandleId) (now : ℚ) (hidle : ¬ q.KeyBusy request.fairnessKey) :
    (((q.expireIdleStates now).accept request streamHandle now).score request.fairnessKey now).2 =
      some ((q.expireIdleStates now).admissionState request.fairnessKey now).1.virtualServiceMs := by
  set state := ((q.expireIdleStates now).admissionState request.fairnessKey now).1 with hstate
  have hactive : state.activeStartedAt.entries = [] := by
    rw [hstate, admissionState]
    cases hs : (q.expireIdleStates now).states.get? request.fairnessKey with
    | none => rfl
    | some s =>
      have hnot : ¬ s.Busy := fun hb => hidle ⟨s, (get?_expireIdleStates.mp hs).1, hb⟩
      simpa [FairnessState.Busy] using (not_or.mp hnot).2
  have hok := (accept_flow (expireIdleStates_ok h now) request streamHandle now).ok
  have hget : ((q.expireIdleStates now).accept request streamHandle now).states.get? request.fairnessKey =
      some { state with
        pendingJobs := state.pendingJobs ++ [(q.expireIdleStates now).newJob request streamHandle now]
        idleSince := none } := by
    rw [accept, Dict.get?_set_self]
  rw [score_of_busy hok hget (.inl (by simp)) now]
  simp [FairnessState.score, Dict.values, hactive]

/-- **When a key enters level.**  On every reachable queue an accepted `enqueue`
that makes an idle key busy beside other busy keys brings it in at or above the
least of their scores iff the queue has forgotten the key, or forgets it now, or
remembers it with an account that some busy key is not above. -/
theorem enters_level_iff (modelName : String) (settings : FairnessSettings) (calls : List QueueCall)
    (request : ResponseRequest) (streamHandle : HandleId) (now : ℚ) (job : SchedulerJob)
    (haccepted : (((init modelName settings).run calls).enqueue request streamHandle now).2 = .ok job)
    (hidle : ¬ ((init modelName settings).run calls).KeyBusy request.fairnessKey)
    (hothers : ∃ other, ((init modelName settings).run calls).KeyBusy other) :
    let q := (init modelName settings).run calls
    (q.enqueue request streamHandle now).1.Level request.fairnessKey now ↔
      ∀ state ∈ q.states.get? request.fairnessKey, state.Expired settings now ∨ q.CaughtUp now state := by
  intro q
  have hq : q.Ok := run_ok (init_ok modelName settings) calls
  have hset : q.settings = settings := run_settings _ calls
  have hlevel : ∀ x : ℚ, (∃ least ∈ ((q.expireIdleStates now).accept request streamHandle now).leastOtherScore
      request.fairnessKey now, least ≤ x) ↔ ∃ e ∈ q.states.entries, e.2.Busy ∧ e.2.score now ≤ x := by
    intro x
    rw [exists_leastOtherScore_le]
    constructor
    · rintro ⟨other, state, hne, hs, hb, hle⟩
      exact ⟨(other, state), Dict.get?_eq_some_iff.mp ((accept_others hq hne hb).mp hs), hb, hle⟩
    · rintro ⟨e, he, hb, hle⟩
      have hs : q.states.get? e.1 = some e.2 := Dict.get?_eq_some_iff.mpr he
      have hne : e.1 ≠ request.fairnessKey := fun heq => hidle ⟨e.2, heq ▸ hs, hb⟩
      exact ⟨e.1, e.2, hne, (accept_others hq hne hb).mpr hs, hb, hle⟩
  have hscore := score_accept hq streamHandle now hidle
  rw [enqueue_accepted haccepted]
  show ((q.expireIdleStates now).accept request streamHandle now).Level request.fairnessKey now ↔ _
  simp only [Level, hscore, Option.mem_some_iff, exists_eq_left', hlevel]
  cases hs : (q.expireIdleStates now).states.get? request.fairnessKey with
  | some state =>
    obtain ⟨hold, hexpired⟩ := get?_expireIdleStates.mp hs
    simp only [admissionState, hs, hold, Option.mem_some_iff, forall_eq', CaughtUp]
    rw [hset] at hexpired
    exact (or_iff_right hexpired).symm
  | none =>
    -- a forgotten key opens at the baseline
    have hexpired : ∀ state ∈ q.states.get? request.fairnessKey, state.Expired settings now := by
      intro state hold
      by_contra hnot
      rw [← hset] at hnot
      exact absurd (hs.symm.trans (get?_expireIdleStates.mpr ⟨hold, hnot⟩)) (by simp)
    refine iff_of_true ?_ fun state hold => .inl (hexpired state hold)
    obtain ⟨busy, waiting, hw, hwb⟩ := hothers
    have hstays : (q.expireIdleStates now).states.get? busy = some waiting :=
      get?_expireIdleStates_of_busy hq hw hwb
    obtain ⟨other, state, ho, hb, hscore⟩ :=
      ((q.expireIdleStates now).baseline_cases now).resolve_right fun hnone => hnone.2 busy waiting hstays hwb
    refine ⟨(other, state), Dict.get?_eq_some_iff.mp (get?_expireIdleStates.mp ho).1, hb, ?_⟩
    simpa only [admissionState, hs, newState] using hscore.le

/-- `"a"` is served for a second and leaves; `"b"` keeps the slot for the next
ten, with a second request waiting. -/
def awayCalls : List QueueCall :=
  [⟨.enqueue ⟨"m", some "a"⟩ 1, 0⟩, ⟨.popNext, 0⟩, ⟨.complete ⟨⟨"m", some "a"⟩, 1, 0, 1, some "a"⟩ 1000, 1⟩,
    ⟨.enqueue ⟨"m", some "b"⟩ 2, 1⟩, ⟨.enqueue ⟨"m", some "b"⟩ 3, 1⟩, ⟨.popNext, 1⟩,
    ⟨.complete ⟨⟨"m", some "b"⟩, 2, 1, 2, some "b"⟩ 10000, 11⟩]

/-- A key never seen enters level with `"b"`. -/
theorem enters_level_unknown :
    (((init "m" .pair).run awayCalls).enqueue ⟨"m", some "c"⟩ 4 11).1.Level (some "c") 11 :=
  (enters_level_iff "m" .pair awayCalls ⟨"m", some "c"⟩ 4 11 ⟨⟨"m", some "c"⟩, 4, 11, 4, some "c"⟩
    (by decide +kernel) (by decide +kernel) ⟨some "b", by decide +kernel⟩).mpr (by decide +kernel)

/-- **A head start.**  The remembered `"a"` is accepted while only `"b"` is
busy, and enters below it. -/
theorem enters_ahead :
    let q := (init "m" .pair).run awayCalls
    (q.enqueue ⟨"m", some "a"⟩ 4 11).2 = .ok ⟨⟨"m", some "a"⟩, 4, 11, 4, some "a"⟩ ∧
      ¬ q.KeyBusy (some "a") ∧ q.KeyBusy (some "b") ∧
      ¬ (q.enqueue ⟨"m", some "a"⟩ 4 11).1.Level (some "a") 11 :=
  ⟨by decide +kernel, by decide +kernel, by decide +kernel, by decide +kernel⟩

end FairPendingQueue
end TtsPool
