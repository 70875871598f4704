/-
# Turns among equal scores

`pop_next` compares scores first, then whether the soft cap is reached, then the
last selections.  A key that was selected carries the number of that selection as
long as its state is retained; a key not selected since carries a lower one, or
`0` if it entered since (`Since`).  So of two keys with equal scores the one
selected before can win only by the soft cap: it is below it, and the other is
not (`Since.tie`).

Nothing here depends on what other keys do in between, and a queue with a pending
job always selects one, whatever the caps.
-/

import TtsPool.Fair.Orders
import TtsPool.Support.Run

namespace TtsPool
namespace FairPendingQueue

/-- `pop_next` selects this key. -/
def Selects (q : FairPendingQueue) (now : ℚ) (key : FairnessKey) : Prop :=
  ∃ job, (q.popNext now).2 = some job ∧ job.fairnessKey = key

/-- The key whose job a call hands out. -/
def selectedBy (q : FairPendingQueue) (c : QueueCall) : Option FairnessKey :=
  match (q.perform c).2 with
  | .popped job => job.map SchedulerJob.fairnessKey
  | _ => none

/-- The key's state is there, and does not expire in the call. -/
def KeptBy (key : FairnessKey) (q : FairPendingQueue) (c : QueueCall) : Prop :=
  ∃ state, (q.aged c).states.get? key = some state

/-- The call does not select the key. -/
def Passes (key : FairnessKey) (q : FairPendingQueue) (c : QueueCall) : Prop := q.selectedBy c ≠ some key

/-! ### The number of the last selection -/

/-- Only `pop_next` draws selection numbers. -/
theorem nextSelectionOrder_of_not_popNext (q : FairPendingQueue) {c : QueueCall} (h : c.op ≠ .popNext) :
    (q.perform c).1.nextSelectionOrder = q.nextSelectionOrder := by
  obtain ⟨op, now⟩ := c
  cases op with
  | popNext => exact absurd rfl h
  | enqueue request streamHandle =>
    simp only [perform, enqueue]
    split_ifs <;> rfl
  | remove job =>
    simp only [perform, remove]
    repeat' split
    all_goals rfl
  | complete job serviceMs =>
    simp only [perform, complete]
    repeat' split
    all_goals rfl
  | _ => rfl

theorem aged_nextSelectionOrder (q : FairPendingQueue) (c : QueueCall) :
    (q.aged c).nextSelectionOrder = q.nextSelectionOrder := by
  unfold aged
  split <;> rfl

/-- **A selection takes the next number**; the other states stay as they are. -/
theorem popNext_selection {q : FairPendingQueue} (h : q.Ok) (now : ℚ) :
    (q.popNext now).2 = none ∧ (q.popNext now).1.states = (q.expireIdleStates now).states ∧
        (q.popNext now).1.nextSelectionOrder = q.nextSelectionOrder ∨
      ∃ key state', q.Selects now key ∧ state'.lastSelectedOrder = q.nextSelectionOrder ∧
        (q.popNext now).1.states = (q.expireIdleStates now).states.set key state' ∧
        (q.popNext now).1.nextSelectionOrder = q.nextSelectionOrder + 1 := by
  have haged : (q.expireIdleStates now).Ok := aged_ok h ⟨.popNext, now⟩
  cases hsel : (q.expireIdleStates now).selected now with
  | none =>
    have heq : q.popNext now = (q.expireIdleStates now, none) := by simp only [popNext, hsel]
    rw [heq]
    exact .inl ⟨rfl, rfl, rfl⟩
  | some found =>
    obtain ⟨key, state⟩ := found
    obtain ⟨hs, hpending, -⟩ := selected_spec hsel
    obtain ⟨job, rest, hp⟩ := List.exists_cons_of_ne_nil hpending
    have heq : q.popNext now = ((q.expireIdleStates now).dispatch key state job rest now, some job) := by
      simp only [popNext, hsel, hp]
    have hown : job.fairnessKey = key := (haged.states key state hs).own job (hp ▸ List.mem_cons_self)
    rw [heq]
    exact .inr ⟨key, _, ⟨job, by rw [heq], hown⟩, by rfl, rfl, rfl⟩

/-- **What a call does to the last selection of a key**: it stays, or the key is
new, or the call selects it. -/
theorem selection_cases {q : FairPendingQueue} (h : q.Ok) (c : QueueCall) {key : FairnessKey}
    {state' : FairnessState} (hs : (q.perform c).1.states.get? key = some state') :
    (∃ state, (q.aged c).states.get? key = some state ∧
        state'.lastSelectedOrder = state.lastSelectedOrder) ∨
      ((q.aged c).states.get? key = none ∧ state'.lastSelectedOrder = 0) ∨
      (q.selectedBy c = some key ∧ state'.lastSelectedOrder = q.nextSelectionOrder) := by
  by_cases hop : c.op = .popNext
  · obtain ⟨op, now⟩ := c
    obtain rfl : op = .popNext := hop
    rcases popNext_selection h now with ⟨-, hstates, -⟩ | ⟨other, state, ⟨job, hreply, rfl⟩, horder, hstates, -⟩
    · exact .inl ⟨state', hstates ▸ hs, rfl⟩
    · rw [show (q.perform ⟨.popNext, now⟩).1 = (q.popNext now).1 from rfl, hstates] at hs
      by_cases hkey : key = job.fairnessKey
      · rw [hkey, Dict.get?_set_self, Option.some.injEq] at hs
        refine .inr (.inr ⟨?_, hs ▸ horder⟩)
        simp [selectedBy, perform, hreply, hkey]
      · rw [Dict.get?_set_of_ne _ hkey] at hs
        exact .inl ⟨state', hs, rfl⟩
  · have hnext := (nextSelectionOrder_of_not_popNext q hop).trans (aged_nextSelectionOrder q c).symm
    cases perform_reorders h c with
    | kept hkeeps =>
      obtain ⟨state, hold, hsame⟩ := hkeeps key state' hs
      exact .inl ⟨state, hold, hsame.selection⟩
    | entered other state hkeeps hnew hs' horder hzero =>
      by_cases hkey : key = other
      · subst hkey
        rw [Option.some.inj (hs.symm.trans hs')]
        exact .inr (.inl ⟨hnew, hzero⟩)
      · obtain ⟨state, hold, hsame⟩ := hkeeps key hkey state' hs
        exact .inl ⟨state, hold, hsame.selection⟩
    | selected _ _ _ _ _ _ _ _ _ hselection => omega

/-- What is there after a call's expiry is there after the call. -/
theorem get?_perform_of_kept {q : FairPendingQueue} (h : q.Ok) {c : QueueCall} {key : FairnessKey}
    (hkept : KeptBy key q c) : ∃ state', (q.perform c).1.states.get? key = some state' := by
  obtain ⟨state, hs⟩ := hkept
  by_cases hdrain : c.op = .drain
  · obtain ⟨op, now⟩ := c
    obtain rfl : op = .drain := hdrain
    have hthere : q.states.get? key = some state := hs
    refine ⟨{ state with pendingJobs := [] }.markIdleIfNeeded now, ?_⟩
    simp only [perform, drain, Dict.get?_mapValues, hthere, Option.map_some]
  · rcases perform_change h c hdrain with heq | ⟨other, state', heq, -⟩
    · exact ⟨state, heq ▸ hs⟩
    · rw [heq]
      by_cases hkey : key = other
      · exact ⟨state', by rw [hkey, Dict.get?_set_self]⟩
      · exact ⟨state, by rw [Dict.get?_set_of_ne _ hkey, hs]⟩

/-- Selection numbers are not drawn twice. -/
theorem nextSelectionOrder_le {q : FairPendingQueue} (h : q.Ok) (c : QueueCall) :
    q.nextSelectionOrder ≤ (q.perform c).1.nextSelectionOrder := by
  by_cases hop : c.op = .popNext
  · obtain ⟨op, now⟩ := c
    obtain rfl : op = .popNext := hop
    show q.nextSelectionOrder ≤ (q.popNext now).1.nextSelectionOrder
    rcases popNext_selection h now with ⟨-, -, heq⟩ | ⟨-, -, -, -, -, heq⟩ <;> omega
  · exact (nextSelectionOrder_of_not_popNext q hop).ge

/-! ### Selected before, not selected since -/

/-- `key` was selected with number `n` or later and is retained; `other` carries a
lower number, if it is there at all. -/
structure Since (q : FairPendingQueue) (key other : FairnessKey) (n : ℕ) : Prop where
  ok : q.Ok
  recent : ∃ state, q.states.get? key = some state ∧ n ≤ state.lastSelectedOrder
  older : ∀ state, q.states.get? other = some state → state.lastSelectedOrder < n
  drawn : n ≤ q.nextSelectionOrder
  positive : 0 < n

variable {q : FairPendingQueue} {key other : FairnessKey} {n : ℕ}

/-- It begins with the selection. -/
theorem Since.start (h : q.Ok) (hordered : q.Ordered) (hpos : 0 < q.nextSelectionOrder) {now : ℚ}
    (hselects : q.Selects now key) (hne : other ≠ key) :
    (q.popNext now).1.Since key other q.nextSelectionOrder := by
  obtain ⟨job, hreply, rfl⟩ := hselects
  rcases popNext_selection h now with ⟨hnone, -⟩ | ⟨_, state', ⟨_, hreply', rfl⟩, horder, hstates, hnext⟩
  · rw [hreply] at hnone
    cases hnone
  · obtain rfl : job = _ := Option.some.inj (hreply.symm.trans hreply')
    refine ⟨perform_ok h ⟨.popNext, now⟩, ⟨state', by rw [hstates, Dict.get?_set_self], horder.ge⟩,
      fun state hs => ?_, by omega, hpos⟩
    rw [hstates, Dict.get?_set_of_ne _ hne] at hs
    by_cases hzero : state.lastSelectedOrder = 0
    · omega
    · exact hordered.selection.lt ⟨hzero, state, (get?_expireIdleStates.mp hs).1, rfl⟩

/-- **A call that keeps the one and passes the other by** changes nothing about
it. -/
theorem Since.step (h : q.Since key other n) {c : QueueCall} (hkept : KeptBy key q c)
    (hpasses : Passes other q c) : (q.perform c).1.Since key other n where
  ok := perform_ok h.ok c
  recent := by
    obtain ⟨state, hs, hn⟩ := h.recent
    obtain ⟨state', hs'⟩ := get?_perform_of_kept h.ok hkept
    refine ⟨state', hs', ?_⟩
    obtain ⟨aged, haged⟩ := hkept
    obtain rfl : aged = state := Option.some.inj ((get?_of_get?_aged haged).symm.trans hs)
    rcases selection_cases h.ok c hs' with ⟨old, hold, heq⟩ | ⟨hnew, -⟩ | ⟨-, heq⟩
    · rw [heq, Option.some.inj (hold.symm.trans haged)]
      exact hn
    · rw [haged] at hnew
      cases hnew
    · rw [heq]
      exact h.drawn
  older := fun state hs => by
    rcases selection_cases h.ok c hs with ⟨old, hold, heq⟩ | ⟨-, heq⟩ | ⟨hselected, -⟩
    · rw [heq]
      exact h.older old (get?_of_get?_aged hold)
    · rw [heq]
      exact h.positive
    · exact absurd hselected hpasses
  drawn := h.drawn.trans (nextSelectionOrder_le h.ok c)
  positive := h.positive

theorem Since.steps (h : q.Since key other n) {calls : List QueueCall}
    (halong : Run.Along (fun q c => (perform q c).1) (fun q c => KeptBy key q c ∧ Passes other q c) q calls) :
    (q.run calls).Since key other n :=
  Run.Along.foldl_of (I := fun q => q.Since key other n) halong h fun _ _ hsince hstep =>
    hsince.step hstep.1 hstep.2

/-- **The tie goes by the soft cap.** -/
theorem Since.tie (h : q.Since key other n) {now : ℚ} (hselects : q.Selects now key)
    {state otherState : FairnessState} (hs : q.states.get? key = some state)
    (hs' : q.states.get? other = some otherState) (hpending : otherState.pendingJobs ≠ [])
    (hscore : otherState.score now = state.score now) :
    state.activeStartedAt.size < q.settings.softMaxInflightPerKey ∧
      q.settings.softMaxInflightPerKey ≤ otherState.activeStartedAt.size := by
  obtain ⟨job, hreply, rfl⟩ := hselects
  obtain ⟨selected, -, hselected, -, -, hleast, -⟩ := popNext_started h.ok hreply
  obtain rfl : selected = state := Option.some.inj ((get?_expireIdleStates.mp hselected).1.symm.trans hs)
  have hle := hleast other otherState (get?_expireIdleStates_of_busy h.ok hs' (.inl hpending)) hpending
  obtain ⟨recent, hrecent, hn⟩ := h.recent
  obtain rfl : recent = selected := Option.some.inj (hrecent.symm.trans hs)
  have holder := h.older otherState hs'
  simp only [FairnessState.selectionRank, Prod.Lex.toLex_le_toLex, hscore, lt_irrefl, true_and, false_or] at hle
  -- by its last selection the other comes first, so the soft cap decides
  rcases hle with hcap | ⟨-, hlast | ⟨hlast, -⟩⟩
  · rw [Bool.lt_iff] at hcap
    simpa using hcap
  · omega
  · omega

/-! ### Round-robin -/

theorem nextSelectionOrder_pos (modelName : String) (settings : FairnessSettings) (calls : List QueueCall) :
    0 < ((init modelName settings).run calls).nextSelectionOrder := by
  induction calls using List.reverseRecOn with
  | nil => exact Nat.one_pos
  | append_singleton calls c ih =>
    have hok : ((init modelName settings).run calls).Ok := run_ok (init_ok modelName settings) calls
    rw [run, List.foldl_append]
    exact ih.trans_le (nextSelectionOrder_le hok c)

/-- **Round-robin among equal scores.**  Take two calls of `pop_next` that select
`key`, in a run in which its state is retained between them, and another key that
waits with an equal score at the second.  If that was not selected in between, then
`key` is below the soft cap and the other is not; so if both stand alike to the soft
cap, the other was selected in between.  And whenever a job is pending one is
selected, whoever is at the cap. -/
theorem equal_scores_rotate (modelName : String) (settings : FairnessSettings) (before between : List QueueCall)
    (now₁ now₂ : ℚ) (key other : FairnessKey) :
    let q₀ := (init modelName settings).run before
    let q₁ := (q₀.popNext now₁).1
    let q₂ := q₁.run between
    (q₀.Selects now₁ key → Run.Along (fun q c => (perform q c).1) (KeptBy key) q₁ between → q₂.Selects now₂ key →
      other ≠ key → ∀ state otherState, q₂.states.get? key = some state → q₂.states.get? other = some otherState →
      otherState.pendingJobs ≠ [] → otherState.score now₂ = state.score now₂ →
      (Run.Along (fun q c => (perform q c).1) (Passes other) q₁ between →
        state.activeStartedAt.size < settings.softMaxInflightPerKey ∧
          settings.softMaxInflightPerKey ≤ otherState.activeStartedAt.size) ∧
      ((settings.softMaxInflightPerKey ≤ state.activeStartedAt.size ↔
          settings.softMaxInflightPerKey ≤ otherState.activeStartedAt.size) →
        ∃ pre c post, between = pre ++ c :: post ∧ (q₁.run pre).selectedBy c = some other)) ∧
    ∀ now, (∃ waiting state, q₀.states.get? waiting = some state ∧ state.pendingJobs ≠ []) →
      ∃ chosen, q₀.Selects now chosen := by
  intro q₀ q₁ q₂
  have hok : q₀.Ok := run_ok (init_ok modelName settings) before
  refine ⟨fun hfirst hkept hsecond hne state otherState hs hs' hpending hscore => ?_, fun now hwaiting => ?_⟩
  · have hsince : q₁.Since key other q₀.nextSelectionOrder :=
      .start hok (run_ordered (init_ok modelName settings) (init_ordered modelName settings) before)
        (nextSelectionOrder_pos modelName settings before) hfirst hne
    have hsettings : q₂.settings = settings := by
      show ((q₀.perform ⟨.popNext, now₁⟩).1.run between).settings = settings
      rw [run_settings, perform_settings, run_settings]
      rfl
    have htie : Run.Along (fun q c => (perform q c).1) (Passes other) q₁ between →
        state.activeStartedAt.size < settings.softMaxInflightPerKey ∧
          settings.softMaxInflightPerKey ≤ otherState.activeStartedAt.size := by
      intro hpasses
      rw [← hsettings]
      exact (hsince.steps (hkept.and hpasses)).tie hsecond hs hs' hpending hscore
    refine ⟨htie, fun hsame => ?_⟩
    by_contra hnever
    have hpasses : Run.Along (fun q c => (perform q c).1) (Passes other) q₁ between :=
      Run.along_iff.mpr fun pre c post hsplit hselected => hnever ⟨pre, c, post, hsplit, hselected⟩
    obtain ⟨hbelow, habove⟩ := htie hpasses
    exact absurd (hsame.mpr habove) (not_le.mpr hbelow)
  · obtain ⟨waiting, state, hs, hpending⟩ := hwaiting
    cases hreply : (q₀.popNext now).2 with
    | some job => exact ⟨job.fairnessKey, job, hreply, rfl⟩
    | none =>
      have hthere : (q₀.expireIdleStates now).states.get? waiting = some state :=
        get?_expireIdleStates_of_busy hok hs (.inl hpending)
      rw [popNext_reply] at hreply
      cases hsel : (q₀.expireIdleStates now).selected now with
      | none =>
        have hnil := List.argmin_eq_none.mp hsel
        have hmem : (waiting, state) ∈ (q₀.expireIdleStates now).candidates :=
          List.mem_filter.mpr ⟨Dict.get?_eq_some_iff.mp hthere, by simpa using hpending⟩
        rw [hnil] at hmem
        cases hmem
      | some found =>
        rw [hsel, Option.bind_some, List.head?_eq_none_iff] at hreply
        exact absurd hreply (selected_spec hsel).2.1

end FairPendingQueue
end TtsPool
