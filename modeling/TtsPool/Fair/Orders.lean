/-
# The representation invariant, and the three counters

Every job, every key state and every selection takes its number from a counter
of its own.  The job numbers are those of the admitted jobs, so
`TtsPool.Fair.Conservation` already has them: what is pending or active was
admitted, once.  `Ordered` is the invariant for the other two.  Per call at most
one key takes a number (`Reorders`): a key that enters takes the next
activation, a key that is selected takes the next selection, and all other keys
keep theirs.

Two retained keys never share an activation, and `pop_next` compares activations
last, so the least rank belongs to one key only and the order of the dictionary
does not decide (`popNext_reordering`).  `run_represented` puts this beside the
counts and the idle marks of `Ok`.
-/

import TtsPool.Fair.Admission
import TtsPool.Fair.Conservation

namespace TtsPool

section Drawn

variable {κ : Type*}

/-- Numbers drawn from a counter: no two holders have the same one, and the
counter is past all of them. -/
structure Drawn (holds : κ → ℕ → Prop) (next : ℕ) : Prop where
  lt : ∀ {k n}, holds k n → n < next
  unique : ∀ {k l n}, holds k n → holds l n → k = l

variable {holds holds' : κ → ℕ → Prop} {next : ℕ}

/-- Giving numbers up. -/
theorem Drawn.sub (h : Drawn holds next) (hsub : ∀ k n, holds' k n → holds k n) : Drawn holds' next :=
  ⟨fun hk => h.lt (hsub _ _ hk), fun hk hl => h.unique (hsub _ _ hk) (hsub _ _ hl)⟩

/-- **A number drawn is new.** -/
theorem Drawn.draw (h : Drawn holds next) (key : κ)
    (hsub : ∀ k n, holds' k n → holds k n ∨ k = key ∧ n = next) : Drawn holds' (next + 1) where
  lt := fun hk => by
    rcases hsub _ _ hk with hk | ⟨-, rfl⟩
    · exact (h.lt hk).trans (Nat.lt_succ_self _)
    · exact Nat.lt_succ_self _
  unique := fun hk hl => by
    rcases hsub _ _ hk with hk | ⟨rfl, rfl⟩ <;> rcases hsub _ _ hl with hl | ⟨rfl, hn⟩
    · exact h.unique hk hl
    · exact absurd (hn ▸ h.lt hk) (lt_irrefl _)
    · exact absurd (h.lt hl) (lt_irrefl _)
    · rfl

end Drawn

/-- The methods that forget the expired keys before they do anything else. -/
def QueueOp.expires : QueueOp → Bool
  | .enqueue .. | .popNext | .score _ | .snapshots => true
  | .remove _ | .complete .. | .abandon _ | .drain => false

namespace FairnessState

/-- The numbers drawn for the state agree. -/
structure SameOrders (state state' : FairnessState) : Prop where
  activation : state'.activationOrder = state.activationOrder
  selection : state'.lastSelectedOrder = state.lastSelectedOrder

theorem SameOrders.refl (state : FairnessState) : state.SameOrders state := ⟨rfl, rfl⟩

theorem SameOrders.markIdleIfNeeded {state state' : FairnessState} (h : state.SameOrders state') (now : ℚ) :
    state.SameOrders (state'.markIdleIfNeeded now) := by
  unfold FairnessState.markIdleIfNeeded
  split_ifs
  · exact h
  · exact ⟨h.activation, h.selection⟩

end FairnessState

namespace FairPendingQueue

/-- The ids of all pending and of all active jobs. -/
def jobIds (q : FairPendingQueue) : Multiset ℕ := (q.pendingTickets + q.activeTickets).map Prod.snd

/-- The retained key carries this activation. -/
def Activation (q : FairPendingQueue) (key : FairnessKey) (n : ℕ) : Prop :=
  ∃ state, q.states.get? key = some state ∧ state.activationOrder = n

/-- The retained key was last selected with this number; `0` says it has not been
selected yet. -/
def Selection (q : FairPendingQueue) (key : FairnessKey) (n : ℕ) : Prop :=
  n ≠ 0 ∧ ∃ state, q.states.get? key = some state ∧ state.lastSelectedOrder = n

/-- The numbers of the retained keys were drawn from the counters, once each. -/
structure Ordered (q : FairPendingQueue) : Prop where
  activation : Drawn q.Activation q.nextActivationOrder
  selection : Drawn q.Selection q.nextSelectionOrder

/-- The same queue with its states in another dictionary order. -/
structure Reordering (q q' : FairPendingQueue) : Prop where
  rest : q' = { q with states := q'.states }
  perm : q'.states.entries.Perm q.states.entries

/-- The representation invariant, as a reader of the queue relies on it. -/
structure Represented (q : FairPendingQueue) : Prop where
  count : q.pendingCount = ((q.states.values.map fun state => state.pendingJobs.length).sum : ℕ)
  idle : ∀ key state, q.states.get? key = some state → (state.idleSince = none ↔ state.Busy)
  kept : ∀ now key state, q.states.get? key = some state → state.Busy →
    (q.expireIdleStates now).states.get? key = some state
  jobIds_nodup : q.jobIds.Nodup
  jobIds_lt : ∀ id ∈ q.jobIds, id < q.nextJobId
  ordered : q.Ordered
  least_unique : ∀ now key state key' state', q.states.get? key = some state → q.states.get? key' = some state' →
    state.selectionRank q.settings now = state'.selectionRank q.settings now → key = key'
  order_free : ∀ q' now, q.Reordering q' → (q'.popNext now).2 = (q.popNext now).2

/-! ### One call draws at most one number -/

/-- What stands under the key after a call stood there before it, with the same
numbers. -/
def Keeps (q q' : FairPendingQueue) (key : FairnessKey) : Prop :=
  ∀ state', q'.states.get? key = some state' → ∃ state, q.states.get? key = some state ∧ state.SameOrders state'

/-- How a call that works on `q` draws numbers. -/
inductive Reorders (q q' : FairPendingQueue) : Prop
  | kept (hkeeps : ∀ key, q.Keeps q' key) (hactivation : q'.nextActivationOrder = q.nextActivationOrder)
      (hselection : q'.nextSelectionOrder = q.nextSelectionOrder)
  | entered (key : FairnessKey) (state' : FairnessState) (hkeeps : ∀ other, other ≠ key → q.Keeps q' other)
      (hnew : q.states.get? key = none) (hs : q'.states.get? key = some state')
      (horder : state'.activationOrder = q.nextActivationOrder) (hzero : state'.lastSelectedOrder = 0)
      (hactivation : q'.nextActivationOrder = q.nextActivationOrder + 1)
      (hselection : q'.nextSelectionOrder = q.nextSelectionOrder)
  | selected (key : FairnessKey) (state state' : FairnessState)
      (hkeeps : ∀ other, other ≠ key → q.Keeps q' other)
      (hold : q.states.get? key = some state) (hs : q'.states.get? key = some state')
      (hsame : state'.activationOrder = state.activationOrder)
      (horder : state'.lastSelectedOrder = q.nextSelectionOrder)
      (hactivation : q'.nextActivationOrder = q.nextActivationOrder)
      (hselection : q'.nextSelectionOrder = q.nextSelectionOrder + 1)

theorem Keeps.of_get?_eq {q q' : FairPendingQueue} {key : FairnessKey}
    (h : q'.states.get? key = q.states.get? key) : q.Keeps q' key :=
  fun state' hs => ⟨state', h ▸ hs, .refl state'⟩

/-- A key whose state is replaced by one with the same numbers. -/
theorem Keeps.of_set {q q' : FairPendingQueue} {key : FairnessKey} {state state' : FairnessState}
    (hs : q.states.get? key = some state) (hstates : q'.states = q.states.set key state')
    (hsame : state.SameOrders state') (other : FairnessKey) : q.Keeps q' other := by
  by_cases ho : other = key
  · subst ho
    intro s' hs'
    rw [hstates, Dict.get?_set_self, Option.some.injEq] at hs'
    exact ⟨state, hs, hs' ▸ hsame⟩
  · exact .of_get?_eq (by rw [hstates, Dict.get?_set_of_ne _ ho])

theorem Refuses.keeps {q q' : FairPendingQueue} {key : FairnessKey} {perKey executor : ℕ}
    (h : q.Refuses key perKey executor q') (other : FairnessKey) : q.Keeps q' other := by
  by_cases ho : other = key
  · subst ho
    intro state' hs
    rw [h.own, Option.map_eq_some_iff] at hs
    obtain ⟨state, hs, rfl⟩ := hs
    exact ⟨state, hs, rfl, rfl⟩
  · exact .of_get?_eq (h.others other ho)

theorem Refuses.reorders {q q' : FairPendingQueue} {key : FairnessKey} {perKey executor : ℕ}
    (h : q.Refuses key perKey executor q') : q.Reorders q' :=
  .kept h.keeps (by rw [h.rest]) (by rw [h.rest])

theorem accept_reorders (q : FairPendingQueue) (request : ResponseRequest) (streamHandle : HandleId) (now : ℚ) :
    q.Reorders (q.accept request streamHandle now) := by
  have hadmits := accept_admits q request streamHandle now
  cases hs : q.states.get? request.fairnessKey with
  | some state =>
    refine .kept (fun key => ?_) (by simp [accept, admissionState, hs]) rfl
    by_cases hk : key = request.fairnessKey
    · subst hk
      intro state' hs'
      have hown := hadmits.own state hs
      obtain rfl := Option.some.inj (hs'.symm.trans hown)
      exact ⟨state, hs, rfl, rfl⟩
    · exact .of_get?_eq (hadmits.others key hk)
  | none =>
    refine .entered request.fairnessKey
      { q.newState request.fairnessKey now with pendingJobs := [q.newJob request streamHandle now] }
      (fun other ho => .of_get?_eq (hadmits.others other ho)) hs ?_ rfl rfl ?_ rfl
    · rw [accept, Dict.get?_set_self]
      simp [admissionState, hs, newState]
    · simp [accept, admissionState, hs]

theorem popNext_reorders (q : FairPendingQueue) (now : ℚ) :
    (q.expireIdleStates now).Reorders (q.popNext now).1 := by
  unfold popNext
  simp only
  cases hsel : (q.expireIdleStates now).selected now with
  | none => exact .kept (fun key => .of_get?_eq rfl) rfl rfl
  | some found =>
    obtain ⟨key, state⟩ := found
    obtain ⟨hs, -, -⟩ := selected_spec hsel
    simp only
    cases hp : state.pendingJobs with
    | nil => exact .kept (fun key => .of_get?_eq rfl) rfl rfl
    | cons job rest =>
      refine .selected key state _ (fun other ho => .of_get?_eq ?_) hs (Dict.get?_set_self ..) rfl rfl rfl rfl
      exact Dict.get?_set_of_ne _ ho _

/-- **One call, at most one number.** -/
theorem perform_reorders {q : FairPendingQueue} (h : q.Ok) (c : QueueCall) :
    (q.aged c).Reorders (q.perform c).1 := by
  obtain ⟨op, now⟩ := c
  cases op with
  | enqueue request streamHandle =>
    rcases enqueue_cases h request streamHandle now with ⟨-, heq⟩ | ⟨-, -, heq⟩ | ⟨-, heq⟩
    · simpa only [perform, aged, heq] using
        (rejectPerKey_refuses (q.expireIdleStates now) request.fairnessKey).reorders
    · simpa only [perform, aged, heq] using
        (rejectExecutor_refuses (q.expireIdleStates now) request.fairnessKey).reorders
    · simpa only [perform, aged, heq] using accept_reorders (q.expireIdleStates now) request streamHandle now
  | remove job =>
    simp only [perform, remove, aged]
    cases hs : q.states.get? job.fairnessKey with
    | none => exact .kept (fun key => .of_get?_eq rfl) rfl rfl
    | some state =>
      simp only
      cases state.pendingJobs.find? fun candidate => candidate.jobId = job.jobId with
      | none => exact .kept (fun key => .of_get?_eq rfl) rfl rfl
      | some found =>
        refine .kept (Keeps.of_set hs rfl ?_) rfl rfl
        refine FairnessState.SameOrders.markIdleIfNeeded ?_ now
        exact ⟨rfl, rfl⟩
  | popNext => exact popNext_reorders q now
  | complete job serviceMs =>
    simp only [perform, complete, aged]
    cases hs : q.states.get? job.fairnessKey with
    | none => exact .kept (fun key => .of_get?_eq rfl) rfl rfl
    | some state =>
      simp only
      cases state.activeStartedAt.get? job.jobId with
      | none => exact .kept (fun key => .of_get?_eq rfl) rfl rfl
      | some startedAt =>
        refine .kept (Keeps.of_set hs rfl ?_) rfl rfl
        refine FairnessState.SameOrders.markIdleIfNeeded ?_ now
        exact ⟨rfl, rfl⟩
  | abandon job =>
    refine .kept (fun key => ?_) rfl rfl
    cases hs : q.states.get? job.fairnessKey with
    | none =>
      refine .of_get?_eq ?_
      simp [perform, abandon, aged, Dict.modify_of_get?_eq_none hs]
    | some state =>
      refine Keeps.of_set hs (Dict.modify_of_get?_eq_some hs _) ?_ key
      refine FairnessState.SameOrders.markIdleIfNeeded ?_ now
      exact ⟨rfl, rfl⟩
  | drain =>
    refine .kept (fun key state' hs => ?_) rfl rfl
    simp only [perform, drain, Dict.get?_mapValues, Option.map_eq_some_iff] at hs
    obtain ⟨state, hs, rfl⟩ := hs
    refine ⟨state, hs, FairnessState.SameOrders.markIdleIfNeeded ?_ now⟩
    exact ⟨rfl, rfl⟩
  | score key => exact .kept (fun key => .of_get?_eq rfl) rfl rfl
  | snapshots => exact .kept (fun key => .of_get?_eq rfl) rfl rfl

/-! ### No number is drawn twice -/

theorem init_ordered (modelName : String) (settings : FairnessSettings) : (init modelName settings).Ordered := by
  refine ⟨⟨?_, ?_⟩, ⟨?_, ?_⟩⟩ <;> simp [init, Activation, Selection]

/-- Forgetting keys leaves the numbers of the others alone. -/
theorem Ordered.aged {q : FairPendingQueue} (h : q.Ordered) (c : QueueCall) : (q.aged c).Ordered := by
  have hactivation : (q.aged c).nextActivationOrder = q.nextActivationOrder := by
    unfold FairPendingQueue.aged
    split <;> rfl
  have hselection : (q.aged c).nextSelectionOrder = q.nextSelectionOrder := by
    unfold FairPendingQueue.aged
    split <;> rfl
  constructor
  · rw [hactivation]
    refine h.activation.sub fun key n => ?_
    rintro ⟨state, hs, hn⟩
    exact ⟨state, get?_of_get?_aged hs, hn⟩
  · rw [hselection]
    refine h.selection.sub fun key n => ?_
    rintro ⟨hne, state, hs, hn⟩
    exact ⟨hne, state, get?_of_get?_aged hs, hn⟩

theorem Keeps.activation {q q' : FairPendingQueue} {key : FairnessKey} (h : q.Keeps q' key) {n : ℕ}
    (ha : q'.Activation key n) : q.Activation key n := by
  obtain ⟨state', hs', rfl⟩ := ha
  obtain ⟨state, hs, hsame⟩ := h state' hs'
  exact ⟨state, hs, hsame.activation.symm⟩

theorem Keeps.selection {q q' : FairPendingQueue} {key : FairnessKey} (h : q.Keeps q' key) {n : ℕ}
    (ha : q'.Selection key n) : q.Selection key n := by
  obtain ⟨hne, state', hs', rfl⟩ := ha
  obtain ⟨state, hs, hsame⟩ := h state' hs'
  exact ⟨hne, state, hs, hsame.selection.symm⟩

/-- A call that draws at most one number keeps all of them apart. -/
theorem Ordered.reorders {q q' : FairPendingQueue} (h : q.Ordered) (hr : q.Reorders q') : q'.Ordered := by
  cases hr with
  | kept hkeeps hactivation hselection =>
    constructor
    · rw [hactivation]
      exact h.activation.sub fun key n => (hkeeps key).activation
    · rw [hselection]
      exact h.selection.sub fun key n => (hkeeps key).selection
  | entered key state' hkeeps hnew hs horder hzero hactivation hselection =>
    constructor
    · rw [hactivation]
      refine h.activation.draw key fun other n ha => ?_
      by_cases ho : other = key
      · obtain ⟨s, hs', rfl⟩ := ha
        obtain rfl := Option.some.inj (hs.symm.trans (ho ▸ hs'))
        exact .inr ⟨ho, horder⟩
      · exact .inl ((hkeeps other ho).activation ha)
    · rw [hselection]
      refine h.selection.sub fun other n ha => ?_
      by_cases ho : other = key
      · obtain ⟨hne, s, hs', rfl⟩ := ha
        obtain rfl := Option.some.inj (hs.symm.trans (ho ▸ hs'))
        exact absurd hzero hne
      · exact (hkeeps other ho).selection ha
  | selected key state state' hkeeps hold hs hsame horder hactivation hselection =>
    constructor
    · rw [hactivation]
      refine h.activation.sub fun other n ha => ?_
      by_cases ho : other = key
      · obtain ⟨s, hs', rfl⟩ := ha
        obtain rfl := Option.some.inj (hs.symm.trans (ho ▸ hs'))
        exact ⟨state, ho ▸ hold, hsame.symm⟩
      · exact (hkeeps other ho).activation ha
    · rw [hselection]
      refine h.selection.draw key fun other n ha => ?_
      by_cases ho : other = key
      · obtain ⟨hne, s, hs', rfl⟩ := ha
        obtain rfl := Option.some.inj (hs.symm.trans (ho ▸ hs'))
        exact .inr ⟨ho, horder⟩
      · exact .inl ((hkeeps other ho).selection ha)

theorem run_ordered {q : FairPendingQueue} (h : q.Ok) (ho : q.Ordered) (calls : List QueueCall) :
    (q.run calls).Ordered := by
  induction calls generalizing q with
  | nil => exact ho
  | cons c calls ih => exact ih (perform_ok h c) ((ho.aged c).reorders (perform_reorders h c))

/-! ### The least rank is one key's -/

/-- Ranks end in activations, so no two keys have the same. -/
theorem Ordered.selectionRank_inj {q : FairPendingQueue} (h : q.Ordered) {now : ℚ}
    {key key' : FairnessKey} {state state' : FairnessState} (hs : q.states.get? key = some state)
    (hs' : q.states.get? key' = some state')
    (heq : state.selectionRank q.settings now = state'.selectionRank q.settings now) : key = key' := by
  have hrank : state.activationOrder = state'.activationOrder := by
    simp only [FairnessState.selectionRank, EmbeddingLike.apply_eq_iff_eq, Prod.mk.injEq] at heq
    exact heq.2.2.2
  exact h.activation.unique ⟨state, hs, rfl⟩ ⟨state', hs', hrank.symm⟩

/-- What `pop_next` answers with: the oldest job of the selected key. -/
theorem popNext_reply (q : FairPendingQueue) (now : ℚ) :
    (q.popNext now).2 = ((q.expireIdleStates now).selected now).bind fun e => e.2.pendingJobs.head? := by
  unfold popNext
  simp only
  cases (q.expireIdleStates now).selected now with
  | none => rfl
  | some found =>
    obtain ⟨key, state⟩ := found
    simp only [Option.bind_some]
    cases state.pendingJobs with
    | nil => rfl
    | cons job rest => rfl

theorem Reordering.get? {q q' : FairPendingQueue} (h : q.Reordering q') (key : FairnessKey)
    (state : FairnessState) : q'.states.get? key = some state ↔ q.states.get? key = some state := by
  rw [Dict.get?_eq_some_iff, Dict.get?_eq_some_iff, h.perm.mem_iff]

theorem Reordering.settings {q q' : FairPendingQueue} (h : q.Reordering q') : q'.settings = q.settings := by
  rw [h.rest]

theorem Reordering.expireIdleStates {q q' : FairPendingQueue} (h : q.Reordering q') (now : ℚ) :
    (q.expireIdleStates now).Reordering (q'.expireIdleStates now) where
  rest := by
    unfold FairPendingQueue.expireIdleStates
    rw [h.rest]
  perm := by
    simp only [FairPendingQueue.expireIdleStates, Dict.filter, h.settings]
    exact h.perm.filter _

/-- **The dictionary order does not decide.**  Where no two keys share an
activation, the selected key is the one of least rank, whatever comes first. -/
theorem Ordered.selected_eq {q q' : FairPendingQueue} (ho : q.Ordered) (h : q.Reordering q') (now : ℚ) :
    q'.selected now = q.selected now := by
  have hcandidates : q'.candidates.Perm q.candidates := h.perm.filter _
  cases hsel : q.selected now with
  | none =>
    have hnil : q.candidates = [] := List.argmin_eq_none.mp hsel
    rw [hnil, List.perm_nil] at hcandidates
    exact List.argmin_eq_none.mpr hcandidates
  | some e =>
    obtain ⟨key, state⟩ := e
    cases hsel' : q'.selected now with
    | none =>
      have hnil : q'.candidates = [] := List.argmin_eq_none.mp hsel'
      rw [hnil, List.nil_perm] at hcandidates
      have hmem : (key, state) ∈ q.candidates := List.argmin_mem hsel
      simp [hcandidates] at hmem
    | some e' =>
      obtain ⟨key', state'⟩ := e'
      obtain ⟨hs, hp, hleast⟩ := selected_spec hsel
      obtain ⟨hs', hp', hleast'⟩ := selected_spec hsel'
      rw [h.get?] at hs'
      have hle := hleast key' state' hs' hp'
      have hge := hleast' key state ((h.get? key state).mpr hs) hp
      rw [h.settings] at hge
      obtain rfl := ho.selectionRank_inj hs hs' (le_antisymm hle hge)
      rw [Option.some.inj (hs.symm.trans hs')]

/-! ### The whole invariant -/

/-- What the expiring methods leave idle has been idle for less than the time to
live. -/
theorem perform_retained {q : FairPendingQueue} (h : q.Ok) (c : QueueCall) (hop : c.op.expires = true)
    {key : FairnessKey} {state : FairnessState} (hs : (q.perform c).1.states.get? key = some state)
    {since : ℚ} (hidle : state.idleSince = some since) : c.now - since < q.settings.idleStateTtlS := by
  obtain ⟨op, now⟩ := c
  have haged : ∀ {s : FairnessState}, (q.expireIdleStates now).states.get? key = some s →
      s.idleSince = some since → now - since < q.settings.idleStateTtlS := by
    intro s hs hidle
    have hnot := (get?_expireIdleStates.mp hs).2
    exact not_le.mp fun hle => hnot ⟨since, hidle, hle⟩
  cases op with
  | enqueue request streamHandle =>
    simp only [perform] at hs
    have hrefused : ∀ {perKey executor : ℕ} {q'},
        (q.expireIdleStates now).Refuses request.fairnessKey perKey executor q' →
        q'.states.get? key = some state → now - since < q.settings.idleStateTtlS := by
      intro perKey executor q' hr hs'
      by_cases hk : key = request.fairnessKey
      · subst hk
        rw [hr.own, Option.map_eq_some_iff] at hs'
        obtain ⟨s, hs', rfl⟩ := hs'
        exact haged hs' hidle
      · exact haged (hr.others key hk ▸ hs') hidle
    rcases enqueue_cases h request streamHandle now with ⟨-, heq⟩ | ⟨-, -, heq⟩ | ⟨-, heq⟩ <;> rw [heq] at hs
    · exact hrefused (rejectPerKey_refuses _ _) hs
    · exact hrefused (rejectExecutor_refuses _ _) hs
    · by_cases hk : key = request.fairnessKey
      · subst hk
        rw [accept, Dict.get?_set_self, Option.some.injEq] at hs
        simp [← hs] at hidle
      · exact haged ((accept_admits _ request streamHandle now).others key hk ▸ hs) hidle
  | popNext =>
    simp only [perform, popNext] at hs
    cases hsel : (q.expireIdleStates now).selected now with
    | none => exact haged (by simpa [hsel] using hs) hidle
    | some found =>
      obtain ⟨key', state'⟩ := found
      cases hp : state'.pendingJobs with
      | nil => exact haged (by simpa [hsel, hp] using hs) hidle
      | cons job rest =>
        simp only [hsel, hp, dispatch] at hs
        by_cases hk : key = key'
        · subst hk
          rw [Dict.get?_set_self, Option.some.injEq] at hs
          simp [← hs] at hidle
        · rw [Dict.get?_set_of_ne _ hk] at hs
          exact haged hs hidle
  | score key' => exact haged hs hidle
  | snapshots => exact haged hs hidle
  | remove | complete | abandon | drain => simp [QueueOp.expires] at hop

/-- The ids of the jobs in the queue are ids of admitted jobs, each once. -/
theorem jobIds_of_history {h : History} (hok : h.Ok) :
    h.queue.jobIds.Nodup ∧ ∀ id ∈ h.queue.jobIds, id < h.queue.nextJobId := by
  have hle : h.queue.jobIds ≤ (h.admitted.map SchedulerJob.jobId : Multiset ℕ) := by
    have hids : (h.admitted.map SchedulerJob.jobId : Multiset ℕ) =
        ((h.admitted.map SchedulerJob.ticket : List Ticket) : Multiset Ticket).map Prod.snd := by
      simp [SchedulerJob.ticket, Function.comp_def]
    rw [hids, ← hok.balance]
    refine Multiset.map_le_map ?_
    simp only [History.held, add_assoc]
    exact add_le_add_right (Multiset.le_add_right _ _) _
  refine ⟨Multiset.nodup_of_le hle (Multiset.coe_nodup.mpr (hok.increasing.imp ne_of_lt)), fun id hid => ?_⟩
  obtain ⟨job, hjob, rfl⟩ := List.mem_map.mp (Multiset.mem_coe.mp (Multiset.mem_of_le hle hid))
  exact hok.fresh job hjob

/-- **The representation invariant holds in every reachable state**, and right
after every call that forgets expired keys each key it retains idle has been idle
for less than the time to live. -/
theorem run_represented (modelName : String) (settings : FairnessSettings) (calls : List QueueCall) :
    let q := (init modelName settings).run calls
    q.Represented ∧ ∀ c : QueueCall, c.op.expires = true → ∀ key state,
      (q.perform c).1.states.get? key = some state → ∀ since ∈ state.idleSince,
        c.now - since < settings.idleStateTtlS := by
  intro q
  have hok : q.Ok := run_ok (init_ok modelName settings) calls
  have hordered : q.Ordered := run_ordered (init_ok modelName settings) (init_ordered modelName settings) calls
  have hhistory := History.run_ok (History.init_ok modelName settings) calls
  have hids := jobIds_of_history hhistory
  rw [History.run_queue] at hids
  refine ⟨⟨?_, fun key state hs => (hok.states key state hs).idle,
    fun now key state hs hb => get?_expireIdleStates_of_busy hok hs hb, hids.1, hids.2, hordered,
    fun now key state key' state' hs hs' heq => hordered.selectionRank_inj hs hs' heq,
    fun q' now hq' => ?_⟩, fun c hop key state hs since hidle => ?_⟩
  · rw [hok.count, pendingJobs, Dict.card_sum]
    simp [Dict.sum, Dict.values, Function.comp_def]
  · have haged : (q.expireIdleStates now).Ordered := hordered.aged ⟨.popNext, now⟩
    rw [popNext_reply, popNext_reply, haged.selected_eq (hq'.expireIdleStates now)]
  · have hlt := perform_retained hok c hop hs hidle
    rwa [run_settings] at hlt

end FairPendingQueue
end TtsPool
