/-
# How often a waiting key is passed over

A key with a pending job waits while `pop_next` selects others.  How often can
that happen?  Every selection adds a job to the account of the key selected,
`FairnessState.served`, and a key is only selected while its score is not above
that of the waiting key, which does not rise past its cap.  So every retained
key has some number of selections in hand, its `allowance`, and a selection
spends one.  `bypasses_bounded` adds the allowances up: that is a bound on the
selections of the keys retained at the start.

A key the queue has never seen brings an allowance of its own, and a bound that
does not count those keys is impossible.  A new key enters at the score of the
waiting key and with the selection order `0`, ahead of any key that has been
selected before; `unbounded_bypass` lets one new key after another through, one
slot, every job one second, the waiting key's job never removed.
-/

import TtsPool.Fair.Metered

namespace TtsPool

/-- The largest weight of any key. -/
def FairnessSettings.maxWeight (s : FairnessSettings) : ℚ := s.weights.values.foldr max s.defaultWeight

theorem FairnessSettings.weight_le_maxWeight (s : FairnessSettings) (key : FairnessKey) :
    s.weight key ≤ s.maxWeight := by
  have hdefault : s.defaultWeight ≤ s.maxWeight := by
    unfold maxWeight
    induction s.weights.values with
    | nil => exact le_rfl
    | cons w ws ih => exact ih.trans (le_max_right _ _)
  have hlisted : ∀ w ∈ s.weights.values, w ≤ s.maxWeight := by
    unfold maxWeight
    induction s.weights.values with
    | nil => simp
    | cons w ws ih =>
      intro x hx
      rcases List.mem_cons.mp hx with rfl | hx
      · exact le_max_left _ _
      · exact (ih x hx).trans (le_max_right _ _)
  cases key with
  | none => exact hdefault
  | some key =>
    cases h : s.weights.get? key with
    | none => simpa [weight, h] using hdefault
    | some w =>
      simpa [weight, h] using hlisted w (List.mem_map_of_mem (Dict.get?_eq_some_iff.mp h))

namespace FairnessState

/-- The jobs of at least `d` milliseconds the account can have come from, with
the active ones. -/
def served (state : FairnessState) (d : ℚ) : ℚ :=
  state.virtualServiceMs * state.weight / d + state.activeStartedAt.size

/-- The selections a key has in hand while another key waits with a score of at
most `ceiling`. -/
def allowance (state : FairnessState) (C : ℕ) (d ceiling : ℚ) : ℚ :=
  max 0 (ceiling * state.weight / d + C - state.served d)

theorem SameAccount.served_eq {state state' : FairnessState} (h : state.SameAccount state') (d : ℚ) :
    state'.served d = state.served d := by
  simp only [served, h.weight, h.account, h.active]

/-- A started job is one more served. -/
theorem served_started {state : FairnessState} {id : ℕ}
    (hnew : state.activeStartedAt.get? id = none) (d now : ℚ) :
    { state with activeStartedAt := state.activeStartedAt.set id now }.served d = state.served d + 1 := by
  have hsize : (state.activeStartedAt.set id now).size = state.activeStartedAt.size + 1 := by
    simp [Dict.size, Dict.entries_set_of_get?_eq_none hnew]
  simp only [served, hsize, Nat.cast_add, Nat.cast_one]
  ring

/-- A job charged at least `d` was worth the slot it held. -/
theorem served_charged {state : FairnessState} (hw : 0 < state.weight) {d : ℚ} (hd : 0 < d) {id : ℕ}
    {startedAt serviceMs : ℚ} (hactive : state.activeStartedAt.get? id = some startedAt)
    (hle : d ≤ serviceMs) :
    state.served d ≤ { state with
      activeStartedAt := state.activeStartedAt.erase id
      virtualServiceMs := state.virtualServiceMs + max 0 serviceMs / state.weight }.served d := by
  have hworth : 1 ≤ max 0 serviceMs / d := (one_le_div hd).mpr (hle.trans (le_max_right _ _))
  have hcancel : (state.virtualServiceMs + max 0 serviceMs / state.weight) * state.weight / d =
      state.virtualServiceMs * state.weight / d + max 0 serviceMs / d := by
    rw [add_mul, div_mul_cancel₀ _ hw.ne', add_div]
  simp only [served, hcancel, ← Dict.size_erase hactive, Nat.cast_add, Nat.cast_one]
  linarith

theorem served_nonneg {state : FairnessState} (hw : 0 ≤ state.weight) (hv : 0 ≤ state.virtualServiceMs)
    {d : ℚ} (hd : 0 < d) : 0 ≤ state.served d := by
  unfold served
  positivity

/-- A selection spends one of those in hand. -/
theorem allowance_spent {state state' : FairnessState} {C : ℕ} {d ceiling : ℚ}
    (hw : state'.weight = state.weight) (hserved : state'.served d = state.served d + 1)
    (hroom : state'.served d ≤ ceiling * state.weight / d + C) :
    state'.allowance C d ceiling + 1 ≤ state.allowance C d ceiling := by
  unfold allowance
  rw [hw, max_eq_right (by linarith), max_eq_right (by linarith)]
  linarith

/-- A key served more has less in hand. -/
theorem allowance_anti {state state' : FairnessState} (C : ℕ) {d : ℚ} (ceiling : ℚ)
    (hw : state'.weight = state.weight) (h : state.served d ≤ state'.served d) :
    state'.allowance C d ceiling ≤ state.allowance C d ceiling := by
  unfold allowance
  rw [hw]
  gcongr

/-- No key has more in hand than the heaviest that was never served. -/
theorem allowance_le {state : FairnessState} {settings : FairnessSettings} {C : ℕ} {d ceiling : ℚ}
    (hd : 0 < d) (hceiling : 0 ≤ ceiling) (hw : 0 ≤ state.weight) (hmax : state.weight ≤ settings.maxWeight)
    (hv : 0 ≤ state.virtualServiceMs) :
    state.allowance C d ceiling ≤ ceiling * settings.maxWeight / d + C := by
  have hserved := served_nonneg hw hv hd
  have hle : ceiling * state.weight / d ≤ ceiling * settings.maxWeight / d := by gcongr
  have hpos : 0 ≤ ceiling * state.weight / d := by positivity
  have hslots : (0 : ℚ) ≤ C := Nat.cast_nonneg C
  exact max_le (by linarith) (by linarith)

end FairnessState

namespace Instant

open FairPendingQueue

/-- The call is a selection of a key other than `j`. -/
def Bypasses (j : FairnessKey) (m : Instant) (c : QueueCall) : Prop :=
  match (m.queue.perform c).2 with
  | .popped (some job) => job.fairnessKey ≠ j
  | _ => False

instance (j : FairnessKey) (m : Instant) (c : QueueCall) : Decidable (Bypasses j m c) := by
  unfold Bypasses
  split <;> infer_instance

theorem bypasses_iff {j : FairnessKey} {m : Instant} {c : QueueCall} :
    Bypasses j m c ↔ ∃ job, (m.queue.perform c).2 = .popped (some job) ∧ job.fairnessKey ≠ j := by
  unfold Bypasses
  constructor
  · intro h
    split at h
    · exact ⟨_, ‹_›, h⟩
    · exact h.elim
  · rintro ⟨job, hreply, hne⟩
    rw [hreply]
    exact hne

/-- A selection opens no account. -/
theorem nextActivationOrder_of_bypass {j : FairnessKey} {m : Instant} {c : QueueCall} (h : Bypasses j m c) :
    (m.step c).queue.nextActivationOrder = m.queue.nextActivationOrder := by
  obtain ⟨job, hreply, -⟩ := bypasses_iff.mp h
  simp only [step, perform, op_of_popped hreply, popNext]
  repeat' split
  all_goals rfl

/-- The selections of keys other than `j` in a run. -/
def bypasses (j : FairnessKey) : Instant → List QueueCall → ℕ
  | _, [] => 0
  | m, c :: calls => (if Bypasses j m c then 1 else 0) + bypasses j (m.step c) calls

/-- The call leaves the job waiting: its key is not selected and the job is not
removed. -/
def Waits (job : SchedulerJob) (m : Instant) (c : QueueCall) : Prop :=
  (∀ popped, (m.queue.perform c).2 = .popped (some popped) → popped.fairnessKey ≠ job.fairnessKey) ∧
    (∀ other, c.op = .remove other → other.ticket ≠ job.ticket) ∧ c.op ≠ .drain

/-- A job that completes was active for at least `d` milliseconds. -/
def Lasts (d : ℚ) (m : Instant) (c : QueueCall) : Prop :=
  ∀ job serviceMs, c.op = .complete job serviceMs → ∀ startedAt ∈ m.queue.startedAt? job,
    d ≤ (c.now - startedAt) * 1000

/-- The continuations the waiting is measured over. -/
structure Continues (job : SchedulerJob) (C : ℕ) (d L : ℚ) (m : Instant) (c : QueueCall) : Prop where
  metered : Metered C L m c
  lasts : Lasts d m c
  waits : Waits job m c

/-- What a key other than `j` has in hand. -/
def hand (j : FairnessKey) (C : ℕ) (d ceiling : ℚ) (key : FairnessKey) (state : FairnessState) : ℚ :=
  if key = j then 0 else state.allowance C d ceiling

/-- What the keys other than `j` have in hand together. -/
def inHand (m : Instant) (j : FairnessKey) (C : ℕ) (d ceiling : ℚ) : ℚ :=
  m.queue.states.sum (hand j C d ceiling)

theorem hand_nonneg (j : FairnessKey) (C : ℕ) (d ceiling : ℚ) (key : FairnessKey)
    (state : FairnessState) : 0 ≤ hand j C d ceiling key state := by
  unfold hand
  split_ifs
  · exact le_rfl
  · exact le_max_left _ _

theorem hand_of_ne {j key : FairnessKey} (hne : key ≠ j) (C : ℕ) (d ceiling : ℚ) (state : FairnessState) :
    hand j C d ceiling key state = state.allowance C d ceiling := if_neg hne

theorem hand_anti (j : FairnessKey) (C : ℕ) {d ceiling : ℚ} (key : FairnessKey)
    {state state' : FairnessState} (hw : state'.weight = state.weight)
    (h : state.served d ≤ state'.served d) :
    hand j C d ceiling key state' ≤ hand j C d ceiling key state := by
  unfold hand
  split_ifs
  · exact le_rfl
  · exact FairnessState.allowance_anti C ceiling hw h

/-- While the job waits: it is pending, and the cap of its key stays below the
ceiling. -/
structure Waiting (job : SchedulerJob) (L ceiling : ℚ) (m : Instant) : Prop where
  queue : m.queue.Ok
  state : ∃ state, m.queue.states.get? job.fairnessKey = some state ∧ job ∈ state.pendingJobs ∧
    state.cap L ≤ ceiling

end Instant

namespace FairPendingQueue

/-- A pending job that a call neither pops nor removes stays pending. -/
theorem mem_pendingJobs_perform {q : FairPendingQueue} (h : q.Ok) {c : QueueCall} {job : SchedulerJob}
    (hjob : job ∈ q.pendingJobs) (hpop : ∀ popped, (q.perform c).2 = .popped (some popped) → popped ≠ job)
    (hremove : ∀ other, c.op = .remove other → other.ticket ≠ job.ticket) (hdrain : c.op ≠ .drain) :
    job ∈ (q.perform c).1.pendingJobs := by
  have stays : ∀ {came left : Multiset SchedulerJob} {started stopped : Multiset Ticket}
      {q' : FairPendingQueue}, q.Flow came left started stopped q' → job ∉ left → job ∈ q'.pendingJobs := by
    intro came left started stopped q' hf hleft
    have hmem : job ∈ q'.pendingJobs + left := hf.pending ▸ Multiset.mem_add.mpr (.inl hjob)
    exact (Multiset.mem_add.mp hmem).resolve_right hleft
  obtain ⟨op, now⟩ := c
  cases op with
  | enqueue request streamHandle =>
    rcases enqueue_flow h request streamHandle now with ⟨e, q', heq, hf, -⟩ | ⟨q', heq, hf, -⟩ <;>
      simpa [perform, heq] using stays hf (by simp)
  | remove other =>
    rcases remove_flow h other now with ⟨heq, -⟩ | ⟨found, q', heq, hticket, hf, -⟩
    · simpa [perform, heq] using hjob
    · have hother : job ∉ ({found} : Multiset SchedulerJob) := by
        intro hmem
        obtain rfl := Multiset.mem_singleton.mp hmem
        exact hremove other rfl hticket.symm
      simpa [perform, heq] using stays hf hother
  | popNext =>
    rcases popNext_flow h now with ⟨q', heq, -, hf, -⟩ | ⟨popped, q', heq, hf, -⟩
    · simpa [perform, heq] using stays hf (by simp)
    · have hother : job ∉ ({popped} : Multiset SchedulerJob) := fun hmem =>
        hpop popped (by simp [perform, heq]) (Multiset.mem_singleton.mp hmem).symm
      simpa [perform, heq] using stays hf hother
  | complete other serviceMs =>
    rcases complete_flow h other serviceMs now with ⟨-, hf⟩ | ⟨-, heq⟩
    · exact stays hf (by simp)
    · simpa [perform, heq] using hjob
  | abandon other =>
    rcases abandon_flow h other now with ⟨-, hf⟩ | ⟨-, hf⟩ <;> exact stays hf (by simp)
  | drain => exact absurd rfl hdrain
  | score key => exact stays (expireIdleStates_flow h now) (by simp)
  | snapshots => exact stays (expireIdleStates_flow h now) (by simp)

/-- A pending job is in the bucket of its key. -/
theorem get?_of_mem_pendingJobs {q : FairPendingQueue} (h : q.Ok) {job : SchedulerJob}
    (hjob : job ∈ q.pendingJobs) :
    ∃ state, q.states.get? job.fairnessKey = some state ∧ job ∈ state.pendingJobs := by
  obtain ⟨key, state, hs, hmem⟩ := Dict.mem_sum.mp hjob
  have hmem : job ∈ state.pendingJobs := hmem
  obtain rfl := (h.states key state hs).own job hmem
  exact ⟨state, hs, hmem⟩

theorem mem_pendingJobs_of_get? {q : FairPendingQueue} {key : FairnessKey} {state : FairnessState}
    (hs : q.states.get? key = some state) {job : SchedulerJob} (hjob : job ∈ state.pendingJobs) :
    job ∈ q.pendingJobs := Dict.mem_sum.mpr ⟨key, state, hs, hjob⟩

end FairPendingQueue

namespace Instant

open FairPendingQueue

variable {job : SchedulerJob} {C : ℕ} {d L ceiling : ℚ} {m : Instant} {c : QueueCall}

/-- **The waiting goes on.**  The job stays pending and the cap of its key does
not rise. -/
theorem Waiting.step (h : Waiting job L ceiling m) (hL : 0 ≤ L) (hc : Continues job C d L m c) :
    Waiting job L ceiling (m.step c) := by
  obtain ⟨hselected, hremove, hdrain⟩ := hc.waits
  obtain ⟨state, hs, hjob, hcap⟩ := h.state
  have hpending : job ∈ (m.step c).queue.pendingJobs :=
    mem_pendingJobs_perform h.queue (mem_pendingJobs_of_get? hs hjob)
      (fun popped hreply heq => hselected popped hreply (heq ▸ rfl)) hremove hdrain
  have hok : (m.step c).queue.Ok := perform_ok h.queue c
  obtain ⟨state', hs', hjob'⟩ := get?_of_mem_pendingJobs hok hpending
  refine ⟨hok, state', hs', hjob', ?_⟩
  have haged := get?_aged_of_busy h.queue c hs (.inl (List.ne_nil_of_mem hjob))
  rcases (hc.metered.stays h.queue hL haged hs').2 with hle | ⟨⟨popped, hreply, hkey⟩, -⟩
  · exact hle.trans hcap
  · exact absurd hkey (hselected popped hreply)

/-- The score of the waiting key is below the ceiling. -/
theorem Waiting.score_le (h : Waiting job L ceiling m) (hL : 0 ≤ L) {now : ℚ}
    (hactive : m.queue.ActiveWithin L now) :
    ∃ state, m.queue.states.get? job.fairnessKey = some state ∧ job ∈ state.pendingJobs ∧
      state.score now ≤ ceiling := by
  obtain ⟨state, hs, hjob, hcap⟩ := h.state
  refine ⟨state, hs, hjob, le_trans ?_ hcap⟩
  exact FairnessState.score_le_cap (h.queue.states _ state hs).weight_pos hL
    (hactive (_, state) (Dict.get?_eq_some_iff.mp hs))

/-- A new key has no more in hand than its allowance at the largest weight. -/
theorem hand_new_le {q : FairPendingQueue} (h : q.Ok) (hd : 0 < d) (hceiling : 0 ≤ ceiling)
    (j key : FairnessKey) (now : ℚ) {state : FairnessState}
    (hweight : state.weight = (q.newState key now).weight)
    (haccount : state.virtualServiceMs = (q.newState key now).virtualServiceMs) :
    hand j C d ceiling key state ≤ ceiling * q.settings.maxWeight / d + C := by
  have hpos := q.settings.weight_pos key
  have hmax := q.settings.weight_le_maxWeight key
  have hweight : state.weight = q.settings.weight key := hweight
  unfold hand
  split_ifs
  · have := hpos.le.trans hmax
    positivity
  · refine FairnessState.allowance_le hd hceiling (hweight ▸ hpos.le) (hweight ▸ hmax) ?_
    rw [haccount]
    exact baseline_nonneg h now

/-- A key that keeps its weight and has been served no less has no more in hand. -/
theorem inHand_step_le_of_kept {key : FairnessKey} {state state' : FairnessState}
    (hs : (m.queue.aged c).states.get? key = some state)
    (heq : (m.step c).queue.states = (m.queue.aged c).states.set key state')
    (hw : state'.weight = state.weight) (hle : state.served d ≤ state'.served d) (j : FairnessKey) :
    (m.step c).inHand j C d ceiling ≤ m.inHand j C d ceiling := by
  have hage : (m.queue.aged c).states.sum (hand j C d ceiling) ≤ m.inHand j C d ceiling :=
    sum_aged_le m.queue c (hand_nonneg j C d ceiling)
  have hsum := Dict.sum_set hs (hand j C d ceiling) state'
  have hkey : hand j C d ceiling key state' ≤ hand j C d ceiling key state := hand_anti j C key hw hle
  rw [inHand, heq]
  linarith

/-- **What one call adds.**  Only a call that opens an account adds to what the
keys have in hand, and it adds at most a new key's. -/
theorem inHand_step_le (h : m.queue.Ok) (hd : 0 < d) (hceiling : 0 ≤ ceiling) (hc : Continues job C d L m c)
    (j : FairnessKey) :
    (m.step c).inHand j C d ceiling ≤ m.inHand j C d ceiling +
      ((m.step c).queue.nextActivationOrder - m.queue.nextActivationOrder : ℚ) *
        (ceiling * m.queue.settings.maxWeight / d + C) := by
  have hage : (m.queue.aged c).states.sum (hand j C d ceiling) ≤ m.inHand j C d ceiling :=
    sum_aged_le m.queue c (hand_nonneg j C d ceiling)
  have hopened : (m.queue.nextActivationOrder : ℚ) ≤ (m.step c).queue.nextActivationOrder := by
    exact_mod_cast nextActivationOrder_le m.queue c
  have hmax : 0 ≤ m.queue.settings.maxWeight :=
    (m.queue.settings.weight_pos none).le.trans (m.queue.settings.weight_le_maxWeight none)
  have hgrant : 0 ≤ ((m.step c).queue.nextActivationOrder - m.queue.nextActivationOrder : ℚ) *
      (ceiling * m.queue.settings.maxWeight / d + C) :=
    mul_nonneg (sub_nonneg.mpr hopened) (by positivity)
  rcases perform_change h c hc.waits.2.2 with heq | ⟨key, state', heq, hchange⟩
  · have heq : (m.step c).queue.states = (m.queue.aged c).states := heq
    rw [inHand, heq]
    linarith
  have hok := aged_ok h c
  cases hchange with
  | kept state hs hsame =>
    have hstays : (m.step c).inHand j C d ceiling ≤ m.inHand j C d ceiling :=
      inHand_step_le_of_kept hs heq hsame.weight (hsame.served_eq d).ge j
    linarith
  | entered request streamHandle hop hkey hs hnext hsame =>
    have hnew := Dict.sum_set_new hs (hand j C d ceiling) state'
    have hle : hand j C d ceiling key state' ≤ ceiling * m.queue.settings.maxWeight / d + C := by
      rw [← aged_settings m.queue c]
      exact hand_new_le hok hd hceiling j key c.now hsame.weight hsame.account
    have hone : ((m.step c).queue.nextActivationOrder : ℚ) = m.queue.nextActivationOrder + 1 := by
      exact_mod_cast hnext
    have heq : (m.step c).queue.states = (m.queue.aged c).states.set key state' := heq
    rw [inHand, heq, hnew, hone]
    linarith
  | started state popped hop hs hreply hkey hpending hleast hsame =>
    have hserved := FairnessState.served_started ((hok.states key state hs).get?_active hpending) d c.now
    have hle : state.served d ≤ state'.served d := by
      rw [hsame.served_eq, hserved]
      linarith
    have hstays : (m.step c).inHand j C d ceiling ≤ m.inHand j C d ceiling :=
      inHand_step_le_of_kept hs heq hsame.weight hle j
    linarith
  | charged state other serviceMs startedAt hop hkey hs hactive hsame =>
    have hold := get?_of_get?_aged hs
    have hstart : startedAt ∈ m.queue.startedAt? other := by simp [startedAt?, hkey, hold, hactive]
    have hcharge := hc.metered.charge
    rw [ChargesExactly, hop] at hcharge
    have hlong : d ≤ serviceMs := hcharge startedAt hstart ▸ hc.lasts other serviceMs hop startedAt hstart
    have hle := FairnessState.served_charged (hok.states key state hs).weight_pos hd hactive hlong
    rw [← hsame.served_eq d] at hle
    have hstays : (m.step c).inHand j C d ceiling ≤ m.inHand j C d ceiling :=
      inHand_step_le_of_kept hs heq hsame.weight hle j
    linarith
  | released state other hop hkey hs hsame =>
    have hcharge := hc.metered.charge
    rw [ChargesExactly, hop] at hcharge
    exact hcharge.elim

/-- **What a selection spends.**  The key selected past the waiting one had a
selection in hand, and has one less. -/
theorem Waiting.inHand_bypass (h : Waiting job L ceiling m) (hL : 0 ≤ L) (hd : 0 < d)
    (hc : Continues job C d L m c) (hbypass : Bypasses job.fairnessKey m c) :
    (m.step c).inHand job.fairnessKey C d ceiling + 1 ≤ m.inHand job.fairnessKey C d ceiling := by
  obtain ⟨popped, hreply, hne⟩ := bypasses_iff.mp hbypass
  have hop := op_of_popped hreply
  have haged : m.queue.aged c = m.queue.expireIdleStates c.now := by simp only [aged, hop]
  have hperform : (m.step c).queue = (m.queue.popNext c.now).1 := by simp only [Instant.step, perform, hop]
  have hpop : (m.queue.popNext c.now).2 = some popped := by simpa [perform, hop] using hreply
  obtain ⟨state, state', hs, heq, hpending, hleast, hsame⟩ := popNext_started h.queue hpop
  have heq : (m.step c).queue.states =
      (m.queue.expireIdleStates c.now).states.set popped.fairnessKey state' := by rw [hperform, heq]
  have hok := (expireIdleStates_ok h.queue c.now).states _ state hs
  -- the waiting key was a candidate, so the selected score is below the ceiling
  have hscore : state.virtualServiceMs ≤ ceiling := by
    obtain ⟨waiting, hw, hjob, hle⟩ := h.score_le hL hc.metered.duration
    have hcandidate := haged ▸ get?_aged_of_busy h.queue c hw (.inl (List.ne_nil_of_mem hjob))
    have hrank := hleast _ waiting hcandidate (List.ne_nil_of_mem hjob)
    have hbelow : state.score c.now ≤ waiting.score c.now :=
      (Prod.Lex.le_iff.mp hrank).elim le_of_lt fun heq => heq.1.le
    exact (FairnessState.account_le_score hok.weight_pos c.now).trans (hbelow.trans hle)
  have hserved : state'.served d = state.served d + 1 := by
    rw [hsame.served_eq, FairnessState.served_started (hok.get?_active hpending)]
  have hslots : (state'.activeStartedAt.size : ℚ) ≤ C := by
    have hs' : (m.step c).queue.states.get? popped.fairnessKey = some state' := by
      rw [heq, Dict.get?_set_self]
    exact_mod_cast (size_le_activeTickets hs').trans hc.metered.capacity
  have hroom : state'.served d ≤ ceiling * state.weight / d + C := by
    have hw := hok.weight_pos
    rw [FairnessState.served, hsame.account, hsame.weight]
    gcongr
  have hweight : state'.weight = state.weight := hsame.weight
  have hspent := FairnessState.allowance_spent hweight hserved hroom
  have hsum := Dict.sum_set hs (hand job.fairnessKey C d ceiling) state'
  have hage : (m.queue.expireIdleStates c.now).states.sum (hand job.fairnessKey C d ceiling) ≤
      m.inHand job.fairnessKey C d ceiling :=
    haged ▸ sum_aged_le m.queue c (hand_nonneg job.fairnessKey C d ceiling)
  simp only [hand_of_ne hne] at hsum
  rw [inHand, heq]
  linarith

/-- The bound over a whole continuation, from any queue in order. -/
theorem Waiting.bypasses_le {calls : List QueueCall} (h : Waiting job L ceiling m) (hL : 0 ≤ L)
    (hd : 0 < d) (hceiling : 0 ≤ ceiling) (hcalls : Run.Along Instant.step (Continues job C d L) m calls) :
    (bypasses job.fairnessKey m calls : ℚ) ≤ m.inHand job.fairnessKey C d ceiling +
      ((m.run calls).queue.nextActivationOrder - m.queue.nextActivationOrder : ℚ) *
        (ceiling * m.queue.settings.maxWeight / d + C) := by
  induction calls generalizing m with
  | nil =>
    have hnonneg : 0 ≤ m.inHand job.fairnessKey C d ceiling := List.sum_nonneg fun x hx => by
      obtain ⟨e, -, rfl⟩ := List.mem_map.mp hx
      exact hand_nonneg job.fairnessKey C d ceiling e.1 e.2
    simpa [bypasses, run] using hnonneg
  | cons c calls ih =>
    obtain ⟨hc, hrest⟩ := hcalls
    have hlater := ih (h.step hL hc) hrest
    have hset : (m.step c).queue.settings = m.queue.settings := perform_settings m.queue c
    rw [hset] at hlater
    have hrun : (m.run (c :: calls)) = (m.step c).run calls := rfl
    rw [hrun, bypasses]
    by_cases hbypass : Bypasses job.fairnessKey m c
    · have hspent := h.inHand_bypass hL hd hc hbypass
      have hopened : (m.queue.nextActivationOrder : ℚ) = (m.step c).queue.nextActivationOrder := by
        have hop : (m.step c).queue.nextActivationOrder = m.queue.nextActivationOrder :=
          nextActivationOrder_of_bypass hbypass
        rw [hop]
      rw [if_pos hbypass, hopened]
      push_cast
      linarith
    · have hadded := inHand_step_le h.queue hd hceiling hc job.fairnessKey
      rw [if_neg hbypass, zero_add]
      linarith

/-- **Bounded bypass, up to new keys.**  From any reachable queue in which the
job waits, over any continuation in which it goes on waiting, other keys are
selected at most as often as the retained ones have selections in hand, and a
fixed number of times more for every key state created meanwhile. -/
theorem bypasses_bounded (modelName : String) (settings : FairnessSettings) (before calls : List QueueCall)
    (start : ℚ) (job : SchedulerJob) (C : ℕ) (d L : ℚ) (hd : 0 < d) (hL : 0 ≤ L) (state : FairnessState)
    (hstate : ((FairPendingQueue.init modelName settings).run before).states.get? job.fairnessKey = some state)
    (hjob : job ∈ state.pendingJobs)
    (hcalls : Run.Along step (Continues job C d L)
      ⟨(FairPendingQueue.init modelName settings).run before, start⟩ calls) :
    let m : Instant := ⟨(FairPendingQueue.init modelName settings).run before, start⟩
    let ceiling := state.cap L
    (bypasses job.fairnessKey m calls : ℚ) ≤ m.inHand job.fairnessKey C d ceiling +
      ((m.run calls).queue.nextActivationOrder - m.queue.nextActivationOrder : ℚ) *
        (ceiling * settings.maxWeight / d + C) := by
  intro m ceiling
  have hok : m.queue.Ok := run_ok (FairPendingQueue.init_ok modelName settings) before
  have hset : m.queue.settings = settings := run_settings _ before
  have hceiling : 0 ≤ ceiling := by
    have hs := hok.states _ state hstate
    have hw := hs.weight_pos
    have hv := hs.account
    simp only [ceiling, FairnessState.cap]
    positivity
  have hwaiting : Waiting job L ceiling m := ⟨hok, state, hstate, hjob, le_rfl⟩
  rw [← hset]
  exact hwaiting.bypasses_le hL hd hceiling hcalls

/-! ### New keys, one after another -/

/-- The client of the `n`-th new key. -/
def freshKey (n : ℕ) : FairnessKey := some (String.ofList (List.replicate n 'f'))

theorem freshKey_injective {i n : ℕ} (h : freshKey i = freshKey n) : i = n := by
  have hlist := String.ofList_injective (Option.some.inj h)
  simpa using congrArg List.length hlist

/-- The job of the `n`-th new client. -/
def freshJob (n : ℕ) : SchedulerJob := ⟨⟨"m", freshKey n⟩, n + 3, n + 1, n + 3, freshKey n⟩

/-- The job that waits, of the anonymous bucket, which has been selected
before. -/
def waitingJob : SchedulerJob := ⟨⟨"m", none⟩, 2, 0, 2, none⟩

def waitingCalls : List QueueCall :=
  [⟨.enqueue ⟨"m", none⟩ 1, 0⟩, ⟨.enqueue ⟨"m", none⟩ 2, 0⟩, ⟨.popNext, 0⟩,
    ⟨.complete ⟨⟨"m", none⟩, 1, 0, 1, none⟩ 1000, 1⟩]

/-- A new client arrives as the slot falls free and is served for a second. -/
def freshRound (n : ℕ) : List QueueCall :=
  [⟨.enqueue ⟨"m", freshKey n⟩ (n + 3), n + 1⟩, ⟨.popNext, n + 1⟩, ⟨.complete (freshJob n) 1000, n + 2⟩]

/-- The queue between two rounds: the anonymous bucket waits alone, and the keys
served so far are idle or forgotten. -/
structure Starving (n : ℕ) (m : Instant) : Prop where
  ok : m.queue.Ok
  settings : m.queue.settings = .pair
  now : m.now = n + 1
  nextJobId : m.queue.nextJobId = n + 3
  waiting : ∃ state ∈ m.queue.states.get? none, state.pendingJobs = [waitingJob] ∧
    state.activeStartedAt.entries = [] ∧ 0 < state.lastSelectedOrder
  others : ∀ key state, m.queue.states.get? key = some state → key ≠ none →
    ¬ state.Busy ∧ ∃ i < n, key = freshKey i

theorem starving_start : Starving 0 ⟨(FairPendingQueue.init "m" .pair).run waitingCalls, 1⟩ := by
  have hset : ((FairPendingQueue.init "m" .pair).run waitingCalls).settings = .pair := run_settings _ waitingCalls
  have hnow : (1 : ℚ) = (0 : ℕ) + 1 := by norm_num
  have hnext : ((FairPendingQueue.init "m" .pair).run waitingCalls).nextJobId = 0 + 3 := by decide +kernel
  have hwaiting : ∃ state ∈ ((FairPendingQueue.init "m" .pair).run waitingCalls).states.get? none,
      state.pendingJobs = [waitingJob] ∧ state.activeStartedAt.entries = [] ∧ 0 < state.lastSelectedOrder := by
    decide +kernel
  have hkeys : ((FairPendingQueue.init "m" .pair).run waitingCalls).states.keys = [none] := by decide +kernel
  refine ⟨run_ok (FairPendingQueue.init_ok "m" .pair) waitingCalls, hset, hnow, hnext, hwaiting,
    fun key state hs hne => ?_⟩
  have hmem : key ∈ [(none : FairnessKey)] := hkeys ▸ Dict.mem_keys_iff.mpr ⟨state, hs⟩
  exact absurd (List.mem_singleton.mp hmem) hne

/-- Within a round: the `n`-th client is in the state `fresh` describes. -/
structure Serving (n : ℕ) (fresh : FairnessState → Prop) (q : FairPendingQueue) : Prop where
  ok : q.Ok
  settings : q.settings = .pair
  nextJobId : q.nextJobId = n + 4
  waiting : ∃ state ∈ q.states.get? none, state.pendingJobs = [waitingJob] ∧
    state.activeStartedAt.entries = [] ∧ 0 < state.lastSelectedOrder
  fresh : ∃ state ∈ q.states.get? (freshKey n), fresh state
  others : ∀ key state, q.states.get? key = some state → key ≠ none → key ≠ freshKey n →
    ¬ state.Busy ∧ ∃ i < n, key = freshKey i

/-- The new client has arrived: level with the waiting bucket, and never
selected. -/
def Arrived (n : ℕ) (q : FairPendingQueue) : Prop :=
  Serving n (fun state => state.pendingJobs = [freshJob n] ∧ state.activeStartedAt.entries = [] ∧
    state.lastSelectedOrder = 0 ∧ ∀ other ∈ q.states.get? none,
      state.virtualServiceMs ≤ other.virtualServiceMs) q

/-- The new client holds the slot. -/
def Holding (n : ℕ) (q : FairPendingQueue) : Prop :=
  Serving n (fun state => state.pendingJobs = [] ∧
    state.activeStartedAt.entries = [((n + 3 : ℕ), (n + 1 : ℚ))]) q

theorem score_of_no_active {state : FairnessState} (h : state.activeStartedAt.entries = []) (now : ℚ) :
    state.score now = state.virtualServiceMs := by
  simp [FairnessState.score, Dict.values, h]

/-- Between keys without active jobs the account decides, then the last
selection. -/
theorem rank_le_of_no_active {settings : FairnessSettings} {now : ℚ} {state other : FairnessState}
    (hs : state.activeStartedAt.entries = []) (ho : other.activeStartedAt.entries = [])
    (h : state.selectionRank settings now ≤ other.selectionRank settings now) :
    state.virtualServiceMs ≤ other.virtualServiceMs ∧
      (state.virtualServiceMs = other.virtualServiceMs → state.lastSelectedOrder ≤ other.lastSelectedOrder) := by
  simp only [FairnessState.selectionRank, Prod.Lex.toLex_le_toLex', score_of_no_active hs,
    score_of_no_active ho, Dict.size, hs, ho] at h
  exact ⟨h.1, fun heq => ((h.2 heq).2 trivial).1⟩

/-- The state of a key just come into being. -/
theorem get?_accept_new {q : FairPendingQueue} {request : ResponseRequest} {streamHandle : HandleId}
    {now : ℚ} (hs : q.states.get? request.fairnessKey = none) :
    (q.accept request streamHandle now).states.get? request.fairnessKey =
      some { q.newState request.fairnessKey now with
        pendingJobs := [q.newJob request streamHandle now] } := by
  simp [accept, admissionState, hs, newState]

/-- **The arrival.** -/
theorem Starving.arrive {n : ℕ} {m : Instant} (h : Starving n m) :
    ∃ q, m.queue.enqueue ⟨"m", freshKey n⟩ (n + 3) (n + 1) = (q, .ok (freshJob n)) ∧ Arrived n q := by
  obtain ⟨waiting, hw, hwp, hwa, hwl⟩ := h.waiting
  have hbusy : waiting.Busy := .inl (by simp [hwp])
  set q₀ := m.queue.expireIdleStates (n + 1) with hq₀
  have hok₀ : q₀.Ok := expireIdleStates_ok h.ok _
  have hw₀ : q₀.states.get? none = some waiting := get?_expireIdleStates_of_busy h.ok hw hbusy
  have hnone : q₀.states.get? (freshKey n) = none := by
    rw [Option.eq_none_iff_forall_ne_some]
    intro state hs
    obtain ⟨-, i, hi, heq⟩ := h.others _ state (get?_expireIdleStates.mp hs).1 (by simp [freshKey])
    exact hi.ne (freshKey_injective heq).symm
  have hpending : q₀.pendingJobs = {waitingJob} := by
    refine (Dict.sum_eq_of_others_zero hw₀ _ fun key state hs hne => ?_).trans (by rw [hwp]; rfl)
    have hidle := (h.others key state (get?_expireIdleStates.mp hs).1 hne).1
    simpa [FairnessState.Busy] using (not_or.mp hidle).1
  have hjob : q₀.newJob ⟨"m", freshKey n⟩ (n + 3) (n + 1) = freshJob n := by
    have hid : q₀.nextJobId = n + 3 := h.nextJobId
    simp only [newJob, hid, freshJob]
  have hcount : ¬ (q₀.settings.maxPendingPerExecutor : ℤ) ≤ q₀.pendingCount := by
    have hset : q₀.settings = .pair := h.settings
    rw [hok₀.count, hpending, hset]
    decide
  have hnotfull : ¬ q₀.KeyFull (freshKey n) := by simp [KeyFull, hnone]
  refine ⟨q₀.accept ⟨"m", freshKey n⟩ (n + 3) (n + 1), ?_, ?_⟩
  · simp only [enqueue, ← hq₀, if_neg hnotfull, if_neg hcount, hjob]
  have hget : ∀ key, key ≠ freshKey n →
      (q₀.accept ⟨"m", freshKey n⟩ (n + 3) (n + 1)).states.get? key = q₀.states.get? key := by
    intro key hne
    rw [accept, Dict.get?_set_of_ne _ hne]
  refine ⟨(accept_flow hok₀ _ _ _).ok, h.settings, ?_, ⟨waiting, ?_, hwp, hwa, hwl⟩, ?_, ?_⟩
  · have hid : q₀.nextJobId = n + 3 := h.nextJobId
    simp only [accept, hid]
  · rw [hget none (by simp [freshKey])]
    exact hw₀
  · refine ⟨_, get?_accept_new hnone, by rw [hjob], rfl, rfl, fun other hother => ?_⟩
    rw [hget none (by simp [freshKey])] at hother
    obtain rfl := Option.some.inj (hw₀.symm.trans hother)
    exact (baseline_le hw₀ hbusy _).trans (score_of_no_active hwa _).le
  · intro key state hs hne hnen
    rw [hget key hnen] at hs
    exact h.others key state (get?_expireIdleStates.mp hs).1 hne

/-- **The selection.**  The new client ties with the waiting bucket, or is
below it, and has the older selection. -/
theorem Arrived.select {n : ℕ} {q : FairPendingQueue} (h : Arrived n q) :
    ∃ q', q.popNext (n + 1) = (q', some (freshJob n)) ∧ Holding n q' := by
  obtain ⟨waiting, hw, hwp, hwa, hwl⟩ := h.waiting
  obtain ⟨fresh, hf, hfp, hfa, hfl, hbelow⟩ := h.fresh
  have hbusyw : waiting.Busy := .inl (by simp [hwp])
  have hbusyf : fresh.Busy := .inl (by simp [hfp])
  obtain ⟨job, q', hp, hflow, hnext⟩ : ∃ job q', q.popNext (n + 1) = (q', some job) ∧
      q.Flow 0 {job} {job.ticket} 0 q' ∧ q'.nextJobId = q.nextJobId := by
    rcases popNext_flow h.ok (n + 1) with ⟨p, -, hzero, -⟩ | hpop
    · have hmem := mem_pendingJobs_of_get? hf (hfp ▸ List.mem_singleton.mpr rfl : freshJob n ∈ fresh.pendingJobs)
      simp [hzero] at hmem
    · exact hpop
  have hreply : (q.popNext (n + 1)).2 = some job := by rw [hp]
  obtain ⟨state, state', hs, heq, hpending, hleast, hsame⟩ := popNext_started h.ok hreply
  have hw₁ : (q.expireIdleStates (n + 1)).states.get? none = some waiting :=
    get?_expireIdleStates_of_busy h.ok hw hbusyw
  have hf₁ : (q.expireIdleStates (n + 1)).states.get? (freshKey n) = some fresh :=
    get?_expireIdleStates_of_busy h.ok hf hbusyf
  -- of the two keys with pending work the waiting one does not have the least rank
  have hkey : job.fairnessKey = freshKey n := by
    by_contra hne
    have hold := (get?_expireIdleStates.mp hs).1
    by_cases hnone : job.fairnessKey = none
    · rw [hnone, hw₁, Option.some.injEq] at hs
      subst hs
      obtain ⟨hle, hlast⟩ := rank_le_of_no_active hwa hfa (hleast (freshKey n) fresh hf₁ (by simp [hfp]))
      have hselected := hlast (hle.antisymm (hbelow waiting hw))
      omega
    · have hidle := (h.others job.fairnessKey state hold hnone hne).1
      exact hidle (.inl (by simp [hpending]))
  rw [hkey, hf₁, Option.some.injEq] at hs
  subst hs
  rw [hfp, List.cons.injEq] at hpending
  obtain ⟨rfl, hrest⟩ := hpending
  rw [hp] at heq
  have hget : ∀ key, key ≠ freshKey n →
      q'.states.get? key = (q.expireIdleStates (n + 1)).states.get? key := by
    intro key hne
    rw [heq]
    exact Dict.get?_set_of_ne _ hne _
  refine ⟨q', hp, hflow.ok, hflow.grows.settings.trans h.settings, hnext.trans h.nextJobId,
    ⟨waiting, ?_, hwp, hwa, hwl⟩, ⟨state', ?_, hrest.symm, ?_⟩, fun key state hs hne hnen => ?_⟩
  · rw [hget none (by simp [freshKey])]
    exact hw₁
  · rw [heq]
    exact Dict.get?_set_self _ _ _
  · have hnew : fresh.activeStartedAt.get? (freshJob n).jobId = none := by simp [Dict.get?, hfa]
    rw [hsame.active]
    exact (Dict.entries_set_of_get?_eq_none hnew _).trans (by rw [hfa]; rfl)
  · rw [hget key hnen] at hs
    exact h.others key state (get?_expireIdleStates.mp hs).1 hne hnen

/-- **The completion.**  The client is charged its second and leaves. -/
theorem Holding.leave {n : ℕ} {q : FairPendingQueue} (h : Holding n q) :
    Starving (n + 1) ⟨q.complete (freshJob n) 1000 (n + 2), n + 2⟩ := by
  obtain ⟨waiting, hw, hwp, hwa, hwl⟩ := h.waiting
  obtain ⟨state, hs, hp, ha⟩ := h.fresh
  have hactive : state.activeStartedAt.get? (freshJob n).jobId = some (n + 1 : ℚ) := by
    simp [Dict.get?, ha, freshJob]
  have hok : (q.complete (freshJob n) 1000 (n + 2)).Ok :=
    perform_ok h.ok ⟨.complete (freshJob n) 1000, n + 2⟩
  have hs : q.states.get? (freshJob n).fairnessKey = some state := hs
  have hgone : (state.activeStartedAt.erase (freshJob n).jobId).entries = [] := by
    simp [Dict.erase, Dict.filter, ha, freshJob]
  have hset : (q.complete (freshJob n) 1000 (n + 2)).settings = q.settings :=
    perform_settings q ⟨.complete (freshJob n) 1000, n + 2⟩
  have hget : ∀ key, key ≠ freshKey n →
      (q.complete (freshJob n) 1000 (n + 2)).states.get? key = q.states.get? key := by
    intro key hne
    simp only [complete, hs, hactive]
    exact Dict.get?_set_of_ne _ hne _
  refine ⟨hok, hset.trans h.settings, by push_cast; ring, ?_, ⟨waiting, ?_, hwp, hwa, hwl⟩,
    fun key other ho hne => ?_⟩
  · simp only [complete, hs, hactive]
    rw [h.nextJobId]
  · rw [hget none (by simp [freshKey])]
    exact hw
  · by_cases hnen : key = freshKey n
    · refine ⟨?_, n, by omega, hnen⟩
      subst hnen
      simp only [complete, hs, hactive] at ho
      rw [show (freshJob n).fairnessKey = freshKey n from rfl, Dict.get?_set_self, Option.some.injEq] at ho
      subst ho
      simp [FairnessState.Busy, hp, hgone]
    · rw [hget key hnen] at ho
      obtain ⟨hidle, i, hi, heq⟩ := h.others key other ho hne hnen
      exact ⟨hidle, i, by omega, heq⟩

/-- Without an active job the promise asks for the clock alone. -/
theorem activeTickets_eq_zero {q : FairPendingQueue}
    (h : ∀ key state, q.states.get? key = some state → state.activeStartedAt.entries = []) :
    q.activeTickets = 0 := by
  refine List.sum_eq_zero fun x hx => ?_
  obtain ⟨e, he, rfl⟩ := List.mem_map.mp hx
  simp [Dict.keys, h e.1 e.2 (Dict.get?_eq_some_iff.mpr he)]

theorem activeWithin_of_no_active {q : FairPendingQueue}
    (h : ∀ key state, q.states.get? key = some state → state.activeStartedAt.entries = []) (L now : ℚ) :
    q.ActiveWithin L now := by
  intro e he a ha
  simp [h e.1 e.2 (Dict.get?_eq_some_iff.mpr he)] at ha

theorem Starving.no_active {n : ℕ} {m : Instant} (h : Starving n m) (key : FairnessKey)
    (state : FairnessState) (hs : m.queue.states.get? key = some state) :
    state.activeStartedAt.entries = [] := by
  by_cases hne : key = none
  · obtain ⟨waiting, hw, -, hwa, -⟩ := h.waiting
    rw [hne] at hs
    rwa [← Option.some.inj (hw.symm.trans hs)]
  · simpa [FairnessState.Busy] using (not_or.mp (h.others key state hs hne).1).2

theorem Arrived.no_active {n : ℕ} {q : FairPendingQueue} (h : Arrived n q) (key : FairnessKey)
    (state : FairnessState) (hs : q.states.get? key = some state) : state.activeStartedAt.entries = [] := by
  by_cases hne : key = none
  · obtain ⟨waiting, hw, -, hwa, -⟩ := h.waiting
    rw [hne] at hs
    rwa [← Option.some.inj (hw.symm.trans hs)]
  · by_cases hnen : key = freshKey n
    · obtain ⟨fresh, hf, -, hfa, -⟩ := h.fresh
      rw [hnen] at hs
      rwa [← Option.some.inj (hf.symm.trans hs)]
    · simpa [FairnessState.Busy] using (not_or.mp (h.others key state hs hne hnen).1).2

/-- The client that holds the slot is the only one. -/
theorem Holding.active_eq {n : ℕ} {q : FairPendingQueue} (h : Holding n q) (key : FairnessKey)
    (state : FairnessState) (hs : q.states.get? key = some state) :
    state.activeStartedAt.entries = if key = freshKey n then [((n + 3 : ℕ), (n + 1 : ℚ))] else [] := by
  split_ifs with hnen
  · obtain ⟨holder, hh, -, hha⟩ := h.fresh
    rw [hnen] at hs
    rwa [← Option.some.inj (hh.symm.trans hs)]
  · by_cases hne : key = none
    · obtain ⟨waiting, hw, -, hwa, -⟩ := h.waiting
      rw [hne] at hs
      rwa [← Option.some.inj (hw.symm.trans hs)]
    · simpa [FairnessState.Busy] using (not_or.mp (h.others key state hs hne hnen).1).2

/-- **One round** continues as the bound asks it to (`Continues`): the waiting job is
passed over once, and the next round can begin. -/
theorem Starving.round {n : ℕ} {m : Instant} (h : Starving n m) :
    Run.Along step (Continues waitingJob 1 1000 1000) m (freshRound n) ∧
      bypasses none m (freshRound n) = 1 ∧ Starving (n + 1) (m.run (freshRound n)) := by
  obtain ⟨q₁, henqueue, harrived⟩ := h.arrive
  obtain ⟨q₂, hselect, hholding⟩ := harrived.select
  have hleft := hholding.leave
  have hstep₁ : m.step ⟨.enqueue ⟨"m", freshKey n⟩ (n + 3), n + 1⟩ = ⟨q₁, n + 1⟩ := by
    simp only [step, perform, henqueue]
  have hstep₂ : step ⟨q₁, n + 1⟩ ⟨.popNext, n + 1⟩ = ⟨q₂, n + 1⟩ := by
    simp only [step, perform, hselect]
  have hstep₃ : step ⟨q₂, n + 1⟩ ⟨.complete (freshJob n) 1000, n + 2⟩ =
      ⟨q₂.complete (freshJob n) 1000 (n + 2), n + 2⟩ := rfl
  have harrive : Continues waitingJob 1 1000 1000 m ⟨.enqueue ⟨"m", freshKey n⟩ (n + 3), n + 1⟩ := by
    refine ⟨⟨h.now.le, activeWithin_of_no_active h.no_active _ _, trivial, ?_⟩, ?_, ?_, ?_, ?_⟩
    · rw [hstep₁, activeTickets_eq_zero harrived.no_active]
      exact Nat.zero_le 1
    · simp [Lasts]
    · simp [perform, henqueue]
    · simp
    · simp
  have hpop : Continues waitingJob 1 1000 1000 ⟨q₁, n + 1⟩ ⟨.popNext, n + 1⟩ := by
    refine ⟨⟨le_rfl, activeWithin_of_no_active harrived.no_active _ _, trivial, ?_⟩, ?_, ?_, ?_, ?_⟩
    · obtain ⟨holder, hh, -, hha⟩ := hholding.fresh
      rw [hstep₂, activeTickets, Dict.sum_eq_of_others_zero hh]
      · simp [Dict.keys, hha]
      · intro key state hs hne
        simp [Dict.keys, hholding.active_eq key state hs, hne]
    · simp [Lasts]
    · simp [perform, hselect, freshJob, freshKey, waitingJob]
    · simp
    · simp
  have hcomplete : Continues waitingJob 1 1000 1000 ⟨q₂, n + 1⟩ ⟨.complete (freshJob n) 1000, n + 2⟩ := by
    have hstarted : q₂.startedAt? (freshJob n) = some (n + 1 : ℚ) := by
      obtain ⟨holder, hh, -, hha⟩ := hholding.fresh
      have hh : q₂.states.get? (freshJob n).fairnessKey = some holder := hh
      rw [startedAt?, hh, Option.bind_some]
      simp [Dict.get?, hha, freshJob]
    refine ⟨⟨?_, ?_, ?_, ?_⟩, ?_, ?_, ?_, ?_⟩
    · show (n + 1 : ℚ) ≤ n + 2
      linarith
    · intro e he a ha
      rw [hholding.active_eq e.1 e.2 (Dict.get?_eq_some_iff.mpr he)] at ha
      split_ifs at ha with hkey
      · obtain rfl := List.mem_singleton.mp ha
        show ((n + 2 : ℚ) - (n + 1)) * 1000 ≤ 1000
        linarith
      · simp at ha
    · intro startedAt hs
      obtain rfl := Option.some.inj (hstarted.symm.trans hs)
      show (1000 : ℚ) = (n + 2 - (n + 1)) * 1000
      ring
    · rw [hstep₃, activeTickets_eq_zero hleft.no_active]
      exact Nat.zero_le 1
    · intro job serviceMs hop startedAt hs
      obtain ⟨rfl, rfl⟩ := QueueOp.complete.inj hop
      obtain rfl := Option.some.inj (hstarted.symm.trans hs)
      show (1000 : ℚ) ≤ (n + 2 - (n + 1)) * 1000
      linarith
    · simp [perform]
    · simp
    · simp
  refine ⟨⟨harrive, ?_, ?_, trivial⟩, ?_, ?_⟩
  · rw [hstep₁]
    exact hpop
  · rw [hstep₁, hstep₂]
    exact hcomplete
  · simp only [freshRound, bypasses, hstep₁, hstep₂]
    simp [Bypasses, perform, hselect, freshJob, freshKey]
  · simp only [freshRound, run, List.foldl_cons, List.foldl_nil, hstep₁, hstep₂, hstep₃]
    exact hleft

theorem bypasses_append (j : FairnessKey) (m : Instant) (calls later : List QueueCall) :
    bypasses j m (calls ++ later) = bypasses j m calls + bypasses j (m.run calls) later := by
  induction calls generalizing m with
  | nil => simp [bypasses, run]
  | cons c calls ih =>
    rw [List.cons_append, bypasses, bypasses, ih, add_assoc]
    rfl

/-- After `n` rounds the waiting job has been passed over `n` times. -/
theorem starving_rounds (n : ℕ) :
    ∃ calls, Run.Along step (Continues waitingJob 1 1000 1000)
        ⟨(FairPendingQueue.init "m" .pair).run waitingCalls, 1⟩ calls ∧
      bypasses none ⟨(FairPendingQueue.init "m" .pair).run waitingCalls, 1⟩ calls = n ∧
      Starving n (run ⟨(FairPendingQueue.init "m" .pair).run waitingCalls, 1⟩ calls) := by
  induction n with
  | zero => exact ⟨[], trivial, rfl, starving_start⟩
  | succ n ih =>
    obtain ⟨calls, hcalls, hcount, hstarving⟩ := ih
    obtain ⟨hround, hone, hnext⟩ := hstarving.round
    refine ⟨calls ++ freshRound n, Run.along_append.mpr ⟨hcalls, hround⟩, ?_, ?_⟩
    · rw [bypasses_append, hcount, hone]
    · rwa [run, List.foldl_append]

/-- The first round, within the bound. -/
theorem bypasses_bounded_first_round :
    let m : Instant := ⟨(FairPendingQueue.init "m" .pair).run waitingCalls, 1⟩
    ∃ state ∈ m.queue.states.get? none, (bypasses none m (freshRound 0) : ℚ) ≤
      m.inHand none 1 1000 (state.cap 1000) +
        ((m.run (freshRound 0)).queue.nextActivationOrder - m.queue.nextActivationOrder : ℚ) *
          (state.cap 1000 * FairnessSettings.pair.maxWeight / 1000 + (1 : ℕ)) := by
  obtain ⟨state, hs, hp, -⟩ := starving_start.waiting
  exact ⟨state, hs, bypasses_bounded "m" .pair waitingCalls (freshRound 0) 1 waitingJob 1 1000 1000
    (by norm_num) (by norm_num) state hs (by simp [hp]) starving_start.round.1⟩

/-- **No bound without the new keys.**  The waiting job, the slot, and the
durations fixed, there is no bound on how often new keys are selected past
it. -/
theorem unbounded_bypass : ¬ ∃ bound : Instant → ℕ → ℚ → ℚ → ℕ,
    ∀ (modelName : String) (settings : FairnessSettings) (before calls : List QueueCall) (start : ℚ)
      (job : SchedulerJob) (C : ℕ) (d L : ℚ), 0 < d → 0 ≤ L →
      job ∈ ((FairPendingQueue.init modelName settings).run before).pendingJobs →
      Run.Along step (Continues job C d L) ⟨(FairPendingQueue.init modelName settings).run before, start⟩ calls →
      bypasses job.fairnessKey ⟨(FairPendingQueue.init modelName settings).run before, start⟩ calls ≤
        bound ⟨(FairPendingQueue.init modelName settings).run before, start⟩ C d L := by
  rintro ⟨bound, hbound⟩
  set m : Instant := ⟨(FairPendingQueue.init "m" .pair).run waitingCalls, 1⟩ with hm
  obtain ⟨calls, hcalls, hcount, -⟩ := starving_rounds (bound m 1 1000 1000 + 1)
  obtain ⟨waiting, hw, hwp, -⟩ := starving_start.waiting
  have hpending := mem_pendingJobs_of_get? hw (hwp ▸ List.mem_singleton.mpr rfl : waitingJob ∈ waiting.pendingJobs)
  have hle := hbound "m" .pair waitingCalls calls 1 waitingJob 1 1000 1000 (by norm_num) (by norm_num)
    hpending hcalls
  rw [show waitingJob.fairnessKey = none from rfl, ← hm, hcount] at hle
  omega

end Instant
end TtsPool
