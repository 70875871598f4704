/-
# Runs that are metered exactly

What the executor promises the queue: the clock does not go back, no more than
`C` jobs are active at once, none is active longer than `L` milliseconds, and a
job that leaves its slot is charged exactly the time it was active.  `Metered`
is that promise at one call, and a run keeps it at every call.

Under it a score moves with the clock only: `pop_next` adds a job that has not
run yet, and `complete` moves the elapsed time of a job into the account.
Beside the score stands the cap, `FairnessState.cap`: the account with every
active job counted at the full `L`.  The cap is never below the score, it does
not move with the clock, and only a selection raises it.
-/

import TtsPool.Fair.Account
import TtsPool.Support.Run
import Mathlib.Tactic.Linarith
import Mathlib.Tactic.Ring

namespace TtsPool

namespace FairnessState

/-- The elapsed milliseconds of the active jobs, as the score adds them up. -/
theorem score_eq (state : FairnessState) (now : ℚ) :
    state.score now = state.virtualServiceMs +
      (state.activeStartedAt.sum fun _ startedAt => max 0 (now - startedAt) * 1000) / state.weight := by
  simp only [score, Dict.values, Dict.sum, List.map_map, Function.comp_def]

/-- The account with every active job counted at `L` milliseconds. -/
def cap (state : FairnessState) (L : ℚ) : ℚ :=
  state.virtualServiceMs + state.activeStartedAt.size * L / state.weight

theorem SameAccount.cap_eq {state state' : FairnessState} (h : state.SameAccount state') (L : ℚ) :
    state'.cap L = state.cap L := by
  simp only [cap, h.weight, h.account, h.active]

variable {state : FairnessState} {L now : ℚ}

theorem account_le_score (hw : 0 < state.weight) (now : ℚ) :
    state.virtualServiceMs ≤ state.score now := by
  rw [score_eq, le_add_iff_nonneg_right]
  refine div_nonneg (List.sum_nonneg fun x hx => ?_) hw.le
  obtain ⟨e, -, rfl⟩ := List.mem_map.mp hx
  positivity

/-- A score does not fall with time. -/
theorem score_mono (hw : 0 < state.weight) {later : ℚ} (hle : now ≤ later) :
    state.score now ≤ state.score later := by
  simp only [score_eq, Dict.sum]
  gcongr _ + ?_ / _
  refine List.sum_le_sum fun a _ => ?_
  gcongr

/-- The cap bounds the score while no job is active longer than `L`. -/
theorem score_le_cap (hw : 0 < state.weight) (hL : 0 ≤ L)
    (h : ∀ a ∈ state.activeStartedAt.entries, (now - a.2) * 1000 ≤ L) : state.score now ≤ state.cap L := by
  rw [score_eq, cap]
  gcongr _ + ?_ / _
  have hle := List.sum_le_card_nsmul
    (state.activeStartedAt.entries.map fun a => max 0 (now - a.2) * 1000) L fun x hx => by
      obtain ⟨a, ha, rfl⟩ := List.mem_map.mp hx
      rw [max_mul_of_nonneg _ _ (by norm_num), zero_mul]
      exact max_le hL (h a ha)
  rwa [List.length_map, nsmul_eq_mul] at hle

/-- The cap is over the score by at most a full job for every slot. -/
theorem cap_le_score (hw : 0 < state.weight) (hL : 0 ≤ L) {C : ℕ} (hC : state.activeStartedAt.size ≤ C)
    (now : ℚ) : state.cap L ≤ state.score now + C * L / state.weight := by
  have h := account_le_score hw now
  have hC' : (state.activeStartedAt.size : ℚ) ≤ C := by exact_mod_cast hC
  unfold cap
  gcongr

/-- With the clock a score rises by the elapsed time of every active job. -/
theorem score_elapse {later : ℚ} (hstarted : ∀ a ∈ state.activeStartedAt.entries, a.2 ≤ now)
    (hle : now ≤ later) : state.score later =
      state.score now + state.activeStartedAt.size * ((later - now) * 1000) / state.weight := by
  have hsum : (state.activeStartedAt.sum fun _ startedAt => max 0 (later - startedAt) * 1000) =
      (state.activeStartedAt.sum fun _ startedAt => max 0 (now - startedAt) * 1000) +
        state.activeStartedAt.size * ((later - now) * 1000) := by
    unfold Dict.sum Dict.size
    generalize state.activeStartedAt.entries = es at hstarted
    induction es with
    | nil => simp
    | cons a as ih =>
      have ha : a.2 ≤ now := hstarted a (by simp)
      have has := ih fun b hb => hstarted b (by simp [hb])
      simp only [List.map_cons, List.sum_cons, List.length_cons, has,
        max_eq_right (sub_nonneg.mpr ha), max_eq_right (sub_nonneg.mpr (ha.trans hle))]
      push_cast
      ring
  simp only [score_eq, hsum]
  ring

/-- A job started now has not run yet. -/
theorem score_started {id : ℕ} (hnew : state.activeStartedAt.get? id = none) (now : ℚ) :
    { state with activeStartedAt := state.activeStartedAt.set id now }.score now = state.score now := by
  simp only [score_eq]
  rw [Dict.sum_set_new hnew]
  simp

/-- Charging a job exactly moves its time from the active jobs to the
account. -/
theorem score_charged {id : ℕ} {startedAt : ℚ}
    (hactive : state.activeStartedAt.get? id = some startedAt) (now : ℚ) :
    { state with
      activeStartedAt := state.activeStartedAt.erase id
      virtualServiceMs := state.virtualServiceMs + max 0 ((now - startedAt) * 1000) / state.weight }.score now =
      state.score now := by
  have hsum := Dict.sum_erase hactive fun _ startedAt => max 0 (now - startedAt) * 1000
  simp only [score_eq, ← hsum]
  rw [max_mul_of_nonneg _ _ (by norm_num), zero_mul]
  ring

/-- Charging a job at most `L` does not raise the cap. -/
theorem cap_charged (hw : 0 < state.weight) (hL : 0 ≤ L) {id : ℕ} {startedAt serviceMs : ℚ}
    (hactive : state.activeStartedAt.get? id = some startedAt) (hle : serviceMs ≤ L) :
    { state with
      activeStartedAt := state.activeStartedAt.erase id
      virtualServiceMs := state.virtualServiceMs + max 0 serviceMs / state.weight }.cap L ≤ state.cap L := by
  have hcharge : max 0 serviceMs / state.weight ≤ L / state.weight := by
    gcongr
    exact max_le hL hle
  simp only [cap, ← Dict.size_erase hactive, Nat.cast_add, Nat.cast_one, add_mul, one_mul, add_div]
  linarith

end FairnessState

namespace FairPendingQueue

/-- When the job was started, if it is active. -/
def startedAt? (q : FairPendingQueue) (job : SchedulerJob) : Option ℚ :=
  (q.states.get? job.fairnessKey).bind fun state => state.activeStartedAt.get? job.jobId

/-- No active job has run longer than `L` milliseconds. -/
def ActiveWithin (q : FairPendingQueue) (L now : ℚ) : Prop :=
  ∀ e ∈ q.states.entries, ∀ a ∈ e.2.activeStartedAt.entries, (now - a.2) * 1000 ≤ L

/-- An active job leaves its slot only charged, for the time it was active. -/
def ChargesExactly (q : FairPendingQueue) (c : QueueCall) : Prop :=
  match c.op with
  | .complete job serviceMs => ∀ startedAt ∈ q.startedAt? job, serviceMs = (c.now - startedAt) * 1000
  | .abandon _ => False
  | _ => True

instance (q : FairPendingQueue) (L now : ℚ) : Decidable (q.ActiveWithin L now) :=
  inferInstanceAs (Decidable (∀ e ∈ q.states.entries, ∀ a ∈ e.2.activeStartedAt.entries, _))

instance (q : FairPendingQueue) (c : QueueCall) : Decidable (q.ChargesExactly c) := by
  unfold ChargesExactly
  split <;> infer_instance

end FairPendingQueue

/-- The queue and the time its last call was made. -/
structure Instant where
  queue : FairPendingQueue
  now : ℚ

namespace Instant

open FairPendingQueue

/-- One call, at its time. -/
def step (m : Instant) (c : QueueCall) : Instant := ⟨(m.queue.perform c).1, c.now⟩

/-- A sequence of calls, each at its time. -/
def run (m : Instant) (calls : List QueueCall) : Instant := calls.foldl step m

theorem run_queue (m : Instant) (calls : List QueueCall) : (m.run calls).queue = m.queue.run calls := by
  induction calls generalizing m with
  | nil => rfl
  | cons c calls ih => exact ih (m.step c)

/-- A queue not called yet. -/
def init (modelName : String) (settings : FairnessSettings) (now : ℚ) : Instant :=
  ⟨.init modelName settings, now⟩

/-- The promise at one call. -/
structure Metered (C : ℕ) (L : ℚ) (m : Instant) (c : QueueCall) : Prop where
  clock : m.now ≤ c.now
  duration : m.queue.ActiveWithin L c.now
  charge : m.queue.ChargesExactly c
  capacity : (m.step c).queue.activeTickets.card ≤ C

instance (C : ℕ) (L : ℚ) (m : Instant) (c : QueueCall) : Decidable (Metered C L m c) :=
  decidable_of_iff (m.now ≤ c.now ∧ m.queue.ActiveWithin L c.now ∧ m.queue.ChargesExactly c ∧
      (m.step c).queue.activeTickets.card ≤ C)
    ⟨fun ⟨h₁, h₂, h₃, h₄⟩ => ⟨h₁, h₂, h₃, h₄⟩, fun ⟨h₁, h₂, h₃, h₄⟩ => ⟨h₁, h₂, h₃, h₄⟩⟩

/-- The queue is in order and no active job was started later than now. -/
structure Ok (m : Instant) : Prop where
  queue : m.queue.Ok
  started : ∀ key state, m.queue.states.get? key = some state →
    ∀ a ∈ state.activeStartedAt.entries, a.2 ≤ m.now

theorem init_ok (modelName : String) (settings : FairnessSettings) (now : ℚ) :
    (init modelName settings now).Ok :=
  ⟨FairPendingQueue.init_ok modelName settings, fun key state hs => by
    simp [init, FairPendingQueue.init] at hs⟩

/-- Waiting does no harm. -/
theorem Ok.later {m : Instant} (h : m.Ok) {now : ℚ} (hle : m.now ≤ now) :
    Ok ⟨m.queue, now⟩ :=
  ⟨h.queue, fun key state hs a ha => (h.started key state hs a ha).trans hle⟩

theorem Ok.step {m : Instant} (h : m.Ok) {c : QueueCall} (hclock : m.now ≤ c.now) : (m.step c).Ok := by
  refine ⟨perform_ok h.queue c, fun key state' hs' a ha => ?_⟩
  have hold : ∀ state, (m.queue.aged c).states.get? key = some state →
      ∀ b ∈ state.activeStartedAt.entries, b.2 ≤ c.now := fun state hs b hb =>
    (h.started key state (get?_of_get?_aged hs) b hb).trans hclock
  cases get?_perform h.queue c hs' with
  | kept state hs hsame => exact hold state hs a (hsame.active ▸ ha)
  | entered request streamHandle hop hkey hs hnext hsame =>
    rw [hsame.active] at ha
    cases ha
  | started state job hop hs hreply hkey hpending hleast hsame =>
    rw [hsame.active] at ha
    rcases Dict.mem_entries_set.mp ha with ⟨-, hv⟩ | ⟨-, hm⟩
    · exact hv.le
    · exact hold state hs a hm
  | charged state job serviceMs startedAt hop hkey hs hactive hsame =>
    rw [hsame.active] at ha
    exact hold state hs a (List.mem_filter.mp ha).1
  | released state job hop hkey hs hsame =>
    rw [hsame.active] at ha
    exact hold state hs a (List.mem_filter.mp ha).1

/-- What a metered run keeps: the queue in order, its settings, the capacity. -/
structure Kept (settings : FairnessSettings) (C : ℕ) (m : Instant) : Prop where
  ok : m.Ok
  settings : m.queue.settings = settings
  capacity : m.queue.activeTickets.card ≤ C

theorem Kept.init (modelName : String) (settings : FairnessSettings) (C : ℕ) (now : ℚ) :
    Kept settings C (init modelName settings now) :=
  ⟨init_ok modelName settings now, rfl, Nat.zero_le C⟩

theorem Kept.step {settings : FairnessSettings} {C : ℕ} {L : ℚ} {m : Instant} {c : QueueCall}
    (h : Kept settings C m) (hc : Metered C L m c) : Kept settings C (m.step c) :=
  ⟨h.ok.step hc.clock, (perform_settings m.queue c).trans h.settings, hc.capacity⟩

theorem Kept.run {settings : FairnessSettings} {C : ℕ} {L : ℚ} {m : Instant} (h : Kept settings C m)
    {calls : List QueueCall} (hcalls : Run.Along Instant.step (Metered C L) m calls) :
    Kept settings C (m.run calls) :=
  hcalls.foldl_of h fun _ _ hm hc => hm.step hc

theorem Kept.later {settings : FairnessSettings} {C : ℕ} {m : Instant} (h : Kept settings C m) {now : ℚ}
    (hle : m.now ≤ now) : Kept settings C ⟨m.queue, now⟩ := ⟨h.ok.later hle, h.settings, h.capacity⟩

/-- **A key that stays, over one call.**  Its score at the time of the call is
what it was, and its cap does not rise, unless `pop_next` selects the key, which
then has the least score of all keys with pending work. -/
theorem Metered.stays {C : ℕ} {L : ℚ} {m : Instant} {c : QueueCall} (hc : Metered C L m c)
    (h : m.queue.Ok) (hL : 0 ≤ L) {key : FairnessKey} {state state' : FairnessState}
    (hs : (m.queue.aged c).states.get? key = some state)
    (hs' : (m.step c).queue.states.get? key = some state') :
    state'.score c.now = state.score c.now ∧ (state'.cap L ≤ state.cap L ∨
      (∃ job, (m.queue.perform c).2 = .popped (some job) ∧ job.fairnessKey = key) ∧
        ∀ other s, (m.queue.aged c).states.get? other = some s → s.pendingJobs ≠ [] →
          state.score c.now ≤ s.score c.now) := by
  have hok := (aged_ok h c).states key state hs
  cases get?_perform h c hs' with
  | kept s hsk hsame =>
    obtain rfl := Option.some.inj (hs.symm.trans hsk)
    exact ⟨hsame.score_eq c.now, .inl (hsame.cap_eq L).le⟩
  | entered request streamHandle hop hkey hsk hnext hsame => simp [hs] at hsk
  | started s job hop hsk hreply hkey hpending hleast hsame =>
    obtain rfl := Option.some.inj (hs.symm.trans hsk)
    refine ⟨(hsame.score_eq c.now).trans (FairnessState.score_started (hok.get?_active hpending) c.now),
      .inr ⟨⟨job, by simp only [perform, hop, hreply], hkey⟩, fun other t ht hne => ?_⟩⟩
    exact (Prod.Lex.le_iff.mp (hleast other t ht hne)).elim le_of_lt fun heq => heq.1.le
  | charged s job serviceMs startedAt hop hkey hsk hactive hsame =>
    obtain rfl := Option.some.inj (hs.symm.trans hsk)
    have hold : m.queue.states.get? key = some state := get?_of_get?_aged hs
    have hexact : serviceMs = (c.now - startedAt) * 1000 := by
      have hcharge := hc.charge
      rw [ChargesExactly, hop] at hcharge
      exact hcharge startedAt (by simp [startedAt?, hkey, hold, hactive])
    have hle : serviceMs ≤ L := hexact ▸ hc.duration _ (Dict.get?_eq_some_iff.mp hold) _
      (Dict.get?_eq_some_iff.mp hactive)
    refine ⟨(hsame.score_eq c.now).trans ?_, .inl ((hsame.cap_eq L).trans_le ?_)⟩
    · rw [hexact]
      exact FairnessState.score_charged hactive c.now
    · exact FairnessState.cap_charged hok.weight_pos hL hactive hle
  | released s job hop hkey hsk hsame =>
    have hcharge := hc.charge
    rw [ChargesExactly, hop] at hcharge
    exact hcharge.elim

end Instant
end TtsPool
