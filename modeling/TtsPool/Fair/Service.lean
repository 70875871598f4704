/-
# Fairness of the service charged

A caller of the queue need not charge a job the time it was active.  The executor
charges the time of the backend call alone, and reads the clock for it before it
has `_cond`; so a charge is less than the job's time in its slot, by an amount
nobody bounds, and comes with a reading that may be older than the queue's last.
Fairness is then about what was charged.

The account of a key rises by what it is charged, over the weight
(`account_rise`), and does nothing else while the key stays.  At a selection the
account of the key selected is below its score, and the score of the other below
its account with every job of its counted in full, so the two accounts part by no
more than the slots counted in full (`Abreast.step`).  Between two selections the
gaining key's account stays below its cap, which a charge does not raise.  No clock
has to be in order for that.
-/

import TtsPool.Fair.Metered

namespace TtsPool

/-- The milliseconds a call has a job charged with. -/
def QueueOp.chargeMs : QueueOp → ℚ
  | .complete _ serviceMs => serviceMs
  | _ => 0

namespace FairnessState

/-- The cap stands over the account by the slots the key holds. -/
theorem account_le_cap {state : FairnessState} {L : ℚ} (hw : 0 < state.weight) (hL : 0 ≤ L) :
    state.virtualServiceMs ≤ state.cap L := by
  unfold cap
  rw [le_add_iff_nonneg_right]
  positivity

end FairnessState

namespace FairPendingQueue

variable {q : FairPendingQueue} {c : QueueCall} {key i j : FairnessKey} {state state' : FairnessState}
  {C : ℕ} {L : ℚ}

/-- The milliseconds a call charges to a key. -/
def chargedMs (q : FairPendingQueue) (key : FairnessKey) (c : QueueCall) : ℚ :=
  match c.op with
  | .complete job serviceMs => if job.fairnessKey = key ∧ (q.startedAt? job).isSome then max 0 serviceMs else 0
  | _ => 0

/-- The milliseconds charged to a key along a run. -/
def serviceMs (key : FairnessKey) : FairPendingQueue → List QueueCall → ℚ
  | _, [] => 0
  | q, c :: calls => q.chargedMs key c + serviceMs key (q.perform c).1 calls

/-- What stands on a key's account. -/
def accountMs (q : FairPendingQueue) (key : FairnessKey) : ℚ :=
  ((q.states.get? key).map FairnessState.virtualServiceMs).getD 0

/-- Two keys compete in a call: both are busy after it, and a selection finds both
with pending work.  No job takes longer than `L` milliseconds, as the selections
see it and as it is charged, and no more than `C` are active at once. -/
structure Contest (i j : FairnessKey) (C : ℕ) (L : ℚ) (q : FairPendingQueue) (c : QueueCall) : Prop where
  left : (q.perform c).1.KeyBusy i
  right : (q.perform c).1.KeyBusy j
  pending : c.op = .popNext → q.KeyPending i ∧ q.KeyPending j
  elapsed : c.op = .popNext → q.ActiveWithin L c.now
  charge : c.op.chargeMs ≤ L
  capacity : (q.perform c).1.activeTickets.card ≤ C

theorem Contest.symm (h : Contest i j C L q c) : Contest j i C L q c :=
  ⟨h.right, h.left, fun hop => (h.pending hop).symm, h.elapsed, h.charge, h.capacity⟩

/-- Two keys hold no more slots than there are active jobs. -/
theorem size_add_size_le (hne : i ≠ j) (hi : q.states.get? i = some state)
    (hj : q.states.get? j = some state') :
    state.activeStartedAt.size + state'.activeStartedAt.size ≤ q.activeTickets.card := by
  have hcard : q.activeTickets.card = q.states.sum fun _ state => state.activeStartedAt.size := by
    rw [activeTickets, Dict.card_sum]
    simp [Dict.size, Dict.keys]
  have hleft := Dict.sum_erase hi fun _ state => state.activeStartedAt.size
  have hright := Dict.sum_erase ((Dict.get?_erase_of_ne q.states hne.symm).trans hj)
    fun _ state => state.activeStartedAt.size
  omega

/-- A call that charges a key completes an active job of it. -/
theorem chargedMs_cases (hs : q.states.get? key = some state) :
    q.chargedMs key c = 0 ∧ (∀ job serviceMs, c.op = .complete job serviceMs → job.fairnessKey = key →
        state.activeStartedAt.get? job.jobId = none) ∨
      ∃ job serviceMs startedAt state', c.op = .complete job serviceMs ∧
        state.activeStartedAt.get? job.jobId = some startedAt ∧ q.chargedMs key c = max 0 serviceMs ∧
        (q.perform c).1.states.get? key = some state' ∧ { state with
          activeStartedAt := state.activeStartedAt.erase job.jobId
          virtualServiceMs := state.virtualServiceMs + max 0 serviceMs / state.weight }.SameAccount state' := by
  by_cases hcharges : ∃ job serviceMs, c.op = .complete job serviceMs ∧ job.fairnessKey = key ∧
      ∃ startedAt, state.activeStartedAt.get? job.jobId = some startedAt
  · obtain ⟨job, serviceMs, hop, rfl, startedAt, hactive⟩ := hcharges
    refine .inr ⟨job, serviceMs, startedAt, ?charged, hop, hactive, ?charge, ?get, ?same⟩
    case charge => simp [chargedMs, hop, startedAt?, hs, hactive]
    case get =>
      simp only [perform, hop, complete, hs, hactive]
      exact Dict.get?_set_self (α := FairnessKey) _ _ _
    case same =>
      refine FairnessState.SameAccount.markIdleIfNeeded ?_ c.now
      exact ⟨rfl, rfl, rfl⟩
  · have hnone : ∀ job serviceMs, c.op = .complete job serviceMs → job.fairnessKey = key →
        state.activeStartedAt.get? job.jobId = none := by
      intro job serviceMs hop hkey
      by_contra hsome
      obtain ⟨startedAt, hactive⟩ := Option.ne_none_iff_exists'.mp hsome
      exact hcharges ⟨job, serviceMs, hop, hkey, startedAt, hactive⟩
    refine .inl ⟨?_, hnone⟩
    unfold chargedMs
    split
    · rename_i job serviceMs hop
      rw [if_neg]
      rintro ⟨rfl, hsome⟩
      simp [startedAt?, hs, hnone job serviceMs hop rfl] at hsome
    · rfl

/-- **A key that stays, over one call.**  Its account rises by what the call charges
it; and its cap does not rise, unless `pop_next` selects it for one more slot, with
the least score of all keys with pending work. -/
theorem account_stays (h : q.Ok) (hL : 0 ≤ L) (hcharge : c.op.chargeMs ≤ L)
    (hs : q.states.get? key = some state) (hb : state.Busy) (hs' : (q.perform c).1.states.get? key = some state') :
    state'.virtualServiceMs = state.virtualServiceMs + q.chargedMs key c / state.weight ∧
      (state'.cap L ≤ state.cap L ∨
        (∃ job, (q.perform c).2 = .popped (some job) ∧ job.fairnessKey = key) ∧
          state'.virtualServiceMs = state.virtualServiceMs ∧
            ∀ other s, (q.aged c).states.get? other = some s → s.pendingJobs ≠ [] →
              state.score c.now ≤ s.score c.now) := by
  have hw := (h.states key state hs).weight_pos
  have haged := get?_aged_of_busy h c hs hb
  rcases chargedMs_cases (c := c) hs with ⟨hzero, hnone⟩ |
    ⟨job, ms, startedAt, charged, hop, hactive, hms, hget, hsame⟩
  · rw [hzero, zero_div, add_zero]
    cases get?_perform h c hs' with
    | kept s hsk hsame =>
      obtain rfl := Option.some.inj (haged.symm.trans hsk)
      exact ⟨hsame.account, .inl (hsame.cap_eq L).le⟩
    | entered request streamHandle hop hkey hsk hnext hsame => simp [haged] at hsk
    | started s job hop hsk hreply hkey hpending hleast hsame =>
      obtain rfl := Option.some.inj (haged.symm.trans hsk)
      refine ⟨hsame.account, .inr ⟨⟨job, by simp only [perform, hop, hreply], hkey⟩, hsame.account,
        fun other t ht hne => ?_⟩⟩
      exact (Prod.Lex.le_iff.mp (hleast other t ht hne)).elim le_of_lt fun heq => heq.1.le
    | charged s job ms startedAt hop hkey hsk hactive hsame =>
      obtain rfl := Option.some.inj (haged.symm.trans hsk)
      simp [hnone job ms hop hkey] at hactive
    | released s job hop hkey hsk hsame =>
      obtain rfl := Option.some.inj (haged.symm.trans hsk)
      refine ⟨hsame.account, .inl ?_⟩
      have hsize : (state.activeStartedAt.erase job.jobId).size ≤ state.activeStartedAt.size :=
        List.length_filter_le _ _
      rw [hsame.cap_eq]
      simp only [FairnessState.cap]
      gcongr
  · obtain rfl := Option.some.inj (hget.symm.trans hs')
    refine ⟨by rw [hsame.account, hms], .inl ?_⟩
    rw [hop] at hcharge
    exact (hsame.cap_eq L).trans_le (FairnessState.cap_charged hw hL hactive hcharge)

/-- A selection leaves the other keys as they are. -/
theorem get?_of_popped (h : q.Ok) {job : SchedulerJob} (hreply : (q.perform c).2 = .popped (some job))
    (hne : key ≠ job.fairnessKey) : (q.perform c).1.states.get? key = (q.aged c).states.get? key := by
  have hop := op_of_popped hreply
  have hpop : (q.popNext c.now).2 = some job := by simpa [perform, hop] using hreply
  obtain ⟨state, state', -, heq, -, -, -⟩ := popNext_started h hpop
  simp only [perform, aged, hop, heq]
  exact Dict.get?_set_of_ne _ hne _

/-! ### Two accounts -/

/-- What a run of contested calls keeps: the cap of `i` is over the account of `j` by
at most `bound`. -/
structure Abreast (settings : FairnessSettings) (i j : FairnessKey) (L bound : ℚ) (q : FairPendingQueue) :
    Prop where
  ok : q.Ok
  settings : q.settings = settings
  abreast : ∃ stateI stateJ, q.states.get? i = some stateI ∧ q.states.get? j = some stateJ ∧
    stateI.Busy ∧ stateJ.Busy ∧ stateI.cap L ≤ stateJ.virtualServiceMs + bound

variable {settings : FairnessSettings} {bound : ℚ}

/-- **The step.**  A selection of `i` finds its account below the account of `j` with
the slots of `j` counted in full, and leaves the two no more than `C` slots between
them; no other call raises the cap of `i`, and none lowers the account of `j`. -/
theorem Abreast.step (hL : 0 ≤ L) (hne : i ≠ j)
    (hbound : C * L / min (settings.weight i) (settings.weight j) ≤ bound)
    (h : Abreast settings i j L bound q) (hc : Contest i j C L q c) :
    Abreast settings i j L bound (q.perform c).1 := by
  obtain ⟨stateI, stateJ, hi, hj, hbi, hbj, hlevel⟩ := h.abreast
  obtain ⟨stateI', hi', hbi'⟩ := hc.left
  obtain ⟨stateJ', hj', hbj'⟩ := hc.right
  obtain ⟨-, hcapI⟩ := account_stays h.ok hL hc.charge hi hbi hi'
  obtain ⟨haccountJ, -⟩ := account_stays h.ok hL hc.charge hj hbj hj'
  have hokJ := h.ok.states j stateJ hj
  have hrise : stateJ.virtualServiceMs ≤ stateJ'.virtualServiceMs := by
    rw [haccountJ, le_add_iff_nonneg_right]
    refine div_nonneg ?_ hokJ.weight_pos.le
    unfold chargedMs
    split
    · split_ifs
      · exact le_max_left _ _
      · exact le_rfl
    · exact le_rfl
  have hok' : (q.perform c).1.Ok := perform_ok h.ok c
  have hset : (q.perform c).1.settings = settings := (perform_settings q c).trans h.settings
  refine ⟨hok', hset, stateI', stateJ', hi', hj', hbi', hbj', ?_⟩
  rcases hcapI with hcap | ⟨⟨job, hreply, hkey⟩, haccountI, hleast⟩
  · linarith
  · have hop := op_of_popped hreply
    obtain ⟨-, s, hs, hpending⟩ := hc.pending hop
    obtain rfl := Option.some.inj (hj.symm.trans hs)
    have hagedJ := get?_aged_of_busy h.ok c hj hbj
    have hsameJ : stateJ' = stateJ :=
      Option.some.inj (hj'.symm.trans ((get?_of_popped h.ok hreply (hkey ▸ hne.symm)).trans hagedJ))
    have hunder : stateI.virtualServiceMs ≤ stateJ.cap L :=
      calc stateI.virtualServiceMs
        _ ≤ stateI.score c.now := FairnessState.account_le_score (h.ok.states i stateI hi).weight_pos c.now
        _ ≤ stateJ.score c.now := hleast j stateJ hagedJ hpending
        _ ≤ stateJ.cap L := FairnessState.score_le_cap hokJ.weight_pos hL
          (hc.elapsed hop (j, stateJ) (Dict.get?_eq_some_iff.mp hj))
    have hslots : (stateI'.activeStartedAt.size + stateJ.activeStartedAt.size : ℚ) ≤ C := by
      exact_mod_cast (size_add_size_le hne hi' (hsameJ ▸ hj')).trans hc.capacity
    have hmin : 0 < min (settings.weight i) (settings.weight j) :=
      lt_min (settings.weight_pos i) (settings.weight_pos j)
    have hwI : stateI'.weight = settings.weight i := by rw [(hok'.states i stateI' hi').weight, hset]
    have hwJ : stateJ.weight = settings.weight j := by rw [hokJ.weight, h.settings]
    have hfullI : stateI'.activeStartedAt.size * L / stateI'.weight ≤
        stateI'.activeStartedAt.size * L / min (settings.weight i) (settings.weight j) := by
      rw [hwI]
      gcongr
      exact min_le_left _ _
    have hfullJ : stateJ.activeStartedAt.size * L / stateJ.weight ≤
        stateJ.activeStartedAt.size * L / min (settings.weight i) (settings.weight j) := by
      rw [hwJ]
      gcongr
      exact min_le_right _ _
    have htogether : stateI'.activeStartedAt.size * L / min (settings.weight i) (settings.weight j) +
        stateJ.activeStartedAt.size * L / min (settings.weight i) (settings.weight j) ≤ bound := by
      refine le_trans ?_ hbound
      rw [← add_div, ← add_mul]
      gcongr
    unfold FairnessState.cap at hunder ⊢
    rw [hsameJ, haccountI]
    linarith

/-- **An account is what was charged**, over the weight, on top of what stood there. -/
theorem account_rise (hL : 0 ≤ L) (h : q.Ok) {calls : List QueueCall}
    (hcalls : Run.Along (fun q c => (q.perform c).1) (Contest i j C L) q calls) (hs : q.states.get? i = some state)
    (hb : state.Busy) (hs' : (q.run calls).states.get? i = some state') :
    state'.virtualServiceMs = state.virtualServiceMs + serviceMs i q calls / q.settings.weight i := by
  induction calls generalizing q state with
  | nil =>
    obtain rfl := Option.some.inj (hs.symm.trans hs')
    simp [serviceMs]
  | cons c calls ih =>
    obtain ⟨hc, hrest⟩ := hcalls
    obtain ⟨after, ha, hba⟩ := hc.left
    obtain ⟨hone, -⟩ := account_stays h hL hc.charge hs hb ha
    have hset : (q.perform c).1.settings = q.settings := perform_settings q c
    rw [ih (perform_ok h c) hrest ha hba hs', hone, (h.states i state hs).weight, hset, serviceMs]
    ring

/-- **One key's gain.**  What `i` is charged over its weight is over what `j` is charged
over its own by at most the lead of the account of `j` and `C * L` over the lesser
weight. -/
theorem service_gain (hL : 0 ≤ L) (hne : i ≠ j) (h : q.Ok) {calls : List QueueCall}
    (hcalls : Run.Along (fun q c => (q.perform c).1) (Contest i j C L) q calls)
    (hi : q.KeyBusy i) (hj : q.KeyBusy j) (hcapacity : q.activeTickets.card ≤ C) :
    serviceMs i q calls / q.settings.weight i - serviceMs j q calls / q.settings.weight j ≤
      max 0 (q.accountMs j - q.accountMs i) + C * L / min (q.settings.weight i) (q.settings.weight j) := by
  obtain ⟨stateI, hsI, hbi⟩ := hi
  obtain ⟨stateJ, hsJ, hbj⟩ := hj
  have haccountI : q.accountMs i = stateI.virtualServiceMs := by rw [accountMs, Option.mem_def.mp hsI]; rfl
  have haccountJ : q.accountMs j = stateJ.virtualServiceMs := by rw [accountMs, Option.mem_def.mp hsJ]; rfl
  have hmin : 0 < min (q.settings.weight i) (q.settings.weight j) :=
    lt_min (q.settings.weight_pos i) (q.settings.weight_pos j)
  set slack := C * L / min (q.settings.weight i) (q.settings.weight j) with hslack
  have hstart : Abreast q.settings i j L (max 0 (q.accountMs i - q.accountMs j) + slack) q := by
    refine ⟨h, rfl, stateI, stateJ, hsI, hsJ, hbi, hbj, ?_⟩
    have hfull : stateI.activeStartedAt.size * L / stateI.weight ≤ slack := by
      have hsize : (stateI.activeStartedAt.size : ℚ) ≤ C := by
        exact_mod_cast (size_le_activeTickets hsI).trans hcapacity
      rw [(h.states i stateI hsI).weight, hslack]
      gcongr
      exact min_le_left _ _
    have hlead := le_max_right 0 (q.accountMs i - q.accountMs j)
    rw [haccountI, haccountJ] at hlead ⊢
    unfold FairnessState.cap
    linarith
  have hend : Abreast q.settings i j L (max 0 (q.accountMs i - q.accountMs j) + slack) (q.run calls) :=
    hcalls.foldl_of hstart fun q c hq hc => hq.step hL hne (le_add_of_nonneg_left (le_max_left _ _)) hc
  obtain ⟨stateI', stateJ', hsI', hsJ', -, -, hlevel⟩ := hend.abreast
  have hriseI := account_rise hL h hcalls hsI hbi hsI'
  have hriseJ := account_rise hL h (hcalls.mono fun q c hc => hc.symm) hsJ hbj hsJ'
  have hunder := FairnessState.account_le_cap (hend.ok.states i stateI' hsI').weight_pos hL
  have hlead : max 0 (q.accountMs i - q.accountMs j) - (q.accountMs i - q.accountMs j) =
      max 0 (q.accountMs j - q.accountMs i) := by
    rcases le_total (q.accountMs i) (q.accountMs j) with hle | hle
    · rw [max_eq_left (sub_nonpos.mpr hle), max_eq_right (sub_nonneg.mpr hle)]
      ring
    · rw [max_eq_right (sub_nonneg.mpr hle), max_eq_left (sub_nonpos.mpr hle)]
      ring
  rw [haccountI, haccountJ] at hlead
  rw [haccountI, haccountJ] at hlevel ⊢
  linarith

/-- **Fairness of the service charged.**  Over any run in which two keys compete, at
whatever times its calls are made, what they are charged, each over its weight, is
within `C * L` over the lesser weight of what their accounts stood apart. -/
theorem service_shared (hL : 0 ≤ L) (h : q.Ok) {calls : List QueueCall}
    (hcalls : Run.Along (fun q c => (q.perform c).1) (Contest i j C L) q calls)
    (hi : q.KeyBusy i) (hj : q.KeyBusy j) (hcapacity : q.activeTickets.card ≤ C) :
    |serviceMs i q calls / q.settings.weight i - serviceMs j q calls / q.settings.weight j| ≤
      |q.accountMs i - q.accountMs j| + C * L / min (q.settings.weight i) (q.settings.weight j) := by
  have hslack : 0 ≤ C * L / min (q.settings.weight i) (q.settings.weight j) := by
    have hmin : 0 < min (q.settings.weight i) (q.settings.weight j) :=
      lt_min (q.settings.weight_pos i) (q.settings.weight_pos j)
    positivity
  rcases eq_or_ne i j with rfl | hne
  · simpa using hslack
  · have hgain := service_gain hL hne h hcalls hi hj hcapacity
    have hgain' := service_gain hL hne.symm h (hcalls.mono fun q c hc => hc.symm) hj hi hcapacity
    have hleft : max 0 (q.accountMs j - q.accountMs i) ≤ |q.accountMs i - q.accountMs j| :=
      max_le (abs_nonneg _) (by rw [abs_sub_comm]; exact le_abs_self _)
    have hright : max 0 (q.accountMs i - q.accountMs j) ≤ |q.accountMs i - q.accountMs j| :=
      max_le (abs_nonneg _) (le_abs_self _)
    rw [min_comm] at hgain'
    rw [abs_le]
    constructor <;> linarith

end FairPendingQueue
end TtsPool
