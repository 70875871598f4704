/-
# What a key is charged for

`Ledger` keeps beside the books of `TtsPool.Fair.Conservation` one account a
key: the baseline its state was created with, how many jobs had been completed
by then, and the completions charged to it since.  `run_balanced` says that the
account a key's state carries is the baseline plus those charges over the
weight, that the charged jobs are the ones of that key completed since the state
was created, and that each is charged once: what has been completed is no
longer active, so a second `complete`, or one after `abandon`, `remove` or
`drain`, finds nothing to charge.

A state is known by its activation.  While a key carries the same activation,
its account does not go down (`run_mono`).
-/

import TtsPool.Fair.Orders

namespace TtsPool

/-- What one key's state has been charged since it was created. -/
structure Account where
  baseline : ℚ
  opened : ℕ
  charges : List (ℕ × ℚ) := []

/-- The account's value: the baseline, and the time of every charge over the
weight. -/
def Account.value (account : Account) (weight : ℚ) : ℚ :=
  account.baseline + (account.charges.map fun charge => max 0 charge.2 / weight).sum

/-- The books of the queue with the accounts of its keys. -/
structure Ledger where
  books : History
  accounts : FairnessKey → Account := fun _ => ⟨0, 0, []⟩

namespace Ledger

/-- The account a key opens with. -/
def openAccount (l : Ledger) (c : QueueCall) : Account :=
  ⟨(l.books.queue.aged c).baseline c.now, l.books.completed.length, []⟩

/-- The accounts after one call: an admitted job opens an account for a key
unknown to the aged queue, and a completion that finds its job is charged. -/
def nextAccounts (l : Ledger) (c : QueueCall) : FairnessKey → Account :=
  match c.op with
  | .enqueue request streamHandle =>
    match (l.books.queue.enqueue request streamHandle c.now).2 with
    | .error _ => l.accounts
    | .ok job =>
      if (l.books.queue.aged c).states.get? job.fairnessKey = none then
        Function.update l.accounts job.fairnessKey (l.openAccount c)
      else l.accounts
  | .complete job serviceMs =>
    if job.ticket ∈ l.books.queue.activeTickets then
      Function.update l.accounts job.fairnessKey
        { l.accounts job.fairnessKey with
          charges := (l.accounts job.fairnessKey).charges ++ [(job.jobId, serviceMs)] }
    else l.accounts
  | .remove _ | .popNext | .abandon _ | .drain | .score _ | .snapshots => l.accounts

/-- One call, entered in the books and the accounts. -/
def step (l : Ledger) (c : QueueCall) : Ledger where
  books := l.books.step c
  accounts := l.nextAccounts c

def run (l : Ledger) (calls : List QueueCall) : Ledger := calls.foldl step l

/-- The ledger of a queue that has not been called yet. -/
def init (modelName : String) (settings : FairnessSettings) : Ledger :=
  { books := .init modelName settings }

/-- The ids of the jobs of a key that were completed after the first `opened`
completions. -/
def completedSince (h : History) (key : FairnessKey) (opened : ℕ) : List ℕ :=
  ((h.completed.drop opened).filter fun ticket => ticket.1 = key).map Prod.snd

theorem completedSince_sublist (h : History) (key : FairnessKey) (opened : ℕ) :
    ((completedSince h key opened).map fun id => (key, id)).Sublist h.completed := by
  have hself : ((completedSince h key opened).map fun id => (key, id)) =
      (h.completed.drop opened).filter fun ticket => ticket.1 = key := by
    rw [completedSince, List.map_map]
    refine (List.map_congr_left fun ticket ht => ?_).trans (List.map_id _)
    have hkey : ticket.1 = key := by simpa using (List.mem_filter.mp ht).2
    exact Prod.ext hkey.symm rfl
  rw [hself]
  exact List.filter_sublist.trans (List.drop_sublist ..)

/-- An account tells what its key's state has been charged for. -/
structure Agrees (h : History) (key : FairnessKey) (account : Account) (state : FairnessState) : Prop where
  value : state.virtualServiceMs = account.value (h.queue.settings.weight key)
  charges : account.charges.map Prod.fst = completedSince h key account.opened
  opened : account.opened ≤ h.completed.length

/-- The accounts of all retained keys agree with the books. -/
structure Balanced (l : Ledger) : Prop where
  books : l.books.Ok
  agrees : ∀ key state, l.books.queue.states.get? key = some state →
    Agrees l.books key (l.accounts key) state

theorem init_balanced (modelName : String) (settings : FairnessSettings) : (init modelName settings).Balanced :=
  ⟨History.init_ok modelName settings, fun key state hs => by
    simp [init, History.init, FairPendingQueue.init] at hs⟩

end Ledger

namespace History

open FairPendingQueue

/-- Only `complete` completes. -/
theorem step_completed (h : History) (c : QueueCall) :
    (h.step c).completed = match c.op with
      | .complete job _ => if job.ticket ∈ h.queue.activeTickets then h.completed ++ [job.ticket] else h.completed
      | _ => h.completed := by
  obtain ⟨op, now⟩ := c
  cases op with
  | enqueue request streamHandle =>
    simp only [step, perform]
    split <;> rfl
  | remove job =>
    simp only [step, perform]
    split <;> rfl
  | popNext =>
    simp only [step, perform]
    split <;> rfl
  | complete job serviceMs =>
    simp only [step, perform]
    split_ifs <;> rfl
  | abandon job =>
    simp only [step, perform]
    split_ifs <;> rfl
  | drain | score | snapshots => rfl

/-- A ticket has one place. -/
theorem Ok.place_unique {h : History} (hok : h.Ok) {place other : Place} {ticket : Ticket}
    (hp : ticket ∈ h.held place) (ho : ticket ∈ h.held other) : place = other := by
  have hle : (h.admitted.map SchedulerJob.ticket : Multiset Ticket).count ticket ≤ 1 :=
    Multiset.nodup_iff_count_le_one.mp (Multiset.coe_nodup.mpr hok.tickets_nodup) ticket
  rw [← hok.balance] at hle
  simp only [Multiset.count_add] at hle
  rw [← Multiset.one_le_count_iff_mem] at hp ho
  by_contra hne
  cases place <;> cases other <;> first | exact hne rfl | omega

end History

namespace FairPendingQueue

/-- Apart from `enqueue` and `complete`, no call touches an account. -/
theorem perform_account {q : FairPendingQueue} (h : q.Ok) {c : QueueCall}
    (henqueue : ∀ request streamHandle, c.op ≠ .enqueue request streamHandle)
    (hcomplete : ∀ job serviceMs, c.op ≠ .complete job serviceMs) {key : FairnessKey}
    {state' : FairnessState} (hs : (q.perform c).1.states.get? key = some state') :
    ∃ state, q.states.get? key = some state ∧ state'.virtualServiceMs = state.virtualServiceMs := by
  cases get?_perform h c hs with
  | kept state hs hsame => exact ⟨state, get?_of_get?_aged hs, hsame.account⟩
  | entered request streamHandle hop => exact absurd hop (henqueue request streamHandle)
  | started state job hop hs hreply hkey hpending hleast hsame =>
    exact ⟨state, get?_of_get?_aged hs, hsame.account⟩
  | charged state job serviceMs startedAt hop => exact absurd hop (hcomplete job serviceMs)
  | released state job hop hkey hs hsame => exact ⟨state, get?_of_get?_aged hs, hsame.account⟩

/-- A completion that finds its job charges the job's key and no other. -/
theorem complete_charges {q : FairPendingQueue} {job : SchedulerJob} (hm : job.ticket ∈ q.activeTickets)
    (serviceMs now : ℚ) {key : FairnessKey} {state' : FairnessState}
    (hs : (q.complete job serviceMs now).states.get? key = some state') :
    ∃ state, q.states.get? key = some state ∧
      state'.virtualServiceMs =
        if key = job.fairnessKey then state.virtualServiceMs + max 0 serviceMs / state.weight
        else state.virtualServiceMs := by
  obtain ⟨state, hget, startedAt, hactive⟩ := mem_activeTickets.mp hm
  replace hget : q.states.get? job.fairnessKey = some state := hget
  replace hactive : state.activeStartedAt.get? job.jobId = some startedAt := hactive
  simp only [complete, hget, hactive] at hs
  by_cases hk : key = job.fairnessKey
  · subst hk
    rw [Dict.get?_set_self, Option.some.injEq] at hs
    refine ⟨state, hget, ?_⟩
    rw [if_pos rfl, ← hs]
    exact (FairnessState.SameAccount.markIdleIfNeeded (.refl _) now).account
  · rw [Dict.get?_set_of_ne _ hk] at hs
    exact ⟨state', hs, by rw [if_neg hk]⟩

/-- **The account of one state.**  What stands under a key after a call is the
state that stood there, with no less on its account, or a state activated by
this call. -/
theorem perform_activation {q : FairPendingQueue} (h : q.Ok) (c : QueueCall) {key : FairnessKey}
    {state' : FairnessState} (hs : (q.perform c).1.states.get? key = some state') :
    (∃ state, q.states.get? key = some state ∧ state'.activationOrder = state.activationOrder ∧
      state.virtualServiceMs ≤ state'.virtualServiceMs) ∨ state'.activationOrder = q.nextActivationOrder := by
  have horder : (∃ state, (q.aged c).states.get? key = some state ∧
      state'.activationOrder = state.activationOrder) ∨ state'.activationOrder = q.nextActivationOrder := by
    have hnext : (q.aged c).nextActivationOrder = q.nextActivationOrder := by
      unfold aged
      split <;> rfl
    have keeps : ∀ {q'}, (q.aged c).Keeps q' key → q'.states.get? key = some state' →
        ∃ state, (q.aged c).states.get? key = some state ∧ state'.activationOrder = state.activationOrder := by
      intro q' hk hs
      obtain ⟨state, hold, hsame⟩ := hk state' hs
      exact ⟨state, hold, hsame.activation⟩
    cases perform_reorders h c with
    | kept hkeeps => exact .inl (keeps (hkeeps key) hs)
    | entered k s hkeeps hnew hs' horder =>
      by_cases hk : key = k
      · subst hk
        obtain rfl := Option.some.inj (hs.symm.trans hs')
        exact .inr (horder.trans hnext)
      · exact .inl (keeps (hkeeps key hk) hs)
    | selected k s s' hkeeps hold hs' hsame =>
      by_cases hk : key = k
      · subst hk
        obtain rfl := Option.some.inj (hs.symm.trans hs')
        exact .inl ⟨s, hold, hsame⟩
      · exact .inl (keeps (hkeeps key hk) hs)
  rcases horder with ⟨state, hold, hsame⟩ | hnew
  · refine .inl ⟨state, get?_of_get?_aged hold, hsame, ?_⟩
    have haged := (aged_ok h c).states key state hold
    cases get?_perform h c hs with
    | kept s hs' hs₁ => exact (Option.some.inj (hold.symm.trans hs')) ▸ hs₁.account.ge
    | entered request streamHandle hop hkey hs' => simp [hold] at hs'
    | started s job hop hs' hreply hkey hpending hleast hs₁ =>
      exact (Option.some.inj (hold.symm.trans hs')) ▸ hs₁.account.ge
    | charged s job serviceMs startedAt hop hkey hs' hactive hs₁ =>
      obtain rfl := Option.some.inj (hold.symm.trans hs')
      rw [hs₁.account]
      exact le_add_of_nonneg_right (div_nonneg (le_max_left _ _) haged.weight_pos.le)
    | released s job hop hkey hs' hs₁ => exact (Option.some.inj (hold.symm.trans hs')) ▸ hs₁.account.ge
  · exact .inr hnew

/-- **A retained account does not go down.** -/
theorem run_mono {q : FairPendingQueue} (h : q.Ok) (ho : q.Ordered) (calls : List QueueCall)
    {key : FairnessKey} {state state' : FairnessState} (hs : q.states.get? key = some state)
    (hs' : (q.run calls).states.get? key = some state')
    (hsame : state'.activationOrder = state.activationOrder) :
    state.virtualServiceMs ≤ state'.virtualServiceMs := by
  have hrun : ∀ {q : FairPendingQueue}, q.Ok → (q.run calls).states.get? key = some state' →
      (∃ state, q.states.get? key = some state ∧ state'.activationOrder = state.activationOrder ∧
        state.virtualServiceMs ≤ state'.virtualServiceMs) ∨ q.nextActivationOrder ≤ state'.activationOrder := by
    clear hs' hs hsame ho h
    induction calls with
    | nil => exact fun _ hs' => .inl ⟨state', hs', rfl, le_rfl⟩
    | cons c calls ih =>
      intro q h hs'
      rcases ih (perform_ok h c) hs' with ⟨middle, hm, hact, hle⟩ | hge
      · rcases perform_activation h c hm with ⟨first, hf, hact', hle'⟩ | hnew
        · exact .inl ⟨first, hf, hact.trans hact', hle'.trans hle⟩
        · exact .inr (hnew.ge.trans hact.ge)
      · exact .inr ((q.nextActivationOrder_le c).trans hge)
  rcases hrun h hs' with ⟨first, hf, -, hle⟩ | hge
  · exact Option.some.inj (hf.symm.trans hs) ▸ hle
  · have hlt := ho.activation.lt ⟨state, hs, rfl⟩
    omega

end FairPendingQueue

namespace Ledger

open FairPendingQueue

/-- A state not charged, beside an account not charged. -/
theorem Agrees.keep {h h' : History} {key : FairnessKey} {account : Account} {state state' : FairnessState}
    (ha : Agrees h key account state) (hsettings : h'.queue.settings = h.queue.settings)
    (hcompleted : h'.completed = h.completed) (haccount : state'.virtualServiceMs = state.virtualServiceMs) :
    Agrees h' key account state' where
  value := by rw [haccount, ha.value, hsettings]
  charges := by rw [ha.charges, completedSince, completedSince, hcompleted]
  opened := hcompleted ▸ ha.opened

/-- A state created at the baseline, beside an account just opened. -/
theorem Agrees.open {h h' : History} {key : FairnessKey} {baseline : ℚ} {state' : FairnessState}
    (hcompleted : h'.completed = h.completed) (haccount : state'.virtualServiceMs = baseline) :
    Agrees h' key ⟨baseline, h.completed.length, []⟩ state' where
  value := by simp [Account.value, haccount]
  charges := by simp [completedSince, hcompleted]
  opened := hcompleted ▸ le_rfl

/-- A state charged, beside an account charged with the same. -/
theorem Agrees.charge {h h' : History} {job : SchedulerJob} {serviceMs : ℚ} {account : Account}
    {state state' : FairnessState} (ha : Agrees h job.fairnessKey account state)
    (hsettings : h'.queue.settings = h.queue.settings) (hcompleted : h'.completed = h.completed ++ [job.ticket])
    (haccount : state'.virtualServiceMs =
      state.virtualServiceMs + max 0 serviceMs / h.queue.settings.weight job.fairnessKey) :
    Agrees h' job.fairnessKey
      { account with charges := account.charges ++ [(job.jobId, serviceMs)] } state' where
  value := by
    rw [haccount, ha.value, hsettings]
    simp [Account.value, add_assoc]
  charges := by
    have hkey : job.ticket.1 = job.fairnessKey := rfl
    have hdrop : (h.completed ++ [job.ticket]).drop account.opened =
        h.completed.drop account.opened ++ [job.ticket] := List.drop_append_of_le_length ha.opened
    simp only [List.map_append, ha.charges, completedSince, hcompleted, hdrop, List.filter_append,
      List.filter_cons, hkey, decide_true, if_true, List.filter_nil, List.map_cons, List.map_nil]
    rfl
  opened := by
    have := ha.opened
    simp only [hcompleted, List.length_append]
    omega

/-- A completion of another key's job does not show in an account. -/
theorem Agrees.pass {h h' : History} {key : FairnessKey} {ticket : Ticket} {account : Account}
    {state state' : FairnessState} (ha : Agrees h key account state) (hne : key ≠ ticket.1)
    (hsettings : h'.queue.settings = h.queue.settings) (hcompleted : h'.completed = h.completed ++ [ticket])
    (haccount : state'.virtualServiceMs = state.virtualServiceMs) : Agrees h' key account state' where
  value := by rw [haccount, ha.value, hsettings]
  charges := by
    have hdrop : (h.completed ++ [ticket]).drop account.opened =
        h.completed.drop account.opened ++ [ticket] := List.drop_append_of_le_length ha.opened
    simp only [ha.charges, completedSince, hcompleted, hdrop, List.filter_append, List.filter_cons,
      hne.symm, decide_false, Bool.false_eq_true, if_false, List.filter_nil, List.append_nil]
  opened := by
    have := ha.opened
    simp only [hcompleted, List.length_append]
    omega

/-- **`enqueue`** opens the account of a key the aged queue does not know, and
touches no other. -/
theorem enqueue_agrees {l : Ledger} (hl : l.Balanced) (request : ResponseRequest) (streamHandle : HandleId)
    (now : ℚ) {key : FairnessKey} {state' : FairnessState}
    (hs : (l.books.queue.enqueue request streamHandle now).1.states.get? key = some state') :
    Agrees (l.books.step ⟨.enqueue request streamHandle, now⟩) key
      (l.nextAccounts ⟨.enqueue request streamHandle, now⟩ key) state' := by
  set c : QueueCall := ⟨.enqueue request streamHandle, now⟩ with hc
  have hsettings : (l.books.step c).queue.settings = l.books.queue.settings := by
    rw [History.step_queue, perform_settings]
  have hcompleted : (l.books.step c).completed = l.books.completed := l.books.step_completed c
  -- what the aged queue holds, its account agreed with before
  have held : ∀ {s : FairnessState}, (l.books.queue.expireIdleStates now).states.get? key = some s →
      state'.virtualServiceMs = s.virtualServiceMs → Agrees (l.books.step c) key (l.accounts key) state' :=
    fun hs heq => (hl.agrees key _ (get?_expireIdleStates.mp hs).1).keep hsettings hcompleted heq
  have refused : ∀ {perKey executor : ℕ} {q'},
      (l.books.queue.expireIdleStates now).Refuses request.fairnessKey perKey executor q' →
      q'.states.get? key = some state' → Agrees (l.books.step c) key (l.accounts key) state' := by
    intro perKey executor q' hr hs
    by_cases hk : key = request.fairnessKey
    · subst hk
      rw [hr.own, Option.map_eq_some_iff] at hs
      obtain ⟨s, hold, rfl⟩ := hs
      exact held hold rfl
    · rw [hr.others key hk] at hs
      exact held hs rfl
  rcases enqueue_cases hl.books.queue request streamHandle now with ⟨-, heq⟩ | ⟨-, -, heq⟩ | ⟨-, heq⟩ <;>
    simp only [nextAccounts, hc, heq] at hs ⊢
  · exact refused (rejectPerKey_refuses _ _) hs
  · exact refused (rejectExecutor_refuses _ _) hs
  have hadmits := accept_admits (l.books.queue.expireIdleStates now) request streamHandle now
  have hkey : ((l.books.queue.expireIdleStates now).newJob request streamHandle now).fairnessKey =
    request.fairnessKey := rfl
  have haged : l.books.queue.aged ⟨.enqueue request streamHandle, now⟩ = l.books.queue.expireIdleStates now := rfl
  by_cases hk : key = request.fairnessKey
  · subst hk
    cases hold : (l.books.queue.expireIdleStates now).states.get? request.fairnessKey with
    | some s =>
      obtain rfl := Option.some.inj (hs.symm.trans (hadmits.own s hold))
      rw [hkey, haged, hold, if_neg (by simp)]
      exact held hold rfl
    | none =>
      rw [hkey, haged, hold, if_pos rfl, Function.update_self, openAccount, haged]
      refine .open hcompleted ?_
      rw [accept, Dict.get?_set_self, Option.some.injEq] at hs
      simp [← hs, admissionState, hold, newState]
  · rw [hadmits.others key hk] at hs
    rw [hkey, haged]
    split_ifs
    · rw [Function.update_of_ne hk]
      exact held hs rfl
    · exact held hs rfl

/-- **`complete`** enters the charge of an active job in the account of its key,
and touches no other. -/
theorem complete_agrees {l : Ledger} (hl : l.Balanced) (job : SchedulerJob) (serviceMs now : ℚ)
    {key : FairnessKey} {state' : FairnessState}
    (hs : (l.books.queue.complete job serviceMs now).states.get? key = some state') :
    Agrees (l.books.step ⟨.complete job serviceMs, now⟩) key
      (l.nextAccounts ⟨.complete job serviceMs, now⟩ key) state' := by
  have hcompleted := l.books.step_completed ⟨.complete job serviceMs, now⟩
  have hsettings : (l.books.step ⟨.complete job serviceMs, now⟩).queue.settings = l.books.queue.settings := by
    rw [History.step_queue, perform_settings]
  simp only [nextAccounts] at hcompleted ⊢
  by_cases hm : job.ticket ∈ l.books.queue.activeTickets
  · rw [if_pos hm] at hcompleted ⊢
    obtain ⟨state, hold, haccount⟩ := complete_charges hm serviceMs now hs
    by_cases hk : key = job.fairnessKey
    · subst hk
      rw [if_pos rfl, (hl.books.queue.states _ state hold).weight] at haccount
      rw [Function.update_self]
      exact (hl.agrees _ state hold).charge hsettings hcompleted haccount
    · rw [if_neg hk] at haccount
      rw [Function.update_of_ne hk]
      exact (hl.agrees key state hold).pass hk hsettings hcompleted haccount
  · rw [if_neg hm] at hcompleted ⊢
    rcases complete_flow hl.books.queue job serviceMs now with ⟨hm', -⟩ | ⟨-, heq⟩
    · exact absurd hm' hm
    · rw [heq] at hs
      exact (hl.agrees key state' hs).keep hsettings hcompleted rfl

/-- **Every call keeps the accounts.** -/
theorem step_balanced {l : Ledger} (hl : l.Balanced) (c : QueueCall) : (l.step c).Balanced := by
  refine ⟨History.step_ok hl.books c, fun key state' hs => ?_⟩
  simp only [step, History.step_queue] at hs ⊢
  obtain ⟨op, now⟩ := c
  -- a call that neither opens nor charges an account
  have other : (∀ request streamHandle, op ≠ .enqueue request streamHandle) →
      (∀ job serviceMs, op ≠ .complete job serviceMs) → l.nextAccounts ⟨op, now⟩ = l.accounts →
      (l.books.step ⟨op, now⟩).completed = l.books.completed →
      Agrees (l.books.step ⟨op, now⟩) key (l.nextAccounts ⟨op, now⟩ key) state' := by
    intro henqueue hcomplete haccounts hcompleted
    obtain ⟨state, hold, haccount⟩ := perform_account hl.books.queue henqueue hcomplete hs
    rw [haccounts]
    refine (hl.agrees key state hold).keep ?_ hcompleted haccount
    rw [History.step_queue, perform_settings]
  cases op with
  | enqueue request streamHandle => exact enqueue_agrees hl request streamHandle now hs
  | complete job serviceMs => exact complete_agrees hl job serviceMs now hs
  | remove | popNext | abandon | drain | score | snapshots =>
    exact other (by simp) (by simp) rfl (l.books.step_completed _)

theorem run_balanced {l : Ledger} (hl : l.Balanced) (calls : List QueueCall) : (l.run calls).Balanced := by
  induction calls generalizing l with
  | nil => exact hl
  | cons c calls ih => exact ih (step_balanced hl c)

/-- The accounts are kept beside the books. -/
theorem run_books (l : Ledger) (calls : List QueueCall) : (l.run calls).books = l.books.run calls := by
  induction calls generalizing l with
  | nil => rfl
  | cons c calls ih => exact ih (l.step c)

/-- **Charge conservation.**  After any calls at any times, the account of every
retained key is its entry baseline plus the service time of the jobs of the key
completed since its state was created, each over the key's weight and each
counted once; none of them was abandoned, removed or drained.  The account does
not go down while the state is retained, and no score is negative. -/
theorem charges_conserved (modelName : String) (settings : FairnessSettings) (calls : List QueueCall) :
    let l := (init modelName settings).run calls
    l.books = (History.init modelName settings).run calls ∧
    ∀ key state, l.books.queue.states.get? key = some state →
      state.virtualServiceMs = (l.accounts key).value (settings.weight key) ∧
      (l.accounts key).charges.map Prod.fst = completedSince l.books key (l.accounts key).opened ∧
      ((l.accounts key).charges.map Prod.fst).Nodup ∧
      (∀ charge ∈ (l.accounts key).charges, (key, charge.1) ∈ l.books.held .completed ∧
        ∀ place, place ≠ .completed → (key, charge.1) ∉ l.books.held place) ∧
      (∀ now, 0 ≤ state.score now) ∧
      ∀ more state', (l.books.queue.run more).states.get? key = some state' →
        state'.activationOrder = state.activationOrder → state.virtualServiceMs ≤ state'.virtualServiceMs := by
  intro l
  have hl : l.Balanced := run_balanced (init_balanced modelName settings) calls
  have hbooks : l.books = (History.init modelName settings).run calls := run_books _ calls
  have hqueue : l.books.queue = (FairPendingQueue.init modelName settings).run calls := by
    rw [hbooks, History.run_queue]
    rfl
  refine ⟨hbooks, fun key state hs => ?_⟩
  have hagrees := hl.agrees key state hs
  have hok := hl.books.queue.states key state hs
  have hsub : (((l.accounts key).charges.map Prod.fst).map fun id => (key, id)).Sublist l.books.completed := by
    rw [hagrees.charges]
    exact completedSince_sublist ..
  have hcompleted : l.books.completed.Nodup := Multiset.coe_nodup.mp (hl.books.held_nodup .completed)
  refine ⟨?_, hagrees.charges, (hcompleted.sublist hsub).of_map _, fun charge hcharge => ?_,
    fun now => FairnessState.score_nonneg hok.weight_pos.le hok.account now, fun more state' hs' hsame => ?_⟩
  · rw [hagrees.value, hqueue, run_settings]
    rfl
  · have hmem : (key, charge.1) ∈ l.books.held .completed :=
      Multiset.mem_coe.mpr (hsub.subset (List.mem_map_of_mem (List.mem_map_of_mem hcharge)))
    exact ⟨hmem, fun place hne hp => hne (hl.books.place_unique hp hmem)⟩
  · have hordered : l.books.queue.Ordered :=
      hqueue ▸ run_ordered (init_ok modelName settings) (init_ordered modelName settings) calls
    exact run_mono hl.books.queue hordered more hs hs' hsame

end Ledger
end TtsPool
