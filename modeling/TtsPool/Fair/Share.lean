/-
# Weighted fairness of slot time

Two keys compete over an interval when both stay busy and every selection finds
both with pending work.  Over such an interval one key's score gains on the
other's by at most the lead it started with plus `C * L` over its weight,
whatever the schedule, the weights, the durations and the other keys
(`slot_time_shared`).

The argument is about the last selection of the gaining key `i`.  Its cap is
its score with every active job counted in full; between selections it never
rises, while the score of `j` never falls.  At a selection `i` has the least
score, so right after it the cap is over the score of `j` by no more than the
`C` slots counted in full.  `Ahead` is that as an invariant of the run.

A score is an account of slot time: over an interval it rises by the time the
key's jobs held slots, over the weight (`score_rise`).  So from equal scores the
two keys hold slots for the same time per weight, up to the same bound.
-/

import TtsPool.Fair.Metered
import Mathlib.Algebra.Order.Group.Unbundled.Abs

namespace TtsPool

namespace FairPendingQueue

/-- The slots the key's jobs hold. -/
def activeCount (q : FairPendingQueue) (key : FairnessKey) : ℕ :=
  ((q.states.get? key).map fun state => state.activeStartedAt.size).getD 0

end FairPendingQueue

namespace Instant

open FairPendingQueue

/-- The milliseconds for which jobs of the key hold slots, from now on until
`stop`, two jobs at once counted twice. -/
def slotTimeMs (key : FairnessKey) : Instant → List QueueCall → ℚ → ℚ
  | m, [], stop => m.queue.activeCount key * ((stop - m.now) * 1000)
  | m, c :: calls, stop =>
    m.queue.activeCount key * ((c.now - m.now) * 1000) + slotTimeMs key (m.step c) calls stop

/-- Both keys are busy after the call, and a selection finds both with pending
work. -/
structure Compete (i j : FairnessKey) (m : Instant) (c : QueueCall) : Prop where
  left : (m.step c).queue.KeyBusy i
  right : (m.step c).queue.KeyBusy j
  pending : c.op = .popNext → m.queue.KeyPending i ∧ m.queue.KeyPending j

instance (i j : FairnessKey) (m : Instant) (c : QueueCall) : Decidable (Compete i j m c) :=
  decidable_of_iff ((m.step c).queue.KeyBusy i ∧ (m.step c).queue.KeyBusy j ∧
      (c.op = .popNext → m.queue.KeyPending i ∧ m.queue.KeyPending j))
    ⟨fun ⟨h₁, h₂, h₃⟩ => ⟨h₁, h₂, h₃⟩, fun ⟨h₁, h₂, h₃⟩ => ⟨h₁, h₂, h₃⟩⟩

/-! ### The score as an account of slot time -/

/-- **A score rises by slot time over weight.** -/
theorem score_rise {C : ℕ} {L : ℚ} (hL : 0 ≤ L) {key : FairnessKey} {stop : ℚ}
    {calls : List QueueCall} {m : Instant} (h : m.Ok) (hcalls : Run.Along step (Metered C L) m calls)
    (hbusy : Run.Along step (fun m c => (m.step c).queue.KeyBusy key) m calls)
    (hstop : (m.run calls).now ≤ stop) {state state' : FairnessState}
    (hs : m.queue.states.get? key = some state) (hb : state.Busy)
    (hs' : (m.run calls).queue.states.get? key = some state') :
    state'.score stop = state.score m.now + slotTimeMs key m calls stop / m.queue.settings.weight key := by
  induction calls generalizing m state with
  | nil =>
    obtain rfl := Option.some.inj (hs.symm.trans hs')
    rw [FairnessState.score_elapse (h.started key state hs) hstop, slotTimeMs, activeCount, hs,
      (h.queue.states key state hs).weight]
    rfl
  | cons c calls ih =>
    obtain ⟨hc, hrest⟩ := hcalls
    obtain ⟨⟨after, ha, hba⟩, hbrest⟩ := hbusy
    have hsame := (hc.stays h.queue hL (get?_aged_of_busy h.queue c hs hb) ha).1
    have hrise := ih (h.step hc.clock) hrest hbrest hstop ha hba hs'
    have hset : (m.step c).queue.settings = m.queue.settings := perform_settings m.queue c
    rw [hset] at hrise
    rw [hrise, show (m.step c).now = c.now from rfl, hsame,
      FairnessState.score_elapse (h.started key state hs) hc.clock, slotTimeMs, activeCount, hs,
      (h.queue.states key state hs).weight]
    simp only [Option.map_some, Option.getD_some]
    ring

/-! ### The last selection -/

/-- What a run of competing calls keeps: the cap of `i` is over the score of
`j` by at most `bound`. -/
structure Ahead (settings : FairnessSettings) (C : ℕ) (L : ℚ) (i j : FairnessKey) (bound : ℚ)
    (m : Instant) : Prop extends Kept settings C m where
  ahead : ∃ stateI stateJ, m.queue.states.get? i = some stateI ∧ m.queue.states.get? j = some stateJ ∧
    stateI.Busy ∧ stateJ.Busy ∧ stateI.cap L ≤ stateJ.score m.now + bound

/-- **The step.**  A selection of `i` finds its score least, and no other call
raises its cap; the score of `j` only rises. -/
theorem Ahead.step {settings : FairnessSettings} {C : ℕ} {L : ℚ} (hL : 0 ≤ L) {i j : FairnessKey}
    {bound : ℚ} (hbound : C * L / settings.weight i ≤ bound) {m : Instant} {c : QueueCall}
    (h : Ahead settings C L i j bound m) (hc : Metered C L m c) (hcompete : Compete i j m c) :
    Ahead settings C L i j bound (m.step c) := by
  have hok := h.ok
  have hkept := h.toKept.step hc
  obtain ⟨stateI, stateJ, hi, hj, hbi, hbj, hahead⟩ := h.ahead
  obtain ⟨⟨stateI', hi', hbi'⟩, ⟨stateJ', hj', hbj'⟩, hpending⟩ := hcompete
  have hagedJ := get?_aged_of_busy hok.queue c hj hbj
  obtain ⟨hscoreI, hcap⟩ := hc.stays hok.queue hL (get?_aged_of_busy hok.queue c hi hbi) hi'
  have hscoreJ := (hc.stays hok.queue hL hagedJ hj').1
  have hrise : stateJ.score m.now ≤ stateJ.score c.now :=
    FairnessState.score_mono (hok.queue.states j stateJ hj).weight_pos hc.clock
  refine ⟨hkept, stateI', stateJ', hi', hj', hbi', hbj', ?_⟩
  rw [show (m.step c).now = c.now from rfl, hscoreJ]
  rcases hcap with hcap | ⟨⟨job, hreply, -⟩, hleast⟩
  · linarith
  · -- the selection: `i` is at or below `j`, and holds at most `C` slots after it
    obtain ⟨-, s, hs, hne⟩ := hpending (op_of_popped hreply)
    obtain rfl := Option.some.inj (hj.symm.trans hs)
    have hle : stateI.score c.now ≤ stateJ.score c.now := hleast j stateJ hagedJ hne
    have hokI' := hkept.ok.queue.states i stateI' hi'
    have hfull := FairnessState.cap_le_score hokI'.weight_pos hL
      ((size_le_activeTickets hi').trans hc.capacity) c.now
    rw [hokI'.weight, hkept.settings, hscoreI] at hfull
    linarith

/-- **One key's gain.**  The score of `i` gains on the score of `j` by at most
its lead at the start plus `C * L` over its weight. -/
theorem score_gain {settings : FairnessSettings} {C : ℕ} {L : ℚ} (hL : 0 ≤ L) {i j : FairnessKey}
    {calls : List QueueCall} {m : Instant} (h : Kept settings C m)
    (hcalls : Run.Along step (Metered C L) m calls)
    (hcompete : Run.Along step (Compete i j) m calls) {stop : ℚ} (hstop : (m.run calls).now ≤ stop)
    (hlast : (m.run calls).queue.ActiveWithin L stop) {stateI stateJ : FairnessState}
    (hi : m.queue.states.get? i = some stateI) (hj : m.queue.states.get? j = some stateJ)
    (hbi : stateI.Busy) (hbj : stateJ.Busy) :
    ∃ stateI' stateJ', (m.run calls).queue.states.get? i = some stateI' ∧
      (m.run calls).queue.states.get? j = some stateJ' ∧ stateI'.Busy ∧ stateJ'.Busy ∧
      stateI'.score stop - stateJ'.score stop ≤
        max 0 (stateI.score m.now - stateJ.score m.now) + C * L / settings.weight i := by
  set bound := max 0 (stateI.score m.now - stateJ.score m.now) + C * L / settings.weight i with hdef
  have hbound : C * L / settings.weight i ≤ bound := by
    rw [hdef, le_add_iff_nonneg_left]
    exact le_max_left _ _
  have hstart : Ahead settings C L i j bound m := by
    refine ⟨h, stateI, stateJ, hi, hj, hbi, hbj, ?_⟩
    have hokI := h.ok.queue.states i stateI hi
    have hfull := FairnessState.cap_le_score hokI.weight_pos hL
      ((size_le_activeTickets hi).trans h.capacity) m.now
    rw [hokI.weight, h.settings] at hfull
    have hlead := le_max_right 0 (stateI.score m.now - stateJ.score m.now)
    linarith
  have hend : Ahead settings C L i j bound (m.run calls) :=
    (hcalls.and hcompete).foldl_of hstart fun m c hm hc => hm.step hL hbound hc.1 hc.2
  obtain ⟨stateI', stateJ', hi', hj', hbi', hbj', hahead⟩ := hend.ahead
  refine ⟨stateI', stateJ', hi', hj', hbi', hbj', ?_⟩
  have hcap := FairnessState.score_le_cap (hend.ok.queue.states i stateI' hi').weight_pos hL
    (fun a ha => hlast (i, stateI') (Dict.get?_eq_some_iff.mp hi') a ha)
  have hrise : stateJ'.score (m.run calls).now ≤ stateJ'.score stop :=
    FairnessState.score_mono (hend.ok.queue.states j stateJ' hj').weight_pos hstop
  linarith

/-- **Weighted fairness of slot time.**  After any metered run, over any
interval from `t₁` to `t₂` in which `i` and `j` compete, the score of `i` gains
on that of `j` by at most its lead plus `C * L` over its weight; and from equal
scores the times for which the two keys held slots, each over its weight, are
within `C * L` over the lesser weight. -/
theorem slot_time_shared (modelName : String) (settings : FairnessSettings) (C : ℕ) (L : ℚ) (hL : 0 ≤ L)
    (start t₁ t₂ : ℚ) (i j : FairnessKey) (before during : List QueueCall)
    (hbefore : Run.Along step (Metered C L) (init modelName settings start) before)
    (ht₁ : ((init modelName settings start).run before).now ≤ t₁)
    (hduring : Run.Along step (Metered C L)
      ⟨((init modelName settings start).run before).queue, t₁⟩ during)
    (ht₂ : (run ⟨((init modelName settings start).run before).queue, t₁⟩ during).now ≤ t₂)
    (hlast : (run ⟨((init modelName settings start).run before).queue, t₁⟩ during).queue.ActiveWithin L t₂)
    (hi : ((init modelName settings start).run before).queue.KeyBusy i)
    (hj : ((init modelName settings start).run before).queue.KeyBusy j)
    (hcompete : Run.Along step (Compete i j)
      ⟨((init modelName settings start).run before).queue, t₁⟩ during) :
    let m₁ : Instant := ⟨((init modelName settings start).run before).queue, t₁⟩
    let q₂ := (m₁.run during).queue
    ∃ a b a' b', (m₁.queue.score i t₁).2 = some a ∧ (m₁.queue.score j t₁).2 = some b ∧
      (q₂.score i t₂).2 = some a' ∧ (q₂.score j t₂).2 = some b' ∧
      a' - b' ≤ max 0 (a - b) + C * L / settings.weight i ∧
      (a = b → |slotTimeMs i m₁ during t₂ / settings.weight i -
        slotTimeMs j m₁ during t₂ / settings.weight j| ≤
          C * L / min (settings.weight i) (settings.weight j)) := by
  intro m₁ q₂
  have hkept : Kept settings C m₁ := ((Kept.init modelName settings C start).run hbefore).later ht₁
  obtain ⟨stateI, hsI, hbi⟩ := hi
  obtain ⟨stateJ, hsJ, hbj⟩ := hj
  have hcompete' : Run.Along step (Compete j i) m₁ during :=
    hcompete.mono fun m c hc => ⟨hc.right, hc.left, fun hop => (hc.pending hop).symm⟩
  obtain ⟨stateI', stateJ', hsI', hsJ', hbi', hbj', hgain⟩ :=
    score_gain hL hkept hduring hcompete ht₂ hlast hsI hsJ hbi hbj
  obtain ⟨stateJ'', stateI'', hsJ'', hsI'', -, -, hgain'⟩ :=
    score_gain hL hkept hduring hcompete' ht₂ hlast hsJ hsI hbj hbi
  obtain rfl := Option.some.inj (hsI'.symm.trans hsI'')
  obtain rfl := Option.some.inj (hsJ'.symm.trans hsJ'')
  have hok₂ : q₂.Ok := (hkept.run hduring).ok.queue
  refine ⟨stateI.score t₁, stateJ.score t₁, stateI'.score t₂, stateJ'.score t₂,
    score_of_busy hkept.ok.queue hsI hbi t₁, score_of_busy hkept.ok.queue hsJ hbj t₁,
    score_of_busy hok₂ hsI' hbi' t₂, score_of_busy hok₂ hsJ' hbj' t₂, hgain, fun heq => ?_⟩
  have hriseI := score_rise hL hkept.ok hduring (hcompete.mono fun m c hc => hc.left) ht₂ hsI hbi hsI'
  have hriseJ := score_rise hL hkept.ok hduring (hcompete.mono fun m c hc => hc.right) ht₂ hsJ hbj hsJ'
  rw [hkept.settings] at hriseI hriseJ
  -- a bound over one weight is a bound over the lesser one
  have hCL : 0 ≤ (C : ℚ) * L := by positivity
  have hmin : 0 < min (settings.weight i) (settings.weight j) :=
    lt_min (settings.weight_pos i) (settings.weight_pos j)
  have hI : C * L / settings.weight i ≤ C * L / min (settings.weight i) (settings.weight j) := by
    gcongr
    exact min_le_left _ _
  have hJ : C * L / settings.weight j ≤ C * L / min (settings.weight i) (settings.weight j) := by
    gcongr
    exact min_le_right _ _
  have hm₁ : m₁.now = t₁ := rfl
  rw [hm₁] at hgain hgain' hriseI hriseJ
  rw [heq, sub_self, max_self, zero_add] at hgain hgain'
  rw [abs_le]
  constructor <;> linarith

/-- The clients queue up. -/
def pairBefore : List QueueCall :=
  [⟨.enqueue ⟨"m", some "a"⟩ 1, 0⟩, ⟨.enqueue ⟨"m", some "b"⟩ 2, 0⟩, ⟨.enqueue ⟨"m", some "a"⟩ 3, 0⟩,
    ⟨.enqueue ⟨"m", some "b"⟩ 4, 0⟩, ⟨.enqueue ⟨"m", some "b"⟩ 5, 0⟩]

/-- One slot serves `"a"` for a second and `"b"` for half of one, and goes to
`"b"` again. -/
def pairDuring : List QueueCall :=
  [⟨.popNext, 0⟩, ⟨.complete ⟨⟨"m", some "a"⟩, 1, 0, 1, some "a"⟩ 1000, 1⟩,
    ⟨.popNext, 1⟩, ⟨.complete ⟨⟨"m", some "b"⟩, 2, 0, 2, some "b"⟩ 500, 3 / 2⟩, ⟨.popNext, 3 / 2⟩]

/-- One slot, jobs of at most a second: after two and a half seconds the two
clients are within a second of each other. -/
theorem slot_time_shared_pair :
    let m₁ : Instant := ⟨((init "m" FairnessSettings.pair 0).run pairBefore).queue, 0⟩
    |slotTimeMs (some "a") m₁ pairDuring (5 / 2) / FairnessSettings.pair.weight (some "a") -
      slotTimeMs (some "b") m₁ pairDuring (5 / 2) / FairnessSettings.pair.weight (some "b")| ≤
        (1 : ℕ) * 1000 / min (FairnessSettings.pair.weight (some "a")) (FairnessSettings.pair.weight (some "b")) := by
  intro m₁
  obtain ⟨a, b, -, -, ha, hb, -, -, -, hshared⟩ :=
    slot_time_shared "m" FairnessSettings.pair 1 1000 (by norm_num) 0 0 (5 / 2) (some "a") (some "b") pairBefore
      pairDuring (by decide +kernel) (by decide +kernel) (by decide +kernel) (by decide +kernel)
      (by decide +kernel) (by decide +kernel) (by decide +kernel) (by decide +kernel)
  have heq : (m₁.queue.score (some "a") 0).2 = (m₁.queue.score (some "b") 0).2 := by decide +kernel
  exact hshared (Option.some.inj (ha.symm.trans (heq.trans hb)))

end Instant
end TtsPool
