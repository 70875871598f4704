/-
# How the threads of a handle wait and are woken

In `StreamState` a producer without room looks again at any time, and a read
waits until there is something to say.  Here is how they wait.  A producer and a
`read_event` park on the condition of the handle until `notify_all`, or the
producer's timeout, lets them look again.  A `read_event_async` makes a future of
its loop, enters it among the waiters and awaits it; `_wake_async_waiters_locked`
schedules the resolution of every entry on its loop, and a reader that goes on
takes its entry out and looks again.  An asyncio task may be cancelled while it
awaits; its future is cancelled then, and its reader does not look again.  The
loops are open: a callback put on one runs at some time.

Which sections notify and which wake is `notifies` and `wakes`.  All the rest is
the thread of `StreamState`, run section by section.
-/

import TtsPool.Stream.Calls
import Mathlib.Data.Multiset.Filter
import Mathlib.Data.Multiset.AddSub

namespace TtsPool

open Threads (Effect Config Action)

namespace SynthesisHandle

/-- The section calls `notify_all`. -/
def notifies (handle : SynthesisHandle) : StreamOp → Bool
  | .cancel => !handle.terminal && !handle.cancelled
  | .emitStarted .. => handle.raiseIfStopped.isNone
  | .emitAudio event remaining =>
    match handle.emitAudio event remaining with
    | .ok (some _) => true
    | _ => false
  | .finish .. => !handle.terminal
  | .read =>
    match handle.popEvent.2 with
    | .ok (some (.audio _)) => true
    | _ => false
  | _ => false

/-- The section calls `_wake_async_waiters_locked`. -/
def wakes (handle : SynthesisHandle) : StreamOp → Bool
  | .read => false
  | op => handle.notifies op

end SynthesisHandle

/-- An `asyncio.Future`. -/
inductive FutureState where
  | pending
  | resolved
  | cancelled
deriving DecidableEq

/-- An entry of `_async_waiters`: a loop, and a future of it. -/
structure WaiterEntry where
  loop : ℕ
  waiter : ℕ
deriving DecidableEq

/-- A handle in use, the parked threads that are not notified yet, the waiters of
asynchronous reads, and all futures made for them. -/
structure BridgeState where
  stream : StreamState
  parked : List ℕ := []
  parkings : ℕ := 0
  asyncWaiters : List WaiterEntry := []
  futures : List FutureState := []

/-- One task of a thread, or of a loop. -/
inductive BridgeTask where
  | method (task : StreamTask)
  /-- A producer in `wait`. -/
  | parkedProducer (parking : ℕ) (event : StreamAudioChunk)
  /-- A `read_event` in `wait`. -/
  | parkedReader (parking : ℕ)
  | readEventAsync (loop : ℕ)
  /-- A `read_event_async` at its `await`. -/
  | awaitWaiter (entry : WaiterEntry)
  /-- Its `finally`. -/
  | discardWaiter (entry : WaiterEntry)
  /-- A resolution scheduled on a loop. -/
  | resolveWaiter (entry : WaiterEntry)

/-- What a step reads from outside: the seconds a producer has left, whether its
`wait` timed out, whether the task of a reader is cancelled. -/
structure BridgeInput where
  remaining : ℚ := 1
  timedOut : Bool := false
  cancelled : Bool := false

namespace BridgeTask

/-- The methods. -/
def entry : BridgeTask → Bool
  | .method task => task.entry
  | .readEventAsync _ => true
  | _ => false

/-- The entry of a reader that has not taken it out yet. -/
def waiterEntry : BridgeTask → Option WaiterEntry
  | .awaitWaiter entry | .discardWaiter entry => some entry
  | _ => none

end BridgeTask

namespace BridgeState

abbrev Step := Effect BridgeState BridgeTask

abbrev handle (s : BridgeState) : SynthesisHandle := s.stream.handle

/-- A handle nobody has used. -/
def start (handle : SynthesisHandle) : Config BridgeState BridgeTask where
  state := { stream := { delivery := { handle := handle } } }

/-- `notify_all`, where the section calls it. -/
def notified (s : BridgeState) (op : Option StreamOp) : List ℕ := if op.any s.handle.notifies then [] else s.parked

/-- What `_wake_async_waiters_locked` puts on the loops, where the section calls
it. -/
def woken (s : BridgeState) (op : Option StreamOp) : List (List BridgeTask) :=
  if op.any s.handle.wakes then s.asyncWaiters.map fun entry => [.resolveWaiter entry] else []

/-- A section of a thread of `StreamState`. -/
def turn (s : BridgeState) (op : Option StreamOp) (stream : StreamState) (next : List StreamTask) : Step where
  state := { s with stream := stream, parked := s.notified op }
  next := next.map .method
  spawned := s.woken op

/-- `wait` of the condition. -/
def wait (s : BridgeState) (task : ℕ → BridgeTask) : Step where
  state := { s with parked := s.parked ++ [s.parkings], parkings := s.parkings + 1 }
  next := [task s.parkings]

/-- A look of `emit_audio` at the buffer. -/
def emitAudio (s : BridgeState) (event : StreamAudioChunk) (remaining : ℚ) : Step :=
  match s.handle.emitAudio event remaining with
  | .ok none => s.wait (.parkedProducer · event)
  | _ => s.turn (some (.emitAudio event remaining)) (s.stream.perform (.emitAudio event remaining)) []

/-- `_pop_event_locked`. -/
def popEvent (s : BridgeState) : Step := s.turn (some .read) (s.stream.perform .read) []

/-- A look of `read_event`. -/
def readEvent (s : BridgeState) : Step := if s.handle.Readable then s.popEvent else s.wait .parkedReader

/-- A reader makes a future, enters it and awaits it. -/
def enter (s : BridgeState) (loop : ℕ) : Step where
  state :=
    { s with
      futures := s.futures ++ [.pending]
      asyncWaiters := s.asyncWaiters ++ [⟨loop, s.futures.length⟩] }
  next := [.awaitWaiter ⟨loop, s.futures.length⟩]

/-- A look of `read_event_async`; it enters a future in the same section. -/
def readEventAsync (s : BridgeState) (loop : ℕ) : Step := if s.handle.Readable then s.popEvent else s.enter loop

/-- A future that is not done gets done. -/
def settle (s : BridgeState) (entry : WaiterEntry) (future : FutureState) : BridgeState :=
  if s.futures[entry.waiter]? = some .pending then { s with futures := s.futures.set entry.waiter future } else s

/-- The end of an `await`: the task is cancelled, or its future is done. -/
def awaitWaiter (s : BridgeState) (entry : WaiterEntry) (cancelled : Bool) : Option Step :=
  if cancelled then some { state := s.settle entry .cancelled, next := [.discardWaiter entry] }
  else if s.futures[entry.waiter]? = some .pending then none
  else some { state := s, next := [.discardWaiter entry, .readEventAsync entry.loop] }

/-- One task; `none` when it has to wait. -/
def run (s : BridgeState) (task : BridgeTask) (input : BridgeInput) : Option Step :=
  match task with
  | .method (.emitAudio event) => some (s.emitAudio event input.remaining)
  | .method .readEvent => some s.readEvent
  | .method task =>
    (s.stream.run task input.remaining).map fun e => s.turn (task.op input.remaining) e.state e.next
  | .parkedProducer parking event =>
    if parking ∈ s.parked ∧ input.timedOut = false then none
    else some ({ s with parked := s.parked.erase parking }.emitAudio event input.remaining)
  | .parkedReader parking => if parking ∈ s.parked then none else some s.readEvent
  | .readEventAsync loop => some (s.readEventAsync loop)
  | .awaitWaiter entry => s.awaitWaiter entry input.cancelled
  | .discardWaiter entry => some { state := { s with asyncWaiters := s.asyncWaiters.erase entry } }
  | .resolveWaiter entry => some { state := s.settle entry .resolved }

end BridgeState

/-- The threads around one handle, with how they wait. -/
def bridgeProgram : Threads.Program BridgeState BridgeTask BridgeInput where
  run := BridgeState.run
  entry := BridgeTask.entry

/-! ### What is waited for -/

namespace SynthesisHandle

/-- Nothing has come that a parked thread waits for. -/
structure Silent (handle handle' : SynthesisHandle) : Prop where
  maxChunks : handle'.maxBufferChunks = handle.maxBufferChunks
  maxBytes : handle'.maxBufferBytes = handle.maxBufferBytes
  chunks : handle'.bufferedAudioChunks = handle.bufferedAudioChunks
  bytes : handle'.bufferedAudioBytes = handle.bufferedAudioBytes
  terminal : handle'.terminal = handle.terminal
  cancelled : handle'.cancelled = handle.cancelled
  events : handle.events = [] → handle'.events = []

/-- A producer has to wait with its chunk. -/
structure NoRoom (handle : SynthesisHandle) (event : StreamAudioChunk) : Prop where
  full : handle.Full event.pcm.length
  cancelled : handle.cancelled = false
  terminal : handle.terminal = false

variable {handle handle' : SynthesisHandle} {event : StreamAudioChunk} {op : StreamOp}

theorem Silent.refl (handle : SynthesisHandle) : handle.Silent handle := ⟨rfl, rfl, rfl, rfl, rfl, rfl, id⟩

theorem Silent.noRoom (h : handle.Silent handle') (hroom : handle.NoRoom event) : handle'.NoRoom event where
  full := by
    have hfull := hroom.full
    rwa [Full, h.maxChunks, h.maxBytes, h.chunks, h.bytes, ← Full]
  cancelled := h.cancelled.trans hroom.cancelled
  terminal := h.terminal.trans hroom.terminal

theorem not_readable_iff :
    ¬ handle.Readable ↔ handle.events = [] ∧ handle.terminal = false ∧ handle.cancelled = false := by
  simp [Readable]

theorem Silent.not_readable (h : handle.Silent handle') (hread : ¬ handle.Readable) : ¬ handle'.Readable := by
  obtain ⟨hevents, hterminal, hcancelled⟩ := not_readable_iff.mp hread
  exact not_readable_iff.mpr ⟨h.events hevents, h.terminal.trans hterminal, h.cancelled.trans hcancelled⟩

/-- A look that waits finds no room. -/
theorem noRoom_of_emitAudio {remaining : ℚ} (h : handle.emitAudio event remaining = .ok none) :
    handle.NoRoom event := by
  unfold emitAudio at h
  by_cases hsize : handle.maxBufferBytes < event.pcm.length
  · simp [if_pos hsize] at h
  rw [if_neg hsize] at h
  cases hstop : handle.raiseIfStopped with
  | some error => simp [hstop] at h
  | none =>
    obtain ⟨hcancelled, hterminal⟩ := raiseIfStopped_eq_none.mp hstop
    by_cases hfull : handle.Full event.pcm.length
    · exact ⟨hfull, hcancelled, hterminal⟩
    · simp [hstop, hfull] at h

/-- **A section that does not notify is silent.** -/
theorem silent_of_not_notifies (h : handle.notifies op = false) : handle.Silent (handle.after op) := by
  cases op with
  | markDispatched queueWaitMs => exact ⟨rfl, rfl, rfl, rfl, rfl, rfl, id⟩
  | setCancelCallback callback =>
    simp only [after, setCancelCallback]
    split_ifs <;> exact ⟨rfl, rfl, rfl, rfl, rfl, rfl, id⟩
  | addTerminalCallback callback =>
    simp only [after, addTerminalCallback]
    split_ifs <;> exact ⟨rfl, rfl, rfl, rfl, rfl, rfl, id⟩
  | cancel =>
    have hstopped : handle.terminal = true ∨ handle.cancelled = true := by
      by_contra hopen
      simp_all [notifies]
    rw [after, cancel, if_pos hstopped]
    exact .refl handle
  | emitStarted sampleRateHz channelCount =>
    rcases handle.emitStarted_cases sampleRateHz channelCount with ⟨hcancelled, hterminal, -⟩ | ⟨error, -, heq⟩
    · simp [notifies, raiseIfStopped_eq_none.mpr ⟨hcancelled, hterminal⟩] at h
    · rw [after, heq]
      exact .refl handle
  | emitAudio event remaining =>
    rcases handle.emitAudio_cases event remaining with ⟨-, -, -, heq⟩ | ⟨-, heq⟩ | ⟨error, heq⟩
    · simp [notifies, heq] at h
    · rw [after, heq]
      exact .refl handle
    · rw [after, heq]
      exact .refl handle
  | finish event error =>
    have hended : handle.terminal = true := by simpa [notifies] using h
    rw [after, finish, if_pos hended]
    exact .refl handle
  | read =>
    rw [after]
    split_ifs
    · rcases handle.popEvent_cases with ⟨-, heq⟩ | ⟨-, -, heq⟩ | ⟨event, events, -, hevents, heq⟩
      · rw [heq]
        exact .refl handle
      · rw [heq]
        exact .refl handle
      · rw [heq]
        cases event with
        | audio chunk => simp [notifies, heq] at h
        | started event => exact ⟨rfl, rfl, rfl, rfl, rfl, rfl, fun hempty => by simp [hevents] at hempty⟩
        | completed event => exact ⟨rfl, rfl, rfl, rfl, rfl, rfl, fun hempty => by simp [hevents] at hempty⟩
    · exact .refl handle

/-- **A section that does not wake the waiters has nothing new for them.** -/
theorem readable_of_not_wakes (h : handle.wakes op = false) (hread : (handle.after op).Readable) :
    handle.Readable := by
  by_contra hnot
  by_cases hop : op = .read
  · subst hop
    rw [after, if_neg hnot] at hread
    exact hnot hread
  · have hquiet : handle.notifies op = false := by
      cases op <;> first | exact h | exact absurd rfl hop
    exact (silent_of_not_notifies hquiet).not_readable hnot hread

end SynthesisHandle

namespace BridgeState

variable {s : BridgeState} {task : BridgeTask} {input : BridgeInput} {e : Step} {bag others : Multiset BridgeTask}
  {event : StreamAudioChunk}

/-! ### What a look at the handle does -/

/-- What a section on the handle, or a `wait`, does to those who wait: an old
parking stays only where nothing came that is waited for, a new one waits with a
reason, and the waiters' futures stay as they are, scheduled if there is
something new to say. -/
structure Turned (s : BridgeState) (e : Step) : Prop where
  old : ∀ n ∈ e.state.parked, n < s.parkings → n ∈ s.parked ∧ s.handle.Silent e.state.handle
  parkings : s.parkings ≤ e.state.parkings
  producer : ∀ n event, .parkedProducer n event ∈ e.next →
    s.parkings ≤ n ∧ n < e.state.parkings ∧ e.state.handle.NoRoom event
  reader : ∀ n, .parkedReader n ∈ e.next → s.parkings ≤ n ∧ n < e.state.parkings ∧ ¬ e.state.handle.Readable
  asyncWaiters : e.state.asyncWaiters = s.asyncWaiters
  futures : e.state.futures = s.futures
  next : ∀ t ∈ e.next, t.waiterEntry = none
  spawned : ∀ t ∈ e.spawned.flatten, ∃ entry, t = .resolveWaiter entry
  woken : e.state.handle.Readable →
    s.handle.Readable ∨ ∀ entry ∈ s.asyncWaiters, .resolveWaiter entry ∈ e.spawned.flatten

/-- A thread that was parked looks again. -/
theorem Turned.of_parked {parked : List ℕ} (hsub : ∀ n ∈ parked, n ∈ s.parked)
    (h : Turned { s with parked := parked } e) : s.Turned e :=
  { h with old := fun n hmem hlt => ⟨hsub n (h.old n hmem hlt).1, (h.old n hmem hlt).2⟩ }

/-- **A section on the handle.** -/
theorem turn_turned {op : Option StreamOp} {stream : StreamState} {next : List StreamTask}
    (h : stream.handle = op.elim s.handle s.handle.after) : s.Turned (s.turn op stream next) where
  old := fun n hmem _ => by
    cases op with
    | none =>
      rw [show (s.turn none stream next).state.handle = stream.handle from rfl, h]
      exact ⟨hmem, .refl _⟩
    | some op =>
      have hparked : n ∈ if s.handle.notifies op then [] else s.parked := hmem
      split_ifs at hparked with hnotifies
      · cases hparked
      · rw [show (s.turn (some op) stream next).state.handle = stream.handle from rfl, h]
        exact ⟨hparked, SynthesisHandle.silent_of_not_notifies (Bool.eq_false_iff.mpr hnotifies)⟩
  parkings := le_rfl
  producer := fun n event hmem => by simp [turn] at hmem
  reader := fun n hmem => by simp [turn] at hmem
  asyncWaiters := rfl
  futures := rfl
  next := fun t hmem => by
    obtain ⟨task, -, rfl⟩ := List.mem_map.mp hmem
    rfl
  spawned := fun t hmem => by
    simp only [turn, woken] at hmem
    split_ifs at hmem
    · obtain ⟨entry, -, heq⟩ : ∃ entry ∈ s.asyncWaiters, t = .resolveWaiter entry := by simpa using hmem
      exact ⟨entry, heq⟩
    · cases hmem
  woken := fun hread => by
    rw [show (s.turn op stream next).state.handle = stream.handle from rfl, h] at hread
    cases op with
    | none => exact .inl hread
    | some op =>
      cases hwakes : s.handle.wakes op with
      | false => exact .inl (SynthesisHandle.readable_of_not_wakes hwakes hread)
      | true => exact .inr fun entry hmem => by simpa [turn, woken, hwakes] using hmem

/-- **A `wait`** parks on a handle that it leaves as it is. -/
theorem wait_turned {task : ℕ → BridgeTask}
    (hproducer : ∀ n m event, task n = .parkedProducer m event → m = n ∧ s.handle.NoRoom event)
    (hreader : ∀ n m, task n = .parkedReader m → m = n ∧ ¬ s.handle.Readable)
    (hentry : ∀ n, (task n).waiterEntry = none) : s.Turned (s.wait task) where
  old := fun n hmem hlt => by
    rcases List.mem_append.mp hmem with hold | hnew
    · exact ⟨hold, .refl _⟩
    · exact absurd (List.mem_singleton.mp hnew) hlt.ne
  parkings := Nat.le_succ _
  producer := fun n event hmem => by
    obtain ⟨rfl, hroom⟩ := hproducer _ _ _ (List.mem_singleton.mp hmem).symm
    exact ⟨le_rfl, Nat.lt_succ_self _, hroom⟩
  reader := fun n hmem => by
    obtain ⟨rfl, hread⟩ := hreader _ _ (List.mem_singleton.mp hmem).symm
    exact ⟨le_rfl, Nat.lt_succ_self _, hread⟩
  asyncWaiters := rfl
  futures := rfl
  next := fun t hmem => by
    rw [List.mem_singleton.mp hmem]
    exact hentry _
  spawned := fun _ hmem => absurd hmem List.not_mem_nil
  woken := .inl

theorem emitAudio_turned (s : BridgeState) (event : StreamAudioChunk) (remaining : ℚ) :
    s.Turned (s.emitAudio event remaining) := by
  unfold emitAudio
  split
  · next hwait =>
    refine wait_turned (fun n m event' heq => ?_) (fun n m heq => ?_) fun _ => rfl
    · cases heq
      exact ⟨rfl, SynthesisHandle.noRoom_of_emitAudio hwait⟩
    · cases heq
  · exact turn_turned rfl

theorem popEvent_turned (s : BridgeState) : s.Turned s.popEvent := turn_turned rfl

theorem readEvent_turned (s : BridgeState) : s.Turned s.readEvent := by
  unfold readEvent
  split_ifs with hread
  · exact s.popEvent_turned
  · refine wait_turned (fun n m event heq => ?_) (fun n m heq => ?_) fun _ => rfl
    · cases heq
    · cases heq
      exact ⟨rfl, hread⟩

theorem method_turned {task : StreamTask} (hrun : s.run (.method task) input = some e) : s.Turned e := by
  have hsection : (s.stream.run task input.remaining).map
      (fun e => s.turn (task.op input.remaining) e.state e.next) = some e → s.Turned e := by
    intro h
    obtain ⟨e', he', rfl⟩ := Option.map_eq_some_iff.mp h
    refine turn_turned ?_
    rw [StreamState.handle, StreamState.run_perform he']
    cases task.op input.remaining <;> rfl
  cases task with
  | emitAudio event =>
    cases hrun
    exact s.emitAudio_turned event input.remaining
  | readEvent =>
    cases hrun
    exact s.readEvent_turned
  | _ => exact hsection hrun

/-! ### Who waits, waits with a reason -/

/-- A parking that is not notified waits for what has not come. -/
structure Parked (s : BridgeState) (bag : Multiset BridgeTask) : Prop where
  producer : ∀ n event, .parkedProducer n event ∈ bag →
    n < s.parkings ∧ (n ∈ s.parked → s.handle.NoRoom event)
  reader : ∀ n, .parkedReader n ∈ bag → n < s.parkings ∧ (n ∈ s.parked → ¬ s.handle.Readable)

/-- The entries are those of the readers that have not taken theirs out, one each;
a future that is cancelled has its reader leaving, and one that is pending, when
there is something to say, has its resolution scheduled. -/
structure Registered (s : BridgeState) (bag : Multiset BridgeTask) : Prop where
  entries : (↑s.asyncWaiters : Multiset WaiterEntry) = bag.filterMap BridgeTask.waiterEntry
  nodup : (s.asyncWaiters.map WaiterEntry.waiter).Nodup
  known : ∀ entry ∈ s.asyncWaiters, entry.waiter < s.futures.length
  left : ∀ entry ∈ s.asyncWaiters, s.futures[entry.waiter]? = some .cancelled → .discardWaiter entry ∈ bag
  woken : s.handle.Readable → ∀ entry ∈ s.asyncWaiters, s.futures[entry.waiter]? = some .pending →
    .resolveWaiter entry ∈ bag

/-- What a look does, the parkings survive. -/
theorem Parked.turned (h : s.Parked (task ::ₘ others)) (hturn : s.Turned e) :
    e.state.Parked (e.left + others) where
  producer := fun n event hmem => by
    rcases Multiset.mem_add.mp hmem with hmem | hmem
    · rcases List.mem_append.mp (Multiset.mem_coe.mp hmem) with hnext | hspawned
      · obtain ⟨-, hlt, hroom⟩ := hturn.producer n event hnext
        exact ⟨hlt, fun _ => hroom⟩
      · obtain ⟨entry, heq⟩ := hturn.spawned _ hspawned
        cases heq
    · obtain ⟨hlt, hroom⟩ := h.producer n event (Multiset.mem_cons_of_mem hmem)
      refine ⟨hlt.trans_le hturn.parkings, fun hparked => ?_⟩
      obtain ⟨hold, hsilent⟩ := hturn.old n hparked hlt
      exact hsilent.noRoom (hroom hold)
  reader := fun n hmem => by
    rcases Multiset.mem_add.mp hmem with hmem | hmem
    · rcases List.mem_append.mp (Multiset.mem_coe.mp hmem) with hnext | hspawned
      · obtain ⟨-, hlt, hread⟩ := hturn.reader n hnext
        exact ⟨hlt, fun _ => hread⟩
      · obtain ⟨entry, heq⟩ := hturn.spawned _ hspawned
        cases heq
    · obtain ⟨hlt, hread⟩ := h.reader n (Multiset.mem_cons_of_mem hmem)
      refine ⟨hlt.trans_le hturn.parkings, fun hparked => ?_⟩
      obtain ⟨hold, hsilent⟩ := hturn.old n hparked hlt
      exact hsilent.not_readable (hread hold)

/-- A step of an asynchronous reader, or of a loop, that moves neither handle nor
parkings. -/
theorem Parked.aside (h : s.Parked (task ::ₘ others)) (e : Step) (hstream : e.state.stream = s.stream)
    (hparked : e.state.parked = s.parked) (hparkings : e.state.parkings = s.parkings)
    (hnext : ∀ t ∈ e.next, (∀ n event, t ≠ .parkedProducer n event) ∧ ∀ n, t ≠ .parkedReader n) :
    e.state.Parked (↑e.next + others) where
  producer := fun n event hmem => by
    rw [handle, hstream, hparked, hparkings]
    rcases Multiset.mem_add.mp hmem with hmem | hmem
    · exact absurd rfl ((hnext _ (Multiset.mem_coe.mp hmem)).1 n event)
    · exact h.producer n event (Multiset.mem_cons_of_mem hmem)
  reader := fun n hmem => by
    rw [handle, hstream, hparked, hparkings]
    rcases Multiset.mem_add.mp hmem with hmem | hmem
    · exact absurd rfl ((hnext _ (Multiset.mem_coe.mp hmem)).2 n)
    · exact h.reader n (Multiset.mem_cons_of_mem hmem)

/-- What a look does, the entries survive. -/
theorem Registered.turned (h : s.Registered (task ::ₘ others)) (htask : task.waiterEntry = none)
    (hresolve : ∀ entry, task ≠ .resolveWaiter entry) (hturn : s.Turned e) :
    e.state.Registered (e.left + others) where
  entries := by
    have hleft : e.left.filterMap BridgeTask.waiterEntry = 0 := by
      rw [Effect.left, Multiset.filterMap_coe, Multiset.coe_eq_zero, List.filterMap_eq_nil_iff]
      intro t hmem
      rcases List.mem_append.mp hmem with hnext | hspawned
      · exact hturn.next t hnext
      · obtain ⟨entry, rfl⟩ := hturn.spawned t hspawned
        rfl
    rw [Multiset.filterMap_add, hleft, zero_add, hturn.asyncWaiters, h.entries,
      Multiset.filterMap_cons_none _ _ htask]
  nodup := hturn.asyncWaiters ▸ h.nodup
  known := by
    rw [hturn.asyncWaiters, hturn.futures]
    exact h.known
  left := fun entry hmem hcancelled => by
    rw [hturn.asyncWaiters] at hmem
    rw [hturn.futures] at hcancelled
    rcases Multiset.mem_cons.mp (h.left entry hmem hcancelled) with rfl | hold
    · cases htask
    · exact Multiset.mem_add.mpr (.inr hold)
  woken := fun hread entry hmem hpending => by
    rw [hturn.asyncWaiters] at hmem
    rw [hturn.futures] at hpending
    rcases hturn.woken hread with hread | hwoken
    · rcases Multiset.mem_cons.mp (h.woken hread entry hmem hpending) with heq | hold
      · exact absurd heq.symm (hresolve entry)
      · exact Multiset.mem_add.mpr (.inr hold)
    · exact Multiset.mem_add.mpr (.inl (Multiset.mem_coe.mpr (List.mem_append_right _ (hwoken entry hmem))))

/-- **A reader that finds nothing enters a future**, in the section of its look. -/
theorem Registered.enter {loop : ℕ} (h : s.Registered (.readEventAsync loop ::ₘ others))
    (hread : ¬ s.handle.Readable) :
    (s.enter loop).state.Registered (↑(s.enter loop).next + others) := by
  have hnew : ∀ entry ∈ s.asyncWaiters, entry.waiter ≠ s.futures.length :=
    fun entry hmem heq => absurd (h.known entry hmem) (by omega)
  simp only [BridgeState.enter]
  refine ⟨?_, ?_, ?_, ?_, fun hread' => absurd hread' hread⟩
  · rw [← Multiset.coe_add, h.entries, Multiset.filterMap_cons_none _ _ rfl, Multiset.filterMap_add, add_comm]
    rfl
  · rw [List.map_append, List.nodup_append]
    refine ⟨h.nodup, List.nodup_singleton _, fun n hold m hmem => ?_⟩
    obtain ⟨entry, hentry, rfl⟩ := List.mem_map.mp hold
    rw [List.mem_singleton.mp hmem]
    exact hnew entry hentry
  · intro entry hmem
    rw [List.length_append, List.length_singleton]
    rcases List.mem_append.mp hmem with hold | hmem
    · exact (h.known entry hold).trans (Nat.lt_succ_self _)
    · rw [List.mem_singleton.mp hmem]
      exact Nat.lt_succ_self _
  · intro entry hmem hcancelled
    rcases List.mem_append.mp hmem with hold | hmem
    · rw [List.getElem?_append_left (h.known entry hold)] at hcancelled
      rcases Multiset.mem_cons.mp (h.left entry hold hcancelled) with heq | hleft
      · cases heq
      · exact Multiset.mem_add.mpr (.inr hleft)
    · rw [List.mem_singleton.mp hmem, List.getElem?_concat_length] at hcancelled
      cases hcancelled

/-- An await that ends hands its entry on to `finally`. -/
theorem Registered.leave {entry : WaiterEntry} {rest : List BridgeTask}
    (h : s.Registered (.awaitWaiter entry ::ₘ others)) (hrest : ∀ t ∈ rest, t.waiterEntry = none) :
    s.Registered (↑(.discardWaiter entry :: rest) + others) where
  entries := by
    have hnone : rest.filterMap BridgeTask.waiterEntry = [] := List.filterMap_eq_nil_iff.mpr hrest
    rw [h.entries, Multiset.filterMap_add, Multiset.filterMap_coe,
      Multiset.filterMap_cons_some BridgeTask.waiterEntry _ _ rfl,
      List.filterMap_cons_some (f := BridgeTask.waiterEntry) rfl, hnone,
      ← Multiset.singleton_add]
    rfl
  nodup := h.nodup
  known := h.known
  left := fun entry' hmem hcancelled => by
    rcases Multiset.mem_cons.mp (h.left entry' hmem hcancelled) with heq | hold
    · cases heq
    · exact Multiset.mem_add.mpr (.inr hold)
  woken := fun hread entry' hmem hpending => by
    rcases Multiset.mem_cons.mp (h.woken hread entry' hmem hpending) with heq | hold
    · cases heq
    · exact Multiset.mem_add.mpr (.inr hold)

/-- Entries with one future are one entry. -/
theorem Registered.eq_of_waiter (h : s.Registered bag) {entry entry' : WaiterEntry}
    (hmem : entry ∈ s.asyncWaiters) (hmem' : entry' ∈ s.asyncWaiters) (heq : entry.waiter = entry'.waiter) :
    entry = entry' :=
  List.inj_on_of_nodup_map h.nodup hmem hmem' heq

/-- The entry a reader awaits is among the waiters. -/
theorem Registered.mem (h : s.Registered bag) {entry : WaiterEntry} (ht : task ∈ bag)
    (hentry : task.waiterEntry = some entry) : entry ∈ s.asyncWaiters := by
  rw [← Multiset.mem_coe, h.entries]
  exact (Multiset.mem_filterMap _ _).mpr ⟨task, ht, hentry⟩

/-- A future that gets done, cancelled only where its reader leaves. -/
theorem Registered.settle {entry : WaiterEntry} {future : FutureState} (h : s.Registered bag)
    (hdone : future ≠ .pending)
    (hcancelled : future = .cancelled → entry ∈ s.asyncWaiters ∧ .discardWaiter entry ∈ bag) :
    (s.settle entry future).Registered bag := by
  unfold BridgeState.settle
  split_ifs with hpending
  · refine { h with known := fun e hmem => ?_, left := fun e hmem hc => ?_, woken := fun hread e hmem hp => ?_ }
    · rw [List.length_set]
      exact h.known e hmem
    · rw [List.getElem?_set] at hc
      split_ifs at hc with hsame hlt
      · obtain ⟨hentry, hleft⟩ := hcancelled (Option.some.inj hc)
        rwa [h.eq_of_waiter hmem hentry hsame.symm]
      · exact h.left e hmem hc
    · rw [List.getElem?_set] at hp
      split_ifs at hp with hsame hlt
      · exact absurd (Option.some.inj hp) hdone
      · exact h.woken hread e hmem hp
  · exact h

/-- A reader takes its entry out. -/
theorem Registered.discard {entry : WaiterEntry} (h : s.Registered (.discardWaiter entry ::ₘ others)) :
    Registered { s with asyncWaiters := s.asyncWaiters.erase entry } others where
  entries := by
    rw [← Multiset.coe_erase, h.entries, Multiset.filterMap_cons_some BridgeTask.waiterEntry _ _ rfl,
      Multiset.erase_cons_head]
  nodup := h.nodup.sublist (List.erase_sublist.map _)
  known := fun entry' hmem => h.known entry' (List.mem_of_mem_erase hmem)
  left := fun entry' hmem hcancelled => by
    have hne : entry' ≠ entry := ((h.nodup.of_map _).mem_erase_iff.mp hmem).1
    rcases Multiset.mem_cons.mp (h.left entry' (List.mem_of_mem_erase hmem) hcancelled) with heq | hold
    · exact absurd (BridgeTask.discardWaiter.inj heq) hne
    · exact hold
  woken := fun hread entry' hmem hpending => by
    rcases Multiset.mem_cons.mp (h.woken hread entry' (List.mem_of_mem_erase hmem) hpending) with heq | hold
    · cases heq
    · exact hold

/-- A resolution runs on its loop. -/
theorem Registered.resolve {entry : WaiterEntry} (h : s.Registered (.resolveWaiter entry ::ₘ others)) :
    (s.settle entry .resolved).Registered others := by
  have hsettled : (s.settle entry .resolved).Registered (.resolveWaiter entry ::ₘ others) :=
    h.settle (by simp) (by simp)
  refine { hsettled with
    entries := hsettled.entries.trans (Multiset.filterMap_cons_none _ _ rfl)
    left := fun e hmem hcancelled => ?_
    woken := fun hread e hmem hpending => ?_ }
  · rcases Multiset.mem_cons.mp (hsettled.left e hmem hcancelled) with heq | hold
    · cases heq
    · exact hold
  · rcases Multiset.mem_cons.mp (hsettled.woken hread e hmem hpending) with heq | hold
    · -- its own future is pending no more
      obtain rfl := BridgeTask.resolveWaiter.inj heq
      unfold BridgeState.settle at hpending
      split_ifs at hpending with hold
      · rw [List.getElem?_set_self (List.getElem?_eq_some_iff.mp hold).1] at hpending
        exact absurd (Option.some.inj hpending) (by simp)
      · exact absurd hpending hold
    · exact hold

/-- What holds of all who wait. -/
structure Bridged (s : BridgeState) (bag : Multiset BridgeTask) : Prop where
  parked : s.Parked bag
  registered : s.Registered bag

theorem Bridged.turned (h : s.Bridged (task ::ₘ others)) (htask : task.waiterEntry = none)
    (hresolve : ∀ entry, task ≠ .resolveWaiter entry) (hturn : s.Turned e) : e.state.Bridged (e.left + others) :=
  ⟨h.parked.turned hturn, h.registered.turned htask hresolve hturn⟩

/-- A future that gets done moves neither handle nor parkings. -/
theorem settle_aside (s : BridgeState) (entry : WaiterEntry) (future : FutureState) :
    (s.settle entry future).stream = s.stream ∧ (s.settle entry future).parked = s.parked ∧
      (s.settle entry future).parkings = s.parkings := by
  unfold settle
  split_ifs <;> exact ⟨rfl, rfl, rfl⟩

/-- **What every task keeps.** -/
theorem Bridged.run (h : s.Bridged (task ::ₘ others)) (hrun : s.run task input = some e) :
    e.state.Bridged (e.left + others) := by
  cases task with
  | method task => exact h.turned rfl (by simp) (method_turned hrun)
  | parkedProducer parking event =>
    simp only [BridgeState.run] at hrun
    split_ifs at hrun
    cases hrun
    exact h.turned rfl (by simp)
      (Turned.of_parked (fun n hmem => List.mem_of_mem_erase hmem) (emitAudio_turned _ event input.remaining))
  | parkedReader parking =>
    simp only [BridgeState.run] at hrun
    split_ifs at hrun
    cases hrun
    exact h.turned rfl (by simp) s.readEvent_turned
  | readEventAsync loop =>
    cases hrun
    by_cases hread : s.handle.Readable
    · rw [readEventAsync, if_pos hread]
      exact h.turned rfl (by simp) s.popEvent_turned
    · rw [readEventAsync, if_neg hread, Effect.left_of_next rfl]
      exact ⟨h.parked.aside (s.enter loop) rfl rfl rfl (by simp [enter]), h.registered.enter hread⟩
  | awaitWaiter entry =>
    simp only [BridgeState.run, awaitWaiter] at hrun
    split_ifs at hrun with hcancelled hpending
    · cases hrun
      rw [Effect.left_of_next rfl]
      obtain ⟨hstream, hparked, hparkings⟩ := s.settle_aside entry .cancelled
      refine ⟨h.parked.aside ⟨_, _, []⟩ hstream hparked hparkings (by simp), ?_⟩
      have hleave : s.Registered (↑[BridgeTask.discardWaiter entry] + others) :=
        h.registered.leave fun _ hmem => absurd hmem List.not_mem_nil
      exact hleave.settle (by simp) fun _ => ⟨h.registered.mem (Multiset.mem_cons_self ..) rfl, by simp⟩
    · cases hrun
      rw [Effect.left_of_next rfl]
      exact ⟨h.parked.aside ⟨s, _, []⟩ rfl rfl rfl (by simp), h.registered.leave (by simp [BridgeTask.waiterEntry])⟩
  | discardWaiter entry =>
    cases hrun
    rw [Effect.left_of_next rfl]
    refine ⟨h.parked.aside ⟨_, [], []⟩ rfl rfl rfl (by simp), ?_⟩
    rw [Multiset.coe_nil, zero_add]
    exact h.registered.discard
  | resolveWaiter entry =>
    cases hrun
    rw [Effect.left_of_next rfl]
    obtain ⟨hstream, hparked, hparkings⟩ := s.settle_aside entry .resolved
    refine ⟨h.parked.aside ⟨_, [], []⟩ hstream hparked hparkings (by simp), ?_⟩
    rw [Multiset.coe_nil, zero_add]
    exact h.registered.resolve

/-- A call waits for nothing yet. -/
theorem Bridged.entry (h : s.Bridged bag) (hentry : task.entry = true) : s.Bridged (task ::ₘ bag) := by
  have hkind : task.waiterEntry = none ∧ (∀ n event, task ≠ .parkedProducer n event) ∧
      ∀ n, task ≠ .parkedReader n := by
    cases task with
    | method task => simp [BridgeTask.waiterEntry]
    | readEventAsync loop => simp [BridgeTask.waiterEntry]
    | _ => cases hentry
  obtain ⟨hnone, hproducer, hreader⟩ := hkind
  refine ⟨⟨fun n event hmem => ?_, fun n hmem => ?_⟩, { h.registered with
    entries := h.registered.entries.trans (Multiset.filterMap_cons_none _ _ hnone).symm
    left := fun e hmem hc => Multiset.mem_cons_of_mem (h.registered.left e hmem hc)
    woken := fun hread e hmem hp => Multiset.mem_cons_of_mem (h.registered.woken hread e hmem hp) }⟩
  · rcases Multiset.mem_cons.mp hmem with heq | hmem
    · exact absurd heq.symm (hproducer n event)
    · exact h.parked.producer n event hmem
  · rcases Multiset.mem_cons.mp hmem with heq | hmem
    · exact absurd heq.symm (hreader n)
    · exact h.parked.reader n hmem

theorem start_bridged (handle : SynthesisHandle) : (start handle).state.Bridged (start handle).bag where
  parked :=
    ⟨fun _ _ hmem => absurd hmem (Multiset.notMem_zero _), fun _ hmem => absurd hmem (Multiset.notMem_zero _)⟩
  registered :=
    ⟨rfl, List.nodup_nil, fun _ hmem => absurd hmem List.not_mem_nil, fun _ hmem => absurd hmem List.not_mem_nil,
      fun _ _ hmem => absurd hmem List.not_mem_nil⟩

theorem runs_bridged (handle : SynthesisHandle) (actions : List (Action BridgeTask BridgeInput)) :
    (bridgeProgram.runs (start handle) actions).state.Bridged (bridgeProgram.runs (start handle) actions).bag :=
  Threads.Program.runs_of (start_bridged handle) (fun _ _ _ hentry h => h.entry hentry)
    (fun _ _ _ _ _ hrun h => h.run hrun) actions

/-! ### No lost wake-ups -/

/-- A reader awaits a future that is not cancelled. -/
theorem Registered.not_cancelled (h : s.Registered bag) {entry : WaiterEntry} (hawait : .awaitWaiter entry ∈ bag) :
    s.futures[entry.waiter]? ≠ some .cancelled := by
  intro hcancelled
  -- its reader would be at its `finally` as well, and have two entries
  have hleft := h.left entry (h.mem hawait rfl) hcancelled
  obtain ⟨others, rfl⟩ := Multiset.exists_cons_of_mem hawait
  have hother : BridgeTask.discardWaiter entry ∈ others := by simpa using hleft
  obtain ⟨rest, rfl⟩ := Multiset.exists_cons_of_mem hother
  have hnodup : (↑s.asyncWaiters : Multiset WaiterEntry).Nodup := h.nodup.of_map _
  rw [h.entries, Multiset.filterMap_cons_some BridgeTask.waiterEntry _ _ rfl,
    Multiset.filterMap_cons_some BridgeTask.waiterEntry _ _ rfl, Multiset.nodup_cons] at hnodup
  exact hnodup.1 (Multiset.mem_cons_self ..)

/-- An entry that is there when there is something to say: its future is done, or
its resolution scheduled. -/
theorem Registered.signalled (h : s.Registered bag) (hread : s.handle.Readable) {entry : WaiterEntry}
    (hmem : entry ∈ s.asyncWaiters) :
    s.futures[entry.waiter]? = some .resolved ∨ .resolveWaiter entry ∈ bag ∨
      (s.futures[entry.waiter]? = some .cancelled ∧ .discardWaiter entry ∈ bag) := by
  obtain ⟨outcome, hfuture⟩ : ∃ outcome, s.futures[entry.waiter]? = some outcome :=
    ⟨_, List.getElem?_eq_getElem (h.known entry hmem)⟩
  rw [hfuture]
  cases outcome with
  | pending => exact .inr (.inl (h.woken hread entry hmem hfuture))
  | resolved => exact .inl rfl
  | cancelled => exact .inr (.inr ⟨rfl, h.left entry hmem hfuture⟩)

/-- **No lost wake-ups.**  In every state that any schedule reaches, a producer
parked without a notification lacks room on a handle neither cancelled nor ended,
and a reader parked without one has no event, no end and no cancellation to see.
When there is one, every registered future is resolved, or has its resolution
scheduled, or is that of a reader cancelled at its `await`.  Who awaits is
registered: so it misses nothing, and a reader woken that finds the event taken
registers again in the section of its look. -/
theorem no_lost_wakeups (responseId modelName : String) (createdAt : ℚ) (maxBufferChunks maxBufferBytes : ℤ)
    (timeout : ℚ) (actions : List (Action BridgeTask BridgeInput)) :
    let c := bridgeProgram.runs
      (start (.new responseId modelName createdAt maxBufferChunks maxBufferBytes timeout)) actions
    let s := c.state
    (∀ parking event, .parkedProducer parking event ∈ c.bag → parking ∈ s.parked →
      s.handle.Full event.pcm.length ∧ s.handle.cancelled = false ∧ s.handle.terminal = false) ∧
    (∀ parking, .parkedReader parking ∈ c.bag → parking ∈ s.parked →
      s.handle.events = [] ∧ s.handle.terminal = false ∧ s.handle.cancelled = false) ∧
    (s.handle.Readable → ∀ entry ∈ s.asyncWaiters,
      s.futures[entry.waiter]? = some .resolved ∨ .resolveWaiter entry ∈ c.bag ∨
        (s.futures[entry.waiter]? = some .cancelled ∧ .discardWaiter entry ∈ c.bag)) ∧
    (∀ entry, .awaitWaiter entry ∈ c.bag → entry ∈ s.asyncWaiters ∧
      (s.handle.Readable → s.futures[entry.waiter]? = some .resolved ∨ .resolveWaiter entry ∈ c.bag)) ∧
    (∀ thread input entry, c.next? thread = some (.awaitWaiter entry) →
      s.futures[entry.waiter]? = some .resolved → input.cancelled = false →
      ∃ rest, (bridgeProgram.step c (.run thread input)).threads[thread]? =
        some (.discardWaiter entry :: .readEventAsync entry.loop :: rest)) ∧
    (∀ thread input loop, c.next? thread = some (.readEventAsync loop) → ¬ s.handle.Readable →
      let c' := bridgeProgram.step c (.run thread input)
      c'.next? thread = some (.awaitWaiter ⟨loop, s.futures.length⟩) ∧
        c'.state.asyncWaiters = s.asyncWaiters ++ [⟨loop, s.futures.length⟩] ∧
        c'.state.futures = s.futures ++ [.pending]) := by
  intro c s
  obtain ⟨hparked, hregistered⟩ : s.Bridged c.bag := runs_bridged _ actions
  refine ⟨fun parking event hmem hpark => ?_, fun parking hmem hpark => ?_, fun hread entry hmem => ?_,
    fun entry hawait => ?_, fun thread input entry hnext hresolved hinput => ?_,
    fun thread input loop hnext hread => ?_⟩
  · have hroom := (hparked.producer parking event hmem).2 hpark
    exact ⟨hroom.full, hroom.cancelled, hroom.terminal⟩
  · exact SynthesisHandle.not_readable_iff.mp ((hparked.reader parking hmem).2 hpark)
  · exact hregistered.signalled hread hmem
  · refine ⟨hregistered.mem hawait rfl, fun hread => ?_⟩
    rcases hregistered.signalled hread (hregistered.mem hawait rfl) with h | h | ⟨h, -⟩
    · exact .inl h
    · exact .inr h
    · exact absurd h (hregistered.not_cancelled hawait)
  · have hrun : bridgeProgram.run s (.awaitWaiter entry) input =
        some { state := s, next := [.discardWaiter entry, .readEventAsync entry.loop] } := by
      show s.awaitWaiter entry input.cancelled = _
      simp [awaitWaiter, hinput, hresolved]
    exact Threads.Program.step_run_thread hnext hrun
  · intro c'
    have hrun : bridgeProgram.run s (.readEventAsync loop) input = some (s.enter loop) := by
      show some (s.readEventAsync loop) = _
      rw [readEventAsync, if_neg hread]
    refine ⟨?_, ?_, ?_⟩
    · obtain ⟨rest, hthread⟩ := Threads.Program.step_run_thread hnext hrun
      rw [Config.next?, hthread]
      rfl
    · rw [show c'.state = _ from Threads.Program.step_run hnext hrun]
      rfl
    · rw [show c'.state = _ from Threads.Program.step_run hnext hrun]
      rfl

end BridgeState
end TtsPool
