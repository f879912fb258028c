import StepScript.Proofs.Stream.Events
import StepScript.Rehearsal.Layers

/-!
# Where the results of a streamed run are

Every result that a streamed run has emitted was delivered, or is in the queue, or is the one that
the run is about to send. The last one may be lost if the run is stopped while it waits to send it.

## Main definitions

- `Stream.State.Sends` — the run waits to send a result
- `Stream.CutOff` — the run was stopped while it waited to send a result
- `Stream.Accounted` — where the results are

## Main results

- `Stream.accounted` — the results are accounted for in every state
- `Stream.lost_without_crowd` — a result can be lost although the queue never was full
-/

namespace StepScript

variable {B : Backend}

namespace Stream

def Phase.goesOn : Phase B → Bool
  | .ended .. => false
  | _ => true

/-- What waits to be sent. -/
def Phase.held : Phase B → List ActionResult
  | .blocked result _ _ => [result]
  | _ => []

namespace State

def Sends (state : State B) (result : ActionResult) : Prop :=
  ∃ context course, state.phase = .blocked result context course

/-- The emitted results are the delivered ones, the queued ones and some others, in this order. -/
def Ledger (state : State B) (others : List ActionResult) : Prop :=
  state.emitted.toList = state.delivered.toList ++ state.queue ++ others

end State

/-- The run waits to send a result, which it began to do when the queue was full or its turn was
over. -/
structure Stalled (run : Run B) (start state : State B) (result : ActionResult) : Prop where
  sends : state.Sends result
  since : ∃ before, Reaches run start before ∧ Reaches run before state ∧ before.Sends result ∧
    before.emitted = state.emitted ∧ (before.queue.length = capacity ∨ before.turn = 0)

/-- The run was stopped with an error while it waited to send a result, its last one. -/
def CutOff (run : Run B) (start state : State B) (result : ActionResult) (error : RunError) : Prop :=
  ∃ cut, Stalled run start cut result ∧ cut.emitted = state.emitted ∧
    Reaches run (cut.stop error) state

/-- The books of a run. -/
inductive Balance (run : Run B) (start state : State B) : Prop where
  | clear (hheld : state.phase.held = []) (hledger : state.Ledger [])
  | stalled {result : ActionResult} (hstalled : Stalled run start state result)
      (hledger : state.Ledger [result])
  | lost {result : ActionResult} {error : RunError} {context : Context B}
      (hphase : state.phase = .ended (some error) context)
      (herror : error = .cancelled ∨ ∃ limit, error = .timedOut limit)
      (hcut : CutOff run start state result error) (hledger : state.Ledger [result])

section

variable {run : Run B} {start state state' : State B}

/-! ## Single events -/

/-- Events between which nothing changes for the results but that some are delivered. -/
theorem Balance.frame (h : Balance run start state) (hevent : Event run state state')
    (hphase : state'.phase = state.phase) (hemitted : state'.emitted = state.emitted)
    (hsent : state'.delivered.toList ++ state'.queue = state.delivered.toList ++ state.queue) :
    Balance run start state' := by
  have hledger : ∀ {others}, state.Ledger others → state'.Ledger others := by
    intro others hledger
    rw [State.Ledger, hemitted, hsent]
    exact hledger
  cases h with
  | clear hheld hclear => exact .clear (by rw [hphase, hheld]) (hledger hclear)
  | stalled hstalled hone =>
    obtain ⟨⟨context, course, hsends⟩, before, hstart, hbefore, hsince⟩ := hstalled
    refine .stalled ⟨⟨context, course, hphase.trans hsends⟩, before, hstart,
      hbefore.tail hevent, ?_⟩ (hledger hone)
    rw [hemitted]
    exact hsince
  | lost hended herror hcut hone =>
    obtain ⟨cut, hstalled, hlast, hreaches⟩ := hcut
    exact .lost (hphase.trans hended) herror
      ⟨cut, hstalled, hlast.trans hemitted.symm, hreaches.tail hevent⟩ (hledger hone)

/-- As long as a run goes on, it owes only what it waits to send. -/
theorem Balance.ledger {phase : Phase B} (h : Balance run start state) (hphase : state.phase = phase)
    (hrunning : phase.goesOn = true) : state.Ledger phase.held := by
  subst hphase
  cases h with
  | clear hheld hledger => exact hheld ▸ hledger
  | stalled hstalled hledger =>
    obtain ⟨context, course, hsends⟩ := hstalled.sends
    rw [hsends]
    exact hledger
  | lost hended =>
    rw [hended] at hrunning
    cases hrunning

theorem Balance.stalled_of_sends (h : Balance run start state) {result : ActionResult}
    (hsends : state.Sends result) : Stalled run start state result := by
  obtain ⟨context, course, hphase⟩ := hsends
  cases h with
  | clear hheld =>
    rw [hphase] at hheld
    cases hheld
  | stalled hstalled =>
    obtain ⟨_, _, hsends⟩ := hstalled.sends
    rw [hphase] at hsends
    cases hsends
    exact hstalled
  | lost hended =>
    rw [hphase] at hended
    cases hended

/-- A result is queued, or the run waits from now on. -/
theorem offer_balance {result : ActionResult} {context : Context B} {course : Course B}
    (hreaches : Reaches run start (state.offer result context course))
    (hroom : state.queue.length ≤ capacity) (hledger : state.Ledger [result]) :
    (state.offer result context course).queue.length ≤ capacity ∧
      Balance run start (state.offer result context course) := by
  unfold State.offer at hreaches ⊢
  split at hreaches
  · next hopen =>
    rw [if_pos hopen]
    refine ⟨?_, .clear rfl ?_⟩
    · rw [List.length_append, List.length_singleton]
      omega
    · simp only [State.Ledger, List.append_nil] at hledger ⊢
      rw [hledger, List.append_assoc]
  · next hclosed =>
    rw [if_neg hclosed]
    have hwhy : state.queue.length = capacity ∨ state.turn = 0 := by omega
    have hsends : State.Sends { state with phase := .blocked result context course } result :=
      ⟨context, course, rfl⟩
    exact ⟨hroom, .stalled ⟨hsends, _, hreaches, .refl, hsends, rfl, hwhy⟩ hledger⟩

theorem step_balance (hstart : Reaches run start state) (hroom : state.queue.length ≤ capacity)
    (h : Balance run start state) :
    (state.step run.setup).queue.length ≤ capacity ∧
      Balance run start (state.step run.setup) := by
  have hnext : Reaches run start (state.step run.setup) := hstart.tail .steps
  cases hphase : state.phase with
  | working course =>
    have hledger : state.Ledger [] := h.ledger hphase rfl
    obtain ⟨moments, next⟩ := course
    cases moments with
    | nil =>
      cases next <;> simp only [State.step, hphase] <;> exact ⟨hroom, .clear rfl hledger⟩
    | cons moment moments =>
      obtain ⟨signal, context⟩ := moment
      cases signal with
      | dispatch | stepAside =>
        simp only [State.step, hphase]
        exact ⟨hroom, .clear rfl hledger⟩
      | sleep millis =>
        simp only [State.step, hphase]
        rcases sleep_cases state millis context ⟨moments, next⟩ with
          ⟨-, hsleep⟩ | ⟨-, -, hsleep⟩ | ⟨-, -, hsleep⟩ <;> rw [hsleep] <;>
          exact ⟨hroom, .clear rfl hledger⟩
      | emit result =>
        simp only [State.step, hphase] at hnext ⊢
        refine offer_balance hnext hroom ?_
        rw [State.Ledger, List.append_nil] at hledger
        simp only [State.Ledger, Array.toList_push, hledger]
  | idle | pausing | blocked | ended =>
    simp only [State.step, hphase]
    exact ⟨hroom, h⟩

theorem wake_balance {context : Context B} (hstart : Reaches run start state)
    (hroom : state.queue.length ≤ capacity) (h : Balance run start state)
    (hwaiting : state.phase.waiting? = some context) (hcalm : state.isCancelled context = false) :
    state.wake.queue.length ≤ capacity ∧ Balance run start state.wake := by
  have hnext : Reaches run start state.wake := hstart.tail (.wakes hwaiting hcalm)
  cases hphase : state.phase with
  | pausing time _ course =>
    have hledger : state.Ledger [] := h.ledger hphase rfl
    simp only [State.wake, hphase]
    split
    · exact ⟨hroom, .clear rfl hledger⟩
    · exact ⟨hroom, h⟩
  | blocked result _ course =>
    have hledger : state.Ledger [result] := h.ledger hphase rfl
    simp only [State.wake, hphase] at hnext ⊢
    exact offer_balance hnext hroom hledger
  | idle | working | ended =>
    rw [hphase] at hwaiting
    cases hwaiting

/-- A run that is stopped loses the result that it waits to send. -/
theorem stop_balance {error : RunError}
    (herror : error = .cancelled ∨ ∃ limit, error = .timedOut limit)
    (h : Balance run start state) : Balance run start (state.stop error) := by
  cases hphase : state.phase with
  | pausing _ context _ =>
    have hledger : state.Ledger [] := h.ledger hphase rfl
    simp only [State.stop, hphase]
    exact .clear rfl hledger
  | blocked result context _ =>
    have hledger : state.Ledger [result] := h.ledger hphase rfl
    have hstalled : Stalled run start state result := h.stalled_of_sends ⟨_, _, hphase⟩
    have hstop : state.stop error = { state with phase := .ended (some error) context } := by
      simp only [State.stop, hphase]
    rw [hstop]
    exact .lost rfl herror ⟨state, hstalled, rfl, hstop ▸ .refl⟩ hledger
  | idle | working | ended =>
    simp only [State.stop, hphase]
    exact h

/-- Whatever happens next, the books are in order. -/
theorem Event.balance (hevent : Event run state state') (hstart : Reaches run start state)
    (hroom : state.queue.length ≤ capacity) (h : Balance run start state) :
    state'.queue.length ≤ capacity ∧ Balance run start state' := by
  -- the last four events change neither what the run does nor what it has emitted
  cases hevent with
  | begins hphase =>
    have hledger : state.Ledger [] := h.ledger hphase rfl
    exact ⟨hroom, .clear rfl hledger⟩
  | steps => exact step_balance hstart hroom h
  | notices hphase hcancelled =>
    have hledger : state.Ledger [] := h.ledger hphase rfl
    exact ⟨hroom, .clear rfl hledger⟩
  | wakes hwaiting hcalm => exact wake_balance hstart hroom h hwaiting hcalm
  | stops _ _ =>
    rw [queue_stop]
    exact ⟨hroom, stop_balance (.inl rfl) h⟩
  | expires =>
    unfold State.expire
    split
    · rw [queue_stop]
      exact ⟨hroom, stop_balance (.inr ⟨_, rfl⟩) h⟩
    · exact ⟨hroom, h⟩
  | reads =>
    have hread : Event run state state.read.2 := .reads
    unfold State.read at hread ⊢
    split at hread
    · exact ⟨hroom, h⟩
    · next result rest hqueue =>
      rw [hqueue, List.length_cons] at hroom
      refine ⟨by dsimp only; omega, h.frame hread rfl rfl ?_⟩
      simp [hqueue]
  | cancels => exact ⟨hroom, h.frame .cancels rfl rfl rfl⟩
  | passes hclock => exact ⟨hroom, h.frame (.passes hclock) rfl rfl rfl⟩
  | turns => exact ⟨hroom, h.frame .turns rfl rfl rfl⟩
  | attends => exact ⟨hroom, h.frame .attends rfl rfl rfl⟩

/-! ## All states -/

theorem Balance.sequence (h : Balance run start state) :
    ∃ others, state.Ledger others ∧ others.length ≤ 1 ∧
      (state.hasEnded = false → others = state.phase.held) := by
  cases h with
  | clear hheld hledger => exact ⟨[], hledger, Nat.zero_le 1, fun _ => hheld.symm⟩
  | @stalled result hstalled hledger =>
    obtain ⟨context, course, hphase⟩ := hstalled.sends
    refine ⟨[result], hledger, Nat.le_refl 1, fun _ => ?_⟩
    rw [hphase]
    rfl
  | @lost result _ _ hphase herror hcut hledger =>
    refine ⟨[result], hledger, Nat.le_refl 1, fun hrunning => ?_⟩
    simp [State.hasEnded, hphase] at hrunning

theorem Reaches.balance {cancelled : Bool} {world : B.World}
    (h : Reaches run (.start cancelled world) state) :
    state.queue.length ≤ capacity ∧ Balance run (.start cancelled world) state := by
  induction h with
  | refl => exact ⟨Nat.zero_le _, .clear rfl rfl⟩
  | tail hreaches hevent ih => exact hevent.balance hreaches ih.1 ih.2

/-- No result is taken back. -/
theorem Event.emitted_size_le (h : Event run state state') :
    state.emitted.size ≤ state'.emitted.size := by
  cases h with
  | steps =>
    unfold State.step
    split
    · exact Nat.le_refl _
    · exact Nat.le_refl _
    · split <;> simp
    · exact Nat.le_refl _
  | expires =>
    unfold State.expire
    split <;> simp
  | wakes | stops | reads => simp
  | begins | notices | cancels | passes | turns | attends => exact Nat.le_refl _

theorem Reaches.emitted_size_le (h : Reaches run state state') :
    state.emitted.size ≤ state'.emitted.size := by
  induction h with
  | refl => exact Nat.le_refl _
  | tail _ hevent ih => exact Nat.le_trans ih hevent.emitted_size_le

theorem Reaches.queue_length_le {cancelled : Bool} {world : B.World}
    (h : Reaches run (.start cancelled world) state) :
    state.queue.length ≤ state.emitted.size := by
  obtain ⟨others, hledger, -⟩ := h.balance.2.sequence
  have hlength := congrArg List.length hledger
  simp only [List.length_append, Array.length_toList] at hlength
  omega

end

/-- Where the results of a run are. -/
structure Accounted (run : Run B) (start state : State B) : Prop where
  /-- While the run goes on, at most the result that it waits to send is neither delivered nor in
  the queue; in the end it may be the one that was lost. -/
  sequence : ∃ others, state.emitted.toList = state.delivered.toList ++ state.queue ++ others ∧
    others.length ≤ 1 ∧ (state.hasEnded = false → others = state.phase.held)
  room : state.queue.length ≤ capacity
  ahead : state.emitted.size ≤ state.delivered.size + capacity + 1
  /-- Once everything has been read, no result is missing but one that the run, when it was stopped,
  waited to send. -/
  drained : state.hasEnded = true → state.queue = [] →
    state.emitted = state.delivered ∨
    ∃ result error context, state.emitted = state.delivered.push result ∧
      state.phase = .ended (some error) context ∧
      (error = .cancelled ∨ ∃ limit, error = .timedOut limit) ∧
      CutOff run start state result error

section

variable {run : Run B} {start state : State B}

theorem Balance.drained (h : Balance run start state) (hended : state.hasEnded = true)
    (hempty : state.queue = []) :
    state.emitted = state.delivered ∨
    ∃ result error context, state.emitted = state.delivered.push result ∧
      state.phase = .ended (some error) context ∧
      (error = .cancelled ∨ ∃ limit, error = .timedOut limit) ∧
      CutOff run start state result error := by
  cases h with
  | clear _ hledger =>
    refine .inl (Array.ext' ?_)
    rw [hledger, hempty, List.append_nil, List.append_nil]
  | stalled hstalled =>
    obtain ⟨context, course, hphase⟩ := hstalled.sends
    simp [State.hasEnded, hphase] at hended
  | @lost result error context hphase herror hcut hledger =>
    refine .inr ⟨result, error, context, Array.ext' ?_, hphase, herror, hcut⟩
    rw [hledger, hempty, List.append_nil, Array.toList_push]

/-- However the steps of a run and what its consumer does follow each other, whether the run is
cancelled or its time is up: its results are accounted for. -/
theorem accounted {cancelled : Bool} {world : B.World}
    (h : Reaches run (.start cancelled world) state) :
    Accounted run (.start cancelled world) state := by
  obtain ⟨hroom, hbalance⟩ := h.balance
  obtain ⟨others, hledger, hone, hheld⟩ := hbalance.sequence
  refine ⟨⟨others, hledger, hone, hheld⟩, hroom, ?_, hbalance.drained⟩
  have hlength := congrArg List.length hledger
  simp only [List.length_append, Array.length_toList] at hlength
  omega

end

/-- A run that hands out more results than the queue holds. -/
def crowded : Run Rehearsal.backend :=
  { script :=
      { name := "crowded"
        steps := List.replicate 66 ⟨"note", none, .wait none⟩ }
    registry := .control
    interceptors := [Rehearsal.Layer.interceptor { kind := .short none }] }

/-- The consumer sleeps until the queue is full, cancels the run, and reads what there is. -/
theorem crowded_accounted :
    ∃ state : State Rehearsal.backend, Reaches crowded (.start false {}) state ∧
      state.hasEnded = true ∧ state.queue.length = 0 ∧ state.emitted.size = 65 ∧
      state.delivered.size = 64 ∧ Accounted crowded (.start false {}) state := by
  have hstate : Reaches crowded (.start false {})
      (performAll crowded 300 [.sleep 1, .cancel, .drain] (.start false {})).2 :=
    performAll_reaches 300 _ _
  refine ⟨_, hstate, ?_, ?_, ?_, ?_, accounted hstate⟩ <;> decide +kernel

/-- A run that uses up its turn before it hands out its result, and that has no time at all. -/
def sleepy : Run Rehearsal.backend :=
  { script := { name := "sleepy", steps := [⟨"note", none, .wait none⟩] }
    registry := .control
    interceptors :=
      List.replicate turnLength (Rehearsal.Layer.interceptor { kind := .sleep 0 }) ++
        [Rehearsal.Layer.interceptor { kind := .short none }]
    settings := { timeoutMillis := some 0 } }

/-- A result can be lost although the queue was never full. -/
theorem lost_without_crowd :
    ∃ state : State Rehearsal.backend, Reaches sleepy (.start false {}) state ∧
      state.hasEnded = true ∧ state.queue.length = 0 ∧
      state.emitted.size = state.delivered.size + 1 ∧
      ∀ before, Reaches sleepy (.start false {}) before → Reaches sleepy before state →
        before.queue.length < capacity := by
  have hstate : Reaches sleepy (.start false {})
      (performAll sleepy 200 [.drain] (.start false {})).2 :=
    performAll_reaches 200 _ _
  have hone : (performAll sleepy 200 [.drain] (.start false {})).2.emitted.size = 1 := by
    decide +kernel
  refine ⟨_, hstate, by decide +kernel, by decide +kernel, by decide +kernel, ?_⟩
  -- one result in all never fills the queue
  intro before hbefore hafter
  have hqueue : before.queue.length ≤ before.emitted.size := hbefore.queue_length_le
  have hemitted := hafter.emitted_size_le
  have hcapacity : capacity = 64 := rfl
  omega

end Stream

end StepScript
