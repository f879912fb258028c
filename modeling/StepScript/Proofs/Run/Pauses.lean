import StepScript.Proofs.Run.Moves
import StepScript.Run.Collect

/-!
# Pauses of collected runs

What a pause leads to: the run wakes, or it ends because it has been cancelled or because its time
is up. Its records stay as they are.
-/

namespace StepScript.Collect

variable {B : Backend}

/-- The clock has not passed the time limit. -/
def State.IsTimely (timeout : Option Nat) (state : State B) : Prop :=
  ∀ limit, timeout = some limit → state.clock ≤ limit

/-- What a pause leads to. A run that has been cancelled ends as soon as it waits; only a time limit
that is due at that very time comes before. -/
inductive Pauses (timeout : Option Nat) (state : State B) (context : Context B) :
    Except (Outcome B) (State B) → Prop where
  | wakes {clock turn : Nat} (hlater : state.clock ≤ clock)
      (htimely : ∀ limit, timeout = some limit → clock ≤ limit)
      (hnow : context.cancelled = true → clock = state.clock) :
      Pauses timeout state context (.ok { state with clock, turn })
  | cancelled {turn : Nat} (hcancelled : context.cancelled = true) :
      Pauses timeout state context
        (.error (({ state with turn } : State B).finish (some .cancelled) context))
  | expires {limit turn : Nat} (htimeout : timeout = some limit)
      (hdue : context.cancelled = true → state.clock = limit) :
      Pauses timeout state context
        (.error (({ state with clock := limit, turn } : State B).finish (some (.timedOut limit))
          context))

section

variable {timeout : Option Nat} {state : State B} {context : Context B}

theorem Pauses.here (htimely : state.IsTimely timeout) (turn : Nat) :
    Pauses timeout state context (.ok { state with turn }) :=
  .wakes (Nat.le_refl _) htimely fun _ => rfl

theorem wait_pauses (htimely : state.IsTimely timeout) (millis : Nat) :
    Pauses timeout state context (state.wait timeout millis context) := by
  unfold State.wait
  dsimp only
  split
  · next limit =>
    have hclock : state.clock ≤ limit := htimely limit rfl
    split
    · next hlimit =>
      obtain rfl : state.clock = limit := by omega
      exact .expires rfl fun _ => rfl
    · split
      · next hcancelled => exact .cancelled hcancelled
      · next hcancelled =>
        split
        · exact .expires rfl fun h => absurd h hcancelled
        · refine .wakes (Nat.le_add_right ..) ?_ fun h => absurd h hcancelled
          rintro _ ⟨⟩
          omega
  · split
    · next hcancelled => exact .cancelled hcancelled
    · next hcancelled => exact .wakes (Nat.le_add_right ..) nofun fun h => absurd h hcancelled

/-- A pause that follows another one is a pause as well. -/
theorem Pauses.bind {first : Except (Outcome B) (State B)}
    {next : State B → Except (Outcome B) (State B)} (h : Pauses timeout state context first)
    (hnext : ∀ woken : State B, woken.IsTimely timeout → Pauses timeout woken context (next woken)) :
    Pauses timeout state context (first >>= next) := by
  cases h with
  | cancelled hcancelled => exact .cancelled hcancelled
  | expires htimeout hdue => exact .expires htimeout hdue
  | @wakes clock turn hlater htimely hnow =>
    have hsecond := hnext { state with clock, turn } htimely
    change Pauses timeout state context (next { state with clock, turn })
    generalize next { state with clock, turn } = result at hsecond
    cases hsecond with
    | wakes hlater' htimely' hnow' =>
      exact .wakes (Nat.le_trans hlater hlater') htimely' fun h => (hnow' h).trans (hnow h)
    | cancelled hcancelled =>
      have hclock : clock = state.clock := hnow hcancelled
      subst hclock
      exact .cancelled hcancelled
    | expires htimeout hdue => exact .expires htimeout fun h => (hnow h).symm.trans (hdue h)

/-- A run that sleeps waits up to two times: at the end of its turn, and until the sleep is over. -/
theorem sleep_eq (timeout : Option Nat) (state : State B) (millis : Nat) (context : Context B) :
    state.sleep timeout millis context =
      (if state.turn = 0 then state.wait timeout 0 context else .ok state) >>= fun rested =>
        (if millis = 0 then .ok rested else rested.wait timeout millis context) >>= fun awake =>
          .ok { awake with turn := awake.turn - 1 } := by
  unfold State.sleep
  by_cases hturn : state.turn = 0 <;> by_cases hmillis : millis = 0
  all_goals
    simp only [hturn, hmillis, if_true, if_false]
    rfl

theorem sleep_pauses (htimely : state.IsTimely timeout) (millis : Nat) :
    Pauses timeout state context (state.sleep timeout millis context) := by
  rw [sleep_eq]
  refine Pauses.bind ?_ fun rested hrested => Pauses.bind ?_ fun awake hawake => .here hawake _
  · split
    · exact wait_pauses htimely 0
    · exact .here htimely _
  · split
    · exact .here hrested _
    · exact wait_pauses hrested millis

/-- A moment at which the run pauses. -/
theorem observe_pauses {moment : Moment B} (htimely : state.IsTimely timeout)
    (hpause : moment.signal.isPause = true) :
    Pauses timeout state moment.context (state.observe timeout moment) := by
  obtain ⟨signal, context⟩ := moment
  cases signal with
  | dispatch | emit => cases hpause
  | sleep millis => exact sleep_pauses htimely millis
  | stepAside => exact wait_pauses htimely 0

/-! ## Moments -/

theorem emitted?_of_isPause {signal : Signal} (h : signal.isPause = true) :
    signal.emitted? = none := by
  cases signal with
  | emit => cases h
  | dispatch | sleep | stepAside => rfl

theorem dispatched?_of_isPause {signal : Signal} (h : signal.isPause = true) :
    signal.dispatched? = none := by
  cases signal with
  | dispatch => cases h
  | emit | sleep | stepAside => rfl

/-- A run is cut short only while it pauses. -/
theorem isPause_of_observe_error {moment : Moment B} {outcome : Outcome B}
    (h : state.observe timeout moment = .error outcome) : moment.signal.isPause = true := by
  obtain ⟨signal, context⟩ := moment
  cases signal with
  | sleep | stepAside => rfl
  | dispatch | emit => cases h

/-- After a moment the records contain what was seen. -/
structure Extends (timeout : Option Nat) (state : State B) (signal : Signal) (later : State B) :
    Prop where
  timely : later.IsTimely timeout
  clock : state.clock ≤ later.clock
  results : later.results.toList = state.results.toList ++ signal.emitted?.toList
  dispatches : later.dispatches.toList =
    state.dispatches.toList ++ (signal.dispatched?.map (state.clock, ·)).toList

theorem observe_ok {moment : Moment B} {later : State B} (htimely : state.IsTimely timeout)
    (h : state.observe timeout moment = .ok later) :
    Extends timeout state moment.signal later := by
  cases hpause : moment.signal.isPause with
  | true =>
    have hpauses := observe_pauses htimely hpause
    rw [h] at hpauses
    cases hpauses with
    | wakes hlater hlimit =>
      refine ⟨hlimit, hlater, ?_, ?_⟩
      · rw [emitted?_of_isPause hpause]
        exact (List.append_nil _).symm
      · rw [dispatched?_of_isPause hpause]
        exact (List.append_nil _).symm
  | false =>
    obtain ⟨signal, context⟩ := moment
    cases signal with
    | dispatch step =>
      cases h
      exact ⟨htimely, Nat.le_refl _, (List.append_nil _).symm, Array.toList_push⟩
    | emit result =>
      cases h
      exact ⟨htimely, Nat.le_refl _, Array.toList_push, (List.append_nil _).symm⟩
    | sleep | stepAside => cases hpause

end

end StepScript.Collect
