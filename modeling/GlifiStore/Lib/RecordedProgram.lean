import GlifiStore.Lib.StepProgram

/-!
# Programs that leave a record

The state of a program may carry a record of what has happened, which only grows. A
specification of such a program says which events it adds, whatever the state is that it
starts from, so that parts of a program compose by appending their events.
-/

namespace StepProgram

variable {σ ε α β τ : Type} {log : σ → List τ}

/-- The program adds events with `done` when it ends and with `failed` when it fails. -/
def Emits (log : σ → List τ) (program : Program σ ε α) (done : α → List τ → Prop)
    (failed : List τ → Prop) : Prop :=
  ∀ state, Meets program state (fun _ => True)
    (fun value after => ∃ events, log after = log state ++ events ∧ done value events)
    (fun _ after => ∃ events, log after = log state ++ events ∧ failed events)

variable {done : α → List τ → Prop} {failed : List τ → Prop}

theorem emits_pure {value : α} (holds : done value []) :
    Emits log (pure value : Program σ ε α) done failed := by
  intro state
  exact meets_pure ⟨[], (List.append_nil _).symm, holds⟩

theorem emits_query {read : σ → α} (holds : ∀ value, done value []) :
    Emits log (query fun state => (.ok (read state) : Except ε α)) done failed := by
  intro state
  exact meets_query (fun value _ => ⟨[], (List.append_nil _).symm, holds value⟩) nofun

theorem emits_perform {change : σ → σ} {finished : Unit → List τ → Prop} {events : List τ}
    (adds : ∀ state, log (change state) = log state ++ events) (holds : finished () events) :
    Emits log (perform change : Program σ ε Unit) finished failed := by
  intro state
  exact meets_perform trivial ⟨events, adds state, holds⟩

theorem emits_interact {turn : σ → Except ε α × σ}
    (answered : ∀ state value, (turn state).1 = .ok value →
      ∃ events, log (turn state).2 = log state ++ events ∧ done value events)
    (missing : ∀ state error, (turn state).1 = .error error →
      ∃ events, log (turn state).2 = log state ++ events ∧ failed events) :
    Emits log (interact turn) done failed := by
  intro state
  exact meets_interact trivial (answered state) (missing state)

variable {program : Program σ ε α}

theorem Emits.mono {done' : α → List τ → Prop} {failed' : List τ → Prop}
    (emits : Emits log program done failed)
    (ending : ∀ value events, done value events → done' value events)
    (failing : ∀ events, failed events → failed' events) : Emits log program done' failed' := by
  intro state
  refine (emits state).mono (fun _ _ => trivial) ?_ ?_
  · rintro value after ⟨events, grew, held⟩
    exact ⟨events, grew, ending value events held⟩
  · rintro error after ⟨events, grew, held⟩
    exact ⟨events, grew, failing events held⟩

/-- A part that runs after others adds its events to theirs. -/
theorem Emits.after {state next : σ} {events : List τ} (grew : log next = log state ++ events)
    (emits : Emits log program (fun value later => done value (events ++ later))
      fun later => failed (events ++ later)) :
    Meets program next (fun _ => True)
      (fun value after => ∃ events, log after = log state ++ events ∧ done value events)
      (fun _ after => ∃ events, log after = log state ++ events ∧ failed events) := by
  refine (emits next).mono (fun _ _ => trivial) ?_ ?_
  · rintro value after ⟨later, grows, holds⟩
    exact ⟨events ++ later, by rw [grows, grew, List.append_assoc], holds⟩
  · rintro error after ⟨later, grows, holds⟩
    exact ⟨events ++ later, by rw [grows, grew, List.append_assoc], holds⟩

variable {first : Program σ ε α} {rest : α → Program σ ε β} {finished : β → List τ → Prop}
  {early : List τ → Prop}

theorem Emits.bind {middle : α → List τ → Prop} (front : Emits log first middle early)
    (stops : ∀ events, early events → failed events) (back : ∀ value events, middle value events →
      Emits log (rest value) (fun ended later => finished ended (events ++ later))
        fun later => failed (events ++ later)) :
    Emits log (first >>= rest) finished failed := by
  intro state
  refine (front.mono (fun _ _ held => held) stops state).bind ?_
  rintro value next ⟨events, grew, held⟩
  exact (back value events held).after grew

theorem Emits.quiet_bind (front : Emits log first (fun _ events => events = []) early)
    (stops : ∀ events, early events → failed events)
    (back : ∀ value, Emits log (rest value) finished failed) :
    Emits log (first >>= rest) finished failed := by
  refine front.bind stops fun value events none => ?_
  subst none
  exact back value

theorem Emits.recover {handler : ε → Program σ ε α} {thrown : List τ → Prop}
    (body : Emits log program done thrown) (handled : ∀ error events, thrown events →
      Emits log (handler error) (fun value later => done value (events ++ later))
        fun later => failed (events ++ later)) :
    Emits log (recover program handler) done failed := by
  intro state
  refine (body state).recover ?_
  rintro error next ⟨events, grew, held⟩
  exact (handled error events held).after grew

theorem Emits.left (emits : Emits log program done failed) {state : σ} {value : α}
    (empty : log state = []) (ended : (program state).result = .ok value) :
    done value (log (program state).left) := by
  obtain ⟨events, grew, held⟩ := (emits state).done value ended
  rw [grew, empty]
  exact held

end StepProgram
