import AccessRelay.Machine.Run

/-!
# Two programs on a connection

A program is a state with a `Prompt`: it sends a message, receives one, does something of its own,
or has ended. `Duplex` joins two programs by two queues, one for each direction. A send never waits
and a receive waits for the queue, so which party moves next is the only choice in a run, and the
choice does not matter: turns of different parties commute (`duplex_diamond`), and a machine whose
different actions commute has one end, which every run can be completed to (`run_completes`).

`interrupt` is for faults. The pending send of a party fails, or its pending receive returns a
message that did not come from the queue.
-/

namespace AccessRelay.Machine

section Diamond

variable {State Action : Type*} {step : State → Action → Option State}

/-- Two different actions that are both possible can be taken in either order. -/
def Diamond (step : State → Action → Option State) : Prop :=
  ∀ ⦃state first second left right⦄, first ≠ second → step state first = some left →
    step state second = some right →
    ∃ joined, step left second = some joined ∧ step right first = some joined

/-- No action is possible. -/
def Stuck (step : State → Action → Option State) (state : State) : Prop :=
  ∀ action, step state action = none

/-- After any first action, the end that a run has come to can still be reached, one action
sooner. -/
theorem run_after_action [DecidableEq Action] (hdiamond : Diamond step) {start next finish : State}
    {action : Action} {actions : List Action} (haction : step start action = some next)
    (hrun : run step start actions = some finish) (hstuck : Stuck step finish) :
    ∃ rest, run step next rest = some finish ∧ rest.length + 1 = actions.length := by
  induction actions generalizing start next with
  | nil =>
      cases hrun
      rw [hstuck action] at haction
      cases haction
  | cons first later ih =>
      obtain ⟨other, hother, hlater⟩ := Option.bind_eq_some_iff.mp hrun
      by_cases hsame : action = first
      · subst hsame
        rw [haction] at hother
        cases hother
        exact ⟨later, hlater, rfl⟩
      · obtain ⟨joined, hleft, hright⟩ := hdiamond hsame haction hother
        obtain ⟨rest, hrest, hlength⟩ := ih hright hlater
        refine ⟨first :: rest, ?_, by simp [hlength]⟩
        rw [run_cons, hleft]
        exact hrest

/-- A machine whose actions commute has one end: every run can be completed to it. -/
theorem run_completes [DecidableEq Action] (hdiamond : Diamond step) {start middle finish : State}
    {actions sofar : List Action} (hrun : run step start actions = some finish)
    (hstuck : Stuck step finish) (hsofar : run step start sofar = some middle) :
    ∃ rest, run step middle rest = some finish ∧ sofar.length + rest.length = actions.length := by
  induction sofar generalizing start actions with
  | nil =>
      cases hsofar
      exact ⟨actions, hrun, by simp⟩
  | cons action later ih =>
      obtain ⟨next, hnext, hlater⟩ := Option.bind_eq_some_iff.mp hsofar
      obtain ⟨shorter, hshorter, hlength⟩ := run_after_action hdiamond hnext hrun hstuck
      obtain ⟨rest, hrest, htotal⟩ := ih hshorter hlater
      refine ⟨rest, hrest, ?_⟩
      rw [List.length_cons]
      omega

end Diamond

/-- What a program does next. A send that fails leaves the program in another state. -/
inductive Prompt (Message State : Type*) where
  | send (message : Message) (next failed : State)
  | receive (next : Message → State)
  | pass (next : State)
  | ended

/-- The two ends of a connection. -/
inductive Party where
  | left
  | right
  deriving DecidableEq, Repr

/-- Two programs, and the messages under way to each of them. -/
structure Duplex (Message Left Right : Type*) where
  left : Left
  right : Right
  toLeft : List Message
  toRight : List Message

section Duplex

variable {Message Left Right : Type*} {leftNext : Left → Prompt Message Left}
  {rightNext : Right → Prompt Message Right}

/-- One party takes its turn. -/
def duplexStep (leftNext : Left → Prompt Message Left) (rightNext : Right → Prompt Message Right)
    (d : Duplex Message Left Right) : Party → Option (Duplex Message Left Right)
  | .left =>
      match leftNext d.left with
      | .send message next _ => some { d with left := next, toRight := d.toRight ++ [message] }
      | .receive next =>
          match d.toLeft with
          | [] => none
          | message :: rest => some { d with left := next message, toLeft := rest }
      | .pass next => some { d with left := next }
      | .ended => none
  | .right =>
      match rightNext d.right with
      | .send message next _ => some { d with right := next, toLeft := d.toLeft ++ [message] }
      | .receive next =>
          match d.toRight with
          | [] => none
          | message :: rest => some { d with right := next message, toRight := rest }
      | .pass next => some { d with right := next }
      | .ended => none

/-- A turn of one party, or a fault in what one party is doing. -/
inductive DuplexAction (Message : Type*) where
  | turn (party : Party)
  | interrupt (party : Party) (message : Message)

/-- What a fault makes of a program. -/
def Prompt.interrupted {State : Type*} (message : Message) : Prompt Message State → Option State
  | .send _ _ failed => some failed
  | .receive next => some (next message)
  | .pass _ => none
  | .ended => none

/-- A fault meets a send or a receive. -/
theorem interrupted_eq_some {State : Type*} {prompt : Prompt Message State} {message : Message}
    {state : State} (h : prompt.interrupted message = some state) :
    (∃ m next, prompt = .send m next state) ∨
      ∃ next, prompt = .receive next ∧ next message = state := by
  cases prompt <;> cases h
  · exact .inl ⟨_, _, rfl⟩
  · exact .inr ⟨_, rfl, rfl⟩

/-- The two programs on a connection that may fail. -/
def faultyStep (leftNext : Left → Prompt Message Left) (rightNext : Right → Prompt Message Right)
    (d : Duplex Message Left Right) :
    DuplexAction Message → Option (Duplex Message Left Right)
  | .turn party => duplexStep leftNext rightNext d party
  | .interrupt .left message =>
      ((leftNext d.left).interrupted message).map fun state => { d with left := state }
  | .interrupt .right message =>
      ((rightNext d.right).interrupted message).map fun state => { d with right := state }

/-- What a turn can do. -/
inductive Turned (leftNext : Left → Prompt Message Left) (rightNext : Right → Prompt Message Right)
    (d : Duplex Message Left Right) : Party → Duplex Message Left Right → Prop
  | leftSent {message next failed} (h : leftNext d.left = .send message next failed) :
      Turned leftNext rightNext d .left
        { d with left := next, toRight := d.toRight ++ [message] }
  | leftReceived {next message rest} (h : leftNext d.left = .receive next)
      (hqueue : d.toLeft = message :: rest) :
      Turned leftNext rightNext d .left { d with left := next message, toLeft := rest }
  | leftPassed {next} (h : leftNext d.left = .pass next) :
      Turned leftNext rightNext d .left { d with left := next }
  | rightSent {message next failed} (h : rightNext d.right = .send message next failed) :
      Turned leftNext rightNext d .right
        { d with right := next, toLeft := d.toLeft ++ [message] }
  | rightReceived {next message rest} (h : rightNext d.right = .receive next)
      (hqueue : d.toRight = message :: rest) :
      Turned leftNext rightNext d .right { d with right := next message, toRight := rest }
  | rightPassed {next} (h : rightNext d.right = .pass next) :
      Turned leftNext rightNext d .right { d with right := next }

variable {d d' : Duplex Message Left Right} {party : Party}

theorem duplex_step_iff :
    duplexStep leftNext rightNext d party = some d' ↔ Turned leftNext rightNext d party d' := by
  constructor
  · intro h
    cases party with
    | left =>
        cases hturn : leftNext d.left with
        | send message next failed =>
            simp only [duplexStep, hturn, Option.some.injEq] at h
            exact h ▸ .leftSent hturn
        | receive next =>
            cases hqueue : d.toLeft with
            | nil => simp [duplexStep, hturn, hqueue] at h
            | cons message rest =>
                simp only [duplexStep, hturn, hqueue, Option.some.injEq] at h
                exact h ▸ .leftReceived hturn hqueue
        | pass next =>
            simp only [duplexStep, hturn, Option.some.injEq] at h
            exact h ▸ .leftPassed hturn
        | ended => simp [duplexStep, hturn] at h
    | right =>
        cases hturn : rightNext d.right with
        | send message next failed =>
            simp only [duplexStep, hturn, Option.some.injEq] at h
            exact h ▸ .rightSent hturn
        | receive next =>
            cases hqueue : d.toRight with
            | nil => simp [duplexStep, hturn, hqueue] at h
            | cons message rest =>
                simp only [duplexStep, hturn, hqueue, Option.some.injEq] at h
                exact h ▸ .rightReceived hturn hqueue
        | pass next =>
            simp only [duplexStep, hturn, Option.some.injEq] at h
            exact h ▸ .rightPassed hturn
        | ended => simp [duplexStep, hturn] at h
  · intro h
    cases h with
    | leftSent hturn => simp [duplexStep, hturn]
    | leftReceived hturn hqueue => simp [duplexStep, hturn, hqueue]
    | leftPassed hturn => simp [duplexStep, hturn]
    | rightSent hturn => simp [duplexStep, hturn]
    | rightReceived hturn hqueue => simp [duplexStep, hturn, hqueue]
    | rightPassed hturn => simp [duplexStep, hturn]

/-- The turns of the two parties commute: a send goes to the back of a queue from which the other
party takes the front. -/
theorem duplex_diamond : Diamond (duplexStep leftNext rightNext) := by
  -- Up to the order of the two, the left party moves first.
  have hordered : ∀ {d l r : Duplex Message Left Right},
      duplexStep leftNext rightNext d .left = some l →
      duplexStep leftNext rightNext d .right = some r →
      ∃ joined, duplexStep leftNext rightNext l .right = some joined ∧
        duplexStep leftNext rightNext r .left = some joined := by
    intro d l r hl hr
    rw [duplex_step_iff] at hl hr
    simp only [duplex_step_iff]
    cases hl with
    | leftSent hleft =>
        cases hr with
        | rightSent hright => exact ⟨_, .rightSent hright, .leftSent hleft⟩
        | rightReceived hright hqueue =>
            refine ⟨_, .rightReceived hright ?_, .leftSent hleft⟩
            rw [hqueue, List.cons_append]
        | rightPassed hright => exact ⟨_, .rightPassed hright, .leftSent hleft⟩
    | leftReceived hleft hqueue =>
        cases hr with
        | rightSent hright =>
            refine ⟨_, .rightSent hright, .leftReceived hleft ?_⟩
            rw [hqueue, List.cons_append]
        | rightReceived hright hother =>
            exact ⟨_, .rightReceived hright hother, .leftReceived hleft hqueue⟩
        | rightPassed hright => exact ⟨_, .rightPassed hright, .leftReceived hleft hqueue⟩
    | leftPassed hleft =>
        cases hr with
        | rightSent hright => exact ⟨_, .rightSent hright, .leftPassed hleft⟩
        | rightReceived hright hqueue =>
            exact ⟨_, .rightReceived hright hqueue, .leftPassed hleft⟩
        | rightPassed hright => exact ⟨_, .rightPassed hright, .leftPassed hleft⟩
  intro d first second l r hne hl hr
  cases first <;> cases second
  · exact absurd rfl hne
  · exact hordered hl hr
  · obtain ⟨joined, hright, hleft⟩ := hordered hr hl
    exact ⟨joined, hleft, hright⟩
  · exact absurd rfl hne

/-- A run that starts with a turn. -/
theorem run_turned {rest : List Party} {finish : Duplex Message Left Right}
    (h : Turned leftNext rightNext d party d')
    (hrest : run (duplexStep leftNext rightNext) d' rest = some finish) :
    run (duplexStep leftNext rightNext) d (party :: rest) = some finish := by
  rw [run_cons, duplex_step_iff.mpr h]
  exact hrest

/-- Two programs that have both ended do nothing more. -/
theorem duplex_stuck (hleft : leftNext d.left = .ended) (hright : rightNext d.right = .ended) :
    Stuck (duplexStep leftNext rightNext) d := by
  intro party
  cases party
  · simp [duplexStep, hleft]
  · simp [duplexStep, hright]

end Duplex

end AccessRelay.Machine
