import Mathlib.Tactic

/-!
# Runs of a labelled machine

A machine is a partial step function `step : State → Action → Option State`; every choice the
environment makes (a scheduler, a network, a caller) is part of the action. `run` executes a
list of actions, `restrict` keeps only the actions a guard admits, and `run_invariant` turns a
property kept by one step into a property of every run. `run_restrict_iff_always` says when a
condition on steps is exactly what a property of states needs. `run_simulation` carries runs of
one machine to runs of another. `happened` speaks about an earlier step of a run, and
`run_history` is the induction for properties that mention it; `run_project` carries both to a part
of a machine. `run_fills` is about a table that a machine only adds to, under keys that are free.
-/

namespace AccessRelay.Machine

variable {State Action : Type*}

/-- Execute a list of actions; a refused action ends the run with no state. -/
def run (step : State → Action → Option State) : State → List Action → Option State
  | state, [] => some state
  | state, action :: rest => (step state action).bind fun next => run step next rest

/-- The machine that refuses every action the guard does not admit. -/
def restrict (guard : State → Action → Bool) (step : State → Action → Option State)
    (state : State) (action : Action) : Option State :=
  if guard state action then step state action else none

@[simp] theorem run_nil (step : State → Action → Option State) (state : State) :
    run step state [] = some state := rfl

theorem run_cons (step : State → Action → Option State) (state : State) (action : Action)
    (rest : List Action) :
    run step state (action :: rest) = (step state action).bind fun next => run step next rest :=
  rfl

/-- A step of a restricted machine is an admitted step of the machine itself. -/
theorem restrict_eq_some {guard : State → Action → Bool}
    {step : State → Action → Option State} {state next : State} {action : Action} :
    restrict guard step state action = some next ↔
      guard state action = true ∧ step state action = some next := by
  simp [restrict, Option.ite_none_right_eq_some]

/-- A property that every step keeps holds at the end of every run that starts with it. -/
theorem run_invariant {step : State → Action → Option State} {inv : State → Prop}
    (hstep : ∀ {state action next}, inv state → step state action = some next → inv next)
    {actions : List Action} {start finish : State} (hstart : inv start)
    (hrun : run step start actions = some finish) : inv finish := by
  induction actions generalizing start with
  | nil =>
      cases hrun
      exact hstart
  | cons action rest ih =>
      obtain ⟨next, hnext, hrest⟩ := Option.bind_eq_some_iff.mp hrun
      exact ih (hstep hstart hnext) hrest

/-- Running two lists of actions in sequence is running their concatenation. -/
theorem run_append (step : State → Action → Option State) (start : State)
    (first second : List Action) :
    run step start (first ++ second) = (run step start first).bind fun middle =>
      run step middle second := by
  induction first generalizing start with
  | nil => rfl
  | cons action rest ih =>
      simp only [List.cons_append, run_cons, Option.bind_assoc]
      congr 1
      funext next
      exact ih next

/-- A run of a restricted machine is a run of the machine itself. -/
theorem run_of_restrict {guard : State → Action → Bool} {step : State → Action → Option State}
    {actions : List Action} {start finish : State}
    (h : run (restrict guard step) start actions = some finish) :
    run step start actions = some finish := by
  induction actions generalizing start with
  | nil => exact h
  | cons action rest ih =>
      obtain ⟨next, hnext, hrest⟩ := Option.bind_eq_some_iff.mp h
      rw [run_cons, (restrict_eq_some.mp hnext).2]
      exact ih hrest

/-- A condition on steps that is exactly right for a property of states. If `inv` implies the
property and is kept by the steps that meet the condition, and a step from `inv` that does not
meet it breaks the property at once, then a run keeps the property in every state it reaches if
and only if all of its steps meet the condition. -/
theorem run_restrict_iff_always {step : State → Action → Option State}
    {guard : State → Action → Bool} {inv property : State → Prop}
    (hproperty : ∀ {state}, inv state → property state)
    (hstep : ∀ {state action next}, inv state →
      restrict guard step state action = some next → inv next)
    (hbad : ∀ {state action next}, inv state → step state action = some next →
      guard state action = false → ¬ property next)
    {actions : List Action} {start finish : State} (hstart : inv start)
    (hrun : run step start actions = some finish) :
    run (restrict guard step) start actions = some finish ↔
      ∀ k state, run step start (actions.take k) = some state → property state := by
  induction actions generalizing start with
  | nil =>
      constructor
      · intro _ k state hk
        rw [List.take_nil, run_nil, Option.some.injEq] at hk
        exact hk ▸ hproperty hstart
      · exact fun _ => hrun
  | cons action rest ih =>
      obtain ⟨next, hnext, hrest⟩ := Option.bind_eq_some_iff.mp hrun
      cases hguard : guard start action with
      | true =>
          have hkept : restrict guard step start action = some next :=
            restrict_eq_some.mpr ⟨hguard, hnext⟩
          rw [run_cons, hkept, Option.bind_some, ih (hstep hstart hkept) hrest]
          constructor
          · intro h k state hk
            cases k with
            | zero =>
                rw [List.take_zero, run_nil, Option.some.injEq] at hk
                exact hk ▸ hproperty hstart
            | succ k =>
                rw [List.take_succ_cons, run_cons, hnext] at hk
                exact h k state hk
          · intro h k state hk
            refine h (k + 1) state ?_
            rw [List.take_succ_cons, run_cons, hnext]
            exact hk
      | false =>
          constructor
          · intro h
            simp [run_cons, restrict, hguard] at h
          · intro h
            refine absurd (h 1 next ?_) (hbad hstart hnext hguard)
            simp [run_cons, hnext]

section Simulation

variable {Abstract Label : Type*}

/-- If every step of a machine is matched by a run of another machine between related states,
then every run is. -/
theorem run_simulation {step : State → Action → Option State}
    {abstractStep : Abstract → Label → Option Abstract} {rel : State → Abstract → Prop}
    (hsim : ∀ {state action next abstract}, rel state abstract →
      step state action = some next →
      ∃ labels abstract', run abstractStep abstract labels = some abstract' ∧ rel next abstract')
    {actions : List Action} {start finish : State} {abstract : Abstract}
    (hrel : rel start abstract) (hrun : run step start actions = some finish) :
    ∃ labels abstract', run abstractStep abstract labels = some abstract' ∧
      rel finish abstract' := by
  induction actions generalizing start abstract with
  | nil =>
      cases hrun
      exact ⟨[], abstract, rfl, hrel⟩
  | cons action rest ih =>
      obtain ⟨next, hnext, hrest⟩ := Option.bind_eq_some_iff.mp hrun
      obtain ⟨first, middle, hfirst, hmiddle⟩ := hsim hrel hnext
      obtain ⟨second, final, hsecond, hfinal⟩ := ih hmiddle hrest
      refine ⟨first ++ second, final, ?_, hfinal⟩
      rw [run_append, hfirst]
      exact hsecond

end Simulation

section History

variable {step : State → Action → Option State} {start : State} {p : State → Action → Prop}

/-- Some step of the run was taken from a state, and with an action, of which `p` holds. -/
def happened (step : State → Action → Option State) (start : State)
    (p : State → Action → Prop) (actions : List Action) : Prop :=
  ∃ before action after state, actions = before ++ action :: after ∧
    run step start before = some state ∧ p state action

theorem not_happened_nil : ¬ happened step start p [] := by
  intro h
  obtain ⟨before, action, after, -, heq, -⟩ := h
  simp at heq

/-- What happened in a run with one more step happened before, or in that step. -/
theorem happened_concat {actions : List Action} {state : State} {action : Action}
    (hrun : run step start actions = some state) :
    happened step start p (actions ++ [action]) ↔
      happened step start p actions ∨ p state action := by
  constructor
  · intro h
    obtain ⟨before, earlier, after, past, heq, hbefore, hp⟩ := h
    rcases List.eq_nil_or_concat after with rfl | ⟨rest, last, rfl⟩
    · obtain ⟨rfl, hlast⟩ := List.append_inj' heq rfl
      cases hlast
      rw [hrun] at hbefore
      cases hbefore
      exact .inr hp
    · rw [List.concat_eq_append, ← List.cons_append, ← List.append_assoc] at heq
      exact .inl ⟨before, earlier, rest, past, (List.append_inj' heq rfl).1, hbefore, hp⟩
  · intro h
    rcases h with ⟨before, earlier, after, past, rfl, hbefore, hp⟩ | hp
    · exact ⟨before, earlier, after ++ [action], past, by simp, hbefore, hp⟩
    · exact ⟨actions, action, [], state, rfl, hrun, hp⟩

/-- What happened in a run has happened in every run that goes on from it. -/
theorem happened_append {actions : List Action} (more : List Action)
    (h : happened step start p actions) : happened step start p (actions ++ more) := by
  obtain ⟨before, action, after, state, rfl, hbefore, hp⟩ := h
  exact ⟨before, action, after ++ more, state, by simp, hbefore, hp⟩

/-- A property of a state and of the actions that led to it holds at the end of every run, if it
holds at the start and every step keeps it. -/
theorem run_history {inv : List Action → State → Prop} (hstart : inv [] start)
    (hstep : ∀ {actions state action next}, run step start actions = some state →
      inv actions state → step state action = some next → inv (actions ++ [action]) next)
    {actions : List Action} {finish : State} (hrun : run step start actions = some finish) :
    inv actions finish := by
  induction actions using List.reverseRecOn generalizing finish with
  | nil =>
      cases hrun
      exact hstart
  | append_singleton earlier last ih =>
      rw [run_append, Option.bind_eq_some_iff] at hrun
      obtain ⟨state, hearlier, hlast⟩ := hrun
      rw [run_cons, Option.bind_eq_some_iff] at hlast
      obtain ⟨next, hnext, hnil⟩ := hlast
      cases hnil
      exact hstep hearlier (ih hearlier) hnext

/-- What happened in a run that meets a condition happened in the machine without it. -/
theorem happened_restrict_iff {guard : State → Action → Bool} {actions : List Action}
    {finish : State} (hrun : run (restrict guard step) start actions = some finish) :
    happened (restrict guard step) start p actions ↔ happened step start p actions := by
  constructor
  · intro h
    obtain ⟨before, action, after, state, heq, hbefore, hp⟩ := h
    exact ⟨before, action, after, state, heq, run_of_restrict hbefore, hp⟩
  · intro h
    obtain ⟨before, action, after, state, rfl, hbefore, hp⟩ := h
    rw [run_append, Option.bind_eq_some_iff] at hrun
    obtain ⟨middle, hmiddle, -⟩ := hrun
    obtain rfl : state = middle :=
      Option.some.inj (hbefore.symm.trans (run_of_restrict hmiddle))
    exact ⟨before, action, after, state, rfl, hmiddle, hp⟩

/-- A part of a machine. If every step of the machine is a step of the part or leaves it alone, then
a run of the machine is a run of the part, and the same things happened to the part in both. -/
theorem run_project {Part Label : Type*} {part : State → Part}
    {label : State → Action → Option Label} {partStep : Part → Label → Option Part}
    (hpart : ∀ {state action next}, step state action = some next →
      (label state action = none ∧ part next = part state) ∨
        ∃ l, label state action = some l ∧ partStep (part state) l = some (part next))
    {actions : List Action} {finish : State} (hrun : run step start actions = some finish) :
    ∃ labels, run partStep (part start) labels = some (part finish) ∧
      ∀ p : Part → Label → Prop, happened partStep (part start) p labels ↔
        happened step start (fun state action => ∃ l, label state action = some l ∧
          p (part state) l) actions := by
  have hstep : ∀ {earlier : List Action} {state : State} {action : Action} {next : State},
      run step start earlier = some state →
      (∃ labels, run partStep (part start) labels = some (part state) ∧
        ∀ p : Part → Label → Prop, happened partStep (part start) p labels ↔
          happened step start (fun state action => ∃ l, label state action = some l ∧
            p (part state) l) earlier) →
      step state action = some next →
      ∃ labels, run partStep (part start) labels = some (part next) ∧
        ∀ p : Part → Label → Prop, happened partStep (part start) p labels ↔
          happened step start (fun state action => ∃ l, label state action = some l ∧
            p (part state) l) (earlier ++ [action]) := by
    intro earlier state action next hearlier hsofar hnext
    obtain ⟨labels, hlabels, hiff⟩ := hsofar
    rcases hpart hnext with ⟨hlabel, hsame⟩ | ⟨l, hlabel, hpartStep⟩
    · refine ⟨labels, hsame ▸ hlabels, fun p => ?_⟩
      rw [happened_concat hearlier, hiff p]
      simp [hlabel]
    · refine ⟨labels ++ [l], ?_, fun p => ?_⟩
      · rw [run_append, hlabels, Option.bind_some, run_cons, hpartStep]
        rfl
      · rw [happened_concat hearlier, happened_concat hlabels, hiff p]
        simp [hlabel]
  refine run_history ?_ hstep hrun
  exact ⟨[], rfl, fun p => ⟨fun h => absurd h not_happened_nil, fun h => absurd h not_happened_nil⟩⟩

end History

section Filling

variable {Key Row : Type*} [DecidableEq Key] {table : State → Key → Option Row}
  {puts : Action → Option (Key × Row)} {step : State → Action → Option State}
  {start finish : State} {actions : List Action}

/-- An action leaves the table alone, or puts a row under a key that is free. -/
def Fills (table : State → Key → Option Row) (puts : Action → Option (Key × Row))
    (step : State → Action → Option State) : Prop :=
  ∀ ⦃state action next⦄, step state action = some next →
    (puts action = none ∧ table next = table state) ∨
      ∃ key row, puts action = some (key, row) ∧ table state key = none ∧
        table next = Function.update (table state) key (some row)

/-- The rows after a run are those that were there and those that were put. -/
theorem run_fills (hfills : Fills table puts step) (hrun : run step start actions = some finish)
    (key : Key) (row : Row) :
    table finish key = some row ↔
      table start key = some row ∨ ∃ action ∈ actions, puts action = some (key, row) := by
  induction actions generalizing start with
  | nil =>
      cases hrun
      simp
  | cons action rest ih =>
      obtain ⟨next, hnext, hrest⟩ := Option.bind_eq_some_iff.mp hrun
      simp only [ih hrest, List.mem_cons, exists_eq_or_imp]
      rw [← or_assoc]
      refine or_congr_left ?_
      rcases hfills hnext with ⟨hputs, hsame⟩ | ⟨key', row', hputs, hfree, hupdate⟩
      · simp [hputs, hsame]
      · rw [hupdate, hputs]
        by_cases hkey : key = key'
        · subst hkey
          simp [hfree]
        · simp [Function.update_of_ne hkey, Ne.symm hkey]

/-- A key under which a run puts a row was free before. -/
theorem run_fills_free (hfills : Fills table puts step)
    (hrun : run step start actions = some finish) {action : Action} (haction : action ∈ actions)
    {key : Key} {row : Row} (hputs : puts action = some (key, row)) : table start key = none := by
  induction actions generalizing start with
  | nil => cases haction
  | cons first rest ih =>
      obtain ⟨next, hnext, hrest⟩ := Option.bind_eq_some_iff.mp hrun
      rcases List.mem_cons.mp haction with rfl | hlater
      · rcases hfills hnext with ⟨hnone, -⟩ | ⟨key', row', hputs', hfree, -⟩
        · rw [hputs] at hnone
          cases hnone
        · rw [hputs] at hputs'
          cases hputs'
          exact hfree
      · have hfree := ih hrest hlater
        rcases hfills hnext with ⟨-, hsame⟩ | ⟨key', row', -, -, hupdate⟩
        · exact hsame ▸ hfree
        · rw [hupdate] at hfree
          by_cases hkey : key = key'
          · subst hkey
            simp at hfree
          · rwa [Function.update_of_ne hkey] at hfree

end Filling

/-- A transaction: its actions in order and then the commit. With a fault at one of them, the
commit being the last, it is rolled back as a whole. -/
def transact (step : State → Action → Option State) (state : State) (actions : List Action)
    (fault : Option Nat) : Option State :=
  if fault.any (· ≤ actions.length) then none else run step state actions

/-- What is committed is what all the actions did. -/
theorem transact_eq_some {step : State → Action → Option State} {state next : State}
    {actions : List Action} {fault : Option Nat}
    (h : transact step state actions fault = some next) : run step state actions = some next := by
  unfold transact at h
  split at h
  · cases h
  · exact h

end AccessRelay.Machine
