import AccessRelay.Machine.Run

/-!
# Concurrent calls on shared state

A pool is a shared state and a list of calls in progress. A call is a program counter with its
local variables; `callStep` says what its next atomic operation does to the shared state and to
the call. The scheduler's choice, which call moves next, is in the action, so a run of
`poolStep` is one interleaving.

`Pool.Holds shared local` is the usual pair of a shared invariant and a local assertion for each
call. `pool_step_holds` is the rely-guarantee rule: an atomic operation has to keep the shared
invariant, establish its own call's next assertion, and leave every other call's assertion true.
`pool_step_apart` is the rule for names: what a call owns, no other call owns.
-/

namespace AccessRelay.Machine

variable {Shared Call Input : Type*}

/-- A shared state and the calls in progress on it. -/
structure Pool (Shared Call : Type*) where
  shared : Shared
  calls : List Call

/-- Start a call, or let the call at an index take its next step. -/
inductive PoolAction (Call Input : Type*) where
  | start (call : Call)
  | advance (index : Nat) (input : Input)

/-- One action of a pool. `mayStart` says which calls may be started. -/
def poolStep (mayStart : Shared → Call → Bool)
    (callStep : Shared → Call → Input → Option (Shared × Call))
    (pool : Pool Shared Call) : PoolAction Call Input → Option (Pool Shared Call)
  | .start call =>
      if mayStart pool.shared call then some { pool with calls := pool.calls ++ [call] } else none
  | .advance index input =>
      (pool.calls[index]?).bind fun call =>
        (callStep pool.shared call input).map fun result =>
          ⟨result.1, pool.calls.set index result.2⟩

variable {mayStart : Shared → Call → Bool}
  {callStep : Shared → Call → Input → Option (Shared × Call)} {pool next : Pool Shared Call}

/-- What an action of a pool can do. -/
theorem pool_step_cases {action : PoolAction Call Input}
    (h : poolStep mayStart callStep pool action = some next) :
    (∃ call, action = .start call ∧ mayStart pool.shared call = true ∧
      next = ⟨pool.shared, pool.calls ++ [call]⟩) ∨
    (∃ index input call shared call', action = .advance index input ∧
      pool.calls[index]? = some call ∧
      callStep pool.shared call input = some (shared, call') ∧
      next = ⟨shared, pool.calls.set index call'⟩) := by
  cases action with
  | start call =>
      simp only [poolStep, Option.ite_none_right_eq_some, Option.some.injEq] at h
      exact .inl ⟨call, rfl, h.1, h.2.symm⟩
  | advance index input =>
      obtain ⟨call, hcall, hmap⟩ := Option.bind_eq_some_iff.mp h
      obtain ⟨⟨shared, call'⟩, hstep, hnext⟩ := Option.map_eq_some_iff.mp hmap
      exact .inr ⟨index, input, call, shared, call', rfl, hcall, hstep, hnext.symm⟩

/-- The shared invariant holds, and so does the assertion of every call in progress. -/
structure Pool.Holds (inv : Shared → Prop) (assertion : Shared → Call → Prop)
    (pool : Pool Shared Call) : Prop where
  shared : inv pool.shared
  calls : ∀ call ∈ pool.calls, assertion pool.shared call

/-- The calls whose next step meets a condition on the shared state. -/
def guarded (guard : Shared → Call → Input → Bool)
    (callStep : Shared → Call → Input → Option (Shared × Call))
    (shared : Shared) (call : Call) (input : Input) : Option (Shared × Call) :=
  if guard shared call input then callStep shared call input else none

/-- A guarded step is a step that meets the condition. -/
theorem guarded_eq_some {guard : Shared → Call → Input → Bool} {shared : Shared} {call : Call}
    {input : Input} {result : Shared × Call} :
    guarded guard callStep shared call input = some result ↔
      guard shared call input = true ∧ callStep shared call input = some result := by
  simp [guarded, Option.ite_none_right_eq_some]

/-- A condition on the steps of calls, as a condition on the actions of the pool. -/
def poolGuard (guard : Shared → Call → Input → Bool) (pool : Pool Shared Call) :
    PoolAction Call Input → Bool
  | .start _ => true
  | .advance index input => (pool.calls[index]?).all fun call => guard pool.shared call input

/-- Restricting the actions of a pool is guarding the steps of its calls. -/
theorem restrict_pool_guard (guard : Shared → Call → Input → Bool) (pool : Pool Shared Call)
    (action : PoolAction Call Input) :
    restrict (poolGuard guard) (poolStep mayStart callStep) pool action =
      poolStep mayStart (guarded guard callStep) pool action := by
  cases action with
  | start call => simp [restrict, poolGuard, poolStep]
  | advance index input =>
      cases hcall : pool.calls[index]? with
      | none => simp [restrict, poolGuard, poolStep, hcall]
      | some call =>
          cases hguard : guard pool.shared call input <;>
            simp [restrict, poolGuard, poolStep, guarded, hcall, hguard]

/-- The rely-guarantee rule for one action: `hown` gives the invariant and the call's own next
assertion, `hother` is the interference condition. -/
theorem pool_step_holds {inv : Shared → Prop} {assertion : Shared → Call → Prop}
    (hstart : ∀ {shared call}, inv shared → mayStart shared call = true → assertion shared call)
    (hown : ∀ {shared call input shared' call'}, inv shared → assertion shared call →
      callStep shared call input = some (shared', call') →
      inv shared' ∧ assertion shared' call')
    (hother : ∀ {shared call input shared' call' other}, inv shared → assertion shared call →
      callStep shared call input = some (shared', call') →
      assertion shared other → assertion shared' other)
    {action : PoolAction Call Input} (hpool : pool.Holds inv assertion)
    (h : poolStep mayStart callStep pool action = some next) : next.Holds inv assertion := by
  rcases pool_step_cases h with ⟨call, -, hmay, rfl⟩ |
    ⟨index, input, call, shared', call', -, hcall, hstep, rfl⟩
  · refine ⟨hpool.shared, ?_⟩
    intro c hc
    rcases List.mem_append.mp hc with hold | hnew
    · exact hpool.calls c hold
    · obtain rfl := List.mem_singleton.mp hnew
      exact hstart hpool.shared hmay
  · have hassert := hpool.calls call (List.mem_of_getElem? hcall)
    obtain ⟨hinv, hnext⟩ := hown hpool.shared hassert hstep
    refine ⟨hinv, ?_⟩
    intro c hc
    rcases List.mem_or_eq_of_mem_set hc with hold | rfl
    · exact hother hpool.shared hassert hstep (hpool.calls c hold)
    · exact hnext

/-- The call at another index is not touched by a step. -/
theorem get_set_cases {calls : List Call} {index k : Nat} {call call' : Call}
    (h : (calls.set index call')[k]? = some call) :
    (k = index ∧ call = call') ∨ (k ≠ index ∧ calls[k]? = some call) := by
  by_cases hk : index = k
  · subst hk
    obtain ⟨hlt, hget⟩ := List.getElem?_eq_some_iff.mp h
    exact .inl ⟨rfl, by simpa using hget.symm⟩
  · rw [List.getElem?_set_ne hk] at h
    exact .inr ⟨fun heq => hk heq.symm, h⟩

/-- What one step of a call does to the part of the calls that `f` picks out: at most one element
is replaced, and the others stay. -/
theorem filter_map_set {Part : Type*} (f : Call → Option Part) {calls : List Call} {index : Nat}
    {call : Call} (call' : Call) (hcall : calls[index]? = some call) :
    ∃ others : Multiset Part,
      (calls.filterMap f : Multiset Part) = (f call).elim others (· ::ₘ others) ∧
      ((calls.set index call').filterMap f : Multiset Part) =
        (f call').elim others (· ::ₘ others) := by
  obtain ⟨hlt, hget⟩ := List.getElem?_eq_some_iff.mp hcall
  have hsplit : calls = calls.take index ++ call :: calls.drop (index + 1) := by
    rw [← hget, List.getElem_cons_drop, List.take_append_drop]
  refine ⟨((calls.take index).filterMap f ++ (calls.drop (index + 1)).filterMap f : List Part),
    ?_, ?_⟩
  · conv_lhs => rw [hsplit]
    cases hf : f call <;> simp [hf]
  · rw [List.set_eq_take_append_cons_drop, if_pos hlt]
    cases hf : f call' <;> simp [hf]

/-- What one step of a call does to a sum over the calls. -/
theorem sum_map_set {M : Type*} [AddCommMonoid M] (f : Call → M) {calls : List Call} {index : Nat}
    {call : Call} (call' : Call) (hcall : calls[index]? = some call) :
    ((calls.set index call').map f).sum + f call = (calls.map f).sum + f call' := by
  induction calls generalizing index with
  | nil => cases hcall
  | cons first rest ih =>
      cases index with
      | zero =>
          cases hcall
          simp only [List.set_cons_zero, List.map_cons, List.sum_cons]
          abel
      | succ index =>
          rw [List.getElem?_cons_succ] at hcall
          have hrest := ih hcall
          simp only [List.set_cons_succ, List.map_cons, List.sum_cons]
          rw [add_assoc, hrest, add_assoc]

section Ownership

variable {Name : Type*} {owns : Call → Option Name}

/-- No name is owned by two calls. -/
def Pool.Apart (owns : Call → Option Name) (pool : Pool Shared Call) : Prop :=
  ∀ {i k : Nat} {c d name}, pool.calls[i]? = some c → pool.calls[k]? = some d →
    owns c = some name → owns d = some name → i = k

/-- Names stay apart if a call starts without one and takes only names that nobody owns. -/
theorem pool_step_apart
    (hstart : ∀ {call}, mayStart pool.shared call = true → owns call = none)
    (htake : ∀ {call input shared' call' name},
      callStep pool.shared call input = some (shared', call') → owns call' = some name →
      owns call = some name ∨ ∀ other ∈ pool.calls, owns other ≠ some name)
    {action : PoolAction Call Input} (hpool : pool.Apart owns)
    (h : poolStep mayStart callStep pool action = some next) : next.Apart owns := by
  rcases pool_step_cases h with ⟨call, -, hmay, rfl⟩ |
    ⟨index, input, call, shared', call', -, hcall, hstep, rfl⟩
  · -- A call that owns a name is not the one that has just been started.
    have hold : ∀ {i : Nat} {c name}, (pool.calls ++ [call])[i]? = some c → owns c = some name →
        pool.calls[i]? = some c := by
      intro i c name hc hname
      rw [List.getElem?_append] at hc
      split_ifs at hc with hi
      · exact hc
      · obtain rfl := List.mem_singleton.mp (List.mem_of_getElem? hc)
        rw [hstart hmay] at hname
        cases hname
    intro i k c d name hc hd hcname hdname
    exact hpool (hold hc hcname) (hold hd hdname) hcname hdname
  · intro i k c d name hc hd hcname hdname
    rcases get_set_cases hc with ⟨rfl, rfl⟩ | ⟨hi, hci⟩ <;>
      rcases get_set_cases hd with ⟨rfl, rfl⟩ | ⟨hk, hdk⟩
    · rfl
    · rcases htake hstep hcname with hown | hfree
      · exact hpool hcall hdk hown hdname
      · exact absurd hdname (hfree d (List.mem_of_getElem? hdk))
    · rcases htake hstep hdname with hown | hfree
      · exact hpool hci hcall hcname hown
      · exact absurd hcname (hfree c (List.mem_of_getElem? hci))
    · exact hpool hci hdk hcname hdname

end Ownership

end AccessRelay.Machine
