import AccessRelay.Machine.Pool
import AccessRelay.Proto.Frame
import Mathlib.Data.List.AList

/-!
# The registry of connected agents

`Registry` of `internal/relay/sessions`, and the goroutines of `internal/relay` that use it:
`serveAgent`, which adds a session, closes the one it replaced, holds its own until it ends and
then removes and closes it; `Get`, on behalf of an operator; and `CloseAll` at shutdown. Every
critical section of the registry's mutex is one step, and so is every `Close` of a session, at the
moment its done channel is closed. A session may also end by itself, at any time.

`registry_step` says what one step may do to the sessions that were added, and
`no_orphaned_session` follows for every interleaving.
-/

namespace AccessRelay.Relay

open Encoding Proto Machine

variable {Session : Type}

/-- The connected agents by device. -/
structure Registry (Session : Type) where
  agents : AList fun _ : Bytes => Session

/-- `ErrNoAgent`. -/
inductive RegistryError where
  | noAgent
  deriving DecidableEq

namespace Registry

/-- `NewRegistry`. -/
def new : Registry Session := ⟨∅⟩

/-- `Add`: register a session, and return the one it replaces. -/
def add (r : Registry Session) (deviceID : Bytes) (s : Session) :
    Registry Session × Option Session :=
  (⟨r.agents.insert deviceID s⟩, r.agents.lookup deviceID)

/-- `Remove`: deregister this very session. -/
def remove [DecidableEq Session] (r : Registry Session) (deviceID : Bytes) (s : Session) :
    Registry Session :=
  match r.agents.lookup deviceID with
  | some cur => if cur = s then ⟨r.agents.erase deviceID⟩ else r
  | none => r

/-- `Get`: the live session of a device; one that has ended is removed. -/
def get (r : Registry Session) (done : Session → Bool) (deviceID : Bytes) :
    Registry Session × Except RegistryError Session :=
  match r.agents.lookup deviceID with
  | none => (r, .error .noAgent)
  | some s => if done s then (⟨r.agents.erase deviceID⟩, .error .noAgent) else (r, .ok s)

/-- The critical section of `CloseAll`: forget every session, and return them to be closed. -/
def closeAll (r : Registry Session) : Registry Session × List Session :=
  (new, r.agents.entries.map (·.2))

variable {r : Registry Session} {deviceID d : Bytes} {s t : Session} {done : Session → Bool}

theorem lookup_add :
    (r.add deviceID s).1.agents.lookup d =
      if d = deviceID then some s else r.agents.lookup d := by
  split
  next heq =>
    subst heq
    exact AList.lookup_insert _
  next hne => exact AList.lookup_insert_ne hne

/-- `Remove` takes out its own session and nothing else. -/
theorem lookup_remove [DecidableEq Session] :
    (r.remove deviceID s).agents.lookup d =
      if d = deviceID ∧ r.agents.lookup d = some s then none else r.agents.lookup d := by
  unfold remove
  by_cases hd : d = deviceID
  · subst hd
    cases hlookup : r.agents.lookup d with
    | none => simp [hlookup]
    | some cur =>
        by_cases hcur : cur = s
        · simp [hcur]
        · simp [hcur, hlookup]
  · rw [if_neg fun h => hd h.1]
    split
    · split
      · exact AList.lookup_erase_ne hd
      · rfl
    · rfl

/-- `Get` takes out only a session that has ended. -/
theorem lookup_get (h : r.agents.lookup d = some t) :
    (r.get done deviceID).1.agents.lookup d = some t ∨ done t = true := by
  unfold get
  cases hlookup : r.agents.lookup deviceID with
  | none => exact .inl h
  | some s =>
      dsimp only
      split
      next hdone =>
        by_cases hd : d = deviceID
        · subst hd
          rw [h, Option.some.injEq] at hlookup
          exact .inr (hlookup ▸ hdone)
        · exact .inl ((AList.lookup_erase_ne hd).trans h)
      · exact .inl h

/-- What `Get` leaves was there. -/
theorem lookup_of_get (h : (r.get done deviceID).1.agents.lookup d = some t) :
    r.agents.lookup d = some t := by
  unfold get at h
  split at h
  · exact h
  · split at h
    · by_cases hd : d = deviceID
      · subst hd
        rw [AList.lookup_erase] at h
        cases h
      · rwa [AList.lookup_erase_ne hd] at h
    · exact h

/-- `Get` returns the registered session, and only if it has not ended. -/
theorem get_ok_iff :
    (r.get done deviceID).2 = .ok s ↔ r.agents.lookup deviceID = some s ∧ done s = false := by
  unfold get
  cases r.agents.lookup deviceID with
  | none => simp
  | some cur =>
      by_cases hdone : done cur = true
      · simp only [hdone, if_true, reduceCtorEq, false_iff, Option.some.injEq, not_and]
        intro hcur
        rw [← hcur, hdone]
        simp
      · simp only [hdone, if_false, Except.ok.injEq, Option.some.injEq, Bool.false_eq_true]
        constructor
        · intro hcur
          exact ⟨hcur, hcur ▸ Bool.not_eq_true _ ▸ hdone⟩
        · exact fun h => h.1

/-- `CloseAll` returns every registered session. -/
theorem mem_close_all (h : r.agents.lookup d = some t) : t ∈ r.closeAll.2 :=
  List.mem_map.mpr ⟨⟨d, t⟩, AList.mem_lookup_iff.mp h, rfl⟩

end Registry

/-- A goroutine that uses the registry, by what it does next. -/
inductive RegistryTask (Session : Type) where
  /-- `serveAgent` at its start: the device that AUTH names and the one the certificate names. -/
  | serving (claimed deviceID : Bytes)
  /-- `serveAgent` before `Add`. -/
  | adding (deviceID : Bytes) (sess : Session)
  /-- `serveAgent` before it closes the session that `Add` returned. -/
  | replacing (deviceID : Bytes) (sess replaced : Session)
  /-- `serveAgent` in its select. -/
  | holding (deviceID : Bytes) (sess : Session)
  /-- The deferred function of `serveAgent`, before `Remove`. -/
  | removing (deviceID : Bytes) (sess : Session)
  /-- The deferred function of `serveAgent`, before it closes its own session. -/
  | closing (sess : Session)
  | getting (deviceID : Bytes)
  | answered (deviceID : Bytes) (result : Except RegistryError Session)
  /-- `CloseAll` before its critical section. -/
  | closingAll (reason : Reason)
  /-- `CloseAll` with the sessions it has still to close, which a map hands out in any order. -/
  | closingEach (sessions : List Session) (reason : Reason)
  /-- A session that ends by itself. -/
  | failing (sess : Session) (reason : Reason)
  | finished

/-- What a step depends on besides the state: the outcome of `Admit`, the cancelled context, and
the session `CloseAll` closes next. -/
inductive RegistryChoice (Session : Type) where
  | proceed
  | admitted (sess : Option Session)
  | cancelled
  | pick (index : Nat)

/-- The registry and the sessions that have ended, with the reason each ended with. `added` lists
the calls of `Add`, the last one first. -/
structure RegistryState (Session : Type) where
  registry : Registry Session
  ended : List (Session × Reason)
  added : List (Bytes × Session)

namespace RegistryState

variable [DecidableEq Session]

/-- A relay that has just started. -/
def new : RegistryState Session := ⟨.new, [], []⟩

/-- Whether the done channel of a session is closed. -/
def done (st : RegistryState Session) (s : Session) : Bool := st.ended.any fun e => e.1 = s

/-- `Session.Close`, of which only the first call counts. -/
def close (st : RegistryState Session) (s : Session) (reason : Reason) : RegistryState Session :=
  if st.done s then st else { st with ended := (s, reason) :: st.ended }

/-- The session that was added last for a device. -/
def lastAdded (st : RegistryState Session) (deviceID : Bytes) : Option Session :=
  (st.added.find? fun a => a.1 = deviceID).map (·.2)

/-- The next step of a goroutine. -/
def taskStep (st : RegistryState Session) :
    RegistryTask Session → RegistryChoice Session →
      Option (RegistryState Session × RegistryTask Session)
  | .serving claimed deviceID, .admitted sess =>
      if claimed ≠ [] ∧ claimed ≠ deviceID then some (st, .finished)
      else match sess with
        | none => some (st, .finished)
        | some sess => some (st, .adding deviceID sess)
  | .adding deviceID sess, .proceed =>
      let st' := { st with
        registry := (st.registry.add deviceID sess).1
        added := (deviceID, sess) :: st.added }
      match (st.registry.add deviceID sess).2 with
      | some replaced => some (st', .replacing deviceID sess replaced)
      | none => some (st', .holding deviceID sess)
  | .replacing deviceID sess replaced, .proceed =>
      some (st.close replaced reasonSessionReplaced, .holding deviceID sess)
  | .holding deviceID sess, .proceed =>
      if st.done sess then some (st, .removing deviceID sess) else none
  | .holding deviceID sess, .cancelled => some (st, .removing deviceID sess)
  | .removing deviceID sess, .proceed =>
      some ({ st with registry := st.registry.remove deviceID sess }, .closing sess)
  | .closing sess, .proceed => some (st.close sess reasonShutdown, .finished)
  | .getting deviceID, .proceed =>
      some ({ st with registry := (st.registry.get st.done deviceID).1 },
        .answered deviceID (st.registry.get st.done deviceID).2)
  | .closingAll reason, .proceed =>
      some ({ st with registry := st.registry.closeAll.1 },
        .closingEach st.registry.closeAll.2 reason)
  | .closingEach sessions reason, .pick index =>
      (sessions[index]?).map fun s =>
        (st.close s reason, .closingEach (sessions.eraseIdx index) reason)
  | .failing sess reason, .proceed => some (st.close sess reason, .finished)
  | _, _ => none

end RegistryState

/-- The goroutines that may be started: a connected agent, a lookup, a shutdown, and the end of a
session. -/
def RegistryTask.starts : RegistryTask Session → Bool
  | .serving _ _ | .getting _ | .closingAll _ | .failing _ _ => true
  | _ => false

/-- The sessions a goroutine closes in its next steps, without waiting for anything. `serveAgent`
closes its own session in the end, but while it holds the session that is not counted here. -/
def RegistryTask.closes : RegistryTask Session → List Session
  | .replacing _ _ replaced => [replaced]
  | .removing _ sess | .closing sess => [sess]
  | .closingEach sessions _ => sessions
  | _ => []

/-- Any number of goroutines on one registry. -/
abbrev RegistryPool (Session : Type) := Pool (RegistryState Session) (RegistryTask Session)

/-- One step of one goroutine, or a new goroutine. -/
def registryStep [DecidableEq Session] : RegistryPool Session → PoolAction (RegistryTask Session)
    (RegistryChoice Session) → Option (RegistryPool Session) :=
  poolStep (fun _ task => task.starts) RegistryState.taskStep

section Steps

variable [DecidableEq Session] {st st' : RegistryState Session} {task task' : RegistryTask Session}
  {choice : RegistryChoice Session} {deviceID : Bytes} {s t : Session} {reason : Reason}

theorem done_close :
    (st.close s reason).done t = (decide (s = t) || st.done t) := by
  unfold RegistryState.close
  split
  next hdone =>
    by_cases hst : s = t
    · subst hst
      simp [hdone]
    · simp [hst]
  · simp [RegistryState.done]

/-- The shared invariant: what is registered for a device was added last for it. -/
def RegistryState.Current (st : RegistryState Session) : Prop :=
  ∀ deviceID s, st.registry.agents.lookup deviceID = some s → st.lastAdded deviceID = some s

/-- What a step keeps of the sessions: none that has ended is live again; one the goroutine was to
close it still closes, or has closed; one that leaves the registry is one the goroutine now closes,
or one that has ended; and one that is added is registered. -/
structure RegistryState.Keeps (st : RegistryState Session) (task : RegistryTask Session)
    (st' : RegistryState Session) (task' : RegistryTask Session) : Prop where
  ended : ∀ s, st.done s = true → st'.done s = true
  closes : ∀ s ∈ task.closes, s ∈ task'.closes ∨ st'.done s = true
  registered : ∀ deviceID s, st.registry.agents.lookup deviceID = some s →
    st'.registry.agents.lookup deviceID = some s ∨ s ∈ task'.closes ∨ st'.done s = true
  added : ∀ a ∈ st'.added, a ∈ st.added ∨ st'.registry.agents.lookup a.1 = some a.2
  current : st.Current → st'.Current

/-- Closing a session, by a goroutine that then has the others still to close. -/
theorem keeps_close (hcloses : ∀ t ∈ task.closes, t = s ∨ t ∈ task'.closes) :
    st.Keeps task (st.close s reason) task' := by
  have hregistry : (st.close s reason).registry = st.registry := by
    unfold RegistryState.close
    split <;> rfl
  have hadded : (st.close s reason).added = st.added := by
    unfold RegistryState.close
    split <;> rfl
  refine ⟨?_, ?_, ?_, ?_, ?_⟩
  · intro t ht
    rw [done_close, ht, Bool.or_true]
  · intro t ht
    rcases hcloses t ht with rfl | hlater
    · exact .inr (by simp [done_close])
    · exact .inl hlater
  · intro deviceID t ht
    exact .inl (hregistry ▸ ht)
  · intro a ha
    exact .inl (hadded ▸ ha)
  · intro hcurrent deviceID t ht
    rw [RegistryState.lastAdded, hadded]
    exact hcurrent deviceID t (hregistry ▸ ht)

/-- A step that leaves the state alone, by a goroutine that closes no fewer sessions. -/
theorem keeps_state (hcloses : ∀ t ∈ task.closes, t ∈ task'.closes) : st.Keeps task st task' :=
  ⟨fun _ h => h, fun t ht => .inl (hcloses t ht), fun _ _ h => .inl h, fun _ h => .inl h, id⟩

/-- Taking sessions out of the registry, by a goroutine that closes them, or that has seen that
they ended. -/
theorem keeps_registry {r : Registry Session}
    (hkept : ∀ deviceID t, st.registry.agents.lookup deviceID = some t →
      r.agents.lookup deviceID = some t ∨ t ∈ task'.closes ∨ st.done t = true)
    (hwas : ∀ deviceID t, r.agents.lookup deviceID = some t →
      st.registry.agents.lookup deviceID = some t)
    (hcloses : ∀ t ∈ task.closes, t ∈ task'.closes) :
    st.Keeps task { st with registry := r } task' :=
  ⟨fun _ h => h, fun t ht => .inl (hcloses t ht), hkept, fun _ h => .inl h,
    fun hcurrent deviceID t ht => hcurrent deviceID t (hwas deviceID t ht)⟩

/-- `Add`, by a goroutine that then closes the session it replaced. -/
theorem keeps_add (htask : task.closes = [])
    (hreplaced : ∀ t, (st.registry.add deviceID s).2 = some t → t ∈ task'.closes) :
    st.Keeps task { st with
      registry := (st.registry.add deviceID s).1
      added := (deviceID, s) :: st.added } task' := by
  refine ⟨fun _ h => h, ?_, ?_, ?_, ?_⟩
  · intro t ht
    rw [htask] at ht
    cases ht
  · intro d t ht
    by_cases hd : d = deviceID
    · subst hd
      exact .inr (.inl (hreplaced t ht))
    · exact .inl (by rw [Registry.lookup_add, if_neg hd, ht])
  · intro a ha
    rcases List.mem_cons.mp ha with rfl | hold
    · exact .inr (by rw [Registry.lookup_add, if_pos rfl])
    · exact .inl hold
  · intro hcurrent d t ht
    rw [Registry.lookup_add] at ht
    unfold RegistryState.lastAdded
    by_cases hd : d = deviceID
    · subst hd
      rw [if_pos rfl] at ht
      simpa using ht
    · rw [if_neg hd] at ht
      rw [List.find?_cons_of_neg (by simpa using fun h => hd h.symm)]
      exact hcurrent d t ht

/-- One step of a goroutine, by what it does next. -/
theorem registry_step (h : st.taskStep task choice = some (st', task')) :
    st.Keeps task st' task' := by
  cases task with
  | serving claimed deviceID =>
      cases choice with
      | admitted sess =>
          simp only [RegistryState.taskStep] at h
          split at h
          · cases h
            exact keeps_state fun _ ht => ht
          · cases sess with
            | none =>
                cases h
                exact keeps_state fun _ ht => ht
            | some sess =>
                cases h
                exact keeps_state fun _ ht => ht
      | proceed | cancelled | pick index => cases h
  | adding deviceID sess =>
      cases choice with
      | proceed =>
          simp only [RegistryState.taskStep] at h
          split at h
          next replaced hreplaced =>
            cases h
            refine keeps_add rfl ?_
            intro t ht
            rw [hreplaced, Option.some.injEq] at ht
            exact List.mem_singleton.mpr ht.symm
          next hnone =>
            cases h
            refine keeps_add rfl ?_
            intro t ht
            rw [hnone] at ht
            cases ht
      | admitted sess | cancelled | pick index => cases h
  | replacing deviceID sess replaced =>
      cases choice with
      | proceed =>
          cases h
          exact keeps_close fun t ht => .inl (List.mem_singleton.mp ht)
      | admitted sess | cancelled | pick index => cases h
  | holding deviceID sess =>
      cases choice with
      | proceed =>
          simp only [RegistryState.taskStep] at h
          split at h
          · cases h
            exact keeps_state fun _ ht => absurd ht List.not_mem_nil
          · cases h
      | cancelled =>
          cases h
          exact keeps_state fun _ ht => absurd ht List.not_mem_nil
      | admitted sess | pick index => cases h
  | removing deviceID sess =>
      cases choice with
      | proceed =>
          cases h
          refine keeps_registry ?_ ?_ fun _ ht => ht
          · intro d t ht
            rw [Registry.lookup_remove]
            split
            next hown =>
              rw [ht, Option.some.injEq] at hown
              exact .inr (.inl (List.mem_singleton.mpr hown.2))
            · exact .inl ht
          · intro d t ht
            rw [Registry.lookup_remove] at ht
            split at ht
            · cases ht
            · exact ht
      | admitted sess | cancelled | pick index => cases h
  | closing sess =>
      cases choice with
      | proceed =>
          cases h
          exact keeps_close fun t ht => .inl (List.mem_singleton.mp ht)
      | admitted sess | cancelled | pick index => cases h
  | getting deviceID =>
      cases choice with
      | proceed =>
          cases h
          refine keeps_registry ?_ ?_ fun _ ht => ht
          · intro d t ht
            rcases Registry.lookup_get ht with hkept | hdone
            · exact .inl hkept
            · exact .inr (.inr hdone)
          · exact fun d t ht => Registry.lookup_of_get ht
      | admitted sess | cancelled | pick index => cases h
  | closingAll reason =>
      cases choice with
      | proceed =>
          cases h
          refine keeps_registry ?_ ?_ fun _ ht => absurd ht List.not_mem_nil
          · exact fun d t ht => .inr (.inl (Registry.mem_close_all ht))
          · intro d t ht
            rw [show st.registry.closeAll.1.agents.lookup d = none from AList.lookup_empty d] at ht
            cases ht
      | admitted sess | cancelled | pick index => cases h
  | closingEach sessions reason =>
      cases choice with
      | pick index =>
          obtain ⟨s, hs, hnext⟩ := Option.map_eq_some_iff.mp h
          cases hnext
          refine keeps_close ?_
          intro t ht
          by_cases hts : t = s
          · exact .inl hts
          · obtain ⟨k, hk⟩ := List.mem_iff_getElem?.mp ht
            refine .inr (List.mem_eraseIdx_iff_getElem?.mpr ⟨k, ?_, hk⟩)
            intro heq
            have hsame : some s = some t := hs.symm.trans (heq ▸ hk)
            exact hts (Option.some.inj hsame).symm
      | proceed | admitted sess | cancelled => cases h
  | failing sess reason =>
      cases choice with
      | proceed =>
          cases h
          exact keeps_close fun t ht => absurd ht List.not_mem_nil
      | admitted sess | cancelled | pick index => cases h
  | answered deviceID result => cases choice <;> cases h
  | finished => cases choice <;> cases h

end Steps

section Runs

variable [DecidableEq Session] {pool next : RegistryPool Session}
  {action : PoolAction (RegistryTask Session) (RegistryChoice Session)}

/-- Every session that was added is registered for its device, has ended, or is about to be
closed by some goroutine. -/
def NoneOrphaned (pool : RegistryPool Session) : Prop :=
  ∀ a ∈ pool.shared.added, pool.shared.registry.agents.lookup a.1 = some a.2 ∨
    pool.shared.done a.2 = true ∨ ∃ task ∈ pool.calls, a.2 ∈ task.closes

theorem none_orphaned_step (hpool : NoneOrphaned pool)
    (h : registryStep pool action = some next) : NoneOrphaned next := by
  rcases pool_step_cases h with ⟨task, -, -, rfl⟩ |
    ⟨index, choice, task, st', task', -, htask, hstep, rfl⟩
  · intro a ha
    rcases hpool a ha with hregistered | hended | ⟨other, hother, hcloses⟩
    · exact .inl hregistered
    · exact .inr (.inl hended)
    · exact .inr (.inr ⟨other, List.mem_append_left _ hother, hcloses⟩)
  · have hkeeps := registry_step hstep
    obtain ⟨hlt, -⟩ := List.getElem?_eq_some_iff.mp htask
    have hself : task' ∈ pool.calls.set index task' := List.mem_set hlt task'
    -- A session that the goroutine closes after the step, or that has ended, is accounted for.
    have hheld : ∀ {a : Bytes × Session}, a.2 ∈ task'.closes ∨ st'.done a.2 = true →
        st'.registry.agents.lookup a.1 = some a.2 ∨ st'.done a.2 = true ∨
          ∃ other ∈ pool.calls.set index task', a.2 ∈ other.closes := by
      intro a hcase
      rcases hcase with hcloses | hended
      · exact .inr (.inr ⟨task', hself, hcloses⟩)
      · exact .inr (.inl hended)
    intro a ha
    rcases hkeeps.added a ha with hold | hnew
    · rcases hpool a hold with hregistered | hended | ⟨other, hother, hcloses⟩
      · rcases hkeeps.registered a.1 a.2 hregistered with hstill | hgone
        · exact .inl hstill
        · exact hheld hgone
      · exact .inr (.inl (hkeeps.ended a.2 hended))
      · obtain ⟨k, hk⟩ := List.mem_iff_getElem?.mp hother
        by_cases hindex : index = k
        · subst hindex
          rw [htask, Option.some.injEq] at hk
          exact hheld (hkeeps.closes a.2 (hk ▸ hcloses))
        · have hstays : (pool.calls.set index task')[k]? = some other := by
            rw [List.getElem?_set_ne hindex, hk]
          exact .inr (.inr ⟨other, List.mem_of_getElem? hstays, hcloses⟩)
    · exact .inl hnew

theorem current_step (hpool : pool.shared.Current)
    (h : registryStep pool action = some next) : next.shared.Current := by
  rcases pool_step_cases h with ⟨task, -, -, rfl⟩ |
    ⟨index, choice, task, st', task', -, htask, hstep, rfl⟩
  · exact hpool
  · exact (registry_step hstep).current hpool

/-- A step of the goroutine at an index. -/
theorem advance_eq_some {index : Nat} {choice : RegistryChoice Session}
    {task : RegistryTask Session} (htask : pool.calls[index]? = some task)
    (h : registryStep pool (.advance index choice) = some next) :
    ∃ task', pool.shared.taskStep task choice = some (next.shared, task') ∧
      next.calls[index]? = some task' := by
  rcases pool_step_cases h with ⟨started, haction, -, -⟩ |
    ⟨i, c, task₀, st', task', haction, htask₀, hstep, rfl⟩
  · cases haction
  · cases haction
    rw [htask, Option.some.injEq] at htask₀
    subst htask₀
    obtain ⟨hlt, -⟩ := List.getElem?_eq_some_iff.mp htask
    exact ⟨task', hstep, List.getElem?_set_self hlt⟩

/-- Every state any interleaving reaches. A session that was added is registered for its device,
has ended, or is about to be closed by a goroutine that waits for nothing before it does so. `Get`
answers with the session that was added last for the device, and only while it has not ended. A
`Remove` takes out only its own session, and nothing at all if another one was added since. -/
theorem no_orphaned_session
    {actions : List (PoolAction (RegistryTask Session) (RegistryChoice Session))}
    (hrun : run registryStep ⟨.new, []⟩ actions = some pool) :
    NoneOrphaned pool ∧
    (∀ index choice deviceID next s, pool.calls[index]? = some (.getting deviceID) →
      registryStep pool (.advance index choice) = some next →
      next.calls[index]? = some (.answered deviceID (.ok s)) →
      pool.shared.lastAdded deviceID = some s ∧ pool.shared.done s = false) ∧
    ∀ index choice deviceID s next, pool.calls[index]? = some (.removing deviceID s) →
      registryStep pool (.advance index choice) = some next →
      (∀ d t, pool.shared.registry.agents.lookup d = some t → (d, t) ≠ (deviceID, s) →
        next.shared.registry.agents.lookup d = some t) ∧
      (pool.shared.lastAdded deviceID ≠ some s →
        next.shared.registry = pool.shared.registry) := by
  have hcurrent : pool.shared.Current :=
    run_invariant (fun hinv h => current_step hinv h)
      (fun deviceID s h => by
        rw [show (RegistryState.new : RegistryState Session).registry.agents.lookup deviceID = none
          from AList.lookup_empty deviceID] at h
        cases h) hrun
  refine ⟨run_invariant none_orphaned_step (fun a ha => absurd ha List.not_mem_nil) hrun, ?_, ?_⟩
  · intro index choice deviceID next s htask hstep hanswer
    obtain ⟨task', htaken, htask'⟩ := advance_eq_some htask hstep
    cases choice with
    | proceed =>
        simp only [RegistryState.taskStep, Option.some.injEq, Prod.mk.injEq] at htaken
        rw [htask', ← htaken.2, Option.some.injEq, RegistryTask.answered.injEq] at hanswer
        obtain ⟨hlookup, hdone⟩ := Registry.get_ok_iff.mp hanswer.2
        exact ⟨hcurrent deviceID s hlookup, hdone⟩
    | admitted sess | cancelled | pick index => cases htaken
  · intro index choice deviceID s next htask hstep
    obtain ⟨task', htaken, htask'⟩ := advance_eq_some htask hstep
    cases choice with
    | proceed =>
        simp only [RegistryState.taskStep, Option.some.injEq, Prod.mk.injEq] at htaken
        rw [← htaken.1]
        refine ⟨?_, ?_⟩
        · intro d t ht hother
          rw [Registry.lookup_remove, if_neg, ht]
          intro hown
          rw [ht, Option.some.injEq] at hown
          exact hother (Prod.ext hown.1 hown.2)
        · intro hlast
          have hnot : pool.shared.registry.agents.lookup deviceID ≠ some s :=
            fun h => hlast (hcurrent deviceID s h)
          show pool.shared.registry.remove deviceID s = pool.shared.registry
          unfold Registry.remove
          split
          next cur hcur =>
            rw [if_neg]
            exact fun h => hnot (h ▸ hcur)
          · rfl
    | admitted sess | cancelled | pick index => cases htaken

/-- An agent reconnects while its first session is still held: the second session replaces the
first, which is closed, and the late `Remove` of the first leaves the second. -/
def reconnected : List (PoolAction (RegistryTask Nat) (RegistryChoice Nat)) :=
  [.start (.serving [] [7]), .advance 0 (.admitted (some 1)), .advance 0 .proceed,
    .start (.serving [7] [7]), .advance 1 (.admitted (some 2)), .advance 1 .proceed,
    .advance 1 .proceed, .advance 0 .proceed]

theorem reconnected_not_orphaned :
    ∃ pool, run registryStep ⟨.new, []⟩ reconnected = some pool ∧
      pool.calls[0]? = some (.removing [7] 1) ∧ pool.shared.lastAdded [7] = some 2 ∧
      NoneOrphaned pool ∧
      ∀ next, registryStep pool (.advance 0 .proceed) = some next →
        next.shared.registry = pool.shared.registry := by
  have hrun : ∃ pool, run registryStep ⟨.new, []⟩ reconnected = some pool ∧
      pool.calls[0]? = some (.removing [7] 1) ∧ pool.shared.lastAdded [7] = some 2 :=
    ⟨_, rfl, rfl, rfl⟩
  obtain ⟨pool, hrun, hcall, hlast⟩ := hrun
  obtain ⟨hnone, -, hremove⟩ := no_orphaned_session hrun
  refine ⟨pool, hrun, hcall, hlast, hnone, ?_⟩
  intro next h
  refine (hremove 0 .proceed [7] 1 next hcall h).2 ?_
  rw [hlast]
  decide

end Runs

end AccessRelay.Relay
