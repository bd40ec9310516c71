import AccessRelay.Control.Enrollment
import AccessRelay.Mux.Handshake
import AccessRelay.Relay.Registry

/-!
# Whose session an operator reaches

`internal/relay`: `serve` takes the identity of a peer from its certificate, hears what the peer
says of itself, and goes on as `serveAgent` or `serveOperator`. Any number of connections share the
registry, with any certificates, any HELLO and AUTH, and any identities on file at each check.
`routed_by_certificate` says what a lookup can then answer, in every interleaving.
-/

namespace AccessRelay.Relay

open Encoding Ca Control Storage Machine Proto

variable {Session : Type}

/-- `roleMatches`. -/
def roleMatches (certRole : Ca.Role) (helloRole : UInt8) : Bool :=
  match certRole with
  | .device => helloRole = roleAgent
  | .operator => helloRole = roleOperator

/-- A connection that `serve` goes on with: `VerifyEnrolled` has accepted the certificate, with the
identities then on file, and the peer has completed the handshake in the role of its certificate. -/
structure Conn extends Mux.Handshake where
  cert : Certificate
  id : Identity
  onFile : Identities
  verified : (verifyEnrolled onFile cert).1 = .ok id
  agrees : roleMatches id.role hello.role = true

/-- The registry, and the connection on which each session was admitted. -/
structure ServerState (Session : Type) where
  sessions : RegistryState Session
  owner : Session → Option Conn

/-- A goroutine of the relay, by what it does next. -/
inductive ServerTask (Session : Type) where
  /-- `serve` at its start: the certificate of the peer, the identities on file when it is checked,
  and what the peer says. -/
  | accepted (cert : Certificate) (onFile : Identities) (h : Mux.Handshake)
  /-- `serveAgent`, or `serveOperator` up to its lookup: each stream that the operator opens is
  joined to the session in the answer. Without a connection, a shutdown or the end of a session. -/
  | serving (conn : Option Conn) (task : RegistryTask Session)

/-- `serve` after the handshake, up to the first step of `serveAgent` or `serveOperator`. -/
def Conn.dispatch (conn : Conn) : ServerTask Session :=
  match conn.id.role with
  | .device => .serving (some conn) (.serving conn.auth.deviceID conn.id.id)
  | .operator =>
      if conn.auth.deviceID = [] then .serving none .finished
      else .serving (some conn) (.getting conn.auth.deviceID)

/-- `serve`. -/
def serve (cert : Certificate) (onFile : Identities) (h : Mux.Handshake) : ServerTask Session :=
  match hverified : (verifyEnrolled onFile cert).1 with
  | .error _ => .serving none .finished
  | .ok id =>
      if hrole : roleMatches id.role h.hello.role then
        Conn.dispatch ⟨h, cert, id, onFile, hverified, hrole⟩
      else .serving none .finished

/-- The session that `serveAgent` has just been given. -/
def RegistryTask.admits : RegistryTask Session → Option Session
  | .adding _ sess => some sess
  | _ => none

/-- The next step of a goroutine. A session that is admitted has had no owner before. -/
def ServerState.taskStep [DecidableEq Session] (st : ServerState Session) :
    ServerTask Session → RegistryChoice Session → Option (ServerState Session × ServerTask Session)
  | .accepted cert onFile h, .proceed => some (st, serve cert onFile h)
  | .serving conn task, choice =>
      (st.sessions.taskStep task choice).bind fun next =>
        match next.2.admits with
        | none => some ({ st with sessions := next.1 }, .serving conn next.2)
        | some sess =>
            if (st.owner sess).isNone then
              some (⟨next.1, Function.update st.owner sess conn⟩, .serving conn next.2)
            else none
  | _, _ => none

/-- The goroutines that may be started: a new connection, a shutdown, and the end of a session. -/
def ServerTask.starts : ServerTask Session → Bool
  | .accepted _ _ _ | .serving none (.closingAll _) | .serving none (.failing _ _) => true
  | _ => false

/-- Any number of goroutines of one relay. -/
abbrev ServerPool (Session : Type) := Pool (ServerState Session) (ServerTask Session)

/-- One step of one goroutine, or a new goroutine. -/
def serverStep [DecidableEq Session] : ServerPool Session →
    PoolAction (ServerTask Session) (RegistryChoice Session) → Option (ServerPool Session) :=
  poolStep (fun _ task => task.starts) ServerState.taskStep

/-- The session was admitted on a connection of this very device, which has claimed no other. -/
def ServerState.AgentOf (st : ServerState Session) (deviceID : Bytes) (s : Session) : Prop :=
  ∃ conn, st.owner s = some conn ∧ conn.id = ⟨.device, deviceID⟩ ∧
    (conn.auth.deviceID = [] ∨ conn.auth.deviceID = deviceID)

/-- The connection is an operator's, and the device is the one it asked for. -/
def Conn.AsksFor (conn : Conn) (deviceID : Bytes) : Prop :=
  conn.id.role = .operator ∧ conn.auth.deviceID = deviceID ∧ deviceID ≠ []

/-- The goroutine uses no name after this. -/
def RegistryTask.nameless : RegistryTask Session → Bool
  | .serving _ _ | .adding _ _ | .getting _ | .answered _ _ => false
  | _ => true

theorem nameless_step [DecidableEq Session] {st st' : RegistryState Session}
    {task task' : RegistryTask Session} {choice : RegistryChoice Session}
    (hnone : task.nameless = true) (h : st.taskStep task choice = some (st', task')) :
    st'.added = st.added ∧ task'.nameless = true := by
  have hclose : ∀ s reason, (st.close s reason).added = st.added := by
    intro s reason
    unfold RegistryState.close
    split <;> rfl
  cases task with
  | serving | adding | getting | answered => cases hnone
  | _ =>
      cases choice <;> simp only [RegistryState.taskStep, Option.ite_none_right_eq_some,
        Option.map_eq_some_iff, Option.some.injEq, Prod.mk.injEq, reduceCtorEq] at h
      all_goals
        first
          | obtain ⟨rfl, rfl⟩ := h
          | obtain ⟨-, rfl, rfl⟩ := h
          | obtain ⟨s, -, rfl, rfl⟩ := h
        exact ⟨by simp only [hclose], rfl⟩

/-- The shared invariant: what was added under a name belongs to that device. -/
def ServerState.Routed (st : ServerState Session) : Prop :=
  st.sessions.Current ∧ ∀ a ∈ st.sessions.added, st.AgentOf a.1 a.2

/-- What each goroutine knows of the names it uses. -/
def ServerState.Knows (st : ServerState Session) : ServerTask Session → Prop
  | .serving none task => task.nameless = true
  | .serving (some conn) (.serving claimed d) =>
      conn.id = ⟨.device, d⟩ ∧ conn.auth.deviceID = claimed
  | .serving (some _) (.adding d s) => st.AgentOf d s
  | .serving (some conn) (.getting d) => conn.AsksFor d
  | .serving (some conn) (.answered d result) =>
      conn.AsksFor d ∧ ∀ s, result = .ok s → st.AgentOf d s
  | _ => True

section Steps

variable {st st' : ServerState Session} {task task' : ServerTask Session} {d : Bytes} {s : Session}

/-- A session keeps its owner. -/
def ServerState.Keeps (st st' : ServerState Session) : Prop :=
  ∀ s conn, st.owner s = some conn → st'.owner s = some conn

theorem ServerState.AgentOf.mono (h : st.AgentOf d s) (hkeeps : st.Keeps st') :
    st'.AgentOf d s := by
  obtain ⟨conn, hs, hconn⟩ := h
  exact ⟨conn, hkeeps s conn hs, hconn⟩

theorem ServerState.Knows.mono (h : st.Knows task) (hkeeps : st.Keeps st') : st'.Knows task := by
  rcases task with _ | ⟨_ | conn, task⟩
  · trivial
  · exact h
  · cases task with
    | adding d s => exact AgentOf.mono h hkeeps
    | answered d result => exact ⟨h.1, fun s hs => (h.2 s hs).mono hkeeps⟩
    | _ => exact h

/-- What is registered under a name belongs to that device. -/
theorem registered_agent (hinv : st.Routed)
    (h : st.sessions.registry.agents.lookup d = some s) : st.AgentOf d s := by
  obtain ⟨a, hfind, rfl⟩ := Option.map_eq_some_iff.mp (hinv.1 d s h)
  obtain rfl : a.1 = d := by simpa using List.find?_some hfind
  exact hinv.2 a (List.mem_of_find?_eq_some hfind)

theorem knows_serve (st : ServerState Session) (cert : Certificate) (onFile : Identities)
    (h : Mux.Handshake) : st.Knows (serve cert onFile h) := by
  unfold serve Conn.dispatch
  split
  · rfl
  split
  · split
    next hrole => exact ⟨by rw [← hrole], rfl⟩
    next hrole =>
      split
      · rfl
      next hasked => exact ⟨hrole, rfl, hasked⟩
  · rfl

/-- A session that is admitted takes nobody's place. -/
theorem keeps_admitted [DecidableEq Session] (conn : Conn) (hnew : st.owner s = none) :
    st.Keeps ⟨st.sessions, Function.update st.owner s (some conn)⟩ := by
  intro t c ht
  show Function.update st.owner s (some conn) t = some c
  rw [Function.update_of_ne, ht]
  rintro rfl
  rw [hnew] at ht
  cases ht

theorem knows_nameless (conn : Option Conn) {task : RegistryTask Session}
    (h : task.nameless = true) : task.admits = none ∧ st.Knows (.serving conn task) := by
  cases conn <;> cases task <;> first | exact ⟨rfl, trivial⟩ | exact ⟨rfl, rfl⟩ | cases h

/-- A step keeps the owners, the invariant and what the goroutine knows. -/
theorem server_task_step [DecidableEq Session] {choice : RegistryChoice Session}
    (hinv : st.Routed) (hknows : st.Knows task)
    (h : st.taskStep task choice = some (st', task')) :
    st.Keeps st' ∧ st'.Routed ∧ st'.Knows task' := by
  rcases task with ⟨cert, onFile, hs⟩ | ⟨conn, task⟩
  · cases choice <;> cases h
    exact ⟨fun _ _ ho => ho, hinv, knows_serve _ _ _ _⟩
  obtain ⟨⟨sessions, next⟩, hstep, hnext⟩ := Option.bind_eq_some_iff.mp h
  have hcurrent := (registry_step hstep).current hinv.1
  by_cases hnone : task.nameless = true
  · obtain ⟨hadded, hafter⟩ := nameless_step hnone hstep
    obtain ⟨hnot, htrue⟩ := @knows_nameless _ ⟨sessions, st.owner⟩ conn _ hafter
    simp only [hnot] at hnext
    cases hnext
    exact ⟨fun _ _ ho => ho, ⟨hcurrent, fun a ha => hinv.2 a (hadded ▸ ha)⟩, htrue⟩
  cases conn with
  | none => exact absurd hknows hnone
  | some conn =>
      cases task with
      | serving claimed d =>
          cases choice with
          | admitted sess =>
              simp only [RegistryState.taskStep] at hstep
              split at hstep
              · cases hstep
                cases hnext
                exact ⟨fun _ _ ho => ho, hinv, trivial⟩
              next hclaim =>
                rw [not_and_or, not_not, not_not] at hclaim
                cases sess with
                | none =>
                    cases hstep
                    cases hnext
                    exact ⟨fun _ _ ho => ho, hinv, trivial⟩
                | some sess =>
                    cases hstep
                    simp only [RegistryTask.admits, Option.isNone_iff_eq_none,
                      Option.ite_none_right_eq_some, Option.some.injEq, Prod.mk.injEq] at hnext
                    obtain ⟨hnew, rfl, rfl⟩ := hnext
                    have hkeeps := keeps_admitted conn hnew
                    exact ⟨hkeeps, ⟨hcurrent, fun a ha => (hinv.2 a ha).mono hkeeps⟩, conn,
                      Function.update_self _ _ _, hknows.1, hknows.2 ▸ hclaim⟩
          | _ => cases hstep
      | adding d s =>
          cases choice with
          | proceed =>
              have hadded : ∀ a ∈ (d, s) :: st.sessions.added, st.AgentOf a.1 a.2 :=
                List.forall_mem_cons.mpr ⟨hknows, hinv.2⟩
              simp only [RegistryState.taskStep] at hstep
              split at hstep <;> cases hstep <;> cases hnext <;>
                exact ⟨fun _ _ ho => ho, ⟨hcurrent, hadded⟩, trivial⟩
          | _ => cases hstep
      | getting d =>
          cases choice with
          | proceed =>
              cases hstep
              cases hnext
              refine ⟨fun _ _ ho => ho, ⟨hcurrent, hinv.2⟩, hknows, fun s hs => ?_⟩
              have hagent := registered_agent hinv (Registry.get_ok_iff.mp hs).1
              exact hagent
          | _ => cases hstep
      | answered d result => cases choice <;> cases hstep
      | _ => exact absurd rfl hnone

theorem routed_step [DecidableEq Session] {pool next : ServerPool Session}
    {action : PoolAction (ServerTask Session) (RegistryChoice Session)}
    (hpool : pool.Holds ServerState.Routed ServerState.Knows)
    (h : serverStep pool action = some next) : next.Holds ServerState.Routed ServerState.Knows := by
  refine pool_step_holds ?_ ?_ ?_ hpool h
  · rintro st (_ | ⟨_ | conn, task⟩) - hstarts
    · trivial
    · cases task <;> first | rfl | cases hstarts
    · cases hstarts
  · exact fun hinv hknows hstep => (server_task_step hinv hknows hstep).2
  · exact fun hinv hknows hstep hother => hother.mono (server_task_step hinv hknows hstep).1

end Steps

/-- Every state any interleaving reaches. A session registered under a name was admitted on a
connection whose certificate is that device's, and so was the session an operator is given; the
operator has asked for that device, and its certificate is an operator's. -/
theorem routed_by_certificate [DecidableEq Session] {pool : ServerPool Session}
    {actions : List (PoolAction (ServerTask Session) (RegistryChoice Session))}
    (hrun : run serverStep ⟨⟨.new, fun _ => none⟩, []⟩ actions = some pool) :
    (∀ d s, pool.shared.sessions.registry.agents.lookup d = some s → pool.shared.AgentOf d s) ∧
    ∀ conn d s, .serving (some conn) (.answered d (.ok s)) ∈ pool.calls →
      conn.AsksFor d ∧ pool.shared.AgentOf d s := by
  have hholds : pool.Holds ServerState.Routed ServerState.Knows := by
    refine run_invariant (fun hpool h => routed_step hpool h) ⟨⟨?_, ?_⟩, ?_⟩ hrun
    · intro d s h
      cases (AList.lookup_empty d).symm.trans h
    · exact List.forall_mem_nil _
    · exact List.forall_mem_nil _
  refine ⟨fun d s => registered_agent hholds.shared, ?_⟩
  intro conn d s hcall
  exact (hholds.calls _ hcall).imp_right fun hagent => hagent s rfl

/-- A certificate of the device or the operator `d`, and identities on file that all have its
serial number. -/
def certOf (role : Ca.Role) : Certificate :=
  ⟨[(⟨role, ascii "d"⟩ : Identity).uri], [7], one_byte_ne_nil 7⟩

def everybody : Identities := ⟨fun _ => some ⟨0, [7], none, [], none⟩, fun _ => none⟩

/-- An agent connects, and then an operator that asks for it. -/
def agentAsked : List (PoolAction (ServerTask Nat) (RegistryChoice Nat)) :=
  [.start (.accepted (certOf .device) everybody ⟨⟨1, 1, roleAgent⟩, ⟨[], [], []⟩⟩),
    .advance 0 .proceed, .advance 0 (.admitted (some 1)), .advance 0 .proceed,
    .start (.accepted (certOf .operator) everybody ⟨⟨1, 1, roleOperator⟩, ⟨ascii "d", [], []⟩⟩),
    .advance 1 .proceed, .advance 1 .proceed]

theorem routed_by_certificate_sample : ∃ pool conn,
    run serverStep ⟨⟨.new, fun _ => none⟩, []⟩ agentAsked = some pool ∧
      .serving (some conn) (.answered (ascii "d") (.ok 1)) ∈ pool.calls ∧
      conn.AsksFor (ascii "d") ∧ pool.shared.AgentOf (ascii "d") 1 := by
  refine ⟨_, _, rfl, List.mem_of_getElem? (i := 1) rfl, ?_⟩
  exact (@routed_by_certificate Nat _ _ agentAsked rfl).2 _ _ _ (List.mem_of_getElem? (i := 1) rfl)

end AccessRelay.Relay
