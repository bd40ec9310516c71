import AccessRelay.Mux.AcceptQueue
import AccessRelay.Mux.Transport

/-!
# The answer to an `Open`

An `Open` that waits is a call, an entry of the pending map and a channel with room for one
reason. Three threads work on these: the `Open` itself, the read loop, which answers by
`completeOpen`, and `closeOnce`, which takes the map and sends its reason to every channel in it.
The lemmas here say what one event does to each of the three: `call_origin` for the calls,
`ack_react` for the channels, `pending_react` and `pending_kept` for the map.
-/

namespace AccessRelay.Mux

open Encoding Proto Machine

/-- The answer that a frame gives to the `Open` of its identifier. -/
def answerOf (f : Frame) : Option Reason :=
  match f.type with
  | .streamOK => some reasonOK
  | .closeStream => some (if f.payload = [] then reasonOK else f.payload)
  | _ => none

/-- The event is a frame that reaches `dispatch` and answers the `Open` of this identifier. -/
def Session.answers (s : Session) (id : UInt32) (reason : Reason) : Event → Prop
  | .frame f =>
      f.streamID = id ∧ answerOf f = some reason ∧
        ¬ s.limits.maxFrame < UInt32.ofNat f.payload.length
  | .act _ => False

/-- The event sends this reason to the channel of an `Open`: for a frame that answers it, or for
the end of the session. -/
def Session.AnswerFor (s : Session) (h : Handle) (reason : Reason) (e : Event) : Prop :=
  (h ∈ s.pending ∧ s.answers h.id reason e) ∨
    ∃ choice rest, e = .act (.endStep choice) ∧ s.ending = .notifying reason (h :: rest)

/-- The OPEN_STREAM of this identifier is on the connection. -/
def Session.sent (s : Session) (id : UInt32) : Bool :=
  s.out.any fun f => f.type = .openStream ∧ f.streamID = id

/-- The stream of a CLOSE_STREAM that the read loop has not finished with. -/
def Reader.closes : Reader → Option UInt32
  | .lookingUp id _ => some id
  | .serving h (.closing _) | .serving h .retiring => some h.id
  | _ => none

/-- Where a call on a stream comes from. -/
inductive Session.CallFrom (s s' : Session) (e : Event) (index : Nat) (h : Handle) :
    Op → Prop where
  | kept {op : Op} (hcall : s.calls[index]? = some (.stream h op)) : CallFrom s s' e index h op
  | started {op : Op} {c c' : Cell} (hholds : s.holds h = true) (hop : op.start c = some c') :
      CallFrom s s' e index h op
  | opened {payload : Bytes} {choice : Choice} (hevent : e = .act (.advance index choice))
      (hopens : s.opening e = true) (hh : h = s.nextHandle s.nextID) (hmem : h ∈ s'.pending) :
      CallFrom s s' e index h (.sendOpen payload)
  | accepted (hh : h ∈ s.acceptCh) : CallFrom s s' e index h .accepted
  | turned {op : Op} {c : Cell} {turn : Turn} {choice : Choice}
      (hevent : e = .act (.advance index choice)) (hcall : s.calls[index]? = some (.stream h op))
      (hop : op.step s.limits s.done (s.ackFor h) c choice = some turn) :
      CallFrom s s' e index h turn.op

section Answers

variable {s s' : Session} {e : Event} {h : Handle}

theorem get_append_cases {α : Type*} {l : List α} {x y : α} {k : Nat}
    (hget : (l ++ [x])[k]? = some y) : l[k]? = some y ∨ y = x := by
  rw [List.getElem?_append] at hget
  split_ifs at hget
  · exact .inl hget
  · exact .inr (List.mem_singleton.mp (List.mem_of_getElem? hget))

/-- A call on a stream was there before, or is one of four new ones. -/
theorem call_origin {index : Nat} {op : Op} (hreact : s.react e = some s')
    (hcall : s'.calls[index]? = some (.stream h op)) : s.CallFrom s' e index h op := by
  rcases react_cases hreact with ⟨a, rfl, hmoves⟩ | ⟨f, rfl, -, -, hreads⟩
  · cases hmoves with
    | called call hne =>
        rcases get_append_cases hcall with hold | heq
        · exact .kept hold
        · exact absurd heq.symm (hne h op)
    | started hholds hcell hop =>
        rcases get_append_cases hcall with hold | heq
        · exact .kept hold
        · cases heq
          exact .started hholds hop
    | failed i choice call hne hopen =>
        rcases get_set_cases hcall with ⟨-, heq⟩ | ⟨-, hold⟩
        · exact absurd heq.symm (hne h op)
        · exact .kept hold
    | opened i choice payload hopen hdone =>
        rcases get_set_cases hcall with ⟨rfl, heq⟩ | ⟨-, hold⟩
        · cases heq
          exact .opened rfl (by simp only [Session.opening, hopen]) rfl List.mem_cons_self
        · exact .kept hold
    | accepted i choice hqueue =>
        rcases get_set_cases hcall with ⟨-, heq⟩ | ⟨-, hold⟩
        · cases heq
          exact .accepted (hqueue ▸ List.mem_cons_self)
        · exact .kept hold
    | @turned i choice j op' c turn hold hcell hturn =>
        -- `Moves` does not say which case of a `select` was taken; the step itself does.
        obtain ⟨c', turn', hop, heq⟩ := advance_stream hreact hold
        have hcalls : s.calls.set i (.stream j turn.op) = s.calls.set i (.stream j turn'.op) :=
          congrArg Session.calls heq
        have hset : (s.calls.set i (.stream j turn.op))[index]? = some (.stream h op) := hcall
        rw [hcalls] at hset
        rcases get_set_cases hset with ⟨rfl, hnew⟩ | ⟨-, hkept⟩
        · cases hnew
          exact .turned rfl hold hop
        · exact .kept hkept
    | served hreader hcell => exact .kept ((serve_step_calls ..).1 ▸ hcall)
    | refused hreader => exact .kept ((reply_calls ..).1 ▸ hcall)
    | ponged hreader => exact .kept ((reply_calls ..).1 ▸ hcall)
    | lookedUp hreader => exact .kept ((serve_calls ..).1 ▸ hcall)
    | _ => exact .kept hcall
  · exact .kept ((reads_calls hreads).2 ▸ hcall)

/-- A frame that is too large is not dispatched, whatever its type. -/
theorem read_too_large {f : Frame} (hread : s.read f = some s')
    (hsize : s.limits.maxFrame < UInt32.ofNat f.payload.length) :
    s' = { s with reader := .failing reasonLimitFrameTooLarge } := by
  simp only [Session.read, Session.receive, if_pos hsize, Option.ite_none_right_eq_some,
    Option.some.injEq] at hread
  exact hread.2.symm

/-- What reading a frame does to the pending map and the channels: nothing, or `completeOpen`. -/
theorem read_answer {f : Frame} (hread : s.read f = some s') :
    (s'.pending = s.pending ∧ s'.acks = s.acks) ∨
      ∃ reason, s.answers f.streamID reason (.frame f) ∧
        s'.pending = (s.completeOpen f.streamID reason).pending ∧
        s'.acks = (s.completeOpen f.streamID reason).acks := by
  by_cases hsize : s.limits.maxFrame < UInt32.ofNat f.payload.length
  · obtain rfl := read_too_large hread hsize
    exact .inl ⟨rfl, rfl⟩
  cases (read_reads hread).2 with
  | answered htype =>
      exact .inr ⟨reasonOK, ⟨rfl, by rw [answerOf, htype], hsize⟩, rfl, rfl⟩
  | @close htype reason hreason =>
      exact .inr ⟨reason, ⟨rfl, by rw [answerOf, htype, hreason], hsize⟩, rfl, rfl⟩
  | _ => exact .inl ⟨rfl, rfl⟩

/-- A frame that answers an identifier is given to `completeOpen`. -/
theorem read_answered {f : Frame} {id : UInt32} {reason : Reason} (hread : s.read f = some s')
    (hanswers : s.answers id reason (.frame f)) :
    s'.pending = (s.completeOpen id reason).pending ∧
      s'.acks = (s.completeOpen id reason).acks := by
  obtain ⟨rfl, hanswer, hsize⟩ := hanswers
  simp only [Session.read, Session.receive, if_neg hsize, Option.ite_none_right_eq_some,
    Option.some.injEq] at hread
  obtain ⟨-, rfl⟩ := hread
  unfold answerOf at hanswer
  split at hanswer
  next htype =>
    cases hanswer
    rw [htype]
    exact ⟨rfl, rfl⟩
  next htype =>
    cases hanswer
    rw [htype]
    exact ⟨rfl, rfl⟩
  · cases hanswer

theorem ack_congr (hacks : s'.acks = s.acks) : s'.ackFor h = s.ackFor h := by
  rw [Session.ackFor, Session.ackFor, hacks]

/-- `completeOpen` answers the `Open` it finds under the identifier. -/
theorem complete_open_ack (id : UInt32) (reason : Reason) (h : Handle) :
    (s.completeOpen id reason).ackFor h =
      if s.pending.find? (fun i => i.id = id) = some h then (s.ackFor h).or (some reason)
      else s.ackFor h := by
  unfold Session.completeOpen
  cases hfind : s.pending.find? fun i => i.id = id with
  | none => rfl
  | some i =>
      dsimp only
      rw [ack_for_answer]
      by_cases heq : h = i
      · subst heq
        rw [if_pos rfl, if_pos rfl]
        rfl
      · rw [if_neg heq, if_neg fun hi => heq (Option.some.inj hi).symm]
        rfl

/-- Only the end of the session answers an `Open` by a step of the session itself. -/
theorem moves_acks {a : Action} (hmoves : s.Moves a s') :
    s'.acks = s.acks ∨ ∃ choice i rest reason, a = .endStep choice ∧
      s.ending = .notifying reason (i :: rest) ∧ s'.acks = (s.answer i reason).acks := by
  cases hmoves with
  | @turned index choice i op c turn hcall hcell hturn =>
      left
      cases turn.effect <;> rfl
  | @served i task c hreader hcell =>
      left
      cases task with
      | acking =>
          simp only [Session.serveStep, Session.reply]
          split_ifs <;> rfl
      | queueing =>
          simp only [Session.serveStep]
          split_ifs <;> rfl
      | delivering payload =>
          simp only [Session.serveStep]
          cases c.stream.deliver payload <;> rfl
      | retiring =>
          simp only [Session.serveStep]
          split_ifs <;> rfl
      | _ => rfl
  | refused hreader =>
      left
      unfold Session.reply
      split_ifs <;> rfl
  | ponged hreader =>
      left
      unfold Session.reply
      split_ifs <;> rfl
  | lookedUp hreader =>
      left
      unfold Session.serve
      split <;> rfl
  | @notified choice reason i rest hending =>
      exact .inr ⟨choice, i, rest, reason, rfl, hending, rfl⟩
  | _ => exact .inl rfl

/-- What an event does to the channel of an `Open`: nothing, or it sends a reason there, which the
channel takes if it is empty. -/
theorem ack_react (hreact : s.react e = some s') (h : Handle) :
    s'.ackFor h = s.ackFor h ∨
      ∃ reason, s'.ackFor h = (s.ackFor h).or (some reason) ∧ s.AnswerFor h reason e := by
  cases e with
  | act a =>
      rcases moves_acks (step_moves hreact) with
        hsame | ⟨choice, i, rest, reason, rfl, hending, hacks⟩
      · exact .inl (ack_congr hsame)
      · rw [ack_congr hacks, ack_for_answer]
        by_cases heq : h = i
        · subst heq
          rw [if_pos rfl]
          exact .inr ⟨reason, rfl, .inr ⟨choice, rest, rfl, hending⟩⟩
        · rw [if_neg heq]
          exact .inl rfl
  | frame f =>
      simp only [Session.react, Option.ite_none_right_eq_some] at hreact
      rcases read_answer hreact.2 with ⟨-, hsame⟩ | ⟨reason, hanswers, -, hacks⟩
      · exact .inl (ack_congr hsame)
      · rw [ack_congr hacks, complete_open_ack]
        split_ifs with hfind
        · have hid : h.id = f.streamID := by simpa using List.find?_some hfind
          refine .inr ⟨reason, rfl, .inl ⟨List.mem_of_find?_eq_some hfind, ?_⟩⟩
          rw [hid]
          exact hanswers
        · exact .inl rfl

/-- An answer that has been given stays, and no other takes its place. -/
theorem ack_kept {reason : Reason} (hreact : s.react e = some s')
    (hack : s.ackFor h = some reason) : s'.ackFor h = some reason := by
  rcases ack_react hreact h with hsame | ⟨other, hor, -⟩
  · rw [hsame, hack]
  · rw [hor, hack, Option.some_or]

/-- A new answer was sent in this event. -/
theorem ack_new {reason : Reason} (hreact : s.react e = some s') (hnone : s.ackFor h = none)
    (hack : s'.ackFor h = some reason) : s.AnswerFor h reason e := by
  rcases ack_react hreact h with hsame | ⟨other, hor, hanswer⟩
  · rw [hsame, hnone] at hack
    cases hack
  · rw [hor, hnone, Option.none_or] at hack
    cases hack
    exact hanswer

/-- `completeOpen` removes entries under its own identifier only. -/
theorem complete_open_pending {id : UInt32} {reason : Reason} (hid : h.id ≠ id)
    (hmem : h ∈ s.pending) : h ∈ (s.completeOpen id reason).pending := by
  unfold Session.completeOpen
  split
  · exact hmem
  · exact List.mem_filter.mpr ⟨hmem, decide_eq_true hid⟩

/-- After `completeOpen` nothing is pending under its identifier. -/
theorem complete_open_clears {id : UInt32} {reason : Reason}
    (hmem : h ∈ (s.completeOpen id reason).pending) : h.id ≠ id := by
  unfold Session.completeOpen at hmem
  split at hmem
  next hnone => simpa using List.find?_eq_none.mp hnone h hmem
  next i hfind => simpa using (List.mem_filter.mp hmem).2

theorem reads_ending {f : Frame} (hreads : s.Reads f s') :
    s'.ending = s.ending ∧ s'.done = s.done := by
  cases hreads with
  | answered => exact (complete_open_control ..).2
  | close => exact (complete_open_control (s := s) f.streamID _).2
  | _ => exact ⟨rfl, rfl⟩

/-- A new entry of the pending map is that of an `Open` which registers its stream. -/
theorem pending_react (hreact : s.react e = some s') (hmem : h ∈ s'.pending) :
    h ∈ s.pending ∨ (h = s.nextHandle s.nextID ∧ s.opening e = true ∧ s'.Has h) := by
  cases e with
  | act a =>
      rcases step_books hreact with hkeeps | ⟨⟨index, choice, payload, rfl, hcall⟩, hreg, -⟩
      · exact .inl (hkeeps.pending hmem)
      · rcases List.mem_cons.mp (hreg.pending hmem) with heq | hold
        · exact .inr ⟨heq, by simp only [Session.opening, hcall], hreg.has (.inr heq)⟩
        · exact .inl hold
  | frame f =>
      simp only [Session.react, Option.ite_none_right_eq_some] at hreact
      rcases read_answer hreact.2 with ⟨hsame, -⟩ | ⟨reason, -, hpending, -⟩
      · exact .inl (hsame ▸ hmem)
      · rw [hpending] at hmem
        exact .inl ((keeps_complete_open _ _).pending hmem)

/-- Why an entry leaves the pending map: its identifier is retired, which includes the end of the
session, or taken by another `Open`, or a frame answers it. -/
theorem pending_kept (hreact : s.react e = some s') (hmem : h ∈ s.pending) :
    h ∈ s'.pending ∨ s.retires h.id e = true ∨ (s.opening e = true ∧ h.id = s.nextID) ∨
      ∃ reason, s.answers h.id reason e := by
  cases e with
  | act a =>
      by_cases hretires : s.retires h.id (.act a) = true
      · exact .inr (.inl hretires)
      by_cases hopen : s.opening (.act a) = true ∧ h.id = s.nextID
      · exact .inr (.inr (.inl hopen))
      · have hother : s.opening (.act a) = true → h.id ≠ s.nextID :=
          fun hopens hid => hopen ⟨hopens, hid⟩
        exact .inl ((moves_tables (step_moves hreact) (by simpa using hretires) hother).2 hmem)
  | frame f =>
      simp only [Session.react, Option.ite_none_right_eq_some] at hreact
      rcases read_answer hreact.2 with ⟨hsame, -⟩ | ⟨reason, hanswers, hpending, -⟩
      · exact .inl (hsame ▸ hmem)
      · by_cases hid : h.id = f.streamID
        · rw [hid]
          exact .inr (.inr (.inr ⟨reason, hanswers⟩))
        · rw [hpending]
          exact .inl (complete_open_pending hid hmem)

/-- What an event does to the end of a session: nothing, its beginning, or a step of `closeOnce`. -/
theorem ending_react (hreact : s.react e = some s') :
    s'.ending = s.ending ∨
      (s.ending = .live ∧
        ∃ reason, s'.ending = .announcing reason ∨ s'.ending = .collecting reason) ∨
      ∃ choice, e = .act (.endStep choice) := by
  have hshutdown : ∀ (reason : Reason) (next : Reader),
      (s.shutdown reason next).ending = s.ending ∨
        (s.ending = .live ∧ (s.shutdown reason next).ending = .collecting reason) := by
    intro reason next
    simp only [Session.shutdown]
    split_ifs with hlive
    · exact .inr ⟨hlive, rfl⟩
    · exact .inl rfl
  rcases react_cases hreact with ⟨a, rfl, hmoves⟩ | ⟨f, rfl, -, -, hreads⟩
  · cases hmoves with
    | turned => exact .inl (perform_control ..).2.1
    | @served i task c => exact .inl (serve_step_reader i c task).1.1
    | refused => exact .inl (reply_control ..).2.1
    | ponged => exact .inl (reply_control ..).2.1
    | lookedUp => exact .inl (serve_control ..).1
    | quit => exact (hshutdown ..).imp_right fun h => .inl ⟨h.1, _, .inr h.2⟩
    | told => exact (hshutdown ..).imp_right fun h => .inl ⟨h.1, _, .inr h.2⟩
    | closed reason hending => exact .inr (.inl ⟨hending, reason, .inl rfl⟩)
    | announced choice | collected choice | killed choice | killedAll choice | notified choice
    | ended choice => exact .inr (.inr ⟨choice, rfl⟩)
    | _ => exact .inl rfl
  · exact .inl (reads_ending hreads).1

/-- What an event does to the channels that `closeOnce` has still to send to: it takes the pending
map, or serves the first of them, or leaves them alone. -/
theorem to_answer_react (hreact : s.react e = some s') :
    s'.ending.toAnswer = s.ending.toAnswer ∨
      (∃ choice reason, e = .act (.endStep choice) ∧ s.ending = .collecting reason ∧
        s'.ending.toAnswer = s.pending) ∨
      ∃ choice reason i rest, e = .act (.endStep choice) ∧
        s.ending = .notifying reason (i :: rest) ∧ s'.ending.toAnswer = rest ∧
        s'.acks = (s.answer i reason).acks := by
  rcases ending_react hreact with hsame | ⟨hlive, reason, hnew | hnew⟩ | ⟨choice, rfl⟩
  · exact .inl (congrArg Ending.toAnswer hsame)
  · rw [hnew, hlive]
    exact .inl rfl
  · rw [hnew, hlive]
    exact .inl rfl
  · have hstep : s.step (.endStep choice) = some s' := hreact
    cases step_moves hstep with
    | announced choice hending => exact .inl (by rw [hending]; rfl)
    | @collected choice reason hending => exact .inr (.inl ⟨choice, reason, rfl, hending, rfl⟩)
    | killed choice hending => exact .inl (by rw [hending]; rfl)
    | killedAll choice hending => exact .inl (by rw [hending]; rfl)
    | @notified choice reason i rest hending =>
        exact .inr (.inr ⟨choice, reason, i, rest, rfl, hending, rfl, rfl⟩)
    | ended choice hending => exact .inl (by rw [hending]; rfl)

theorem to_answer_from (hreact : s.react e = some s') (hmem : h ∈ s'.ending.toAnswer) :
    h ∈ s.ending.toAnswer ∨ ∃ choice reason, e = .act (.endStep choice) ∧
      s.ending = .collecting reason ∧ h ∈ s.pending := by
  rcases to_answer_react hreact with hsame | ⟨choice, reason, rfl, hending, htaken⟩ |
    ⟨choice, reason, i, rest, rfl, hending, hrest, -⟩
  · exact .inl (hsame ▸ hmem)
  · exact .inr ⟨choice, reason, rfl, hending, htaken ▸ hmem⟩
  · rw [hending]
    exact .inl (List.mem_cons_of_mem i (hrest ▸ hmem))

theorem done_react (hreact : s.react e = some s') (hdone : s.done = true) : s'.done = true := by
  rcases react_cases hreact with ⟨a, rfl, hmoves⟩ | ⟨f, rfl, -, -, hreads⟩
  · cases hmoves with
    | turned => exact (perform_control ..).2.2.trans hdone
    | @served i task c => exact (serve_step_reader i c task).1.2.trans hdone
    | refused => exact (reply_control ..).2.2.trans hdone
    | ponged => exact (reply_control ..).2.2.trans hdone
    | lookedUp => exact (serve_control ..).2.1.trans hdone
    | ended => rfl
    | _ => exact hdone
  · exact (reads_ending hreads).2.trans hdone

/-- `Open` can return, or will when the end of the session gets to it: its channel has an answer,
or is among those that `closeOnce` has still to send to, or the session is done. -/
def Session.Freed (s : Session) (h : Handle) : Prop :=
  s.ackFor h ≠ none ∨ h ∈ s.ending.toAnswer ∨ s.done = true

/-- An `Open` that can return stays free to. -/
theorem freed_react (hreact : s.react e = some s') (hfreed : s.Freed h) : s'.Freed h := by
  have hkept : ∀ {i : Handle}, s.ackFor i ≠ none → s'.ackFor i ≠ none := by
    intro i hack
    obtain ⟨reason, hreason⟩ := Option.ne_none_iff_exists'.mp hack
    rw [ack_kept hreact hreason]
    exact Option.some_ne_none reason
  rcases hfreed with hack | hmem | hdone
  · exact .inl (hkept hack)
  · rcases to_answer_react hreact with hsame | ⟨choice, reason, rfl, hending, -⟩ |
      ⟨choice, reason, i, rest, rfl, hending, hrest, hacks⟩
    · exact .inr (.inl (hsame ▸ hmem))
    · rw [hending] at hmem
      exact absurd hmem List.not_mem_nil
    · rw [hending] at hmem
      rcases List.mem_cons.mp hmem with rfl | hmem
      · left
        rw [ack_congr hacks, ack_for_answer, if_pos rfl]
        cases s.ackFor h <;> simp
      · exact .inr (.inl (hrest ▸ hmem))
  · exact .inr (.inr (done_react hreact hdone))

theorem sent_append {id : UInt32} {f : Frame} (hout : s'.out = s.out ++ [f]) :
    s'.sent id = (s.sent id || decide (f.type = .openStream ∧ f.streamID = id)) := by
  rw [Session.sent, hout, List.any_append]
  simp [Session.sent]

/-- An OPEN_STREAM is put on the connection by the `Open` of its identifier, and stays there. -/
theorem sent_react (hreact : s.react e = some s') (id : UInt32) :
    s'.sent id = s.sent id ∨ (s'.sent id = true ∧ ∃ index choice i payload,
      e = .act (.advance index choice) ∧ s.calls[index]? = some (.stream i (.sendOpen payload)) ∧
      i.id = id) := by
  have hsame : s'.out = s.out → s'.sent id = s.sent id := by
    intro hout
    rw [Session.sent, hout, Session.sent]
  have hother : ∀ {f : Frame}, f.type ≠ .openStream → s'.out = s.out ∨ s'.out = s.out ++ [f] →
      s'.sent id = s.sent id := by
    intro f htype hout
    rcases hout with hout | hout
    · exact hsame hout
    · rw [sent_append hout, decide_eq_false fun h => htype h.1, Bool.or_false]
  rcases react_cases hreact with ⟨a, rfl, hmoves⟩ | ⟨f, rfl, -, -, hreads⟩
  · cases hmoves with
    | @turned index choice i op c turn hcall hcell hturn =>
        cases hturn with
        | openSent payload hdone =>
            by_cases hid : i.id = id
            · refine .inr ⟨?_, index, choice, i, payload, rfl, hcall, hid⟩
              simp [Session.sent, Session.perform, Session.emit, hid]
            · left
              simp [Session.sent, Session.perform, Session.emit, Session.setCell, hid]
        | creditSent | dataSent | closeSent | resetSent =>
            exact .inl (hother (by simp) (.inr rfl))
        | _ => exact .inl (hsame rfl)
    | @served i task c =>
        rcases serve_step_out (s := s) i c task with hout | ⟨-, hout⟩
        · exact .inl (hsame hout)
        · exact .inl (hother (by simp) (.inr hout))
    | refused => exact .inl (hother (by simp) (reply_out ..))
    | ponged => exact .inl (hother (by simp) (reply_out ..))
    | lookedUp =>
        refine .inl (hsame ?_)
        unfold Session.serve
        split <;> rfl
    | @announced choice reason hending out hout =>
        refine .inl (hother (f := ⟨.error, 0, reason⟩) (by simp) ?_)
        subst hout
        split_ifs
        · exact .inr rfl
        · exact .inl rfl
    | pinged out hout =>
        refine .inl (hother (f := ⟨.ping, 0, []⟩) (by simp) ?_)
        subst hout
        split_ifs
        · exact .inr rfl
        · exact .inl rfl
    | _ => exact .inl (hsame rfl)
  · exact .inl (hsame (reads_calls hreads).1)

/-- The read loop is busy with a CLOSE_STREAM from the frame on that it has read. -/
theorem closes_react {id : UInt32} (hreact : s.react e = some s')
    (hcloses : s'.reader.closes = some id) :
    s.reader.closes = some id ∨ ∃ reason, s.answers id reason e := by
  have hreply : ∀ {type : Typ} {i : UInt32} {payload : Bytes} {next : Reader},
      next.closes = none → (s.reply type i payload next).reader.closes ≠ some id := by
    intro type i payload next hnext heq
    rcases (reply_control (s := s) type i payload next).1 with hreader | hreader
    · rw [hreader, hnext] at heq
      cases heq
    · rw [hreader] at heq
      cases heq
  cases e with
  | act a =>
      left
      cases step_moves hreact with
      | @turned index choice i op c turn =>
          exact (perform_control (s := s.setCell i turn.cell) i.id turn.effect).1 ▸ hcloses
      | @served i task c hreader hcell =>
          cases task with
          | closing reason =>
              rw [hreader]
              exact hcloses
          | acking => exact absurd hcloses (hreply rfl)
          | queueing =>
              simp only [Session.serveStep] at hcloses
              split_ifs at hcloses <;> cases hcloses
          | delivering payload =>
              simp only [Session.serveStep] at hcloses
              split at hcloses <;> cases hcloses
          | retiring =>
              simp only [Session.serveStep] at hcloses
              split_ifs at hcloses <;> cases hcloses
          | _ => cases hcloses
      | refused => exact absurd hcloses (hreply rfl)
      | ponged => exact absurd hcloses (hreply rfl)
      | @lookedUp i reason hreader =>
          unfold Session.serve at hcloses
          split at hcloses
          · cases hcloses
          next found hlookup =>
            have hid : found.id = i := by simpa using List.find?_some hlookup
            rw [hreader]
            exact hid ▸ hcloses
      | quit | told | woken | broken => cases hcloses
      | _ => exact hcloses
  | frame f =>
      simp only [Session.react, Option.ite_none_right_eq_some] at hreact
      by_cases hsize : s.limits.maxFrame < UInt32.ofNat f.payload.length
      · obtain rfl := read_too_large hreact.2 hsize
        cases hcloses
      obtain ⟨hidle, hreads⟩ := read_reads hreact.2
      cases hreads with
      | @close htype reason hreason =>
          exact .inr ⟨reason, Option.some.inj hcloses, by rw [answerOf, htype, hreason], hsize⟩
      | answered =>
          rw [(complete_open_control ..).1, hidle] at hcloses
          cases hcloses
      | pong =>
          rw [hidle] at hcloses
          cases hcloses
      | _ => cases hcloses

end Answers

end AccessRelay.Mux
