import AccessRelay.Mux.Answers

/-!
# When `Open` succeeds

`Open` registers its stream, sends OPEN_STREAM, and waits on a channel for one reason; ok means
that the stream is open. Three things can go wrong with that. The end of a session sends its own
reason to the channel, and ok is a reason like any other: an ERROR frame that says ok opens every
stream that is waiting (`error_frame_opens`). The peer may answer an identifier before its
OPEN_STREAM has been sent. And the identifiers may wrap, so that two waiters share one.

`open_succeeds_on_answer` says that nothing else can: in a run without these three, an `Open` that
succeeds was acknowledged by its peer, a channel gets one answer and not that of another
identifier, and an `Open` whose answer has been dispatched can return.
-/

namespace AccessRelay.Mux

open Encoding Proto Machine

/-- The operation is an `Open` that has still to take its answer. -/
def Op.Awaits : Op → Prop
  | .sendOpen _ | .awaitAck => True
  | _ => False

/-- `Open` takes an identifier that has not been used. The peer answers an identifier of this end
only once its OPEN_STREAM has been sent. The session does not end with the reason ok while an
`Open` is pending. -/
def answersInTurn (s : Session) (e : Event) : Bool :=
  match e with
  | .act (.endStep _) =>
      match s.ending with
      | .collecting reason => reason ≠ reasonOK ∨ s.pending = []
      | _ => true
  | .act a => !s.opening (.act a) || s.cells s.nextID = []
  | .frame f => answerOf f = none || !s.owns f.streamID || s.sent f.streamID

/-- A frame that acknowledges this identifier is dispatched, after its OPEN_STREAM was sent. -/
def Session.Acknowledged (id : UInt32) (s : Session) (e : Event) : Prop :=
  s.sent id = true ∧ s.answers id reasonOK e

/-- A frame that answers this identifier is dispatched, after its OPEN_STREAM was sent. -/
def Session.Answered (id : UInt32) (s : Session) (e : Event) : Prop :=
  s.sent id = true ∧ ∃ reason, s.answers id reason e

/-- The `Open` at this index can return: after at most the rest of `closeOnce`, its `select` has
the answer or the end of the session to go on with, whether or not its context is cancelled. -/
def Session.Releases (s : Session) (index : Nat) (h : Handle) : Prop :=
  ∃ n s₁ choice s₂ op,
    run Session.react s (List.replicate n (.act (.endStep 0))) = some s₁ ∧
    s₁.calls[index]? = some (.stream h .awaitAck) ∧ choice ≠ .cancelled ∧
    s₁.react (.act (.advance index choice)) = some s₂ ∧
    s₂.calls[index]? = some (.stream h op) ∧ op ≠ .awaitAck

/-- The books of the identifiers of this end: each has been used once, those of the streams to be
accepted are not among them, and a CLOSE_STREAM in progress has answered its own. -/
structure Session.OwnBooks (s : Session) : Prop where
  parity : s.owns s.nextID = true
  rooted : s.Rooted
  single : ∀ id, s.owns id = true → (s.cells id).length ≤ 1
  pending : ∀ h ∈ s.pending, s.owns h.id = true ∧ s.Has h
  peers : ∀ h ∈ s.waiting, s.owns h.id = false
  dropping : ∀ h, s.reader = .serving h .dropping → s.owns h.id = false
  used : ∀ id, s.sent id = true → s.Has ⟨id, 0⟩
  closing : ∀ id, s.reader.closes = some id → s.owns id = true →
    s.Has ⟨id, 0⟩ ∧ ∀ h ∈ s.pending, h.id ≠ id

/-- The calls of `Open`: each is on a stream of this end, the only call on it, and while it waits
for its answer it is pending or can return. -/
structure Session.Callers (s : Session) : Prop where
  owned : ∀ h op, .stream h op ∈ s.calls → op.Opening → s.owns h.id = true
  lone : ∀ {i j : Nat} {h : Handle} {op op' : Op}, s.calls[i]? = some (.stream h op) → op.Opening →
    s.calls[j]? = some (.stream h op') → i = j
  waits : ∀ h op, .stream h op ∈ s.calls → op.Awaits → h ∈ s.pending ∨ s.Freed h

/-- What the state of a session says about its past: an ok in a channel and an `Open` that has
succeeded were acknowledged, and a waiting `Open` whose answer was dispatched can return. -/
structure Remembers (start : Session) (events : List Event) (s : Session) : Prop where
  acked : ∀ h, s.ackFor h = some reasonOK →
    happened Session.react start (Session.Acknowledged h.id) events
  opened : ∀ h, .stream h .opened ∈ s.calls →
    happened Session.react start (Session.Acknowledged h.id) events
  sent : ∀ id, happened Session.react start (Session.Answered id) events → s.sent id = true
  freed : ∀ h op, .stream h op ∈ s.calls → op.Awaits →
    happened Session.react start (Session.Answered h.id) events → s.Freed h

section Guard

variable {s : Session} {e : Event}

theorem opening_fresh (hguard : answersInTurn s e = true) (hopens : s.opening e = true) :
    s.cells s.nextID = [] := by
  cases e with
  | frame f => cases hopens
  | act a =>
      cases a with
      | endStep choice => cases hopens
      | _ => simpa [answersInTurn, hopens] using hguard

theorem answered_sent {id : UInt32} {reason : Reason} (hguard : answersInTurn s e = true)
    (hanswers : s.answers id reason e) (howns : s.owns id = true) : s.sent id = true := by
  cases e with
  | act a => exact hanswers.elim
  | frame f =>
      obtain ⟨rfl, hanswer, -⟩ := hanswers
      simpa [answersInTurn, hanswer, howns] using hguard

theorem collecting_not_ok {choice : Nat} {reason : Reason} {h : Handle}
    (hguard : answersInTurn s (.act (.endStep choice)) = true)
    (hending : s.ending = .collecting reason) (hmem : h ∈ s.pending) : reason ≠ reasonOK := by
  simp only [answersInTurn, hending, decide_eq_true_eq] at hguard
  rcases hguard with hne | hnone
  · exact hne
  · rw [hnone] at hmem
    exact absurd hmem List.not_mem_nil

end Guard

section Books

variable {s s' : Session} {e : Event} {h : Handle}

/-- An identifier of this end has one object only. -/
theorem Session.OwnBooks.unique (hs : s.OwnBooks) {i : Handle} (howns : s.owns h.id = true)
    (hh : s.Has h) (hi : s.Has i) (hid : i.id = h.id) : i = h := by
  have hle := hs.single h.id howns
  obtain ⟨id, n⟩ := h
  obtain ⟨id', n'⟩ := i
  obtain rfl : id' = id := hid
  have hn : n < (s.cells id').length := hh
  have hn' : n' < (s.cells id').length := hi
  have hle' : (s.cells id').length ≤ 1 := hle
  obtain rfl : n' = n := by omega
  rfl

/-- The objects of an identifier of this end increase only by an `Open` that takes it. -/
theorem own_cells_react {id : UInt32} (hreact : s.react e = some s') (howns : s.owns id = true) :
    (s'.cells id).length = (s.cells id).length ∨
      (s.opening e = true ∧ id = s.nextID ∧
        (s'.cells id).length = (s.cells id).length + 1) := by
  cases e with
  | act a =>
      rcases step_books hreact with hkeeps | ⟨⟨index, choice, payload, rfl, hcall⟩, hreg, -⟩
      · exact .inl (hkeeps.cells id)
      · obtain ⟨c, hcells⟩ := hreg.cells
        by_cases hid : id = s.nextID
        · refine .inr ⟨by simp only [Session.opening, hcall], hid, ?_⟩
          rw [hcells, hid, Function.update_self, List.length_append, List.length_singleton]
        · rw [hcells, Function.update_of_ne hid]
          exact .inl rfl
  | frame f =>
      simp only [Session.react, Option.ite_none_right_eq_some] at hreact
      rcases read_books hreact.2 with hkeeps | ⟨-, hpeer, hreg, -⟩
      · exact .inl (hkeeps.cells id)
      · obtain ⟨c, hcells⟩ := hreg.cells
        have hid : id ≠ f.streamID := by
          intro heq
          rw [heq, hpeer] at howns
          cases howns
        rw [hcells, Function.update_of_ne hid]
        exact .inl rfl

/-- What waits for `AcceptStream` comes from the peer. -/
theorem peers_react (hreact : s.react e = some s')
    (hpeers : ∀ h ∈ s.waiting, s.owns h.id = false) :
    ∀ h ∈ s'.waiting, s'.owns h.id = false := by
  intro h hh
  rw [react_owns hreact]
  cases e with
  | act a => exact hpeers h ((moves_waiting (step_moves hreact)).subset hh)
  | frame f =>
      simp only [Session.react, Option.ite_none_right_eq_some] at hreact
      rcases read_waiting hreact.2 with ⟨hline, -⟩ | htakes
      · exact hpeers h (hline ▸ hh)
      · rw [htakes.waiting] at hh
        rcases List.mem_append.mp hh with hold | hnew
        · exact hpeers h hold
        · rw [List.mem_singleton.mp hnew]
          exact htakes.peer

theorem dropping_react (hreact : s.react e = some s')
    (hpeers : ∀ h ∈ s.waiting, s.owns h.id = false)
    (hdropping : ∀ h, s.reader = .serving h .dropping → s.owns h.id = false) :
    ∀ h, s'.reader = .serving h .dropping → s'.owns h.id = false := by
  intro h hdrops
  rw [react_owns hreact]
  cases e with
  | act a =>
      by_cases hbefore : s.reader = .serving h .dropping
      · exact hdropping h hbefore
      · obtain ⟨hqueueing, -⟩ := moves_dropping (step_moves hreact) hbefore hdrops
        refine hpeers h (List.mem_append_right _ ?_)
        rw [hqueueing]
        exact List.mem_singleton_self h
  | frame f =>
      simp only [Session.react, Option.ite_none_right_eq_some] at hreact
      obtain ⟨hidle, hreads⟩ := read_reads hreact.2
      exact absurd hdrops (reads_not_dropping hidle hreads)

/-- The new handle of an `Open` has an identifier that was not used. -/
theorem fresh_not_has (hfresh : s.cells s.nextID = []) {i : Handle} (hid : i.id = s.nextID) :
    ¬ s.Has i := by
  intro hhas
  rw [Session.Has, hid, hfresh] at hhas
  exact Nat.not_lt_zero _ hhas

theorem own_books_react (hs : s.OwnBooks)
    (hstep : restrict answersInTurn Session.react s e = some s') : s'.OwnBooks := by
  obtain ⟨hguard, hreact⟩ := restrict_eq_some.mp hstep
  have howns := react_owns hreact
  obtain ⟨hhas, -⟩ := has_books (react_books hreact)
  refine ⟨parity_react hreact hs.parity,
    rooted_kept hs.rooted (react_books hreact) (react_kind hreact), ?_, ?_,
    peers_react hreact hs.peers, dropping_react hreact hs.peers hs.dropping, ?_, ?_⟩
  · intro id hid
    rw [howns] at hid
    rcases own_cells_react hreact hid with hsame | ⟨hopens, rfl, hmore⟩
    · rw [hsame]
      exact hs.single id hid
    · rw [hmore, opening_fresh hguard hopens]
      exact Nat.le_refl 1
  · intro h hmem
    rw [howns]
    rcases pending_react hreact hmem with hold | ⟨rfl, -, hnew⟩
    · exact ⟨(hs.pending h hold).1, hhas h (hs.pending h hold).2⟩
    · exact ⟨hs.parity, hnew⟩
  · intro id hsent
    rcases sent_react hreact id with hsame | ⟨-, index, choice, i, payload, -, hcall, rfl⟩
    · exact hhas _ (hs.used id (hsame ▸ hsent))
    · have hi := hs.rooted.calls i _ (List.mem_of_getElem? hcall)
      exact hhas _ (Nat.lt_of_le_of_lt (Nat.zero_le _) hi)
  · intro id hcloses hid
    rw [howns] at hid
    rcases closes_react hreact hcloses with hbefore | ⟨reason, hanswers⟩
    · obtain ⟨hused, hnone⟩ := hs.closing id hbefore hid
      refine ⟨hhas _ hused, ?_⟩
      intro h hmem
      rcases pending_react hreact hmem with hold | ⟨rfl, hopens, -⟩
      · exact hnone h hold
      · intro heq
        exact fresh_not_has (opening_fresh hguard hopens) heq.symm hused
    · -- The frame has just been read: `completeOpen` has answered whoever was waiting.
      refine ⟨hhas _ (hs.used id (answered_sent hguard hanswers hid)), ?_⟩
      intro h hmem
      cases e with
      | act a => exact hanswers.elim
      | frame f =>
          simp only [Session.react, Option.ite_none_right_eq_some] at hreact
          rw [(read_answered hreact.2 hanswers).1] at hmem
          exact complete_open_clears hmem

/-- Whoever is pending under an identifier gets the answer to it. -/
theorem answered_acked {reason : Reason} (hs : s.OwnBooks) (hreact : s.react e = some s')
    (hmem : h ∈ s.pending) (hanswers : s.answers h.id reason e) : s'.ackFor h ≠ none := by
  cases e with
  | act a => exact hanswers.elim
  | frame f =>
      simp only [Session.react, Option.ite_none_right_eq_some] at hreact
      have hfind : s.pending.find? (fun i => i.id = h.id) = some h := by
        obtain ⟨i, hi⟩ := Option.isSome_iff_exists.mp
          (List.find?_isSome (p := fun i : Handle => decide (i.id = h.id)).mpr
            ⟨h, hmem, decide_eq_true rfl⟩)
        have hid : i.id = h.id := by simpa using List.find?_some hi
        obtain ⟨howns, hhas⟩ := hs.pending h hmem
        rw [hi, hs.unique howns hhas (hs.pending i (List.mem_of_find?_eq_some hi)).2 hid]
      rw [ack_congr (read_answered hreact.2 hanswers).2, complete_open_ack, if_pos hfind]
      cases s.ackFor h <;> simp

theorem Op.Awaits.opening {op : Op} (hop : op.Awaits) : op.Opening := by
  cases op <;> first | exact hop | exact trivial

theorem start_not_opening {op : Op} {c c' : Cell} (hop : op.start c = some c') : ¬ op.Opening := by
  unfold Op.start at hop
  split at hop <;> first | exact fun h => h | cases hop

/-- An operation does not become an `Open`. -/
theorem turn_opening {lim : Limits} {done : Bool} {ack : Option Reason} {c : Cell} {op : Op}
    {turn : Turn} (hturn : OpStep lim done ack c op turn) :
    (turn.op.Opening → op.Opening) ∧ (turn.op.Awaits → op.Awaits) := by
  cases hturn with
  | readBytes length hread => split_ifs <;> exact ⟨fun h => h, fun h => h⟩
  | _ => exact ⟨by simp [Op.Opening], by simp [Op.Awaits]⟩

theorem not_has_next_handle (id : UInt32) : ¬ s.Has (s.nextHandle id) := Nat.lt_irrefl _

/-- The application holds no stream whose `Open` has not returned it. -/
theorem Session.Callers.not_held (hc : s.Callers) {i : Nat} {op : Op}
    (hcall : s.calls[i]? = some (.stream h op)) (hopening : op.Opening) : s.holds h = false := by
  by_contra hheld
  obtain ⟨call, hmem, hheld⟩ := List.any_eq_true.mp (Bool.not_eq_false _ ▸ hheld)
  obtain ⟨j, hj⟩ := List.mem_iff_getElem?.mp hmem
  rcases of_decide_eq_true hheld with rfl | rfl <;>
  · obtain rfl := hc.lone hcall hopening hj
    rw [hcall] at hj
    cases hj
    exact hopening

/-- A waiting `Open` loses its entry in the pending map to the end of the session, and to no call
that retires an identifier. -/
theorem awaiting_retired {i : Nat} {op : Op} (hs : s.OwnBooks) (hc : s.Callers)
    (hcall : s.calls[i]? = some (.stream h op)) (hawaits : op.Awaits) (hmem : h ∈ s.pending)
    (hretires : s.retires h.id e = true) :
    ∃ choice reason, e = .act (.endStep choice) ∧ s.ending = .collecting reason := by
  obtain ⟨howns, hhas⟩ := hs.pending h hmem
  -- A call on a stream with this identifier is this call.
  have hsame : ∀ {index : Nat} {j : Handle} {op' : Op},
      s.calls[index]? = some (.stream j op') → j.id = h.id → op' = op := by
    intro index j op' hj hid
    obtain rfl := hs.unique howns hhas (hs.rooted.calls j op' (List.mem_of_getElem? hj)) hid
    obtain rfl := hc.lone hcall hawaits.opening hj
    rw [hcall] at hj
    cases hj
    rfl
  cases e with
  | frame f => cases hretires
  | act a =>
      cases a with
      | advance index choice =>
          simp only [Session.retires] at hretires
          split at hretires
          next j error hj =>
            obtain rfl := hsame hj (of_decide_eq_true hretires)
            exact hawaits.elim
          next j failed hj =>
            obtain rfl := hsame hj (of_decide_eq_true hretires)
            exact hawaits.elim
          next j failed hj =>
            have hid := (Bool.and_eq_true_iff.mp hretires).1
            obtain rfl := hsame hj (of_decide_eq_true hid)
            exact hawaits.elim
          · cases hretires
      | dispatch =>
          simp only [Session.retires] at hretires
          split at hretires
          next j hreader =>
            rw [← of_decide_eq_true hretires, hs.dropping j hreader] at howns
            cases howns
          next j hreader =>
            have hid := of_decide_eq_true (Bool.and_eq_true_iff.mp hretires).1
            have hcloses : s.reader.closes = some h.id := by
              rw [hreader, ← hid]
              rfl
            exact absurd rfl ((hs.closing h.id hcloses howns).2 h hmem)
          · cases hretires
      | endStep choice =>
          simp only [Session.retires] at hretires
          split at hretires
          next reason hending => exact ⟨choice, reason, rfl, hending⟩
          · cases hretires
      | _ => cases hretires

theorem owned_react (hs : s.OwnBooks) (hc : s.Callers) (hreact : s.react e = some s') :
    ∀ h op, .stream h op ∈ s'.calls → op.Opening → s'.owns h.id = true := by
  intro h op hmem hopening
  rw [react_owns hreact]
  obtain ⟨i, hi⟩ := List.mem_iff_getElem?.mp hmem
  cases call_origin hreact hi with
  | kept hcall => exact hc.owned h op (List.mem_of_getElem? hcall) hopening
  | started hholds hop => exact absurd hopening (start_not_opening hop)
  | opened hevent hopens hh hpending =>
      rw [hh]
      exact hs.parity
  | accepted hh => exact hopening.elim
  | turned hevent hcall hop =>
      have hturn := op_step_cases hop
      exact hc.owned h _ (List.mem_of_getElem? hcall) ((turn_opening hturn).1 hopening)

/-- An `Open` that was there is the only call on its stream, and no new call is on it. -/
theorem old_open_lone {i j : Nat} {op₀ op' : Op} (hs : s.OwnBooks) (hc : s.Callers)
    (hreact : s.react e = some s') (hcall : s.calls[i]? = some (.stream h op₀))
    (hopening : op₀.Opening) (hj : s'.calls[j]? = some (.stream h op')) : i = j := by
  have hhas := hs.rooted.calls h op₀ (List.mem_of_getElem? hcall)
  cases call_origin hreact hj with
  | kept hcall' => exact hc.lone hcall hopening hcall'
  | started hholds hop =>
      rw [hc.not_held hcall hopening] at hholds
      cases hholds
  | opened hevent hopens hh hpending =>
      rw [hh] at hhas
      exact absurd hhas (not_has_next_handle _)
  | accepted hh =>
      have howns := hc.owned h op₀ (List.mem_of_getElem? hcall) hopening
      rw [hs.peers h (List.mem_append_left _ hh)] at howns
      cases howns
  | turned hevent hcall' hop => exact hc.lone hcall hopening hcall'

/-- On a stream that did not exist there is no call but the `Open` that creates it. -/
theorem new_open_lone {i j : Nat} {op' : Op} {choice : Choice} (hs : s.OwnBooks)
    (hreact : s.react e = some s') (hevent : e = .act (.advance i choice)) (hnew : ¬ s.Has h)
    (hj : s'.calls[j]? = some (.stream h op')) : i = j := by
  cases call_origin hreact hj with
  | kept hcall => exact absurd (hs.rooted.calls h _ (List.mem_of_getElem? hcall)) hnew
  | started hholds hop =>
      obtain ⟨call, hmem, hheld⟩ := List.any_eq_true.mp hholds
      rcases of_decide_eq_true hheld with rfl | rfl <;>
        exact absurd (hs.rooted.calls h _ hmem) hnew
  | opened hevent' hopens hh hpending =>
      rw [hevent] at hevent'
      cases hevent'
      rfl
  | accepted hh => exact absurd (hs.rooted.queue h hh) hnew
  | turned hevent' hcall hop =>
      exact absurd (hs.rooted.calls h _ (List.mem_of_getElem? hcall)) hnew

theorem lone_react {i j : Nat} {op op' : Op} (hs : s.OwnBooks) (hc : s.Callers)
    (hreact : s.react e = some s') (hi : s'.calls[i]? = some (.stream h op))
    (hopening : op.Opening) (hj : s'.calls[j]? = some (.stream h op')) : i = j := by
  cases call_origin hreact hi with
  | kept hcall => exact old_open_lone hs hc hreact hcall hopening hj
  | started hholds hop => exact absurd hopening (start_not_opening hop)
  | accepted hh => exact hopening.elim
  | turned hevent hcall hop =>
      have hturn := op_step_cases hop
      exact old_open_lone hs hc hreact hcall ((turn_opening hturn).1 hopening) hj
  | opened hevent hopens hh hpending =>
      refine new_open_lone hs hreact hevent ?_ hj
      rw [hh]
      exact not_has_next_handle _

/-- A waiting `Open` stays pending until it can return. -/
theorem old_open_waits {i : Nat} {op₀ : Op} (hs : s.OwnBooks) (hc : s.Callers)
    (hguard : answersInTurn s e = true) (hreact : s.react e = some s')
    (hcall : s.calls[i]? = some (.stream h op₀)) (hawaits : op₀.Awaits) :
    h ∈ s'.pending ∨ s'.Freed h := by
  rcases hc.waits h op₀ (List.mem_of_getElem? hcall) hawaits with hpending | hfreed
  · rcases pending_kept hreact hpending with hstays | hretires | ⟨hopens, hid⟩ |
      ⟨reason, hanswers⟩
    · exact .inl hstays
    · obtain ⟨choice, reason, rfl, hending⟩ :=
        awaiting_retired hs hc hcall hawaits hpending hretires
      simp only [Session.react, Session.step, Session.endStep, hending,
        Option.some.injEq] at hreact
      subst hreact
      exact .inr (.inr (.inl hpending))
    · exact absurd (hs.pending h hpending).2 (fresh_not_has (opening_fresh hguard hopens) hid)
    · exact .inr (.inl (answered_acked hs hreact hpending hanswers))
  · exact .inr (freed_react hreact hfreed)

theorem callers_react (hs : s.OwnBooks) (hc : s.Callers)
    (hstep : restrict answersInTurn Session.react s e = some s') : s'.Callers := by
  obtain ⟨hguard, hreact⟩ := restrict_eq_some.mp hstep
  refine ⟨owned_react hs hc hreact, lone_react hs hc hreact, ?_⟩
  intro h op hmem hawaits
  obtain ⟨i, hi⟩ := List.mem_iff_getElem?.mp hmem
  cases call_origin hreact hi with
  | kept hcall => exact old_open_waits hs hc hguard hreact hcall hawaits
  | started hholds hop => exact absurd hawaits.opening (start_not_opening hop)
  | opened hevent hopens hh hpending => exact .inl hpending
  | accepted hh => exact hawaits.elim
  | turned hevent hcall hop =>
      have hturn := op_step_cases hop
      exact old_open_waits hs hc hguard hreact hcall ((turn_opening hturn).2 hawaits)

/-- `Open` has succeeded before, or takes an ok off its channel. -/
theorem opened_origin (hreact : s.react e = some s') (hmem : .stream h .opened ∈ s'.calls) :
    .stream h .opened ∈ s.calls ∨ s.ackFor h = some reasonOK := by
  obtain ⟨index, hcall⟩ := List.mem_iff_getElem?.mp hmem
  have horigin := call_origin hreact hcall
  generalize hop : Op.opened = op at horigin
  cases horigin with
  | kept hcall₀ =>
      subst hop
      exact .inl (List.mem_of_getElem? hcall₀)
  | started hholds hstart =>
      subst hop
      cases hstart
  | opened => cases hop
  | accepted => cases hop
  | turned hevent hcall₀ hstep =>
      cases op_step_cases hstep with
      | acked hack => exact .inr hack
      | readBytes length hread => split_ifs at hop
      | _ => cases hop

/-- The reason for which a session ends stays the same. -/
theorem ending_reason_kept {reason : Reason} (hreact : s.react e = some s')
    (hreason : s.ending.reason = some reason) : s'.ending.reason = some reason := by
  rcases react_cases hreact with ⟨a, rfl, hmoves⟩ | ⟨f, rfl, -, -, hreads⟩
  · rcases ending_moves hmoves with hsame | ⟨hlive, -⟩
    · exact hsame.trans hreason
    · rw [hlive] at hreason
      cases hreason
  · rw [(reads_ending hreads).1]
    exact hreason

theorem to_answer_reason (hmem : h ∈ s.ending.toAnswer) :
    ∃ reason, s.ending.reason = some reason := by
  cases hending : s.ending with
  | killing reason streams pending => exact ⟨reason, rfl⟩
  | notifying reason pending => exact ⟨reason, rfl⟩
  | _ =>
      rw [hending] at hmem
      exact absurd hmem List.not_mem_nil

/-- `closeOnce` never sends a reason for which it has not taken the pending map. -/
theorem to_answer_other {reason : Reason}
    (hother : ∀ h ∈ s.ending.toAnswer, s.ending.reason ≠ some reason)
    (hreact : s.react e = some s')
    (hcollect : ∀ choice r h, e = .act (.endStep choice) → s.ending = .collecting r →
      h ∈ s.pending → r ≠ reason) :
    ∀ h ∈ s'.ending.toAnswer, s'.ending.reason ≠ some reason := by
  intro h hmem
  rcases to_answer_from hreact hmem with hold | ⟨choice, r, rfl, hending, hpending⟩
  · obtain ⟨r, hr⟩ := to_answer_reason hold
    rw [ending_reason_kept hreact hr, ← hr]
    exact hother h hold
  · have hr : s.ending.reason = some r := by
      rw [hending]
      rfl
    rw [ending_reason_kept hreact hr]
    exact fun heq => hcollect choice r h rfl hending hpending (Option.some.inj heq)

/-- A reason that `closeOnce` does not send is in a channel because the peer has given it as its
answer. -/
theorem answer_from_peer {reason : Reason} (hs : s.OwnBooks) (hguard : answersInTurn s e = true)
    (hreact : s.react e = some s')
    (hother : ∀ h ∈ s.ending.toAnswer, s.ending.reason ≠ some reason)
    (hack : s'.ackFor h = some reason) :
    s.ackFor h = some reason ∨ (s.sent h.id = true ∧ s.answers h.id reason e) := by
  cases hold : s.ackFor h with
  | some r =>
      rw [ack_kept hreact hold] at hack
      exact .inl hack
  | none =>
      right
      rcases ack_new hreact hold hack with ⟨hpending, hanswers⟩ | ⟨choice, rest, rfl, hending⟩
      · exact ⟨answered_sent hguard hanswers (hs.pending h hpending).1, hanswers⟩
      · rw [hending] at hother
        exact absurd rfl (hother h List.mem_cons_self)

end Books

section Run

variable {isClient : Bool} {ack : HelloAck} {events : List Event} {s s' : Session} {e : Event}

theorem own_books_new_session (isClient : Bool) (ack : HelloAck) :
    (newSession isClient ack).OwnBooks := by
  have hnone : ∀ {h : Handle} {p : Prop}, h ∈ ([] : List Handle) → p :=
    fun hmem => absurd hmem List.not_mem_nil
  refine ⟨(tidy_new_session isClient ack).parity, ⟨?_, fun _ => hnone⟩, fun _ _ => Nat.zero_le 1,
    fun _ => hnone, fun _ => hnone, ?_, ?_, ?_⟩
  · intro h op hmem
    exact absurd hmem List.not_mem_nil
  · intro h hreader
    cases hreader
  · intro id hsent
    cases hsent
  · intro id hcloses
    cases hcloses

theorem callers_new_session (isClient : Bool) (ack : HelloAck) :
    (newSession isClient ack).Callers := by
  refine ⟨?_, ?_, ?_⟩
  · intro h op hmem
    exact absurd hmem List.not_mem_nil
  · intro i j h op op' hi
    cases hi
  · intro h op hmem
    exact absurd hmem List.not_mem_nil

/-- What a run keeps in which answers come in turn. -/
theorem in_turn_run
    (hrun : run (restrict answersInTurn Session.react) (newSession isClient ack) events = some s) :
    s.OwnBooks ∧ s.Callers ∧ ∀ h ∈ s.ending.toAnswer, s.ending.reason ≠ some reasonOK := by
  have hkept : ∀ {t t' : Session} {e : Event},
      (t.OwnBooks ∧ t.Callers ∧ ∀ h ∈ t.ending.toAnswer, t.ending.reason ≠ some reasonOK) →
      restrict answersInTurn Session.react t e = some t' →
      t'.OwnBooks ∧ t'.Callers ∧ ∀ h ∈ t'.ending.toAnswer, t'.ending.reason ≠ some reasonOK := by
    intro t t' e ht hstep
    obtain ⟨hguard, hreact⟩ := restrict_eq_some.mp hstep
    refine ⟨own_books_react ht.1 hstep, callers_react ht.1 ht.2.1 hstep,
      to_answer_other ht.2.2 hreact ?_⟩
    intro choice r h hevent hending hpending
    subst hevent
    exact collecting_not_ok hguard hending hpending
  exact run_invariant hkept ⟨own_books_new_session isClient ack, callers_new_session isClient ack,
    fun _ hmem => absurd hmem List.not_mem_nil⟩ hrun

/-- One more step, from a state that a run with answers in turn has reached. -/
theorem remembers_react
    (hrun : run (restrict answersInTurn Session.react) (newSession isClient ack) events = some s)
    (hr : Remembers (newSession isClient ack) events s)
    (hstep : restrict answersInTurn Session.react s e = some s') :
    Remembers (newSession isClient ack) (events ++ [e]) s' := by
  obtain ⟨hguard, hreact⟩ := restrict_eq_some.mp hstep
  obtain ⟨hbooks, hcallers, hok⟩ := in_turn_run hrun
  have hconcat : ∀ {p : Session → Event → Prop},
      happened Session.react (newSession isClient ack) p (events ++ [e]) ↔
        happened Session.react (newSession isClient ack) p events ∨ p s e :=
    happened_concat (run_of_restrict hrun)
  have hsent : ∀ {id : UInt32}, s.sent id = true → s'.sent id = true := by
    intro id hid
    rcases sent_react hreact id with hsame | ⟨hnew, -⟩
    · exact hsame.trans hid
    · exact hnew
  refine ⟨?_, ?_, ?_, ?_⟩
  · intro h hack
    refine hconcat.mpr ?_
    exact (answer_from_peer hbooks hguard hreact hok hack).imp_left (hr.acked h)
  · intro h hmem
    refine hconcat.mpr (.inl ?_)
    rcases opened_origin hreact hmem with hold | hack
    · exact hr.opened h hold
    · exact hr.acked h hack
  · intro id hanswered
    rcases hconcat.mp hanswered with hbefore | ⟨hnow, -⟩
    · exact hsent (hr.sent id hbefore)
    · exact hsent hnow
  · intro h op hmem hawaits hanswered
    obtain ⟨index, hcall⟩ := List.mem_iff_getElem?.mp hmem
    have hold : ∀ {op₀ : Op}, s.calls[index]? = some (.stream h op₀) → op₀.Awaits →
        s'.Freed h := by
      intro op₀ hcall₀ hawaits₀
      have hmem₀ := List.mem_of_getElem? hcall₀
      rcases hconcat.mp hanswered with hbefore | ⟨-, reason, hanswers⟩
      · exact freed_react hreact (hr.freed h op₀ hmem₀ hawaits₀ hbefore)
      · rcases hcallers.waits h op₀ hmem₀ hawaits₀ with hpending | hfreed
        · exact .inl (answered_acked hbooks hreact hpending hanswers)
        · exact freed_react hreact hfreed
    cases call_origin hreact hcall with
    | kept hcall₀ => exact hold hcall₀ hawaits
    | started hholds hop => exact absurd hawaits.opening (start_not_opening hop)
    | accepted hh => exact hawaits.elim
    | turned hevent hcall₀ hop =>
        exact hold hcall₀ ((turn_opening (op_step_cases hop)).2 hawaits)
    | opened hevent hopens hh hpending =>
        -- An identifier that has been answered has been sent, and is not new.
        have hused : s.Has ⟨h.id, 0⟩ := by
          refine hbooks.used h.id ?_
          rcases hconcat.mp hanswered with hbefore | ⟨hnow, -⟩
          · exact hr.sent h.id hbefore
          · exact hnow
        have hid : h.id = s.nextID := by
          rw [hh]
          rfl
        exact absurd hused (fresh_not_has (opening_fresh hguard hopens) hid)

theorem remembers_run
    (hrun : run (restrict answersInTurn Session.react) (newSession isClient ack) events = some s) :
    Remembers (newSession isClient ack) events s := by
  refine run_history ?_ remembers_react hrun
  refine ⟨?_, ?_, fun _ h => absurd h not_happened_nil, fun _ _ hmem => ?_⟩
  · intro h hack
    cases hack
  · intro h hmem
    exact absurd hmem List.not_mem_nil
  · exact absurd hmem List.not_mem_nil

end Run

section Release

variable {s s' : Session} {h : Handle} {index : Nat}

/-- The steps of `closeOnce` leave the calls alone. -/
theorem end_steps_calls {n : Nat}
    (hrun : run Session.react s (List.replicate n (.act (.endStep 0))) = some s') :
    s'.calls = s.calls := by
  induction n generalizing s with
  | zero =>
      cases hrun
      rfl
  | succ n ih =>
      rw [List.replicate_succ, run_cons, Option.bind_eq_some_iff] at hrun
      obtain ⟨t, hreact, hrest⟩ := hrun
      have hcalls : t.calls = s.calls := by
        cases step_moves (show s.step (.endStep 0) = some t from hreact) with
        | _ => rfl
      exact (ih hrest).trans hcalls

/-- The `select` of `Open`, with the case it takes. -/
theorem await_step {c : Cell} (choice : Choice) (op : Op)
    (hcall : s.calls[index]? = some (.stream h .awaitAck)) (hcell : s.cell h = some c)
    (hop : Op.step s.limits s.done (s.ackFor h) c choice .awaitAck = some ⟨c, op, .silent⟩) :
    ∃ s₂, s.react (.act (.advance index choice)) = some s₂ ∧
      s₂.calls[index]? = some (.stream h op) := by
  have hlt : index < s.calls.length := (List.getElem?_eq_some_iff.mp hcall).1
  refine ⟨{ s.setCell h c with calls := s.calls.set index (.stream h op) }, ?_, ?_⟩
  · simp [Session.react, Session.step, hcall, Session.callStep, hcell, hop, Session.perform]
  · exact List.getElem?_set_self hlt

/-- An `Open` that has an answer, or waits in a session that is done, takes its next step. -/
theorem await_enabled (hhas : s.Has h) (hcall : s.calls[index]? = some (.stream h .awaitAck))
    (hready : s.ackFor h ≠ none ∨ s.done = true) :
    ∃ choice s₂ op, choice ≠ .cancelled ∧ s.react (.act (.advance index choice)) = some s₂ ∧
      s₂.calls[index]? = some (.stream h op) ∧ op ≠ .awaitAck := by
  obtain ⟨c, hcell⟩ := cell_of_has hhas
  rcases hready with hack | hdone
  · obtain ⟨reason, hreason⟩ := Option.ne_none_iff_exists'.mp hack
    obtain ⟨s₂, hreact, hnext⟩ := await_step .value
      (if reason = reasonOK then .opened else .retireOpen (.refused reason)) hcall hcell
      (by rw [Op.step, hreason]; rfl)
    refine ⟨.value, s₂, _, by decide, hreact, hnext, ?_⟩
    split_ifs <;> simp
  · obtain ⟨s₂, hreact, hnext⟩ := await_step .sessionDone (.openFailed .sessionClosed) hcall hcell
      (by simp [Op.step, hdone])
    exact ⟨.sessionDone, s₂, _, by decide, hreact, hnext, by simp⟩

theorem Session.Freed.releases (hg : s.Grounded) (hhas : s.Has h)
    (hcall : s.calls[index]? = some (.stream h .awaitAck)) (hfreed : s.Freed h) :
    s.Releases index h := by
  have hnow : s.ackFor h ≠ none ∨ s.done = true → s.Releases index h := by
    intro hready
    obtain ⟨choice, s₂, op, hchoice, hreact, hnext, hop⟩ := await_enabled hhas hcall hready
    exact ⟨0, s, choice, s₂, op, rfl, hcall, hchoice, hreact, hnext, hop⟩
  rcases hfreed with hack | hmem | hdone
  · exact hnow (.inl hack)
  · -- `closeOnce` runs to its end, and then the session is done.
    obtain ⟨reason, hreason⟩ := to_answer_reason hmem
    obtain ⟨n, s₁, hrun, hdone, -⟩ := ending_completes hg hreason
    have hhas₁ : s₁.Has h :=
      run_invariant (fun ht hreact => (has_books (react_books hreact)).1 h ht) hhas hrun
    have hcall₁ : s₁.calls[index]? = some (.stream h .awaitAck) := by
      rw [end_steps_calls hrun]
      exact hcall
    obtain ⟨choice, s₂, op, hchoice, hreact, hnext, hop⟩ :=
      await_enabled hhas₁ hcall₁ (.inr hdone)
    exact ⟨n, s₁, choice, s₂, op, hrun, hcall₁, hchoice, hreact, hnext, hop⟩
  · exact hnow (.inr hdone)

end Release

/-- In every state of every run in which `Open` takes no identifier twice, the peer answers only
what has been sent, and the session does not end with ok while an `Open` is pending: an `Open` that
has succeeded was acknowledged after its OPEN_STREAM had been sent; the channel of an `Open` keeps
the answer it has got, and gets it from a frame for its own identifier or from the end of the
session; and an `Open` whose answer was dispatched, or whose session has ended, can return. -/
theorem open_succeeds_on_answer {isClient : Bool} {ack : HelloAck} {events : List Event}
    {s : Session}
    (hrun : run (restrict answersInTurn Session.react) (newSession isClient ack) events = some s) :
    (∀ h, .stream h .opened ∈ s.calls →
      happened Session.react (newSession isClient ack) (Session.Acknowledged h.id) events) ∧
    (∀ e s' h, s.react e = some s' →
      (∀ reason, s.ackFor h = some reason → s'.ackFor h = some reason) ∧
      ∀ reason, s.ackFor h = none → s'.ackFor h = some reason → s.AnswerFor h reason e) ∧
    ∀ index h, s.calls[index]? = some (.stream h .awaitAck) →
      happened Session.react (newSession isClient ack) (Session.Answered h.id) events ∨
        s.done = true →
      s.Releases index h := by
  have hremembers := remembers_run hrun
  obtain ⟨hbooks, -, -⟩ := in_turn_run hrun
  have hgrounded := (session_run (run_of_restrict hrun)).1
  refine ⟨hremembers.opened, ?_, ?_⟩
  · intro e s' h hreact
    exact ⟨fun reason => ack_kept hreact, fun reason => ack_new hreact⟩
  · intro index h hcall hcause
    have hmem := List.mem_of_getElem? hcall
    have hfreed : s.Freed h := by
      rcases hcause with hanswered | hdone
      · exact hremembers.freed h .awaitAck hmem trivial hanswered
      · exact .inr (.inr hdone)
    exact hfreed.releases hgrounded (hbooks.rooted.calls h .awaitAck hmem) hcall

/-- A client registers a stream and sends its OPEN_STREAM. -/
def openSent : List Event :=
  [.act (.start (.openStream [])), .act (.advance 0 .value), .act (.advance 0 .value)]

/-- The stream is opened on a STREAM_OK. -/
theorem acknowledged_open_succeeds : ∃ s,
    run (restrict answersInTurn Session.react) (newSession true oneStream)
      (openSent ++ [.frame ⟨.streamOK, 1, []⟩, .act (.advance 0 .value)]) = some s ∧
    .stream ⟨1, 0⟩ .opened ∈ s.calls ∧
    happened Session.react (newSession true oneStream) (Session.Acknowledged 1)
      (openSent ++ [.frame ⟨.streamOK, 1, []⟩, .act (.advance 0 .value)]) := by
  have hview : (run (restrict answersInTurn Session.react) (newSession true oneStream)
      (openSent ++ [.frame ⟨.streamOK, 1, []⟩, .act (.advance 0 .value)])).map
        (fun s => s.calls) = some [.stream ⟨1, 0⟩ .opened] := by
    decide +kernel
  obtain ⟨s, hrun, hcalls⟩ := Option.map_eq_some_iff.mp hview
  have hmem : .stream ⟨1, 0⟩ .opened ∈ s.calls := by
    rw [hcalls]
    exact List.mem_singleton_self _
  exact ⟨s, hrun, hmem, (open_succeeds_on_answer hrun).1 ⟨1, 0⟩ hmem⟩

/-- The peer ends the session with an ERROR frame that says ok. -/
def endedWithOK : List Event :=
  openSent ++ [.frame ⟨.error, 0, reasonOK⟩, .act .dispatch, .act (.endStep 0),
    .act (.endStep 0), .act (.endStep 0), .act (.endStep 0), .act (.advance 0 .value)]

/-- `closeOnce` sends that ok to the channel of the `Open`, which succeeds: nobody has acknowledged
the stream. -/
theorem error_frame_opens : ∃ s,
    run Session.react (newSession true oneStream) endedWithOK = some s ∧
    .stream ⟨1, 0⟩ .opened ∈ s.calls ∧
    ¬ happened Session.react (newSession true oneStream) (Session.Acknowledged 1) endedWithOK := by
  have hview : (run Session.react (newSession true oneStream) endedWithOK).map
      (fun s => s.calls) = some [.stream ⟨1, 0⟩ .opened] := by
    decide +kernel
  obtain ⟨s, hrun, hcalls⟩ := Option.map_eq_some_iff.mp hview
  refine ⟨s, hrun, ?_, ?_⟩
  · rw [hcalls]
    exact List.mem_singleton_self _
  · intro hhappened
    obtain ⟨before, e, after, t, heq, -, -, hanswers⟩ := hhappened
    have hmem : e ∈ endedWithOK := by simp [heq]
    cases e with
    | act a => exact hanswers.elim
    | frame f =>
        obtain rfl : f = ⟨.error, 0, reasonOK⟩ := by simpa [endedWithOK, openSent] using hmem
        obtain ⟨-, hanswer, -⟩ := hanswers
        cases hanswer

end AccessRelay.Mux
