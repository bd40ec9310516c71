import AccessRelay.Mux.Inbound

/-!
# One stream object

What one event does to one stream object of a session. `Session.Touches` has a case for each
critical section of the stream's mutex, with the thread that runs it, and `react_touches` says that
there are no others. No assumption is made on identifiers: two objects of one identifier are two
objects here.
-/

namespace AccessRelay.Mux

open Encoding Proto

/-- What an event can do to the stream object `h`. -/
inductive Session.Touches (s : Session) (h : Handle) (c : Cell) : Event → Cell → Prop where
  | unchanged (e : Event) : Touches s h c e c
  | started {op : Op} {c' : Cell} (hop : op.start c = some c') :
      Touches s h c (.act (.start (.stream h op))) c'
  | turned (index : Nat) (choice : Choice) {op : Op} {turn : Turn}
      (hcall : s.calls[index]? = some (.stream h op))
      (hturn : OpStep s.limits s.done (s.ackFor h) c op turn) :
      Touches s h c (.act (.advance index choice)) turn.cell
  | delivered {payload : Bytes} {st : Stream}
      (hreader : s.reader = .serving h (.delivering payload))
      (hdeliver : c.stream.deliver payload = some st) :
      Touches s h c (.act .dispatch) { c with stream := st }
  | granted {credit : UInt32} (hreader : s.reader = .serving h (.granting credit)) :
      Touches s h c (.act .dispatch) { c with stream := c.stream.grantCredit credit }
  | closed {reason : Reason} (hreader : s.reader = .serving h (.closing reason)) :
      Touches s h c (.act .dispatch) { c with stream := c.stream.remoteClose reason }
  | killed (choice : Nat) {reason : Reason} {streams pending : List Handle}
      (hending : s.ending = .killing reason streams pending) (hh : streams[choice]? = some h) :
      Touches s h c (.act (.endStep choice)) { c with stream := c.stream.kill reason }

section Updates

variable {s : Session} {h i : Handle} {c : Cell}

theorem cell_set_cell_ne (d : Cell) (hne : h ≠ i) : (s.setCell i d).cell h = s.cell h := by
  by_cases hid : h.id = i.id
  · have hnth : i.nth ≠ h.nth := by
      intro heq
      cases h
      cases i
      cases hid
      cases heq
      exact hne rfl
    simp [Session.setCell, Session.cell, hid, List.getElem?_set_ne hnth]
  · simp [Session.setCell, Session.cell, Function.update_of_ne hid]

theorem cell_set_cell_self (d : Cell) (hcell : s.cell h = some c) :
    (s.setCell h d).cell h = some d := by
  obtain ⟨hlt, -⟩ := List.getElem?_eq_some_iff.mp hcell
  simp [Session.setCell, Session.cell, hlt]

/-- An object is replaced, or it is another one that is. -/
theorem cell_set_cell (i : Handle) (d : Cell) (hcell : s.cell h = some c) :
    (i = h ∧ (s.setCell i d).cell h = some d) ∨ (s.setCell i d).cell h = some c := by
  by_cases hi : h = i
  · subst hi
    exact .inl ⟨rfl, cell_set_cell_self d hcell⟩
  · exact .inr ((cell_set_cell_ne d hi).trans hcell)

theorem cell_register (st : Stream) (hcell : s.cell h = some c) :
    (s.register st).cell h = some c := by
  obtain ⟨hlt, hget⟩ := List.getElem?_eq_some_iff.mp hcell
  by_cases hid : h.id = st.id
  · simp only [Session.register, Session.cell, ← hid, Function.update_self]
    rw [List.getElem?_append_left hlt]
    exact hcell
  · simp only [Session.register, Session.cell, Function.update_of_ne hid]
    exact hcell

/-- The objects are a function of the table of objects. -/
theorem cell_congr {s' : Session} (hcells : s'.cells = s.cells) (h : Handle) :
    s'.cell h = s.cell h := by
  rw [Session.cell, Session.cell, hcells]

theorem serve_cells (id : UInt32) (task : Task) : (s.serve id task).cells = s.cells := by
  unfold Session.serve
  split <;> rfl

end Updates

section Touches

variable {s s' : Session} {h : Handle} {c : Cell}

/-- The read loop with a stream. -/
theorem serve_step_touches {i : Handle} {d : Cell} {task : Task}
    (hreader : s.reader = .serving i task) (hd : s.cell i = some d) (hcell : s.cell h = some c) :
    ∃ c', (s.serveStep i d task).cell h = some c' ∧ s.Touches h c (.act .dispatch) c' := by
  -- The object the loop works on is `h`, or `h` is left alone.
  have hset : ∀ (d' : Cell) (t : Session), t.cells = (s.setCell i d').cells →
      (i = h → s.Touches h c (.act .dispatch) d') →
      ∃ c', t.cell h = some c' ∧ s.Touches h c (.act .dispatch) c' := by
    intro d' t hcells htouch
    rcases cell_set_cell i d' hcell with ⟨rfl, hself⟩ | hother
    · exact ⟨d', (cell_congr hcells i).trans hself, htouch rfl⟩
    · exact ⟨c, (cell_congr hcells h).trans hother, .unchanged _⟩
  have hsame : ∀ t : Session, t.cells = s.cells →
      ∃ c', t.cell h = some c' ∧ s.Touches h c (.act .dispatch) c' :=
    fun t hcells => ⟨c, (cell_congr hcells h).trans hcell, .unchanged _⟩
  have hd_eq : i = h → d = c := by
    intro heq
    subst heq
    rw [hcell, Option.some.injEq] at hd
    exact hd.symm
  cases task with
  | acking => exact hsame _ (reply_cells ..)
  | queueing =>
      simp only [Session.serveStep]
      split_ifs <;> exact hsame _ rfl
  | dropping => exact hsame _ rfl
  | delivering payload =>
      simp only [Session.serveStep]
      cases hdeliver : d.stream.deliver payload with
      | none => exact hsame _ rfl
      | some st =>
          refine hset { d with stream := st } _ rfl ?_
          intro heq
          obtain rfl := hd_eq heq
          subst heq
          exact .delivered hreader hdeliver
  | granting credit =>
      refine hset { d with stream := d.stream.grantCredit credit } _ rfl ?_
      intro heq
      obtain rfl := hd_eq heq
      subst heq
      exact .granted hreader
  | closing reason =>
      refine hset { d with stream := d.stream.remoteClose reason } _ rfl ?_
      intro heq
      obtain rfl := hd_eq heq
      subst heq
      exact .closed hreader
  | retiring =>
      simp only [Session.serveStep]
      split_ifs <;> exact hsame _ rfl

/-- A step of the session by itself. -/
theorem moves_touches {a : Action} (hmoves : s.Moves a s') (hcell : s.cell h = some c) :
    ∃ c', s'.cell h = some c' ∧ s.Touches h c (.act a) c' := by
  have hsame : s'.cells = s.cells → ∃ c', s'.cell h = some c' ∧ s.Touches h c (.act a) c' :=
    fun hcells => ⟨c, (cell_congr hcells h).trans hcell, .unchanged _⟩
  cases hmoves with
  | @started i op d d' hholds hd hop =>
      rcases cell_set_cell i d' hcell with ⟨rfl, hself⟩ | hother
      · rw [hcell, Option.some.injEq] at hd
        subst hd
        exact ⟨d', hself, .started hop⟩
      · exact ⟨c, hother, .unchanged _⟩
  | opened index choice payload hcall hdone => exact ⟨c, cell_register _ hcell, .unchanged _⟩
  | @turned index choice i op d turn hcall hd hturn =>
      have hcells : { (s.setCell i turn.cell).perform i.id turn.effect with
          calls := s.calls.set index (.stream i turn.op) }.cells =
          (s.setCell i turn.cell).cells := perform_cells _ _
      rcases cell_set_cell i turn.cell hcell with ⟨rfl, hself⟩ | hother
      · rw [hcell, Option.some.injEq] at hd
        subst hd
        exact ⟨turn.cell, (cell_congr hcells i).trans hself, .turned index choice hcall hturn⟩
      · exact ⟨c, (cell_congr hcells h).trans hother, .unchanged _⟩
  | served hreader hd => exact serve_step_touches hreader hd hcell
  | refused hreader => exact hsame (reply_cells ..)
  | lookedUp hreader => exact hsame (serve_cells _ _)
  | ponged hreader => exact hsame (reply_cells ..)
  | @killed choice reason streams pending i d hending hh hd =>
      rcases cell_set_cell i { d with stream := d.stream.kill reason } hcell with
        ⟨rfl, hself⟩ | hother
      · rw [hcell, Option.some.injEq] at hd
        subst hd
        exact ⟨_, hself, .killed choice hending hh⟩
      · exact ⟨c, hother, .unchanged _⟩
  | _ => exact hsame rfl

/-- Every event leaves an object in place, and changes it only in one of these ways. -/
theorem react_touches {e : Event} (hreact : s.react e = some s') (hcell : s.cell h = some c) :
    ∃ c', s'.cell h = some c' ∧ s.Touches h c e c' := by
  rcases react_cases hreact with ⟨a, rfl, hmoves⟩ | ⟨f, rfl, -, -, hreads⟩
  · exact moves_touches hmoves hcell
  · have hsame : s'.cells = s.cells →
        ∃ c', s'.cell h = some c' ∧ s.Touches h c (.frame f) c' :=
      fun hcells => ⟨c, (cell_congr hcells h).trans hcell, .unchanged _⟩
    cases hreads with
    | registered htype hparity => exact ⟨c, cell_register _ hcell, .unchanged _⟩
    | answered htype => exact hsame (complete_open_cells _ _)
    | close htype hreason => exact hsame (complete_open_cells _ _)
    | _ => exact hsame rfl

/-- What has been closed or reset stays so. -/
theorem touches_grows {e : Event} {c' : Cell} (htouches : s.Touches h c e c') :
    c.stream.Grows c'.stream := by
  cases htouches with
  | unchanged => exact .rfl
  | started hop => exact (start_spec hop).1 ▸ .rfl
  | turned index choice hcall hturn => exact turn_grows hturn
  | delivered hreader hdeliver => exact deliver_grows hdeliver
  | granted hreader => exact grant_credit_grows _ _
  | closed hreader => exact remote_close_grows _ _
  | killed choice hending hh => exact kill_grows _ _

/-- An event creates no object, or one. -/
theorem react_creates {e : Event} (hreact : s.react e = some s') :
    (∀ id, (s'.cells id).length = (s.cells id).length) ∨
      ∃ id payload, s'.cells =
        (s.register { newStream id s.limits.window with openPayload := payload }).cells := by
  rcases react_cases hreact with ⟨a, rfl, hmoves⟩ | ⟨f, rfl, -, -, hreads⟩
  · cases hmoves with
    | opened index choice payload hcall hdone => exact .inr ⟨s.nextID, [], rfl⟩
    | started hholds hcell hop => exact .inl (keeps_set_cell _ _).cells
    | turned index choice hcall hcell hturn =>
        exact .inl ((keeps_set_cell _ _).trans (keeps_perform _ _)).cells
    | served hreader hcell => exact .inl (serve_step_keeps _ _ _).cells
    | refused hreader => exact .inl (reply_keeps ..).cells
    | lookedUp hreader => exact .inl (serve_keeps _ _).cells
    | ponged hreader => exact .inl (reply_keeps ..).cells
    | killed choice hending hh hcell => exact .inl (keeps_set_cell _ _).cells
    | _ => exact .inl fun _ => rfl
  · cases hreads with
    | registered htype hparity => exact .inr ⟨f.streamID, f.payload, rfl⟩
    | answered htype => exact .inl (keeps_complete_open _ _).cells
    | close htype hreason => exact .inl (keeps_complete_open _ _).cells
    | _ => exact .inl fun _ => rfl

/-- An object that was not there before the event is new. -/
theorem cell_born {e : Event} (hreact : s.react e = some s') (hold : s.cell h = none)
    (hcell : s'.cell h = some c) :
    ∃ payload, c = newCell { newStream h.id s.limits.window with openPayload := payload } := by
  have hout : (s.cells h.id).length ≤ h.nth := List.getElem?_eq_none_iff.mp hold
  have hin : h.nth < (s'.cells h.id).length := (List.getElem?_eq_some_iff.mp hcell).1
  rcases react_creates hreact with hsame | ⟨id, payload, hcells⟩
  · rw [hsame] at hin
    omega
  · by_cases hid : h.id = id
    · subst hid
      have hlist : s'.cells h.id = s.cells h.id ++
          [newCell { newStream h.id s.limits.window with openPayload := payload }] := by
        rw [hcells]
        exact Function.update_self ..
      rw [Session.cell, hlist, List.getElem?_append_right hout] at hcell
      exact ⟨payload, List.mem_singleton.mp (List.mem_of_getElem? hcell)⟩
    · have hlist : s'.cells h.id = s.cells h.id := by
        rw [hcells]
        exact Function.update_of_ne hid ..
      rw [hlist] at hin
      omega

/-- An object enters the stream table only when it is created. -/
theorem streams_react {e : Event} (hreact : s.react e = some s') (hcell : s.cell h = some c)
    (hmem : h ∈ s'.streams) : h ∈ s.streams := by
  rcases react_books hreact with hkeeps | ⟨id, hreg⟩
  · exact hkeeps.streams hmem
  · rcases List.mem_cons.mp (hreg.streams hmem) with rfl | hold
    · have hlt : (s.cells id).length < (s.cells id).length := has_of_cell hcell
      omega
    · exact hold

/-- A busy read loop moves only by its own steps. -/
theorem moves_reader {a : Action} (hmoves : s.Moves a s') (ha : a ≠ .dispatch)
    (hbusy : s.reader ≠ .idle) : s'.reader = s.reader := by
  cases hmoves with
  | @turned index choice h op c turn hcall hcell hturn =>
      exact (perform_control (s := s.setCell h turn.cell) h.id turn.effect).1
  | served hreader hcell => exact absurd rfl ha
  | refused hreader => exact absurd rfl ha
  | lookedUp hreader => exact absurd rfl ha
  | ponged hreader => exact absurd rfl ha
  | quit hreader => exact absurd rfl ha
  | told hreader => exact absurd rfl ha
  | woken hreader hdone => exact absurd rfl ha
  | broken err hreader => exact absurd hreader hbusy
  | _ => rfl

end Touches

end AccessRelay.Mux
