import AccessRelay.Machine.Pool
import AccessRelay.Mux.Books
import AccessRelay.Mux.Link

/-!
# A session is its streams

Every step of a session is, for each identifier, a step of the end it shows there:
`session_step_view` for the steps a session takes by itself, `session_read_view` for a frame it
reads. The lemmas before them say what each update of the session looks like at one identifier.
-/

namespace AccessRelay.Mux

open Encoding Proto

section Updates

variable {id : UInt32} {s : Session}

/-- Changing another stream's object shows nothing. -/
theorem view_set_cell_ne {h : Handle} (c : Cell) (hid : h.id ≠ id) :
    view id (s.setCell h c) = view id s := by
  have hcell : (s.setCell h c).cell ⟨id, 0⟩ = s.cell ⟨id, 0⟩ := by
    simp [Session.setCell, Session.cell, Function.update_of_ne (Ne.symm hid)]
  show { view id s with cell := (s.setCell h c).cell ⟨id, 0⟩ } = view id s
  rw [hcell]
  rfl

/-- Changing the object of the stream shows. -/
theorem view_set_cell_self {c c' : Cell} (hcell : s.cell ⟨id, 0⟩ = some c) :
    view id (s.setCell ⟨id, 0⟩ c') = { view id s with cell := some c' } := by
  obtain ⟨hlt, -⟩ := List.getElem?_eq_some_iff.mp hcell
  have hset : (s.setCell ⟨id, 0⟩ c').cell ⟨id, 0⟩ = some c' := by
    simp [Session.setCell, Session.cell, hlt]
  show { view id s with cell := (s.setCell ⟨id, 0⟩ c').cell ⟨id, 0⟩ } = _
  rw [hset]

theorem view_retire_ne {i : UInt32} (hid : i ≠ id) : view id (s.retire i) = view id s := by
  simp [view, Session.retire, Session.cell, Session.ackFor, Ne.symm hid]

theorem view_retire_self : view id (s.retire id) = (view id s).retire := by
  simp [view, Session.retire, Session.cell, Session.ackFor, End.retire]

theorem view_emit (type : Typ) (i : UInt32) (payload : Bytes) :
    view id (s.emit type i payload) =
      { view id s with out := (view id s).out ++ (msgOf id ⟨type, i, payload⟩).toList } := by
  have hout : (s.emit type i payload).out.filterMap (msgOf id) =
      (view id s).out ++ (msgOf id ⟨type, i, payload⟩).toList := by
    cases hmsg : msgOf id ⟨type, i, payload⟩ <;> simp [view, Session.emit, hmsg]
  show { view id s with out := (s.emit type i payload).out.filterMap (msgOf id) } = _
  rw [hout]

theorem view_answer_ne {h : Handle} (reason : Reason) (hid : h ≠ ⟨id, 0⟩) :
    view id (s.answer h reason) = view id s := by
  have hack : (s.answer h reason).ackFor ⟨id, 0⟩ = s.ackFor ⟨id, 0⟩ := by
    rw [ack_for_answer, if_neg (Ne.symm hid)]
  show { view id s with acked := (s.answer h reason).ackFor ⟨id, 0⟩ } = view id s
  rw [hack]
  rfl

theorem view_answer_self (reason : Reason) :
    view id (s.answer ⟨id, 0⟩ reason) = (view id s).answer reason := by
  have hack : (s.answer ⟨id, 0⟩ reason).ackFor ⟨id, 0⟩ =
      (s.ackFor ⟨id, 0⟩).or (some reason) := by
    rw [ack_for_answer, if_pos rfl]
  show { view id s with acked := (s.answer ⟨id, 0⟩ reason).ackFor ⟨id, 0⟩ } = _
  rw [hack]
  rfl

/-- A map whose entries are all first objects holds the first object of an identifier if and only
if it has an entry for the identifier. -/
theorem find_id_eq {table : List Handle} (htable : ∀ h ∈ table, h.nth = 0) (id : UInt32) :
    table.find? (fun h => h.id = id) =
      if (⟨id, 0⟩ : Handle) ∈ table then some ⟨id, 0⟩ else none := by
  have hentry : ∀ h ∈ table, h.id = id → h = ⟨id, 0⟩ := by
    intro h hmem hid
    obtain ⟨i, n⟩ := h
    obtain rfl : i = id := hid
    obtain rfl : n = 0 := htable _ hmem
    rfl
  cases hfind : table.find? fun h => h.id = id with
  | none =>
      rw [if_neg]
      intro hmem
      simpa using List.find?_eq_none.mp hfind _ hmem
  | some h =>
      have hid : h.id = id := by simpa using List.find?_some hfind
      have hmem := List.mem_of_find?_eq_some hfind
      obtain rfl := hentry h hmem hid
      rw [if_pos hmem]

theorem view_complete_open (hs : s.Tidy) {i : UInt32} (reason : Reason) :
    view id (s.completeOpen i reason) =
      if i = id then (view id s).complete reason else view id s := by
  rw [Session.completeOpen, find_id_eq hs.pending i]
  by_cases hmem : (⟨i, 0⟩ : Handle) ∈ s.pending
  · rw [if_pos hmem]
    dsimp only
    by_cases hid : i = id
    · subst hid
      have hawaiting : (view i s).awaiting = true := by simpa [view] using hmem
      rw [if_pos rfl, view_answer_self, End.complete, hawaiting, if_pos rfl]
      simp [view, End.answer, Session.cell, Session.ackFor]
    · rw [if_neg hid, view_answer_ne reason (by simp [hid])]
      simp [view, Session.cell, Session.ackFor, Ne.symm hid]
  · rw [if_neg hmem]
    by_cases hid : i = id
    · subst hid
      have hawaiting : (view i s).awaiting = false := by simpa [view] using hmem
      rw [if_pos rfl, End.complete, hawaiting, if_neg (by simp), ← hawaiting]
    · rw [if_neg hid]

/-- Registering a stream under another identifier shows nothing. -/
theorem view_register_ne (st : Stream) (hid : st.id ≠ id) :
    view id (s.register st) = view id s := by
  simp [view, Session.register, Session.cell, Session.ackFor, Session.nextHandle, Ne.symm hid]

/-- Registering the first object of an identifier. -/
theorem view_register_self (id : UInt32) (st : Stream) (hid : st.id = id)
    (hcells : s.cells id = []) :
    view id (s.register st) =
      { view id s with cell := some (newCell st), registered := true } := by
  subst hid
  simp [view, Session.register, Session.cell, Session.ackFor, Session.nextHandle, hcells]

theorem view_perform_ne {i : UInt32} (effect : Effect) (hid : i ≠ id) :
    view id (s.perform i effect) = view id s := by
  cases effect with
  | silent => rfl
  | send type payload =>
      have hmsg : msgOf id ⟨type, i, payload⟩ = none := by simp [msgOf, hid]
      rw [Session.perform, view_emit, hmsg]
      simp
  | retire => exact view_retire_ne hid

theorem view_perform_self (effect : Effect) :
    view id (s.perform id effect) = (view id s).perform id effect := by
  cases effect with
  | silent => rfl
  | send type payload => exact view_emit type id payload
  | retire => exact view_retire_self

theorem view_reply_ne {type : Typ} {i : UInt32} {payload : Bytes} {next : Reader}
    (hmsg : msgOf id ⟨type, i, payload⟩ = none) (hnext : handOf id next = .free)
    (hhand : (view id s).hand = .free) :
    view id (s.reply type i payload next) = view id s ∨
      view id (s.reply type i payload next) = { view id s with hand := .stopped } := by
  unfold Session.reply
  split_ifs
  · left
    show { view id (s.emit type i payload) with hand := handOf id next } = view id s
    rw [view_emit, hmsg, hnext, ← hhand]
    simp
  · exact .inr rfl

theorem view_reply_self {type : Typ} {payload : Bytes} (next : Reader) {m : Msg}
    (hmsg : msgOf id ⟨type, id, payload⟩ = some m) :
    view id (s.reply type id payload next) = { view id s with hand := .stopped } ∨
      ((view id s).done = false ∧ view id (s.reply type id payload next) =
        { view id s with out := (view id s).out ++ [m], hand := handOf id next }) := by
  unfold Session.reply
  split_ifs with hwritable
  · refine .inr ⟨(writable_eq_true.mp hwritable).1, ?_⟩
    show { view id (s.emit type id payload) with hand := handOf id next } = _
    rw [view_emit, hmsg]
    rfl
  · exact .inl rfl

/-- `lookup` finds the first object of an identifier or nothing. -/
theorem lookup_eq (hs : s.Tidy) (i : UInt32) :
    s.lookup i = if (⟨i, 0⟩ : Handle) ∈ s.streams then some ⟨i, 0⟩ else none :=
  find_id_eq hs.streams i

theorem view_serve_ne (hs : s.Tidy) {i : UInt32} (task : Task) (hid : i ≠ id)
    (hhand : (view id s).hand = .free) : view id (s.serve i task) = view id s := by
  rw [Session.serve, lookup_eq hs]
  by_cases hmem : (⟨i, 0⟩ : Handle) ∈ s.streams
  · rw [if_pos hmem]
    show { view id s with hand := handOf id (.serving ⟨i, 0⟩ task) } = view id s
    simp [handOf, hid, ← hhand]
  · rw [if_neg hmem]
    show { view id s with hand := .free } = view id s
    rw [← hhand]

theorem view_serve_self (hs : s.Tidy) (task : Task) :
    view id (s.serve id task) =
      { view id s with hand := if (view id s).registered then .serving task else .free } := by
  rw [Session.serve, lookup_eq hs]
  by_cases hmem : (⟨id, 0⟩ : Handle) ∈ s.streams
  · rw [if_pos hmem, if_pos (by simpa [view] using hmem)]
    show { view id s with hand := handOf id (.serving ⟨id, 0⟩ task) } = _
    simp [handOf]
  · rw [if_neg hmem, if_neg (by simpa [view] using hmem)]
    rfl

/-- An object that exists is the first of its identifier. -/
theorem handle_eq (hs : s.Tidy) {h : Handle} {c : Cell} (hcell : s.cell h = some c) :
    h = ⟨h.id, 0⟩ := by
  obtain ⟨hlt, -⟩ := List.getElem?_eq_some_iff.mp hcell
  have hone := hs.single h.id
  obtain ⟨i, n⟩ := h
  obtain rfl : n = 0 := by
    simp only at hlt hone
    omega
  rfl

end Updates

section Steps

variable {id : UInt32} {s s' : Session} {lim : Limits} {opens : Bool}

/-- Nothing that concerns the stream has happened. -/
theorem EndStep.stay (e : End) : EndStep lim opens id e .quiet e :=
  .idle (e := e) (fun h => h) .inl (fun h => h)

/-- Nothing has happened, except perhaps that the read loop has stopped. -/
theorem EndStep.stay_or_halt {e e' : End} (hhand : e.hand = .free)
    (h : e' = e ∨ e' = { e with hand := .stopped }) : EndStep lim opens id e .quiet e' := by
  rcases h with rfl | rfl
  · exact .stay e'
  · exact .halt (.inl hhand)

/-- The read loop works on another stream. -/
theorem view_serve_step_ne {h : Handle} (c : Cell) (task : Task) (hid : h.id ≠ id)
    (hhand : (view id s).hand = .free) :
    view id (s.serveStep h c task) = view id s ∨
      view id (s.serveStep h c task) = { view id s with hand := .stopped } := by
  have hne : h ≠ ⟨id, 0⟩ := fun heq => hid (congrArg Handle.id heq)
  have hset : ∀ c' reader, handOf id reader = .free →
      view id { s.setCell h c' with reader := reader } = view id s := by
    intro c' reader hreader
    show { view id (s.setCell h c') with hand := handOf id reader } = view id s
    rw [view_set_cell_ne c' hid, hreader, ← hhand]
  have hretire : ∀ reader, handOf id reader = .free →
      view id { s.retire h.id with reader := reader } = view id s := by
    intro reader hreader
    show { view id (s.retire h.id) with hand := handOf id reader } = view id s
    rw [view_retire_ne hid, hreader, ← hhand]
  have hread : ∀ reader, handOf id reader = .free →
      view id { s with reader := reader } = view id s := by
    intro reader hreader
    show { view id s with hand := handOf id reader } = view id s
    rw [hreader, ← hhand]
  cases task with
  | acking =>
      exact view_reply_ne (by simp [msgOf, hid]) (by simp [handOf, hne]) hhand
  | queueing =>
      left
      simp only [Session.serveStep]
      split_ifs
      · show { view id s with
          queued := (s.acceptCh ++ [h]).count ⟨id, 0⟩, hand := .free } = view id s
        rw [List.count_append, List.count_singleton, if_neg (by simpa using hne), Nat.add_zero,
          ← hhand]
        rfl
      · exact hread _ (by simp [handOf, hne])
  | dropping => exact .inl (hretire _ (by simp [handOf, hid]))
  | delivering payload =>
      simp only [Session.serveStep]
      cases c.stream.deliver payload with
      | none => exact .inr rfl
      | some st => exact .inl (hset _ _ rfl)
  | granting credit => exact .inl (hset _ _ rfl)
  | closing reason => exact .inl (hset _ _ (by simp [handOf, hne]))
  | retiring =>
      left
      simp only [Session.serveStep]
      split_ifs
      · exact hretire _ rfl
      · exact hread _ rfl

/-- The read loop works on the stream. -/
theorem view_serve_step_self {c : Cell} {task : Task} (hhand : (view id s).hand = .serving task)
    (hcell : s.cell ⟨id, 0⟩ = some c) :
    EndStep lim opens id (view id s) .quiet (view id (s.serveStep ⟨id, 0⟩ c task)) := by
  have hset : ∀ c' reader, view id { s.setCell ⟨id, 0⟩ c' with reader := reader } =
      { view id s with cell := some c', hand := handOf id reader } := by
    intro c' reader
    show { view id (s.setCell ⟨id, 0⟩ c') with hand := handOf id reader } = _
    rw [view_set_cell_self hcell]
  have hretire : ∀ reader, view id { s.retire id with reader := reader } =
      { view id s with registered := false, awaiting := false, hand := handOf id reader } := by
    intro reader
    show { view id (s.retire id) with hand := handOf id reader } = _
    rw [view_retire_self]
    rfl
  have hserving : ∀ next, handOf id (.serving ⟨id, 0⟩ next) = .serving next := by
    intro next
    rw [handOf, if_pos rfl]
  cases task with
  | acking =>
      have hmsg : msgOf id ⟨.streamOK, id, []⟩ = some .streamOK := by simp [msgOf]
      rcases view_reply_self (s := s) (.serving ⟨id, 0⟩ .queueing) hmsg
        with hview | ⟨hdone, hview⟩
      · rw [Session.serveStep, hview]
        exact .halt (.inr (.inl hhand))
      · rw [Session.serveStep, hview, hserving]
        exact .ack hhand hcell hdone
  | queueing =>
      simp only [Session.serveStep]
      split_ifs
      · have hview : view id { s with acceptCh := s.acceptCh ++ [⟨id, 0⟩], reader := .idle } =
            { view id s with queued := (view id s).queued + 1, hand := .free } := by
          show { view id s with
            queued := List.count (⟨id, 0⟩ : Handle) (s.acceptCh ++ [(⟨id, 0⟩ : Handle)])
            hand := .free } = _
          rw [List.count_append, List.count_singleton_self]
          rfl
        rw [hview]
        exact .queue hhand hcell
      · have hview : view id { s with reader := .serving ⟨id, 0⟩ .dropping } =
            { view id s with hand := handOf id (.serving ⟨id, 0⟩ .dropping) } := rfl
        rw [hview, hserving]
        exact .full hhand hcell
  | dropping =>
      rw [Session.serveStep, hretire, handOf, if_pos rfl]
      exact .drop hhand hcell
  | delivering payload =>
      simp only [Session.serveStep]
      cases hdeliver : c.stream.deliver payload with
      | none => exact .halt (.inr (.inr (.inr ⟨payload, hhand⟩)))
      | some st =>
          dsimp only
          rw [hset]
          exact .deliver hhand hcell hdeliver
  | granting credit =>
      rw [Session.serveStep, hset]
      exact .grant hhand hcell
  | closing reason =>
      rw [Session.serveStep, hset, hserving]
      exact .close hhand hcell
  | retiring =>
      simp only [Session.serveStep]
      split_ifs with hfinished
      · rw [hretire]
        exact .retired hhand hcell hfinished
      · exact .kept hhand hcell (by simpa using hfinished)

/-- The step of a call, at one identifier. -/
def labelOf (id : UInt32) (s : Session) : Action → Label
  | .start (.stream h op) => if h = ⟨id, 0⟩ then .start op else .quiet
  | .advance index _ =>
      match s.calls[index]? with
      | some (.stream h op) => if h = ⟨id, 0⟩ then .advance op else .quiet
      | _ => .quiet
  | _ => .quiet

theorem held_of_holds (h : s.holds ⟨id, 0⟩ = true) : (view id s).Held := by
  obtain ⟨call, hmem, hcall⟩ := List.any_eq_true.mp h
  have hop : ∀ op, call = .stream ⟨id, 0⟩ op → op ∈ (view id s).ops := by
    intro op hop
    refine Multiset.mem_coe.mpr (List.mem_filterMap.mpr ⟨call, hmem, ?_⟩)
    simp [hop, opOf]
  rcases (by simpa using hcall : call = .stream ⟨id, 0⟩ .opened ∨
    call = .stream ⟨id, 0⟩ .accepted) with hopen | haccept
  · exact .inl (hop _ hopen)
  · exact .inr (hop _ haccept)

/-- A call that is made, at one identifier. -/
theorem start_view (hs : s.Tidy) {call : Call} (hstart : s.start call = some s') :
    EndStep s.limits (s.owns id) id (view id s) (labelOf id s (.start call)) (view id s') := by
  have hquiet : ∀ call', opOf id call' = none →
      view id { s with calls := s.calls ++ [call'] } = view id s := by
    intro call' hop
    show { view id s with ops := ((s.calls ++ [call']).filterMap (opOf id) : List Op) } = view id s
    rw [List.filterMap_append]
    simp [view, hop]
  cases call with
  | openStream payload =>
      cases hstart
      rw [hquiet _ rfl]
      exact .stay _
  | acceptStream =>
      cases hstart
      rw [hquiet _ rfl]
      exact .stay _
  | openFailed error => cases hstart
  | acceptFailed => cases hstart
  | stream h op =>
      simp only [Session.start, Option.ite_none_right_eq_some, Option.bind_eq_some_iff,
        Option.map_eq_some_iff] at hstart
      obtain ⟨hholds, c, hcell, c', hop, rfl⟩ := hstart
      by_cases hid : h.id = id
      · have heq := handle_eq hs hcell
        rw [hid] at heq
        subst heq
        have hview : view id { s.setCell ⟨id, 0⟩ c' with
            calls := s.calls ++ [.stream ⟨id, 0⟩ op] } =
            { view id s with cell := some c', ops := op ::ₘ (view id s).ops } := by
          show { view id (s.setCell ⟨id, 0⟩ c') with
            ops := ((s.calls ++ [Call.stream ⟨id, 0⟩ op]).filterMap (opOf id) : List Op) } = _
          rw [view_set_cell_self hcell, List.filterMap_append]
          simp [opOf, view, ← Multiset.coe_add, add_comm, ← Multiset.singleton_add]
        rw [hview]
        have hlabel : labelOf id s (.start (.stream ⟨id, 0⟩ op)) = .start op := by simp [labelOf]
        rw [hlabel]
        exact .start (held_of_holds hholds) hcell hop
      · have hne : h ≠ ⟨id, 0⟩ := fun heq => hid (congrArg Handle.id heq)
        have hview : view id { s.setCell h c' with calls := s.calls ++ [.stream h op] } =
            view id s := by
          show { view id (s.setCell h c') with
            ops := ((s.calls ++ [Call.stream h op]).filterMap (opOf id) : List Op) } = _
          rw [view_set_cell_ne c' hid, List.filterMap_append]
          simp [opOf, view, hne]
        rw [hview]
        have hlabel : labelOf id s (.start (.stream h op)) = .quiet := by simp [labelOf, hne]
        rw [hlabel]
        exact .stay _

theorem view_pending (pending : List Handle) (nextID : UInt32) :
    view id { s with pending := pending, nextID := nextID } =
      { view id s with awaiting := (⟨id, 0⟩ : Handle) ∈ pending } := rfl

/-- `Open` takes its first step, at one identifier. -/
theorem open_stream_view (hs : s.Tidy) (payload : Bytes) {others : Multiset Op}
    (hops : (view id s).ops = others) :
    EndStep s.limits (s.owns id) id (view id s) .quiet
      { view id (s.openStream payload).1 with
        ops := (opOf id (s.openStream payload).2).elim others (· ::ₘ others) } := by
  have hcells := hs.fresh _ hs.parity (UInt32.le_refl _)
  unfold Session.openStream
  split_ifs with hdone hlimit
  · show EndStep _ _ _ _ _ { view id s with ops := others }
    rw [← hops]
    exact .stay _
  · show EndStep _ _ _ _ _ { view id s with ops := others }
    rw [← hops]
    exact .stay _
  · have hhandle : s.nextHandle s.nextID = ⟨s.nextID, 0⟩ := by
      rw [Session.nextHandle, hcells, List.length_nil]
    dsimp only
    rw [hhandle]
    by_cases hid : s.nextID = id
    · subst hid
      have hview : view s.nextID { s.register (newStream s.nextID s.limits.window) with
          pending := ⟨s.nextID, 0⟩ :: s.pending.filter fun h => h.id ≠ s.nextID
          nextID := s.nextID + 2 } =
          { view s.nextID s with
            cell := some (newCell (newStream s.nextID s.limits.window))
            registered := true, awaiting := true } := by
        have hreg := view_register_self s.nextID (newStream s.nextID s.limits.window) rfl hcells
        refine (view_pending _ _).trans ?_
        rw [hreg]
        simp
      rw [hview, ← hops]
      simp only [opOf, if_pos, Option.elim_some]
      exact .create payload hs.parity (by simp [view, Session.cell, hcells])
        (by simpa [view] using hdone)
    · have hview : view id { s.register (newStream s.nextID s.limits.window) with
          pending := ⟨s.nextID, 0⟩ :: s.pending.filter fun h => h.id ≠ s.nextID
          nextID := s.nextID + 2 } = view id s := by
        have hreg := view_register_ne (s := s) (newStream s.nextID s.limits.window) hid
        refine (view_pending _ _).trans ?_
        rw [hreg]
        simp [view, Ne.symm hid]
      have hop : opOf id (.stream ⟨s.nextID, 0⟩ (.sendOpen payload)) = none := by
        simp [opOf, hid]
      rw [hview, hop, Option.elim_none, ← hops]
      exact .stay _

/-- A call that takes a step, at one identifier. -/
theorem advance_view (hs : s.Tidy) {index : Nat} {choice : Choice}
    (hstep : s.step (.advance index choice) = some s') :
    EndStep s.limits (s.owns id) id (view id s) (labelOf id s (.advance index choice))
      (view id s') := by
  obtain ⟨call, hcall, hmap⟩ := Option.bind_eq_some_iff.mp hstep
  obtain ⟨⟨s₁, call'⟩, hnext, rfl⟩ := Option.map_eq_some_iff.mp hmap
  obtain ⟨others, hops, hops'⟩ := Machine.filter_map_set (opOf id) call' hcall
  change (view id s).ops = _ at hops
  have hview : view id { s₁ with calls := s.calls.set index call' } =
      { view id s₁ with ops := (opOf id call').elim others (· ::ₘ others) } := by
    rw [← hops']
    rfl
  rw [hview]
  cases call with
  | openStream payload =>
      have hlabel : labelOf id s (.advance index choice) = .quiet := by simp [labelOf, hcall]
      rw [hlabel]
      have heq : s.openStream payload = (s₁, call') := Option.some.inj hnext
      have hopen := open_stream_view hs payload hops
      rw [heq] at hopen
      exact hopen
  | acceptStream =>
      have hlabel : labelOf id s (.advance index choice) = .quiet := by simp [labelOf, hcall]
      rw [hlabel]
      simp only [opOf, Option.elim_none] at hops
      have hstay : EndStep s.limits (s.owns id) id (view id s) .quiet
          { view id s with ops := others } := by
        rw [← hops]
        exact .stay _
      cases choice with
      | cancelled =>
          cases hnext
          exact hstay
      | sessionDone =>
          simp only [Session.callStep, Option.ite_none_right_eq_some, Option.some.injEq,
            Prod.mk.injEq] at hnext
          obtain ⟨-, rfl, rfl⟩ := hnext
          exact hstay
      | value =>
          cases hqueue : s.acceptCh with
          | nil => simp [Session.callStep, hqueue] at hnext
          | cons h rest =>
              simp only [Session.callStep, hqueue, Option.some.injEq, Prod.mk.injEq] at hnext
              obtain ⟨rfl, rfl⟩ := hnext
              by_cases hid : h = ⟨id, 0⟩
              · subst hid
                have hqueued : (view id s).queued = rest.count ⟨id, 0⟩ + 1 := by
                  simp [view, hqueue]
                simp only [opOf, if_pos, Option.elim_some]
                rw [← hops]
                exact .accept hqueued
              · have hqueued : (view id s).queued = rest.count ⟨id, 0⟩ := by
                  simp [view, hqueue, hid]
                simp only [opOf, hid, if_false, Option.elim_none]
                show EndStep _ _ _ _ _
                  { view id s with queued := rest.count ⟨id, 0⟩, ops := others }
                rw [← hqueued]
                exact hstay
  | openFailed error => cases hnext
  | acceptFailed => cases hnext
  | stream h op =>
      obtain ⟨c, hcell, hmapped⟩ := Option.bind_eq_some_iff.mp hnext
      obtain ⟨turn, hturn, heq⟩ := Option.map_eq_some_iff.mp hmapped
      obtain ⟨rfl, rfl⟩ := Prod.mk.inj heq
      by_cases hid : h.id = id
      · have hhandle := handle_eq hs hcell
        rw [hid] at hhandle
        subst hhandle
        have hlabel : labelOf id s (.advance index choice) = .advance op := by
          simp [labelOf, hcall]
        rw [hlabel, view_perform_self, view_set_cell_self hcell]
        simp only [opOf, if_pos, Option.elim_some] at hops ⊢
        have hadvance : EndStep s.limits (s.owns id) id (view id s) (.advance op) _ :=
          .advance hcell hops (op_step_cases hturn)
        cases heffect : turn.effect <;> rw [heffect] at hadvance <;> exact hadvance
      · have hne : h ≠ ⟨id, 0⟩ := fun heq => hid (congrArg Handle.id heq)
        have hlabel : labelOf id s (.advance index choice) = .quiet := by
          simp [labelOf, hcall, hne]
        rw [hlabel, view_perform_ne _ hid, view_set_cell_ne _ hid]
        simp only [opOf, hne, if_false, Option.elim_none] at hops ⊢
        rw [← hops]
        exact .stay _

/-- The read loop takes a step, at one identifier. -/
theorem dispatch_view (hs : s.Tidy) (hstep : s.dispatch = some s') :
    EndStep s.limits (s.owns id) id (view id s) .quiet (view id s') := by
  have hshutdown : ∀ {reason : Reason} {next : Reader}, handOf id next = (view id s).hand →
      EndStep s.limits (s.owns id) id (view id s) .quiet (view id (s.shutdown reason next)) := by
    intro reason next hnext
    have hview : view id (s.shutdown reason next) = { view id s with
        live := decide ((s.shutdown reason next).ending = .live)
        hand := handOf id next } := by
      unfold Session.shutdown
      split_ifs with hlive
      · simp [view, Session.cell, Session.ackFor, hlive, Ending.toKill, Ending.toAnswer]
      · rfl
    rw [hview, hnext]
    refine .idle (fun h => h) .inl ?_
    intro h
    unfold Session.shutdown at h
    split_ifs at h with hlive
    · exact absurd h (by simp)
    · exact h
  cases hreader : s.reader with
  | idle => simp [Session.dispatch, hreader] at hstep
  | ended => simp [Session.dispatch, hreader] at hstep
  | serving h task =>
      simp only [Session.dispatch, hreader, Option.map_eq_some_iff] at hstep
      obtain ⟨c, hcell, rfl⟩ := hstep
      by_cases hid : h.id = id
      · have heq := handle_eq hs hcell
        rw [hid] at heq
        subst heq
        exact view_serve_step_self (by simp [view, hreader, handOf]) hcell
      · have hne : h ≠ ⟨id, 0⟩ := fun heq => hid (congrArg Handle.id heq)
        have hhand : (view id s).hand = .free := by simp [view, hreader, handOf, hne]
        exact .stay_or_halt hhand (view_serve_step_ne c task hid hhand)
  | refusing i =>
      simp only [Session.dispatch, hreader, Option.some.injEq] at hstep
      subst hstep
      by_cases hid : i = id
      · subst hid
        have hmsg : msgOf i ⟨.closeStream, i, reasonLimitStreamsExceeded⟩ =
            some (.close reasonLimitStreamsExceeded) := by
          rw [msgOf, if_pos rfl]
          rfl
        have hhand : (view i s).hand = .refusing := by simp [view, hreader, handOf]
        rcases view_reply_self (s := s) .idle hmsg with
          hview | ⟨hdone, hview⟩
        · rw [hview]
          exact .halt (.inr (.inr (.inl hhand)))
        · rw [hview]
          exact .refuse hhand hdone
      · have hhand : (view id s).hand = .free := by simp [view, hreader, handOf, hid]
        exact .stay_or_halt hhand (view_reply_ne (by simp [msgOf, hid]) rfl hhand)
  | lookingUp i reason =>
      simp only [Session.dispatch, hreader, Option.some.injEq] at hstep
      subst hstep
      by_cases hid : i = id
      · subst hid
        have hhand : (view i s).hand = .lookingUp reason := by simp [view, hreader, handOf]
        rw [view_serve_self hs]
        cases hregistered : (view i s).registered with
        | true => exact .found hhand hregistered
        | false => exact .missing hhand hregistered
      · rw [view_serve_ne hs _ hid (by simp [view, hreader, handOf, hid])]
        exact .stay _
  | ponging payload =>
      simp only [Session.dispatch, hreader, Option.some.injEq] at hstep
      subst hstep
      have hhand : (view id s).hand = .free := by simp [view, hreader, handOf]
      exact .stay_or_halt hhand (view_reply_ne (by simp [msgOf]) rfl hhand)
  | failing reason =>
      simp only [Session.dispatch, hreader, Option.some.injEq] at hstep
      subst hstep
      exact hshutdown (by simp [view, hreader, handOf])
  | stopping reason =>
      simp only [Session.dispatch, hreader, Option.some.injEq] at hstep
      subst hstep
      exact hshutdown (by simp [view, hreader, handOf])
  | waiting =>
      simp only [Session.dispatch, hreader, Option.ite_none_right_eq_some,
        Option.some.injEq] at hstep
      obtain ⟨-, rfl⟩ := hstep
      have hview : view id { s with reader := .idle } = view id s := by
        simp [view, Session.cell, Session.ackFor, hreader, handOf]
      rw [hview]
      exact .stay _

/-- The body of `closeOnce` takes a step, at one identifier. -/
theorem end_step_view (hs : s.Tidy) {choice : Nat} (hstep : s.endStep choice = some s') :
    EndStep s.limits (s.owns id) id (view id s) .quiet (view id s') := by
  cases hending : s.ending with
  | live => simp [Session.endStep, hending] at hstep
  | ended reason => simp [Session.endStep, hending] at hstep
  | announcing reason =>
      simp only [Session.endStep, hending, Option.some.injEq] at hstep
      subst hstep
      have hview : view id { (if writable s.done reason then s.emit .error 0 reason else s) with
          ending := .collecting reason } = view id s := by
        have hemit : view id (if writable s.done reason then s.emit .error 0 reason else s) =
            view id s := by
          split_ifs
          · rw [view_emit]
            simp [msgOf]
          · rfl
        show { view id (if writable s.done reason then s.emit .error 0 reason else s) with
          doomed := false, unanswered := false, live := false } = view id s
        rw [hemit]
        simp [view, hending, Ending.toKill, Ending.toAnswer]
      rw [hview]
      exact .stay _
  | collecting reason =>
      simp only [Session.endStep, hending, Option.some.injEq] at hstep
      subst hstep
      have hview : view id { s with
          streams := [], pending := [], ending := .killing reason s.streams s.pending } =
          { view id s with
            registered := false, awaiting := false, doomed := (view id s).registered
            unanswered := (view id s).awaiting } := by
        show { view id s with
          registered := false, awaiting := false, doomed := (view id s).registered
          unanswered := (view id s).awaiting, live := false } = _
        simp [view, hending]
      rw [hview]
      exact .collect (by simp [view, hending]) (by simp [view, hending, Ending.toKill])
        (by simp [view, hending, Ending.toAnswer])
  | killing reason streams pending =>
      cases streams with
      | nil =>
          simp only [Session.endStep, hending, Option.some.injEq] at hstep
          subst hstep
          have hview : view id { s with ending := .notifying reason pending } = view id s := by
            show { view id s with
              doomed := false, unanswered := (⟨id, 0⟩ : Handle) ∈ pending, live := false } = _
            simp [view, hending, Ending.toKill, Ending.toAnswer]
          rw [hview]
          exact .stay _
      | cons first rest =>
          simp only [Session.endStep, hending, Option.bind_eq_some_iff,
            Option.map_eq_some_iff] at hstep
          obtain ⟨h, hget, c, hcell, rfl⟩ := hstep
          have hmem : h ∈ first :: rest := List.mem_of_getElem? hget
          generalize hstreams : first :: rest = streams at hget hmem
          have hlive : (view id s).live = false := by simp [view, hending]
          by_cases hid : h.id = id
          · have heq := handle_eq hs hcell
            rw [hid] at heq
            subst heq
            have hview : view id { s.setCell ⟨id, 0⟩ { c with stream := c.stream.kill reason } with
                ending := .killing reason (streams.eraseIdx choice) pending } =
                { view id s with
                  cell := some { c with stream := c.stream.kill reason }
                  doomed := (⟨id, 0⟩ : Handle) ∈ streams.eraseIdx choice } := by
              show { view id (s.setCell ⟨id, 0⟩ { c with stream := c.stream.kill reason }) with
                doomed := (⟨id, 0⟩ : Handle) ∈ streams.eraseIdx choice
                unanswered := (⟨id, 0⟩ : Handle) ∈ pending, live := false } = _
              rw [view_set_cell_self hcell]
              simp [view, hending, Ending.toAnswer]
            rw [hview]
            exact .kill hlive (by simpa [view, hending, Ending.toKill, hstreams] using hmem) hcell
          · have hne : h ≠ ⟨id, 0⟩ := fun heq => hid (congrArg Handle.id heq)
            have hrest : (⟨id, 0⟩ : Handle) ∈ streams.eraseIdx choice ↔
                (⟨id, 0⟩ : Handle) ∈ streams := by
              rw [List.mem_eraseIdx_iff_getElem?]
              constructor
              · rintro ⟨k, -, hk⟩
                exact List.mem_of_getElem? hk
              · intro hk
                obtain ⟨k, hk⟩ := List.getElem?_of_mem hk
                refine ⟨k, ?_, hk⟩
                rintro rfl
                rw [hget, Option.some.injEq] at hk
                exact hne hk
            have hview : view id { s.setCell h { c with stream := c.stream.kill reason } with
                ending := .killing reason (streams.eraseIdx choice) pending } = view id s := by
              show { view id (s.setCell h { c with stream := c.stream.kill reason }) with
                doomed := (⟨id, 0⟩ : Handle) ∈ streams.eraseIdx choice
                unanswered := (⟨id, 0⟩ : Handle) ∈ pending, live := false } = _
              rw [view_set_cell_ne _ hid]
              simp [view, hending, hrest, Ending.toKill, Ending.toAnswer, hstreams]
            rw [hview]
            exact .stay _
  | notifying reason pending =>
      have hlive : (view id s).live = false := by simp [view, hending]
      cases pending with
      | nil =>
          simp only [Session.endStep, hending, Option.some.injEq] at hstep
          subst hstep
          have hview : view id { s with done := true, ending := .ended reason } =
              { view id s with done := true, live := false } := by
            simp [view, Session.cell, Session.ackFor, hending, Ending.toKill, Ending.toAnswer]
          rw [hview]
          exact .idle (fun _ => rfl) (fun _ => .inr hlive) (fun h => absurd h (by simp))
      | cons h rest =>
          simp only [Session.endStep, hending, Option.some.injEq] at hstep
          subst hstep
          by_cases hid : h = ⟨id, 0⟩
          · subst hid
            have hview : view id { s.answer ⟨id, 0⟩ reason with
                ending := .notifying reason rest } =
                { (view id s).answer reason with
                  unanswered := (⟨id, 0⟩ : Handle) ∈ rest } := by
              show { view id (s.answer ⟨id, 0⟩ reason) with
                doomed := false, unanswered := (⟨id, 0⟩ : Handle) ∈ rest, live := false } = _
              rw [view_answer_self]
              simp [view, End.answer, hending, Ending.toKill]
            rw [hview]
            exact .notify hlive (by simp [view, hending, Ending.toKill])
              (by simp [view, hending, Ending.toAnswer])
          · have hview : view id { s.answer h reason with ending := .notifying reason rest } =
                view id s := by
              show { view id (s.answer h reason) with
                doomed := false, unanswered := (⟨id, 0⟩ : Handle) ∈ rest, live := false } = _
              rw [view_answer_ne reason hid]
              simp [view, hending, Ending.toKill, Ending.toAnswer, Ne.symm hid]
            rw [hview]
            exact .stay _

/-- A step of a session by itself is a step of every end it shows. -/
theorem session_step_view (hs : s.Tidy) {a : Action} (hstep : s.step a = some s')
    (id : UInt32) :
    EndStep s.limits (s.owns id) id (view id s) (labelOf id s a) (view id s') := by
  cases a with
  | start call => exact start_view hs hstep
  | advance index choice => exact advance_view hs hstep
  | dispatch => exact dispatch_view hs hstep
  | readFailed err =>
      simp only [Session.step, Option.ite_none_right_eq_some, Option.some.injEq] at hstep
      obtain ⟨hidle, rfl⟩ := hstep
      exact .halt (.inl (by simp [view, hidle, handOf]))
  | close reason =>
      simp only [Session.step, Option.some.injEq] at hstep
      subst hstep
      split_ifs with hlive
      · have hview : view id { s with ending := .announcing reason } =
            { view id s with live := false } := by
          show { view id s with doomed := false, unanswered := false, live := false } = _
          simp [view, hlive, Ending.toKill, Ending.toAnswer]
        rw [hview]
        exact .idle (fun h => h) .inl (fun h => absurd h (by simp))
      · exact .stay _
  | endStep choice => exact end_step_view hs hstep
  | ping =>
      simp only [Session.step, Option.some.injEq] at hstep
      subst hstep
      have hview : view id (if writable s.done [] then s.emit .ping 0 [] else s) = view id s := by
        split_ifs
        · rw [view_emit]
          simp [msgOf]
        · rfl
      rw [hview]
      exact .stay _

/-- OPEN_STREAM arrives. -/
theorem handle_open_view {i : UInt32} (payload : Bytes) (hcells : i = id → s.cells id = [])
    (hhand : (view id s).hand = .free) :
    (i = id → Receive s.limits id (view id s) .openStream (view id (s.handleOpen i payload))) ∧
      (i ≠ id → EndStep s.limits (s.owns id) id (view id s) .quiet
        (view id (s.handleOpen i payload))) := by
  have hfail : view id { s with reader := .failing reasonProtocolMalformedFrame } =
      { view id s with hand := .stopped } := rfl
  unfold Session.handleOpen
  split_ifs with hlive hparity hlimit
  · exact ⟨fun _ => hfail ▸ .openFailed, fun _ => hfail ▸ .halt (.inl hhand)⟩
  · exact ⟨fun _ => hfail ▸ .openFailed, fun _ => hfail ▸ .halt (.inl hhand)⟩
  · have hrefuse : view id { s with reader := .refusing i } =
        { view id s with hand := handOf id (.refusing i) } := rfl
    rw [hrefuse]
    refine ⟨?_, ?_⟩
    · intro hid
      rw [handOf, if_pos hid]
      exact .openRefused
    · intro hid
      rw [handOf, if_neg hid, ← hhand]
      exact .stay _
  · have hview : ∀ reader st, view id { s.register st with reader := reader } =
        { view id (s.register st) with hand := handOf id reader } := fun _ _ => rfl
    refine ⟨?_, ?_⟩
    · intro hid
      subst hid
      have hempty := hcells rfl
      have hhandle : s.nextHandle i = ⟨i, 0⟩ := by
        rw [Session.nextHandle, hempty, List.length_nil]
      rw [hview, hhandle, view_register_self i _ rfl hempty, handOf, if_pos rfl]
      exact .opened payload (by simp [view, Session.cell, hempty])
    · intro hid
      have hne : s.nextHandle i ≠ ⟨id, 0⟩ := fun heq => hid (congrArg Handle.id heq)
      rw [hview, view_register_ne _ hid, handOf, if_neg hne, ← hhand]
      exact .stay _

/-- A frame that is read is the arrival of a message at the end of its stream, and nothing, or
the end of the read loop, at every other end. -/
theorem session_read_view (hs : s.Tidy) {f : Frame} (hread : s.read f = some s')
    (hopen : f.type = .openStream → f.streamID = id → s.cells id = []) :
    (view id s).hand = .free ∧
      ((∃ m, msgOf id f = some m ∧ Receive s.limits id (view id s) m (view id s')) ∨
        (msgOf id f = none ∧ EndStep s.limits (s.owns id) id (view id s) .quiet (view id s'))) := by
  simp only [Session.read, Option.ite_none_right_eq_some, Option.some.injEq] at hread
  obtain ⟨hidle, rfl⟩ := hread
  have hhand : (view id s).hand = .free := by simp [view, hidle, handOf]
  refine ⟨hhand, ?_⟩
  have hreader : ∀ reader, view id { s with reader := reader } =
      { view id s with hand := handOf id reader } := fun _ => rfl
  unfold Session.receive
  by_cases hsize : s.limits.maxFrame < UInt32.ofNat f.payload.length
  · rw [if_pos hsize, hreader]
    cases hmsg : msgOf id f with
    | none => exact .inr ⟨rfl, .halt (.inl hhand)⟩
    | some m =>
        refine .inl ⟨m, rfl, .tooLarge ?_⟩
        have hne : f.payload ≠ [] := by
          intro hnil
          rw [hnil] at hsize
          exact absurd hsize (by simp)
        unfold msgOf at hmsg
        split_ifs at hmsg
        cases htype : f.type <;> simp only [htype, reduceCtorEq, Option.some.injEq] at hmsg
        · subst hmsg
          trivial
        · subst hmsg
          trivial
        · subst hmsg
          exact hsize
        · obtain ⟨credit, -, rfl⟩ := Option.map_eq_some_iff.mp hmsg
          trivial
        · subst hmsg
          exact hsize
  · rw [if_neg hsize]
    have hserve : ∀ task, f.streamID ≠ id →
        EndStep s.limits (s.owns id) id (view id s) .quiet (view id (s.serve f.streamID task)) := by
      intro task hid
      rw [view_serve_ne hs task hid hhand]
      exact .stay _
    -- A frame of the stream reaches its object, or is dropped if the stream is gone.
    have hfind : ∀ task m,
        ((view id s).registered = true →
          Receive s.limits id (view id s) m { view id s with hand := .serving task }) →
        ((view id s).registered = false → Receive s.limits id (view id s) m (view id s)) →
        Receive s.limits id (view id s) m (view id (s.serve id task)) := by
      intro task m hfound hmissing
      rw [view_serve_self hs]
      cases hregistered : (view id s).registered with
      | true => exact hfound hregistered
      | false =>
          simp only [Bool.false_eq_true, if_false, ← hhand]
          exact hmissing hregistered
    have hquiet : ∀ reader, handOf id reader = .free →
        EndStep s.limits (s.owns id) id (view id s) .quiet
          (view id { s with reader := reader }) := by
      intro reader hfree
      rw [hreader reader, hfree, ← hhand]
      exact .stay _
    have hhalt : EndStep s.limits (s.owns id) id (view id s) .quiet
        (view id { s with reader := .failing reasonProtocolMalformedFrame }) :=
      .halt (.inl hhand)
    cases htype : f.type with
    | openStream =>
        obtain ⟨hself, hother⟩ := handle_open_view f.payload (hopen htype) hhand
        by_cases hid : f.streamID = id
        · exact .inl ⟨.openStream, by simp [msgOf, hid, htype], hself hid⟩
        · exact .inr ⟨by simp [msgOf, hid], hother hid⟩
    | streamOK =>
        dsimp only
        rw [view_complete_open hs]
        by_cases hid : f.streamID = id
        · rw [if_pos hid]
          exact .inl ⟨.streamOK, by simp [msgOf, hid, htype], .streamOK⟩
        · rw [if_neg hid]
          exact .inr ⟨by simp [msgOf, hid], .stay _⟩
    | streamData =>
        by_cases hid : f.streamID = id
        · refine .inl ⟨.data f.payload, by simp [msgOf, hid, htype], ?_⟩
          dsimp only
          rw [hid]
          exact hfind _ _ .data fun h => .dropped h (.inl ⟨_, rfl⟩)
        · exact .inr ⟨by simp [msgOf, hid], hserve _ hid⟩
    | streamWindow =>
        dsimp only
        cases hdecode : decodeWindow f.payload with
        | none => exact .inr ⟨by simp [msgOf, htype, hdecode], hhalt⟩
        | some credit =>
            by_cases hid : f.streamID = id
            · refine .inl ⟨.window credit, by simp [msgOf, hid, htype, hdecode], ?_⟩
              dsimp only
              rw [hid]
              exact hfind _ _ .window fun h => .dropped h (.inr ⟨_, rfl⟩)
            · exact .inr ⟨by simp [msgOf, hid], hserve _ hid⟩
    | closeStream =>
        dsimp only
        generalize hreason : (if f.payload = [] then reasonOK else f.payload) = reason
        have hview : ∀ reader, view id { s.completeOpen f.streamID reason with reader := reader } =
            { view id (s.completeOpen f.streamID reason) with hand := handOf id reader } :=
          fun _ => rfl
        rw [hview, view_complete_open hs]
        by_cases hid : f.streamID = id
        · rw [if_pos hid, handOf, if_pos hid]
          exact .inl ⟨.close reason, by simp [msgOf, hid, htype, hreason], .close⟩
        · rw [if_neg hid, handOf, if_neg hid, ← hhand]
          exact .inr ⟨by simp [msgOf, hid], .stay _⟩
    | ping => exact .inr ⟨by simp [msgOf, htype], hquiet _ rfl⟩
    | pong => exact .inr ⟨by simp [msgOf, htype], .stay _⟩
    | error => exact .inr ⟨by simp [msgOf, htype], hquiet _ rfl⟩
    | hello => exact .inr ⟨by simp [msgOf, htype], hhalt⟩
    | helloAck => exact .inr ⟨by simp [msgOf, htype], hhalt⟩
    | auth => exact .inr ⟨by simp [msgOf, htype], hhalt⟩
    | authOK => exact .inr ⟨by simp [msgOf, htype], hhalt⟩

end Steps

end AccessRelay.Mux
