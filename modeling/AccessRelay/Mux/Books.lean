import AccessRelay.Mux.Moves
import AccessRelay.Mux.System

/-!
# The books of a session

Which identifiers a session has used, and what its two maps say about them. A session that has
used no identifier twice is `Tidy`. Every step either leaves the books alone (`Keeps`) or
registers one new stream (`Registers`); `tidy_step` and `tidy_read` say when they stay tidy.
-/

namespace AccessRelay.Mux

open Encoding Proto

/-- The books of a session that has used no identifier twice: at most one object for each, no
object yet for the identifiers it has still to give out, and both maps about the one object. -/
structure Session.Tidy (s : Session) : Prop where
  single : ∀ id, (s.cells id).length ≤ 1
  fresh : ∀ id, s.owns id = true → s.nextID ≤ id → s.cells id = []
  parity : s.owns s.nextID = true
  streams : ∀ h ∈ s.streams, h.nth = 0
  pending : ∀ h ∈ s.pending, h.nth = 0

/-- The object exists. -/
def Session.Has (s : Session) (h : Handle) : Prop := h.nth < (s.cells h.id).length

/-- Every call and every entry of the queue is about an object that exists. -/
structure Session.Rooted (s : Session) : Prop where
  calls : ∀ h op, Call.stream h op ∈ s.calls → s.Has h
  queue : ∀ h ∈ s.acceptCh, s.Has h

section Books

variable {s s' : Session}

/-- What most steps leave alone: the limits, the identifiers that have been given out, and the
number of objects of each. The maps may lose entries. -/
structure Session.Keeps (s s' : Session) : Prop where
  isClient : s'.isClient = s.isClient
  limits : s'.limits = s.limits
  nextID : s'.nextID = s.nextID
  cells : ∀ id, (s'.cells id).length = (s.cells id).length
  streams : s'.streams ⊆ s.streams
  pending : s'.pending ⊆ s.pending

theorem Session.Keeps.rfl : s.Keeps s :=
  ⟨Eq.refl _, Eq.refl _, Eq.refl _, fun _ => Eq.refl _, fun _ h => h, fun _ h => h⟩

theorem Session.Keeps.tidy (h : s.Keeps s') (hs : s.Tidy) : s'.Tidy := by
  have howns : ∀ id, s'.owns id = s.owns id := by
    intro id
    rw [Session.owns, Session.owns, h.isClient]
  refine ⟨?_, ?_, ?_, fun i hi => hs.streams i (h.streams hi),
    fun i hi => hs.pending i (h.pending hi)⟩
  · intro id
    rw [h.cells]
    exact hs.single id
  · intro id hid hle
    rw [howns] at hid
    rw [h.nextID] at hle
    rw [← List.length_eq_zero_iff, h.cells, hs.fresh id hid hle, List.length_nil]
  · rw [howns, h.nextID]
    exact hs.parity

theorem keeps_set_cell (h : Handle) (c : Cell) : s.Keeps (s.setCell h c) := by
  refine ⟨rfl, rfl, rfl, ?_, fun _ h => h, fun _ h => h⟩
  intro id
  by_cases hid : id = h.id
  · subst hid
    simp [Session.setCell]
  · simp [Session.setCell, Function.update_of_ne hid]

theorem keeps_retire (id : UInt32) : s.Keeps (s.retire id) :=
  ⟨rfl, rfl, rfl, fun _ => rfl, List.filter_subset_self _, List.filter_subset_self _⟩

theorem Session.Keeps.trans {s₁ s₂ : Session} (h : s.Keeps s₁) (h' : s₁.Keeps s₂) :
    s.Keeps s₂ :=
  ⟨h'.isClient.trans h.isClient, h'.limits.trans h.limits, h'.nextID.trans h.nextID,
    fun id => (h'.cells id).trans (h.cells id), List.Subset.trans h'.streams h.streams,
    List.Subset.trans h'.pending h.pending⟩

theorem keeps_perform (id : UInt32) (effect : Effect) : s.Keeps (s.perform id effect) := by
  cases effect with
  | silent => exact .rfl
  | send type payload => exact ⟨rfl, rfl, rfl, fun _ => rfl, fun _ h => h, fun _ h => h⟩
  | retire => exact keeps_retire id

/-- An answer fills the channel of its `Open`, unless that has been answered. -/
theorem ack_for_answer (i h : Handle) (reason : Reason) :
    (s.answer i reason).ackFor h =
      if h = i then (s.ackFor h).or (some reason) else s.ackFor h := by
  unfold Session.answer Session.ackFor
  by_cases hany : (s.acks.any fun a => a.1 = i) = true
  · rw [if_pos hany]
    split_ifs with heq
    · subst heq
      obtain ⟨a, ha⟩ := Option.isSome_iff_exists.mp (List.find?_isSome.mpr
        (List.any_eq_true.mp hany))
      rw [ha]
      rfl
    · rfl
  · rw [if_neg hany]
    split_ifs with heq
    · subst heq
      have hnone : s.acks.find? (fun a => a.1 = h) = none :=
        List.find?_eq_none.mpr (List.any_eq_false.mp (Bool.not_eq_true _ ▸ hany))
      rw [hnone]
      simp
    · simp [Ne.symm heq]

theorem keeps_answer (h : Handle) (reason : Reason) : s.Keeps (s.answer h reason) :=
  ⟨rfl, rfl, rfl, fun _ => rfl, fun _ h => h, fun _ h => h⟩

theorem keeps_complete_open (id : UInt32) (reason : Reason) :
    s.Keeps (s.completeOpen id reason) := by
  unfold Session.completeOpen
  cases s.pending.find? fun h => h.id = id with
  | none => exact .rfl
  | some h => exact ⟨rfl, rfl, rfl, fun _ => rfl, fun _ h => h, List.filter_subset_self _⟩

/-- Fields outside the books do not matter to them. -/
theorem Session.Keeps.of_fields {s₁ s₂ : Session} (h : s.Keeps s₁)
    (hclient : s₂.isClient = s₁.isClient) (hlimits : s₂.limits = s₁.limits)
    (hnext : s₂.nextID = s₁.nextID) (hcells : s₂.cells = s₁.cells)
    (hstreams : s₂.streams = s₁.streams) (hpending : s₂.pending = s₁.pending) : s.Keeps s₂ :=
  h.trans ⟨hclient, hlimits, hnext, fun _ => by rw [hcells], fun _ h => hstreams ▸ h,
    fun _ h => hpending ▸ h⟩

/-- A stream is registered. -/
structure Session.Registers (s s' : Session) (id : UInt32) : Prop where
  isClient : s'.isClient = s.isClient
  limits : s'.limits = s.limits
  cells : ∃ c, s'.cells = Function.update s.cells id (s.cells id ++ [c])
  streams : s'.streams ⊆ s.nextHandle id :: s.streams
  pending : s'.pending ⊆ s.nextHandle id :: s.pending

/-- The counter of `Open` keeps its parity, also where it wraps. -/
theorem owns_add_two (id : UInt32) : s.owns (id + 2) = s.owns id := by
  have heven : (id + 2) % 2 = id % 2 := by
    rw [← UInt32.toNat_inj, UInt32.toNat_mod, UInt32.toNat_mod, UInt32.toNat_add]
    have htwo : (2 : UInt32).toNat = 2 := rfl
    rw [htwo]
    omega
  rw [Session.owns, Session.owns, heven]

/-- A new identifier keeps the books tidy: one of the peer's, or the next of this end, as long as
the counter does not wrap. -/
theorem Session.Registers.tidy {id : UInt32} (h : s.Registers s' id) (hs : s.Tidy)
    (hcells : s.cells id = [])
    (hnext : (s'.nextID = s.nextID ∧ s.owns id = false) ∨
      (id = s.nextID ∧ s'.nextID = s.nextID + 2 ∧ s.nextID.toNat + 2 < 2 ^ 32)) : s'.Tidy := by
  obtain ⟨c, hnew⟩ := h.cells
  have howns : ∀ i, s'.owns i = s.owns i := by
    intro i
    rw [Session.owns, Session.owns, h.isClient]
  have hhandle : s.nextHandle id = ⟨id, 0⟩ := by
    rw [Session.nextHandle, hcells, List.length_nil]
  have hentry : ∀ table : List Handle, (∀ i ∈ table, i.nth = 0) →
      ∀ i ∈ s.nextHandle id :: table, i.nth = 0 := by
    intro table htable i hi
    rcases List.mem_cons.mp hi with rfl | hi
    · rw [hhandle]
    · exact htable i hi
  -- The identifiers still to be given out are above the one that has been used.
  have hfresh : ∀ i, s.owns i = true → s'.nextID ≤ i → i ≠ id ∧ s.nextID ≤ i := by
    intro i hi hle
    rcases hnext with ⟨hsame, hpeer⟩ | ⟨rfl, hadd, hwrap⟩
    · rw [hsame] at hle
      refine ⟨?_, hle⟩
      rintro rfl
      rw [hpeer] at hi
      cases hi
    · rw [hadd, UInt32.le_iff_toNat_le, UInt32.toNat_add] at hle
      have htwo : (2 : UInt32).toNat = 2 := rfl
      rw [htwo, Nat.mod_eq_of_lt hwrap] at hle
      refine ⟨?_, UInt32.le_iff_toNat_le.mpr (by omega)⟩
      rintro rfl
      omega
  refine ⟨?_, ?_, ?_, fun i hi => hentry _ hs.streams i (h.streams hi),
    fun i hi => hentry _ hs.pending i (h.pending hi)⟩
  · intro i
    rw [hnew]
    by_cases hi : i = id
    · subst hi
      simp [hcells]
    · rw [Function.update_of_ne hi]
      exact hs.single i
  · intro i hi hle
    rw [howns] at hi
    obtain ⟨hne, hold⟩ := hfresh i hi hle
    rw [hnew, Function.update_of_ne hne]
    exact hs.fresh i hi hold
  · rw [howns]
    rcases hnext with ⟨hsame, -⟩ | ⟨rfl, hadd, hwrap⟩
    · rw [hsame]
      exact hs.parity
    · rw [hadd, owns_add_two]
      exact hs.parity

theorem registers_register (st : Stream) : s.Registers (s.register st) st.id :=
  ⟨rfl, rfl, ⟨newCell st, rfl⟩, List.cons_subset_cons _ (List.filter_subset_self _),
    List.subset_cons_self _ _⟩

theorem reply_keeps (type : Typ) (id : UInt32) (payload : Bytes) (next : Reader) :
    s.Keeps (s.reply type id payload next) := by
  unfold Session.reply
  split_ifs <;> exact .of_fields .rfl rfl rfl rfl rfl rfl rfl

theorem serve_step_keeps (h : Handle) (c : Cell) (task : Task) :
    s.Keeps (s.serveStep h c task) := by
  cases task with
  | acking => exact reply_keeps ..
  | queueing =>
      simp only [Session.serveStep]
      split_ifs <;> exact .of_fields .rfl rfl rfl rfl rfl rfl rfl
  | dropping => exact .of_fields (keeps_retire h.id) rfl rfl rfl rfl rfl rfl
  | delivering payload =>
      simp only [Session.serveStep]
      cases c.stream.deliver payload with
      | none => exact .of_fields .rfl rfl rfl rfl rfl rfl rfl
      | some st => exact .of_fields (keeps_set_cell h _) rfl rfl rfl rfl rfl rfl
  | granting credit => exact .of_fields (keeps_set_cell h _) rfl rfl rfl rfl rfl rfl
  | closing reason => exact .of_fields (keeps_set_cell h _) rfl rfl rfl rfl rfl rfl
  | retiring =>
      simp only [Session.serveStep]
      split_ifs
      · exact .of_fields (keeps_retire h.id) rfl rfl rfl rfl rfl rfl
      · exact .of_fields .rfl rfl rfl rfl rfl rfl rfl

theorem serve_keeps (id : UInt32) (task : Task) : s.Keeps (s.serve id task) := by
  unfold Session.serve
  split <;> exact .of_fields .rfl rfl rfl rfl rfl rfl rfl

/-- A step of a session by itself leaves the books alone, or it is `Open` that registers a stream
under the next identifier. -/
theorem step_books {a : Action} (hstep : s.step a = some s') :
    s.Keeps s' ∨
      ((∃ index choice payload, a = .advance index choice ∧
          s.calls[index]? = some (.openStream payload)) ∧
        s.Registers s' s.nextID ∧ s'.nextID = s.nextID + 2) := by
  cases step_moves hstep with
  | started hholds hcell hop =>
      exact .inl (.of_fields (keeps_set_cell _ _) rfl rfl rfl rfl rfl rfl)
  | opened index choice payload hcall hdone =>
      have hreg := registers_register (s := s) (newStream s.nextID s.limits.window)
      exact .inr ⟨⟨index, choice, payload, rfl, hcall⟩,
        ⟨rfl, rfl, hreg.cells, hreg.streams,
          List.cons_subset_cons _ (List.filter_subset_self _)⟩, rfl⟩
  | turned index choice hcall hcell hturn =>
      exact .inl (.of_fields ((keeps_set_cell _ _).trans (keeps_perform _ _))
        rfl rfl rfl rfl rfl rfl)
  | served hreader hcell => exact .inl (serve_step_keeps _ _ _)
  | refused hreader => exact .inl (reply_keeps ..)
  | lookedUp hreader => exact .inl (serve_keeps _ _)
  | ponged hreader => exact .inl (reply_keeps ..)
  | closedBefore reason hending => exact .inl .rfl
  | collected choice hending =>
      exact .inl ⟨rfl, rfl, rfl, fun _ => rfl, List.nil_subset _, List.nil_subset _⟩
  | killed choice hending hh hcell =>
      exact .inl (.of_fields (keeps_set_cell _ _) rfl rfl rfl rfl rfl rfl)
  | @notified choice reason h rest hending =>
      exact .inl (.of_fields (keeps_answer h reason) rfl rfl rfl rfl rfl rfl)
  | _ => exact .inl (.of_fields .rfl rfl rfl rfl rfl rfl rfl)

/-- Reading a frame leaves the books alone, or registers a stream that the peer has opened. -/
theorem read_books {f : Frame} (hread : s.read f = some s') :
    s.Keeps s' ∨
      (f.type = .openStream ∧ s.owns f.streamID = false ∧ s.Registers s' f.streamID ∧
        s'.nextID = s.nextID) := by
  cases (read_reads hread).2 with
  | registered htype hparity =>
      have hreg := registers_register (s := s)
        { newStream f.streamID s.limits.window with openPayload := f.payload }
      exact .inr ⟨htype, hparity, ⟨rfl, rfl, hreg.cells, hreg.streams, hreg.pending⟩, rfl⟩
  | answered htype => exact .inl (keeps_complete_open _ _)
  | close htype hreason =>
      exact .inl (.of_fields (keeps_complete_open _ _) rfl rfl rfl rfl rfl rfl)
  | _ => exact .inl (.of_fields .rfl rfl rfl rfl rfl rfl rfl)

/-- An event leaves the books alone, or registers one stream. -/
theorem react_books {e : Event} (hreact : s.react e = some s') :
    s.Keeps s' ∨ ∃ id, s.Registers s' id := by
  cases e with
  | act a =>
      rcases step_books hreact with hkeeps | ⟨-, hreg, -⟩
      · exact .inl hkeeps
      · exact .inr ⟨_, hreg⟩
  | frame f =>
      simp only [Session.react, Option.ite_none_right_eq_some] at hreact
      rcases read_books hreact.2 with hkeeps | ⟨-, -, hreg, -⟩
      · exact .inl hkeeps
      · exact .inr ⟨_, hreg⟩

theorem react_limits {e : Event} (hreact : s.react e = some s') : s'.limits = s.limits := by
  rcases react_books hreact with hkeeps | ⟨id, hreg⟩
  · exact hkeeps.limits
  · exact hreg.limits

theorem cell_of_has {h : Handle} (hhas : s.Has h) : ∃ c, s.cell h = some c :=
  ⟨_, List.getElem?_eq_getElem hhas⟩

theorem has_of_cell {h : Handle} {c : Cell} (hcell : s.cell h = some c) : s.Has h :=
  (List.getElem?_eq_some_iff.mp hcell).1

theorem Session.Keeps.has (hk : s.Keeps s') {h : Handle} : s'.Has h ↔ s.Has h := by
  rw [Session.Has, Session.Has, hk.cells]

theorem Session.Registers.has {id : UInt32} (hr : s.Registers s' id) {h : Handle}
    (hhas : s.Has h ∨ h = s.nextHandle id) : s'.Has h := by
  obtain ⟨c, hcells⟩ := hr.cells
  rw [Session.Has, hcells]
  by_cases hid : h.id = id
  · subst hid
    rw [Function.update_self, List.length_append, List.length_singleton]
    rcases hhas with hhas | hnext
    · exact Nat.lt_succ_of_lt hhas
    · have hnth : h.nth = (s.cells h.id).length := congrArg Handle.nth hnext
      omega
  · rw [Function.update_of_ne hid]
    refine hhas.resolve_right ?_
    rintro rfl
    exact hid rfl

/-- Objects and map entries after a step: no object is lost, and a new entry is about a new
object. -/
theorem has_books (hbooks : s.Keeps s' ∨ ∃ id, s.Registers s' id) :
    (∀ h, s.Has h → s'.Has h) ∧ ∀ h ∈ s'.streams, h ∈ s.streams ∨ s'.Has h := by
  rcases hbooks with hkeeps | ⟨id, hreg⟩
  · exact ⟨fun h => hkeeps.has.mpr, fun h hh => .inl (hkeeps.streams hh)⟩
  · refine ⟨fun h hhas => hreg.has (.inl hhas), ?_⟩
    intro h hh
    rcases List.mem_cons.mp (hreg.streams hh) with hnext | hh
    · exact .inr (hreg.has (.inr hnext))
    · exact .inl hh

theorem reply_calls (type : Typ) (id : UInt32) (payload : Bytes) (next : Reader) :
    (s.reply type id payload next).calls = s.calls ∧
      (s.reply type id payload next).acceptCh = s.acceptCh := by
  unfold Session.reply
  split_ifs <;> exact ⟨rfl, rfl⟩

theorem serve_calls (id : UInt32) (task : Task) :
    (s.serve id task).calls = s.calls ∧ (s.serve id task).acceptCh = s.acceptCh := by
  unfold Session.serve
  split <;> exact ⟨rfl, rfl⟩

theorem complete_open_calls (id : UInt32) (reason : Reason) :
    (s.completeOpen id reason).calls = s.calls ∧
      (s.completeOpen id reason).acceptCh = s.acceptCh := by
  unfold Session.completeOpen
  split <;> exact ⟨rfl, rfl⟩

theorem perform_queue (id : UInt32) (effect : Effect) :
    (s.perform id effect).acceptCh = s.acceptCh := by
  cases effect <;> rfl

/-- The read loop adds the stream it serves to the queue, or nothing. -/
theorem serve_step_calls (h : Handle) (c : Cell) (task : Task) :
    (s.serveStep h c task).calls = s.calls ∧
      ((s.serveStep h c task).acceptCh = s.acceptCh ∨
        (s.serveStep h c task).acceptCh = s.acceptCh ++ [h]) := by
  cases task with
  | acking => exact ⟨(reply_calls ..).1, .inl (reply_calls ..).2⟩
  | queueing =>
      simp only [Session.serveStep]
      split_ifs
      · exact ⟨rfl, .inr rfl⟩
      · exact ⟨rfl, .inl rfl⟩
  | delivering payload =>
      simp only [Session.serveStep]
      cases c.stream.deliver payload <;> exact ⟨rfl, .inl rfl⟩
  | retiring =>
      simp only [Session.serveStep]
      split_ifs <;> exact ⟨rfl, .inl rfl⟩
  | _ => exact ⟨rfl, .inl rfl⟩

theorem rooted_kept (hroot : s.Rooted) (hbooks : s.Keeps s' ∨ ∃ id, s.Registers s' id)
    (hcases : (∃ a, s.Moves a s') ∨ ∃ f, s.Reads f s') : s'.Rooted := by
  obtain ⟨hcalls, hqueue⟩ := hroot
  obtain ⟨hmono, -⟩ := has_books hbooks
  have hsame : s'.calls = s.calls → ∀ h op, Call.stream h op ∈ s'.calls → s'.Has h := by
    intro heq h op hmem
    rw [heq] at hmem
    exact hmono h (hcalls h op hmem)
  have hkept : s'.acceptCh = s.acceptCh → ∀ h ∈ s'.acceptCh, s'.Has h := by
    intro heq h hmem
    rw [heq] at hmem
    exact hmono h (hqueue h hmem)
  -- A call is added at the end or takes the place of another.
  have hnew : ∀ {call : Call}, (∀ h op, call = .stream h op → s'.Has h) →
      (∀ c ∈ s'.calls, c ∈ s.calls ∨ c = call) →
      ∀ h op, Call.stream h op ∈ s'.calls → s'.Has h := by
    intro call hcall hsub h op hmem
    rcases hsub _ hmem with hmem | heq
    · exact hmono h (hcalls h op hmem)
    · exact hcall h op heq.symm
  have hset : ∀ {index : Nat} {call : Call}, ∀ c ∈ s.calls.set index call,
      c ∈ s.calls ∨ c = call := fun c hc => List.mem_or_eq_of_mem_set hc
  have happend : ∀ {call : Call}, ∀ c ∈ s.calls ++ [call], c ∈ s.calls ∨ c = call := by
    intro call c hc
    rcases List.mem_append.mp hc with hc | hc
    · exact .inl hc
    · exact .inr (List.mem_singleton.mp hc)
  rcases hcases with ⟨a, hmoves⟩ | ⟨f, hreads⟩
  · cases hmoves with
    | called call hcall =>
        exact ⟨hnew (fun h op heq => absurd heq (hcall h op)) happend, hkept rfl⟩
    | started hholds hcell hop =>
        refine ⟨hnew ?_ happend, hkept rfl⟩
        rintro h op heq
        cases heq
        exact hmono _ (has_of_cell hcell)
    | failed index choice call hcall =>
        exact ⟨hnew (fun h op heq => absurd heq (hcall h op)) hset, hkept rfl⟩
    | opened index choice payload hcall hdone =>
        refine ⟨hnew ?_ hset, hkept rfl⟩
        rintro h op heq
        cases heq
        exact (registers_register (s := s) (newStream s.nextID s.limits.window)).has (.inr rfl)
    | accepted index choice hq =>
        refine ⟨hnew ?_ hset, ?_⟩
        · rintro h op heq
          cases heq
          exact hqueue _ (by simp [hq])
        · intro h hh
          exact hqueue h (by rw [hq]; exact List.mem_cons_of_mem _ hh)
    | turned index choice hcall hcell hturn =>
        refine ⟨hnew ?_ hset, hkept (perform_queue _ _)⟩
        rintro h op heq
        cases heq
        exact hmono _ (has_of_cell hcell)
    | @served h task c hreader hcell =>
        obtain ⟨hc, hq⟩ := serve_step_calls (s := s) h c task
        refine ⟨hsame hc, ?_⟩
        rcases hq with hq | hq
        · exact hkept hq
        · intro i hi
          rw [hq] at hi
          rcases List.mem_append.mp hi with hi | hi
          · exact hmono i (hqueue i hi)
          · obtain rfl := List.mem_singleton.mp hi
            exact hmono _ (has_of_cell hcell)
    | refused hreader => exact ⟨hsame (reply_calls ..).1, hkept (reply_calls ..).2⟩
    | ponged hreader => exact ⟨hsame (reply_calls ..).1, hkept (reply_calls ..).2⟩
    | lookedUp hreader => exact ⟨hsame (serve_calls _ _).1, hkept (serve_calls _ _).2⟩
    | _ => exact ⟨hsame rfl, hkept rfl⟩
  · cases hreads with
    | answered htype =>
        exact ⟨hsame (complete_open_calls _ _).1, hkept (complete_open_calls _ _).2⟩
    | close htype hreason =>
        exact ⟨hsame (complete_open_calls _ _).1, hkept (complete_open_calls _ _).2⟩
    | _ => exact ⟨hsame rfl, hkept rfl⟩

/-- A session stays tidy as long as its counter does not wrap. -/
theorem tidy_step {a : Action} (hs : s.Tidy) (hstep : s.step a = some s')
    (hbound : ∀ index choice payload, a = .advance index choice →
      s.calls[index]? = some (.openStream payload) → s.nextID.toNat + 2 < 2 ^ 32) : s'.Tidy := by
  rcases step_books hstep with hkeeps | ⟨⟨index, choice, payload, ha, hcall⟩, hreg, hnext⟩
  · exact hkeeps.tidy hs
  · exact hreg.tidy hs (hs.fresh _ hs.parity (UInt32.le_refl _))
      (.inr ⟨rfl, hnext, hbound index choice payload ha hcall⟩)

/-- A session stays tidy as long as the peer opens no stream twice. -/
theorem tidy_read {f : Frame} (hs : s.Tidy) (hread : s.read f = some s')
    (hopen : f.type = .openStream → s.cells f.streamID = []) : s'.Tidy := by
  rcases read_books hread with hkeeps | ⟨htype, hparity, hreg, hnext⟩
  · exact hkeeps.tidy hs
  · exact hreg.tidy hs (hopen htype) (.inl ⟨hnext, hparity⟩)

/-- A new session is tidy. -/
theorem tidy_new_session (isClient : Bool) (ack : HelloAck) : (newSession isClient ack).Tidy := by
  refine ⟨?_, fun _ _ _ => rfl, ?_, fun _ h => absurd h List.not_mem_nil,
    fun _ h => absurd h List.not_mem_nil⟩
  · intro id
    exact Nat.zero_le 1
  · cases isClient <;> simp [Session.owns, newSession]

end Books

end AccessRelay.Mux
