import AccessRelay.Mux.Endpoint

/-!
# How a stream reaches the application, and how it leaves the table

A stream is handed to the application at most once: by the `Open` that created it, or through the
queue of `AcceptStream` by the read loop that registered it. Whoever is on the way to do so holds
the one admission of the stream, and `once` says that there is never a second. What leaves the
stream map is then finished, about to be killed by `closeOnce`, or has never been handed out and
never will be (`Abandoned`).

These are invariants of a single end. They hold against any peer, as long as an identifier is not
used twice.
-/

namespace AccessRelay.Mux

open Encoding Proto

namespace Op

/-- The operation has returned the stream to the application, or may still do so. -/
def Admits : Op → Prop
  | .sendOpen _ | .awaitAck | .opened | .accepted => True
  | _ => False

/-- The operation holds the admission of the stream: it is an `Open` or an `AcceptStream`. -/
def admissions : Op → Nat
  | .sendOpen _ | .awaitAck | .retireOpen _ | .opened | .openFailed _ | .accepted => 1
  | _ => 0

/-- The operation is the second half of a `Reset`. -/
def Resets : Op → Prop
  | .sendReset _ | .retire _ => True
  | _ => False

end Op

/-- The read loop holds the admission of the stream: it is about to queue it. -/
def Hand.admissions : Hand → Nat
  | .serving .acking | .serving .queueing | .serving .dropping => 1
  | _ => 0

namespace End

/-- Who holds the admission of the stream. -/
def admissions (e : End) : Nat :=
  (e.ops.map Op.admissions).sum + e.queued + e.hand.admissions

/-- The stream has not been handed to the application and will not be. -/
structure Abandoned (e : End) : Prop where
  ops : ∀ op ∈ e.ops, ¬ op.Admits
  queued : e.queued = 0
  acking : e.hand ≠ .serving .acking
  queueing : e.hand ≠ .serving .queueing

/-- The state of an end without an object, as far as admissions go. -/
structure Vacant (e : End) : Prop where
  registered : e.registered = false
  doomed : e.doomed = false
  queued : e.queued = 0
  ops : e.ops = 0
  hand : ∀ task, e.hand ≠ .serving task

/-- Where a stream is between its admission and its end. -/
structure Admitted (e : End) : Prop where
  vacant : e.cell = none → e.Vacant
  once : e.admissions ≤ 1
  resets : ∀ c, e.cell = some c → ∀ op ∈ e.ops, op.Resets → c.stream.reset = true
  leaves : ∀ c, e.cell = some c →
    c.stream.finished = true ∨ e.registered = true ∨ e.doomed = true ∨ e.Abandoned

theorem Vacant.admissions {e : End} (h : e.Vacant) : e.admissions = 0 := by
  have hhand : e.hand.admissions = 0 := by
    cases hh : e.hand with
    | serving task => exact absurd hh (h.hand task)
    | _ => rfl
  rw [End.admissions, h.ops, h.queued, hhand]
  rfl

end End

theorem Stream.Grows.finished {st st' : Stream} (h : st.Grows st') (hf : st.finished = true) :
    st'.finished = true := by
  simp only [Stream.finished, Bool.or_eq_true, Bool.and_eq_true] at hf ⊢
  rcases hf with hreset | ⟨hlocal, hremote⟩
  · exact .inl (h.reset hreset)
  · exact .inr ⟨h.localClosed hlocal, h.remoteClosed hremote⟩

section Turns

variable {lim : Limits} {done : Bool} {ack : Option Reason} {c : Cell} {op : Op} {turn : Turn}

/-- An operation passes its admission on, or keeps none. -/
theorem turn_admissions (hturn : OpStep lim done ack c op turn) :
    turn.op.admissions ≤ op.admissions ∧ (turn.op.Admits → op.Admits) := by
  cases hturn with
  | readBytes length hread => split_ifs <;> exact ⟨Nat.le_refl _, fun h => h⟩
  | _ => exact ⟨Nat.le_refl _, by simp [Op.Admits]⟩

/-- An operation drops its stream from the table when the stream is finished, or when it is an
`Open` that fails. -/
theorem turn_retires (hturn : OpStep lim done ack c op turn) (heffect : turn.effect = .retire)
    (hresets : op.Resets → c.stream.reset = true) :
    turn.cell.stream.finished = true ∨ (op.admissions = 1 ∧ ¬ turn.op.Admits) := by
  cases hturn with
  | openRetired error => exact .inr ⟨rfl, fun h => h⟩
  | closeRetired failed hfinished => exact .inl hfinished
  | resetRetired failed =>
      left
      simp [Stream.finished, hresets trivial]
  | creditSent credit data hdone => cases heffect
  | _ => cases heffect

/-- The second half of a `Reset` comes after the first. -/
theorem turn_resets (hturn : OpStep lim done ack c op turn)
    (hresets : op.Resets → c.stream.reset = true) :
    turn.op.Resets → turn.cell.stream.reset = true := by
  cases hturn with
  | readBytes length hread => split_ifs <;> exact fun h => h.elim
  | resetAbort r hreset => exact fun _ => rfl
  | resetSent r hdone => exact fun _ => hresets trivial
  | resetLost r hlost => exact fun _ => hresets trivial
  | _ => exact fun h => h.elim

theorem start_admissions {c' : Cell} (h : op.start c = some c') :
    op.admissions = 0 ∧ ¬ op.Admits ∧ ¬ op.Resets := by
  unfold Op.start at h
  split at h <;> cases h <;> exact ⟨rfl, fun h => h, fun h => h⟩

end Turns

section Steps

variable {lim : Limits} {opens : Bool} {id : UInt32} {e e' : End} {l : Label} {m : Msg}

theorem admissions_cons (op : Op) (rest : Multiset Op) :
    ((op ::ₘ rest).map Op.admissions).sum = op.admissions + (rest.map Op.admissions).sum := by
  rw [Multiset.map_cons, Multiset.sum_cons]

/-- A step passes the admission on or drops it. Only a new object brings one. -/
theorem EndStep.admissions_le (h : EndStep lim opens id e l e') :
    e'.admissions ≤ e.admissions ∨ (e.cell = none ∧ e'.admissions = e.admissions + 1) := by
  cases h with
  | halt hhand => exact .inl (Nat.add_le_add_left (Nat.zero_le _) _)
  | create payload hopens hcell hdone =>
      right
      refine ⟨hcell, ?_⟩
      simp only [End.admissions, admissions_cons, Op.admissions]
      omega
  | start hheld hcell hop =>
      left
      simp only [End.admissions, admissions_cons, (start_admissions hop).1]
      omega
  | advance hcell hops hturn =>
      left
      have hle := (turn_admissions hturn).1
      simp only [End.admissions, perform_ops, perform_queued, perform_hand, hops, admissions_cons]
      omega
  | accept hqueued =>
      left
      simp only [End.admissions, admissions_cons, Op.admissions, hqueued]
      omega
  | ack hhand hcell hdone =>
      left
      simp only [End.admissions, hhand, Hand.admissions]
      omega
  | queue hhand hcell =>
      left
      simp only [End.admissions, hhand, Hand.admissions]
      omega
  | full hhand hcell =>
      left
      simp only [End.admissions, hhand, Hand.admissions]
      omega
  | found hhand hregistered =>
      left
      simp only [End.admissions, hhand, Hand.admissions]
      omega
  | close hhand hcell =>
      left
      simp only [End.admissions, hhand, Hand.admissions]
      omega
  | drop hhand hcell => exact .inl (Nat.add_le_add_left (Nat.zero_le _) _)
  | refuse hhand hdone => exact .inl (Nat.add_le_add_left (Nat.zero_le _) _)
  | deliver hhand hcell hdeliver => exact .inl (Nat.add_le_add_left (Nat.zero_le _) _)
  | grant hhand hcell => exact .inl (Nat.add_le_add_left (Nat.zero_le _) _)
  | missing hhand hregistered => exact .inl (Nat.add_le_add_left (Nat.zero_le _) _)
  | retired hhand hcell hfinished => exact .inl (Nat.add_le_add_left (Nat.zero_le _) _)
  | kept hhand hcell hfinished => exact .inl (Nat.add_le_add_left (Nat.zero_le _) _)
  | _ => exact .inl (Nat.le_refl _)

/-- A stream that has been abandoned stays so. -/
theorem EndStep.abandoned (h : EndStep lim opens id e l e') {c : Cell} (hc : e.cell = some c)
    (ha : e.Abandoned) : e'.Abandoned := by
  have hcons : ∀ {op : Op} {rest : Multiset Op}, ¬ op.Admits → (∀ op ∈ rest, ¬ op.Admits) →
      ∀ op' ∈ op ::ₘ rest, ¬ op'.Admits := by
    intro op rest hop hrest op' hmem
    rcases Multiset.mem_cons.mp hmem with rfl | hmem
    · exact hop
    · exact hrest op' hmem
  cases h with
  | create payload hopens hcell hdone =>
      rw [hc] at hcell
      cases hcell
  | start hheld hcell hop =>
      exact ⟨hcons (start_admissions hop).2.1 ha.ops, ha.queued, ha.acking, ha.queueing⟩
  | advance hcell hops hturn =>
      refine ⟨?_, by simpa using ha.queued, by simpa using ha.acking, by simpa using ha.queueing⟩
      rw [perform_ops]
      refine hcons ?_ fun op hop => ha.ops op (by simp [hops, hop])
      exact fun hadmits => ha.ops _ (by simp [hops]) ((turn_admissions hturn).2 hadmits)
  | accept hqueued =>
      have hzero := ha.queued
      omega
  | ack hhand hcell hdone => exact absurd hhand ha.acking
  | queue hhand hcell => exact absurd hhand ha.queueing
  | full hhand hcell => exact absurd hhand ha.queueing
  | idle _ _ _ => exact ⟨ha.ops, ha.queued, ha.acking, ha.queueing⟩
  | collect _ _ _ => exact ⟨ha.ops, ha.queued, ha.acking, ha.queueing⟩
  | kill _ _ _ => exact ⟨ha.ops, ha.queued, ha.acking, ha.queueing⟩
  | notify _ _ _ => exact ⟨ha.ops, ha.queued, ha.acking, ha.queueing⟩
  | _ => exact ⟨ha.ops, ha.queued, by simp, by simp⟩

/-- A stream whose admission nobody holds is abandoned. -/
theorem abandoned_of_admissions (hops : (e.ops.map Op.admissions).sum = 0)
    (hqueued : e.queued = 0) (hhand : e.hand.admissions = 0) : e.Abandoned := by
  refine ⟨?_, hqueued, ?_, ?_⟩
  · intro op hop hadmits
    obtain ⟨rest, hrest⟩ := Multiset.exists_cons_of_mem hop
    rw [hrest, admissions_cons] at hops
    cases op with
    | sendOpen payload => simp [Op.admissions] at hops
    | awaitAck => simp [Op.admissions] at hops
    | opened => simp [Op.admissions] at hops
    | accepted => simp [Op.admissions] at hops
    | _ => exact hadmits
  · intro heq
    rw [heq] at hhand
    cases hhand
  · intro heq
    rw [heq] at hhand
    cases hhand

/-- An end without an object stays vacant until it gets one. -/
theorem EndStep.vacant (h : EndStep lim opens id e l e') (hv : e.Vacant) (hcell' : e'.cell = none) :
    e'.Vacant := by
  cases h with
  | create payload hopens hnone hdone => cases hcell'
  | start hheld hborn hop => cases hcell'
  | advance hborn hops hturn => simp at hcell'
  | deliver hhand hborn hdeliver => cases hcell'
  | grant hhand hborn => cases hcell'
  | close hhand hborn => cases hcell'
  | kill hlive hdoomed hborn => cases hcell'
  | accept hqueued =>
      have hzero := hv.queued
      omega
  | ack hhand hborn hdone => exact absurd hhand (hv.hand _)
  | queue hhand hborn => exact absurd hhand (hv.hand _)
  | full hhand hborn => exact absurd hhand (hv.hand _)
  | drop hhand hborn => exact absurd hhand (hv.hand _)
  | found hhand hregistered =>
      rw [hv.registered] at hregistered
      cases hregistered
  | retired hhand hborn hfinished => exact absurd hhand (hv.hand _)
  | kept hhand hborn hfinished => exact absurd hhand (hv.hand _)
  | collect _ _ _ => exact ⟨rfl, hv.registered, hv.queued, hv.ops, hv.hand⟩
  | idle _ _ _ => exact ⟨hv.registered, hv.doomed, hv.queued, hv.ops, hv.hand⟩
  | notify _ _ _ => exact ⟨hv.registered, hv.doomed, hv.queued, hv.ops, hv.hand⟩
  | _ => exact ⟨hv.registered, hv.doomed, hv.queued, hv.ops, by simp⟩

/-- The second half of a `Reset` comes after the first, at every step. -/
theorem EndStep.resets (h : EndStep lim opens id e l e') (ha : e.Admitted) :
    ∀ c, e'.cell = some c → ∀ op ∈ e'.ops, op.Resets → c.stream.reset = true := by
  have hold : ∀ {c₀ c : Cell}, e.cell = some c₀ → e'.cell = some c →
      ∀ op ∈ e.ops, op.Resets → c.stream.reset = true := by
    intro c₀ c hc₀ hc op hop hresets
    obtain ⟨d, hd, hgrows⟩ := h.cell_mono hc₀
    rw [hc] at hd
    cases hd
    exact hgrows.reset (ha.resets c₀ hc₀ op hop hresets)
  -- Every step but these leaves the operations alone.
  have hsame : e'.ops = e.ops → ∀ c, e'.cell = some c → ∀ op ∈ e'.ops, op.Resets →
      c.stream.reset = true := by
    intro hops c hc op hop hresets
    rw [hops] at hop
    cases hc₀ : e.cell with
    | none =>
        rw [(ha.vacant hc₀).ops] at hop
        exact absurd hop (Multiset.notMem_zero op)
    | some c₀ => exact hold hc₀ hc op hop hresets
  cases h with
  | create payload hopens hcell hdone =>
      intro c hc op hop hresets
      rcases Multiset.mem_cons.mp hop with rfl | hop
      · exact hresets.elim
      · rw [(ha.vacant hcell).ops] at hop
        exact absurd hop (Multiset.notMem_zero op)
  | start hheld hcell hop =>
      intro c hc op hmem hresets
      rcases Multiset.mem_cons.mp hmem with rfl | hmem
      · exact absurd hresets (start_admissions hop).2.2
      · exact hold hcell hc op hmem hresets
  | advance hcell hops hturn =>
      intro c hc op hmem hresets
      have hcell' := hc
      rw [perform_cell] at hc
      cases hc
      rw [perform_ops] at hmem
      rcases Multiset.mem_cons.mp hmem with rfl | hmem
      · exact turn_resets hturn (ha.resets _ hcell _ (by simp [hops])) hresets
      · exact hold hcell hcell' op (by simp [hops, hmem]) hresets
  | accept hqueued =>
      intro c hc op hmem hresets
      rcases Multiset.mem_cons.mp hmem with rfl | hmem
      · exact hresets.elim
      · exact hold hc hc op hmem hresets
  | _ => exact hsame rfl

/-- A stream leaves the table when it is finished, when `closeOnce` has taken it, or when it is
abandoned. -/
theorem EndStep.leaves (h : EndStep lim opens id e l e') (ha : e.Admitted) :
    ∀ c, e'.cell = some c →
      c.stream.finished = true ∨ e'.registered = true ∨ e'.doomed = true ∨ e'.Abandoned := by
  have hold : ∀ {c₀ c : Cell}, e.cell = some c₀ → e'.cell = some c →
      (e.registered = true → e'.registered = true) → (e.doomed = true → e'.doomed = true) →
      c.stream.finished = true ∨ e'.registered = true ∨ e'.doomed = true ∨ e'.Abandoned := by
    intro c₀ c hc₀ hc hregistered hdoomed
    obtain ⟨d, hd, hgrows⟩ := h.cell_mono hc₀
    rw [hc] at hd
    cases hd
    rcases ha.leaves c₀ hc₀ with hf | hr | hd | hab
    · exact .inl (hgrows.finished hf)
    · exact .inr (.inl (hregistered hr))
    · exact .inr (.inr (.inl (hdoomed hd)))
    · exact .inr (.inr (.inr (h.abandoned hc₀ hab)))
  have honce := ha.once
  cases h with
  | create payload hopens hcell hdone => exact fun c hc => .inr (.inl rfl)
  | start hheld hcell hop => exact fun c hc => hold hcell hc (fun h => h) (fun h => h)
  | @advance op rest c₀ turn hcell hops hturn =>
      intro c hc
      by_cases hretire : turn.effect = .retire
      · have hc' := hc
        rw [perform_cell] at hc'
        cases hc'
        rcases turn_retires hturn hretire (ha.resets _ hcell op (by simp [hops])) with
          hf | ⟨hone, hadmits⟩
        · exact .inl hf
        · -- A failing `Open` gives up the only admission.
          rw [End.admissions, hops, admissions_cons] at honce
          have hrest : { e with ops := rest }.Abandoned :=
            abandoned_of_admissions (show (rest.map Op.admissions).sum = 0 by omega)
              (show e.queued = 0 by omega) (show e.hand.admissions = 0 by omega)
          refine .inr (.inr (.inr ⟨?_, by simpa using hrest.queued, by simpa using hrest.acking,
            by simpa using hrest.queueing⟩))
          intro op' hop'
          rw [perform_ops] at hop'
          rcases Multiset.mem_cons.mp hop' with rfl | hop'
          · exact hadmits
          · exact hrest.ops op' hop'
      · refine hold hcell hc ?_ ?_
        · intro hr
          simp [hretire, hr]
        · simp
  | drop hhand hcell =>
      intro c hc
      rw [End.admissions, hhand] at honce
      simp only [Hand.admissions] at honce
      exact .inr (.inr (.inr (abandoned_of_admissions
        (show (e.ops.map Op.admissions).sum = 0 by omega) (show e.queued = 0 by omega) rfl)))
  | retired hhand hcell hfinished =>
      intro c hc
      rw [show e.cell = some c from hc] at hcell
      cases hcell
      exact .inl hfinished
  | collect hlive hdoomed hunanswered =>
      intro c hc
      rcases ha.leaves c hc with hf | hr | hd | hab
      · exact .inl hf
      · exact .inr (.inr (.inl hr))
      · rw [hdoomed] at hd
        cases hd
      · exact .inr (.inr (.inr ⟨hab.ops, hab.queued, hab.acking, hab.queueing⟩))
  | kill hlive hdoomed hcell =>
      intro c hc
      cases hc
      left
      simp [Stream.finished, kill_reset]
  | deliver hhand hcell hdeliver => exact fun c hc => hold hcell hc (fun h => h) (fun h => h)
  | grant hhand hcell => exact fun c hc => hold hcell hc (fun h => h) (fun h => h)
  | close hhand hcell => exact fun c hc => hold hcell hc (fun h => h) (fun h => h)
  | _ => exact fun c hc => hold hc hc (fun h => h) (fun h => h)

/-- A step of an end keeps its admission in order. -/
theorem EndStep.admitted (h : EndStep lim opens id e l e') (ha : e.Admitted) : e'.Admitted := by
  refine ⟨?_, ?_, h.resets ha, h.leaves ha⟩
  · intro hcell'
    have hcell := h.cell_none_of hcell'
    exact h.vacant (ha.vacant hcell) hcell'
  · rcases h.admissions_le with hle | ⟨hcell, heq⟩
    · exact hle.trans ha.once
    · rw [heq, (ha.vacant hcell).admissions]

/-- A message keeps the admission of an end in order; it brings one only with a new object. -/
theorem Receive.admitted (h : Receive lim id e m e') (hhand : e.hand = .free)
    (ha : e.Admitted) : e'.Admitted := by
  have hkeep : ∀ hand : Hand, hand.admissions = 0 →
      (e.cell = none → ∀ task, hand ≠ .serving task) → ∀ e' : End,
      e' = { e with hand := hand, awaiting := e'.awaiting, acked := e'.acked } →
      e'.Admitted := by
    intro hand hzero hidle e' he'
    rw [he']
    refine ⟨?_, ?_, ha.resets, ?_⟩
    · intro hcell
      have hv := ha.vacant hcell
      exact ⟨hv.registered, hv.doomed, hv.queued, hv.ops, hidle hcell⟩
    · have honce := ha.once
      simp only [End.admissions, hhand, hzero] at honce ⊢
      simpa [Hand.admissions] using honce
    · intro c hc
      rcases ha.leaves c hc with hf | hr | hd | hab
      · exact .inl hf
      · exact .inr (.inl hr)
      · exact .inr (.inr (.inl hd))
      · refine .inr (.inr (.inr ⟨hab.ops, hab.queued, ?_, ?_⟩)) <;>
        · rintro rfl
          cases hzero
  have hserved : ∀ task, e.registered = true → e.cell = none →
      ∀ task', Hand.serving task ≠ .serving task' := by
    intro task hregistered hcell
    rw [(ha.vacant hcell).registered] at hregistered
    cases hregistered
  cases h with
  | tooLarge hsize => exact hkeep .stopped rfl (by simp) _ rfl
  | openFailed => exact hkeep .stopped rfl (by simp) _ rfl
  | openRefused => exact hkeep .refusing rfl (by simp) _ rfl
  | opened payload hcell =>
      have hv := ha.vacant hcell
      refine ⟨by simp, ?_, ?_, fun c hc => .inr (.inl rfl)⟩
      · simp [End.admissions, hv.ops, hv.queued, Hand.admissions]
      · intro c hc op hop
        rw [show e.ops = 0 from hv.ops] at hop
        exact absurd hop (Multiset.notMem_zero op)
  | streamOK => exact hkeep .free rfl (by simp) _ (by simp [End.complete, hhand])
  | data hregistered => exact hkeep _ rfl (hserved _ hregistered) _ rfl
  | window hregistered => exact hkeep _ rfl (hserved _ hregistered) _ rfl
  | dropped hregistered hm => exact ha
  | @close reason => exact hkeep (.lookingUp reason) rfl (by simp) _ (by simp [End.complete])

end Steps

end AccessRelay.Mux
