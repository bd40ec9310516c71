import AccessRelay.Storage.AuditQuery

/-!
# The audit listing

`cmdAudit` of `cmd/sar-server/admin.go`. Without `-denials` it prints what one query returns. With
`-denials` it asks for each of four event names, sorts what comes back and cuts it at the limit.

`QueryAudit` keeps the limit within bounds, but the command compares and cuts with the number that
was typed, and `-denials` puts its four names in the place of `-event`. `denials_newest_iff` says
when the listing is the one that a single query would give, and `cap_told_iff` when a listing that
is not complete says so. For limits from one to the largest that the store allows, and no `-event`,
both always hold.
-/

namespace AccessRelay.Server

open Encoding Go Data Storage

/-- The flags of `sar-server audit` that select events. -/
structure AuditFlags where
  since : Duration
  event : Bytes
  actor : Bytes
  device : Bytes
  resource : Bytes
  grant : Bytes
  limit : Int
  denials : Bool

/-- The filter that the flags stand for. -/
def AuditFlags.filter (flags : AuditFlags) (now : Time) : AuditFilter where
  since := now.add (-flags.since)
  upTo := Time.zero
  event := flags.event
  actorID := flags.actor
  deviceID := flags.device
  resourceID := flags.resource
  grantID := flags.grant
  limit := flags.limit

/-- The names of the denial events. -/
def denialEvents : List Bytes :=
  [ascii "grant.denied", ascii "stream.denied", ascii "enroll.denied",
    ascii "operator.login_denied"]

/-- The inner loop of `sortBySeqDesc`: an event moves towards the front of the slice past those
with a smaller number. The part of the slice before it is given last event first. -/
def moveForward (e : AuditRow) : List AuditRow → List AuditRow
  | [] => [e]
  | previous :: front =>
      if previous.seq < e.seq then previous :: moveForward e front else e :: previous :: front

/-- `sortBySeqDesc`. -/
def sortBySeqDesc (events : List AuditRow) : List AuditRow :=
  (events.foldl (fun front e => moveForward e front) []).reverse

/-- A slice expression is out of range. -/
inductive Panic where
  | sliceBounds
  deriving DecidableEq

/-- `if len(events) > limit { events = events[:limit] }`. -/
def cutAt (limit : Int) (events : List AuditRow) : Except Panic (List AuditRow) :=
  if limit < events.length then
    if limit < 0 then .error .sliceBounds else .ok (events.take limit.toNat)
  else .ok events

/-- The events with one name that match the other flags. -/
def AuditFlags.named (flags : AuditFlags) (trail : Trail) (now : Time) (name : Bytes) :
    List AuditRow :=
  trail.rows.filter { flags.filter now with event := name }.admits

/-- The batches of `-denials`, one after another. -/
def AuditFlags.batches (flags : AuditFlags) (trail : Trail) (now : Time) : List AuditRow :=
  denialEvents.flatMap fun name => trail.queryAudit { flags.filter now with event := name }

/-- The events to print. -/
def AuditFlags.events (flags : AuditFlags) (trail : Trail) (now : Time) :
    Except Panic (List AuditRow) :=
  if flags.denials then cutAt flags.limit (sortBySeqDesc (flags.batches trail now))
  else .ok (trail.queryAudit (flags.filter now))

/-- What the command prints: that there is nothing, or a table, the size of the trail, and perhaps
the note that the output was capped. -/
inductive AuditOutput where
  | noMatch (total : Nat)
  | table (shown : List AuditRow) (total : Nat) (capNote : Bool)
  deriving DecidableEq

/-- `cmdAudit`, for the flags that list events. -/
def cmdAudit (trail : Trail) (flags : AuditFlags) (now : Time) : Except Panic AuditOutput :=
  match flags.events trail now with
  | .error e => .error e
  | .ok [] => .ok (.noMatch trail.rows.length)
  | .ok shown =>
      .ok (.table shown trail.rows.length ((shown.length : Int) = flags.limit))

/-- The events that are printed; none if the command panics. -/
def printed : Except Panic AuditOutput → List AuditRow
  | .ok (.table shown _ _) => shown
  | _ => []

/-- The cap note is printed. -/
def capNoted : Except Panic AuditOutput → Bool
  | .ok (.table _ _ capNote) => capNote
  | _ => false

/-- The events of the trail that the command asks for: those with a denial name under `-denials`,
those that the filter admits otherwise. -/
def AuditFlags.asked (flags : AuditFlags) (trail : Trail) (now : Time) : List AuditRow :=
  if flags.denials then
    (trail.rows.filter { flags.filter now with event := [] }.admits).filter
      fun row => row.event ∈ denialEvents
  else trail.rows.filter (flags.filter now).admits

/-- The events of the trail that match all flags. -/
def AuditFlags.matching (flags : AuditFlags) (trail : Trail) (now : Time) : List AuditRow :=
  (flags.asked trail now).filter fun row => matchesID flags.event row.event

section Sorting

theorem move_forward_eq (e : AuditRow) (front : List AuditRow) :
    moveForward e front = front.orderedInsert (fun a b => a.seq ≤ b.seq) e := by
  induction front with
  | nil => rfl
  | cons previous front ih =>
      rw [moveForward, List.orderedInsert_cons, ih]
      by_cases hlt : previous.seq < e.seq
      · rw [if_pos hlt, if_neg (Int64.not_le.mpr hlt)]
      · rw [if_neg hlt, if_pos (Int64.not_lt.mp hlt)]

/-- `sortBySeqDesc` puts events with distinct numbers in the order of a query. -/
theorem sort_by_seq_desc_eq {events : List AuditRow} (hstrict : Strict AuditRow.newer events) :
    sortBySeqDesc events = events.mergeSort AuditRow.newer := by
  have hsort : sortBySeqDesc events =
      (events.reverse.insertionSort fun a b => a.seq ≤ b.seq).reverse := by
    have hmove : (fun front e => moveForward e front) =
        fun front e => List.orderedInsert (fun a b : AuditRow => a.seq ≤ b.seq) e front := by
      funext front e
      exact move_forward_eq e front
    rw [sortBySeqDesc, hmove, List.insertionSort, List.foldr_reverse]
  have htotal : Std.Total fun a b : AuditRow => a.seq ≤ b.seq :=
    ⟨fun a b => Int64.le_total a.seq b.seq⟩
  have htrans : IsTrans AuditRow fun a b => a.seq ≤ b.seq := ⟨fun a b c => Int64.le_trans⟩
  have hsorted : (sortBySeqDesc events).Pairwise fun a b => AuditRow.newer a b := by
    rw [hsort, List.pairwise_reverse]
    refine (List.pairwise_insertionSort (fun a b : AuditRow => a.seq ≤ b.seq) _).imp ?_
    intro a b hle
    simpa [AuditRow.newer] using hle
  have hperm : (sortBySeqDesc events).Perm events := by
    rw [hsort]
    exact (List.reverse_perm _).trans ((List.perm_insertionSort _ _).trans (List.reverse_perm _))
  exact sorted_unique (hstrict.mono fun a ha => hperm.mem_iff.mp ha) hsorted
    (List.pairwise_mergeSort newer_listing.trans newer_listing.total events)
    (hperm.trans (List.mergeSort_perm events _).symm)

end Sorting

section Limits

/-- The bounds of the store, by the range of the limit. -/
theorem row_limit_cases (limit : Int) :
    (limit ≤ 0 ∧ rowLimit limit = 100) ∨
      (1 ≤ limit ∧ limit ≤ maxAuditLimit ∧ rowLimit limit = limit.toNat) ∨
      (maxAuditLimit < limit ∧ rowLimit limit = maxAuditLimit.toNat) := by
  have hdefault : defaultAuditLimit = 100 := rfl
  have hmax : maxAuditLimit = 10000 := rfl
  simp only [rowLimit, hdefault, hmax]
  split_ifs <;> omega

theorem cut_at_of_neg {limit : Int} (h : limit < 0) (events : List AuditRow) :
    cutAt limit events = .error .sliceBounds := by
  rw [cutAt, if_pos (by omega), if_pos h]

theorem cut_at_of_nonneg {limit : Int} (h : 0 ≤ limit) (events : List AuditRow) :
    cutAt limit events = .ok (events.take limit.toNat) := by
  unfold cutAt
  split_ifs with hlong hneg
  · omega
  · rfl
  · rw [List.take_of_length_le (by omega)]

end Limits

section Denials

theorem denial_events_nodup : denialEvents.Nodup := by decide

variable {trail : Trail} {flags : AuditFlags} {now : Time}

/-- The events with one denial name, among those that match the other flags. -/
theorem named_eq {name : Bytes} (hname : name ∈ denialEvents) :
    flags.named trail now name =
      (trail.rows.filter { flags.filter now with event := [] }.admits).filter
        fun row => row.event = name := by
  have hne : name ≠ [] := by
    intro heq
    rw [heq] at hname
    exact absurd hname (by decide)
  rw [AuditFlags.named, List.filter_filter]
  refine List.filter_congr fun row _ => ?_
  simp only [AuditFilter.admits, matchesID, hne, decide_true, decide_false, Bool.false_or,
    Bool.true_or, Bool.and_true]
  cases decide (row.event = name) <;> simp

theorem named_event {name : Bytes} (hname : name ∈ denialEvents) {row : AuditRow}
    (hrow : row ∈ flags.named trail now name) : row.event = name := by
  rw [named_eq hname] at hrow
  exact of_decide_eq_true (List.mem_filter.mp hrow).2

/-- The denials that are asked for, name by name. -/
theorem named_perm (hdenials : flags.denials = true) :
    (denialEvents.flatMap (flags.named trail now)).Perm (flags.asked trail now) := by
  have hparts : denialEvents.flatMap (flags.named trail now) = denialEvents.flatMap fun name =>
      (trail.rows.filter { flags.filter now with event := [] }.admits).filter
        fun row => row.event = name :=
    List.flatMap_congr fun name hname => named_eq hname
  rw [hparts, AuditFlags.asked, if_pos hdenials]
  exact flat_map_filter_perm denial_events_nodup (fun row => decide_eq_true_iff) _

theorem asked_subset : flags.asked trail now ⊆ trail.rows := by
  intro row hrow
  unfold AuditFlags.asked at hrow
  split at hrow
  · exact List.mem_of_mem_filter (List.mem_of_mem_filter hrow)
  · exact List.mem_of_mem_filter hrow

theorem asked_nodup : (flags.asked trail now).Nodup := by
  unfold AuditFlags.asked
  split
  · exact (trail.rows_nodup.filter _).filter _
  · exact trail.rows_nodup.filter _

theorem named_subset (hdenials : flags.denials = true) :
    denialEvents.flatMap (flags.named trail now) ⊆ trail.rows := fun _ h =>
  asked_subset ((named_perm hdenials).mem_iff.mp h)

theorem batches_subset (hdenials : flags.denials = true) :
    flags.batches trail now ⊆ flags.asked trail now := by
  intro row hrow
  obtain ⟨name, hname, hmem⟩ := List.mem_flatMap.mp hrow
  exact (named_perm hdenials).mem_iff.mp
    (List.mem_flatMap.mpr ⟨name, hname, top_subset _ _ hmem⟩)

/-- One limited query over all denials, from the batches. -/
theorem top_batches (hdenials : flags.denials = true) :
    top AuditRow.newer (rowLimit flags.limit) (flags.batches trail now) =
      top AuditRow.newer (rowLimit flags.limit) (flags.asked trail now) := by
  have hstrict : Strict AuditRow.newer (denialEvents.flatMap (flags.named trail now)) :=
    trail.strict (named_subset hdenials)
  have hunion := top_flat_map (n := rowLimit flags.limit) newer_listing
    (flags.named trail now) denialEvents hstrict
  refine hunion.trans ?_
  rw [top, top, merge_sort_perm newer_listing hstrict (named_perm hdenials)]

/-- The number of events in the batches. -/
theorem length_batches : (flags.batches trail now).length =
    (denialEvents.map fun name =>
      min (rowLimit flags.limit) (flags.named trail now name).length).sum := by
  rw [AuditFlags.batches, List.length_flatMap]
  refine congrArg List.sum (List.map_congr_left fun name _ => ?_)
  exact length_top _ _

/-- The number of denials that are asked for. -/
theorem length_asked (hdenials : flags.denials = true) : (flags.asked trail now).length =
    (denialEvents.map fun name => (flags.named trail now name).length).sum := by
  rw [← (named_perm hdenials).length_eq, List.length_flatMap]

/-- The batches hold no more than the store's bound exactly if no more than that match, or all that
match have one name. -/
theorem batches_le_iff (trail : Trail) (now : Time) (hdenials : flags.denials = true) :
    (flags.batches trail now).length ≤ rowLimit flags.limit ↔
      (flags.asked trail now).length ≤ rowLimit flags.limit ∨
        ∃ name ∈ denialEvents, ∀ row ∈ flags.asked trail now, row.event = name := by
  have hpositive : 0 < rowLimit flags.limit := by
    have hmax : maxAuditLimit = 10000 := rfl
    rcases row_limit_cases flags.limit with h | h | h <;> omega
  rw [length_batches, length_asked hdenials,
    sum_min_le_iff _ hpositive denial_events_nodup]
  refine or_congr Iff.rfl (exists_congr fun name => and_congr_right fun hname => ?_)
  constructor
  · intro hzero row hrow
    obtain ⟨other, hother, hmem⟩ := List.mem_flatMap.mp ((named_perm hdenials).mem_iff.mpr hrow)
    by_contra hne
    have hempty := List.length_eq_zero_iff.mp (hzero other hother (named_event hother hmem ▸ hne))
    rw [hempty] at hmem
    exact absurd hmem List.not_mem_nil
  · intro hone other hother hne
    refine List.length_eq_zero_iff.mpr (List.eq_nil_iff_forall_not_mem.mpr fun row hmem => ?_)
    have hrow := (named_perm hdenials).mem_iff.mp (List.mem_flatMap.mpr ⟨other, hother, hmem⟩)
    exact hne ((named_event hother hmem).symm.trans (hone row hrow))

end Denials

section Output

variable {trail : Trail} {flags : AuditFlags} {now : Time}

/-- What the command prints for the events it has collected. -/
theorem cmd_audit_ok {shown : List AuditRow} (h : flags.events trail now = .ok shown) :
    (cmdAudit trail flags now).isOk = true ∧ printed (cmdAudit trail flags now) = shown ∧
      (capNoted (cmdAudit trail flags now) = true ↔
        shown ≠ [] ∧ (shown.length : Int) = flags.limit) := by
  unfold cmdAudit
  rw [h]
  cases shown with
  | nil => simp [printed, capNoted, Except.isOk, Except.toBool]
  | cons row shown => simp [printed, capNoted, Except.isOk, Except.toBool]

theorem cmd_audit_error {e : Panic} (h : flags.events trail now = .error e) :
    (cmdAudit trail flags now).isOk = false ∧ printed (cmdAudit trail flags now) = [] ∧
      capNoted (cmdAudit trail flags now) = false := by
  unfold cmdAudit
  rw [h]
  exact ⟨rfl, rfl, rfl⟩

/-- The events of `-denials` for a limit that is not negative. -/
theorem events_denials (trail : Trail) (now : Time) (hdenials : flags.denials = true)
    (hlimit : 0 ≤ flags.limit) :
    flags.events trail now =
      .ok (top AuditRow.newer flags.limit.toNat (flags.batches trail now)) := by
  have hstrict : Strict AuditRow.newer (flags.batches trail now) :=
    trail.strict fun _ h => asked_subset (batches_subset hdenials h)
  rw [AuditFlags.events, if_pos hdenials, cut_at_of_nonneg hlimit, sort_by_seq_desc_eq hstrict, top]

theorem events_denials_neg (trail : Trail) (now : Time) (hdenials : flags.denials = true)
    (hlimit : flags.limit < 0) :
    flags.events trail now = .error .sliceBounds := by
  rw [AuditFlags.events, if_pos hdenials, cut_at_of_neg hlimit]

end Output

section Merge

variable {trail : Trail} {flags : AuditFlags} {now : Time}

/-- What is shown for a positive limit, if that is no more than the store allows: one limited query
over all denials. The batches are then not cut, or cut where the query would be. -/
theorem shown_eq_top (hdenials : flags.denials = true) (hpositive : 1 ≤ flags.limit)
    (hfits : (printed (cmdAudit trail flags now)).length ≤ rowLimit flags.limit) :
    printed (cmdAudit trail flags now) =
      top AuditRow.newer (rowLimit flags.limit) (flags.asked trail now) := by
  have hmax : maxAuditLimit = 10000 := rfl
  obtain ⟨-, hshown, -⟩ := cmd_audit_ok (events_denials trail now hdenials (by omega))
  rw [hshown, length_top] at hfits
  rw [hshown, ← top_batches hdenials]
  rcases row_limit_cases flags.limit with ⟨hlimit, -⟩ | ⟨-, -, hrows⟩ | ⟨hlarge, hrows⟩
  · omega
  · rw [hrows]
  · rw [hrows] at hfits ⊢
    rw [top, top, List.take_of_length_le, List.take_of_length_le] <;>
      rw [List.length_mergeSort] <;> omega

/-- The newest of some events are the newest of a part of them exactly if they are all in it. -/
theorem newest_filter_iff {k : Nat} {events shown : List AuditRow} {keep : AuditRow → Bool}
    (h : Newest k events shown) :
    Newest k (events.filter keep) shown ↔ ∀ row ∈ shown, keep row = true := by
  constructor
  · intro hkept row hrow
    exact (List.mem_filter.mp (hkept.subset hrow)).2
  · intro hkeep
    have hsubset : shown ⊆ events.filter keep := fun row hrow =>
      List.mem_filter.mpr ⟨h.subset hrow, hkeep row hrow⟩
    have hnodup : shown.Nodup := h.decreasing.imp fun hlt heq => by
      rw [heq] at hlt
      exact Int64.lt_irrefl hlt
    refine ⟨h.decreasing, hsubset, ?_, ?_⟩
    · exact fun row hrow => h.gapless row (List.mem_filter.mp hrow).1
    · have hlength := h.length
      have hle := (hnodup.subperm hsubset).length_le
      have hfewer := List.length_filter_le keep events
      omega

/-- The batches for a positive limit are one query over all denials exactly if the store allows the
limit, or does not cut them. -/
theorem shown_fits_iff (hdenials : flags.denials = true) (hpositive : 1 ≤ flags.limit) :
    (printed (cmdAudit trail flags now)).length ≤ rowLimit flags.limit ↔
      (flags.limit ≤ maxAuditLimit ∨ (flags.asked trail now).length ≤ maxAuditLimit.toNat ∨
        ∃ name ∈ denialEvents, ∀ row ∈ flags.asked trail now, row.event = name) := by
  have hmax : maxAuditLimit = 10000 := rfl
  obtain ⟨-, hshown, -⟩ := cmd_audit_ok (events_denials trail now hdenials (by omega))
  have hbatches := batches_le_iff trail now hdenials
  rw [hshown, length_top]
  rcases row_limit_cases flags.limit with ⟨hlimit, -⟩ | ⟨-, hle, hrows⟩ | ⟨hlarge, hrows⟩
  · omega
  · rw [hrows]
    exact iff_of_true (min_le_left ..) (.inl hle)
  · rw [hrows] at hbatches ⊢
    rw [← hbatches]
    omega

end Merge

/-- The listing of `-denials` is a correct merge exactly in these cases: the limit is zero and
nothing matches; or it is positive, the newest denials that the store would return for it have the
name of `-event`, if one is given, and the limit is not above what the store allows, or no more
denials are asked for than that, or all of them have one name. A negative limit panics. -/
theorem denials_newest_iff (trail : Trail) (flags : AuditFlags) (now : Time)
    (hdenials : flags.denials = true) :
    ((cmdAudit trail flags now).isOk = true ∧
      Newest (rowLimit flags.limit) (flags.matching trail now)
        (printed (cmdAudit trail flags now))) ↔
    ((flags.limit = 0 ∧ flags.matching trail now = []) ∨
      (1 ≤ flags.limit ∧
        (∀ row ∈ top AuditRow.newer (rowLimit flags.limit) (flags.asked trail now),
          matchesID flags.event row.event = true) ∧
        (flags.limit ≤ maxAuditLimit ∨ (flags.asked trail now).length ≤ maxAuditLimit.toNat ∨
          ∃ name ∈ denialEvents, ∀ row ∈ flags.asked trail now, row.event = name))) := by
  rcases Int.lt_trichotomy flags.limit 0 with hneg | hzero | hpos
  · have hpanic := (cmd_audit_error (events_denials_neg trail now hdenials hneg)).1
    refine iff_of_false (fun h => ?_) (by omega)
    rw [hpanic] at h
    exact Bool.false_ne_true h.1
  · obtain ⟨hok, hshown, -⟩ := cmd_audit_ok (events_denials trail now hdenials hzero.ge)
    have hnothing : printed (cmdAudit trail flags now) = [] := by
      rw [hshown, hzero]
      rfl
    rw [hnothing, hzero]
    constructor
    · intro h
      have hlength := h.2.length
      have hrows : rowLimit 0 = 100 := rfl
      rw [List.length_nil, hrows] at hlength
      exact .inl ⟨rfl, List.length_eq_zero_iff.mp (by omega)⟩
    · intro h
      have hempty : flags.matching trail now = [] := by
        rcases h with h | h
        · exact h.2
        · omega
      rw [hempty]
      exact ⟨hok, .nil, List.nil_subset _, nofun, by simp⟩
  · obtain ⟨hok, -⟩ := cmd_audit_ok (events_denials trail now hdenials hpos.le)
    have hnewest : Newest (rowLimit flags.limit) (flags.asked trail now)
        (top AuditRow.newer (rowLimit flags.limit) (flags.asked trail now)) :=
      top_newest asked_subset asked_nodup _
    rw [← shown_fits_iff hdenials hpos, ← newest_filter_iff hnewest]
    constructor
    · rintro ⟨-, hprinted⟩
      have hfits : (printed (cmdAudit trail flags now)).length ≤ rowLimit flags.limit :=
        hprinted.length.trans_le (min_le_left ..)
      rw [shown_eq_top hdenials hpos hfits] at hprinted
      exact .inr ⟨hpos, hprinted, hfits⟩
    · rintro (h | ⟨-, hprinted, hfits⟩)
      · omega
      · rw [shown_eq_top hdenials hpos hfits]
        exact ⟨hok, hprinted⟩

/-- `sar-server audit -denials -limit n`, with no other filter than the age. -/
def denialFlags (limit : Int) : AuditFlags := ⟨hour, [], [], [], [], [], limit, true⟩

/-- `sar-server audit -denials -event grant.created`. -/
def createdFlags : AuditFlags := { denialFlags 100 with event := ascii "grant.created" }

/-- A denied grant at second 1000. -/
def deniedGrant : AuditRow :=
  ⟨1, 1000, ascii "grant.denied", [], ascii "operator", ascii "alice", ascii "panel",
    ascii "ssh", [], [], ascii "policy_denied", 0, 0, 0, []⟩

/-- A trail that holds nothing else. -/
def oneDenial : Trail := ⟨[deniedGrant], List.nodup_singleton _⟩

/-- With the default limit the denial is listed. -/
theorem default_limit_newest :
    (cmdAudit oneDenial (denialFlags 100) (Time.ofUnix 1060)).isOk = true ∧
      Newest 100 ((denialFlags 100).matching oneDenial (Time.ofUnix 1060))
        (printed (cmdAudit oneDenial (denialFlags 100) (Time.ofUnix 1060))) :=
  (denials_newest_iff oneDenial (denialFlags 100) (Time.ofUnix 1060) rfl).mpr
    (.inr ⟨by decide, fun _ _ => rfl, .inl (by decide)⟩)

/-- A negative limit is a slice expression out of range, whatever is in the trail; with a limit of
zero the denial is not printed; and it is printed when another event is asked for. -/
theorem raw_limit_breaks_listing :
    cmdAudit oneDenial (denialFlags (-1)) (Time.ofUnix 1060) = .error .sliceBounds ∧
      ((denialFlags 0).matching oneDenial (Time.ofUnix 1060) = [deniedGrant] ∧
        printed (cmdAudit oneDenial (denialFlags 0) (Time.ofUnix 1060)) = []) ∧
      createdFlags.matching oneDenial (Time.ofUnix 1060) = [] ∧
        printed (cmdAudit oneDenial createdFlags (Time.ofUnix 1060)) = [deniedGrant] := by
  refine ⟨?_, ⟨by decide, ?_⟩, by decide, ?_⟩
  · rw [cmdAudit, events_denials_neg oneDenial (Time.ofUnix 1060) rfl (by decide)]
  · have hzero : 0 ≤ (denialFlags 0).limit := by decide
    rw [(cmd_audit_ok (events_denials oneDenial (Time.ofUnix 1060) rfl hzero)).2.1]
    rfl
  · have hpositive : 0 ≤ createdFlags.limit := by decide
    have hshown : printed (cmdAudit oneDenial createdFlags (Time.ofUnix 1060)) =
        top AuditRow.newer 100 (createdFlags.asked oneDenial (Time.ofUnix 1060)) := by
      rw [(cmd_audit_ok (events_denials oneDenial (Time.ofUnix 1060) rfl hpositive)).2.1]
      exact top_batches (show createdFlags.denials = true from rfl)
    have hasked : createdFlags.asked oneDenial (Time.ofUnix 1060) = [deniedGrant] := by decide
    rw [hshown, hasked]
    simp [top]

section CapNote

variable {trail : Trail} {flags : AuditFlags} {now : Time}

/-- No event is in two batches, or twice in one. -/
theorem batches_nodup (hdenials : flags.denials = true) : (flags.batches trail now).Nodup := by
  have hnamed : (denialEvents.flatMap (flags.named trail now)).Nodup :=
    (named_perm hdenials).nodup_iff.mpr asked_nodup
  obtain ⟨hparts, hdisjoint⟩ := List.nodup_flatMap.mp hnamed
  refine List.nodup_flatMap.mpr ⟨?_, ?_⟩
  · intro name hname
    exact top_nodup (hparts name hname)
  · refine hdisjoint.imp fun hpair row hone htwo => ?_
    exact hpair (top_subset _ _ hone) (top_subset _ _ htwo)

/-- Events that are all among the matching ones are complete exactly if they are as many. -/
theorem complete_iff {shown matching : List AuditRow} {noted : Prop} (hsubset : shown ⊆ matching)
    (hshown : shown.Nodup) (hmatching : matching.Nodup) :
    (∀ row ∈ matching, row ∉ shown → noted) ↔ (matching.length ≤ shown.length ∨ noted) := by
  constructor
  · intro h
    by_cases hnoted : noted
    · exact .inr hnoted
    · have hall : matching ⊆ shown := by
        intro row hrow
        by_contra hnot
        exact hnoted (h row hrow hnot)
      exact .inl (hmatching.subperm hall).length_le
  · intro h row hrow hnot
    rcases h with hle | hnoted
    · have hperm := (hshown.subperm hsubset).perm_of_length_le hle
      exact absurd (hperm.mem_iff.mpr hrow) hnot
    · exact hnoted

/-- The listing of one query. -/
theorem cap_told_plain (hplain : flags.denials = false) :
    (∀ row ∈ flags.asked trail now, row ∉ printed (cmdAudit trail flags now) →
      capNoted (cmdAudit trail flags now) = true) ↔
    ((1 ≤ flags.limit ∧ flags.limit ≤ maxAuditLimit) ∨
      (flags.asked trail now).length ≤ rowLimit flags.limit) := by
  have hasked : flags.asked trail now = trail.rows.filter (flags.filter now).admits := by
    rw [AuditFlags.asked, hplain]
    rfl
  have hevents : flags.events trail now =
      .ok (top AuditRow.newer (rowLimit flags.limit) (flags.asked trail now)) := by
    rw [AuditFlags.events, hplain, hasked]
    rfl
  obtain ⟨-, hshown, hnoted⟩ := cmd_audit_ok hevents
  rw [hshown, complete_iff (top_subset _ _) (top_nodup asked_nodup) asked_nodup, hnoted,
    ← List.length_pos_iff, length_top]
  have hmax : maxAuditLimit = 10000 := rfl
  rcases row_limit_cases flags.limit with h | h | h <;> omega

/-- The merged listing. -/
theorem cap_told_denials (hdenials : flags.denials = true) :
    (∀ row ∈ flags.asked trail now, row ∉ printed (cmdAudit trail flags now) →
      capNoted (cmdAudit trail flags now) = true) ↔
    ((1 ≤ flags.limit ∧ flags.limit ≤ maxAuditLimit) ∨
      (flags.limit ≤ 0 ∧ flags.asked trail now = []) ∨
      (maxAuditLimit < flags.limit ∧
        ((∀ name ∈ denialEvents,
            (flags.named trail now name).length ≤ maxAuditLimit.toNat) ∨
          flags.limit ≤ (denialEvents.map fun name =>
            min maxAuditLimit.toNat (flags.named trail now name).length).sum))) := by
  have hmax : maxAuditLimit = 10000 := rfl
  rw [← List.length_eq_zero_iff]
  by_cases hneg : flags.limit < 0
  · obtain ⟨-, hshown, hnoted⟩ := cmd_audit_error (events_denials_neg trail now hdenials hneg)
    rw [hshown, hnoted, complete_iff (List.nil_subset _) List.nodup_nil asked_nodup]
    simp only [List.length_nil, Bool.false_eq_true, or_false]
    omega
  · obtain ⟨-, hshown, hnoted⟩ :=
      cmd_audit_ok (events_denials trail now hdenials (Int.not_lt.mp hneg))
    have hsubset : top AuditRow.newer flags.limit.toNat (flags.batches trail now) ⊆
        flags.asked trail now :=
      List.Subset.trans (top_subset _ _) (batches_subset hdenials)
    rw [hshown, complete_iff hsubset (top_nodup (batches_nodup hdenials)) asked_nodup, hnoted,
      ← List.length_pos_iff, length_top, length_batches, length_asked hdenials]
    obtain ⟨hle, hiff⟩ := sum_min_le (fun name => (flags.named trail now name).length)
      (rowLimit flags.limit) denialEvents
    rcases row_limit_cases flags.limit with
      ⟨hlimit, hrows⟩ | ⟨hone, hlimit, hrows⟩ | ⟨hlarge, hrows⟩
    · omega
    · -- What is shown is all there is, or as much as the limit, and then the note is printed.
      refine iff_of_true ?_ (.inl ⟨hone, hlimit⟩)
      rw [hrows] at hle ⊢
      by_cases hcut : (denialEvents.map fun name =>
          min flags.limit.toNat (flags.named trail now name).length).sum < flags.limit.toNat
      · have hall := sum_le_of_sum_min_lt hcut
        omega
      · omega
    · rw [hrows] at hiff hle ⊢
      rw [← hiff]
      omega

end CapNote

/-- A listing that leaves out a matching event says so exactly for these limits: those from one to
the largest that the store allows; for one query, others under which nothing is left out; for
`-denials`, limits below one if nothing matches, and larger ones if no name has more events than the
store allows, or the batches together reach the limit. -/
theorem cap_told_iff (trail : Trail) (flags : AuditFlags) (now : Time) :
    (∀ row ∈ flags.asked trail now, row ∉ printed (cmdAudit trail flags now) →
      capNoted (cmdAudit trail flags now) = true) ↔
    ((1 ≤ flags.limit ∧ flags.limit ≤ maxAuditLimit) ∨
      (flags.denials = false ∧
        (flags.asked trail now).length ≤ rowLimit flags.limit) ∨
      (flags.denials = true ∧ flags.limit ≤ 0 ∧ flags.asked trail now = []) ∨
      (flags.denials = true ∧ maxAuditLimit < flags.limit ∧
        ((∀ name ∈ denialEvents,
            (flags.named trail now name).length ≤ maxAuditLimit.toNat) ∨
          flags.limit ≤ (denialEvents.map fun name =>
            min maxAuditLimit.toNat (flags.named trail now name).length).sum))) := by
  cases hdenials : flags.denials with
  | false =>
      rw [cap_told_plain hdenials]
      simp only [true_and, Bool.false_eq_true, false_and, or_false]
  | true =>
      rw [cap_told_denials hdenials]
      simp only [true_and, Bool.true_eq_false, false_and, false_or]

/-- With a limit of zero the denial is in the trail, matches, and is not printed, and nothing says
so. -/
theorem zero_limit_looks_complete :
    deniedGrant ∈ (denialFlags 0).asked oneDenial (Time.ofUnix 1060) ∧
      cmdAudit oneDenial (denialFlags 0) (Time.ofUnix 1060) = .ok (.noMatch 1) := by
  refine ⟨by decide, ?_⟩
  have hzero : 0 ≤ (denialFlags 0).limit := by decide
  rw [cmdAudit, events_denials oneDenial (Time.ofUnix 1060) rfl hzero]
  rfl

end AccessRelay.Server
