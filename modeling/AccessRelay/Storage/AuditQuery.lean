import AccessRelay.Data.Listing
import AccessRelay.Storage.Grants

/-!
# Querying the audit trail

`QueryAudit` of `internal/storage/audit.go`: the newest events that match a filter, up to a limit
that the store keeps within its own bounds. `top_newest` says what is returned, in terms of the
sequence numbers: matching events in decreasing order, and no matching event left out that is newer
than one of them.
-/

namespace AccessRelay.Storage

open Encoding Go Data

/-- A row of the audit trail with its sequence number. -/
structure AuditRow where
  seq : Int64
  ts : Int64
  event : Bytes
  orgID : Bytes
  actorRole : Bytes
  actorID : Bytes
  deviceID : Bytes
  resourceID : Bytes
  grantID : Bytes
  sessionID : Bytes
  reason : Bytes
  bytesIn : UInt64
  bytesOut : UInt64
  durationMS : Int64
  detail : Bytes
  deriving DecidableEq

/-- The audit trail. The sequence number is its primary key. -/
structure Trail where
  rows : List AuditRow
  distinct : (rows.map (·.seq)).Nodup

/-- What a query is narrowed to. Zero values mean no constraint. -/
structure AuditFilter where
  since : Time
  upTo : Time
  event : Bytes
  actorID : Bytes
  deviceID : Bytes
  resourceID : Bytes
  grantID : Bytes
  limit : Int

/-- An identifier matches exactly, if one is asked for. -/
def matchesID (wanted found : Bytes) : Bool := wanted = [] || found = wanted

/-- The row meets the conditions of the filter. -/
def AuditFilter.admits (f : AuditFilter) (row : AuditRow) : Bool :=
  (f.since.isZero || unix f.since ≤ row.ts) && (f.upTo.isZero || row.ts ≤ unix f.upTo) &&
    matchesID f.event row.event && matchesID f.actorID row.actorID &&
    matchesID f.deviceID row.deviceID && matchesID f.resourceID row.resourceID &&
    matchesID f.grantID row.grantID

/-- `ORDER BY seq DESC`. -/
def AuditRow.newer (a b : AuditRow) : Bool := b.seq ≤ a.seq

/-- `QueryAudit`: matching events, newest first. -/
def Trail.queryAudit (trail : Trail) (f : AuditFilter) : List AuditRow :=
  top AuditRow.newer (rowLimit f.limit) (trail.rows.filter f.admits)

/-- The newest `k` of these events, in decreasing order without repeats, and without a gap: an event
that is not shown is older than all that are. -/
structure Newest (k : Nat) (events shown : List AuditRow) : Prop where
  decreasing : shown.Pairwise fun a b => b.seq < a.seq
  subset : shown ⊆ events
  gapless : ∀ row ∈ events, row ∉ shown → ∀ newer ∈ shown, row.seq < newer.seq
  length : shown.length = min k events.length

section Newest

theorem newer_listing : IsListing AuditRow.newer where
  trans a b c hab hbc := by
    simp only [AuditRow.newer, decide_eq_true_eq] at *
    exact Int64.le_trans hbc hab
  total a b := by
    simp only [AuditRow.newer, Bool.or_eq_true, decide_eq_true_eq]
    exact Int64.le_total b.seq a.seq

variable {trail : Trail} {events : List AuditRow}

/-- Rows of the trail with the same sequence number are the same. -/
theorem Trail.seq_inj (hsubset : events ⊆ trail.rows) {a b : AuditRow} (ha : a ∈ events)
    (hb : b ∈ events) (h : a.seq = b.seq) : a = b :=
  List.inj_on_of_nodup_map trail.distinct (hsubset ha) (hsubset hb) h

theorem Trail.strict (hsubset : events ⊆ trail.rows) : Strict AuditRow.newer events := by
  intro a ha b hb hab hba
  simp only [AuditRow.newer, decide_eq_true_eq] at hab hba
  exact trail.seq_inj hsubset ha hb (Int64.le_antisymm hba hab)

theorem Trail.rows_nodup (trail : Trail) : trail.rows.Nodup := List.Nodup.of_map _ trail.distinct

/-- What a limited query over events of the trail returns. -/
theorem top_newest (hsubset : events ⊆ trail.rows) (hnodup : events.Nodup) (k : Nat) :
    Newest k events (top AuditRow.newer k events) where
  decreasing := by
    have hsorted := top_sorted (l := events) (n := k) newer_listing
    refine (hsorted.and (top_nodup hnodup)).imp_of_mem ?_
    intro a b ha hb hab
    obtain ⟨hle, hne⟩ := hab
    simp only [AuditRow.newer, decide_eq_true_eq] at hle
    refine Int64.lt_of_le_of_ne hle fun heq => hne ?_
    exact trail.seq_inj hsubset (top_subset k events ha) (top_subset k events hb) heq.symm
  subset := top_subset k events
  gapless := by
    intro row hrow hnot newer hnewer
    have hperm := List.mergeSort_perm events AuditRow.newer
    have hsorted := List.pairwise_mergeSort newer_listing.trans newer_listing.total events
    rw [← List.take_append_drop k (events.mergeSort AuditRow.newer)] at hperm hsorted
    have hdropped := (List.mem_append.mp (hperm.mem_iff.mpr hrow)).resolve_left hnot
    have hle := (List.pairwise_append.mp hsorted).2.2 newer hnewer row hdropped
    simp only [AuditRow.newer, decide_eq_true_eq] at hle
    refine Int64.lt_of_le_of_ne hle fun heq => hnot ?_
    rw [trail.seq_inj hsubset hrow (top_subset k events hnewer) heq]
    exact hnewer
  length := length_top k events

end Newest

end AccessRelay.Storage
