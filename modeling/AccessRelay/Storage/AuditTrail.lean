import AccessRelay.Data.Ledger
import AccessRelay.Go.Format
import AccessRelay.Storage.AuditQuery

/-!
# Appending to the audit trail, and retention

`AppendAudit`, `PruneAudit`, `CountAudit` and `AuditSpan` of `internal/storage/audit.go`, over the
table `audit_events` with its `AUTOINCREMENT` key: a number once given is never given again, also
after its row is deleted.

A prune deletes by time stamp, the order of the trail is that of the numbers, and a clock can be
set: what is deleted need not be a run of consecutive numbers. `trail_accounted` says what the trail
is evidence of all the same, after any operations at any times.
-/

namespace AccessRelay.Storage

open Encoding Go Data

/-- An event as it is handed to the store, without the number the store gives it. -/
structure AuditEntry where
  atTime : Time
  event : Bytes
  orgID : Bytes
  actorRole : Bytes
  actorID : Bytes
  deviceID : Bytes
  resourceID : Bytes
  grantID : Bytes
  sessionID : Bytes
  reason : Bytes
  bytesIn : UInt64
  bytesOut : UInt64
  durationMS : Int64
  detail : Bytes

/-- Why the store did not append or prune. -/
inductive AuditError where
  | unnamed
  | retentionUnbounded
  | database

/-- The largest key of a row. -/
def maxSeq : Nat := 2 ^ 63 - 1

/-- The table `audit_events`, newest row first, and the largest number it ever gave, which
`sqlite_sequence` keeps. -/
structure AuditLog where
  rows : List AuditRow
  last : Nat
  bounded : ∀ row ∈ rows, row.seq.toInt ≤ last
  distinct : (rows.map (·.seq)).Nodup

/-- The row of an event, once it has a number. -/
def AuditEntry.row (e : AuditEntry) (seq : Int64) : AuditRow where
  seq := seq
  ts := unix e.atTime
  event := e.event
  orgID := e.orgID
  actorRole := e.actorRole
  actorID := e.actorID
  deviceID := e.deviceID
  resourceID := e.resourceID
  grantID := e.grantID
  sessionID := e.sessionID
  reason := e.reason
  bytesIn := e.bytesIn
  bytesOut := e.bytesOut
  durationMS := e.durationMS
  detail := e.detail

/-- An event without a time happened now. -/
def AuditEntry.stamped (e : AuditEntry) (now : Time) : AuditEntry :=
  if e.atTime.isZero then { e with atTime := now } else e

/-- Only the time is set. -/
theorem AuditEntry.stamped_cases (e : AuditEntry) (now : Time) :
    ∃ t, e.stamped now = { e with atTime := t } := by
  unfold stamped
  split
  · exact ⟨now, rfl⟩
  · exact ⟨e.atTime, rfl⟩

namespace AuditLog

/-- The number of the next row. -/
def next (log : AuditLog) : Int64 := Int64.ofNat (log.last + 1)

theorem to_int_next {log : AuditLog} (h : log.last < maxSeq) : log.next.toInt = log.last + 1 := by
  have hlt : log.last + 1 < 2 ^ 63 := by
    simp only [maxSeq] at h
    omega
  rw [next, Int64.toInt_ofNat_of_lt hlt, Nat.cast_add, Nat.cast_one]

theorem bounded_insert (log : AuditLog) (h : log.last < maxSeq) (e : AuditEntry) :
    ∀ row ∈ e.row log.next :: log.rows, row.seq.toInt ≤ (log.last + 1 : Nat) := by
  intro row hrow
  rcases List.mem_cons.mp hrow with rfl | hrow
  · exact (to_int_next h).le
  · have hold := log.bounded row hrow
    push_cast
    omega

theorem distinct_insert (log : AuditLog) (h : log.last < maxSeq) (e : AuditEntry) :
    ((e.row log.next :: log.rows).map (·.seq)).Nodup := by
  rw [List.map_cons]
  refine List.nodup_cons.mpr ⟨?_, log.distinct⟩
  intro hmem
  obtain ⟨row, hrow, hseq⟩ := List.mem_map.mp hmem
  have hold := log.bounded row hrow
  rw [hseq] at hold
  have hnew : log.next.toInt ≤ log.last := hold
  rw [to_int_next h] at hnew
  omega

/-- `INSERT INTO audit_events`. When the numbers are used up the statement fails. -/
def insert (log : AuditLog) (e : AuditEntry) : Except AuditError AuditLog :=
  if h : log.last < maxSeq then
    .ok ⟨e.row log.next :: log.rows, log.last + 1, log.bounded_insert h e, log.distinct_insert h e⟩
  else .error .database

/-- `appendAudit`. -/
def appendAudit (log : AuditLog) (e : AuditEntry) (now : Time) : Except AuditError AuditLog :=
  let e := e.stamped now
  if e.event = [] then .error .unnamed else log.insert e

end AuditLog

/-- The row is older than the cutoff: `ts < ?`. -/
def AuditRow.olderThan (cutoff : Time) (row : AuditRow) : Bool := row.ts < unix cutoff

namespace AuditLog

theorem bounded_delete (log : AuditLog) (cutoff : Time) :
    ∀ row ∈ log.rows.filter fun row => !row.olderThan cutoff, row.seq.toInt ≤ log.last :=
  fun row hrow => log.bounded row (List.mem_of_mem_filter hrow)

theorem distinct_delete (log : AuditLog) (cutoff : Time) :
    ((log.rows.filter fun row => !row.olderThan cutoff).map (·.seq)).Nodup :=
  log.distinct.sublist (List.filter_sublist.map _)

/-- `DELETE FROM audit_events WHERE ts < ?`. The next number stays as it is. -/
def delete (log : AuditLog) (cutoff : Time) : AuditLog :=
  ⟨log.rows.filter fun row => !row.olderThan cutoff, log.last, log.bounded_delete cutoff,
    log.distinct_delete cutoff⟩

/-- The number of rows a delete affects. -/
def affected (log : AuditLog) (cutoff : Time) : Nat :=
  log.rows.countP (·.olderThan cutoff)

end AuditLog

/-- What `PruneAudit` appends. Its time is left zero, so it is set when the record is written. -/
def retentionRecord (removed : Nat) (before : Time) (actorID : Bytes) : AuditEntry where
  atTime := Time.zero
  event := ascii "admin.action"
  orgID := []
  actorRole := ascii "admin"
  actorID := actorID
  deviceID := []
  resourceID := []
  grantID := []
  sessionID := []
  reason := ascii "audit_retention"
  bytesIn := 0
  bytesOut := 0
  durationMS := 0
  detail := ascii ("pruned " ++ toString removed ++ " event(s) older than " ++ before.rfc3339)

namespace AuditLog

/-- `PruneAudit`: the delete and its record are one transaction. -/
def pruneAudit (log : AuditLog) (before : Time) (actorID : Bytes) (now : Time) :
    Except AuditError (Nat × AuditLog) :=
  if before.isZero then .error .retentionUnbounded
  else
    let removed := log.affected before
    match (log.delete before).appendAudit (retentionRecord removed before actorID) now with
    | .error e => .error e
    | .ok log => .ok (removed, log)

/-- The trail as the queries see it. -/
def trail (log : AuditLog) : Trail := ⟨log.rows, log.distinct⟩

/-- `CountAudit`. -/
def countAudit (log : AuditLog) : Nat := log.rows.length

/-- `AuditSpan`: the count and the least time stamp, the zero instant if there is none. -/
def auditSpan (log : AuditLog) : Nat × Time :=
  (log.rows.length,
    match (log.rows.map (·.ts.toInt)).min? with
    | none => Time.zero
    | some ts => fromUnix (Int64.ofInt ts))

theorem bounded_new : ∀ row ∈ ([] : List AuditRow), row.seq.toInt ≤ (0 : Nat) :=
  List.forall_mem_nil _

/-- The table as the migration creates it. -/
def new : AuditLog := ⟨[], 0, bounded_new, List.nodup_nil⟩

end AuditLog

/-! ## What one operation does -/

section Operations

variable {log log' : AuditLog} {e : AuditEntry} {now : Time}

/-- An append adds one row with the next number. -/
theorem append_audit_spec (h : log.appendAudit e now = .ok log') :
    ∃ row : AuditRow, log'.rows = row :: log.rows ∧ log'.last = log.last + 1 ∧
      row.seq.toInt = log.last + 1 ∧ row.event = e.event ∧ row.event ≠ [] ∧
      row.actorRole = e.actorRole ∧ row.actorID = e.actorID ∧ row.reason = e.reason ∧
      row.detail = e.detail := by
  obtain ⟨t, hstamped⟩ := e.stamped_cases now
  simp only [AuditLog.appendAudit, hstamped, AuditLog.insert] at h
  split_ifs at h with hnamed hroom
  obtain rfl := Except.ok.inj h
  exact ⟨_, rfl, rfl, AuditLog.to_int_next hroom, rfl, hnamed, rfl, rfl, rfl, rfl⟩

/-- Every row is deleted or left. -/
theorem length_delete (log : AuditLog) (before : Time) :
    log.rows.length = (log.delete before).rows.length + log.affected before := by
  rw [AuditLog.delete, AuditLog.affected, ← List.countP_eq_length_filter,
    List.length_eq_countP_add_countP (·.olderThan before), Nat.add_comm]
  simp

end Operations

/-! ## Whole histories -/

/-- What is known of a prune that was made. -/
structure Prune where
  before : Time
  actorID : Bytes
  removed : Nat

/-- The prune deletes this row if it finds it. -/
def Prune.covers (p : Prune) (row : AuditRow) : Bool := row.olderThan p.before

/-- The row is the record of the prune. -/
structure Prune.RecordedBy (p : Prune) (row : AuditRow) : Prop where
  event : row.event = ascii "admin.action"
  actorRole : row.actorRole = ascii "admin"
  actorID : row.actorID = p.actorID
  reason : row.reason = ascii "audit_retention"
  detail : row.detail =
    ascii ("pruned " ++ toString p.removed ++ " event(s) older than " ++ p.before.rfc3339)

/-- The table, with all that was ever appended to it and the prunes that were made. -/
structure AuditHistory where
  log : AuditLog
  ledger : Ledger AuditRow Prune

/-- A use of the store at some time. With a fault the transaction it is part of is rolled back. -/
inductive AuditAction where
  | append (e : AuditEntry) (now : Time) (fault : Bool)
  | prune (before : Time) (actorID : Bytes) (now : Time) (fault : Bool)

namespace AuditHistory

def new : AuditHistory := ⟨AuditLog.new, Ledger.empty⟩

/-- The row that was just inserted. -/
def added (log : AuditLog) : Option AuditRow := log.rows.head?

/-- `AppendAudit`. An append that fails changes nothing. -/
def append (h : AuditHistory) (e : AuditEntry) (now : Time) (fault : Bool) : AuditHistory :=
  match fault, h.log.appendAudit e now with
  | false, .ok log =>
      match added log with
      | some row => ⟨log, h.ledger.write row⟩
      | none => h
  | _, _ => h

/-- `PruneAudit`. A prune that fails changes nothing. -/
def prune (h : AuditHistory) (before : Time) (actorID : Bytes) (now : Time) (fault : Bool) :
    AuditHistory :=
  match fault, h.log.pruneAudit before actorID now with
  | false, .ok (removed, log) =>
      match added log with
      | some row => ⟨log, h.ledger.sweep ⟨before, actorID, removed⟩ row⟩
      | none => h
  | _, _ => h

def step (h : AuditHistory) : AuditAction → AuditHistory
  | .append e now fault => h.append e now fault
  | .prune before actorID now fault => h.prune before actorID now fault

/-- After these operations on a new store. -/
def after (actions : List AuditAction) : AuditHistory := actions.foldl step new

/-- The trail accounts for everything that was ever appended to it. -/
structure Accounted (h : AuditHistory) : Prop where
  /-- Numbers are given in order, and none is given twice. -/
  numbered : ∀ (i : Nat) row, h.ledger.written[i]? = some row → row.seq.toInt = i + 1
  /-- Every event has a name. -/
  named : ∀ row ∈ h.ledger.written, row.event ≠ []
  /-- The trail holds what no prune since then covers, unchanged. -/
  kept : ∀ row, row ∈ h.log.rows ↔ ∃ i, h.ledger.Survives Prune.covers i row
  /-- A number that is missing is followed by the record of a prune. -/
  explained : ∀ i : Nat, i < h.ledger.written.length → (∀ row ∈ h.log.rows, row.seq.toInt ≠ i + 1) →
    ∃ sweep ∈ h.ledger.sweeps, ∃ mark ∈ h.log.rows,
      i + 1 < mark.seq.toInt ∧ sweep.2.RecordedBy mark
  /-- What the prunes say they removed is what is missing. -/
  total : h.ledger.written.length =
    h.log.countAudit + (h.ledger.sweeps.map fun sweep => sweep.2.removed).sum

/-- What is kept from step to step. -/
structure Inv (h : AuditHistory) : Prop where
  last : h.log.last = h.ledger.written.length
  numbered : ∀ (i : Nat) row, h.ledger.written[i]? = some row → row.seq.toInt = i + 1
  named : ∀ row ∈ h.ledger.written, row.event ≠ []
  kept : ∀ row, row ∈ h.log.rows ↔ ∃ i, h.ledger.Survives Prune.covers i row
  recorded : ∀ sweep ∈ h.ledger.sweeps, ∀ row, h.ledger.written[sweep.1]? = some row →
    sweep.2.RecordedBy row
  total : h.ledger.written.length =
    h.log.countAudit + (h.ledger.sweeps.map fun sweep => sweep.2.removed).sum

variable {h : AuditHistory}

theorem inv_new : new.Inv where
  last := rfl
  numbered := by simp [new, Ledger.empty]
  named := by simp [new, Ledger.empty]
  kept := by simp [new, AuditLog.new, Ledger.empty, Ledger.Survives]
  recorded := by simp [new, Ledger.empty]
  total := rfl

section Written

variable {row : AuditRow} (hinv : h.Inv)
include hinv

/-- A row with the next number continues the numbering. -/
theorem numbered_append (hseq : row.seq.toInt = h.log.last + 1) (i : Nat) (x : AuditRow)
    (hget : (h.ledger.written ++ [row])[i]? = some x) : x.seq.toInt = i + 1 := by
  rcases Ledger.get_append_iff.mp hget with hold | ⟨rfl, rfl⟩
  · exact hinv.numbered i x hold
  · rw [hseq, hinv.last]

theorem named_append (hname : row.event ≠ []) (x : AuditRow)
    (hx : x ∈ h.ledger.written ++ [row]) : x.event ≠ [] := by
  rcases List.mem_append.mp hx with hold | hnew
  · exact hinv.named x hold
  · rw [List.mem_singleton.mp hnew]
    exact hname

/-- The marks of earlier sweeps are where they were. -/
theorem recorded_append {sweep : Nat × Prune} (hsweep : sweep ∈ h.ledger.sweeps) {x : AuditRow}
    (hget : (h.ledger.written ++ [row])[sweep.1]? = some x) : sweep.2.RecordedBy x := by
  rcases Ledger.get_append_iff.mp hget with hold | ⟨hend, -⟩
  · exact hinv.recorded sweep hsweep x hold
  · exact absurd hend (h.ledger.marked sweep hsweep).ne

end Written

theorem inv_append (hinv : h.Inv) (e : AuditEntry) (now : Time) (fault : Bool) :
    (h.append e now fault).Inv := by
  unfold append
  split
  · next log hok =>
      obtain ⟨row, hrows, hlast, hseq, -, hname, -⟩ := append_audit_spec hok
      simp only [added, hrows, List.head?_cons]
      constructor
      case last => simp [hlast, hinv.last, Ledger.write]
      case numbered => exact numbered_append hinv hseq
      case named => exact named_append hinv hname
      case kept =>
        intro x
        simp only [hrows, List.mem_cons, hinv.kept, Ledger.survives_write, exists_or]
        simp [or_comm]
      case recorded => exact fun sweep hsweep x hget => recorded_append hinv hsweep hget
      case total =>
        have htotal := hinv.total
        simp only [AuditLog.countAudit, hrows, Ledger.write, List.length_append,
          List.length_cons] at htotal ⊢
        simp only [List.length_nil]
        omega
  · exact hinv

/-- A prune deletes what it covers and then appends its record. -/
theorem prune_audit_spec {log log' : AuditLog} {before now : Time} {actorID : Bytes} {removed : Nat}
    (h : log.pruneAudit before actorID now = .ok (removed, log')) :
    removed = log.affected before ∧ ∃ row : AuditRow,
      log'.rows = row :: (log.delete before).rows ∧ log'.last = log.last + 1 ∧
        row.seq.toInt = log.last + 1 ∧ row.event ≠ [] ∧
        (⟨before, actorID, removed⟩ : Prune).RecordedBy row := by
  simp only [AuditLog.pruneAudit] at h
  split at h
  · cases h
  · split at h
    · cases h
    · next log₁ hok =>
        obtain ⟨rfl, rfl⟩ := Prod.mk.inj (Except.ok.inj h)
        obtain ⟨row, hrows, hlast, hseq, hevent, hname, hrole, hactor, hreason, hdetail⟩ :=
          append_audit_spec hok
        exact ⟨rfl, row, hrows, hlast, hseq, hname, ⟨hevent, hrole, hactor, hreason, hdetail⟩⟩

theorem inv_prune (hinv : h.Inv) (before : Time) (actorID : Bytes) (now : Time) (fault : Bool) :
    (h.prune before actorID now fault).Inv := by
  unfold prune
  split
  · next removed log hok =>
      obtain ⟨hremoved, row, hrows, hlast, hseq, hname, hrecord⟩ := prune_audit_spec hok
      simp only [added, hrows, List.head?_cons]
      constructor
      case last => simp [hlast, hinv.last, Ledger.sweep]
      case numbered => exact numbered_append hinv hseq
      case named => exact named_append hinv hname
      case kept =>
        intro x
        simp only [hrows, List.mem_cons, AuditLog.delete, List.mem_filter, hinv.kept,
          Ledger.survives_sweep, exists_or, exists_and_right, Prune.covers, Bool.not_eq_true']
        simp [or_comm]
      case recorded =>
        intro sweep hsweep x hget
        rcases List.mem_cons.mp hsweep with rfl | hsweep
        · rcases Ledger.get_append_iff.mp hget with hold | ⟨-, rfl⟩
          · exact absurd (List.getElem?_eq_some_iff.mp hold).1 (Nat.lt_irrefl _)
          · exact hrecord
        · exact recorded_append hinv hsweep hget
      case total =>
        have htotal := hinv.total
        have hlength := length_delete h.log before
        simp only [AuditLog.countAudit, hrows, Ledger.sweep, List.length_append, List.length_cons,
          List.map_cons, List.sum_cons, hremoved] at htotal ⊢
        simp only [List.length_nil]
        omega
  · exact hinv

theorem inv_after (actions : List AuditAction) : (after actions).Inv := by
  -- an induction on the operations, the invariant for any state they start from
  suffices hall : ∀ h : AuditHistory, h.Inv → (actions.foldl step h).Inv from hall new inv_new
  induction actions with
  | nil => exact fun h hinv => hinv
  | cons action rest ih =>
      intro h hinv
      refine ih _ ?_
      cases action with
      | append e now fault => exact inv_append hinv e now fault
      | prune before actorID now fault => exact inv_prune hinv before actorID now fault

theorem Inv.explained (hinv : h.Inv) (i : Nat) (hlt : i < h.ledger.written.length)
    (hmissing : ∀ row ∈ h.log.rows, row.seq.toInt ≠ i + 1) :
    ∃ sweep ∈ h.ledger.sweeps, ∃ mark ∈ h.log.rows,
      i + 1 < mark.seq.toInt ∧ sweep.2.RecordedBy mark := by
  have hgone : ∀ e, ¬ h.ledger.Survives Prune.covers i e := by
    intro e he
    exact hmissing e ((hinv.kept e).mpr ⟨i, he⟩) (hinv.numbered i e he.1)
  obtain ⟨sweep, hsweep, hlater, mark, hmark⟩ := Ledger.gap_marked hlt hgone
  refine ⟨sweep, hsweep, mark, (hinv.kept mark).mpr ⟨_, hmark⟩, ?_,
    hinv.recorded sweep hsweep mark hmark.1⟩
  rw [hinv.numbered _ mark hmark.1]
  omega

/-- After any operations at any times, successful or not, the trail accounts for everything that was
ever appended to it. -/
theorem trail_accounted (actions : List AuditAction) : (after actions).Accounted where
  numbered := (inv_after actions).numbered
  named := (inv_after actions).named
  kept := (inv_after actions).kept
  explained := (inv_after actions).explained
  total := (inv_after actions).total

end AuditHistory

end AccessRelay.Storage
