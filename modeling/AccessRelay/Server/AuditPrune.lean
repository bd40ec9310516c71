import AccessRelay.Storage.AuditTrail

/-!
# The retention command

`auditPrune` of `cmd/sar-server/admin.go`, for `sar-server audit -prune-older-than`. Without
`-confirm` it says how much would go. It finds out with a query for the events up to the cutoff, and
a query counts the cutoff's own second, keeps to the limit of the store, and does not delete:
`dry_run_estimate` says how the two numbers differ.
-/

namespace AccessRelay.Server

open Encoding Go Data Storage

/-- What the command prints. -/
inductive PruneReport where
  | empty
  | estimate (doomed count : Nat) (cutoff oldest : Time) (capped : Bool)
  | removed (removed : Nat) (cutoff : Time)
  | failed (e : AuditError)

/-- The query of a dry run. -/
def doomedFilter (cutoff : Time) : AuditFilter where
  since := Time.zero
  upTo := cutoff
  event := []
  actorID := []
  deviceID := []
  resourceID := []
  grantID := []
  limit := maxAuditLimit

/-- `auditPrune`. It reads the clock at `now`, and the record is written at `later`. -/
def auditPrune (log : AuditLog) (age : Duration) (confirm : Bool) (now later : Time) :
    PruneReport × AuditLog :=
  let cutoff := now.add (-age)
  let (count, oldest) := log.auditSpan
  if count = 0 then (.empty, log)
  else if confirm = false then
    let doomed := log.trail.queryAudit (doomedFilter cutoff)
    (.estimate doomed.length count cutoff oldest (doomed.length = maxAuditLimit.toNat), log)
  else
    match log.pruneAudit cutoff (ascii "admin") later with
    | .error e => (.failed e, log)
    | .ok (removed, log) => (.removed removed cutoff, log)

/-- The events of the cutoff's own second. -/
def inSecondOf (cutoff : Time) (rows : List AuditRow) : Nat :=
  rows.countP fun row => row.ts = unix cutoff

theorem doomed_admits {cutoff : Time} (hcutoff : cutoff.isZero = false) (row : AuditRow) :
    (doomedFilter cutoff).admits row = true ↔ row.ts ≤ unix cutoff := by
  have hzero : Time.zero.isZero = true := rfl
  simp only [AuditFilter.admits, doomedFilter, matchesID, hcutoff, hzero, decide_true, Bool.true_or,
    Bool.true_and, Bool.false_or, Bool.and_true]
  exact decide_eq_true_iff

/-- The events up to the cutoff are the older ones and those of its own second. -/
theorem count_doomed {cutoff : Time} (hcutoff : cutoff.isZero = false) (rows : List AuditRow) :
    (rows.filter (doomedFilter cutoff).admits).length =
      rows.countP (·.olderThan cutoff) + inSecondOf cutoff rows := by
  induction rows with
  | nil => rfl
  | cons row rows ih =>
      have hsplit := Int64.le_iff_lt_or_eq (a := row.ts) (b := unix cutoff)
      have hirrefl := Int64.lt_irrefl (a := unix cutoff)
      simp only [inSecondOf, ← List.countP_eq_length_filter, List.countP_cons] at ih ⊢
      simp only [doomed_admits hcutoff, AuditRow.olderThan, decide_eq_true_eq] at ih ⊢
      rcases eq_or_ne row.ts (unix cutoff) with heq | hne
      · simp only [heq, hirrefl, Int64.le_refl, if_true, if_false] at ih ⊢
        omega
      · simp only [hsplit, hne, or_false, if_false]
        omega

variable {log : AuditLog} {age : Duration}

/-- With room for the record, a prune does what it is asked. -/
theorem prune_audit_ok {cutoff : Time} (hcutoff : cutoff.isZero = false)
    (hroom : log.last < maxSeq) (actorID : Bytes) (later : Time) :
    ∃ log', log.pruneAudit cutoff actorID later = .ok (log.affected cutoff, log') := by
  obtain ⟨t, hstamped⟩ :=
    (retentionRecord (log.affected cutoff) cutoff actorID).stamped_cases later
  have hnamed : (retentionRecord (log.affected cutoff) cutoff actorID).event ≠ [] := by
    show ascii "admin.action" ≠ []
    decide
  have hleft : (log.delete cutoff).last < maxSeq := hroom
  simp only [AuditLog.pruneAudit, hcutoff, AuditLog.appendAudit, hstamped, AuditLog.insert, hnamed,
    hleft, if_false, dif_pos, Bool.false_eq_true]
  exact ⟨_, rfl⟩

/-- A dry run changes nothing, and it announces the number of events that the prune would remove and
those of the cutoff's own second, which the prune leaves; the number is capped, and said to be, from
the limit of the store on. -/
theorem dry_run_estimate (now later : Time) (hrows : log.rows ≠ [])
    (hcutoff : (now.add (-age)).isZero = false) (hroom : log.last < maxSeq) :
    ∃ doomed oldest capped removed log',
      auditPrune log age false now later =
          (.estimate doomed log.countAudit (now.add (-age)) oldest capped, log) ∧
        auditPrune log age true now later = (.removed removed (now.add (-age)), log') ∧
        doomed = min 10000 (removed + inSecondOf (now.add (-age)) log.rows) ∧
        (capped = true ↔ 10000 ≤ removed + inSecondOf (now.add (-age)) log.rows) ∧
        log'.countAudit + removed = log.countAudit + 1 := by
  obtain ⟨log', hprune⟩ := prune_audit_ok hcutoff hroom (ascii "admin") later
  obtain ⟨-, row, hrows', -⟩ := AuditHistory.prune_audit_spec hprune
  have hcount : log.rows.length ≠ 0 := fun h => hrows (List.length_eq_zero_iff.mp h)
  have hlength : (log.trail.queryAudit (doomedFilter (now.add (-age)))).length =
      min 10000 (log.affected (now.add (-age)) + inSecondOf (now.add (-age)) log.rows) := by
    rw [Trail.queryAudit, length_top, AuditLog.trail, count_doomed hcutoff]
    rfl
  have htotal := length_delete log (now.add (-age))
  let doomed := log.trail.queryAudit (doomedFilter (now.add (-age)))
  refine ⟨doomed.length, log.auditSpan.2, decide (doomed.length = maxAuditLimit.toNat),
    log.affected (now.add (-age)), log', ?_, ?_, hlength, ?_, ?_⟩
  · simp only [auditPrune, AuditLog.auditSpan, hcount, if_false, if_true, AuditLog.countAudit]
    rfl
  · simp only [auditPrune, AuditLog.auditSpan, hcount, if_false, Bool.true_eq_false, hprune]
  · rw [decide_eq_true_eq, show doomed.length = _ from hlength]
    have hcap : maxAuditLimit.toNat = 10000 := rfl
    omega
  · simp only [AuditLog.countAudit, hrows', List.length_cons]
    omega

/-- A trail with one event of the first second after the epoch. -/
def sampleLog : AuditLog :=
  (AuditHistory.after [.append { retentionRecord 0 Time.zero [] with atTime := Time.ofUnix 1 }
    (Time.ofUnix 1) false]).log

/-- A second later, the event is of the cutoff's own second. -/
theorem dry_run_estimate_sample :
    sampleLog.rows ≠ [] ∧ ∃ doomed oldest capped removed log',
      auditPrune sampleLog second false (Time.ofUnix 2) (Time.ofUnix 2) =
          (.estimate doomed sampleLog.countAudit ((Time.ofUnix 2).add (-second)) oldest capped,
            sampleLog) ∧
        auditPrune sampleLog second true (Time.ofUnix 2) (Time.ofUnix 2) =
          (.removed removed ((Time.ofUnix 2).add (-second)), log') ∧
        doomed = min 10000 (removed + inSecondOf ((Time.ofUnix 2).add (-second)) sampleLog.rows) ∧
        (capped = true ↔
          10000 ≤ removed + inSecondOf ((Time.ofUnix 2).add (-second)) sampleLog.rows) ∧
        log'.countAudit + removed = sampleLog.countAudit + 1 := by
  have hrows : sampleLog.rows ≠ [] := by decide
  exact ⟨hrows, dry_run_estimate (Time.ofUnix 2) (Time.ofUnix 2) hrows (by decide) (by decide)⟩

end AccessRelay.Server
