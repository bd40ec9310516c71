import AccessRelay.Encoding.BigEndian
import AccessRelay.Machine.Pool

/-!
# Migrating while others open

`storage.Open` and `migrate` of `internal/storage`. Each Open reads the version of the database
once, outside of any transaction, and then applies the migrations after it, each in a transaction of
its own with the new version. The transactions take the write lock when they begin, so they are
atomic; between them anything may happen.

`opens_migrate_once_iff` says what goes wrong and what does not, for every list of migrations, every
version to start from, any number of Opens and every interleaving: the Opens migrate the database
once and all of them succeed exactly if none applies a migration to a version that another Open has
already left behind. Such a migration finds its objects in place and fails, or is applied twice.
-/

namespace AccessRelay.Storage.Migrate

open Encoding Machine

/-- A statement that creates an object, `CREATE TABLE`, `CREATE INDEX` or `ADD COLUMN`, with the
objects that have to be there for it. -/
structure SchemaStatement (Object : Type) where
  creates : Object
  needs : List Object

/-- One forward step in the schema. -/
structure Migration (Object : Type) where
  description : Bytes
  stmts : List (SchemaStatement Object)

section Schema

variable {Object : Type} [DecidableEq Object]

/-- A statement fails if its object exists, or one that it needs does not. -/
def SchemaStatement.exec (objects : List Object) (s : SchemaStatement Object) :
    Option (List Object) :=
  if s.creates ∈ objects ∨ ∃ o ∈ s.needs, o ∉ objects then none else some (s.creates :: objects)

/-- The statements of a migration, in order. -/
def Migration.exec (objects : List Object) (m : Migration Object) : Option (List Object) :=
  run SchemaStatement.exec objects m.stmts

variable (Object) in
/-- The schema history. The migrations can be applied one after another to a new database. -/
structure Schema where
  migrations : List (Migration Object)
  buildable : (run Migration.exec [] migrations).isSome = true

variable (schema : Schema Object)

/-- `SchemaVersion`. -/
def Schema.version : Nat := schema.migrations.length

/-- The objects of a database at a version. -/
def Schema.build (version : Nat) : Option (List Object) :=
  run Migration.exec [] (schema.migrations.take version)

theorem Schema.build_some (version : Nat) : ∃ objects, schema.build version = some objects := by
  have hall := schema.buildable
  rw [← List.take_append_drop version schema.migrations, run_append] at hall
  cases hbuild : schema.build version with
  | none =>
      rw [Schema.build] at hbuild
      simp [hbuild] at hall
  | some objects => exact ⟨objects, rfl⟩

/-- One more migration. -/
theorem Schema.build_succ {version : Nat} {m : Migration Object} {objects : List Object}
    (hm : schema.migrations[version]? = some m) (hbuild : schema.build version = some objects) :
    schema.build (version + 1) = m.exec objects := by
  rw [Schema.build] at hbuild ⊢
  rw [List.take_add_one, hm, run_append, hbuild]
  simp [run]

/-- The database file: its `user_version` and its objects, with a history of the versions that
migrations have produced, the latest first. -/
structure DatabaseFile (Object : Type) where
  version : Nat
  objects : List Object
  applied : List Nat
  deriving DecidableEq

/-- Why an Open failed. -/
inductive OpenError where
  | schemaTooNew (found : Nat)
  | migrate (version : Nat) (description : Bytes)
  deriving DecidableEq

/-- An Open in progress, named after what it does next. -/
inductive Opening where
  | readVersion
  | applyMigration (v : Nat)
  | opened
  | failed (error : OpenError)
  deriving DecidableEq

/-- The next operation of an Open. A migration that fails is rolled back. -/
def openingStep (db : DatabaseFile Object) (call : Opening) (_ : Unit) :
    Option (DatabaseFile Object × Opening) :=
  match call with
  | .readVersion =>
      if schema.version < db.version then some (db, .failed (.schemaTooNew db.version))
      else if db.version = schema.version then some (db, .opened)
      else some (db, .applyMigration db.version)
  | .applyMigration v =>
      (schema.migrations[v]?).map fun m =>
        match m.exec db.objects with
        | none => (db, .failed (.migrate (v + 1) m.description))
        | some objects =>
            (⟨v + 1, objects, (v + 1) :: db.applied⟩,
              if v + 1 < schema.version then .applyMigration (v + 1) else .opened)
  | .opened => none
  | .failed _ => none

/-- Any number of Opens on one database file. -/
def openStep : Pool (DatabaseFile Object) Opening → PoolAction Opening Unit →
    Option (Pool (DatabaseFile Object) Opening) :=
  poolStep (fun _ call => decide (call = .readVersion)) (openingStep schema)

/-- A database at a version, which nobody has open. -/
def Schema.atVersion (version : Nat) : Pool (DatabaseFile Object) Opening :=
  ⟨⟨version, (schema.build version).getD [], []⟩, []⟩

/-- The number of steps that an Open has left, at most. -/
def Opening.left (latest : Nat) : Opening → Nat
  | .readVersion => latest + 1
  | .applyMigration v => latest - v
  | .opened => 0
  | .failed _ => 0

/-- The Opens migrate once and succeed: none has failed, each migration from the first version to
the version of the database has been applied exactly once and no other, an Open that has returned
leaves the latest version, and each of the others comes nearer to returning with its next step. -/
structure Migrated (first : Nat) (pool : Pool (DatabaseFile Object) Opening) : Prop where
  succeeded : ∀ e, .failed e ∉ pool.calls
  once : ∀ v, pool.shared.applied.count v = if first < v ∧ v ≤ pool.shared.version then 1 else 0
  finished : .opened ∈ pool.calls → pool.shared.version = schema.version
  advances : ∀ (index : Nat) (call : Opening), pool.calls[index]? = some call → call ≠ .opened →
    ∃ next call', openStep schema pool (.advance index ()) = some next ∧
      next.calls[index]? = some call' ∧ call'.left schema.version < call.left schema.version

/-- The condition: a migration is applied to the version it was read for. No other Open has
migrated the database since. -/
def versionStands (db : DatabaseFile Object) (call : Opening) (_ : Unit) : Bool :=
  match call with
  | .applyMigration v => db.version = v
  | _ => true

end Schema

section Invariant

variable {Object : Type} [DecidableEq Object] (schema : Schema Object) (first : Nat)

/-- The database is as its version says. -/
structure Consistent (db : DatabaseFile Object) : Prop where
  first_le : first ≤ db.version
  le_latest : db.version ≤ schema.version
  objects : schema.build db.version = some db.objects
  once : ∀ v, db.applied.count v = if first < v ∧ v ≤ db.version then 1 else 0

/-- What an Open in progress knows. What it has read may be out of date. -/
def Opening.Knows (db : DatabaseFile Object) : Opening → Prop
  | .readVersion => True
  | .applyMigration v => first ≤ v ∧ v ≤ db.version ∧ v < schema.version
  | .opened => db.version = schema.version
  | .failed _ => False

variable {schema first} {db db' : DatabaseFile Object} {call call' : Opening}

/-- A step that meets the condition does what it should, and leaves the version or raises it. -/
theorem opening_step_stands (hdb : Consistent schema first db)
    (hknows : call.Knows schema first db)
    (hstep : guarded versionStands (openingStep schema) db call () = some (db', call')) :
    Consistent schema first db' ∧ call'.Knows schema first db' ∧ db.version ≤ db'.version ∧
      (db.version = schema.version → db' = db) := by
  obtain ⟨hstands, hstep⟩ := guarded_eq_some.mp hstep
  cases call with
  | readVersion =>
      have hle := hdb.le_latest
      simp only [openingStep] at hstep
      split_ifs at hstep with hnew hlatest
      · omega
      · cases hstep
        exact ⟨hdb, hlatest, Nat.le_refl _, fun _ => rfl⟩
      · cases hstep
        exact ⟨hdb, ⟨hdb.first_le, Nat.le_refl _, by omega⟩, Nat.le_refl _, fun _ => rfl⟩
  | applyMigration v =>
      obtain ⟨hfirst, -, hlatest⟩ := hknows
      obtain rfl : db.version = v := of_decide_eq_true hstands
      obtain ⟨m, hm, hresult⟩ := Option.map_eq_some_iff.mp hstep
      obtain ⟨objects, hbuild⟩ := schema.build_some (db.version + 1)
      have hexec : m.exec db.objects = some objects := by
        rw [← schema.build_succ hm hdb.objects, hbuild]
      rw [hexec] at hresult
      cases hresult
      refine ⟨⟨by simp only; omega, hlatest, hbuild, ?_⟩, ?_, Nat.le_succ _, fun h => by omega⟩
      · intro w
        rw [List.count_cons, hdb.once w]
        by_cases hw : w = db.version + 1
        · subst hw
          simp only [beq_self_eq_true, if_true]
          rw [if_neg (by omega), if_pos (by omega)]
        · have hbeq : ((db.version + 1 == w) = true) = False := by
            simp [Ne.symm hw]
          simp only [hbeq, if_false, Nat.add_zero]
          split_ifs <;> omega
      · split
        next hmore => exact ⟨by omega, Nat.le_refl _, hmore⟩
        next hdone =>
          show db.version + 1 = schema.version
          omega
  | opened => simp [openingStep] at hstep
  | failed e => simp [openingStep] at hstep

/-- An Open that has not returned takes its next step, and has fewer left after it. -/
theorem opening_step_left (hknows : call.Knows schema first db) (hopen : call ≠ .opened) :
    ∃ db' call', openingStep schema db call () = some (db', call') ∧
      call'.left schema.version < call.left schema.version := by
  cases call with
  | readVersion =>
      simp only [openingStep]
      split_ifs with hnew hlatest
      · exact ⟨_, _, rfl, Nat.succ_pos _⟩
      · exact ⟨_, _, rfl, Nat.succ_pos _⟩
      · refine ⟨_, _, rfl, ?_⟩
        show schema.version - db.version < schema.version + 1
        omega
  | applyMigration v =>
      obtain ⟨-, -, hlatest⟩ := hknows
      obtain ⟨m, hm⟩ : ∃ m, schema.migrations[v]? = some m :=
        ⟨_, List.getElem?_eq_getElem hlatest⟩
      have hpos : 0 < schema.version - v := by omega
      simp only [openingStep, hm, Option.map_some]
      split
      · exact ⟨_, _, rfl, hpos⟩
      · refine ⟨_, _, rfl, ?_⟩
        split
        · show schema.version - (v + 1) < schema.version - v
          omega
        · exact hpos
  | opened => exact absurd rfl hopen
  | failed e => exact hknows.elim

/-- A migration for a version that another Open has left behind fails, or is applied again. -/
theorem opening_step_stale {v : Nat} (hdb : Consistent schema first db)
    (hknows : (Opening.applyMigration v).Knows schema first db) (hstale : db.version ≠ v)
    (hstep : openingStep schema db (.applyMigration v) () = some (db', call')) :
    (∃ e, call' = .failed e) ∨ db'.applied.count (v + 1) = 2 := by
  obtain ⟨hfirst, hle, -⟩ := hknows
  obtain ⟨m, -, hresult⟩ := Option.map_eq_some_iff.mp hstep
  cases hexec : m.exec db.objects with
  | none =>
      rw [hexec] at hresult
      cases hresult
      exact .inl ⟨_, rfl⟩
  | some objects =>
      rw [hexec] at hresult
      cases hresult
      refine .inr ?_
      rw [List.count_cons_self, hdb.once, if_pos ⟨by omega, by omega⟩]

/-- What holds of a pool of Opens whose steps meet the condition. -/
abbrev Opens (schema : Schema Object) (first : Nat) (pool : Pool (DatabaseFile Object) Opening) :
    Prop :=
  pool.Holds (Consistent schema first) (fun db call => call.Knows schema first db)

variable {pool next : Pool (DatabaseFile Object) Opening} {action : PoolAction Opening Unit}

theorem opens_at_version (hfirst : first ≤ schema.version) :
    Opens schema first (schema.atVersion first) := by
  obtain ⟨objects, hbuild⟩ := schema.build_some first
  refine ⟨⟨Nat.le_refl _, hfirst, ?_, ?_⟩, ?_⟩
  · simp [Schema.atVersion, hbuild]
  · intro v
    rw [if_neg (by simp only [Schema.atVersion]; omega)]
    rfl
  · intro call hcall
    cases hcall

theorem opens_migrated (hpool : Opens schema first pool) : Migrated schema first pool := by
  refine ⟨fun e he => hpool.calls _ he, hpool.shared.once, fun h => hpool.calls _ h, ?_⟩
  intro index call hcall hopen
  obtain ⟨db', call', hstep, hleft⟩ :=
    opening_step_left (hpool.calls call (List.mem_of_getElem? hcall)) hopen
  obtain ⟨hindex, -⟩ := List.getElem?_eq_some_iff.mp hcall
  refine ⟨⟨db', pool.calls.set index call'⟩, call', ?_, ?_, hleft⟩
  · simp [openStep, poolStep, hcall, hstep]
  · simp [hindex]

theorem opens_step (hpool : Opens schema first pool)
    (hstep : restrict (poolGuard versionStands) (openStep schema) pool action = some next) :
    Opens schema first next := by
  rw [openStep, restrict_pool_guard] at hstep
  refine pool_step_holds ?_ ?_ ?_ hpool hstep
  · intro db call _ hmay
    obtain rfl := of_decide_eq_true hmay
    exact trivial
  · intro db call _ db' call' hdb hknows hcall
    obtain ⟨hdb', hknows', -⟩ := opening_step_stands hdb hknows hcall
    exact ⟨hdb', hknows'⟩
  · intro db call _ db' call' other hdb hknows hcall hother
    obtain ⟨-, -, hgrows, hlatest⟩ := opening_step_stands hdb hknows hcall
    cases other with
    | readVersion => exact trivial
    | applyMigration v =>
        obtain ⟨hfirst, hle, hlt⟩ := hother
        exact ⟨hfirst, Nat.le_trans hle hgrows, hlt⟩
    | opened =>
        rw [hlatest hother]
        exact hother
    | failed e => exact hother

theorem opens_stale (hpool : Opens schema first pool)
    (hstep : openStep schema pool action = some next)
    (hguard : poolGuard versionStands pool action = false) : ¬ Migrated schema first next := by
  rcases pool_step_cases hstep with ⟨call, rfl, -, -⟩ |
    ⟨index, input, call, db', call', rfl, hcall, hcallStep, rfl⟩
  · cases hguard
  · rw [poolGuard, hcall, Option.all_some] at hguard
    have hknows := hpool.calls call (List.mem_of_getElem? hcall)
    obtain ⟨hindex, -⟩ := List.getElem?_eq_some_iff.mp hcall
    cases call with
    | applyMigration v =>
        have hstale : pool.shared.version ≠ v := of_decide_eq_false hguard
        intro hmigrated
        rcases opening_step_stale hpool.shared hknows hstale hcallStep with ⟨e, rfl⟩ | htwice
        · exact hmigrated.succeeded e (List.mem_set hindex _)
        · have honce := hmigrated.once (v + 1)
          rw [htwice] at honce
          split_ifs at honce
          omega
    | readVersion => cases hguard
    | opened => cases hguard
    | failed e => cases hguard

end Invariant

/-- Opens of one database file migrate it once and succeed, in every state that a run reaches,
exactly if each applies a migration only while the version is the one that it has read or left
itself. -/
theorem opens_migrate_once_iff {Object : Type} [DecidableEq Object] (schema : Schema Object)
    {first : Nat} (hfirst : first ≤ schema.version) {actions : List (PoolAction Opening Unit)}
    {pool : Pool (DatabaseFile Object) Opening}
    (hrun : run (openStep schema) (schema.atVersion first) actions = some pool) :
    run (restrict (poolGuard versionStands) (openStep schema)) (schema.atVersion first) actions =
        some pool ↔
      ∀ k state, run (openStep schema) (schema.atVersion first) (actions.take k) = some state →
        Migrated schema first state :=
  run_restrict_iff_always opens_migrated opens_step opens_stale (opens_at_version hfirst) hrun

section Released

/-- The tables, indexes and columns of the schema. -/
inductive SchemaObject where
  | identities
  | enrollmentTokens
  | idxTokensIdentity
  | operatorSessions
  | idxSessionsUser
  | idxSessionsExpires
  | grants
  | idxGrantsUser
  | idxGrantsDevice
  | idxGrantsSession
  | idxGrantsExpires
  | auditEvents
  | idxAuditTs
  | idxAuditEvent
  | idxAuditActor
  | idxAuditDevice
  | idxAuditGrant
  | identitiesPendingSerialHex
  | identitiesPendingIssuedAt
  deriving DecidableEq

/-- `migrations`, the schema history of this build. -/
def migrations : List (Migration SchemaObject) :=
  [{ description := ascii "identities, enrollment tokens, operator sessions, grants, audit trail"
     stmts :=
      [⟨.identities, []⟩,
        ⟨.enrollmentTokens, []⟩,
        ⟨.idxTokensIdentity, [.enrollmentTokens]⟩,
        ⟨.operatorSessions, []⟩,
        ⟨.idxSessionsUser, [.operatorSessions]⟩,
        ⟨.idxSessionsExpires, [.operatorSessions]⟩,
        ⟨.grants, []⟩,
        ⟨.idxGrantsUser, [.grants]⟩,
        ⟨.idxGrantsDevice, [.grants]⟩,
        ⟨.idxGrantsSession, [.grants]⟩,
        ⟨.idxGrantsExpires, [.grants]⟩,
        ⟨.auditEvents, []⟩,
        ⟨.idxAuditTs, [.auditEvents]⟩,
        ⟨.idxAuditEvent, [.auditEvents]⟩,
        ⟨.idxAuditActor, [.auditEvents]⟩,
        ⟨.idxAuditDevice, [.auditEvents]⟩,
        ⟨.idxAuditGrant, [.auditEvents]⟩] },
    { description :=
        ascii "pending certificate serial, for renewal that cannot brick an endpoint"
      stmts :=
      [⟨.identitiesPendingSerialHex, [.identities]⟩,
        ⟨.identitiesPendingIssuedAt, [.identities]⟩] }]

theorem migrations_buildable : (run Migration.exec [] migrations).isSome = true := by decide

/-- The schema of this build. -/
def currentSchema : Schema SchemaObject := ⟨migrations, migrations_buildable⟩

/-- One Open after another, on a new database. -/
def oneAfterAnother : List (PoolAction Opening Unit) :=
  [.start .readVersion, .advance 0 (), .advance 0 (), .advance 0 (), .start .readVersion,
    .advance 1 ()]

theorem second_open_migrates_nothing :
    ∃ pool, run (openStep currentSchema) (currentSchema.atVersion 0) oneAfterAnother = some pool ∧
      pool.calls = [.opened, .opened] ∧ pool.shared.applied = [2, 1] ∧
      Migrated currentSchema 0 pool := by
  have hevaluate : (run (restrict (poolGuard versionStands) (openStep currentSchema))
      (currentSchema.atVersion 0) oneAfterAnother).map
      (fun pool => (pool.calls, pool.shared.applied)) = some ([.opened, .opened], [2, 1]) := by
    decide +kernel
  obtain ⟨pool, hguarded, hpool⟩ := Option.map_eq_some_iff.mp hevaluate
  obtain ⟨hcalls, happlied⟩ := Prod.mk.inj hpool
  have hrun := run_of_restrict hguarded
  refine ⟨pool, hrun, hcalls, happlied, ?_⟩
  exact (opens_migrate_once_iff currentSchema (by decide) hrun).mp hguarded
    oneAfterAnother.length pool (by rw [List.take_length]; exact hrun)

/-- Both processes read version 0, and the first migrates. The second finds the table `identities`
in place: its Open fails, on a database that it could use as it is. -/
theorem late_open_fails :
    ∃ pool, run (openStep currentSchema) (currentSchema.atVersion 0)
        [.start .readVersion, .start .readVersion, .advance 0 (), .advance 1 (), .advance 0 (),
          .advance 0 (), .advance 1 ()] = some pool ∧
      pool.shared.version = currentSchema.version ∧
      pool.calls = [.opened, .failed (.migrate 1
        (ascii "identities, enrollment tokens, operator sessions, grants, audit trail"))] ∧
      ¬ Migrated currentSchema 0 pool := by
  have hevaluate : (run (openStep currentSchema) (currentSchema.atVersion 0)
      [.start .readVersion, .start .readVersion, .advance 0 (), .advance 1 (), .advance 0 (),
        .advance 0 (), .advance 1 ()]).map (fun pool => (pool.shared.version, pool.calls)) =
      some (2, [.opened, .failed (.migrate 1
        (ascii "identities, enrollment tokens, operator sessions, grants, audit trail"))]) := by
    decide +kernel
  obtain ⟨pool, hrun, hpool⟩ := Option.map_eq_some_iff.mp hevaluate
  obtain ⟨hversion, hcalls⟩ := Prod.mk.inj hpool
  refine ⟨pool, hrun, hversion, hcalls, ?_⟩
  intro hmigrated
  have hfailed := hmigrated.succeeded (.migrate 1
    (ascii "identities, enrollment tokens, operator sessions, grants, audit trail"))
  rw [hcalls] at hfailed
  exact hfailed (List.mem_cons_of_mem _ (List.mem_singleton_self _))

end Released

end AccessRelay.Storage.Migrate
