import AccessRelay.Machine.Run
import AccessRelay.Storage.Identities

/-!
# Enrollment tokens

`PutToken`, `ConsumeToken` and `ImportLegacyJSON` on one database, in any interleaving. A
transaction takes the write lock when it begins and works on its own copy of the tables, which
becomes the database if it commits; `PutToken` is one statement and waits for the lock. The check
with which an import begins is a read outside its transaction, so any number of imports can have
passed it before the first one writes.

Two things are kept that are not in the database: the outcome of every `ConsumeToken` that has
returned, and what was last stored under each hash. `tokens_single_use` is about all runs, and
`consume_token_row` and `put_token_row` connect the statements to the operations of
`Storage.Identities`.
-/

namespace AccessRelay.Storage

open Encoding Ca Go Machine

/-- A row of `enrollment_tokens`. The table takes any text for a role. -/
structure TokenRow where
  role : Bytes
  id : Bytes
  issuedAt : Int64
  expiresAt : Int64
  consumedAt : Option Int64
  deriving DecidableEq

/-- The tables that an import fills. -/
structure Database where
  identities : List (Identity × Record)
  tokens : Bytes → Option TokenRow

namespace Database

variable (db : Database)

/-- The statement of `PutToken`. A row that is there keeps its time of consumption. -/
def putToken (hash : Bytes) (row : TokenRow) : Database :=
  let row := match db.tokens hash with
    | none => row
    | some old => { row with consumedAt := old.consumedAt }
  { db with tokens := Function.update db.tokens hash (some row) }

/-- The update of `ConsumeToken`, with the number of rows that it affects. -/
def markToken (hash : Bytes) (now : Time) : Nat × Database :=
  match db.tokens hash with
  | none => (0, db)
  | some row =>
      if row.consumedAt.isNone then
        (1, { db with
          tokens := Function.update db.tokens hash
            (some { row with consumedAt := some (unix now) }) })
      else (0, db)

end Database

/-- The update of `ConsumeToken` on the row that was read. -/
theorem mark_token_of_unused {db : Database} {hash : Bytes} {row : TokenRow}
    (hrow : db.tokens hash = some row) (hunused : row.consumedAt = none) (now : Time) :
    db.markToken hash now = (1, { db with
      tokens := Function.update db.tokens hash
        (some { row with consumedAt := some (unix now) }) }) := by
  simp only [Database.markToken, hrow, hunused, Option.isNone_none, if_true]

/-- A statement of an import. -/
inductive Insert where
  | identity (identity : Identity) (enrolledAt : Int64) (serialHex : Bytes)
      (revokedAt : Option Int64)
  | token (hash : Bytes) (row : TokenRow)

/-- An insert fails on a key that is there. -/
def Database.insert (db : Database) : Insert → Option Database
  | .identity identity enrolledAt serialHex revokedAt =>
      if db.identities.any fun entry => entry.1 = identity then none
      else some { db with
        identities := (identity, ⟨enrolledAt, serialHex, revokedAt, [], none⟩) :: db.identities }
  | .token hash row =>
      if (db.tokens hash).isSome then none
      else some { db with
        tokens := Function.update db.tokens hash (some { row with consumedAt := none }) }

/-- A legacy file: its records and tokens, in the order in which the import ranges over them. -/
structure LegacyState where
  records : List (Identity × Record)
  tokens : List (Bytes × TokenRow)

/-- The statements of an import. Tokens that are consumed do not carry forward. -/
def LegacyState.inserts (st : LegacyState) : List Insert :=
  (st.records.map fun entry =>
      .identity entry.1 entry.2.enrolledAt entry.2.serialHex entry.2.revokedAt) ++
    (st.tokens.filter fun entry => entry.2.consumedAt.isNone).map fun entry =>
      .token entry.1 entry.2

/-- What a transaction does next. `row` is what `ConsumeToken` has read, and `checkedAt` the time
at which it was found not to have expired. An import has done some of its statements. -/
inductive Phase where
  | select (hash : Bytes)
  | check (hash : Bytes) (row : TokenRow)
  | mark (hash : Bytes) (row : TokenRow) (checkedAt : Time)
  | commit (hash : Bytes) (row : TokenRow) (checkedAt : Time)
  | insert (done rest : List Insert)

/-- The transaction that holds the write lock: the database when it began, its own copy, and what
it does next. -/
structure Writer where
  begun : Database
  working : Database
  phase : Phase

/-- The errors of `ConsumeToken`: its own, or that of a statement or of the commit. -/
inductive ConsumeError where
  | token (e : StoreError)
  | database
  deriving DecidableEq, Repr

/-- What a `ConsumeToken` returned: the row, or an error, with the database when it began. -/
inductive Outcome where
  | consumed (hash : Bytes) (row : TokenRow) (checkedAt : Time)
  | refused (hash : Bytes) (error : ConsumeError) (begun : Database)

/-- The outcome is a success for this hash. -/
def Outcome.consumes (hash : Bytes) : Outcome → Bool
  | .consumed hash' _ _ => hash' = hash
  | .refused .. => false

/-- The role, the name and the time of expiry that a row stores. -/
def TokenRow.content (row : TokenRow) : Bytes × Bytes × Int64 := (row.role, row.id, row.expiresAt)

/-- What is stored under each hash after some inserts. -/
def storedAfter (stored : Bytes → Option (Bytes × Bytes × Int64)) :
    List Insert → Bytes → Option (Bytes × Bytes × Int64)
  | [] => stored
  | .identity .. :: rest => storedAfter stored rest
  | .token hash row :: rest => storedAfter (Function.update stored hash (some row.content)) rest

/-- The database and the transaction on it, the imports that have found no identities, the
outcomes of `ConsumeToken`, and what was last stored under each hash. -/
structure TokenState where
  db : Database
  writer : Option Writer
  checked : List LegacyState
  outcomes : List Outcome
  stored : Bytes → Option (Bytes × Bytes × Int64)

/-- A new database. -/
def TokenState.new : TokenState where
  db := ⟨[], fun _ => none⟩
  writer := none
  checked := []
  outcomes := []
  stored := fun _ => none

/-- One statement of some caller. `advance` is the next one of the transaction, with the clock that
it reads, and `fail` an error in its place. -/
inductive TokenAction where
  | putToken (hash : Bytes) (row : TokenRow)
  | beginConsume (hash : Bytes)
  | readLegacy (st : LegacyState)
  | beginImport (index : Nat)
  | advance (now : Time)
  | fail

namespace TokenState

variable (s : TokenState)

/-- `ConsumeToken` returns an error, and its transaction is rolled back. -/
def refuse (w : Writer) (hash : Bytes) (error : ConsumeError) : TokenState :=
  { s with writer := none, outcomes := .refused hash error w.begun :: s.outcomes }

/-- The transaction goes on. -/
def goOn (w : Writer) (phase : Phase) : TokenState :=
  { s with writer := some { w with phase } }

/-- The next statement of the transaction. -/
def advance (w : Writer) (now : Time) : TokenState :=
  match w.phase with
  | .select hash =>
      match w.working.tokens hash with
      | none => s.refuse w hash (.token .tokenUnknown)
      | some row => s.goOn w (.check hash row)
  | .check hash row =>
      if row.consumedAt.isSome then s.refuse w hash (.token .tokenConsumed)
      else if now.after (fromUnix row.expiresAt) then s.refuse w hash (.token .tokenExpired)
      else s.goOn w (.mark hash row now)
  | .mark hash row checkedAt =>
      match w.working.markToken hash now with
      | (0, _) => s.refuse w hash (.token .tokenConsumed)
      | (_, working) =>
          s.goOn { w with working }
            (.commit hash { row with consumedAt := some (unix now) } checkedAt)
  | .commit hash row checkedAt =>
      { s with
        db := w.working, writer := none
        outcomes := .consumed hash row checkedAt :: s.outcomes }
  | .insert done (statement :: rest) =>
      match w.working.insert statement with
      | none => { s with writer := none }
      | some working => s.goOn { w with working } (.insert (done ++ [statement]) rest)
  | .insert done [] =>
      { s with db := w.working, writer := none, stored := storedAfter s.stored done }

/-- A statement of the transaction fails, and it is rolled back. -/
def fail (w : Writer) : TokenState :=
  match w.phase with
  | .select hash | .check hash _ | .mark hash _ _ | .commit hash _ _ => s.refuse w hash .database
  | .insert .. => { s with writer := none }

/-- One step. What writes waits for the lock. -/
def step : TokenAction → Option TokenState
  | .putToken hash row =>
      if s.writer.isSome then none
      else some { s with
        db := s.db.putToken hash row
        stored := Function.update s.stored hash (some row.content) }
  | .beginConsume hash =>
      if s.writer.isSome then none
      else some { s with writer := some ⟨s.db, s.db, .select hash⟩ }
  | .readLegacy st =>
      some (if s.db.identities = [] then { s with checked := st :: s.checked } else s)
  | .beginImport index =>
      if s.writer.isSome then none
      else (s.checked[index]?).map fun st =>
        { s with
          writer := some ⟨s.db, s.db, .insert [] st.inserts⟩
          checked := s.checked.eraseIdx index }
  | .advance now => s.writer.map fun w => s.advance w now
  | .fail => s.writer.map s.fail

end TokenState

/-- A token as a row. -/
def Token.row (token : Token) : TokenRow :=
  ⟨token.identity.role.text, token.identity.id, token.issuedAt, token.expiresAt, token.consumedAt⟩

/-- The token table as rows. -/
def Identities.rows (db : Identities) (hash : Bytes) : Option TokenRow :=
  (db.tokens hash).map Token.row

section Rows

variable {db : Identities} {s : TokenState}

/-- `PutToken` on the identity tables is the statement on the rows. -/
theorem put_token_row {rows : Database} (h : rows.tokens = db.rows) (hash : Bytes)
    (token : Token) : (rows.putToken hash token.row).tokens = (db.putToken hash token).rows := by
  funext k
  have hrow : rows.tokens hash = (db.tokens hash).map Token.row := by rw [h]; rfl
  by_cases hk : k = hash
  · subst hk
    simp only [Database.putToken, Identities.putToken, Identities.rows, hrow,
      Function.update_self]
    cases db.tokens k <;> rfl
  · simp only [Database.putToken, Identities.putToken, Identities.rows, h,
      Function.update_of_ne hk]

/-- The outcome that stands for what `ConsumeToken` returns on the identity tables. -/
def outcomeOf (hash : Bytes) (now : Time) (begun : Database) : Except StoreError Token → Outcome
  | .ok token => .consumed hash token.row now
  | .error e => .refused hash (.token e) begun

/-- The next statement of the transaction that holds the lock. -/
theorem step_advance {w : Writer} (hw : s.writer = some w) (now : Time) :
    s.step (.advance now) = some (s.advance w now) := by
  rw [TokenState.step, hw, Option.map_some]

/-- `ConsumeToken` begins, reads the row and checks it. -/
theorem consume_checks (hfree : s.writer = none) {hash : Bytes} {row : TokenRow}
    (hrow : s.db.tokens hash = some row) (n : Nat) (now : Time) :
    run TokenState.step s (.beginConsume hash :: List.replicate (n + 2) (.advance now)) =
      run TokenState.step (({ s with writer := some ⟨s.db, s.db, .check hash row⟩ } :
        TokenState).advance ⟨s.db, s.db, .check hash row⟩ now)
        (List.replicate n (.advance now)) := by
  have hbegin : s.step (.beginConsume hash) =
      some { s with writer := some ⟨s.db, s.db, .select hash⟩ } := by
    simp [TokenState.step, hfree]
  rw [run_cons, hbegin, Option.bind_some, List.replicate_succ, run_cons, step_advance rfl,
    TokenState.advance]
  simp only [hrow]
  rw [Option.bind_some, List.replicate_succ, run_cons, TokenState.goOn, step_advance rfl,
    Option.bind_some]

/-- Any other row is marked, and the transaction commits. -/
theorem consume_commits (hfree : s.writer = none) {hash : Bytes} {row : TokenRow}
    (hrow : s.db.tokens hash = some row) (hunused : row.consumedAt = none) {now : Time}
    (hfresh : now.after (fromUnix row.expiresAt) = false) :
    run TokenState.step s (.beginConsume hash :: List.replicate 4 (.advance now)) =
      some { s with
        db := { s.db with
          tokens := Function.update s.db.tokens hash
            (some { row with consumedAt := some (unix now) }) }
        writer := none
        outcomes := .consumed hash { row with consumedAt := some (unix now) } now ::
          s.outcomes } := by
  have hcheck : ({ s with writer := some ⟨s.db, s.db, .check hash row⟩ } : TokenState).advance
      ⟨s.db, s.db, .check hash row⟩ now =
        { s with writer := some ⟨s.db, s.db, .mark hash row now⟩ } := by
    rw [TokenState.advance]
    simp only [hunused, Option.isSome_none, Bool.false_eq_true, if_false, hfresh]
    rfl
  have hmark : ({ s with writer := some ⟨s.db, s.db, .mark hash row now⟩ } : TokenState).step
      (.advance now) = some { s with
        writer := some ⟨s.db, { s.db with
          tokens := Function.update s.db.tokens hash
            (some { row with consumedAt := some (unix now) }) },
          .commit hash { row with consumedAt := some (unix now) } now⟩ } := by
    rw [step_advance rfl, TokenState.advance]
    simp only [mark_token_of_unused hrow hunused]
    rfl
  rw [consume_checks hfree hrow 2, hcheck, List.replicate_succ, run_cons, hmark,
    Option.bind_some, List.replicate_one, run_cons, step_advance rfl]
  rfl

/-- `ConsumeToken` on the identity tables is what its statements do, one after the other. -/
theorem consume_token_row (hfree : s.writer = none) (hrows : s.db.tokens = db.rows)
    (hash : Bytes) (now : Time) :
    ∃ n s', run TokenState.step s (.beginConsume hash :: List.replicate n (.advance now)) =
        some s' ∧
      s'.writer = none ∧ s'.db.tokens = (db.consumeToken hash now).2.rows ∧
      s'.outcomes = outcomeOf hash now s.db (db.consumeToken hash now).1 :: s.outcomes := by
  have hrow : s.db.tokens hash = (db.tokens hash).map Token.row := by rw [hrows]; rfl
  cases htoken : db.tokens hash with
  | none =>
      refine ⟨1, s.refuse ⟨s.db, s.db, .select hash⟩ hash (.token .tokenUnknown), ?_, rfl, ?_, ?_⟩
      · simp [run_cons, TokenState.step, TokenState.advance, TokenState.refuse, hfree, hrow, htoken]
      · simp only [Identities.consumeToken, htoken]
        exact hrows
      · simp only [Identities.consumeToken, htoken]
        rfl
  | some token =>
      rw [htoken, Option.map_some] at hrow
      have hchecked := consume_checks hfree hrow 0 now
      simp only [TokenState.advance] at hchecked
      by_cases hconsumed : token.consumedAt.isSome = true
      · rw [if_pos (show token.row.consumedAt.isSome = true from hconsumed)] at hchecked
        refine ⟨2, _, hchecked, rfl, ?_, ?_⟩
        · simp only [Identities.consumeToken, htoken, if_pos hconsumed]
          exact hrows
        · simp only [Identities.consumeToken, htoken, if_pos hconsumed]
          rfl
      · have hunused : token.row.consumedAt = none := by simpa [Token.row] using hconsumed
        rw [if_neg (show ¬ token.row.consumedAt.isSome = true from hconsumed)] at hchecked
        by_cases hexpired : now.after (fromUnix token.expiresAt) = true
        · rw [if_pos (show now.after (fromUnix token.row.expiresAt) from hexpired)] at hchecked
          refine ⟨2, _, hchecked, rfl, ?_, ?_⟩
          · simp only [Identities.consumeToken, htoken, if_neg hconsumed, if_pos hexpired]
            exact hrows
          · simp only [Identities.consumeToken, htoken, if_neg hconsumed, if_pos hexpired]
            rfl
        · have hfresh : now.after (fromUnix token.row.expiresAt) = false :=
            Bool.eq_false_iff.mpr hexpired
          refine ⟨4, _, consume_commits hfree hrow hunused hfresh, rfl, ?_, ?_⟩
          · simp only [Identities.consumeToken, htoken, if_neg hconsumed, if_neg hexpired]
            funext k
            by_cases hk : k = hash
            · subst hk
              simp only [Identities.rows, Function.update_self]
              rfl
            · simp only [Identities.rows, Function.update_of_ne hk, hrows]
          · simp only [Identities.consumeToken, htoken, if_neg hconsumed, if_neg hexpired]
            rfl

end Rows

/-- What is stored is what the rows say. -/
def Agrees (tokens : Bytes → Option TokenRow)
    (stored : Bytes → Option (Bytes × Bytes × Int64)) : Prop :=
  ∀ hash, (tokens hash).map TokenRow.content = stored hash

/-- The row of this hash is consumed. -/
def Used (tokens : Bytes → Option TokenRow) (hash : Bytes) : Prop :=
  ∃ row, tokens hash = some row ∧ row.consumedAt.isSome = true

section Statements

variable {db db' : Database} {stored : Bytes → Option (Bytes × Bytes × Int64)} {hash k : Bytes}
  {row : TokenRow}

/-- A row is written under a hash, and the same is stored there. -/
theorem Agrees.update {tokens : Bytes → Option TokenRow} (h : Agrees tokens stored) (hash : Bytes)
    (row : TokenRow) :
    Agrees (Function.update tokens hash (some row))
      (Function.update stored hash (some row.content)) := by
  intro k
  by_cases hk : k = hash
  · subst hk
    rw [Function.update_self, Function.update_self]
    rfl
  · rw [Function.update_of_ne hk, Function.update_of_ne hk]
    exact h k

/-- A row that is written is consumed if it was, and no other row is touched. -/
theorem Used.update {tokens : Bytes → Option TokenRow} (h : Used tokens k)
    (hkeeps : ∀ old, tokens hash = some old → old.consumedAt.isSome = true →
      row.consumedAt.isSome = true) : Used (Function.update tokens hash (some row)) k := by
  obtain ⟨old, hold, hused⟩ := h
  by_cases hk : k = hash
  · subst hk
    exact ⟨row, Function.update_self _ _ _, hkeeps old hold hused⟩
  · exact ⟨old, (Function.update_of_ne hk _ _).trans hold, hused⟩

theorem put_token_agrees (h : Agrees db.tokens stored) (hash : Bytes) (row : TokenRow) :
    Agrees (db.putToken hash row).tokens (Function.update stored hash (some row.content)) := by
  unfold Database.putToken
  cases db.tokens hash with
  | none => exact h.update hash row
  | some old => exact h.update hash { row with consumedAt := old.consumedAt }

/-- `PutToken` does not bring a consumed token back. -/
theorem put_token_used (h : Used db.tokens k) (hash : Bytes) (row : TokenRow) :
    Used (db.putToken hash row).tokens k := by
  unfold Database.putToken
  refine h.update fun old hold hused => ?_
  rw [hold]
  exact hused

theorem insert_agrees {statement : Insert} (h : Agrees db.tokens stored)
    (hinsert : db.insert statement = some db') :
    Agrees db'.tokens (storedAfter stored [statement]) := by
  cases statement with
  | identity identity enrolledAt serialHex revokedAt =>
      obtain ⟨-, hinsert⟩ := Option.ite_none_left_eq_some.1 hinsert
      cases hinsert
      exact h
  | token hash row =>
      obtain ⟨-, hinsert⟩ := Option.ite_none_left_eq_some.1 hinsert
      cases hinsert
      exact h.update hash { row with consumedAt := none }

/-- An import only adds rows. -/
theorem insert_used {statement : Insert} (h : Used db.tokens k)
    (hinsert : db.insert statement = some db') : Used db'.tokens k := by
  cases statement with
  | identity identity enrolledAt serialHex revokedAt =>
      obtain ⟨-, hinsert⟩ := Option.ite_none_left_eq_some.1 hinsert
      cases hinsert
      exact h
  | token hash row =>
      obtain ⟨hnew, hinsert⟩ := Option.ite_none_left_eq_some.1 hinsert
      cases hinsert
      refine h.update fun old hold _ => ?_
      rw [hold] at hnew
      exact absurd rfl hnew

theorem stored_after_append (stored : Bytes → Option (Bytes × Bytes × Int64))
    (first second : List Insert) :
    storedAfter stored (first ++ second) = storedAfter (storedAfter stored first) second := by
  induction first generalizing stored with
  | nil => rfl
  | cons statement rest ih =>
      cases statement with
      | identity identity enrolledAt serialHex revokedAt => exact ih stored
      | token hash row => exact ih _

end Statements

/-- What a transaction has established. The row that `ConsumeToken` has read is the row of the
database it began with, and its own copy differs from that database only once the token is
marked. -/
def Phase.Holds (begun working : Database) (stored : Bytes → Option (Bytes × Bytes × Int64)) :
    Phase → Prop
  | .select _ => working = begun
  | .check hash row => working = begun ∧ begun.tokens hash = some row
  | .mark hash row checkedAt =>
      working = begun ∧ begun.tokens hash = some row ∧ row.consumedAt = none ∧
        checkedAt.after (fromUnix row.expiresAt) = false
  | .commit hash row checkedAt =>
      ∃ old, begun.tokens hash = some old ∧ old.consumedAt = none ∧
        row.consumedAt.isSome = true ∧ row.content = old.content ∧
        checkedAt.after (fromUnix row.expiresAt) = false ∧
        working.tokens = Function.update begun.tokens hash (some row)
  | .insert done _ =>
      Agrees working.tokens (storedAfter stored done) ∧
        ∀ hash, Used begun.tokens hash → Used working.tokens hash

/-- What every run keeps. -/
structure TokenState.Sound (s : TokenState) : Prop where
  agrees : Agrees s.db.tokens s.stored
  once : ∀ hash, s.outcomes.countP (·.consumes hash) ≤ 1
  used : ∀ hash, 0 < s.outcomes.countP (·.consumes hash) → Used s.db.tokens hash
  begun : ∀ w, s.writer = some w → w.begun = s.db
  phase : ∀ w, s.writer = some w → w.phase.Holds w.begun w.working s.stored

section Sound

variable {s s' : TokenState} {w : Writer}

/-- A transaction that goes on leaves the database as it is. -/
theorem TokenState.Sound.go_on (h : s.Sound) (hw : s.writer = some w) {working : Database}
    {phase : Phase} (hphase : phase.Holds w.begun working s.stored) :
    (s.goOn { w with working } phase).Sound := by
  refine ⟨h.agrees, h.once, h.used, ?_, ?_⟩
  · intro w' hw'
    cases hw'
    exact h.begun w hw
  · intro w' hw'
    cases hw'
    exact hphase

/-- A refused `ConsumeToken` is no success. -/
theorem TokenState.Sound.refuse (h : s.Sound) (w : Writer) (hash : Bytes) (error : ConsumeError) :
    (s.refuse w hash error).Sound := by
  have hcount : ∀ k, (s.refuse w hash error).outcomes.countP (·.consumes k) =
      s.outcomes.countP (·.consumes k) := by
    intro k
    exact List.countP_cons_of_neg (by simp [Outcome.consumes])
  exact ⟨h.agrees, fun k => (hcount k).symm ▸ h.once k, fun k hk => h.used k (hcount k ▸ hk), nofun,
    nofun⟩

/-- The commit of `ConsumeToken`. The row was not consumed when the transaction began, so there was
no earlier success. -/
theorem TokenState.Sound.consume (h : s.Sound) (hw : s.writer = some w) {hash : Bytes}
    {row : TokenRow} {checkedAt : Time} (hphase : w.phase = .commit hash row checkedAt) :
    ({ s with
      db := w.working, writer := none
      outcomes := .consumed hash row checkedAt :: s.outcomes } : TokenState).Sound := by
  have hholds := h.phase w hw
  rw [hphase] at hholds
  obtain ⟨old, hold, hunused, hused, hcontent, -, hworking⟩ := hholds
  rw [h.begun w hw] at hold hworking
  have hfirst : s.outcomes.countP (·.consumes hash) = 0 := by
    by_contra hpos
    obtain ⟨old', hold', hused'⟩ := h.used hash (Nat.pos_of_ne_zero hpos)
    rw [hold] at hold'
    cases hold'
    rw [hunused] at hused'
    cases hused'
  have hcount : ∀ k, ((.consumed hash row checkedAt :: s.outcomes).countP (·.consumes k)) =
      s.outcomes.countP (·.consumes k) + if hash = k then 1 else 0 := by
    intro k
    rw [List.countP_cons]
    simp only [Outcome.consumes, decide_eq_true_eq]
  refine ⟨?_, ?_, ?_, nofun, nofun⟩
  · show Agrees w.working.tokens s.stored
    rw [hworking]
    intro k
    by_cases hk : k = hash
    · subst hk
      rw [Function.update_self, Option.map_some, hcontent, ← h.agrees k, hold, Option.map_some]
    · rw [Function.update_of_ne hk]
      exact h.agrees k
  · intro k
    show List.countP _ (_ :: _) ≤ 1
    rw [hcount]
    split
    case isTrue hk =>
        subst hk
        omega
    case isFalse => exact h.once k
  · intro k hk
    show Used w.working.tokens k
    rw [hworking]
    by_cases hkh : k = hash
    · subst hkh
      exact ⟨row, Function.update_self _ _ _, hused⟩
    · have hpos : 0 < s.outcomes.countP (·.consumes k) := by
        have hk' : 0 < List.countP (·.consumes k) (.consumed hash row checkedAt :: s.outcomes) := hk
        rw [hcount, if_neg (Ne.symm hkh)] at hk'
        exact hk'
      exact (h.used k hpos).update fun _ _ _ => hused

/-- What one step does to a sound state. -/
inductive TokenState.Moves (s : TokenState) : TokenState → Prop
  | put (hash : Bytes) (row : TokenRow) (hfree : s.writer = none) :
      s.Moves { s with
        db := s.db.putToken hash row
        stored := Function.update s.stored hash (some row.content) }
  | listed (checked : List LegacyState) : s.Moves { s with checked }
  | begun (phase : Phase) (checked : List LegacyState) (hphase : phase.Holds s.db s.db s.stored) :
      s.Moves { s with writer := some ⟨s.db, s.db, phase⟩, checked }
  | wentOn {w : Writer} (working : Database) (phase : Phase) (hw : s.writer = some w)
      (hphase : phase.Holds w.begun working s.stored) :
      s.Moves (s.goOn { w with working } phase)
  | rolledBack : s.Moves { s with writer := none }
  | refused {w : Writer} (hash : Bytes) (error : ConsumeError) (hw : s.writer = some w) :
      s.Moves (s.refuse w hash error)
  | consumed {w : Writer} {hash : Bytes} {row : TokenRow} {checkedAt : Time}
      (hw : s.writer = some w) (hphase : w.phase = .commit hash row checkedAt) :
      s.Moves { s with
        db := w.working, writer := none
        outcomes := .consumed hash row checkedAt :: s.outcomes }
  | imported {w : Writer} {done : List Insert} (hw : s.writer = some w)
      (hphase : w.phase = .insert done []) :
      s.Moves { s with db := w.working, writer := none, stored := storedAfter s.stored done }

/-- The next statement of a transaction. -/
theorem advance_moves (h : s.Sound) (hw : s.writer = some w) (now : Time) :
    s.Moves (s.advance w now) := by
  have hholds := h.phase w hw
  unfold TokenState.advance
  split
  next hash hphase =>
    rw [hphase] at hholds
    have hworking : w.working = w.begun := hholds
    split
    · exact .refused hash _ hw
    next row hrow => exact .wentOn w.working _ hw ⟨hworking, hworking ▸ hrow⟩
  next hash row hphase =>
    rw [hphase] at hholds
    obtain ⟨hworking, hrow⟩ := hholds
    split_ifs with hconsumed hexpired
    · exact .refused hash _ hw
    · exact .refused hash _ hw
    · exact .wentOn w.working _ hw
        ⟨hworking, hrow, by simpa using hconsumed, by simpa using hexpired⟩
  next hash row checkedAt hphase =>
    -- The copy is still the database that the row was read from, so the update finds it unused.
    rw [hphase] at hholds
    obtain ⟨hworking, hrow, hunused, hfresh⟩ := hholds
    rw [mark_token_of_unused (hworking.symm ▸ hrow) hunused]
    refine .wentOn _ _ hw ⟨row, hrow, hunused, rfl, rfl, hfresh, ?_⟩
    rw [hworking]
  next hash row checkedAt hphase => exact .consumed hw hphase
  next done statement rest hphase =>
    rw [hphase] at hholds
    obtain ⟨hagrees, hused⟩ := hholds
    split
    · exact .rolledBack
    next working hinsert =>
      refine .wentOn working _ hw ⟨?_, fun k hk => insert_used (hused k hk) hinsert⟩
      rw [stored_after_append]
      exact insert_agrees hagrees hinsert
  next done hphase => exact .imported hw hphase

/-- A failed statement is an error of `ConsumeToken`, and otherwise only undone. -/
theorem fail_moves (hw : s.writer = some w) : s.Moves (s.fail w) := by
  unfold TokenState.fail
  split
  · exact .refused _ _ hw
  · exact .refused _ _ hw
  · exact .refused _ _ hw
  · exact .refused _ _ hw
  · exact .rolledBack

theorem step_moves {a : TokenAction} (h : s.Sound) (hstep : s.step a = some s') : s.Moves s' := by
  cases a with
  | putToken hash row =>
      obtain ⟨hfree, hstep⟩ := Option.ite_none_left_eq_some.1 hstep
      cases hstep
      exact .put hash row (by simpa using hfree)
  | beginConsume hash =>
      obtain ⟨-, hstep⟩ := Option.ite_none_left_eq_some.1 hstep
      cases hstep
      exact .begun (.select hash) s.checked rfl
  | readLegacy st =>
      cases hstep
      split
      · exact .listed (st :: s.checked)
      · exact .listed s.checked
  | beginImport index =>
      obtain ⟨-, hstep⟩ := Option.ite_none_left_eq_some.1 hstep
      obtain ⟨st, -, hst⟩ := Option.map_eq_some_iff.1 hstep
      cases hst
      exact .begun (.insert [] st.inserts) _ ⟨h.agrees, fun _ hk => hk⟩
  | advance now =>
      obtain ⟨w, hw, hs'⟩ := Option.map_eq_some_iff.1 hstep
      exact hs' ▸ advance_moves h hw now
  | fail =>
      obtain ⟨w, hw, hs'⟩ := Option.map_eq_some_iff.1 hstep
      exact hs' ▸ fail_moves hw

theorem TokenState.Sound.moves (h : s.Sound) (hmoves : s.Moves s') : s'.Sound := by
  cases hmoves with
  | put hash row hfree =>
      have hnone : ∀ w, s.writer ≠ some w := fun w hw => by simp [hfree] at hw
      exact ⟨put_token_agrees h.agrees hash row, h.once,
        fun k hk => put_token_used (h.used k hk) hash row, fun w hw => absurd hw (hnone w),
        fun w hw => absurd hw (hnone w)⟩
  | listed checked => exact ⟨h.agrees, h.once, h.used, h.begun, h.phase⟩
  | begun phase checked hphase =>
      refine ⟨h.agrees, h.once, h.used, ?_, ?_⟩
      · intro w hw
        cases hw
        rfl
      · intro w hw
        cases hw
        exact hphase
  | wentOn working phase hw hphase => exact h.go_on hw hphase
  | rolledBack => exact ⟨h.agrees, h.once, h.used, nofun, nofun⟩
  | refused hash error hw => exact h.refuse _ hash error
  | consumed hw hphase => exact h.consume hw hphase
  | imported hw hphase =>
      have hholds := h.phase _ hw
      rw [hphase] at hholds
      obtain ⟨hagrees, hused⟩ := hholds
      rw [h.begun _ hw] at hused
      exact ⟨hagrees, h.once, fun k hk => hused k (h.used k hk), nofun, nofun⟩

theorem sound_new : TokenState.new.Sound where
  agrees _ := rfl
  once _ := Nat.zero_le 1
  used _ hpos := absurd hpos (Nat.lt_irrefl 0)
  begun := nofun
  phase := nofun

/-- What holds when `ConsumeToken` returns, with `s` the state in which it returns and `s'` the one
after. -/
def Outcome.Proper (s s' : TokenState) : Outcome → Prop
  | .consumed hash row checkedAt =>
      s.stored hash = some row.content ∧ checkedAt.after (fromUnix row.expiresAt) = false
  | .refused _ _ begun => s.db = begun ∧ s'.db = begun

theorem proper_of_moves (h : s.Sound) (hmoves : s.Moves s') {o : Outcome}
    (ho : s'.outcomes = o :: s.outcomes) : o.Proper s s' := by
  cases hmoves with
  | refused hash error hw =>
      obtain ⟨rfl, -⟩ := List.cons.inj ho
      exact ⟨(h.begun _ hw).symm, (h.begun _ hw).symm⟩
  | consumed hw hphase =>
      -- The row that was read is still what is stored.
      have hholds := h.phase _ hw
      rw [hphase] at hholds
      obtain ⟨old, hold, -, -, hcontent, hfresh, -⟩ := hholds
      obtain ⟨rfl, -⟩ := List.cons.inj ho
      refine ⟨?_, hfresh⟩
      rw [hcontent, ← h.agrees, ← h.begun _ hw, hold, Option.map_some]
  | put | listed | begun | wentOn | rolledBack | imported =>
      exact absurd ho.symm (List.cons_ne_self _ _)

end Sound

/-- In every interleaving at most one `ConsumeToken` succeeds for a hash. One that succeeds returns
what was last stored under the hash, before it has expired, and one that fails leaves the database
as it was when it began. -/
theorem tokens_single_use {actions : List TokenAction} {s : TokenState}
    (hrun : run TokenState.step .new actions = some s) :
    (∀ hash, s.outcomes.countP (·.consumes hash) ≤ 1) ∧
    ∀ a s' o, s.step a = some s' → s'.outcomes = o :: s.outcomes →
      match o with
      | .consumed hash row checkedAt =>
          s.stored hash = some (row.role, row.id, row.expiresAt) ∧
            checkedAt.after (fromUnix row.expiresAt) = false
      | .refused _ _ begun => s.db = begun ∧ s'.db = begun := by
  have hsound : s.Sound :=
    run_invariant (fun h hstep => h.moves (step_moves h hstep)) sound_new hrun
  refine ⟨hsound.once, ?_⟩
  intro a s' o hstep ho
  have hproper := proper_of_moves hsound (step_moves hsound hstep) ho
  cases o with
  | consumed hash row checkedAt => exact hproper
  | refused hash error begun => exact hproper

/-- A token is consumed, stored again for somebody else, and presented again. -/
def storedTwice : List TokenAction :=
  let t : Time := Time.ofUnix 5
  let row (id : String) : TokenRow := ⟨ascii "device", ascii id, 0, 10, none⟩
  [.putToken [1] (row "door"), .beginConsume [1], .advance t, .advance t, .advance t, .advance t,
    .putToken [1] (row "gate"), .beginConsume [1], .advance t, .advance t]

theorem stored_twice_consumed_once :
    ∃ s, run TokenState.step .new storedTwice = some s ∧ s.outcomes.length = 2 ∧
      s.outcomes.countP (·.consumes [1]) ≤ 1 := by
  have hevaluate : (run TokenState.step .new storedTwice).map (fun s => s.outcomes.length) =
      some 2 := by decide +kernel
  obtain ⟨s, hrun, hlength⟩ := Option.map_eq_some_iff.1 hevaluate
  exact ⟨s, hrun, hlength, (tokens_single_use hrun).1 [1]⟩

end AccessRelay.Storage
