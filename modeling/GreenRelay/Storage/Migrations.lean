/-
Schema migrations.

`run_migrations` applies what the ledger does not have, each migration with its
ledger entry in a transaction of its own.  A call may fail or be cut off by a
crash at any of its statements.  What is on disk is then the effect of a prefix
of the list, the one that the ledger records, and the next call goes on from
there; the gate in memory opens when the list is through (`migrations_sound`).

A migration is its version and its effect on the schema.  A transaction has an
effect when it is committed and none otherwise.
-/
import Mathlib.Data.List.MinMax

namespace GreenRelay
namespace Storage

structure Migration (σ : Type) where
  version : Int
  sql : σ → σ

/-- `MIGRATIONS`, with the effects of its two scripts. -/
def migrations {σ : Type} (schemaV1 schemaV2 : σ → σ) : List (Migration σ) :=
  [⟨1, schemaV1⟩, ⟨2, schemaV2⟩]

inductive DbError where
  | notReady
  | migration (version : Int) (source : String)
  | sqlx (source : String)
  deriving DecidableEq, Repr

def DbError.message : DbError → String
  | .notReady => "database schema is not ready"
  | .migration version source => "migration " ++ toString version ++ " failed: " ++ source
  | .sqlx e => "database error: " ++ e

/-! ## Statements and faults -/

inductive Statement where
  | acquire
  | createLedger
  | selectMax
  | begin (version : Int)
  | execute (version : Int)
  | insert (version : Int)
  | commit (version : Int)
  deriving DecidableEq, Repr

/-- A statement fails, or the process ends in it.  What it was about to do is then
on disk or it is not. -/
inductive Fault where
  | error (source : String)
  | crash (durable : Bool)
  deriving DecidableEq, Repr

/-- The statements of a call that do not come to their end. -/
abbrev Faults := Statement → Option Fault

/-- How a call ends that does not return `Ok`. -/
inductive Stop where
  | error (e : DbError)
  | crash
  deriving DecidableEq, Repr

def Fault.stop (mapErr : String → DbError) : Fault → Stop
  | .error source => .error (mapErr source)
  | .crash _ => .crash

def Fault.durable : Fault → Bool
  | .error _ => false
  | .crash durable => durable

/-! ## The database -/

/-- `ledger` are the rows of `schema_migrations`, once the table exists. -/
structure Disk (σ : Type) where
  ledger : Option (List Int)
  schema : σ

def Disk.recorded {σ : Type} (d : Disk σ) : List Int := d.ledger.getD []

/-- The database with its gate, which is in memory. -/
structure Db (σ : Type) where
  disk : Disk σ
  schemaReady : Bool

/-- A new database is opened. -/
def Db.connect {σ : Type} (initial : σ) : Db σ := ⟨⟨none, initial⟩, false⟩

def Db.ensureReady {σ : Type} (db : Db σ) : Except DbError Unit :=
  if db.schemaReady then .ok () else .error .notReady

section Migrate

variable {σ : Type} (faults : Faults)

/-- The transaction of one migration.  The ledger has a unique key. -/
def applyMigration (m : Migration σ) (disk : Disk σ) : Disk σ × Option Stop :=
  let failed := DbError.migration m.version
  match [Statement.begin m.version, .execute m.version, .insert m.version].findSome? faults with
  | some fault => (disk, some (fault.stop failed))
  | none =>
    if m.version ∈ disk.recorded then (disk, some (.error (failed "UNIQUE constraint failed")))
    else
      let committed := ⟨some (disk.recorded ++ [m.version]), m.sql disk.schema⟩
      match faults (.commit m.version) with
      | some fault => (if fault.durable then committed else disk, some (fault.stop failed))
      | none => (committed, none)

def applyPending (current : Int) : List (Migration σ) → Disk σ → Disk σ × Option Stop
  | [], disk => (disk, none)
  | m :: pending, disk =>
    if m.version ≤ current then applyPending current pending disk
    else
      match applyMigration faults m disk with
      | (disk, some stop) => (disk, some stop)
      | (disk, none) => applyPending current pending disk

/-- A call that does not return `Ok`.  After a crash the gate is that of a new
process. -/
def halt (db : Db σ) (disk : Disk σ) (stop : Stop) : Db σ × Option Stop :=
  (⟨disk, match stop with
    | .error _ => db.schemaReady
    | .crash => false⟩, some stop)

def createLedger (disk : Disk σ) : Disk σ := { disk with ledger := some disk.recorded }

def runMigrations (list : List (Migration σ)) (db : Db σ) : Db σ × Option Stop :=
  match faults .acquire with
  | some fault => halt db db.disk (fault.stop .sqlx)
  | none =>
    match faults .createLedger with
    | some fault =>
      halt db (if fault.durable then createLedger db.disk else db.disk) (fault.stop .sqlx)
    | none =>
      match faults .selectMax with
      | some fault => halt db (createLedger db.disk) (fault.stop .sqlx)
      | none =>
        let current := db.disk.recorded.max?.getD 0
        match applyPending faults current list (createLedger db.disk) with
        | (disk, some stop) => halt db disk stop
        | (disk, none) => (⟨disk, true⟩, none)

end Migrate

/-- A database after calls that went as they may. -/
def afterCalls {σ : Type} (list : List (Migration σ)) : Db σ → List Faults → Db σ
  | db, [] => db
  | db, faults :: history => afterCalls list (runMigrations faults list db).1 history

/-! ## Prefixes of the list -/

section Prefixes

variable {σ : Type} {list done rest : List (Migration σ)} {initial : σ} (faults : Faults)

/-- The disk has the effect of some migrations, each applied once, and the ledger
records these. -/
structure Applied (initial : σ) (done : List (Migration σ)) (disk : Disk σ) : Prop where
  recorded : disk.recorded = done.map Migration.version
  schema : disk.schema = done.foldl (fun schema m => m.sql schema) initial

def Ascending (list : List (Migration σ)) : Prop :=
  (list.map Migration.version).Pairwise (· < ·)

theorem Applied.createLedger {disk : Disk σ} (h : Applied initial done disk) :
    Applied initial done (createLedger disk) := ⟨h.recorded, h.schema⟩

theorem Applied.stop {disk : Disk σ} (h : Applied initial done disk) :
    Applied initial (done ++ []) disk := by
  rwa [List.append_nil]

theorem Applied.push {disk : Disk σ} (h : Applied initial done disk) (m : Migration σ) :
    Applied initial (done ++ [m]) ⟨some (disk.recorded ++ [m.version]), m.sql disk.schema⟩ where
  recorded := by
    show disk.recorded ++ [m.version] = _
    rw [h.recorded, List.map_append]
    rfl
  schema := by
    rw [List.foldl_append, ← h.schema]
    rfl

theorem Ascending.fresh {m : Migration σ} (h : Ascending (done ++ m :: rest)) :
    m.version ∉ done.map Migration.version := by
  intro hmem
  rw [Ascending, List.map_append, List.pairwise_append] at h
  exact absurd (h.2.2 m.version hmem m.version (by simp)) (Int.lt_irrefl _)

/-- How the transaction of the next migration ends. -/
inductive Transacted (initial : σ) (done : List (Migration σ)) (m : Migration σ) :
    Disk σ × Option Stop → Prop where
  | committed {disk : Disk σ} (h : Applied initial (done ++ [m]) disk) :
    Transacted initial done m (disk, none)
  | failed {disk : Disk σ} (source : String) (h : Applied initial done disk) :
    Transacted initial done m (disk, some (.error (.migration m.version source)))
  | crashed {disk : Disk σ} (h : Applied initial done disk) :
    Transacted initial done m (disk, some .crash)
  | crashedAfter {disk : Disk σ} (h : Applied initial (done ++ [m]) disk) :
    Transacted initial done m (disk, some .crash)

theorem applyMigration_transacted {m : Migration σ} {disk : Disk σ}
    (hasc : Ascending (done ++ m :: rest)) (h : Applied initial done disk) :
    Transacted initial done m (applyMigration faults m disk) := by
  have hfresh : m.version ∉ disk.recorded := by
    rw [h.recorded]
    exact hasc.fresh
  unfold applyMigration
  simp only
  split
  · next fault _ =>
    cases fault with
    | error source => exact .failed source h
    | crash durable => exact .crashed h
  · rw [if_neg hfresh]
    split
    · next fault _ =>
      cases fault with
      | error source => exact .failed source h
      | crash durable =>
        cases durable with
        | true => exact .crashedAfter (h.push m)
        | false => exact .crashed h
    · exact .committed (h.push m)

/-- What a pass over the list says of the migrations that are left: there are none
when it comes to its end, and an error names the first of them. -/
def Reports (rest : List (Migration σ)) : Option Stop → Prop
  | none => rest = []
  | some (.error e) => ∃ m source, rest.head? = some m ∧ e = .migration m.version source
  | some .crash => True

theorem applyPending_reports {current : Int} :
    ∀ {rest done : List (Migration σ)} {disk : Disk σ}, Ascending (done ++ rest) →
      (∀ m ∈ rest, current < m.version) → Applied initial done disk →
      ∃ more rest', rest = more ++ rest' ∧
        Applied initial (done ++ more) (applyPending faults current rest disk).1 ∧
        Reports rest' (applyPending faults current rest disk).2 := by
  intro rest
  induction rest with
  | nil =>
    intro done disk _ _ h
    exact ⟨[], [], rfl, h.stop, rfl⟩
  | cons m rest ih =>
    intro done disk hasc hpending h
    have hm : ¬ m.version ≤ current := Int.not_le.mpr (hpending m List.mem_cons_self)
    have hstep := applyMigration_transacted faults hasc h
    rw [applyPending, if_neg hm]
    generalize applyMigration faults m disk = result at hstep ⊢
    cases hstep with
    | committed happlied =>
      have hasc' : Ascending ((done ++ [m]) ++ rest) := by
        rw [List.append_assoc]
        exact hasc
      obtain ⟨more, rest', hsplit, hmore, hreports⟩ := ih hasc'
        (fun m' hm' => hpending m' (List.mem_cons_of_mem m hm')) happlied
      rw [List.append_assoc] at hmore
      exact ⟨m :: more, rest', by rw [hsplit]; rfl, hmore, hreports⟩
    | failed source happlied => exact ⟨[], m :: rest, rfl, happlied.stop, m, source, rfl, rfl⟩
    | crashed happlied => exact ⟨[], m :: rest, rfl, happlied.stop, trivial⟩
    | crashedAfter happlied => exact ⟨[m], rest, rfl, happlied, trivial⟩

/-- What is recorded is skipped. -/
theorem applyPending_skip {current : Int} (hdone : ∀ m ∈ done, m.version ≤ current)
    (rest : List (Migration σ)) (disk : Disk σ) : applyPending faults current (done ++ rest) disk =
      applyPending faults current rest disk := by
  induction done with
  | nil => rfl
  | cons m done ih =>
    rw [List.cons_append, applyPending, if_pos (hdone m List.mem_cons_self),
      ih (fun m' hm' => hdone m' (List.mem_cons_of_mem m hm'))]

/-- The highest version that is recorded separates what is done from the rest, as
long as no version is below the one that an empty ledger stands for. -/
theorem current_separates {disk : Disk σ} (hasc : Ascending (done ++ rest))
    (hpos : ∀ m ∈ done ++ rest, 0 < m.version) (h : Applied initial done disk) :
    (∀ m ∈ done, m.version ≤ disk.recorded.max?.getD 0) ∧
      ∀ m ∈ rest, disk.recorded.max?.getD 0 < m.version := by
  rw [Ascending, List.map_append, List.pairwise_append] at hasc
  rw [h.recorded]
  cases hmax : (done.map Migration.version).max? with
  | none =>
    have hnil : done.map Migration.version = [] := List.max?_eq_none_iff.mp hmax
    constructor
    · intro m hm
      have hmem := List.mem_map_of_mem (f := Migration.version) hm
      rw [hnil] at hmem
      cases hmem
    · exact fun m hm => hpos m (List.mem_append_right _ hm)
  | some top =>
    obtain ⟨htop, hle⟩ := List.max?_eq_some_iff.mp hmax
    exact ⟨fun m hm => hle m.version (List.mem_map_of_mem hm),
      fun m hm => hasc.2.2 top htop m.version (List.mem_map_of_mem hm)⟩

/-! ## Calls -/

/-- The database is where the migrations of `done` have taken it, and its gate is
open only if these are all. -/
structure Sound (list : List (Migration σ)) (initial : σ) (done rest : List (Migration σ))
    (db : Db σ) : Prop where
  split : list = done ++ rest
  applied : Applied initial done db.disk
  gate : db.schemaReady = true → rest = []

/-- What a call says that applied `more` and left `rest`: `Ok` when nothing is left,
the version it stopped at when that is the first of the rest, and an error
without a version only when it did not come to a migration. -/
def Answers (more rest : List (Migration σ)) : Option Stop → Prop
  | none => rest = []
  | some (.error (.migration version _)) => rest.head?.map Migration.version = some version
  | some (.error (.sqlx _)) => more = []
  | some (.error .notReady) => False
  | some .crash => True

theorem Reports.answers {rest : List (Migration σ)} {stop : Option Stop} (h : Reports rest stop)
    (more : List (Migration σ)) : Answers more rest stop := by
  cases stop with
  | none => exact h
  | some stop =>
    cases stop with
    | crash => trivial
    | error e =>
      obtain ⟨m, source, hhead, rfl⟩ := h
      show rest.head?.map Migration.version = some m.version
      rw [hhead]
      rfl

/-- What a call does to a sound database. -/
structure Called (list : List (Migration σ)) (initial : σ) (done rest : List (Migration σ))
    (db : Db σ) (result : Db σ × Option Stop) : Prop where
  went : ∃ more rest', rest = more ++ rest' ∧ Sound list initial (done ++ more) rest' result.1 ∧
    Answers more rest' result.2
  opened : result.2 = none → result.1.schemaReady = true
  closed : result.2 ≠ none → db.schemaReady = false → result.1.schemaReady = false

theorem halt_called {db : Db σ} (h : Sound list initial done rest db) {disk : Disk σ} {stop : Stop}
    {more rest' : List (Migration σ)} (hrest : rest = more ++ rest')
    (happlied : Applied initial (done ++ more) disk) (hanswers : Answers more rest' (some stop)) :
    Called list initial done rest db (halt db disk stop) where
  went := by
    refine ⟨more, rest', hrest, ⟨?_, happlied, ?_⟩, hanswers⟩
    · rw [h.split, hrest, List.append_assoc]
    · intro hready
      cases stop with
      | crash => cases hready
      | error e =>
        have hnil := h.gate hready
        rw [hrest, List.append_eq_nil_iff] at hnil
        exact hnil.2
  opened := by
    intro hnone
    cases hnone
  closed := by
    intro _ hclosed
    cases stop with
    | crash => rfl
    | error e => exact hclosed

theorem answers_early (fault : Fault) (rest : List (Migration σ)) :
    Answers [] rest (some (fault.stop .sqlx)) := by
  cases fault with
  | error source => rfl
  | crash durable => trivial

theorem runMigrations_called {db : Db σ} (hasc : Ascending list) (hpos : ∀ m ∈ list, 0 < m.version)
    (h : Sound list initial done rest db) :
    Called list initial done rest db (runMigrations faults list db) := by
  have hcreated := h.applied.createLedger
  unfold runMigrations
  split
  · next fault _ => exact halt_called h rfl h.applied.stop (answers_early fault rest)
  · split
    · next fault _ =>
      refine halt_called h rfl (Applied.stop ?_) (answers_early fault rest)
      split
      · exact hcreated
      · exact h.applied
    · split
      · next fault _ => exact halt_called h rfl hcreated.stop (answers_early fault rest)
      · have hasc' := hasc
        rw [h.split] at hasc' hpos
        obtain ⟨hdone, hrest⟩ := current_separates hasc' hpos h.applied
        obtain ⟨more, rest', hsplit, hmore, hreports⟩ :=
          applyPending_reports faults hasc' hrest hcreated
        simp only
        rw [h.split, applyPending_skip faults hdone, ← h.split]
        generalize applyPending faults _ rest _ = result at hmore hreports ⊢
        obtain ⟨disk, stop⟩ := result
        cases stop with
        | some stop => exact halt_called h hsplit hmore (hreports.answers more)
        | none =>
          refine ⟨⟨more, rest', hsplit, ⟨?_, hmore, fun _ => hreports⟩, hreports⟩, fun _ => rfl, ?_⟩
          · rw [h.split, hsplit, List.append_assoc]
          · intro hne
            exact absurd rfl hne

/-! ## Calls without a fault -/

theorem applyMigration_ok (hquiet : ∀ s, faults s = none) {m : Migration σ} {disk : Disk σ}
    (hfresh : m.version ∉ disk.recorded) : applyMigration faults m disk =
      (⟨some (disk.recorded ++ [m.version]), m.sql disk.schema⟩, none) := by
  have hnone : [Statement.begin m.version, .execute m.version, .insert m.version].findSome? faults
      = none := List.findSome?_eq_none_iff.mpr (fun s _ => hquiet s)
  rw [applyMigration, hnone]
  simp only
  rw [if_neg hfresh, hquiet]

theorem applyPending_ok (hquiet : ∀ s, faults s = none) (current : Int) :
    ∀ {rest done : List (Migration σ)} {disk : Disk σ}, Ascending (done ++ rest) →
      Applied initial done disk → (applyPending faults current rest disk).2 = none := by
  intro rest
  induction rest with
  | nil => exact fun _ _ => rfl
  | cons m rest ih =>
    intro done disk hasc h
    have hfresh : m.version ∉ disk.recorded := by
      rw [h.recorded]
      exact hasc.fresh
    rw [applyPending]
    split
    · have hskipped : (done ++ rest).Sublist (done ++ m :: rest) :=
        (List.sublist_cons_self m rest).append_left done
      exact ih (List.Pairwise.sublist (hskipped.map Migration.version) hasc) h
    · have hasc' : Ascending ((done ++ [m]) ++ rest) := by
        rw [List.append_assoc]
        exact hasc
      rw [applyMigration_ok faults hquiet hfresh]
      exact ih hasc' (h.push m)

theorem runMigrations_ok (hquiet : ∀ s, faults s = none) {db : Db σ} (hasc : Ascending list)
    (hpos : ∀ m ∈ list, 0 < m.version) (h : Sound list initial done rest db) :
    (runMigrations faults list db).2 = none := by
  rw [h.split] at hasc hpos
  have hdone := (current_separates hasc hpos h.applied).1
  have hpass := applyPending_ok faults hquiet (db.disk.recorded.max?.getD 0) hasc
    h.applied.createLedger
  unfold runMigrations
  simp only [hquiet]
  rw [h.split, applyPending_skip faults hdone]
  generalize applyPending faults _ rest _ = result at hpass ⊢
  obtain ⟨disk, stop⟩ := result
  obtain rfl : stop = none := hpass
  rfl

/-! ## Histories of calls -/

/-- Every history of calls leaves a sound database. -/
theorem afterCalls_sound (hasc : Ascending list) (hpos : ∀ m ∈ list, 0 < m.version)
    (history : List Faults) : ∀ {db : Db σ} {done rest : List (Migration σ)},
      Sound list initial done rest db →
        ∃ done' rest', Sound list initial done' rest' (afterCalls list db history) := by
  induction history with
  | nil => exact fun h => ⟨_, _, h⟩
  | cons faults history ih =>
    intro db done rest h
    obtain ⟨more, rest', _, hsound, _⟩ := (runMigrations_called faults hasc hpos h).went
    exact ih hsound

theorem connect_sound (list : List (Migration σ)) (initial : σ) :
    Sound list initial [] list (.connect initial) where
  split := rfl
  applied := ⟨rfl, rfl⟩
  gate := by
    intro hready
    cases hready

/-! ## Calls after the last migration -/

theorem applyPending_ledger (current : Int) :
    ∀ (list : List (Migration σ)) (disk : Disk σ), disk.ledger.isSome →
      (applyPending faults current list disk).1.ledger.isSome := by
  intro list
  induction list with
  | nil => exact fun _ h => h
  | cons m list ih =>
    intro disk h
    have hstep : (applyMigration faults m disk).1.ledger.isSome := by
      unfold applyMigration
      simp only
      split
      · exact h
      · split
        · exact h
        · split
          · split
            · rfl
            · exact h
          · rfl
    rw [applyPending]
    split
    · exact ih disk h
    · generalize applyMigration faults m disk = result at hstep ⊢
      obtain ⟨disk', stop⟩ := result
      cases stop with
      | some stop => exact hstep
      | none => exact ih disk' hstep

theorem createLedger_self {disk : Disk σ} (h : disk.ledger.isSome) : createLedger disk = disk := by
  obtain ⟨ledger, schema⟩ := disk
  cases ledger with
  | none => cases h
  | some recorded => rfl

theorem ledger_of_ok {db : Db σ} (h : (runMigrations faults list db).2 = none) :
    (runMigrations faults list db).1.disk.ledger.isSome := by
  unfold runMigrations at h ⊢
  split at h
  · cases h
  · split at h
    · cases h
    · split at h
      · cases h
      · have hledger := applyPending_ledger faults (db.disk.recorded.max?.getD 0) list
          (createLedger db.disk) rfl
        simp only at h ⊢
        generalize applyPending faults _ list _ = result at h hledger ⊢
        obtain ⟨disk, stop⟩ := result
        cases stop with
        | some stop => cases h
        | none => exact hledger

/-- A call on a database that has everything changes nothing. -/
theorem runMigrations_done {db : Db σ} (hasc : Ascending list) (hpos : ∀ m ∈ list, 0 < m.version)
    (h : Sound list initial list [] db) (hledger : db.disk.ledger.isSome)
    (hready : db.schemaReady = true) :
    (runMigrations faults list db).1.disk = db.disk ∧
      ((runMigrations faults list db).2 ≠ some .crash → (runMigrations faults list db).1 = db) := by
  have hhalt : ∀ stop : Stop, (halt db db.disk stop).1.disk = db.disk ∧
      ((halt db db.disk stop).2 ≠ some .crash → (halt db db.disk stop).1 = db) := by
    intro stop
    refine ⟨rfl, fun hne => ?_⟩
    cases stop with
    | crash => exact absurd rfl hne
    | error e => rfl
  have hasc' : Ascending (list ++ []) := by
    rw [List.append_nil]
    exact hasc
  have hpos' : ∀ m ∈ list ++ [], 0 < m.version := by
    rw [List.append_nil]
    exact hpos
  have hdone := (current_separates hasc' hpos' h.applied).1
  have hskip := applyPending_skip faults hdone [] db.disk
  rw [List.append_nil] at hskip
  unfold runMigrations
  rw [createLedger_self hledger]
  split
  · exact hhalt _
  · split
    · rw [ite_self]
      exact hhalt _
    · split
      · exact hhalt _
      · simp only
        rw [hskip]
        refine ⟨rfl, fun _ => ?_⟩
        show (⟨db.disk, true⟩ : Db σ) = db
        rw [← hready]

end Prefixes

/-! ## Results -/

/-- Whatever calls there were, the ledger records a prefix of the list and the schema
is the effect of that prefix; the gate is open only if that is all of it.  The
next call takes both on from there.  It returns `Ok` where nothing fails; and if it
does, the prefix is the whole list, and no call changes anything any more. -/
theorem migrations_sound {σ : Type} {list : List (Migration σ)} (hasc : Ascending list)
    (hpos : ∀ m ∈ list, 0 < m.version) (initial : σ) (history : List Faults) :
    let db := afterCalls list (.connect initial) history
    ∃ done rest, Sound list initial done rest db ∧ (db.ensureReady = .ok () → rest = []) ∧
      ∀ faults, Called list initial done rest db (runMigrations faults list db) ∧
        ((∀ s, faults s = none) → (runMigrations faults list db).2 = none) ∧
        ((runMigrations faults list db).2 = none → ∀ again,
          let db' := (runMigrations faults list db).1
          Sound list initial list [] db' ∧ (runMigrations again list db').1.disk = db'.disk ∧
            ((runMigrations again list db').2 ≠ some .crash →
              (runMigrations again list db').1 = db')) := by
  intro db
  obtain ⟨done, rest, hsound⟩ := afterCalls_sound hasc hpos history (connect_sound list initial)
  refine ⟨done, rest, hsound, ?_, fun faults => ?_⟩
  · intro hready
    unfold Db.ensureReady at hready
    split at hready
    · next hopen => exact hsound.gate hopen
    · cases hready
  · have hcalled := runMigrations_called faults hasc hpos hsound
    refine ⟨hcalled, fun hquiet => runMigrations_ok faults hquiet hasc hpos hsound,
      fun hok again => ?_⟩
    obtain ⟨more, rest', _, hafter, hanswers⟩ := hcalled.went
    rw [hok] at hanswers
    have hnil : rest' = [] := hanswers
    subst hnil
    have hall : list = done ++ more := by
      rw [hafter.split, List.append_nil]
    rw [← hall] at hafter
    exact ⟨hafter, runMigrations_done again hasc hpos hafter
      (ledger_of_ok faults hok) (hcalled.opened hok)⟩

/-- The migrations of the service, whose effects are counted here. -/
def countedMigrations : List (Migration Nat) := migrations (fun n => n + 1) (fun n => n + 10)

/-- The process ends in the second migration, and the next call finds the database
locked. -/
def crashThenError : List Faults :=
  [fun s => if s = .execute 2 then some (.crash false) else none,
    fun s => if s = .begin 2 then some (.error "database is locked") else none]

theorem migrations_sound_service :
    let db := afterCalls countedMigrations (.connect 0) crashThenError
    db.disk.recorded = [1] ∧ db.disk.schema = 1 ∧ db.schemaReady = false ∧
      (runMigrations (fun _ => none) countedMigrations db).2 = none ∧
      Sound countedMigrations 0 countedMigrations []
        (runMigrations (fun _ => none) countedMigrations db).1 := by
  have hasc : Ascending countedMigrations := by
    show [(1 : Int), 2].Pairwise (· < ·)
    decide
  have hpos : ∀ m ∈ countedMigrations, 0 < m.version := by
    intro m hm
    simp only [countedMigrations, migrations, List.mem_cons, List.not_mem_nil, or_false] at hm
    rcases hm with rfl | rfl <;> decide
  obtain ⟨done, rest, -, -, hcalls⟩ := migrations_sound hasc hpos 0 crashThenError
  obtain ⟨-, hquiet, hok⟩ := hcalls (fun _ => none)
  have hnone := hquiet (fun _ => rfl)
  exact ⟨by decide +kernel, by decide +kernel, by decide +kernel, hnone,
    (hok hnone (fun _ => none)).1⟩

/-- A migration with the version 0 counts as recorded in an empty ledger, so it is
skipped and the gate opens without it.  And a call that cannot get a connection
stops at no version. -/
theorem migrations_not_sound :
    (¬ ∀ list : List (Migration Unit), Ascending list → ∀ history,
      (afterCalls list (.connect ()) history).schemaReady = true →
        (afterCalls list (.connect ()) history).disk.recorded = list.map Migration.version) ∧
    ¬ ∀ list : List (Migration Unit), Ascending list → (∀ m ∈ list, 0 < m.version) →
      ∀ faults e, (runMigrations faults list (.connect ())).2 = some (.error e) →
        ∃ version source, e = .migration version source := by
  constructor
  · intro h
    have hrecorded := h [⟨0, id⟩] (List.pairwise_singleton _ _) [fun _ => none] rfl
    exact absurd hrecorded (by decide)
  · intro h
    obtain ⟨version, source, he⟩ := h [⟨1, id⟩] (List.pairwise_singleton _ _)
      (fun m hm => by rw [List.mem_singleton.mp hm]; decide)
      (fun s => if s = .acquire then some (.error "unable to open database file") else none)
      (.sqlx "unable to open database file") rfl
    cases he

end Storage
end GreenRelay
