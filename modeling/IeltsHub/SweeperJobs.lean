import IeltsHub.JobBatches
import IeltsHub.CivilCalendar
import IeltsHub.RegistryCache
import IeltsHub.SessionFrames

set_option autoImplicit false

/-!
# The sweeper

`app/workers/sweeper.py` and the actor that runs it. Six housekeeping jobs run one after another
in one transaction, behind an advisory lock. Expired attempts are submitted each in a savepoint;
the other jobs have none.
-/
namespace IeltsHub.SweeperJobs
open PyTime PlatformErrors ExamModels ExamSession JobBatches
open CivilCalendar (Date epoch)
open RaisingState (Effect)

inductive PartitionedTable where
  | auditLog | itemExposures | attemptAnswerEvents
  deriving DecidableEq

def partitioned : List PartitionedTable := [.auditLog, .itemExposures, .attemptAnswerEvents]

structure Month where
  year : ℕ
  month : ℕ
  deriving DecidableEq

def monthOf (t : Time) : Month :=
  let d := Date.ofDays ((t + epoch).toNat / CivilCalendar.day)
  ⟨d.year, d.month⟩

def partitionLead : ℕ := 2

def outboxRetention : ℤ := seconds (30 * 86400)

structure MediaUpload where
  id : ℕ
  status : String
  expiresAt : Time
  deriving DecidableEq

/-- The monthly partitions there are, and the rows of the DEFAULT partitions with the moment they
are partitioned by. -/
structure Partitions where
  created : List (PartitionedTable × Month) := []
  unfiled : List (PartitionedTable × Time) := []

/-- The tables a sweep reads or writes; `dispatched` are the relayed rows of the outbox. -/
structure Db where
  store : Store
  types : RegistryCache.Tables := {}
  partitions : Partitions := {}
  uploads : List MediaUpload := []
  idempotency : List (ℕ × Time) := []
  dispatched : List (ℕ × Time) := []
  challenges : List (ℕ × Time) := []

inductive JobName where
  | autoSubmit | ensurePartitions | abandonUploads | expireIdempotency | purgeOutbox | expireOtp
  deriving DecidableEq

def JobName.count : JobName → String
  | .autoSubmit => "attempts_submitted"
  | .ensurePartitions => "partitions_created"
  | .abandonUploads => "uploads_abandoned"
  | .expireIdempotency => "idempotency_expired"
  | .purgeOutbox => "outbox_purged"
  | .expireOtp => "otp_expired"

/-- The worker a sweep runs in, the moment its transaction began, and the jobs a statement of
which the database refuses outside any savepoint, with what it raises. -/
structure Process where
  files : RegistryCache.Files
  worker : RegistryCache.Worker
  monotonic : ℚ
  frames : ℕ
  validator : QtypesRegistry.Validator
  sign : PyValue.Obj → String
  clock : ℕ → Time
  grace : ℤ := 30
  began : Time
  fault : JobName → Option Raised := fun _ => none

def Process.execute (p : Process) (j : JobName) : Except Raised Unit :=
  match p.fault j with
  | some e => .error e
  | none => .ok ()

/-! ## The jobs -/

def session (p : Process) (worker : RegistryCache.Worker) : ExamSession where
  scorer := worker.scorer p.frames
  validator := p.validator
  clock := p.clock
  grace := p.grace
  sign := p.sign

def autoSubmit (p : Process) : Job Raised Db ℕ := fun db => do
  p.execute .autoSubmit
  let (_, worker) ← RegistryCache.refreshFromDb p.files db.types false p.monotonic p.worker
  match (session p worker).autoSubmitExpired 200 { store := db.store } with
  | (.ok ids, w) => return (ids.length, { db with store := w.store })
  | (.error e, _) => throw e

def monthStart (now : Time) (offset : ℕ) : Except Raised Month :=
  let d := monthOf now
  let month := d.month + offset
  let year := d.year + (month - 1) / 12
  if year ≤ 9999 then .ok ⟨year, (month - 1) % 12 + 1⟩ else .error .valueError

def unfiledIn (table : PartitionedTable) (month : Month) (ps : Partitions) : Bool :=
  ps.unfiled.any (fun r => r.1 = table && monthOf r.2 = month)

def createPartition (table : PartitionedTable) (month : Month) (ps : Partitions) :
    Except Raised Partitions :=
  if unfiledIn table month ps then
    .error (.domain (.integrity
      "updated partition constraint for default partition would be violated by some row"))
  else .ok { ps with created := ps.created ++ [(table, month)] }

def ensurePartition (month : Month) (acc : ℕ × Partitions) (table : PartitionedTable) :
    Except Raised (ℕ × Partitions) :=
  if (table, month) ∈ acc.2.created then .ok acc
  else (fun ps => (acc.1 + 1, ps)) <$> createPartition table month acc.2

def ensureMonth (now : Time) (acc : ℕ × Partitions) (offset : ℕ) :
    Except Raised (ℕ × Partitions) := do
  let start ← monthStart now offset
  let _ ← monthStart now (offset + 1)
  partitioned.foldlM (ensurePartition start) acc

def ensurePartitions (p : Process) (now : Time) : Job Raised Db ℕ := fun db => do
  p.execute .ensurePartitions
  let (n, ps) ← (List.range (partitionLead + 1)).foldlM (ensureMonth now) (0, db.partitions)
  return (n, { db with partitions := ps })

def expired (now : Time) (u : MediaUpload) : Bool := u.status = "open" && u.expiresAt < now

def aborted (now : Time) (u : MediaUpload) : MediaUpload :=
  if expired now u then { u with status := "aborted" } else u

def abandonUploads (p : Process) (now : Time) : Job Raised Db ℕ := fun db => do
  p.execute .abandonUploads
  return (db.uploads.countP (expired now), { db with uploads := db.uploads.map (aborted now) })

/-- `DELETE … WHERE` a moment is before a limit. -/
def purge (limit : Time) (rows : List (ℕ × Time)) : ℕ × List (ℕ × Time) :=
  (rows.countP (fun r => r.2 < limit), rows.filter (fun r => ¬ r.2 < limit))

def expireIdempotency (p : Process) (now : Time) : Job Raised Db ℕ := fun db => do
  p.execute .expireIdempotency
  let (n, rows) := purge now db.idempotency
  return (n, { db with idempotency := rows })

def purgeOutbox (p : Process) : Job Raised Db ℕ := fun db => do
  p.execute .purgeOutbox
  let (n, rows) := purge (p.began - outboxRetention) db.dispatched
  return (n, { db with dispatched := rows })

def expireOtp (p : Process) : Job Raised Db ℕ := fun db => do
  p.execute .expireOtp
  let (n, rows) := purge (p.began - seconds 86400) db.challenges
  return (n, { db with challenges := rows })

def job (p : Process) (now : Time) : JobName → Job Raised Db ℕ
  | .autoSubmit => autoSubmit p
  | .ensurePartitions => ensurePartitions p now
  | .abandonUploads => abandonUploads p now
  | .expireIdempotency => expireIdempotency p now
  | .purgeOutbox => purgeOutbox p
  | .expireOtp => expireOtp p

def jobs : List JobName :=
  [.autoSubmit, .ensurePartitions, .abandonUploads, .expireIdempotency, .purgeOutbox, .expireOtp]

def run (p : Process) (now : Time) : Job Raised Db (List (String × ℕ)) := fun db => do
  let (counts, db) ← together (jobs.map (job p now)) db
  return (jobs.map JobName.count |>.zip counts, db)

def sweep (p : Process) (now : Time) (acquired : Bool) (db : Db) : Db :=
  settle (fun db => if acquired then run p now db else .ok ([], db)) db

end IeltsHub.SweeperJobs
