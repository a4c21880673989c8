import ModelGate.Data.Uuid
import ModelGate.Errors
import ModelGate.Numeric.Float64
import ModelGate.Semantics.Program

/-! The usage repository of `internal/storage`, and the tables of the initial migration.

A transaction works on rows of its own until it commits. A statement that would
repeat a key of another transaction in progress waits for that transaction; one
that breaks a constraint fails and ends its own transaction. Nothing updates or
deletes a row.
-/

set_option autoImplicit false

namespace ModelGate.Storage.Usage

open Data Numeric Semantics

/-- Latencies count nanoseconds; a record without a time gets the current one. Times are
those a `TIMESTAMPTZ` holds. -/
structure RequestRecord where
  requestID : String
  provider : String
  model : String
  status : String
  inputTokens : Int
  outputTokens : Int
  totalTokens : Int
  latency : Int
  estimatedCost : Float64
  cacheStatus : String
  errorCode : String
  createdAt : Option Int
  deriving DecidableEq

/-! The statements of `Record` and the rows they insert -/

structure RequestRow where
  id : Bytes
  provider : String
  model : String
  status : String
  latencyMs : Int
  cacheStatus : String
  errorCode : Option String
  createdAt : Int
  deriving DecidableEq

/-- The identity column is left out: nothing refers to it. -/
structure UsageRow where
  requestID : Bytes
  inputTokens : Int
  outputTokens : Int
  totalTokens : Int
  estimatedCost : Float64
  createdAt : Int
  deriving DecidableEq

inductive Statement where
  | ensureProvider (name : String)
  | insertRequest (id provider model status : String) (latencyMs : Int)
      (cacheStatus errorCode : String) (createdAt : Int)
  | insertUsage (requestID : String) (inputTokens outputTokens totalTokens : Int)
      (estimatedCost : Float64)
      (createdAt : Int)

/-- A `TEXT` column holds every character but the zero byte. -/
def storable (text : String) : Bool := !text.toList.contains '\x00'

/-- What the types and indexes of the tables leave to PostgreSQL. -/
structure Limits where
  /-- The `NUMERIC(20, 10)` column and its check take the cost. -/
  cost : Float64 → Bool
  /-- A row of the index of `providers` holds the name. -/
  name : String → Bool
  /-- A row of `requests_provider_model_idx` holds the provider and the model. -/
  model : String → String → Bool

/-- The check of `requests.status`. -/
def statuses : List String :=
  ["succeeded", "failed", "rate_limited", "idempotency_replay", "cache_hit", "rejected"]

/-- The rows of one transaction, or of the whole database. -/
structure Rows where
  providers : List String
  requests : List RequestRow
  usage : List UsageRow
  deriving DecidableEq

namespace Rows

def empty : Rows := ⟨[], [], []⟩

def requestIDs (rows : Rows) : List Bytes := rows.requests.map RequestRow.id

def usageIDs (rows : Rows) : List Bytes := rows.usage.map UsageRow.requestID

end Rows

namespace Statement

/-- The row of an insertion into `requests`, if its types and checks take the values. -/
def requestRow (limits : Limits) : Statement → Option RequestRow
  | .insertRequest id provider model status latencyMs cacheStatus errorCode createdAt => do
      let uuid ← parseUUID id
      if storable provider && storable model && statuses.contains status && decide
        (0 ≤ latencyMs) && storable cacheStatus && storable errorCode && limits.model provider
        model then
        some ⟨uuid, provider, model, status, latencyMs, cacheStatus,
          if errorCode = "" then none else some errorCode, createdAt⟩
      else none
  | _ => none

def usageRow (limits : Limits) : Statement → Option UsageRow
  | .insertUsage requestID inputTokens outputTokens totalTokens estimatedCost createdAt => do
      let uuid ← parseUUID requestID
      if decide (0 ≤ inputTokens) && decide (0 ≤ outputTokens) && decide (0 ≤ totalTokens) &&
        limits.cost estimatedCost then
        some ⟨uuid, inputTokens, outputTokens, totalTokens, estimatedCost, createdAt⟩
      else none
  | _ => none

/-- What an accepted statement adds, by the number of rows it reports. -/
def insert (limits : Limits) (statement : Statement) (count : Nat) (own : Rows) : Rows :=
  match statement with
  | .ensureProvider name =>
      if count = 0 then own else { own with providers := own.providers ++ [name] }
  | .insertRequest .. =>
      { own with requests := own.requests ++ (statement.requestRow limits).toList }
  | .insertUsage .. => { own with usage := own.usage ++ (statement.usageRow limits).toList }

end Statement

/-! The database -/

/-- The rows present at the start, those of each committed transaction, and those of every
transaction begun, as long as it is in progress. -/
structure Database where
  base : Rows
  commits : List (Nat × Rows)
  transactions : List (Option Rows)

inductive Presence where | present | pending | absent
  deriving DecidableEq

inductive Verdict where
  | takes (count : Nat)
  | refuses (err : Err)
  | waits

namespace Database

def visible (db : Database) : List Rows := db.base :: db.commits.map Prod.snd

def others (db : Database) (tx : Nat) : List Rows := (db.transactions.set tx none).filterMap id

def sees {K : Type} [DecidableEq K] (db : Database) (own : Rows) (keys : Rows → List K) (key : K) :
    Bool :=
  key ∈ (own :: db.visible).flatMap keys

def presence {K : Type} [DecidableEq K] (db : Database) (tx : Nat) (own : Rows)
    (keys : Rows → List K) (key : K) : Presence :=
  if db.sees own keys key then .present
  else if key ∈ (db.others tx).flatMap keys then .pending
  else .absent

/-- A statement of a transaction with rows `own`. A reference is looked up after the keys. -/
def judge (limits : Limits) (db : Database) (tx : Nat) (own : Rows) (statement : Statement) :
    Verdict :=
  match statement with
  | .ensureProvider name =>
      if !(storable name && limits.name name) then .refuses (.text "invalid value for providers")
      else
        match db.presence tx own Rows.providers name with
        | .present => .takes 0
        | .pending => .waits
        | .absent => .takes 1
  | .insertRequest .. =>
      match statement.requestRow limits with
      | none => .refuses (.text "invalid value for requests")
      | some row =>
          match db.presence tx own Rows.requestIDs row.id with
          | .present => .refuses (.text "duplicate key in requests")
          | .pending => .waits
          | .absent =>
              if db.sees own Rows.providers row.provider then .takes 1
              else .refuses (.text "unknown provider in requests")
  | .insertUsage .. =>
      match statement.usageRow limits with
      | none => .refuses (.text "invalid value for usage_records")
      | some row =>
          match db.presence tx own Rows.usageIDs row.requestID with
          | .present => .refuses (.text "duplicate key in usage_records")
          | .pending => .waits
          | .absent =>
              if db.sees own Rows.requestIDs row.requestID then .takes 1
              else .refuses (.text "unknown request in usage_records")

def opened (db : Database) : Database :=
  { db with transactions := db.transactions ++ [some Rows.empty] }

def update (db : Database) (tx : Nat) (rows : Option Rows) : Database :=
  { db with transactions := db.transactions.set tx rows }

def commit (db : Database) (tx : Nat) (own : Rows) : Database :=
  ⟨db.base, db.commits ++ [(tx, own)], db.transactions.set tx none⟩

end Database

/-! `UsageRepository.Record` -/

inductive Effect where
  | now
  | begin
  | exec (tx : Nat) (statement : Statement)
  | commit (tx : Nat)
  | rollback (tx : Nat)

/-- A statement replies with the rows it affected. -/
abbrev effects : Signature where
  Op := Effect
  Reply
    | .now => Int
    | .begin => Except Err Nat
    | .exec _ _ => Except Err Nat
    | .commit _ => Option Err
    | .rollback _ => Unit

def effect (op : Effect) : Program effects (effects.Reply op) := .call (S := effects) op

/-- `Duration.Milliseconds` truncates. -/
def Milliseconds (duration : Int) : Int := duration.tdiv 1000000

namespace RequestRecord

variable (record : RequestRecord)

def ensureProvider : Statement := .ensureProvider record.provider

def insertRequest (createdAt : Int) : Statement :=
  .insertRequest record.requestID record.provider record.model record.status
    (Milliseconds record.latency) record.cacheStatus record.errorCode createdAt

def insertUsage (createdAt : Int) : Statement :=
  .insertUsage record.requestID record.inputTokens record.outputTokens record.totalTokens
    record.estimatedCost createdAt

def stamp : Program effects Int :=
  match record.createdAt with
  | some createdAt => pure createdAt
  | none => effect .now

def finish (tx : Nat) : Program effects (Option Err) := do
  let failed ← effect (.commit tx)
  pure (failed.map (.wrap "commit usage transaction"))

/-- `Transaction.Exec` drops the number of rows. -/
def execute (tx : Nat) (statement : Statement) (message : String)
    (next : Program effects (Option Err)) :
    Program effects (Option Err) := do
  let answer ← effect (.exec tx statement)
  match answer with
  | .error err => pure (some (.wrap message err))
  | .ok _ => next

/-- The part of `Record` under the deferred rollback. -/
def insertAll (createdAt : Int) (tx : Nat) : Program effects (Option Err) :=
  execute tx record.ensureProvider "ensure provider"
    (execute tx (record.insertRequest createdAt) "insert request record"
      (execute tx (record.insertUsage createdAt) "insert usage record" (finish tx)))

def begun (createdAt : Int) : Except Err Nat → Program effects (Option Err)
  | .error err => pure (some (.wrap "begin usage transaction" err))
  | .ok tx => (record.insertAll createdAt tx).ensuring (effect (.rollback tx))

def store (createdAt : Int) : Program effects (Option Err) :=
  if record.provider = "" ∨ record.model = "" ∨ record.requestID = "" then
    pure (some (.text "request id, provider, and model are required"))
  else if record.latency < 0 ∨ record.inputTokens < 0 ∨ record.outputTokens < 0 ∨
    record.totalTokens < 0 then
    pure (some (.text "usage counters and latency must be non-negative"))
  else do
    let answer ← effect .begin
    record.begun createdAt answer

end RequestRecord

def Record (record : RequestRecord) : Program effects (Option Err) := do
  let createdAt ← record.stamp
  record.store createdAt

end ModelGate.Storage.Usage
