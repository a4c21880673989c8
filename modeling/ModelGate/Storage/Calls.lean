import ModelGate.Semantics.Pool
import ModelGate.Storage.Keys

/-! One `Record` call, by its stages.

A connection may fail at a begin, at a statement or at a commit, and so may the
context of the operation end, also while a statement waits. A commit that fails
may still have happened.
-/

set_option autoImplicit false

namespace ModelGate.Storage.Usage

open Data Numeric Semantics

variable {limits : Limits}

/-! What the database does to a call -/

/-- What the database replies of itself. Nothing here answers a statement that waits. -/
def Granted (limits : Limits) (db : Database) : (op : Effect) → effects.Reply op → Database → Prop
  | .now, _, next => next = db
  | .begin, reply, next => reply = .ok db.transactions.length ∧ next = db.opened
  | .exec tx statement, reply, next => ∃ own, db.transactions[tx]? = some (some own) ∧
      match db.judge limits tx own statement with
      | .takes count =>
          reply = .ok count ∧ next = db.update tx (some (statement.insert limits count own))
      | .refuses err => reply = .error err ∧ next = db.update tx none
      | .waits => False
  | .commit tx, reply, next =>
      ∃ own, db.transactions[tx]? = some (some own) ∧ reply = none ∧ next = db.commit tx own
  | .rollback tx, _, next => next = db.update tx none

namespace Database

def answer (limits : Limits) (db : Database) : (op : Effect) → Option (effects.Reply op × Database)
  | .now => some ((0 : Int), db)
  | .begin => some (.ok db.transactions.length, db.opened)
  | .exec tx statement =>
      match db.transactions[tx]? with
      | some (some own) =>
          match db.judge limits tx own statement with
          | .takes count =>
              some (.ok count, db.update tx (some (statement.insert limits count own)))
          | .refuses err => some (.error err, db.update tx none)
          | .waits => none
      | _ => none
  | .commit tx =>
      match db.transactions[tx]? with
      | some (some own) => some (none, db.commit tx own)
      | _ => none
  | .rollback tx => some ((), db.update tx none)

theorem granted_of_answer {db next : Database} {op : Effect} {reply : effects.Reply op}
    (answered : db.answer limits op = some (reply, next)) : Granted limits db op reply next := by
  cases op with
  | now =>
      cases answered
      exact rfl
  | begin =>
      cases answered
      exact ⟨rfl, rfl⟩
  | exec tx statement =>
      simp only [answer] at answered
      split at answered
      · rename_i own located
        cases judged : db.judge limits tx own statement with
        | takes count =>
            rw [judged] at answered
            cases answered
            exact ⟨own, located, by rw [judged]; exact ⟨rfl, rfl⟩⟩
        | refuses err =>
            rw [judged] at answered
            cases answered
            exact ⟨own, located, by rw [judged]; exact ⟨rfl, rfl⟩⟩
        | waits =>
            rw [judged] at answered
            cases answered
      · cases answered
  | commit tx =>
      simp only [answer] at answered
      split at answered
      · rename_i own located
        cases answered
        exact ⟨own, located, rfl, rfl⟩
      · cases answered
  | rollback tx =>
      cases answered
      exact rfl

theorem answer_exec {db : Database} {tx : Nat} {own : Rows} {statement : Statement}
    (located : db.transactions[tx]? = some (some own))
    (free : db.judge limits tx own statement ≠ .waits) :
    (db.answer limits (.exec tx statement)).isSome := by
  simp only [answer, located]
  split
  · rfl
  · rfl
  · rename_i waits
    exact absurd waits free

end Database

/-- A connection that fails or a context that ends, and with it the transaction. -/
def Faulty (db : Database) : (op : Effect) → effects.Reply op → Database → Prop
  | .begin, reply, next => ∃ err, reply = .error err ∧ next = db
  | .exec tx _, reply, next => ∃ err, reply = .error err ∧ next = db.update tx none
  | .commit tx, reply, next =>
      ∃ err own, db.transactions[tx]? = some (some own) ∧ reply = some err ∧
      (next = db.update tx none ∨ next = db.commit tx own)
  | _, _, _ => False

/-- Calls of `Record` on a database whose connections and contexts may fail, or never do. -/
def ledgerSystem (limits : Limits) (faulty : Bool) :
    System effects Database RequestRecord (Option Err) where
  body := Record
  admits _ _ := True
  handles _ db op reply next := Granted limits db op reply next ∨ faulty = true ∧
    Faulty db op reply next
  moves _ _ := False

theorem Database.handles_of_answer {faulty : Bool} {index : Nat} {db next : Database} {op : Effect}
    {reply : effects.Reply op} (answered : db.answer limits op = some (reply, next)) :
    (ledgerSystem limits faulty).handles index db op reply next :=
  .inl (granted_of_answer answered)

/-! The stages of a call -/

def RequestRecord.statement (record : RequestRecord) (createdAt : Int) : Nat → Option Statement
  | 0 => some record.ensureProvider
  | 1 => some (record.insertRequest createdAt)
  | 2 => some (record.insertUsage createdAt)
  | _ => none

/-- The checks `Record` makes itself. -/
structure RequestRecord.Complete (record : RequestRecord) : Prop where
  named : record.provider ≠ "" ∧ record.model ≠ "" ∧ record.requestID ≠ ""
  counted : 0 ≤ record.latency ∧ 0 ≤ record.inputTokens ∧ 0 ≤ record.outputTokens ∧
    0 ≤ record.totalTokens

inductive Stage where
  | idle
  | working (tx : Nat) (rows : Rows) (finished : Nat)
  | refused (tx : Nat)
  | committed (tx : Nat) (rows : Rows) (failed : Bool)

/-- A call by its record, the time it stores and its stage. -/
structure Progress where
  record : RequestRecord
  createdAt : Option Int
  stage : Stage

namespace Progress

def first (record : RequestRecord) : Progress := ⟨record, record.createdAt, .idle⟩

def May (progress : Progress) : Effect → Prop
  | .now => progress.stage = .idle ∧ progress.createdAt = none
  | .begin =>
      progress.stage = .idle ∧ progress.record.Complete ∧
        ∃ createdAt, progress.createdAt = some createdAt
  | .exec tx statement => ∃ rows finished createdAt, progress.stage = .working tx rows finished ∧
      progress.createdAt = some createdAt ∧
        progress.record.statement createdAt finished = some statement
  | .commit tx => ∃ rows, progress.stage = .working tx rows 3
  | .rollback tx =>
      progress.stage = .refused tx ∨ ∃ rows failed, progress.stage = .committed tx rows failed

def reach (progress : Progress) (stage : Stage) : Progress := { progress with stage }

def after (limits : Limits) (progress : Progress) : (op : Effect) → effects.Reply op → Progress
  | .now, now => { progress with createdAt := some (progress.createdAt.getD now) }
  | .begin, .ok tx => progress.reach (.working tx .empty 0)
  | .begin, .error _ => progress
  | .exec tx statement, .ok count =>
      match progress.stage with
      | .working _ rows finished =>
          progress.reach (.working tx (statement.insert limits count rows) (finished + 1))
      | _ => progress
  | .exec tx _, .error _ => progress.reach (.refused tx)
  | .commit tx, failed =>
      match progress.stage with
      | .working _ rows _ => progress.reach (.committed tx rows failed.isSome)
      | _ => progress
  | .rollback _, _ => progress

end Progress

def storing (limits : Limits) (faulty : Bool) : Protocol effects Progress where
  may := Progress.May
  answers _
    | .begin, .error _ => faulty = true
    | .commit _, some _ => faulty = true
    | _, _ => True
  after := Progress.after limits

def Concluded (faulty : Bool) : Exit (Option Err) → Progress → Prop
  | .returned none, progress => ∃ tx rows, progress.stage = .committed tx rows false
  | .returned (some err), progress =>
      progress.stage = .idle ∧ (faulty = false → ¬progress.record.Complete) ∨
        (∃ tx, progress.stage = .refused tx) ∨
        ∃ tx rows cause, progress.stage = .committed tx rows true ∧
        err = .wrap "commit usage transaction" cause ∧ faulty = true
  | .aborted _, _ => False

section Obeying

variable {faulty : Bool} {record : RequestRecord} {createdAt : Int} {tx : Nat}

/-- What the deferred rollback asks of the statements. -/
def Settled (faulty : Bool) (tx : Nat) (exit : Exit (Option Err)) (progress : Progress) : Prop :=
  Concluded faulty exit progress ∧ progress.May (.rollback tx)

theorem finish_obeys (record : RequestRecord) (createdAt : Int) (tx : Nat) (rows : Rows) :
    Obeys (storing limits faulty) (Settled faulty tx) (RequestRecord.finish tx)
      ⟨record, some createdAt, .working tx rows 3⟩ := by
  refine obeys_call_bind ⟨rows, rfl⟩ fun failed answered => obeys_done.mpr ?_
  cases failed with
  | none => exact ⟨⟨tx, rows, rfl⟩, .inr ⟨rows, false, rfl⟩⟩
  | some err => exact ⟨.inr (.inr ⟨tx, rows, err, rfl, rfl, answered⟩), .inr ⟨rows, true, rfl⟩⟩

theorem execute_obeys {finished : Nat} {statement : Statement}
    (planned : record.statement createdAt finished = some statement) (message : String)
    {next : Program effects (Option Err)}
    (rest : ∀ rows, Obeys (storing limits faulty) (Settled faulty tx) next
      ⟨record, some createdAt, .working tx rows (finished + 1)⟩)
    (rows : Rows) :
    Obeys (storing limits faulty) (Settled faulty tx)
      (RequestRecord.execute tx statement message next)
      ⟨record, some createdAt, .working tx rows finished⟩ := by
  refine obeys_call_bind ⟨rows, finished, createdAt, rfl, rfl, planned⟩ fun answer _ => ?_
  cases answer with
  | error err => exact obeys_done.mpr ⟨.inr (.inl ⟨tx, rfl⟩), .inl rfl⟩
  | ok count => exact rest _

theorem insertAll_obeys (record : RequestRecord) (createdAt : Int) (tx : Nat) :
    Obeys (storing limits faulty) (Settled faulty tx) (record.insertAll createdAt tx)
      ⟨record, some createdAt, .working tx .empty 0⟩ := by
  refine execute_obeys rfl _ (fun first => ?_) _
  refine execute_obeys rfl _ (fun second => ?_) _
  exact execute_obeys rfl _ (fun third => finish_obeys record createdAt tx third) _

theorem store_obeys (record : RequestRecord) (createdAt : Int) :
    Obeys (storing limits faulty) (Concluded faulty) (record.store createdAt)
      ⟨record, some createdAt, .idle⟩ := by
  unfold RequestRecord.store
  split
  · rename_i unnamed
    refine obeys_done.mpr (.inl ⟨rfl, fun _ complete => ?_⟩)
    obtain ⟨provider, model, requestID⟩ := complete.named
    exact unnamed.elim provider fun rest => rest.elim model requestID
  · rename_i named
    split
    · rename_i negative
      refine obeys_done.mpr (.inl ⟨rfl, fun _ complete => ?_⟩)
      have counted := complete.counted
      simp only at counted
      omega
    · rename_i counted
      have complete : record.Complete := by
        simp only [not_or, Int.not_lt] at named counted
        exact ⟨named, counted⟩
      refine obeys_call_bind ⟨rfl, complete, createdAt, rfl⟩ fun answer answered => ?_
      cases answer with
      | error err =>
          have broken : faulty = true := answered
          exact obeys_done.mpr (.inl ⟨rfl, fun sound => by rw [sound] at broken; cases broken⟩)
      | ok tx =>
          rw [RequestRecord.begun, obeys_ensuring]
          refine (insertAll_obeys record createdAt tx).mono fun exit last settled => ?_
          exact obeys_perform.mpr ⟨settled.2, fun _ _ => obeys_done.mpr settled.1⟩

theorem record_obeys (record : RequestRecord) :
    Obeys (storing limits faulty) (Concluded faulty) (Record record) (.first record) := by
  unfold Record
  cases given : record.createdAt with
  | some createdAt =>
      have same : Progress.first record = ⟨record, some createdAt, .idle⟩ := by
        rw [Progress.first, given]
      rw [RequestRecord.stamp, given, same]
      exact store_obeys record createdAt
  | none =>
      have same : Progress.first record = ⟨record, none, .idle⟩ := by rw [Progress.first, given]
      rw [RequestRecord.stamp, given, same]
      exact obeys_call_bind ⟨rfl, rfl⟩ fun createdAt _ => store_obeys record createdAt

end Obeying

/-! The rows of a call -/

/-- The rows of a transaction after a number of statements. -/
structure Shape (limits : Limits) (record : RequestRecord) (createdAt : Int) (finished : Nat)
    (rows : Rows) : Prop where
  providers : rows.providers = [] ∨ rows.providers = [record.provider] ∧ 0 < finished
  requests : rows.requests = [] ∧ finished < 2 ∨
    ∃ row, (record.insertRequest createdAt).requestRow limits = some row ∧ rows.requests = [row] ∧
    2 ≤ finished
  usage : rows.usage = [] ∧ finished < 3 ∨
    ∃ row, (record.insertUsage createdAt).usageRow limits = some row ∧ rows.usage = [row] ∧
    3 ≤ finished

theorem shape_empty (limits : Limits) (record : RequestRecord) (createdAt : Int) :
    Shape limits record createdAt 0 .empty :=
  ⟨.inl rfl, .inl ⟨rfl, by decide⟩, .inl ⟨rfl, by decide⟩⟩

section Shape

variable {record : RequestRecord} {createdAt : Int} {finished : Nat} {rows : Rows}

theorem statement_cases {statement : Statement}
    (planned : record.statement createdAt finished = some statement) :
    (finished = 0 ∧ statement = record.ensureProvider) ∨
    (finished = 1 ∧ statement = record.insertRequest createdAt) ∨
    (finished = 2 ∧ statement = record.insertUsage createdAt) := by
  unfold RequestRecord.statement at planned
  split at planned <;> cases planned <;> simp

namespace Shape

variable (shape : Shape limits record createdAt finished rows)
include shape

theorem no_requests (early : finished < 2) : rows.requests = [] := by
  rcases shape.requests with ⟨none', -⟩ | ⟨_, _, _, late⟩
  · exact none'
  · exact absurd late (Nat.not_le.mpr early)

theorem no_usage (early : finished < 3) : rows.usage = [] := by
  rcases shape.usage with ⟨none', -⟩ | ⟨_, _, _, late⟩
  · exact none'
  · exact absurd late (Nat.not_le.mpr early)

end Shape

theorem Shape.next {tx count : Nat} {db : Database} {statement : Statement}
    (shape : Shape limits record createdAt finished rows)
    (planned : record.statement createdAt finished = some statement)
    (judged : db.judge limits tx rows statement = .takes count) :
    Shape limits record createdAt (finished + 1) (statement.insert limits count rows) := by
  rcases statement_cases planned with ⟨rfl, rfl⟩ | ⟨rfl, rfl⟩ | ⟨rfl, rfl⟩
  · have requests := shape.no_requests (by decide)
    have usage := shape.no_usage (by decide)
    simp only [RequestRecord.ensureProvider, Statement.insert]
    split
    · exact ⟨shape.providers.imp_right fun late => ⟨late.1, Nat.succ_pos _⟩,
        .inl ⟨requests, by decide⟩, .inl ⟨usage, by decide⟩⟩
    · rcases shape.providers with none' | ⟨-, impossible⟩
      · exact ⟨.inr ⟨by rw [none', List.nil_append], Nat.succ_pos _⟩, .inl ⟨requests, by decide⟩,
          .inl ⟨usage, by decide⟩⟩
      · exact absurd impossible (Nat.lt_irrefl 0)
  · refine ⟨shape.providers.imp_right fun late => ⟨late.1, Nat.succ_pos _⟩, .inr ?_,
      .inl ⟨shape.no_usage (by decide), by decide⟩⟩
    have none' := shape.no_requests (by decide)
    simp only [RequestRecord.insertRequest, Database.judge] at judged
    split at judged
    · cases judged
    · rename_i row accepted
      refine ⟨row, accepted, ?_, by decide⟩
      simp only [RequestRecord.insertRequest, Statement.insert, accepted, none', Option.toList_some,
        List.nil_append]
  · refine ⟨shape.providers.imp_right fun late => ⟨late.1, Nat.succ_pos _⟩, .inr ?_, .inr ?_⟩
    · rcases shape.requests with ⟨-, impossible⟩ | ⟨row, accepted, only, -⟩
      · exact absurd impossible (by decide)
      · exact ⟨row, accepted, only, by decide⟩
    · have none' := shape.no_usage (by decide)
      simp only [RequestRecord.insertUsage, Database.judge] at judged
      split at judged
      · cases judged
      · rename_i row accepted
        refine ⟨row, accepted, ?_, by decide⟩
        simp only [RequestRecord.insertUsage, Statement.insert, accepted, none', Option.toList_some,
          List.nil_append]

end Shape

/-! Why a statement is refused -/

/-- The columns take the texts, the status and the cost of a record, and the indexes its
provider and model. -/
structure RequestRecord.Storable (limits : Limits) (record : RequestRecord) : Prop where
  identified : ∃ uuid, parseUUID record.requestID = some uuid
  texts : ∀ text ∈ [record.provider, record.model, record.cacheStatus, record.errorCode],
    storable text = true
  status : record.status ∈ statuses
  indexed : limits.name record.provider = true ∧ limits.model record.provider record.model = true
  cost : limits.cost record.estimatedCost = true

/-- Another row has the identifier of a record. -/
def Taken (visible : List Rows) (record : RequestRecord) : Prop :=
  ∃ uuid, parseUUID record.requestID = some uuid ∧ uuid ∈ visible.flatMap Rows.requestIDs

section Refusals

variable {record : RequestRecord} {createdAt : Int}

theorem milliseconds_nonneg {duration : Int} (counts : 0 ≤ duration) : 0 ≤ Milliseconds duration :=
  Int.tdiv_nonneg counts (by decide)

theorem requestRow_of_storable (createdAt : Int) (complete : record.Complete)
    (fits : record.Storable limits) :
    ∃ row, (record.insertRequest createdAt).requestRow limits = some row := by
  obtain ⟨uuid, parsed⟩ := fits.identified
  have texts := fits.texts
  simp only [List.forall_mem_cons] at texts
  have latency := milliseconds_nonneg complete.counted.1
  simp [RequestRecord.insertRequest, Statement.requestRow, parsed, texts, fits.status, latency,
    fits.indexed.2]

theorem usageRow_of_storable (createdAt : Int) (complete : record.Complete)
    (fits : record.Storable limits) :
    ∃ row, (record.insertUsage createdAt).usageRow limits = some row := by
  obtain ⟨uuid, parsed⟩ := fits.identified
  obtain ⟨-, input, output, total⟩ := complete.counted
  simp [RequestRecord.insertUsage, Statement.usageRow, parsed, input, output, total, fits.cost]

theorem requestRow_fields {row : RequestRow}
    (accepted : (record.insertRequest createdAt).requestRow limits = some row) :
    parseUUID record.requestID = some row.id ∧ row.provider = record.provider ∧
    row.createdAt = createdAt := by
  simp only [RequestRecord.insertRequest, Statement.requestRow, Option.bind_eq_bind,
    Option.bind_eq_some_iff] at accepted
  obtain ⟨uuid, parsed, accepted⟩ := accepted
  split at accepted
  · cases accepted
    exact ⟨parsed, rfl, rfl⟩
  · cases accepted

theorem usageRow_fields {row : UsageRow}
    (accepted : (record.insertUsage createdAt).usageRow limits = some row) :
    parseUUID record.requestID = some row.requestID ∧ row.createdAt = createdAt := by
  simp only [RequestRecord.insertUsage, Statement.usageRow, Option.bind_eq_bind,
    Option.bind_eq_some_iff] at accepted
  obtain ⟨uuid, parsed, accepted⟩ := accepted
  split at accepted
  · cases accepted
    exact ⟨parsed, rfl⟩
  · cases accepted

end Refusals

theorem Shape.paired {record : RequestRecord} {createdAt : Int} {rows : Rows}
    (shape : Shape limits record createdAt 3 rows) :
    ∃ row usage, rows.requests = [row] ∧ rows.usage = [usage] ∧ row.id = usage.requestID ∧
    row.createdAt = usage.createdAt ∧ parseUUID record.requestID = some row.id := by
  rcases shape.requests with ⟨-, impossible⟩ | ⟨row, accepted, only, -⟩
  · exact absurd impossible (by decide)
  · rcases shape.usage with ⟨-, impossible⟩ | ⟨usage, taken, alone, -⟩
    · exact absurd impossible (by decide)
    · obtain ⟨parsed, -, time⟩ := requestRow_fields accepted
      obtain ⟨again, same⟩ := usageRow_fields taken
      exact ⟨row, usage, only, alone, Option.some.inj (parsed.symm.trans again),
        time.trans same.symm, parsed⟩

theorem Shape.ids {record : RequestRecord} {createdAt : Int} {rows : Rows}
    (shape : Shape limits record createdAt 3 rows) : rows.usageIDs = rows.requestIDs := by
  obtain ⟨row, usage, requests, usages, same, -⟩ := shape.paired
  rw [Rows.usageIDs, Rows.requestIDs, requests, usages, List.map_singleton,
    List.map_singleton, same]

end ModelGate.Storage.Usage
