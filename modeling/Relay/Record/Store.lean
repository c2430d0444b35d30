import Relay.Record.Basic

/-!
# The store of workflow records

Records are kept by their identifier.  A status can only be written to a record
that exists, and only such a record can be deleted.
-/

namespace Relay

/-- Why the store refuses. -/
inductive StoreError where
  | notFound
  /-- No connection became free in time. -/
  | poolTimeout
  deriving DecidableEq, Repr

/-- The wording of a store error. -/
def StoreError.message : StoreError → String
  | .notFound => "workflow record not found"
  | .poolTimeout => "database error: pool timed out while waiting for an open connection"

/-- All records, by the text of their identifier. -/
structure RecordStore where
  records : Dict WorkflowRecord
  deriving DecidableEq, Repr, Inhabited

namespace RecordStore

/-- The store without records. -/
def empty : RecordStore := ⟨.empty⟩

/-- Number of records. -/
def size (store : RecordStore) : Nat := store.records.size

/-- The record with an identifier. -/
def get? (store : RecordStore) (id : Uuid) : Option WorkflowRecord := store.records.get? id.text

/-- A record whose root job is the given one. -/
def findByRoot? (store : RecordStore) (queueName rootJobId : String) : Option WorkflowRecord :=
  store.records.values.find? fun record =>
    record.queueName == queueName && record.rootJobId == rootJobId

/-- The record that a new workflow gets. -/
def recordOf (now : Timestamp) (new : NewWorkflow) : WorkflowRecord :=
  { id := new.id, rootJobId := new.rootJobId, queueName := new.queueName
    status := new.status.text, definition := new.definition, createdAt := now, updatedAt := now }

/-- Keep a record, in place of one with its identifier. -/
def insert (store : RecordStore) (record : WorkflowRecord) : RecordStore :=
  ⟨store.records.insert record.id.text record⟩

/-- Write the status of a record. -/
def updateStatus (store : RecordStore) (now : Timestamp) (id : Uuid) (status : String) :
    Except StoreError RecordStore :=
  match store.get? id with
  | some record => .ok (store.insert { record with status, updatedAt := now })
  | none => .error .notFound

/-- Delete a record. -/
def delete (store : RecordStore) (id : Uuid) : Except StoreError RecordStore :=
  match store.get? id with
  | some _ => .ok ⟨store.records.erase id.text⟩
  | none => .error .notFound

end RecordStore

end Relay
