import Etl.Lib.Except

/-!
# Errors

An error is its kind and the fixed description of the place that raised it.
-/

namespace Etl

inductive ErrorKind where
  | sourceConnectionFailed
  | destinationConnectionFailed
  | sourceQueryFailed
  | destinationQueryFailed
  | destinationAtomicBatchRetryable
  | sourceLockTimeout
  | destinationTimeout
  | sourceOperationCanceled
  | sourceSchemaError
  | missingTableSchema
  | corruptedTableSchema
  | destinationTableNameInvalid
  | destinationNamespaceAlreadyExists
  | destinationTableAlreadyExists
  | destinationNamespaceMissing
  | destinationTableMissing
  | destinationSchemaRewind
  | conversionError
  | invalidData
  | validationError
  | nullValuesNotSupportedInArrayInDestination
  | unsupportedValueInDestination
  | configError
  | sourceConfigurationLimitExceeded
  | ioError
  | sourceIoError
  | destinationIoError
  | serializationError
  | deserializationError
  | encryptionError
  | sourceAuthenticationError
  | destinationAuthenticationError
  | permissionDenied
  | invalidState
  | applyWorkerPanic
  | applyWorkerCancelled
  | tableSyncWorkerPanic
  | tableCopyWorkerPanic
  | tableSyncWorkerCancelled
  | stateRollbackError
  | replicationSlotNotFound
  | replicationSlotAlreadyExists
  | replicationSlotNotCreated
  | replicationSlotInvalidated
  | replicationSlotDeletionTimeout
  | sourceReplicaIdentityError
  | sourceSnapshotTooOld
  | sourceDatabaseInRecovery
  | sourceDatabaseShutdown
  | sourceError
  | destinationError
  | unknown
deriving DecidableEq, Repr

structure EtlError where
  kind : ErrorKind
  description : String
deriving DecidableEq, Repr

end Etl
