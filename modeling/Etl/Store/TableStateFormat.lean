import Etl.Replication.TableState

/-!
# Table states as they are stored

A JSON document with everything but what an error was raised from, for which a placeholder is read
back (`TableState.ofValue?_toValue`).
-/

namespace Etl.Durable

/-! ## JSON -/

inductive Json where
  | null
  | num (value : Nat)
  | str (value : String)
  | arr (items : List Json)
  | obj (fields : List (String × Json))

namespace Json

def field? (name : String) : Json → Option Json
  | .obj fields => (fields.find? fun field => field.1 = name).map (·.2)
  | _ => none

def text? : Json → Option String
  | .str value => some value
  | _ => none

/-- `jsonb` takes every text without the character U+0000. -/
def isText (value : String) : Bool := decide (Char.ofNat 0 ∉ value.toList)

mutual

def isStorable : Json → Bool
  | .null => true
  | .num _ => true
  | .str value => isText value
  | .arr items => areStorable items
  | .obj fields => areStorableFields fields

def areStorable : List Json → Bool
  | [] => true
  | item :: items => item.isStorable && areStorable items

def areStorableFields : List (String × Json) → Bool
  | [] => true
  | (name, value) :: fields => isText name && value.isStorable && areStorableFields fields

end

end Json

/-! ## States -/

structure DateTime where
  nanoseconds : Nat
deriving DecidableEq

structure DateTimeFormat where
  toText : DateTime → String
  ofText? : String → Option DateTime
  ofText?_toText : ∀ time, ofText? (toText time) = some time
  isText_toText : ∀ time, Json.isText (toText time) = true

inductive TableRetryPolicy where
  | noRetry
  | manualRetry
  | timedRetry (nextRetry : DateTime)
deriving DecidableEq

inductive TableState where
  | init
  | dataSync
  | finishedCopy
  | syncWait (lsn : PgLsn)
  | catchup (lsn : PgLsn)
  | syncDone (lsn : PgLsn) (tableDecodingState : Option StoredTableDecodingState)
  | ready
  | errored (reason : String) (solution : Option String) (retryPolicy : TableRetryPolicy)
      (sourceErr : EtlError)
deriving DecidableEq

inductive StoredTableStateType where
  | init
  | dataSync
  | finishedCopy
  | syncDone
  | ready
  | errored
deriving DecidableEq

def defaultSourceErr : EtlError := ⟨.unknown, "Table replication error restored from state store"⟩

namespace TableState

def asType : TableState → TableStateType
  | .init => .init
  | .dataSync => .dataSync
  | .finishedCopy => .finishedCopy
  | .syncWait _ => .syncWait
  | .catchup _ => .catchup
  | .syncDone _ _ => .syncDone
  | .ready => .ready
  | .errored _ _ _ _ => .errored

def withoutSourceErr : TableState → TableState
  | .errored reason solution retryPolicy _ => .errored reason solution retryPolicy defaultSourceErr
  | state => state

@[simp] lemma withoutSourceErr_withoutSourceErr (state : TableState) :
    state.withoutSourceErr.withoutSourceErr = state.withoutSourceErr := by
  cases state <;> rfl

end TableState

/-! ## Writing -/

section Format

variable (format : DateTimeFormat)

def lsnToValue (lsn : PgLsn) : Json := .str (String.ofList lsn.toText)

def maskToValue (mask : List UInt8) : Json := .arr (mask.map fun byte => .num byte.toNat)

def decodingStateToValue (state : StoredTableDecodingState) : Json :=
  .obj [("snapshot_id", .str (String.ofList state.snapshotId.toText)),
    ("replication_mask", maskToValue state.replicationMask),
    ("identity_mask", maskToValue state.identityMask)]

def retryPolicyToValue : TableRetryPolicy → Json
  | .noRetry => .obj [("type", .str "no_retry")]
  | .manualRetry => .obj [("type", .str "manual_retry")]
  | .timedRetry nextRetry =>
    .obj [("type", .str "timed_retry"), ("next_retry", .str (format.toText nextRetry))]

namespace TableState

def toValue : TableState → Json
  | .init => .obj [("type", .str "init")]
  | .dataSync => .obj [("type", .str "data_sync")]
  | .finishedCopy => .obj [("type", .str "finished_copy")]
  | .syncWait lsn => .obj [("type", .str "sync_wait"), ("lsn", lsnToValue lsn)]
  | .catchup lsn => .obj [("type", .str "catchup"), ("lsn", lsnToValue lsn)]
  | .syncDone lsn none => .obj [("type", .str "sync_done"), ("lsn", lsnToValue lsn)]
  | .syncDone lsn (some state) =>
    .obj [("type", .str "sync_done"), ("lsn", lsnToValue lsn),
      ("table_decoding_state", decodingStateToValue state)]
  | .ready => .obj [("type", .str "ready")]
  | .errored reason solution retryPolicy _ =>
    .obj [("type", .str "errored"), ("reason", .str reason),
      ("solution", match solution with
        | some solution => .str solution
        | none => .null),
      ("retry_policy", retryPolicyToValue format retryPolicy)]

end TableState

def toStorageType : TableStateType → Except EtlError StoredTableStateType
  | .init => .ok .init
  | .dataSync => .ok .dataSync
  | .finishedCopy => .ok .finishedCopy
  | .syncDone => .ok .syncDone
  | .ready => .ok .ready
  | .errored => .ok .errored
  | .syncWait | .catchup =>
    .error ⟨.invalidState, "In-memory table state cannot be converted to storage state"⟩

namespace TableState

def toStorageFormat (state : TableState) : Except EtlError (StoredTableStateType × Json) :=
  if state.asType.shouldStore = false then
    .error ⟨.invalidState, "In-memory table state cannot be persisted"⟩
  else (toStorageType state.asType).map fun stateType => (stateType, state.toValue format)

end TableState

/-! ## Reading -/

def lsnOfValue? (value : Json) : Option PgLsn := value.text?.bind fun text => PgLsn.ofText? text.toList

def byteOfValue? : Json → Option UInt8
  | .num value => if value < 256 then some (UInt8.ofNat value) else none
  | _ => none

def maskOfValue? : Json → Option (List UInt8)
  | .arr items => items.mapM byteOfValue?
  | _ => none

def decodingStateOfValue? (value : Json) : Option StoredTableDecodingState := do
  let snapshotId ← (← value.field? "snapshot_id").text?
  let snapshotId ← SnapshotId.ofText? snapshotId.toList
  let replicationMask ← maskOfValue? (← value.field? "replication_mask")
  let identityMask ← maskOfValue? (← value.field? "identity_mask")
  return ⟨snapshotId, replicationMask, identityMask⟩

def retryPolicyOfValue? (value : Json) : Option TableRetryPolicy := do
  match ← (← value.field? "type").text? with
  | "no_retry" => return .noRetry
  | "manual_retry" => return .manualRetry
  | "timed_retry" => return .timedRetry (← format.ofText? (← (← value.field? "next_retry").text?))
  | _ => none

def optionOfField? {α : Type} (ofValue? : Json → Option α) : Option Json → Option (Option α)
  | none => some none
  | some .null => some none
  | some value => (ofValue? value).map some

namespace TableState

def ofValue? (value : Json) : Option TableState := do
  match ← (← value.field? "type").text? with
  | "init" => return .init
  | "data_sync" => return .dataSync
  | "finished_copy" => return .finishedCopy
  | "sync_wait" => return .syncWait (← lsnOfValue? (← value.field? "lsn"))
  | "catchup" => return .catchup (← lsnOfValue? (← value.field? "lsn"))
  | "sync_done" =>
    let lsn ← lsnOfValue? (← value.field? "lsn")
    let state ← optionOfField? decodingStateOfValue? (value.field? "table_decoding_state")
    return .syncDone lsn state
  | "ready" => return .ready
  | "errored" =>
    let reason ← (← value.field? "reason").text?
    let solution ← optionOfField? Json.text? (value.field? "solution")
    let retryPolicy ← retryPolicyOfValue? format (← value.field? "retry_policy")
    return .errored reason solution retryPolicy defaultSourceErr
  | _ => none

def fromStateRow (metadata : Json) : Except EtlError TableState :=
  match ofValue? format metadata with
  | some state => .ok state
  | none => .error ⟨.deserializationError, "Table state deserialization failed"⟩

end TableState

/-! ## Round trip -/

lemma lsnOfValue?_lsnToValue (lsn : PgLsn) : lsnOfValue? (lsnToValue lsn) = some lsn := by
  simp [lsnOfValue?, lsnToValue, Json.text?, PgLsn.ofText?_toText]

lemma maskOfValue?_maskToValue (mask : List UInt8) : maskOfValue? (maskToValue mask) = some mask := by
  have hbyte : ∀ byte : UInt8, byteOfValue? (.num byte.toNat) = some byte := by
    intro byte
    simp [byteOfValue?, byte.toNat_lt]
  simp only [maskOfValue?, maskToValue, List.mapM_map]
  induction mask with
  | nil => rfl
  | cons byte mask ih => simp_all [List.mapM_cons]

lemma decodingStateOfValue?_decodingStateToValue (state : StoredTableDecodingState) :
    decodingStateOfValue? (decodingStateToValue state) = some state := by
  simp [decodingStateOfValue?, decodingStateToValue, Json.field?, Json.text?, SnapshotId.ofText?_toText,
    maskOfValue?_maskToValue]

lemma optionOfField?_decodingStateToValue (state : StoredTableDecodingState) :
    optionOfField? decodingStateOfValue? (some (decodingStateToValue state)) = some (some state) := by
  change Option.map some (decodingStateOfValue? (decodingStateToValue state)) = _
  rw [decodingStateOfValue?_decodingStateToValue]
  rfl

lemma retryPolicyOfValue?_retryPolicyToValue (policy : TableRetryPolicy) :
    retryPolicyOfValue? format (retryPolicyToValue format policy) = some policy := by
  cases policy <;>
    simp [retryPolicyOfValue?, retryPolicyToValue, Json.field?, Json.text?, format.ofText?_toText]

lemma TableState.ofValue?_toValue (state : TableState) :
    ofValue? format (state.toValue format) = some state.withoutSourceErr := by
  cases state with
  | syncDone lsn state =>
    cases state with
    | none =>
      simp [ofValue?, toValue, Json.field?, Json.text?, lsnOfValue?_lsnToValue, optionOfField?,
        withoutSourceErr]
    | some state =>
      simp [ofValue?, toValue, Json.field?, Json.text?, lsnOfValue?_lsnToValue,
        optionOfField?_decodingStateToValue, withoutSourceErr]
  | errored reason solution retryPolicy sourceErr =>
    cases solution <;> simp [ofValue?, toValue, Json.field?, Json.text?, optionOfField?,
      retryPolicyOfValue?_retryPolicyToValue, withoutSourceErr]
  | _ => simp [ofValue?, toValue, Json.field?, Json.text?, lsnOfValue?_lsnToValue, withoutSourceErr]

/-! ## What can be stored -/

/-- Not one that lives in memory only, and without a character `jsonb` does not take. -/
def TableState.isStorable : TableState → Bool
  | .syncWait _ | .catchup _ => false
  | .errored reason solution _ _ => Json.isText reason && solution.all Json.isText
  | _ => true

lemma isText_ofList_render {b : Nat} (hb2 : 2 ≤ b) (hb : b ≤ 16) (n m : Nat) {c : Char}
    (hc : c ≠ Char.ofNat 0) :
    Json.isText (String.ofList (Text.render b n ++ c :: Text.render b m)) = true := by
  have hzero : Text.digitVal? b (Char.ofNat 0) = none := by simp [Text.digitVal?]
  have hn := Text.notMem_render hb2 hb hzero n
  have hm := Text.notMem_render hb2 hb hzero m
  simp [Json.isText, hn, hm, hc.symm]

lemma isStorable_lsnToValue (lsn : PgLsn) : (lsnToValue lsn).isStorable = true :=
  isText_ofList_render (by decide) (by decide) _ _ (by decide)

lemma isStorable_maskToValue (mask : List UInt8) : (maskToValue mask).isStorable = true := by
  simp only [maskToValue, Json.isStorable]
  induction mask with
  | nil => rfl
  | cons byte mask ih => simpa [Json.areStorable, Json.isStorable] using ih

lemma isStorable_decodingStateToValue (state : StoredTableDecodingState) :
    (decodingStateToValue state).isStorable = true := by
  have hid : Json.isText (String.ofList state.snapshotId.toText) = true :=
    isText_ofList_render (by decide) (by decide) _ _ (by decide)
  simp [decodingStateToValue, Json.isStorable, Json.areStorableFields, hid, isStorable_maskToValue]
  decide

lemma isStorable_retryPolicyToValue (policy : TableRetryPolicy) :
    (retryPolicyToValue format policy).isStorable = true := by
  cases policy with
  | timedRetry nextRetry =>
    simp [retryPolicyToValue, Json.isStorable, Json.areStorableFields, format.isText_toText]
    decide
  | _ => rfl

lemma TableState.isStorable_toValue {state : TableState} (h : state.isStorable = true) :
    (state.toValue format).isStorable = true := by
  cases state with
  | syncDone lsn state =>
    cases state <;> simp [toValue, Json.isStorable, Json.areStorableFields, isStorable_lsnToValue,
      isStorable_decodingStateToValue] <;> decide
  | errored reason solution retryPolicy sourceErr =>
    simp only [isStorable, Bool.and_eq_true] at h
    cases solution <;> simp_all [toValue, Json.isStorable, Json.areStorableFields,
      isStorable_retryPolicyToValue] <;> decide
  | syncWait => cases h
  | catchup => cases h
  | _ => rfl

end Format

end Etl.Durable
