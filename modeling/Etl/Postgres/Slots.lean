import Etl.Lib.Text
import Etl.Postgres.Lsn
import Etl.Postgres.Schema

/-!
# Names of replication slots

A slot's name tells its pipeline and table. A deleted pipeline drops the slots that match a `LIKE`
pattern: its own and no others (`slot_names_identify_owner`).
-/

namespace Etl

inductive EtlReplicationSlot where
  | apply (pipelineId : Fin (2 ^ 64))
  | tableSync (pipelineId : Fin (2 ^ 64)) (tableId : TableId)
deriving DecidableEq

namespace EtlReplicationSlot

inductive SlotError where
  | invalidSlotNameLength (name : List Char)
  | invalidSlotName (name : List Char)
deriving DecidableEq

def maxSlotNameLength : Nat := 63

def applyWorkerPrefix : List Char :=
  ['s', 'u', 'p', 'a', 'b', 'a', 's', 'e', '_', 'e', 't', 'l', '_', 'a', 'p', 'p', 'l', 'y']

def tableSyncWorkerPrefix : List Char :=
  ['s', 'u', 'p', 'a', 'b', 'a', 's', 'e', '_', 'e', 't', 'l', '_', 't', 'a', 'b', 'l', 'e', '_',
   's', 'y', 'n', 'c']

def pipelineId : EtlReplicationSlot → Fin (2 ^ 64)
  | .apply pipelineId | .tableSync pipelineId _ => pipelineId

def text : EtlReplicationSlot → List Char
  | .apply pipelineId => applyWorkerPrefix ++ '_' :: Text.render 10 pipelineId
  | .tableSync pipelineId tableId =>
    tableSyncWorkerPrefix ++ '_' :: (Text.render 10 pipelineId ++ '_' :: Text.render 10 tableId.val)

/-- All characters are ASCII, so that the length counts bytes. -/
def toName (slot : EtlReplicationSlot) : Except SlotError (List Char) :=
  if maxSlotNameLength < slot.text.length then .error (.invalidSlotNameLength slot.text)
  else .ok slot.text

def parseOid? (cs : List Char) : Option TableId :=
  (PgLsn.parseU64? 10 cs).bind fun n =>
    if h : n.toNat < 2 ^ 32 then some ⟨⟨n.toNat, h⟩⟩ else none

def stripPrefix? (start name : List Char) : Option (List Char) :=
  if start.isPrefixOf name then some (name.drop start.length) else none

def ofName (name : List Char) : Except SlotError EtlReplicationSlot :=
  let invalid := SlotError.invalidSlotName name
  match stripPrefix? applyWorkerPrefix name with
  | some rest =>
    match (stripPrefix? ['_'] rest).bind fun rest => (PgLsn.parseU64? 10 rest).map PgLsn.val with
    | some pipelineId => .ok (.apply pipelineId)
    | none => .error invalid
  | none =>
    match stripPrefix? tableSyncWorkerPrefix name with
    | some rest =>
      match (stripPrefix? ['_'] rest).bind (Text.rsplitOnce? '_') with
      | none => .error invalid
      | some (pipelineIdStr, tableIdStr) =>
        match (PgLsn.parseU64? 10 pipelineIdStr).map PgLsn.val, parseOid? tableIdStr with
        | some pipelineId, some tableId => .ok (.tableSync pipelineId tableId)
        | _, _ => .error invalid
    | none => .error invalid

def tableSyncPrefix (pipelineId : Fin (2 ^ 64)) : Except SlotError (List Char) :=
  let start := tableSyncWorkerPrefix ++ '_' :: (Text.render 10 pipelineId ++ ['_'])
  if maxSlotNameLength ≤ start.length then .error (.invalidSlotNameLength start) else .ok start

def tableSyncLikePattern (pipelineId : Fin (2 ^ 64)) : Except SlotError (List Char) :=
  (tableSyncPrefix pipelineId).map fun start =>
    start.flatMap (fun c => if c = '_' then ['\\', '_'] else [c]) ++ ['%']

end EtlReplicationSlot

/-- SQL `LIKE` with the escape character `\`. -/
def like : List Char → List Char → Bool
  | [], cs => cs.isEmpty
  | '\\' :: c :: pattern, d :: cs => c == d && like pattern cs
  | ['\\'], _ => false
  | '\\' :: _ :: _, [] => false
  | '%' :: pattern, cs => cs.tails.any (like pattern)
  | '_' :: pattern, _ :: cs => like pattern cs
  | c :: pattern, d :: cs => c == d && like pattern cs
  | _ :: _, [] => false

namespace EtlReplicationSlot

inductive DropOutcome where
  | failed (dropped : List Char → Bool)
  | done

def maxRetries : Nat := 3

def isSelected (applySlotName pattern name : List Char) : Bool :=
  name == applySlotName || like pattern name

def dropLoop (selected : List Char → Bool) :
    Nat → List DropOutcome → List (List Char) → Bool × List (List Char)
  | 0, _, slots | _ + 1, [], slots => (false, slots)
  | attempts + 1, .failed dropped :: outcomes, slots =>
    dropLoop selected attempts outcomes (slots.filter fun name => !(selected name && dropped name))
  | _ + 1, .done :: _, slots => (true, slots.filter fun name => !selected name)

def deletePipelineReplicationSlots (pipelineId : Fin (2 ^ 64)) (outcomes : List DropOutcome)
    (slots : List (List Char)) : Bool × List (List Char) :=
  match (EtlReplicationSlot.apply pipelineId).toName, tableSyncLikePattern pipelineId with
  | .ok applySlotName, .ok pattern =>
    dropLoop (isSelected applySlotName pattern) maxRetries outcomes slots
  | _, _ => (true, slots)

/-! ## Numerals in names -/

lemma length_render_le {n k : Nat} (hk : 0 < k) (h : n < 10 ^ k) :
    (Text.render 10 n).length ≤ k := by
  unfold Text.render
  split
  · exact hk
  · simpa using (Nat.digits_length_le_iff (by norm_num) n).2 h

lemma underscore_notMem (n : Nat) : '_' ∉ Text.render 10 n :=
  Text.notMem_render (by norm_num) (by norm_num) (by decide) n

lemma render_injective {m n : Nat} (h : Text.render 10 m = Text.render 10 n) : m = n := by
  have hm := Text.parse?_render (b := 10) (by norm_num) (by norm_num) m
  rw [h, Text.parse?_render (by norm_num) (by norm_num)] at hm
  exact (Option.some.inj hm).symm

lemma parseOid?_render (tableId : TableId) :
    parseOid? (Text.render 10 tableId.val) = some tableId := by
  have hlt : (tableId.val : Nat) < 2 ^ 64 := tableId.val.isLt.trans (by norm_num)
  have hparse := PgLsn.parseU64?_render (b := 10) (by norm_num) (by norm_num)
    ⟨⟨tableId.val, hlt⟩⟩
  rw [PgLsn.toNat_mk] at hparse
  simp [parseOid?, hparse]

/-! ## Names and slots -/

lemma length_applyWorkerPrefix : applyWorkerPrefix.length = 18 := rfl

lemma length_tableSyncWorkerPrefix : tableSyncWorkerPrefix.length = 23 := rfl

lemma length_pipelineId_le (pipelineId : Fin (2 ^ 64)) :
    (Text.render 10 pipelineId).length ≤ 20 :=
  length_render_le (by norm_num) (by omega)

lemma stripPrefix?_append (start rest : List Char) :
    stripPrefix? start (start ++ rest) = some rest := by
  simp [stripPrefix?, List.isPrefixOf_iff_prefix]

lemma length_text_le (slot : EtlReplicationSlot) : slot.text.length ≤ maxSlotNameLength := by
  cases slot with
  | apply pipelineId =>
    have hpipeline := length_pipelineId_le pipelineId
    rw [text, List.length_append, List.length_cons, length_applyWorkerPrefix, maxSlotNameLength]
    omega
  | tableSync pipelineId tableId =>
    have hpipeline := length_pipelineId_le pipelineId
    have htable : (Text.render 10 tableId.val).length ≤ 10 :=
      length_render_le (by norm_num) (by omega)
    rw [text, List.length_append, List.length_cons, List.length_append, List.length_cons,
      length_tableSyncWorkerPrefix, maxSlotNameLength]
    omega

lemma toName_eq (slot : EtlReplicationSlot) : slot.toName = .ok slot.text := by
  rw [toName, if_neg (not_lt.2 slot.length_text_le)]

lemma tableSyncPrefix_eq (pipelineId : Fin (2 ^ 64)) : tableSyncPrefix pipelineId =
    .ok (tableSyncWorkerPrefix ++ '_' :: (Text.render 10 pipelineId ++ ['_'])) := by
  have hpipeline := length_pipelineId_le pipelineId
  rw [tableSyncPrefix, if_neg]
  rw [List.length_append, List.length_cons, List.length_append, length_tableSyncWorkerPrefix,
    maxSlotNameLength, List.length_singleton]
  omega

lemma stripPrefix?_applyWorkerPrefix (rest : List Char) :
    stripPrefix? applyWorkerPrefix (tableSyncWorkerPrefix ++ rest) = none := by
  simp [stripPrefix?, applyWorkerPrefix, tableSyncWorkerPrefix, List.isPrefixOf]

lemma ofName_text (slot : EtlReplicationSlot) : ofName slot.text = .ok slot := by
  have hunderscore : ∀ rest, stripPrefix? ['_'] ('_' :: rest) = some rest := fun rest =>
    stripPrefix?_append ['_'] rest
  cases slot with
  | apply pipelineId =>
    simp only [ofName, text, stripPrefix?_append, hunderscore, Option.bind_some,
      PgLsn.map_parseU64?_render]
  | tableSync pipelineId tableId =>
    simp only [ofName, text, stripPrefix?_applyWorkerPrefix, stripPrefix?_append, hunderscore,
      Option.bind_some, Text.rsplitOnce?_append _ (underscore_notMem _),
      PgLsn.map_parseU64?_render, parseOid?_render]

/-! ## The pattern -/

lemma like_escaped {start : List Char} (hstart : ∀ c ∈ start, c ≠ '\\' ∧ c ≠ '%')
    (cs : List Char) :
    like (start.flatMap (fun c => if c = '_' then ['\\', '_'] else [c]) ++ ['%']) cs = true ↔
      start <+: cs := by
  induction start generalizing cs with
  | nil => simp [like]
  | cons c start ih =>
    obtain ⟨hescape, hmany⟩ := hstart c List.mem_cons_self
    have hrest := fun cs => ih (fun d hd => hstart d (List.mem_cons_of_mem _ hd)) cs
    cases cs with
    | nil => by_cases hc : c = '_' <;> simp [hc, like, hescape]
    | cons d cs => by_cases hc : c = '_' <;> simp [hc, like, hescape, hrest]

lemma prefix_text_iff (p : Fin (2 ^ 64)) (slot : EtlReplicationSlot) :
    tableSyncWorkerPrefix ++ '_' :: (Text.render 10 p ++ ['_']) <+: slot.text ↔
      ∃ t, slot = .tableSync p t := by
  cases slot with
  | apply q =>
    refine ⟨fun h => ?_, nofun⟩
    -- the two kinds of names differ after `supabase_etl_`
    simp [tableSyncWorkerPrefix, applyWorkerPrefix, text] at h
  | tableSync q t =>
    rw [text, List.prefix_append_right_inj, List.cons_prefix_cons]
    constructor
    · rintro ⟨-, rest, hrest⟩
      have hcut := congrArg (Text.splitOnce? '_') hrest
      rw [List.append_assoc, List.singleton_append,
        Text.splitOnce?_append _ _ (underscore_notMem _),
        Text.splitOnce?_append _ _ (underscore_notMem _)] at hcut
      obtain ⟨hpipeline, -⟩ : Text.render 10 p = Text.render 10 q ∧ _ := by simpa using hcut
      exact ⟨t, by rw [Fin.val_injective (render_injective hpipeline)]⟩
    · rintro ⟨t', heq⟩
      obtain ⟨rfl, rfl⟩ : q = p ∧ t = t' := by simpa using heq
      exact ⟨rfl, Text.render 10 t.val, by simp⟩

lemma exists_pattern (p : Fin (2 ^ 64)) : ∃ pattern, tableSyncLikePattern p = .ok pattern ∧
    ∀ slot : EtlReplicationSlot, like pattern slot.text = true ↔ ∃ t, slot = .tableSync p t := by
  refine ⟨_, by rw [tableSyncLikePattern, tableSyncPrefix_eq]; rfl, fun slot => ?_⟩
  rw [like_escaped, prefix_text_iff]
  have hdigits : ∀ c ∈ Text.render 10 p, c ≠ '\\' ∧ c ≠ '%' := by
    intro c hc
    constructor <;> rintro rfl <;> revert hc <;>
      exact Text.notMem_render (by norm_num) (by norm_num) (by decide) _
  have hplain : (tableSyncWorkerPrefix.all fun c => c != '\\' && c != '%') = true := rfl
  intro c hc
  simp only [List.mem_append, List.mem_cons, List.not_mem_nil, or_false] at hc
  obtain hc | rfl | hc | rfl := hc
  · simpa using List.all_eq_true.1 hplain c hc
  · decide
  · exact hdigits c hc
  · decide

/-! ## The cleanup -/

lemma mem_dropLoop {selected : List Char → Bool} {name : List Char} (h : selected name = false)
    (attempts : Nat) (outcomes : List DropOutcome) {slots : List (List Char)}
    (hmem : name ∈ slots) : name ∈ (dropLoop selected attempts outcomes slots).2 := by
  induction attempts generalizing outcomes slots with
  | zero => exact hmem
  | succ attempts ih =>
    match outcomes with
    | [] => exact hmem
    | .failed dropped :: outcomes => exact ih outcomes (List.mem_filter.2 ⟨hmem, by simp [h]⟩)
    | .done :: outcomes => exact List.mem_filter.2 ⟨hmem, by simp [h]⟩

end EtlReplicationSlot

open EtlReplicationSlot

/-- Every slot has a name that is read back as the slot, the pattern of a pipeline matches the names
of its table-sync slots only, and the cleanup of a pipeline, however its attempts end, leaves every
slot of another pipeline. -/
theorem slot_names_identify_owner (p : Fin (2 ^ 64)) (slot : EtlReplicationSlot) :
    ∃ name pattern, slot.toName = .ok name ∧ ofName name = .ok slot ∧
      tableSyncLikePattern p = .ok pattern ∧
      (like pattern name = true ↔ ∃ t, slot = .tableSync p t) ∧
      ∀ outcomes slots, slot.pipelineId ≠ p → name ∈ slots →
        name ∈ (deletePipelineReplicationSlots p outcomes slots).2 := by
  obtain ⟨pattern, hpattern, hlike⟩ := exists_pattern p
  refine ⟨slot.text, pattern, slot.toName_eq, slot.ofName_text, hpattern, hlike slot,
    fun outcomes slots hother hmem => ?_⟩
  have hname : slot.text ≠ (EtlReplicationSlot.apply p).text := by
    intro heq
    have hread := slot.ofName_text
    rw [heq, ofName_text] at hread
    cases hread
    exact hother rfl
  have hnot : ¬like pattern slot.text = true := by
    rw [hlike]
    rintro ⟨t, rfl⟩
    exact hother rfl
  rw [deletePipelineReplicationSlots, toName_eq, hpattern]
  exact mem_dropLoop (by simp [isSelected, hname, hnot]) _ _ hmem

/-- Pipeline 1 leaves the slots of pipeline 11. -/
theorem slot_names_identify_owner_digits :
    (EtlReplicationSlot.tableSync 11 ⟨7⟩).text ∈
      (deletePipelineReplicationSlots 1 [.done]
        [(EtlReplicationSlot.tableSync 11 ⟨7⟩).text]).2 := by
  obtain ⟨name, pattern, hname, -, -, -, hkept⟩ :=
    slot_names_identify_owner 1 (.tableSync 11 ⟨7⟩)
  obtain rfl : (EtlReplicationSlot.tableSync 11 ⟨7⟩).text = name :=
    Except.ok.inj ((toName_eq _).symm.trans hname)
  exact hkept [.done] _ (by decide) (by simp)

end Etl
