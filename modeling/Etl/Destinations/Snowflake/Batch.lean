import Mathlib
import Etl.Destinations.Snowflake.OffsetToken

/-!
# Row batches

A batch is closed when its compressed size comes near the limit of a request. The size is known only
after a flush, once every `maxUnflushedBytes` of input or before a row that is as long.
`RowBatchBuilder.build_spec`: the batches are the pushed rows in order, each within the limit.
-/

namespace Etl.Snowflake

abbrev Bytes := List UInt8

inductive Error where
  | encoding (message : String)
deriving DecidableEq, Repr

def maxCompressedBytes : ℕ := 4 * 1024 * 1024

def batchSplitThreshold : ℕ := 3800000

def maxUnflushedBytes : ℕ := 128 * 1024

def maxUncompressedRowBytes : ℕ := 2 * 1024 * 1024

/-! ## The compressor -/

/-- The input of each block ended by a flush, and the input since. -/
structure Encoder where
  flushed : List Bytes
  pending : Bytes
deriving DecidableEq

namespace Encoder

def new : Encoder := ⟨[], []⟩

def write (e : Encoder) (data : Bytes) : Encoder := { e with pending := e.pending ++ data }

def flush (e : Encoder) : Encoder := ⟨e.flushed ++ [e.pending], []⟩

def atFlush (e : Encoder) : Encoder := ⟨e.flushed, []⟩

def input (e : Encoder) : Bytes := e.flushed.flatten ++ e.pending

@[simp] lemma input_new : new.input = [] := rfl

@[simp] lemma input_write (e : Encoder) (data : Bytes) :
    (e.write data).input = e.input ++ data := by
  simp [input, write]

@[simp] lemma input_flush (e : Encoder) : e.flush.input = e.input := by
  simp [input, flush]

@[simp] lemma atFlush_new : new.atFlush = new := rfl

@[simp] lemma atFlush_flush (e : Encoder) : e.flush.atFlush = e.flush := rfl

@[simp] lemma pending_new : new.pending = [] := rfl

@[simp] lemma pending_flush (e : Encoder) : e.flush.pending = [] := rfl

end Encoder

/-- The worst case of the compressor (`ZSTD_compressBound`). -/
def compressBound (n : ℕ) : ℕ := n + n / 256 + (128 * 1024 - n) / 2048

/-- Its output may be any function of the input and the flushes, up to the worst-case expansion of
each block. -/
structure Compressor where
  sink : Encoder → Bytes
  finish : Encoder → Bytes
  decode : Bytes → Option Bytes
  sink_new : sink .new = []
  sink_flush_le (e : Encoder) :
    (sink e.flush).length ≤ (sink e.atFlush).length + compressBound e.pending.length
  finish_le (e : Encoder) :
    (finish e).length ≤ (sink e.atFlush).length + compressBound e.pending.length
  decode_finish (e : Encoder) : decode (finish e) = some e.input

def Compressor.stored : Compressor where
  sink := Encoder.input
  finish := Encoder.input
  decode := some
  sink_new := rfl
  sink_flush_le e := by
    rw [Encoder.input_flush]
    simp only [Encoder.input, Encoder.atFlush, compressBound, List.length_append, List.length_nil]
    omega
  finish_le e := by
    simp only [Encoder.input, Encoder.atFlush, compressBound, List.length_append, List.length_nil]
    omega
  decode_finish _ := rfl

instance : Inhabited Compressor := ⟨.stored⟩

/-! ## The builder -/

structure OffsetRange where
  start : OffsetToken
  «end» : OffsetToken
deriving DecidableEq

def OffsetRange.extend (range : Option OffsetRange) (offset : OffsetToken) : OffsetRange :=
  match range with
  | some range => { range with «end» := offset }
  | none => ⟨offset, offset⟩

structure RowBatch where
  data : Bytes
  rowCount : ℕ
  offsetRange : OffsetRange
deriving DecidableEq

structure RowBatchBuilder where
  encoder : Encoder
  currentRowCount : ℕ
  currentOffsetRange : Option OffsetRange
  inputSinceFlush : ℕ
  batches : List RowBatch
deriving DecidableEq

namespace RowBatchBuilder

variable (z : Compressor)

def new : RowBatchBuilder := ⟨.new, 0, none, 0, []⟩

def compressedSize (b : RowBatchBuilder) : ℕ := (z.sink b.encoder).length

def takeCurrentOffsetRange (b : RowBatchBuilder) : Except Error (OffsetRange × RowBatchBuilder) :=
  match b.currentOffsetRange with
  | some range => .ok (range, { b with currentOffsetRange := none })
  | none => .error (.encoding "Non-empty Snowflake row batch is missing an offset range.")

def nextBatch (b : RowBatchBuilder) : Except Error RowBatchBuilder := do
  let (offsetRange, b) ← b.takeCurrentOffsetRange
  return { b with
    encoder := .new
    batches := b.batches ++ [⟨z.finish b.encoder, b.currentRowCount, offsetRange⟩]
    currentRowCount := 0
    inputSinceFlush := 0 }

def flush (b : RowBatchBuilder) : RowBatchBuilder :=
  { b with encoder := b.encoder.flush, inputSinceFlush := 0 }

def makeRoom (b : RowBatchBuilder) (len : ℕ) : Except Error RowBatchBuilder :=
  if maxUnflushedBytes ≤ b.inputSinceFlush + len then
    -- the row may be the first of its batch, and is then written whatever its size
    if 0 < b.currentRowCount ∧ batchSplitThreshold < b.flush.compressedSize z + len then
      b.flush.nextBatch z
    else .ok b.flush
  else .ok b

def append (b : RowBatchBuilder) (row : Bytes) (offset : OffsetToken) : RowBatchBuilder :=
  { b with
    encoder := b.encoder.write row
    inputSinceFlush := b.inputSinceFlush + row.length
    currentRowCount := b.currentRowCount + 1
    currentOffsetRange := some (OffsetRange.extend b.currentOffsetRange offset) }

def pushRow (b : RowBatchBuilder) (row : Bytes) (offset : OffsetToken) :
    Except Error RowBatchBuilder :=
  if maxUncompressedRowBytes < row.length then
    .error (.encoding ("single row exceeds " ++ toString maxUncompressedRowBytes ++ "B limit (" ++
      toString row.length ++ "B uncompressed)"))
  else do
    let b ← b.makeRoom z row.length
    return b.append row offset

def finish (b : RowBatchBuilder) : Except Error (List RowBatch) :=
  if 0 < b.currentRowCount then do
    let (offsetRange, b) ← b.takeCurrentOffsetRange
    let compressed := z.finish b.encoder
    if maxCompressedBytes < compressed.length then
      .error (.encoding ("compressed batch exceeds " ++ toString maxCompressedBytes ++
        "B API limit (" ++ toString compressed.length ++ "B compressed)"))
    else return b.batches ++ [⟨compressed, b.currentRowCount, offsetRange⟩]
  else .ok b.batches

def pushRows (b : RowBatchBuilder) (rows : List (Bytes × OffsetToken)) :
    Except Error RowBatchBuilder :=
  rows.foldlM (fun b row => b.pushRow z row.1 row.2) b

def build (rows : List (Bytes × OffsetToken)) : Except Error (List RowBatch) := do
  (← new.pushRows z rows).finish z

/-! ## What the builder holds -/

def rangeOf (rows : List (Bytes × OffsetToken)) : Option OffsetRange :=
  rows.head?.bind fun first => rows.getLast?.map fun last => ⟨first.2, last.2⟩

lemma rangeOf_append_singleton (rows : List (Bytes × OffsetToken)) (row : Bytes × OffsetToken) :
    rangeOf (rows ++ [row]) = some (OffsetRange.extend (rangeOf rows) row.2) := by
  cases rows with
  | nil => rfl
  | cons first rows => simp [rangeOf, OffsetRange.extend, List.getLast?_cons]

structure Holds (rows : List (Bytes × OffsetToken)) (batch : RowBatch) : Prop where
  nonempty : rows ≠ []
  data : z.decode batch.data = some (rows.map Prod.fst).flatten
  rowCount : batch.rowCount = rows.length
  range : rangeOf rows = some batch.offsetRange
  size : batch.data.length ≤ maxCompressedBytes

structure Content (b : RowBatchBuilder) (groups : List (List (Bytes × OffsetToken)))
    (current : List (Bytes × OffsetToken)) : Prop where
  batches : List.Forall₂ (Holds z) groups b.batches
  rowCount : b.currentRowCount = current.length
  range : b.currentOffsetRange = rangeOf current
  input : b.encoder.input = (current.map Prod.fst).flatten
  unflushed : b.inputSinceFlush = b.encoder.pending.length

/-- The size at the last flush is below the threshold, and the input since stays short or is counted
in. -/
structure RoomFor (b : RowBatchBuilder) (len : ℕ) : Prop where
  flushed : (z.sink b.encoder.atFlush).length ≤ batchSplitThreshold
  pending : b.encoder.pending.length + len < maxUnflushedBytes ∨
    (z.sink b.encoder.atFlush).length + b.encoder.pending.length + len ≤ batchSplitThreshold

structure Room (b : RowBatchBuilder) : Prop extends RoomFor z b 0 where
  fresh : b.currentRowCount = 0 → b.encoder = .new

lemma room_new : Room z new where
  flushed := by simp [new, z.sink_new]
  pending := .inl (by simp [new, maxUnflushedBytes])
  fresh _ := rfl

lemma content_new : Content z new [] [] :=
  ⟨.nil, rfl, rfl, rfl, rfl⟩

variable {z} {b : RowBatchBuilder} {groups : List (List (Bytes × OffsetToken))}
  {current : List (Bytes × OffsetToken)} {len : ℕ}

lemma RoomFor.compressBound_le (h : RoomFor z b len) :
    (z.sink b.encoder.atFlush).length + compressBound b.encoder.pending.length + compressBound 0 ≤
      maxCompressedBytes := by
  obtain ⟨hflushed, hpending⟩ := h
  simp only [compressBound, maxCompressedBytes, batchSplitThreshold, maxUnflushedBytes] at *
  omega

lemma Content.flush (h : Content z b groups current) :
    Content z b.flush groups current where
  batches := h.batches
  rowCount := h.rowCount
  range := h.range
  input := (Encoder.input_flush b.encoder).trans h.input
  unflushed := rfl

lemma Content.closed (h : Content z b groups current) (hne : current ≠ [])
    (hsize : (z.finish b.encoder).length ≤ maxCompressedBytes) :
    ∃ range, rangeOf current = some range ∧
      Holds z current ⟨z.finish b.encoder, b.currentRowCount, range⟩ := by
  obtain ⟨first, rest, rfl⟩ := List.exists_cons_of_ne_nil hne
  obtain ⟨last, hlast⟩ : ∃ last, (first :: rest).getLast? = some last :=
    Option.isSome_iff_exists.1 (by simp)
  refine ⟨⟨first.2, last.2⟩, by simp [rangeOf, hlast], hne, ?_, h.rowCount, by simp [rangeOf, hlast],
    hsize⟩
  rw [z.decode_finish, h.input]

lemma Content.nextBatch (h : Content z b groups current) (hne : current ≠ [])
    (hsize : (z.finish b.encoder).length ≤ maxCompressedBytes) :
    ∃ b', b.nextBatch z = .ok b' ∧ Content z b' (groups ++ [current]) [] ∧ b'.encoder = .new := by
  obtain ⟨range, hrange, hholds⟩ := h.closed hne hsize
  have htake : b.takeCurrentOffsetRange = .ok (range, { b with currentOffsetRange := none }) := by
    simp [takeCurrentOffsetRange, h.range, hrange]
  refine ⟨_, by rw [RowBatchBuilder.nextBatch, htake]; rfl, ?_, rfl⟩
  exact ⟨List.rel_append h.batches (.cons hholds .nil), rfl, rfl, rfl, rfl⟩

lemma makeRoom_spec (h : Content z b groups current) (hroom : Room z b)
    (hlen : len ≤ maxUncompressedRowBytes) :
    ∃ b' groups' current', b.makeRoom z len = .ok b' ∧ Content z b' groups' current' ∧
      groups'.flatten ++ current' = groups.flatten ++ current ∧ RoomFor z b' len := by
  have hfits := hroom.compressBound_le
  have hsink := z.sink_flush_le b.encoder
  by_cases hdue : maxUnflushedBytes ≤ b.inputSinceFlush + len
  · by_cases hsplit : 0 < b.currentRowCount ∧
        batchSplitThreshold < b.flush.compressedSize z + len
    · -- the flushed batch is closed, and the row starts a new one
      have hne : current ≠ [] := by
        rintro rfl
        simp [h.rowCount] at hsplit
      have hsize : (z.finish b.flush.encoder).length ≤ maxCompressedBytes := by
        have hfinish := z.finish_le b.encoder.flush
        simp only [Encoder.atFlush_flush, Encoder.pending_flush, List.length_nil] at hfinish
        exact hfinish.trans (by omega)
      obtain ⟨b', hb', hcontent, hnew⟩ := h.flush.nextBatch hne hsize
      refine ⟨b', groups ++ [current], [], ?_, hcontent, by simp, ?_, .inr ?_⟩
      · rw [makeRoom, if_pos hdue, if_pos hsplit, hb']
      · simp [hnew, z.sink_new]
      · simp only [hnew, Encoder.atFlush_new, Encoder.pending_new, z.sink_new, List.length_nil,
          batchSplitThreshold, maxUncompressedRowBytes] at hlen ⊢
        omega
    · refine ⟨b.flush, groups, current, ?_, h.flush, rfl, ?_⟩
      · rw [makeRoom, if_pos hdue, if_neg hsplit]
      · have hbelow : (z.sink b.encoder.flush).length + len ≤ batchSplitThreshold := by
          by_cases hrows : 0 < b.currentRowCount
          · exact not_lt.1 fun hlt => hsplit ⟨hrows, hlt⟩
          · -- nothing has been written to the new encoder
            rw [hroom.fresh (by omega)] at hsink ⊢
            simp only [Encoder.atFlush_new, Encoder.pending_new, z.sink_new, List.length_nil,
              compressBound, batchSplitThreshold, maxUncompressedRowBytes] at hsink hlen ⊢
            omega
        refine ⟨?_, .inr ?_⟩
        · exact (Nat.le_add_right _ len).trans hbelow
        · simpa [RowBatchBuilder.flush] using hbelow
  · refine ⟨b, groups, current, ?_, h, rfl, hroom.flushed, .inl ?_⟩
    · rw [makeRoom, if_neg hdue]
    · rw [← h.unflushed]
      omega

lemma Content.append (h : Content z b groups current) (row : Bytes) (offset : OffsetToken) :
    Content z (b.append row offset) groups (current ++ [(row, offset)]) where
  batches := h.batches
  rowCount := by simp [RowBatchBuilder.append, h.rowCount]
  range := by rw [rangeOf_append_singleton, ← h.range]; rfl
  input := by simp [RowBatchBuilder.append, h.input]
  unflushed := by simp [RowBatchBuilder.append, Encoder.write, h.unflushed]

lemma RoomFor.append {row : Bytes} (h : RoomFor z b row.length) (offset : OffsetToken) :
    Room z (b.append row offset) where
  flushed := h.flushed
  pending := by
    have hpending := h.pending
    simp only [RowBatchBuilder.append, Encoder.write, Encoder.atFlush, List.length_append] at *
    omega
  fresh h := absurd h (Nat.succ_ne_zero _)

lemma pushRow_spec (h : Content z b groups current) (hroom : Room z b) (row : Bytes)
    (offset : OffsetToken) (hlen : row.length ≤ maxUncompressedRowBytes) :
    ∃ b' groups' current', b.pushRow z row offset = .ok b' ∧ Content z b' groups' current' ∧
      groups'.flatten ++ current' = groups.flatten ++ current ++ [(row, offset)] ∧ Room z b' := by
  obtain ⟨b', groups', current', hb', hcontent, hrows, hroom'⟩ := makeRoom_spec h hroom hlen
  refine ⟨b'.append row offset, groups', current' ++ [(row, offset)], ?_,
    hcontent.append row offset, ?_, hroom'.append offset⟩
  · rw [pushRow, if_neg (not_lt.2 hlen), hb']
    rfl
  · rw [← List.append_assoc, hrows]

lemma pushRows_spec (h : Content z b groups current) (hroom : Room z b)
    (rows : List (Bytes × OffsetToken)) (hlen : ∀ row ∈ rows, row.1.length ≤ maxUncompressedRowBytes) :
    ∃ b' groups' current', b.pushRows z rows = .ok b' ∧ Content z b' groups' current' ∧
      groups'.flatten ++ current' = groups.flatten ++ current ++ rows ∧ Room z b' := by
  induction rows generalizing b groups current with
  | nil => exact ⟨b, groups, current, rfl, h, by simp, hroom⟩
  | cons row rows ih =>
    obtain ⟨b', groups', current', hb', hcontent, hrows, hroom'⟩ :=
      pushRow_spec h hroom row.1 row.2 (hlen row List.mem_cons_self)
    obtain ⟨b'', groups'', current'', hb'', hcontent', hrows', hroom''⟩ :=
      ih hcontent hroom' fun r hr => hlen r (List.mem_cons_of_mem _ hr)
    refine ⟨b'', groups'', current'', ?_, hcontent', ?_, hroom''⟩
    · rw [pushRows, List.foldlM_cons, hb']
      exact hb''
    · rw [hrows', hrows]
      simp

lemma finish_spec (h : Content z b groups current) (hroom : Room z b) :
    ∃ batches groups', b.finish z = .ok batches ∧ groups'.flatten = groups.flatten ++ current ∧
      List.Forall₂ (Holds z) groups' batches := by
  by_cases hne : current = []
  · subst hne
    exact ⟨b.batches, groups, by simp [RowBatchBuilder.finish, h.rowCount], by simp, h.batches⟩
  · have hfits := hroom.compressBound_le
    have hsize : (z.finish b.encoder).length ≤ maxCompressedBytes :=
      (z.finish_le b.encoder).trans (by omega)
    obtain ⟨range, hrange, hholds⟩ := h.closed hne hsize
    have hrows : 0 < b.currentRowCount := by
      rw [h.rowCount]
      exact List.length_pos_iff.2 hne
    have htake : b.takeCurrentOffsetRange = .ok (range, { b with currentOffsetRange := none }) := by
      simp [takeCurrentOffsetRange, h.range, hrange]
    refine ⟨_, groups ++ [current], ?_, by simp, List.rel_append h.batches (.cons hholds .nil)⟩
    rw [RowBatchBuilder.finish, if_pos hrows, htake]
    exact if_neg (not_lt.2 hsize)

lemma pushRows_eq_error {rows : List (Bytes × OffsetToken)} {row : Bytes × OffsetToken}
    (h : Content z b groups current) (hroom : Room z b) (hrow : row ∈ rows)
    (hlen : maxUncompressedRowBytes < row.1.length) : ∃ e, b.pushRows z rows = .error e := by
  induction rows generalizing b groups current with
  | nil => cases hrow
  | cons first rows ih =>
    by_cases hfirst : maxUncompressedRowBytes < first.1.length
    · obtain ⟨e, he⟩ : ∃ e, b.pushRow z first.1 first.2 = .error e :=
        ⟨_, by rw [pushRow, if_pos hfirst]⟩
      refine ⟨e, ?_⟩
      rw [pushRows, List.foldlM_cons, he]
      rfl
    · obtain ⟨b', groups', current', hb', hcontent, -, hroom'⟩ :=
        pushRow_spec h hroom first.1 first.2 (not_lt.1 hfirst)
      have hrest : row ∈ rows := by
        obtain rfl | hrest := List.mem_cons.1 hrow
        · exact absurd hlen hfirst
        · exact hrest
      obtain ⟨e, he⟩ := ih hcontent hroom' hrest
      refine ⟨e, ?_⟩
      rw [pushRows, List.foldlM_cons, hb']
      exact he

variable (z) in
/-- For every sequence of rows, either one of them is too long and the sequence is refused, or the
batches are made and hold the rows in order, none of them empty or beyond the request limit. -/
theorem build_spec (rows : List (Bytes × OffsetToken)) :
    ((∃ row ∈ rows, maxUncompressedRowBytes < row.1.length) ∧ ∃ e, build z rows = .error e) ∨
      ((∀ row ∈ rows, row.1.length ≤ maxUncompressedRowBytes) ∧
        ∃ batches groups, build z rows = .ok batches ∧ groups.flatten = rows ∧
          List.Forall₂ (Holds z) groups batches) := by
  by_cases hlong : ∃ row ∈ rows, maxUncompressedRowBytes < row.1.length
  · obtain ⟨row, hrow, hlen⟩ := hlong
    obtain ⟨e, he⟩ := pushRows_eq_error (content_new z) (room_new z) hrow hlen
    refine .inl ⟨⟨row, hrow, hlen⟩, e, ?_⟩
    rw [build, he]
    rfl
  · have hshort : ∀ row ∈ rows, row.1.length ≤ maxUncompressedRowBytes := fun row hrow =>
      not_lt.1 fun hlen => hlong ⟨row, hrow, hlen⟩
    obtain ⟨b, groups, current, hb, hcontent, hrows, hroom⟩ :=
      pushRows_spec (content_new z) (room_new z) rows hshort
    obtain ⟨batches, groups', hbatches, hrows', hholds⟩ := finish_spec hcontent hroom
    refine .inr ⟨hshort, batches, groups', ?_, by simpa [hrows] using hrows', hholds⟩
    rw [build, hb]
    exact hbatches

end RowBatchBuilder

end Etl.Snowflake
