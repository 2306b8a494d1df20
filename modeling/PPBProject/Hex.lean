import PPBProject.Protocol
import PPBProject.Lib.Chunks

/- `FirmwareUpdater`: which Intel HEX files are accepted, and what is made of them. The
   records are checked one by one; their addresses are not interpreted, and the data bytes
   are taken in file order, cut into blocks of at most sixteen.

   A line is a list of characters. (`QString` counts UTF-16 units, which makes a difference
   only to lines that are rejected either way.)

   Correspondence (C++ ↔ Lean):
     `QString::trimmed`, `QChar::isSpace`        ↔ `trimmed`, `isSpace`
     `QByteArray::fromHex` of hexadecimal digits ↔ `fromHex`
     a record out of `parseHexRecord`            ↔ `HexRecord`
     `dataBlocks`, `eofSeen`, `dataSeen`         ↔ the fields of `HexState`
     a file that cannot be opened                ↔ `none`
   The warnings and the line numbers in them are left out. -/
namespace PPB

abbrev Line := List Char

/-- `QChar::isSpace`: separators and the control characters that are white space. -/
def isSpace (ch : Char) : Bool :=
  let code := ch.toNat
  code = 0x20 ∨ (0x09 ≤ code ∧ code ≤ 0x0d) ∨ code = 0x85 ∨ code = 0xa0 ∨ code = 0x1680 ∨
    (0x2000 ≤ code ∧ code ≤ 0x200a) ∨ code = 0x2028 ∨ code = 0x2029 ∨ code = 0x202f ∨
    code = 0x205f ∨ code = 0x3000

def trimmed (line : Line) : Line :=
  ((line.dropWhile isSpace).reverse.dropWhile isSpace).reverse

/-- `[0-9A-Fa-f]`. -/
def isHexDigit (ch : Char) : Bool :=
  ('0' ≤ ch ∧ ch ≤ '9') ∨ ('A' ≤ ch ∧ ch ≤ 'F') ∨ ('a' ≤ ch ∧ ch ≤ 'f')

def hexValue (ch : Char) : UInt8 :=
  if ch ≤ '9' then (ch.toNat - '0'.toNat).toUInt8
  else if ch ≤ 'F' then (ch.toNat - 'A'.toNat + 10).toUInt8
  else (ch.toNat - 'a'.toNat + 10).toUInt8

def fromHex : List Char → Bytes
  | high :: low :: rest => (hexValue high <<< 4 ||| hexValue low) :: fromHex rest
  | _ => []

structure HexRecord where
  recordAddress : UInt16
  recordType : UInt8
  recordData : Bytes

def parseHexRecord : Line → Option HexRecord
  | ':' :: hex =>
    if hex.length < 10 ∨ hex.length % 2 ≠ 0 then none
    else if !hex.all isHexDigit then none
    else
      match fromHex hex with
      | byteCount :: high :: low :: recordType :: rest =>
        let record := byteCount :: high :: low :: recordType :: rest
        -- count, address, type, data, checksum
        if record.length < 5 then none
        else if record.length ≠ byteCount.toNat + 5 then none
        else if record.foldl (· + ·) 0 ≠ 0 then none
        else some {
          recordAddress := fromBigEndian high low
          recordType
          recordData := rest.take byteCount.toNat }
      | _ => none
  | _ => none

def requireControlRecord (record : HexRecord) (expectedDataSize : Nat) : Bool :=
  record.recordAddress = 0 ∧ record.recordData.length = expectedDataSize

structure HexState where
  dataBlocks : List Bytes := []
  eofSeen : Bool := false
  dataSeen : Bool := false

/-- The loop that appends `recordData` in pieces of at most sixteen bytes. -/
def appendBlocks : Nat → List Bytes → Bytes → List Bytes
  | 0, dataBlocks, _ => dataBlocks
  | n + 1, dataBlocks, recordData =>
    if recordData = [] then dataBlocks
    else appendBlocks n (dataBlocks ++ [recordData.take 16]) (recordData.drop 16)

/-- The `switch` on the record type. -/
def takeRecord (st : HexState) (record : HexRecord) : Option HexState :=
  if record.recordType = 0x00 then
    if record.recordData = [] then some st
    else some { st with
      dataBlocks := appendBlocks record.recordData.length st.dataBlocks record.recordData
      dataSeen := true }
  else if record.recordType = 0x01 then
    if requireControlRecord record 0 then some { st with eofSeen := true } else none
  else if record.recordType = 0x02 then
    if requireControlRecord record 2 then some st else none
  else if record.recordType = 0x03 then
    if requireControlRecord record 4 then some st else none
  else if record.recordType = 0x04 then
    if requireControlRecord record 2 then some st else none
  else if record.recordType = 0x05 then
    if requireControlRecord record 4 then some st else none
  else none

/-- One turn of the reading loop; `none` where the blocks are cleared and returned. -/
def parseLine (st : HexState) (line : Line) : Option HexState :=
  let line := trimmed line
  if line = [] then some st
  -- nothing may follow the end-of-file record
  else if st.eofSeen then none
  else (parseHexRecord line).bind (takeRecord st)

namespace FirmwareUpdater

def parseHexToDataBlocks (file : Option (List Line)) : List Bytes :=
  match file with
  | none => []
  | some lines =>
    match lines.foldlM parseLine {} with
    | none => []
    | some st =>
      if !st.eofSeen then []
      else if !st.dataSeen ∨ st.dataBlocks = [] then []
      else st.dataBlocks

/-- The legacy layout: up to 64 blocks make a VOLUME payload. -/
def buildVolumePayloads (dataBlocks : List Bytes) : List Bytes :=
  let numVolumes := (dataBlocks.length + 64 - 1) / 64
  (List.range numVolumes).map fun volIdx =>
    let startIdx := volIdx * 64
    ((dataBlocks.drop startIdx).take (min (startIdx + 64) dataBlocks.length - startIdx)).flatten

end FirmwareUpdater

/-! What is accepted, told without the parser. -/

/-- The bytes of a record line: an even number of at least ten hexadecimal digits after the colon. -/
def RecordBytes (line : Line) (bytes : Bytes) : Prop :=
  ∃ hex, line = ':' :: hex ∧ hex.length % 2 = 0 ∧ 10 ≤ hex.length ∧
    (∀ ch ∈ hex, isHexDigit ch = true) ∧ bytes = fromHex hex

/-- The bytes of a record: count, address, type, data and checksum. -/
structure HexImage where
  byteCount : UInt8
  addressHigh : UInt8
  addressLow : UInt8
  recordType : UInt8
  data : Bytes
  checksum : UInt8

def HexImage.bytes (r : HexImage) : Bytes :=
  [r.byteCount, r.addressHigh, r.addressLow, r.recordType] ++ r.data ++ [r.checksum]

/-- How many data bytes a control record has. -/
def controlSize (recordType : UInt8) : Nat :=
  if recordType = 2 ∨ recordType = 4 then 2
  else if recordType = 3 ∨ recordType = 5 then 4
  else 0

/-- The line is a record of one of the six types. -/
structure IsRecord (line : Line) (r : HexImage) : Prop where
  bytes : RecordBytes line r.bytes
  count : r.byteCount.toNat + 5 = r.bytes.length
  checksum : (r.bytes.map UInt8.toNat).sum % 256 = 0
  type : r.recordType.toNat ≤ 5
  control : r.recordType ≠ 0 → r.addressHigh = 0 ∧ r.addressLow = 0 ∧
    r.data.length = controlSize r.recordType

/-- The lines that are not blank, trimmed. -/
def recordLines (lines : List Line) : List Line := (lines.map trimmed).filter (· ≠ [])

def IsEof (r : HexImage) : Prop := r.recordType = 1

/-- The lines are the records `rs`, the last of which ends the file and no earlier one does. -/
structure IsHexFile (lines : List Line) (rs : List HexImage) : Prop where
  records : List.Forall₂ IsRecord (recordLines lines) rs
  eof : ∃ body last, rs = body ++ [last] ∧ IsEof last ∧ ∀ r ∈ body, ¬ IsEof r

/-- The data bytes of the file, one list for each data record. -/
def imageData (rs : List HexImage) : List Bytes :=
  (rs.filter (·.recordType = 0)).map HexImage.data

/-! The bytes of a record line. -/

theorem toNat_foldl_add (bytes : Bytes) (start : UInt8) :
    (bytes.foldl (· + ·) start).toNat = (start.toNat + (bytes.map UInt8.toNat).sum) % 256 := by
  induction bytes generalizing start with
  | nil =>
    have hlt := start.toNat_lt
    simp only [List.foldl_nil, List.map_nil, List.sum_nil]
    omega
  | cons byte bytes ih =>
    rw [List.foldl_cons, ih, List.map_cons, List.sum_cons, UInt8.toNat_add]
    omega

/-- The eight-bit checksum is zero exactly if the sum is a multiple of 256. -/
theorem foldl_add_eq_zero_iff (bytes : Bytes) :
    bytes.foldl (· + ·) 0 = 0 ↔ (bytes.map UInt8.toNat).sum % 256 = 0 := by
  rw [← UInt8.toNat_inj, toNat_foldl_add]
  simp

/-- The line is a record, of whatever type. -/
structure IsFramed (line : Line) (r : HexImage) : Prop where
  bytes : RecordBytes line r.bytes
  count : r.byteCount.toNat + 5 = r.bytes.length
  checksum : (r.bytes.map UInt8.toNat).sum % 256 = 0

/-- What `parseHexRecord` hands back of the record. -/
def HexImage.record (r : HexImage) : HexRecord where
  recordAddress := fromBigEndian r.addressHigh r.addressLow
  recordType := r.recordType
  recordData := r.data

@[simp] theorem HexImage.record_recordType (r : HexImage) : r.record.recordType = r.recordType :=
  rfl

@[simp] theorem HexImage.record_recordData (r : HexImage) : r.record.recordData = r.data :=
  rfl

theorem IsFramed.length_data {line : Line} {r : HexImage} (h : IsFramed line r) :
    r.data.length = r.byteCount.toNat := by
  have hcount := h.count
  simp only [HexImage.bytes, List.length_append, List.length_cons, List.length_nil] at hcount
  omega

/-- A framed line is read as its record. -/
theorem IsFramed.parseHexRecord {line : Line} {r : HexImage} (h : IsFramed line r) :
    parseHexRecord line = some r.record := by
  have hdata := h.length_data
  obtain ⟨hex, hline, heven, hten, hdigits, hbytes⟩ := h.bytes
  have hform : fromHex hex =
      r.byteCount :: r.addressHigh :: r.addressLow :: r.recordType :: (r.data ++ [r.checksum]) :=
    hbytes.symm
  have hsum : (r.byteCount :: r.addressHigh :: r.addressLow :: r.recordType ::
      (r.data ++ [r.checksum])).foldl (· + ·) 0 = 0 :=
    (foldl_add_eq_zero_iff r.bytes).mpr h.checksum
  have hshape : ¬ (hex.length < 10 ∨ hex.length % 2 ≠ 0) := by omega
  have hall : (!hex.all isHexDigit) = false := by simpa using hdigits
  rw [hline]
  simp only [PPB.parseHexRecord, hform, hsum, hdata, hall, if_neg hshape, List.length_cons,
    List.length_append, List.length_nil]
  simp [HexImage.record, ← hdata]

/-- What is read is the record of a framed line. -/
theorem parseHexRecord_eq_some {line : Line} {record : HexRecord}
    (h : parseHexRecord line = some record) : ∃ r, IsFramed line r ∧ record = r.record := by
  unfold parseHexRecord at h
  split at h
  case h_2 => cases h
  case h_1 hex =>
    by_cases hshape : hex.length < 10 ∨ hex.length % 2 ≠ 0
    · rw [if_pos hshape] at h
      cases h
    by_cases hall : (!hex.all isHexDigit) = true
    · rw [if_neg hshape, if_pos hall] at h
      cases h
    rw [if_neg hshape, if_neg hall] at h
    split at h
    case h_2 => cases h
    case h_1 byteCount high low recordType rest hform =>
      simp only [Option.ite_none_left_eq_some, Option.some.injEq] at h
      obtain ⟨hfive, hcount, hsum, hrecord⟩ := h
      rw [List.length_cons, List.length_cons, List.length_cons, List.length_cons] at hfive hcount
      -- the last of the bytes is the checksum
      obtain hnil | ⟨data, checksum, hrest⟩ := List.eq_nil_or_concat rest
      · rw [hnil, List.length_nil] at hfive
        omega
      rw [List.concat_eq_append] at hrest
      subst hrest
      rw [List.length_append, List.length_singleton] at hcount
      refine ⟨⟨byteCount, high, low, recordType, data, checksum⟩, ?_, ?_⟩
      · constructor
        · refine ⟨hex, rfl, by omega, by omega, by simpa using hall, ?_⟩
          rw [hform]
          rfl
        · simp only [HexImage.bytes, List.length_append, List.length_cons, List.length_nil]
          omega
        · exact (foldl_add_eq_zero_iff _).mp (not_not.mp hsum)
      · have htake : (data ++ [checksum]).take byteCount.toNat = data := by
          have hlength : byteCount.toNat = data.length := by omega
          rw [hlength, List.take_left]
        rw [← hrecord, htake]
        rfl

/-! One line. -/

theorem appendBlocks_eq (blocks : List Bytes) (n : Nat) (data : Bytes) (h : data.length ≤ n) :
    appendBlocks n blocks data = blocks ++ Chunks.chunk 16 data := by
  induction n generalizing blocks data with
  | zero =>
    have hnil : data = [] := List.eq_nil_of_length_eq_zero (by omega)
    rw [hnil, Chunks.chunk_nil (by omega), List.append_nil]
    rfl
  | succ n ih =>
    by_cases hnil : data = []
    · rw [hnil, Chunks.chunk_nil (by omega), List.append_nil]
      rfl
    · have hpos : 0 < data.length := List.length_pos_of_ne_nil hnil
      have hrest : (data.drop 16).length ≤ n := by
        rw [List.length_drop]
        omega
      rw [appendBlocks, if_neg hnil, ih _ _ hrest, Chunks.chunk_of_ne_nil (by omega) hnil,
        List.append_assoc]
      rfl

/-- What a record adds to what has been read. -/
def HexState.after (st : HexState) (r : HexImage) : HexState where
  dataBlocks := st.dataBlocks ++ if r.recordType = 0 then Chunks.chunk 16 r.data else []
  eofSeen := st.eofSeen || r.recordType = 1
  dataSeen := st.dataSeen || (r.recordType = 0 && r.data ≠ [])

/-- The record has one of the six types, and a control record has address 0 and its size. -/
def HexImage.Admitted (r : HexImage) : Prop :=
  r.recordType.toNat ≤ 5 ∧
    (r.recordType ≠ 0 → r.addressHigh = 0 ∧ r.addressLow = 0 ∧
      r.data.length = controlSize r.recordType)

theorem fromBigEndian_eq_zero_iff (high low : UInt8) :
    fromBigEndian high low = 0 ↔ high = 0 ∧ low = 0 := by
  rw [← UInt16.toNat_inj, toNat_fromBigEndian, ← UInt8.toNat_inj, ← UInt8.toNat_inj]
  show high.toNat * 256 + low.toNat = 0 ↔ high.toNat = 0 ∧ low.toNat = 0
  omega

theorem requireControlRecord_iff (r : HexImage) (size : Nat) :
    requireControlRecord r.record size = true ↔
      r.addressHigh = 0 ∧ r.addressLow = 0 ∧ r.data.length = size := by
  simp [requireControlRecord, HexImage.record, fromBigEndian_eq_zero_iff, and_assoc]

/-- Only data and the end-of-file record leave a trace. -/
theorem HexState.after_eq_self {st : HexState} {r : HexImage} (hdata : r.recordType ≠ 0)
    (heof : r.recordType ≠ 1) : st.after r = st := by
  simp [HexState.after, hdata, heof]

theorem takeRecord_eq_some_iff {st st' : HexState} {r : HexImage} :
    takeRecord st r.record = some st' ↔ r.Admitted ∧ st' = st.after r := by
  have hcontrol (size : Nat) (next : HexState) (hne : r.recordType ≠ 0)
      (hfive : r.recordType.toNat ≤ 5) (hsize : size = controlSize r.recordType) :
      (if requireControlRecord r.record size then some next else none) = some st' ↔
        r.Admitted ∧ st' = next := by
    rw [Option.ite_none_right_eq_some, requireControlRecord_iff, Option.some_inj, hsize]
    constructor
    · intro ⟨hrecord, hnext⟩
      exact ⟨⟨hfive, fun _ => hrecord⟩, hnext.symm⟩
    · intro ⟨⟨_, hrecord⟩, hnext⟩
      exact ⟨hrecord hne, hnext.symm⟩
  unfold takeRecord
  rw [HexImage.record_recordType, HexImage.record_recordData]
  by_cases h0 : r.recordType = 0
  · have hadmitted : r.Admitted := ⟨by simp [h0], fun hne => absurd h0 hne⟩
    rw [if_pos h0]
    by_cases hnil : r.data = []
    · rw [if_pos hnil]
      have hafter : st.after r = st := by simp [HexState.after, h0, hnil, Chunks.chunk_nil]
      rw [hafter]
      simp [hadmitted, eq_comm]
    · rw [if_neg hnil, appendBlocks_eq _ _ _ le_rfl]
      have hafter : st.after r =
          { st with dataBlocks := st.dataBlocks ++ Chunks.chunk 16 r.data, dataSeen := true } := by
        simp [HexState.after, h0, hnil]
      rw [hafter]
      simp [hadmitted, eq_comm]
  · rw [if_neg h0]
    by_cases h1 : r.recordType = 1
    · rw [if_pos h1, hcontrol 0 _ h0 (by simp [h1]) (by rw [h1]; rfl)]
      have hafter : st.after r = { st with eofSeen := true } := by simp [HexState.after, h1]
      rw [hafter]
    rw [if_neg h1, HexState.after_eq_self h0 h1]
    by_cases h2 : r.recordType = 2
    · rw [if_pos h2, hcontrol 2 st h0 (by simp [h2]) (by rw [h2]; rfl)]
    by_cases h3 : r.recordType = 3
    · rw [if_neg h2, if_pos h3, hcontrol 4 st h0 (by simp [h3]) (by rw [h3]; rfl)]
    by_cases h4 : r.recordType = 4
    · rw [if_neg h2, if_neg h3, if_pos h4, hcontrol 2 st h0 (by simp [h4]) (by rw [h4]; rfl)]
    by_cases h5 : r.recordType = 5
    · rw [if_neg h2, if_neg h3, if_neg h4, if_pos h5,
        hcontrol 4 st h0 (by simp [h5]) (by rw [h5]; rfl)]
    rw [if_neg h2, if_neg h3, if_neg h4, if_neg h5]
    have hlarge : ¬ r.recordType.toNat ≤ 5 := by
      rw [← UInt8.toNat_inj] at h0 h1 h2 h3 h4 h5
      simp only [UInt8.toNat_ofNat] at h0 h1 h2 h3 h4 h5
      omega
    simp [HexImage.Admitted, hlarge]

theorem isRecord_iff {line : Line} {r : HexImage} :
    IsRecord line r ↔ IsFramed line r ∧ r.Admitted := by
  constructor
  · intro h
    exact ⟨⟨h.bytes, h.count, h.checksum⟩, h.type, h.control⟩
  · intro ⟨hframed, htype, hcontrol⟩
    exact ⟨hframed.bytes, hframed.count, hframed.checksum, htype, hcontrol⟩

/-- A line that is not blank is accepted if it is a record and none before it ended the file. -/
theorem parseLine_eq_some_iff {st st' : HexState} {line : Line} (hblank : trimmed line ≠ []) :
    parseLine st line = some st' ↔
      st.eofSeen = false ∧ ∃ r, IsRecord (trimmed line) r ∧ st' = st.after r := by
  simp only [parseLine, if_neg hblank, Option.ite_none_left_eq_some, Bool.not_eq_true,
    Option.bind_eq_some_iff]
  apply and_congr_right
  intro _
  constructor
  · intro ⟨record, hrecord, htake⟩
    obtain ⟨r, hframed, rfl⟩ := parseHexRecord_eq_some hrecord
    obtain ⟨hadmitted, hafter⟩ := takeRecord_eq_some_iff.mp htake
    exact ⟨r, isRecord_iff.mpr ⟨hframed, hadmitted⟩, hafter⟩
  · intro ⟨r, hr, hafter⟩
    obtain ⟨hframed, hadmitted⟩ := isRecord_iff.mp hr
    exact ⟨r.record, hframed.parseHexRecord, takeRecord_eq_some_iff.mpr ⟨hadmitted, hafter⟩⟩

/-! The lines of a file. -/

theorem recordLines_cons_blank {line : Line} (h : trimmed line = []) (lines : List Line) :
    recordLines (line :: lines) = recordLines lines := by
  simp [recordLines, h]

theorem recordLines_cons {line : Line} (h : trimmed line ≠ []) (lines : List Line) :
    recordLines (line :: lines) = trimmed line :: recordLines lines := by
  simp [recordLines, h]

/-- The records can follow what has been read: after the end of the file there is none. -/
def Follows (st : HexState) (rs : List HexImage) : Prop :=
  (st.eofSeen = true → rs = []) ∧ rs.Pairwise fun r _ => ¬ IsEof r

theorem follows_cons_iff {st : HexState} {r : HexImage} {rs : List HexImage} :
    Follows st (r :: rs) ↔ st.eofSeen = false ∧ Follows (st.after r) rs := by
  have heof : (st.after r).eofSeen = true ↔ st.eofSeen = true ∨ IsEof r := by
    simp [HexState.after, IsEof]
  unfold Follows
  rw [List.pairwise_cons, heof]
  constructor
  · intro ⟨hseen, hbody, hrest⟩
    have hopen : ¬ st.eofSeen = true := fun hend => List.cons_ne_nil r rs (hseen hend)
    refine ⟨(Bool.not_eq_true _).mp hopen, ?_, hrest⟩
    intro hend
    cases rs with
    | nil => rfl
    | cons next rest => exact absurd (hend.resolve_left hopen) (hbody next (by simp))
  · intro ⟨hopen, hseen, hrest⟩
    refine ⟨fun hend => ?_, fun next hnext hend => ?_, hrest⟩
    · rw [hopen] at hend
      cases hend
    · rw [hseen (Or.inr hend)] at hnext
      cases hnext

/-- The lines are read through exactly if they are records that can follow. -/
theorem foldlM_parseLine_eq_some_iff {lines : List Line} {st st' : HexState} :
    lines.foldlM parseLine st = some st' ↔
      ∃ rs, List.Forall₂ IsRecord (recordLines lines) rs ∧ Follows st rs ∧
        st' = rs.foldl HexState.after st := by
  induction lines generalizing st with
  | nil =>
    constructor
    · intro h
      cases h
      exact ⟨[], List.Forall₂.nil, ⟨fun _ => rfl, List.Pairwise.nil⟩, rfl⟩
    · intro ⟨rs, hrecords, _, hst'⟩
      cases hrecords
      rw [hst']
      rfl
  | cons line lines ih =>
    rw [List.foldlM_cons]
    by_cases hblank : trimmed line = []
    · have hskip : parseLine st line = some st := by simp [parseLine, hblank]
      rw [hskip, recordLines_cons_blank hblank]
      exact ih
    · rw [recordLines_cons hblank]
      show (parseLine st line).bind _ = _ ↔ _
      rw [Option.bind_eq_some_iff]
      constructor
      · intro ⟨next, hline, hrest⟩
        obtain ⟨hopen, r, hr, rfl⟩ := (parseLine_eq_some_iff hblank).mp hline
        obtain ⟨rs, hrecords, hfollows, hst'⟩ := ih.mp hrest
        exact ⟨r :: rs, hrecords.cons hr, follows_cons_iff.mpr ⟨hopen, hfollows⟩, hst'⟩
      · intro ⟨rs, hrecords, hfollows, hst'⟩
        cases hrecords with
        | cons hr hrecords =>
          obtain ⟨hopen, hfollows⟩ := follows_cons_iff.mp hfollows
          exact ⟨_, (parseLine_eq_some_iff hblank).mpr ⟨hopen, _, hr, rfl⟩,
            ih.mpr ⟨_, hrecords, hfollows, hst'⟩⟩

/-! The whole file. -/

theorem dataBlocks_foldl_after (rs : List HexImage) (st : HexState) :
    (rs.foldl HexState.after st).dataBlocks =
      st.dataBlocks ++ (imageData rs).flatMap (Chunks.chunk 16) := by
  induction rs generalizing st with
  | nil => simp [imageData]
  | cons r rs ih =>
    rw [List.foldl_cons, ih]
    by_cases hdata : r.recordType = 0 <;> simp [HexState.after, imageData, hdata]

theorem eofSeen_foldl_after (rs : List HexImage) (st : HexState) :
    (rs.foldl HexState.after st).eofSeen = true ↔ st.eofSeen = true ∨ ∃ r ∈ rs, IsEof r := by
  induction rs generalizing st with
  | nil => simp
  | cons r rs ih =>
    rw [List.foldl_cons, ih]
    simp [HexState.after, IsEof, or_assoc]

theorem dataSeen_foldl_after (rs : List HexImage) (st : HexState) :
    (rs.foldl HexState.after st).dataSeen = true ↔
      st.dataSeen = true ∨ ∃ data ∈ imageData rs, data ≠ [] := by
  induction rs generalizing st with
  | nil => simp [imageData]
  | cons r rs ih =>
    rw [List.foldl_cons, ih]
    by_cases hdata : r.recordType = 0 <;> simp [HexState.after, imageData, hdata, or_assoc]

/-- One end-of-file record, and in the last place. -/
theorem eof_last_iff {rs : List HexImage} :
    (∃ body last, rs = body ++ [last] ∧ IsEof last ∧ ∀ r ∈ body, ¬ IsEof r) ↔
      Follows {} rs ∧ ∃ r ∈ rs, IsEof r := by
  constructor
  · intro ⟨body, last, hrs, heof, hbody⟩
    refine ⟨⟨fun h => Bool.noConfusion h, ?_⟩, last, by simp [hrs], heof⟩
    rw [hrs, List.pairwise_append]
    refine ⟨?_, List.pairwise_singleton _ _, fun r hr _ _ => hbody r hr⟩
    exact List.pairwise_of_forall_mem_list fun r hr _ _ => hbody r hr
  · intro ⟨⟨_, hpairwise⟩, r, hr, heof⟩
    obtain hnil | ⟨body, last, hrs⟩ := List.eq_nil_or_concat rs
    · rw [hnil] at hr
      cases hr
    rw [List.concat_eq_append] at hrs
    rw [hrs, List.pairwise_append] at hpairwise
    obtain ⟨_, _, hearlier⟩ := hpairwise
    have hbody : ∀ r ∈ body, ¬ IsEof r := fun r hr => hearlier r hr last (by simp)
    refine ⟨body, last, hrs, ?_, hbody⟩
    rw [hrs, List.mem_append, List.mem_singleton] at hr
    rcases hr with hr | hlast
    · exact absurd heof (hbody r hr)
    · rw [← hlast]
      exact heof

namespace FirmwareUpdater

/-- The blocks of a file, the data records cut up one by one. -/
theorem parseHexToDataBlocks_of_isHexFile {lines : List Line} {rs : List HexImage}
    (h : IsHexFile lines rs) :
    parseHexToDataBlocks (some lines) = (imageData rs).flatMap (Chunks.chunk 16) := by
  obtain ⟨hfollows, heof⟩ := eof_last_iff.mp h.eof
  have hread : lines.foldlM parseLine {} = some (rs.foldl HexState.after {}) :=
    foldlM_parseLine_eq_some_iff.mpr ⟨rs, h.records, hfollows, rfl⟩
  have hend := (eofSeen_foldl_after rs {}).mpr (Or.inr heof)
  have hblocks := dataBlocks_foldl_after rs {}
  have hseen := dataSeen_foldl_after rs {}
  simp only [parseHexToDataBlocks, hread, hend, Bool.not_true, Bool.false_eq_true, if_false]
  split
  case isFalse => exact hblocks
  case isTrue hempty =>
    -- without data there are no blocks either
    rcases hempty with hnone | hnil
    · symm
      rw [List.flatMap_eq_nil_iff]
      intro data hdata
      by_contra hchunks
      have hsome : data ≠ [] := fun hnil => hchunks (by rw [hnil, Chunks.chunk_nil (by omega)])
      rw [hseen.mpr (Or.inr ⟨data, hdata, hsome⟩)] at hnone
      cases hnone
    · rw [← hnil]
      exact hblocks

/-- The blocks put together are the data of the file. -/
theorem flatten_parseHexToDataBlocks {lines : List Line} {rs : List HexImage}
    (h : IsHexFile lines rs) :
    (parseHexToDataBlocks (some lines)).flatten = (imageData rs).flatten := by
  rw [parseHexToDataBlocks_of_isHexFile h, List.flatMap_def, List.flatten_flatten, List.map_map]
  congr 1
  calc (imageData rs).map (List.flatten ∘ Chunks.chunk 16)
      = (imageData rs).map id :=
        List.map_congr_left fun data _ => Chunks.flatten_chunk (by omega) data
    _ = imageData rs := List.map_id _

theorem length_of_mem_parseHexToDataBlocks {lines : List Line} {rs : List HexImage}
    (h : IsHexFile lines rs) :
    ∀ block ∈ parseHexToDataBlocks (some lines), 1 ≤ block.length ∧ block.length ≤ 16 := by
  intro block hblock
  rw [parseHexToDataBlocks_of_isHexFile h, List.mem_flatMap] at hblock
  obtain ⟨data, -, hmem⟩ := hblock
  exact Chunks.of_mem_chunk (by omega) data block hmem

/-- Only a file of records has blocks. -/
theorem isHexFile_of_ne_nil {lines : List Line} (h : parseHexToDataBlocks (some lines) ≠ []) :
    ∃ rs, IsHexFile lines rs := by
  cases hread : lines.foldlM parseLine {} with
  | none => simp [parseHexToDataBlocks, hread] at h
  | some st =>
    obtain ⟨rs, hrecords, hfollows, rfl⟩ := foldlM_parseLine_eq_some_iff.mp hread
    have hend : (rs.foldl HexState.after {}).eofSeen = true := by
      by_contra hopen
      simp [parseHexToDataBlocks, hread, hopen] at h
    have heof := ((eofSeen_foldl_after rs {}).mp hend).resolve_left Bool.noConfusion
    exact ⟨rs, hrecords, eof_last_iff.mpr ⟨hfollows, heof⟩⟩

/-- A file is accepted exactly if it is made of well-formed records, the end-of-file record
    last and only there, and some data record carries data; every other file gives nothing.
    The blocks of an accepted file are the data of its data records in file order, each cut
    into pieces of at most sixteen bytes. -/
theorem parseHexToDataBlocks_spec (lines : List Line) :
    let blocks := parseHexToDataBlocks (some lines)
    (blocks ≠ [] ↔ ∃ rs, IsHexFile lines rs ∧ ∃ data ∈ imageData rs, data ≠ []) ∧
      ∀ rs, IsHexFile lines rs → blocks.flatten = (imageData rs).flatten ∧
        (∀ block ∈ blocks, 1 ≤ block.length ∧ block.length ≤ 16) ∧
        ∃ parts : List (List Bytes), blocks = parts.flatten ∧
          List.Forall₂ (fun data part => part.flatten = data ∧
            part.length = (data.length + 16 - 1) / 16) (imageData rs) parts := by
  intro blocks
  constructor
  · constructor
    · intro hne
      obtain ⟨rs, hfile⟩ := isHexFile_of_ne_nil hne
      refine ⟨rs, hfile, ?_⟩
      by_contra hnodata
      apply hne
      show parseHexToDataBlocks (some lines) = []
      rw [parseHexToDataBlocks_of_isHexFile hfile, List.flatMap_eq_nil_iff]
      intro data hdata
      have hnil : data = [] := by
        by_contra hsome
        exact hnodata ⟨data, hdata, hsome⟩
      rw [hnil, Chunks.chunk_nil (by omega)]
    · intro ⟨rs, hfile, data, hdata, hsome⟩ hnil
      have hall : (imageData rs).flatMap (Chunks.chunk 16) = [] := by
        rw [← parseHexToDataBlocks_of_isHexFile hfile]
        exact hnil
      have hchunks := List.flatMap_eq_nil_iff.mp hall data hdata
      exact hsome ((Chunks.chunk_eq_nil_iff (by omega)).mp hchunks)
  · intro rs hfile
    have hblocks : blocks = ((imageData rs).map (Chunks.chunk 16)).flatten := by
      rw [← List.flatMap_def]
      exact parseHexToDataBlocks_of_isHexFile hfile
    refine ⟨flatten_parseHexToDataBlocks hfile, length_of_mem_parseHexToDataBlocks hfile,
      (imageData rs).map (Chunks.chunk 16), hblocks, ?_⟩
    rw [List.forall₂_map_right_iff, List.forall₂_same]
    intro data _
    exact ⟨Chunks.flatten_chunk (by omega) data, Chunks.length_chunk 16 data⟩

-- an extended linear address, a blank line, one byte of data and the end of the file
example : parseHexToDataBlocks (some [":020000040800F2".toList, " ".toList,
    ":0100000001FE ".toList, ":00000001FF".toList]) = [[1]] := by
  decide

/-! The payloads. -/

theorem buildVolumePayloads_eq (dataBlocks : List Bytes) :
    buildVolumePayloads dataBlocks = (Chunks.chunk 64 dataBlocks).map List.flatten := by
  unfold buildVolumePayloads Chunks.chunk
  rw [List.map_map]
  apply List.map_congr_left
  intro volIdx _
  show ((dataBlocks.drop (volIdx * 64)).take _).flatten = _
  rw [List.take_eq_take_iff.mpr]
  · rfl
  · rw [List.length_drop]
    omega

/-- The payloads put together are the blocks put together. -/
theorem flatten_buildVolumePayloads (dataBlocks : List Bytes) :
    (buildVolumePayloads dataBlocks).flatten = dataBlocks.flatten := by
  rw [buildVolumePayloads_eq, ← List.flatten_flatten, Chunks.flatten_chunk (by omega)]

/-- Up to 64 blocks of up to sixteen bytes. -/
theorem length_of_mem_buildVolumePayloads {dataBlocks : List Bytes}
    (h : ∀ block ∈ dataBlocks, 1 ≤ block.length ∧ block.length ≤ 16) :
    ∀ payload ∈ buildVolumePayloads dataBlocks, 1 ≤ payload.length ∧ payload.length ≤ 1024 := by
  intro payload hpayload
  rw [buildVolumePayloads_eq] at hpayload
  obtain ⟨piece, hpiece, rfl⟩ := List.mem_map.mp hpayload
  obtain ⟨hpos, hle⟩ := Chunks.of_mem_chunk (by omega) dataBlocks piece hpiece
  have hblocks : ∀ block ∈ piece, 1 ≤ block.length ∧ block.length ≤ 16 :=
    fun block hblock => h block (Chunks.subset_of_mem_chunk (by omega) hpiece block hblock)
  obtain ⟨first, rest, rfl⟩ := List.exists_cons_of_length_pos hpos
  have hfirst := (hblocks first List.mem_cons_self).1
  have hlength := Chunks.length_flatten_le fun block hblock => (hblocks block hblock).2
  constructor
  · rw [List.flatten_cons, List.length_append]
    omega
  · omega

end FirmwareUpdater

end PPB
