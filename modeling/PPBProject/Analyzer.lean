import Mathlib.Algebra.Group.Action.Defs
import Mathlib.Algebra.Order.BigOperators.Group.List
import PPBProject.Command

/- `PacketAnalyzer`: the sent and the received packets of a test sequence, compared one by
   one.

   Correspondence (C++ ↔ Lean):
     `AnalysisResult`, `PacketErrorDetail`  ↔ the structures of these names
     the three loops of `analyze()`         ↔ `loops`, by `compare`, `lose`, `surplus`
     the rates after them                   ↔ `rates`
     `analyze(sent, received)`              ↔ `analyzeOf`
   The rates are `double`s in the source and exact quotients here. Left out: the sequence numbers
   of the packets, which nothing reads, the progress that is emitted, and the time taken. -/
namespace PPB

structure PacketErrorDetail where
  index : Nat
  isLost : Bool
  bitErrors : Nat
  sentData : String
  receivedData : String
  deriving DecidableEq

/-- `PacketAnalyzer::AnalysisResult`. -/
structure AnalysisResult where
  ber : ℚ := 0
  packetLossRate : ℚ := 0
  totalSent : Nat := 0
  totalReceived : Nat := 0
  validPackets : Nat := 0
  lostPackets : Nat := 0
  bitErrors : Nat := 0
  totalBitsCompared : Nat := 0
  lostPacketIndices : List Nat := []
  bitErrorIndices : List Nat := []
  errorDetails : List PacketErrorDetail := []
  deriving DecidableEq

structure PacketAnalyzer where
  sentPackets : List DataPacket := []
  receivedPackets : List DataPacket := []
  deriving DecidableEq

/-- The loop `while (x) { errors += x & 1; x >>= 1; }`; eight turns empty a byte. -/
def countOnes : Nat → UInt8 → Nat
  | 0, _ => 0
  | n + 1, x => if x = 0 then 0 else (x &&& 1).toNat + countOnes n (x >>> 1)

namespace PacketAnalyzer

def addSentPackets (analyzer : PacketAnalyzer) (packets : List DataPacket) : PacketAnalyzer :=
  { analyzer with sentPackets := analyzer.sentPackets ++ packets }

def addReceivedPackets (analyzer : PacketAnalyzer) (packets : List DataPacket) : PacketAnalyzer :=
  { analyzer with receivedPackets := analyzer.receivedPackets ++ packets }

def clear (_ : PacketAnalyzer) : PacketAnalyzer := {}

def countBitErrors (sent received : DataPacket) : Nat :=
  countOnes 8 (sent.1 ^^^ received.1) + countOnes 8 (sent.2 ^^^ received.2)

/-- Two digits of base 16. -/
def hexByte (byte : UInt8) : String :=
  String.ofList [Nat.digitChar (byte.toNat / 16), Nat.digitChar (byte.toNat % 16)]

def packetToString (packet : DataPacket) : String :=
  s!"[{hexByte packet.1} {hexByte packet.2}]"

/-- One turn of the comparing loop. -/
def compare (result : AnalysisResult) (pair : (DataPacket × DataPacket) × Nat) : AnalysisResult :=
  let bitErrors := countBitErrors pair.1.1 pair.1.2
  let result :=
    if bitErrors = 0 then { result with validPackets := result.validPackets + 1 }
    else { result with
      bitErrors := result.bitErrors + bitErrors
      bitErrorIndices := result.bitErrorIndices ++ [pair.2] }
  let detail :=
    { index := pair.2
      isLost := false
      bitErrors
      sentData := packetToString pair.1.1
      receivedData := packetToString pair.1.2 }
  { result with
    totalBitsCompared := result.totalBitsCompared + 16
    errorDetails := result.errorDetails ++ [detail] }

/-- One turn of the loop over the packets that have not been received. -/
def lose (result : AnalysisResult) (packet : DataPacket × Nat) : AnalysisResult :=
  let detail :=
    { index := packet.2
      isLost := true
      bitErrors := 0
      sentData := packetToString packet.1
      receivedData := "LOST" }
  { result with
    lostPacketIndices := result.lostPacketIndices ++ [packet.2]
    errorDetails := result.errorDetails ++ [detail] }

/-- One turn of the loop over the packets that have not been sent. -/
def surplus (result : AnalysisResult) (packet : DataPacket × Nat) : AnalysisResult :=
  let detail :=
    { index := packet.2
      isLost := false
      bitErrors := 0
      sentData := "NOT SENT"
      receivedData := packetToString packet.1 }
  { result with errorDetails := result.errorDetails ++ [detail] }

def loops (analyzer : PacketAnalyzer) : AnalysisResult :=
  let totalSent := analyzer.sentPackets.length
  let totalReceived := analyzer.receivedPackets.length
  let compareCount := min totalSent totalReceived
  let result := (analyzer.sentPackets.zip analyzer.receivedPackets).zipIdx.foldl compare
    { totalSent, totalReceived }
  let result :=
    if totalReceived < totalSent then
      (analyzer.sentPackets.zipIdx.drop compareCount).foldl lose
        { result with lostPackets := totalSent - totalReceived }
    else result
  if totalSent < totalReceived then
    (analyzer.receivedPackets.zipIdx.drop compareCount).foldl surplus result
  else result

def rates (result : AnalysisResult) : AnalysisResult :=
  if 0 < result.totalSent then
    let result := { result with packetLossRate := result.lostPackets / result.totalSent }
    if 0 < result.totalBitsCompared then
      { result with ber := result.bitErrors / result.totalBitsCompared }
    else result
  else result

def analyze (analyzer : PacketAnalyzer) : AnalysisResult := rates analyzer.loops

def analyzeOf (analyzer : PacketAnalyzer) (sent received : List DataPacket) : AnalysisResult :=
  ((analyzer.clear.addSentPackets sent).addReceivedPackets received).analyze

end PacketAnalyzer

/-! What the comparison counts. -/

/-- The bits in which two bytes differ. -/
def differingBits (x y : UInt8) : Nat :=
  (List.range 8).countP fun bit => x.toNat.testBit bit != y.toNat.testBit bit

/-- The Hamming distance of two byte strings of one length. -/
def hammingDistance (xs ys : Bytes) : Nat := (List.zipWith differingBits xs ys).sum

theorem differingBits_eq_zero_iff (x y : UInt8) : differingBits x y = 0 ↔ x = y := by
  constructor
  · intro h
    rw [differingBits, List.countP_eq_zero] at h
    rw [← UInt8.toNat_inj]
    apply Nat.eq_of_testBit_eq
    intro bit
    by_cases hbit : bit < 8
    · simpa using h bit (List.mem_range.mpr hbit)
    · have hpow : 2 ^ 8 ≤ 2 ^ bit := Nat.pow_le_pow_right (by omega) (by omega)
      rw [Nat.testBit_lt_two_pow (x.toNat_lt.trans_le hpow),
        Nat.testBit_lt_two_pow (y.toNat_lt.trans_le hpow)]
  · intro heq
    simp [differingBits, heq]

theorem differingBits_comm (x y : UInt8) : differingBits x y = differingBits y x := by
  simp only [differingBits, bne_comm]

theorem differingBits_le (x y : UInt8) : differingBits x y ≤ 8 := by
  have hle := List.countP_le_length (p := fun bit => x.toNat.testBit bit != y.toNat.testBit bit)
    (l := List.range 8)
  rwa [List.length_range] at hle

theorem countOnes_eq (n : Nat) (x : UInt8) :
    countOnes n x = (List.range n).countP fun bit => x.toNat.testBit bit := by
  induction n generalizing x with
  | zero => rfl
  | succ n ih =>
    rw [List.range_succ_eq_map, List.countP_cons, List.countP_map, countOnes]
    have hrest : (fun bit => x.toNat.testBit bit) ∘ Nat.succ =
        fun bit => (x >>> 1).toNat.testBit bit := by
      funext bit
      rw [Function.comp_apply, UInt8.toNat_shiftRight, Nat.testBit_shiftRight, Nat.succ_eq_add_one,
        Nat.add_comm]
      rfl
    have hfirst : (x &&& 1).toNat = if x.toNat.testBit 0 then 1 else 0 := by
      rw [UInt8.toNat_and, UInt8.toNat_one, Nat.and_one_is_mod, Nat.testBit_zero]
      split <;> simp_all
    rw [hrest, ← ih]
    split
    case isTrue hzero =>
      rw [hzero, ih]
      simp
    case isFalse => rw [hfirst, Nat.add_comm]

theorem countOnes_xor (x y : UInt8) : countOnes 8 (x ^^^ y) = differingBits x y := by
  rw [countOnes_eq, differingBits]
  congr 1
  funext bit
  rw [UInt8.toNat_xor, Nat.testBit_xor]

namespace PacketAnalyzer

section
variable {α β : Type*}

theorem map_zipIdx_drop {xs : List α} {f : α × Nat → β} {g : Nat → β} {n : Nat}
    (h : ∀ x i, n ≤ i → xs[i]? = some x → f (x, i) = g i) :
    (xs.zipIdx.drop n).map f = (List.range' n (xs.length - n)).map g := by
  have hpositions : (xs.zipIdx.drop n).map Prod.snd = List.range' n (xs.length - n) := by
    rw [List.map_drop, List.zipIdx_map_snd, List.drop_range', Nat.mul_one, Nat.zero_add]
  rw [← hpositions, List.map_map]
  apply List.map_congr_left
  intro x hx
  have hposition : x.2 ∈ List.range' n (xs.length - n) :=
    hpositions ▸ List.mem_map_of_mem hx
  exact h x.1 x.2 (List.mem_range'_1.mp hposition).1
    (List.mem_zipIdx_iff_getElem?.mp (List.mem_of_mem_drop hx))

theorem filter_zipIdx {xs : List α} {p : α × Nat → Bool} {q : Nat → Bool}
    (h : ∀ x i, xs[i]? = some x → p (x, i) = q i) :
    (xs.zipIdx.filter p).map Prod.snd = (List.range xs.length).filter q := by
  have hpositions : xs.zipIdx.map Prod.snd = List.range xs.length := by
    rw [List.zipIdx_map_snd, List.range_eq_range']
  rw [← hpositions, List.filter_map]
  congr 1
  apply List.filter_congr
  intro x hx
  exact h x.1 x.2 (List.mem_zipIdx_iff_getElem?.mp hx)

end

/-! What the turns add up to. -/

/-- The number of bits in which two packets differ. -/
def packetDistance (sent received : DataPacket) : Nat :=
  differingBits sent.1 received.1 + differingBits sent.2 received.2

theorem packetDistance_eq_zero_iff (p q : DataPacket) : packetDistance p q = 0 ↔ p = q := by
  rw [packetDistance, Nat.add_eq_zero_iff, differingBits_eq_zero_iff, differingBits_eq_zero_iff,
    Prod.ext_iff]

theorem packetDistance_comm (p q : DataPacket) : packetDistance p q = packetDistance q p := by
  rw [packetDistance, differingBits_comm, differingBits_comm p.2, packetDistance]

theorem packetDistance_le (p q : DataPacket) : packetDistance p q ≤ 16 := by
  have hfirst := differingBits_le p.1 q.1
  have hsecond := differingBits_le p.2 q.2
  rw [packetDistance]
  omega

theorem countBitErrors_eq (sent received : DataPacket) :
    countBitErrors sent received = packetDistance sent received := by
  rw [countBitErrors, countOnes_xor, countOnes_xor, packetDistance]

/-- What is noted of a position. -/
def detailAt (sent received : List DataPacket) (i : Nat) : PacketErrorDetail where
  index := i
  isLost := received.length ≤ i ∧ i < sent.length
  bitErrors :=
    match sent[i]?, received[i]? with
    | some p, some q => packetDistance p q
    | _, _ => 0
  sentData := (sent[i]?.map packetToString).getD "NOT SENT"
  receivedData := (received[i]?.map packetToString).getD "LOST"

theorem foldl_compare (pairs : List ((DataPacket × DataPacket) × Nat)) (result : AnalysisResult) :
    pairs.foldl compare result =
      { result with
        validPackets := result.validPackets +
          pairs.countP fun pair => packetDistance pair.1.1 pair.1.2 = 0
        bitErrors := result.bitErrors +
          (pairs.map fun pair => packetDistance pair.1.1 pair.1.2).sum
        totalBitsCompared := result.totalBitsCompared + 16 * pairs.length
        bitErrorIndices := result.bitErrorIndices ++
          (pairs.filter fun pair => packetDistance pair.1.1 pair.1.2 ≠ 0).map Prod.snd
        errorDetails := result.errorDetails ++ pairs.map fun pair =>
          { index := pair.2
            isLost := false
            bitErrors := packetDistance pair.1.1 pair.1.2
            sentData := packetToString pair.1.1
            receivedData := packetToString pair.1.2 } } := by
  induction pairs generalizing result with
  | nil => simp
  | cons pair pairs ih =>
    rw [List.foldl_cons, ih]
    by_cases hvalid : packetDistance pair.1.1 pair.1.2 = 0
    · simp [compare, countBitErrors_eq, hvalid, Nat.mul_add, Nat.add_assoc, Nat.add_comm 1,
        Nat.add_comm 16]
    · simp [compare, countBitErrors_eq, hvalid, Nat.mul_add, Nat.add_assoc, Nat.add_comm 16]

theorem foldl_lose (packets : List (DataPacket × Nat)) (result : AnalysisResult) :
    packets.foldl lose result =
      { result with
        lostPacketIndices := result.lostPacketIndices ++ packets.map Prod.snd
        errorDetails := result.errorDetails ++ packets.map fun packet =>
          { index := packet.2
            isLost := true
            bitErrors := 0
            sentData := packetToString packet.1
            receivedData := "LOST" } } := by
  induction packets generalizing result with
  | nil => simp
  | cons packet packets ih =>
    rw [List.foldl_cons, ih]
    simp [lose]

theorem foldl_surplus (packets : List (DataPacket × Nat)) (result : AnalysisResult) :
    packets.foldl surplus result =
      { result with
        errorDetails := result.errorDetails ++ packets.map fun packet =>
          { index := packet.2
            isLost := false
            bitErrors := 0
            sentData := "NOT SENT"
            receivedData := packetToString packet.1 } } := by
  induction packets generalizing result with
  | nil => simp
  | cons packet packets ih =>
    rw [List.foldl_cons, ih]
    simp [surplus]

section
variable {sent received : List DataPacket}

theorem details_compared : (sent.zip received).zipIdx.map (fun pair =>
      ({ index := pair.2
         isLost := false
         bitErrors := packetDistance pair.1.1 pair.1.2
         sentData := packetToString pair.1.1
         receivedData := packetToString pair.1.2 } : PacketErrorDetail)) =
    (List.range' 0 (min sent.length received.length)).map (detailAt sent received) := by
  rw [← List.length_zip, ← Nat.sub_zero (sent.zip received).length, ← map_zipIdx_drop,
    List.drop_zero]
  intro pair i _ hpair
  obtain ⟨hsent, hreceived⟩ := List.getElem?_zip_eq_some.mp hpair
  have hlt : ¬ received.length ≤ i := by
    have := (List.getElem?_eq_some_iff.mp hreceived).1
    omega
  simp only [detailAt, hsent, hreceived, hlt, false_and, decide_false, Option.map_some,
    Option.getD_some]

theorem details_lost : (sent.zipIdx.drop received.length).map (fun packet =>
      ({ index := packet.2
         isLost := true
         bitErrors := 0
         sentData := packetToString packet.1
         receivedData := "LOST" } : PacketErrorDetail)) =
    (List.range' received.length (sent.length - received.length)).map (detailAt sent received) := by
  rw [map_zipIdx_drop]
  intro packet i hi hsent
  have hreceived : received[i]? = none := List.getElem?_eq_none hi
  have hlt : i < sent.length := (List.getElem?_eq_some_iff.mp hsent).1
  simp only [detailAt, hsent, hreceived, hi, hlt, and_self, decide_true, Option.map_some,
    Option.map_none, Option.getD_some, Option.getD_none]

theorem details_surplus : (received.zipIdx.drop sent.length).map (fun packet =>
      ({ index := packet.2
         isLost := false
         bitErrors := 0
         sentData := "NOT SENT"
         receivedData := packetToString packet.1 } : PacketErrorDetail)) =
    (List.range' sent.length (received.length - sent.length)).map (detailAt sent received) := by
  rw [map_zipIdx_drop]
  intro packet i hi hreceived
  have hsent : sent[i]? = none := List.getElem?_eq_none hi
  have hlt : ¬ i < sent.length := by omega
  simp only [detailAt, hsent, hreceived, hlt, and_false, decide_false, Option.map_some,
    Option.map_none, Option.getD_some, Option.getD_none]

end

/-- The positions where the packets differ. -/
def differingPositions (sent received : List DataPacket) : List Nat :=
  (List.range (min sent.length received.length)).filter fun i => sent[i]? ≠ received[i]?

theorem positions_differing (sent received : List DataPacket) :
    ((sent.zip received).zipIdx.filter
      fun pair => packetDistance pair.1.1 pair.1.2 ≠ 0).map Prod.snd =
        differingPositions sent received := by
  rw [differingPositions, ← List.length_zip]
  apply filter_zipIdx
  intro pair i hpair
  obtain ⟨hsent, hreceived⟩ := List.getElem?_zip_eq_some.mp hpair
  simp only [hsent, hreceived, ne_eq, packetDistance_eq_zero_iff, Option.some_inj]

theorem countP_zipIdx (sent received : List DataPacket) (p : DataPacket × DataPacket → Bool) :
    ((sent.zip received).zipIdx.countP fun pair => p pair.1) = (sent.zip received).countP p := by
  conv_rhs => rw [← List.zipIdx_map_fst 0 (sent.zip received), List.countP_map]
  rfl

theorem map_range_max {f : Nat → PacketErrorDetail} (m n : Nat) :
    (List.range' 0 (min m n)).map f ++ (List.range' (min m n) (max m n - min m n)).map f =
      (List.range (max m n)).map f := by
  have happend := @List.range'_append_1 0 (min m n) (max m n - min m n)
  rw [Nat.zero_add, Nat.add_sub_cancel' (min_le_max)] at happend
  rw [← List.map_append, happend, List.range_eq_range']

/-- What the three loops leave. -/
def counted (sent received : List DataPacket) : AnalysisResult :=
  { totalSent := sent.length
    totalReceived := received.length
    validPackets := (sent.zip received).countP fun pair => packetDistance pair.1 pair.2 = 0
    lostPackets := sent.length - received.length
    bitErrors := (List.zipWith packetDistance sent received).sum
    totalBitsCompared := 16 * min sent.length received.length
    lostPacketIndices := List.range' received.length (sent.length - received.length)
    bitErrorIndices := differingPositions sent received
    errorDetails := (List.range (max sent.length received.length)).map (detailAt sent received) }

theorem loops_eq (analyzer : PacketAnalyzer) :
    analyzer.loops = counted analyzer.sentPackets analyzer.receivedPackets := by
  obtain ⟨sent, received⟩ := analyzer
  have hvalid := countP_zipIdx sent received fun pair => packetDistance pair.1 pair.2 = 0
  have herrors : ((sent.zip received).zipIdx.map
      fun pair => packetDistance pair.1.1 pair.1.2).sum =
        (List.zipWith packetDistance sent received).sum := by
    rw [← List.map_uncurry_zip_eq_zipWith]
    conv_rhs => rw [← List.zipIdx_map_fst 0 (sent.zip received), List.map_map]
    rfl
  simp only [loops, foldl_compare, hvalid, herrors, positions_differing, details_compared,
    List.nil_append, Nat.zero_add, List.length_zipIdx, List.length_zip]
  have hdetails := @map_range_max (detailAt sent received) sent.length received.length
  rcases lt_trichotomy sent.length received.length with hlt | heq | hgt
  · have hnot : ¬ received.length < sent.length := by omega
    rw [min_eq_left hlt.le, max_eq_right hlt.le] at hdetails
    simp only [hlt, hnot, if_true, if_false, min_eq_left hlt.le, foldl_surplus, details_surplus,
      hdetails]
    simp [counted, hlt.le]
  · rw [heq, min_self, max_self, Nat.sub_self, List.range'_zero, List.map_nil, List.append_nil]
      at hdetails
    simp only [heq, lt_irrefl, if_false, min_self, hdetails]
    simp [counted, heq]
  · have hnot : ¬ sent.length < received.length := by omega
    rw [min_eq_right hgt.le, max_eq_left hgt.le] at hdetails
    simp only [hgt, hnot, if_true, if_false, min_eq_right hgt.le, foldl_lose, details_lost,
      List.nil_append, hdetails]
    simp [counted, hgt.le]

theorem rates_eq (result : AnalysisResult) :
    ∃ ber packetLossRate, rates result = { result with ber, packetLossRate } := by
  simp only [rates]
  split
  · split <;> exact ⟨_, _, rfl⟩
  · exact ⟨_, _, rfl⟩

/-- Everything sent has been received: no packet is lost, and the errors are the bits in which the
sequences differ. -/
theorem analyze_of_length_eq {analyzer : PacketAnalyzer}
    (h : analyzer.sentPackets.length = analyzer.receivedPackets.length) :
    analyzer.analyze.totalSent = analyzer.sentPackets.length ∧
      analyzer.analyze.totalReceived = analyzer.sentPackets.length ∧
      analyzer.analyze.lostPackets = 0 ∧
      analyzer.analyze.bitErrors =
        (List.zipWith countBitErrors analyzer.sentPackets analyzer.receivedPackets).sum := by
  obtain ⟨ber, packetLossRate, hrates⟩ := rates_eq analyzer.loops
  have hdistance : countBitErrors = packetDistance := by
    funext p q
    exact countBitErrors_eq p q
  rw [analyze, hrates, loops_eq, hdistance]
  exact ⟨rfl, h.symm, by simp [counted, h], rfl⟩

/-! Every packet is accounted for. -/

theorem sum_zipWith_packetDistance_le (sent received : List DataPacket) :
    (List.zipWith packetDistance sent received).sum ≤ 16 * min sent.length received.length := by
  have hle : ∀ distance ∈ List.zipWith packetDistance sent received, distance ≤ 16 := by
    intro distance hdistance
    rw [← List.map_uncurry_zip_eq_zipWith] at hdistance
    obtain ⟨pair, -, rfl⟩ := List.mem_map.mp hdistance
    exact packetDistance_le pair.1 pair.2
  have hsum := List.sum_le_card_nsmul _ 16 hle
  rwa [List.length_zipWith, smul_eq_mul, Nat.mul_comm] at hsum

theorem countP_add_length_differing (sent received : List DataPacket) :
    ((sent.zip received).countP fun pair => packetDistance pair.1 pair.2 = 0) +
      (differingPositions sent received).length = min sent.length received.length := by
  have hdiffering := countP_zipIdx sent received fun pair => packetDistance pair.1 pair.2 ≠ 0
  have hsplit := List.length_eq_countP_add_countP
    (fun pair => decide (packetDistance pair.1 pair.2 = 0)) (l := sent.zip received)
  rw [List.length_zip] at hsplit
  rw [← positions_differing, List.length_map, ← List.countP_eq_length_filter, hdiffering, hsplit]
  simp only [decide_eq_true_eq, ne_eq]

/-- What an analysis tells of the packets. The counters stay below 16 times the number of pairs,
so that an `int` holds them where it holds the bits that were compared. -/
structure Accounts (sent received : List DataPacket) (result : AnalysisResult) : Prop where
  packets : result.validPackets + result.bitErrorIndices.length =
    min sent.length received.length
  positions : result.bitErrorIndices = differingPositions sent received
  errors : result.bitErrors = (List.zipWith packetDistance sent received).sum
  bits : result.totalBitsCompared = 16 * min sent.length received.length
  bound : result.bitErrors ≤ result.totalBitsCompared
  lost : result.lostPackets = sent.length - received.length
  lostPositions : result.lostPacketIndices =
    List.range' received.length (sent.length - received.length)
  details : result.errorDetails =
    (List.range (max sent.length received.length)).map (detailAt sent received)

theorem accounts_analyze (analyzer : PacketAnalyzer) :
    Accounts analyzer.sentPackets analyzer.receivedPackets analyzer.analyze := by
  obtain ⟨ber, packetLossRate, hrates⟩ := rates_eq analyzer.loops
  rw [analyze, hrates, loops_eq]
  exact
    { packets := countP_add_length_differing _ _
      positions := rfl
      errors := rfl
      bits := rfl
      bound := sum_zipWith_packetDistance_le _ _
      lost := rfl
      lostPositions := rfl
      details := rfl }

theorem differingPositions_comm (sent received : List DataPacket) :
    differingPositions sent received = differingPositions received sent := by
  simp only [differingPositions, min_comm, ne_comm]

/-- An analysis accounts for every packet, whatever has been added before; the other way round it
finds the same differences. -/
theorem analyzeOf_accounts (analyzer other : PacketAnalyzer) (sent received : List DataPacket) :
    Accounts sent received (analyzer.analyzeOf sent received) ∧
      (other.analyzeOf received sent).bitErrors = (analyzer.analyzeOf sent received).bitErrors ∧
      (other.analyzeOf received sent).validPackets =
        (analyzer.analyzeOf sent received).validPackets ∧
      (other.analyzeOf received sent).bitErrorIndices =
        (analyzer.analyzeOf sent received).bitErrorIndices ∧
      (other.analyzeOf received sent).totalBitsCompared =
        (analyzer.analyzeOf sent received).totalBitsCompared := by
  have haccounts : ∀ (analyzer : PacketAnalyzer) sent received,
      Accounts sent received (analyzer.analyzeOf sent received) := fun _ sent received =>
    accounts_analyze ⟨sent, received⟩
  have hthere := haccounts analyzer sent received
  have hback := haccounts other received sent
  have hpositions : (other.analyzeOf received sent).bitErrorIndices =
      (analyzer.analyzeOf sent received).bitErrorIndices := by
    rw [hthere.positions, hback.positions, differingPositions_comm]
  refine ⟨hthere, ?_, ?_, hpositions, ?_⟩
  · rw [hthere.errors, hback.errors, List.zipWith_comm]
    simp only [packetDistance_comm]
  · have hsum := hback.packets
    rw [hpositions, min_comm, ← hthere.packets] at hsum
    exact Nat.add_right_cancel hsum
  · rw [hthere.bits, hback.bits, min_comm]

/-- Three packets sent, two received, the second with one bit wrong. -/
example : (({} : PacketAnalyzer).analyzeOf [(0, 1), (2, 3), (4, 5)] [(0, 1), (2, 7)]).errorDetails =
    [⟨0, false, 0, "[00 01]", "[00 01]"⟩, ⟨1, false, 1, "[02 03]", "[02 07]"⟩,
      ⟨2, true, 0, "[04 05]", "LOST"⟩] := by decide +kernel

/-- Packet by packet or byte by byte, the errors are the same. -/
theorem sum_countBitErrors {sent received : Bytes} (h : sent.length = received.length)
    (heven : sent.length % 2 = 0) :
    (List.zipWith countBitErrors (extractDataPackets sent) (extractDataPackets received)).sum =
      hammingDistance sent received := by
  induction sent using extractDataPackets.induct generalizing received with
  | case1 first second rest ih =>
    obtain ⟨first', received, rfl⟩ := List.exists_cons_of_length_pos (l := received) (by simp [← h])
    simp only [List.length_cons, Nat.add_right_cancel_iff] at h heven
    obtain ⟨second', received, rfl⟩ := List.exists_cons_of_length_pos (l := received)
      (by simp [← h])
    simp only [List.length_cons, Nat.add_right_cancel_iff] at h
    have hrest := @ih received h (by omega)
    simp only [extractDataPackets, List.zipWith_cons_cons, List.sum_cons, hrest, countBitErrors,
      countOnes_xor, Nat.add_assoc]
    simp only [hammingDistance, List.zipWith_cons_cons, List.sum_cons]
  | case2 sent hshort =>
    cases sent with
    | nil => rfl
    | cons first rest =>
      cases rest with
      | nil => simp at heven
      | cons second rest => exact absurd rfl (hshort first second rest)

end PacketAnalyzer

end PPB
