import Mathlib.Algebra.GroupWithZero.Nat
import Mathlib.Data.List.AList

/- The shared vocabulary of the host side: the enumerations of `ppbprotocol.h`,
   byte strings and big-endian words, the single-PPB addresses of a mask, and
   the two `QString` renderings the messages use. Addresses and masks are the
   code's own `uint16_t`; a `QByteArray` is a list of bytes.

   Correspondence (C++ ↔ Lean):
     `PPBState`, `TechCommand`, `FuCommand`, `Sign` ↔ the inductives below, with
       `code` for the underlying `uint8_t`
     `qFromBigEndian<quint16>`, `qToBigEndian`      ↔ `fromBigEndian`, `toBigEndian`
     `QString::arg(x, w, 16, '0')`                  ↔ `hexPadded`
     `QMap`, `std::unordered_map` keyed by address  ↔ `Table` (Mathlib's `AList`) -/
namespace PPB

abbrev Bytes := List UInt8

/-- A map keyed by PPB address. -/
abbrev Table (β : Type) := AList (fun _ : UInt16 => β)

section
variable {β : Type} (t : Table β) (address : UInt16)

theorem lookup_insert_eq_update (b : β) :
    (fun a => (t.insert address b).lookup a) =
      Function.update (fun a => t.lookup a) address (some b) := by
  funext a
  rcases eq_or_ne a address with rfl | hne
  · simp
  · rw [AList.lookup_insert_ne hne, Function.update_of_ne hne]

theorem lookup_erase_eq_update :
    (fun a => (t.erase address).lookup a) = Function.update (fun a => t.lookup a) address none := by
  funext a
  rcases eq_or_ne a address with rfl | hne
  · simp
  · rw [AList.lookup_erase_ne hne, Function.update_of_ne hne]

/-- A search through the entries finds what some lookup finds. -/
theorem any_entries_iff (p : β → Bool) :
    (t.entries.any fun entry => p entry.2) = true ↔ ∃ a b, t.lookup a = some b ∧ p b = true := by
  simp only [List.any_eq_true]
  constructor
  · rintro ⟨⟨a, b⟩, hmem, hp⟩
    exact ⟨a, b, AList.mem_lookup_iff.mpr hmem, hp⟩
  · rintro ⟨a, b, hlookup, hp⟩
    exact ⟨⟨a, b⟩, AList.mem_lookup_iff.mp hlookup, hp⟩

theorem all_entries_iff (p : β → Bool) :
    (t.entries.all fun entry => p entry.2) = true ↔ ∀ a b, t.lookup a = some b → p b = true := by
  simp only [List.all_eq_true]
  constructor
  · intro hall a b hlookup
    exact hall ⟨a, b⟩ (AList.mem_lookup_iff.mp hlookup)
  · rintro hall ⟨a, b⟩ hmem
    exact hall a b (AList.mem_lookup_iff.mpr hmem)

end

/-- `PPBState`: no link, link up, command sent and reply awaited. -/
inductive PPBState where
  | idle
  | ready
  | sendingCommand
  deriving DecidableEq, Repr

/-- `TechCommand`, the TU commands. -/
inductive TechCommand where
  | ts
  | tc
  | vers
  | volume
  | checksum
  | programm
  | clean
  | update
  | prbsM2S
  | berT
  | berF
  | prbsS2M
  | drop
  | factoryNumber
  | isYou
  deriving DecidableEq, Repr

def TechCommand.code : TechCommand → UInt8
  | .ts => 0x00
  | .tc => 0x01
  | .vers => 0x02
  | .volume => 0x03
  | .checksum => 0x04
  | .programm => 0x05
  | .clean => 0x0A
  | .update => 0x7e
  | .prbsM2S => 0x0B
  | .berT => 0x0C
  | .berF => 0x0D
  | .prbsS2M => 0x0E
  | .drop => 0x0F
  | .factoryNumber => 0x1F
  | .isYou => 0x20

/-- `FuCommand`, the FU modes. -/
inductive FuCommand where
  | receive
  | transmit
  | receiveTransmit
  deriving DecidableEq, Repr

def FuCommand.code : FuCommand → UInt8
  | .receive => 0x00
  | .transmit => 0x01
  | .receiveTransmit => 0x02

/-- `Sign`, the packet family. -/
inductive Sign where
  | tu
  | fu
  | isYou
  deriving DecidableEq, Repr

def Sign.code : Sign → UInt8
  | .tu => 0
  | .fu => 1
  | .isYou => 3

/-- `DataPacket`: two bytes of a test sequence. -/
abbrev DataPacket := UInt8 × UInt8

/-! Words and bytes. -/

def fromBigEndian (high low : UInt8) : UInt16 := high.toUInt16 <<< 8 ||| low.toUInt16

theorem toNat_fromBigEndian (high low : UInt8) :
    (fromBigEndian high low).toNat = high.toNat * 256 + low.toNat := by
  have hhigh := high.toNat_lt
  have hlow := low.toNat_lt
  have hshift : (high.toUInt16 <<< 8).toNat = high.toNat <<< 8 := by
    rw [UInt16.toNat_shiftLeft, UInt8.toNat_toUInt16]
    apply Nat.mod_eq_of_lt
    show high.toNat <<< 8 < 2 ^ 16
    rw [Nat.shiftLeft_eq]
    omega
  rw [fromBigEndian, UInt16.toNat_or, hshift, UInt8.toNat_toUInt16,
    ← Nat.shiftLeft_add_eq_or_of_lt hlow, Nat.shiftLeft_eq]

def toBigEndian (word : UInt16) : Bytes := [(word >>> 8).toUInt8, word.toUInt8]

/-- `memcpy` of two bytes into a zeroed integer on the little-endian host. -/
def fromHost16 (first second : UInt8) : UInt16 := second.toUInt16 <<< 8 ||| first.toUInt16

/-- `memcpy` of four bytes into a `uint32_t` on the little-endian host. -/
def fromHost32 (b0 b1 b2 b3 : UInt8) : UInt32 :=
  b3.toUInt32 <<< 24 ||| b2.toUInt32 <<< 16 ||| b1.toUInt32 <<< 8 ||| b0.toUInt32

def fromBigEndian32 (b0 b1 b2 b3 : UInt8) : UInt32 :=
  b0.toUInt32 <<< 24 ||| b1.toUInt32 <<< 16 ||| b2.toUInt32 <<< 8 ||| b3.toUInt32

theorem toNat_fromBigEndian32 (b0 b1 b2 b3 : UInt8) :
    (fromBigEndian32 b0 b1 b2 b3).toNat =
      b0.toNat * 2 ^ 24 + b1.toNat * 2 ^ 16 + b2.toNat * 2 ^ 8 + b3.toNat := by
  have h0 := b0.toNat_lt
  have h1 := b1.toNat_lt
  have h2 := b2.toNat_lt
  have h3 := b3.toNat_lt
  have hshift (b : UInt8) (k : UInt32) (hk : k.toNat ≤ 24) :
      (b.toUInt32 <<< k).toNat = b.toNat * 2 ^ k.toNat := by
    have hb := b.toNat_lt
    have hpow : 2 ^ k.toNat ≤ 2 ^ 24 := Nat.pow_le_pow_right (by omega) hk
    have hmod : k.toNat % 32 = k.toNat := Nat.mod_eq_of_lt (by omega)
    rw [UInt32.toNat_shiftLeft, UInt8.toNat_toUInt32, hmod, Nat.shiftLeft_eq]
    apply Nat.mod_eq_of_lt
    calc b.toNat * 2 ^ k.toNat ≤ 255 * 2 ^ 24 := Nat.mul_le_mul (by omega) hpow
      _ < 2 ^ 32 := by omega
  have hor (a b k : Nat) (hb : b < 2 ^ k) : a * 2 ^ k ||| b = a * 2 ^ k + b := by
    rw [← Nat.shiftLeft_eq, Nat.shiftLeft_add_eq_or_of_lt hb]
  have h24 : (b0.toUInt32 <<< 24).toNat = b0.toNat * 2 ^ 24 := hshift b0 24 (by decide)
  have h16 : (b1.toUInt32 <<< 16).toNat = b1.toNat * 2 ^ 16 := hshift b1 16 (by decide)
  have h8 : (b2.toUInt32 <<< 8).toNat = b2.toNat * 2 ^ 8 := hshift b2 8 (by decide)
  rw [fromBigEndian32, UInt32.toNat_or, UInt32.toNat_or, UInt32.toNat_or, h24, h16, h8,
    UInt8.toNat_toUInt32]
  rw [hor b0.toNat (b1.toNat * 2 ^ 16) 24 (by omega)]
  have hmid : b0.toNat * 2 ^ 24 + b1.toNat * 2 ^ 16 = (b0.toNat * 2 ^ 8 + b1.toNat) * 2 ^ 16 := by
    rw [Nat.add_mul, Nat.mul_assoc, ← Nat.pow_add]
  rw [hmid, hor _ (b2.toNat * 2 ^ 8) 16 (by omega)]
  have hlow : (b0.toNat * 2 ^ 8 + b1.toNat) * 2 ^ 16 + b2.toNat * 2 ^ 8 =
      ((b0.toNat * 2 ^ 8 + b1.toNat) * 2 ^ 8 + b2.toNat) * 2 ^ 8 := by
    rw [Nat.add_mul _ b2.toNat, Nat.mul_assoc, ← Nat.pow_add]
  rw [hlow, hor _ b3.toNat 8 (by omega)]

/-! Masks. -/

/-- The sixteen single-PPB addresses `1 << i`, in the order the loops visit them. -/
def singleAddresses : List UInt16 := (List.range 16).map fun i => (1 : UInt16) <<< i.toUInt16

/-- The single-PPB addresses of a mask, lowest bit first. -/
def maskAddresses (mask : UInt16) : List UInt16 :=
  singleAddresses.filter fun address => mask &&& address != 0

theorem singleAddresses_nodup : singleAddresses.Nodup := by decide

theorem maskAddresses_nodup (mask : UInt16) : (maskAddresses mask).Nodup :=
  singleAddresses_nodup.filter _

/-- Address 0, the bridge, belongs to no mask. -/
theorem zero_notMem_maskAddresses (mask : UInt16) : (0 : UInt16) ∉ maskAddresses mask := by
  simp [maskAddresses]

/-- The single addresses are the bits of a word: a mask that meets none of them is 0. -/
theorem maskAddresses_ne_nil {mask : UInt16} (h : mask ≠ 0) : maskAddresses mask ≠ [] := by
  intro hnil
  have hnone : ∀ address ∈ singleAddresses, mask &&& address = 0 := by
    simpa [maskAddresses, List.filter_eq_nil_iff] using hnil
  have hunion (addresses : List UInt16) (h : ∀ address ∈ addresses, mask &&& address = 0) :
      mask &&& addresses.foldr (· ||| ·) 0 = 0 := by
    induction addresses with
    | nil => simp
    | cons address rest ih =>
      have hdistrib (x y z : UInt16) : x &&& (y ||| z) = x &&& y ||| x &&& z :=
        UInt16.toBitVec_inj.mp (by simp [BitVec.and_or_distrib_left])
      rw [List.foldr_cons, hdistrib, h address (by simp), ih fun b hb => h b (by simp [hb])]
      rfl
  have hall : singleAddresses.foldr (· ||| ·) 0 = -1 := by decide
  have hzero := hunion _ hnone
  rw [hall, UInt16.and_neg_one] at hzero
  exact h hzero

/-! Texts. -/

/-- `QString::arg(n, width, 16, '0')`: lower-case hexadecimal, padded with zeros. -/
def hexPadded (n width : Nat) : String :=
  let digits := Nat.toDigits 16 n
  String.ofList (List.replicate (width - digits.length) '0' ++ digits)

end PPB
