import PPBProject.Hex
import Mathlib.Algebra.Order.Group.Int
import Mathlib.Algebra.Order.Group.Unbundled.Basic

/- Versions as the updater compares them. A version is what one pattern accepts; its three numbers
   are read by `QString::toInt`, and of a prerelease identifier `QString::toLongLong` decides
   whether it is a number. Both have bounds, and both take a sign. This file embeds the comparison,
   states the precedence of SemVer 2.0.0 beside it, and shows that each is a lexicographic order of
   the same components, read in two ways.

   Correspondence (C++ ↔ Lean):
     `re.match(raw.trimmed())`                    ↔ `semVer?`, by `matchSemVer`
     `match.captured(1)`, … , `match.captured(4)` ↔ the fields of `Captured`
     `parseSemVer`, `comparePrereleaseIdentifier` ↔ the same names
     `QString::compare`, `QVersionNumber`         ↔ the same names
     `compareSemVer`, `isValidSemVer`             ↔ the same names
   Precedence (section 11) is not taken from the code: `SemVer.precedence`. -/
namespace PPB

/-! Numbers in a text. -/

/-- The value of digits. -/
def digitsValue (digits : List Char) : ℕ := Nat.ofDigitChars 10 digits 0

/-- The value of a text that consists of digits only. -/
def digitsOnly? (text : List Char) : Option ℕ :=
  if text ≠ [] ∧ text.all Char.isDigit then some (digitsValue text) else none

/-- The value of digits with or without a sign. -/
def signed? : List Char → Option ℤ
  | '-' :: text => (digitsOnly? text).map fun n : ℕ => -(n : ℤ)
  | '+' :: text => (digitsOnly? text).map fun n : ℕ => (n : ℤ)
  | text => (digitsOnly? text).map fun n : ℕ => (n : ℤ)

/-- `QString::toInt`: 0 where the conversion fails. -/
def toInt (text : List Char) : ℤ :=
  ((signed? text).filter fun n => -2 ^ 31 ≤ n ∧ n < 2 ^ 31).getD 0

/-- `QString::toLongLong`, with the flag. -/
def toLongLong? (text : List Char) : Option ℤ :=
  (signed? text).filter fun n => -2 ^ 63 ≤ n ∧ n < 2 ^ 63

/-! The pattern. -/

/-- `[0-9A-Za-z.-]`. -/
def isIdentifierChar (ch : Char) : Bool := ch.isAlphanum || ch = '.' || ch = '-'

structure Captured where
  major : List Char
  minor : List Char
  patch : List Char
  prerelease : List Char
  deriving DecidableEq

/-- The longest run of such characters, where there is one, and what comes after it. -/
def run? (accepts : Char → Bool) (text : List Char) : Option (List Char × List Char) :=
  if text.takeWhile accepts = [] then none
  else some (text.takeWhile accepts, text.dropWhile accepts)

def literal? (ch : Char) : List Char → Option (List Char)
  | first :: rest => if first = ch then some rest else none
  | [] => none

/-- `(?:-([0-9A-Za-z.-]+))?`. -/
def prerelease? (text : List Char) : Option (List Char × List Char) :=
  match literal? '-' text with
  | some rest => run? isIdentifierChar rest
  | none => some ([], text)

/-- `(?:\+[0-9A-Za-z.-]+)?$`. -/
def endsVersion (text : List Char) : Bool :=
  match literal? '+' text with
  | some rest => rest ≠ [] ∧ rest.all isIdentifierChar
  | none => text = []

/-- `^v?(\d+)\.(\d+)\.(\d+)(?:-([0-9A-Za-z.-]+))?(?:\+[0-9A-Za-z.-]+)?$`. -/
def matchSemVer (text : List Char) : Option Captured := do
  let (major, text) ← run? Char.isDigit ((literal? 'v' text).getD text)
  let text ← literal? '.' text
  let (minor, text) ← run? Char.isDigit text
  let text ← literal? '.' text
  let (patch, text) ← run? Char.isDigit text
  let (prerelease, text) ← prerelease? text
  if endsVersion text then some { major, minor, patch, prerelease } else none

def semVer? (raw : String) : Option Captured := matchSemVer (trimmed raw.toList)

/-- The prerelease identifiers. -/
def Captured.identifiers (m : Captured) : List (List Char) :=
  if m.prerelease.isEmpty then [] else m.prerelease.splitOn '.'

/-! The comparison. -/

structure QVersionNumber where
  majorVersion : ℤ := 0
  minorVersion : ℤ := 0
  microVersion : ℤ := 0

/-- The difference of the first segments that differ. -/
def QVersionNumber.compare (v w : QVersionNumber) : ℤ :=
  if v.majorVersion ≠ w.majorVersion then v.majorVersion - w.majorVersion
  else if v.minorVersion ≠ w.minorVersion then v.minorVersion - w.minorVersion
  else v.microVersion - w.microVersion

structure ParsedSemVer where
  core : QVersionNumber := {}
  prerelease : List (List Char) := []
  valid : Bool := false

def parseSemVer (raw : String) : ParsedSemVer :=
  match semVer? raw with
  | none => {}
  | some m =>
    { core := ⟨toInt m.major, toInt m.minor, toInt m.patch⟩
      prerelease := m.identifiers
      valid := true }

def QString.compare (left right : List Char) : ℤ :=
  match Ord.compare left right with
  | .lt => -1
  | .eq => 0
  | .gt => 1

def comparePrereleaseIdentifier (left right : List Char) : ℤ :=
  match toLongLong? left, toLongLong? right with
  | some leftNumber, some rightNumber =>
    if leftNumber < rightNumber then -1
    else if leftNumber > rightNumber then 1
    else 0
  | some _, none => -1
  | none, some _ => 1
  | none, none => QString.compare left right

/-- One turn of the loop over the identifiers, and what it returns if it does. -/
def decides (left right : List Char) : Option ℤ :=
  let idCompare := comparePrereleaseIdentifier left right
  if idCompare < 0 then some (-1)
  else if idCompare > 0 then some 1
  else none

/-- The loop, over as many identifiers as both have, and the comparison of the sizes after it. -/
def compareIdentifiers (left right : List (List Char)) : ℤ :=
  match (left.zip right).findSome? fun pair => decides pair.1 pair.2 with
  | some result => result
  | none =>
    if left.length < right.length then -1
    else if left.length > right.length then 1
    else 0

def compareSemVer (left right : String) : ℤ :=
  let a := parseSemVer left
  let b := parseSemVer right
  if !a.valid || !b.valid then 0
  else
    let coreCompare := a.core.compare b.core
    if coreCompare ≠ 0 then coreCompare
    else if a.prerelease.isEmpty && b.prerelease.isEmpty then 0
    else if a.prerelease.isEmpty then 1
    else if b.prerelease.isEmpty then -1
    else compareIdentifiers a.prerelease b.prerelease

def isValidSemVer (value : String) : Bool := (parseSemVer value).valid

/-! Precedence. -/

/-- Identifiers that are numbers are compared as numbers, and are lower than all others; others are
    compared by ASCII order. -/
def identifierOrder {N : Type} [Ord N] (numeric? : List Char → Option N) (x y : List Char) :
    Ordering :=
  match numeric? x, numeric? y with
  | some m, some n => compare m n
  | some _, none => .lt
  | none, some _ => .gt
  | none, none => compare x y

/-- A version without identifiers is higher than one with; else the first identifiers that differ
    decide, and where all of the shorter list are equal to the others, the longer list is
    higher. -/
def prereleaseOrder {N : Type} [Ord N] (numeric? : List Char → Option N) :
    List (List Char) → List (List Char) → Ordering
  | [], [] => .eq
  | [], _ :: _ => .gt
  | _ :: _, [] => .lt
  | x :: xs, y :: ys => List.compareLex (identifierOrder numeric?) (x :: xs) (y :: ys)

def Captured.precedence (m n : Captured) : Ordering :=
  (compare (digitsValue m.major) (digitsValue n.major)).then <|
  (compare (digitsValue m.minor) (digitsValue n.minor)).then <|
  (compare (digitsValue m.patch) (digitsValue n.patch)).then <|
  prereleaseOrder digitsOnly? m.identifiers n.identifiers

/-- SemVer 2.0.0, section 11. -/
def SemVer.precedence (left right : String) : Ordering :=
  match semVer? left, semVer? right with
  | some m, some n => m.precedence n
  | _, _ => .eq

/-! Components: what a lexicographic order compares one after the other. -/

inductive Component
  | number (digits : List Char)
  | identifier (text : List Char)
  | release
  deriving DecidableEq

/-- The order of the components where `number` reads a number and `numeric?` tells which
    identifiers are numbers. -/
def Component.order {M N : Type} [Ord M] [Ord N] (number : List Char → M)
    (numeric? : List Char → Option N) : Component → Component → Ordering
  | .number m, .number n => compare (number m) (number n)
  | .number _, _ => .lt
  | _, .number _ => .gt
  | .release, .release => .eq
  | .release, .identifier _ => .gt
  | .identifier _, .release => .lt
  | .identifier x, .identifier y => identifierOrder numeric? x y

namespace Component

/-- The components by precedence. -/
def precedence : Component → Component → Ordering := order digitsValue digitsOnly?

/-- The components as the code reads them. -/
def asRead : Component → Component → Ordering := order toInt toLongLong?

section
variable {M N : Type} [Ord M] [Ord N] {number : List Char → M} {numeric? : List Char → Option N}

theorem identifierOrder_swap [Std.OrientedOrd N] (x y : List Char) :
    identifierOrder numeric? x y = (identifierOrder numeric? y x).swap := by
  unfold identifierOrder
  cases numeric? x <;> cases numeric? y
  · exact Std.OrientedOrd.eq_swap
  · rfl
  · rfl
  · exact Std.OrientedOrd.eq_swap

theorem identifierOrder_isLE_trans [Std.TransOrd N] {x y z : List Char}
    (hxy : (identifierOrder numeric? x y).isLE) (hyz : (identifierOrder numeric? y z).isLE) :
    (identifierOrder numeric? x z).isLE := by
  cases hx : numeric? x <;> cases hy : numeric? y <;> cases hz : numeric? z <;>
    simp only [identifierOrder, hx, hy, hz] at hxy hyz ⊢
  -- a text below a number is not there, and a number is below every text
  all_goals first | exact Std.TransOrd.isLE_trans hxy hyz | contradiction | rfl

theorem order_swap [Std.OrientedOrd M] [Std.OrientedOrd N] (x y : Component) :
    order number numeric? x y = (order number numeric? y x).swap := by
  cases x <;> cases y
  case number.number => exact Std.OrientedOrd.eq_swap
  case identifier.identifier => exact identifierOrder_swap _ _
  all_goals rfl

theorem order_isLE_trans [Std.TransOrd M] [Std.TransOrd N] {x y z : Component}
    (hxy : (order number numeric? x y).isLE) (hyz : (order number numeric? y z).isLE) :
    (order number numeric? x z).isLE := by
  cases x <;> cases y <;> cases z
  case number.number.number => exact Std.TransOrd.isLE_trans hxy hyz
  case identifier.identifier.identifier => exact identifierOrder_isLE_trans hxy hyz
  all_goals first | contradiction | rfl

instance [Std.TransOrd M] [Std.TransOrd N] : Std.TransCmp (order number numeric?) where
  eq_swap := order_swap _ _
  isLE_trans := order_isLE_trans

end

instance : Std.TransCmp precedence := inferInstanceAs (Std.TransCmp (order _ _))

instance : Std.TransCmp asRead := inferInstanceAs (Std.TransCmp (order _ _))

end Component

def prereleaseComponents : List (List Char) → List Component
  | [] => [.release]
  | x :: xs => (x :: xs).map .identifier

def Captured.components (m : Captured) : List Component :=
  .number m.major :: .number m.minor :: .number m.patch :: prereleaseComponents m.identifiers

section
variable {M N : Type} [Ord M] [Ord N] (number : List Char → M) (numeric? : List Char → Option N)

theorem compareLex_identifiers (xs ys : List (List Char)) :
    List.compareLex (Component.order number numeric?) (xs.map .identifier) (ys.map .identifier) =
      List.compareLex (identifierOrder numeric?) xs ys := by
  induction xs generalizing ys with
  | nil => cases ys <;> rfl
  | cons x xs ih =>
    cases ys with
    | nil => rfl
    | cons y ys =>
      rw [List.map_cons, List.map_cons, List.compareLex_cons_cons, List.compareLex_cons_cons, ih]
      rfl

theorem compareLex_prereleaseComponents (xs ys : List (List Char)) :
    List.compareLex (Component.order number numeric?) (prereleaseComponents xs)
      (prereleaseComponents ys) = prereleaseOrder numeric? xs ys := by
  cases xs <;> cases ys
  case cons.cons => exact compareLex_identifiers number numeric? _ _
  all_goals rfl

theorem compareLex_components (m n : Captured) :
    List.compareLex (Component.order number numeric?) m.components n.components =
      ((compare (number m.major) (number n.major)).then <|
      (compare (number m.minor) (number n.minor)).then <|
      (compare (number m.patch) (number n.patch)).then <|
      prereleaseOrder numeric? m.identifiers n.identifiers) := by
  simp only [Captured.components, List.compareLex_cons_cons, compareLex_prereleaseComponents,
    Component.order]

end

/-- Precedence is the lexicographic order of the components. -/
theorem Captured.precedence_eq (m n : Captured) :
    m.precedence n = List.compareLex Component.precedence m.components n.components :=
  (compareLex_components digitsValue digitsOnly? m n).symm

/-! The comparison is such an order too. -/

theorem compare_sub_zero (m n : ℤ) : compare (m - n) 0 = compare m n := by
  rw [← cmp_eq_compare, cmp_sub_zero, cmp_eq_compare]

theorem sign_of_first (first rest : ℤ) :
    compare (if first ≠ 0 then first else rest) 0 = (compare first 0).then (compare rest 0) := by
  by_cases h : first = 0
  · rw [if_neg (not_not.mpr h), compare_eq_iff_eq.mpr h, Ordering.eq_then]
  · rw [if_pos h]
    cases hcompare : compare first 0
    · rfl
    · exact absurd (compare_eq_iff_eq.mp hcompare) h
    · rfl

theorem sign_compareVersionNumber (v w : QVersionNumber) :
    compare (v.compare w) 0 =
      ((compare v.majorVersion w.majorVersion).then <|
      (compare v.minorVersion w.minorVersion).then <|
      compare v.microVersion w.microVersion) := by
  unfold QVersionNumber.compare
  simp only [ne_eq, ← sub_eq_zero (a := v.majorVersion), ← sub_eq_zero (a := v.minorVersion)]
  rw [sign_of_first, sign_of_first, compare_sub_zero, compare_sub_zero, compare_sub_zero]

theorem sign_compareString (x y : List Char) :
    compare (QString.compare x y) 0 = compare x y := by
  unfold QString.compare
  cases Ord.compare x y <;> rfl

theorem sign_comparePrereleaseIdentifier (x y : List Char) :
    compare (comparePrereleaseIdentifier x y) 0 = identifierOrder toLongLong? x y := by
  unfold comparePrereleaseIdentifier identifierOrder
  cases toLongLong? x <;> cases toLongLong? y
  case none.none => exact sign_compareString x y
  case some.some m n =>
    rcases lt_trichotomy m n with h | h | h
    · simp only [if_pos h, compare_lt_iff_lt.mpr h]
      rfl
    · simp only [h, lt_irrefl, if_false, compare_eq_iff_eq.mpr]
    · simp only [if_neg h.not_gt, gt_iff_lt, if_pos h, compare_gt_iff_gt.mpr h]
      rfl
  all_goals rfl

theorem decides_eq (x y : List Char) : decides x y =
    match identifierOrder toLongLong? x y with
    | .lt => some (-1)
    | .eq => none
    | .gt => some 1 := by
  rw [← sign_comparePrereleaseIdentifier]
  unfold decides
  generalize comparePrereleaseIdentifier x y = result
  rcases lt_trichotomy result 0 with h | h | h
  · simp only [if_pos h, compare_lt_iff_lt.mpr h]
  · simp only [h, lt_irrefl, if_false, compare_eq_iff_eq.mpr]
  · simp only [if_neg h.not_gt, gt_iff_lt, if_pos h, compare_gt_iff_gt.mpr h]

/-- The loop and the sizes together. -/
theorem sign_compareIdentifiers (xs ys : List (List Char)) :
    compare (compareIdentifiers xs ys) 0 =
      List.compareLex (identifierOrder toLongLong?) xs ys := by
  induction xs generalizing ys with
  | nil => cases ys <;> rfl
  | cons x xs ih =>
    cases ys with
    | nil => rfl
    | cons y ys =>
      rw [List.compareLex_cons_cons, ← ih]
      unfold compareIdentifiers
      rw [List.zip_cons_cons, List.findSome?_cons, decides_eq]
      cases identifierOrder toLongLong? x y
      · rfl
      · simp only [List.length_cons, Nat.add_lt_add_iff_right, gt_iff_lt, Ordering.eq_then]
      · rfl

theorem isValidSemVer_iff (value : String) :
    isValidSemVer value = true ↔ ∃ m, semVer? value = some m := by
  unfold isValidSemVer parseSemVer
  cases semVer? value <;> simp

/-- The comparison is the lexicographic order of the components as the code reads them. -/
theorem sign_compareSemVer {a b : String} {m n : Captured} (ha : semVer? a = some m)
    (hb : semVer? b = some n) :
    compare (compareSemVer a b) 0 =
      List.compareLex Component.asRead m.components n.components := by
  have hrest : compare (if m.identifiers.isEmpty && n.identifiers.isEmpty then 0
      else if m.identifiers.isEmpty then 1
      else if n.identifiers.isEmpty then -1
      else compareIdentifiers m.identifiers n.identifiers) 0 =
      prereleaseOrder toLongLong? m.identifiers n.identifiers := by
    cases m.identifiers <;> cases n.identifiers
    case cons.cons => exact sign_compareIdentifiers _ _
    all_goals rfl
  have hparsed : compareSemVer a b =
      if QVersionNumber.compare ⟨toInt m.major, toInt m.minor, toInt m.patch⟩
          ⟨toInt n.major, toInt n.minor, toInt n.patch⟩ ≠ 0 then
        QVersionNumber.compare ⟨toInt m.major, toInt m.minor, toInt m.patch⟩
          ⟨toInt n.major, toInt n.minor, toInt n.patch⟩
      else if m.identifiers.isEmpty && n.identifiers.isEmpty then 0
      else if m.identifiers.isEmpty then 1
      else if n.identifiers.isEmpty then -1
      else compareIdentifiers m.identifiers n.identifiers := by
    simp only [compareSemVer, parseSemVer, ha, hb, Bool.not_true, Bool.or_self, Bool.false_eq_true,
      if_false]
  rw [hparsed, sign_of_first, hrest, sign_compareVersionNumber, Component.asRead,
    compareLex_components, Ordering.then_assoc, Ordering.then_assoc]

def componentsOf (version : String) : List Component :=
  ((semVer? version).map Captured.components).getD []

theorem componentsOf_eq {version : String} {m : Captured} (h : semVer? version = some m) :
    componentsOf version = m.components := by
  rw [componentsOf, h, Option.map_some, Option.getD_some]

/-- The order of versions that the comparison makes: a total preorder. -/
def versionOrder (a b : String) : Ordering :=
  List.compareLex Component.asRead (componentsOf a) (componentsOf b)

instance : Std.TransCmp versionOrder :=
  inferInstanceAs (Std.TransCmp (Ordering.byKey componentsOf (List.compareLex Component.asRead)))

theorem sign_compareSemVer_of_valid {a b : String} (ha : isValidSemVer a = true)
    (hb : isValidSemVer b = true) : compare (compareSemVer a b) 0 = versionOrder a b := by
  obtain ⟨m, hm⟩ := (isValidSemVer_iff a).mp ha
  obtain ⟨n, hn⟩ := (isValidSemVer_iff b).mp hb
  rw [sign_compareSemVer hm hn, versionOrder, componentsOf_eq hm, componentsOf_eq hn]

theorem compareSemVer_pos_iff {a b : String} (ha : isValidSemVer a = true)
    (hb : isValidSemVer b = true) : 0 < compareSemVer a b ↔ versionOrder a b = .gt := by
  rw [← sign_compareSemVer_of_valid ha hb, compare_gt_iff_gt]

theorem compareSemVer_eq_zero_iff {a b : String} (ha : isValidSemVer a = true)
    (hb : isValidSemVer b = true) : compareSemVer a b = 0 ↔ versionOrder a b = .eq := by
  rw [← sign_compareSemVer_of_valid ha hb, compare_eq_iff_eq]

/-! The texts that are accepted. -/

/-- A nonempty run of digits. -/
def IsNumber (text : List Char) : Prop := text ≠ [] ∧ ∀ ch ∈ text, ch.isDigit = true

structure Captured.WellFormed (m : Captured) : Prop where
  major : IsNumber m.major
  minor : IsNumber m.minor
  patch : IsNumber m.patch
  prerelease : ∀ ch ∈ m.prerelease, isIdentifierChar ch = true

def prereleaseText (prerelease : List Char) : List Char :=
  if prerelease = [] then [] else '-' :: prerelease

/-- The text of a version without build metadata. -/
def Captured.text (m : Captured) : List Char :=
  m.major ++ '.' :: (m.minor ++ '.' :: (m.patch ++ prereleaseText m.prerelease))

theorem run?_eq_some_iff {accepts : Char → Bool} {text run rest : List Char} :
    run? accepts text = some (run, rest) ↔
      text = run ++ rest ∧ run ≠ [] ∧ (∀ ch ∈ run, accepts ch = true) ∧
        ∀ ch ∈ rest.head?, accepts ch = false := by
  unfold run?
  constructor
  · intro h
    split at h
    next => exact absurd h (by simp)
    next hne =>
      simp only [Option.some.injEq, Prod.mk.injEq] at h
      obtain ⟨rfl, rfl⟩ := h
      refine ⟨List.takeWhile_append_dropWhile.symm, hne, List.all_eq_true.mp List.all_takeWhile, ?_⟩
      intro ch hch
      have hnot := List.head?_dropWhile_not accepts text
      rw [Option.mem_def.mp hch] at hnot
      exact hnot
  · rintro ⟨rfl, hne, hall, hhead⟩
    have hrest : rest.takeWhile accepts = [] ∧ rest.dropWhile accepts = rest := by
      cases rest with
      | nil => exact ⟨rfl, rfl⟩
      | cons ch rest =>
        have hch := hhead ch rfl
        exact ⟨List.takeWhile_cons_of_neg (by simp [hch]),
          List.dropWhile_cons_of_neg (by simp [hch])⟩
    rw [List.takeWhile_append_of_pos hall, List.dropWhile_append_of_pos hall, hrest.1, hrest.2,
      List.append_nil, if_neg hne]

theorem literal?_eq_some_iff {ch : Char} {text rest : List Char} :
    literal? ch text = some rest ↔ text = ch :: rest := by
  unfold literal?
  split
  next first tail =>
    split
    next h => simp [h]
    next h => simp [h]
  next => simp

theorem prerelease?_eq_some_iff {text prerelease rest : List Char}
    (hrest : ∀ ch ∈ rest.head?, isIdentifierChar ch = false) :
    prerelease? text = some (prerelease, rest) ↔
      text = prereleaseText prerelease ++ rest ∧ ∀ ch ∈ prerelease, isIdentifierChar ch = true := by
  unfold prerelease? prereleaseText
  cases hdash : literal? '-' text with
  | some tail =>
    obtain rfl := literal?_eq_some_iff.mp hdash
    simp only [run?_eq_some_iff]
    by_cases hne : prerelease = []
    · constructor
      · exact fun h => absurd hne h.2.1
      · rintro ⟨htext, -⟩
        rw [if_pos hne, List.nil_append] at htext
        exact absurd (hrest '-' (by rw [← htext]; rfl)) (by decide)
    · rw [if_neg hne, List.cons_append, List.cons.injEq]
      exact ⟨fun h => ⟨⟨rfl, h.1⟩, h.2.2.1⟩, fun h => ⟨h.1.2, hne, h.2, hrest⟩⟩
  | none =>
    simp only [Option.some.injEq, Prod.mk.injEq]
    constructor
    · rintro ⟨rfl, rfl⟩
      simp
    · rintro ⟨htext, -⟩
      by_cases hne : prerelease = []
      · rw [if_pos hne, List.nil_append] at htext
        exact ⟨hne.symm, htext⟩
      · rw [if_neg hne, List.cons_append] at htext
        rw [literal?_eq_some_iff.mpr htext] at hdash
        exact absurd hdash (by simp)

theorem head?_of_endsVersion {text : List Char} (h : endsVersion text = true) {ch : Char}
    (hch : ch ∈ text.head?) : ch = '+' := by
  unfold endsVersion at h
  cases hplus : literal? '+' text with
  | some tail =>
    rw [literal?_eq_some_iff.mp hplus] at hch
    simpa using hch.symm
  | none =>
    rw [hplus, decide_eq_true_eq] at h
    rw [h] at hch
    exact absurd hch (by simp)

theorem prerelease?_of_endsVersion {text prerelease build : List Char}
    (hbuild : endsVersion build = true) :
    prerelease? text = some (prerelease, build) ↔
      text = prereleaseText prerelease ++ build ∧ ∀ ch ∈ prerelease, isIdentifierChar ch = true := by
  apply prerelease?_eq_some_iff
  intro ch hch
  rw [head?_of_endsVersion hbuild hch]
  decide

/-- After the digits of the last number. -/
theorem isDigit_head?_of_endsVersion (prerelease : List Char) {build : List Char}
    (hbuild : endsVersion build = true) {ch : Char}
    (hch : ch ∈ (prereleaseText prerelease ++ build).head?) : ch.isDigit = false := by
  unfold prereleaseText at hch
  split at hch
  next =>
    rw [List.nil_append] at hch
    rw [head?_of_endsVersion hbuild hch]
    decide
  next =>
    obtain rfl : '-' = ch := by simpa using hch
    decide

/-- Nothing but a text of this form is accepted, and of it these parts are captured. -/
theorem matchSemVer_eq_some_iff {text : List Char} {m : Captured} :
    matchSemVer text = some m ↔ m.WellFormed ∧
      ∃ build, endsVersion build = true ∧ (literal? 'v' text).getD text = m.text ++ build := by
  unfold matchSemVer
  simp only [Option.bind_eq_bind, Option.bind_eq_some_iff, Prod.exists, literal?_eq_some_iff,
    run?_eq_some_iff, Option.ite_none_right_eq_some]
  constructor
  · rintro ⟨major, _, ⟨htext, hmajor, hmajors, -⟩, _, rfl, minor, _, ⟨rfl, hminor, hminors, -⟩, _,
      rfl, patch, _, ⟨rfl, hpatch, hpatches, -⟩, prerelease, build, hprerelease, hbuild, hm⟩
    cases hm
    obtain ⟨rfl, hall⟩ := (prerelease?_of_endsVersion hbuild).mp hprerelease
    refine ⟨⟨⟨hmajor, hmajors⟩, ⟨hminor, hminors⟩, ⟨hpatch, hpatches⟩, hall⟩, build, hbuild, ?_⟩
    rw [htext]
    simp [Captured.text]
  · rintro ⟨hm, build, hbuild, htext⟩
    have hdot : ∀ rest : List Char, ∀ ch ∈ ('.' :: rest).head?, ch.isDigit = false := by
      intro rest ch hch
      obtain rfl : '.' = ch := by simpa using hch
      decide
    refine ⟨m.major, _, ⟨?_, hm.major.1, hm.major.2, hdot _⟩, _, rfl,
      m.minor, _, ⟨rfl, hm.minor.1, hm.minor.2, hdot _⟩, _, rfl,
      m.patch, _, ⟨rfl, hm.patch.1, hm.patch.2,
        fun _ => isDigit_head?_of_endsVersion m.prerelease hbuild⟩,
      m.prerelease, build, ?_, hbuild, rfl⟩
    · rw [htext]
      simp [Captured.text]
    · exact (prerelease?_of_endsVersion hbuild).mpr ⟨rfl, hm.prerelease⟩

theorem matchSemVer_text {m : Captured} (hm : m.WellFormed) : matchSemVer m.text = some m := by
  apply matchSemVer_eq_some_iff.mpr
  refine ⟨hm, [], rfl, ?_⟩
  have hdigit : literal? 'v' m.text = none := by
    rw [Option.eq_none_iff_forall_ne_some]
    intro rest hrest
    obtain ⟨hne, hall⟩ := hm.major
    obtain ⟨ch, digits, hmajor⟩ := List.exists_cons_of_ne_nil hne
    rw [literal?_eq_some_iff, Captured.text, hmajor, List.cons_append, List.cons.injEq] at hrest
    have hch := hall ch (by simp [hmajor])
    rw [hrest.1] at hch
    exact absurd hch (by decide)
  rw [hdigit, Option.getD_none, List.append_nil]

end PPB
