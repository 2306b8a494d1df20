import PPBProject.SemVer

/- Where the comparison of versions is SemVer precedence. A number from 2^31 on is read as 0; an
   identifier of digits from 2^63 on is no number; an identifier of a hyphen and digits is a
   negative number. A version without any of them is plain. -/
namespace PPB

/-- What the code and SemVer read in the same way. -/
def Component.Plain : Component → Prop
  | .number digits => digitsValue digits < 2 ^ 31
  | .identifier text => (∀ n ∈ digitsOnly? text, n < 2 ^ 63) ∧
      ∀ tail, text = '-' :: tail → ∀ n ∈ digitsOnly? tail, 2 ^ 63 < n
  | .release => True

def IsPlain (version : String) : Prop := ∀ x ∈ componentsOf version, x.Plain

/-- The comparison is precedence. -/
def Agrees (a b : String) : Prop := compare (compareSemVer a b) 0 = SemVer.precedence a b

/-- Of the components, the first two that differ, by precedence or as the code reads them, are in
    the same order both ways; or only one of the ways finds them different, and the first two that
    differ the other way, further on, are in that order too. -/
def RightlyOrdered : List Component → List Component → Prop
  | x :: xs, y :: ys =>
    match x.precedence y, x.asRead y with
    | .eq, .eq => RightlyOrdered xs ys
    | .eq, read => List.compareLex Component.precedence xs ys = read
    | meant, .eq => List.compareLex Component.asRead xs ys = meant
    | meant, read => meant = read
  | _, _ => True

theorem rightlyOrdered_iff (xs ys : List Component) :
    RightlyOrdered xs ys ↔
      List.compareLex Component.precedence xs ys = List.compareLex Component.asRead xs ys := by
  induction xs generalizing ys with
  | nil => cases ys <;> simp [RightlyOrdered, List.compareLex]
  | cons x xs ih =>
    cases ys with
    | nil => simp [RightlyOrdered, List.compareLex]
    | cons y ys =>
      rw [RightlyOrdered, List.compareLex_cons_cons, List.compareLex_cons_cons]
      cases x.precedence y <;> cases x.asRead y
      case eq.eq => exact ih ys
      all_goals simp [eq_comm]

instance (xs ys : List Component) : Decidable (RightlyOrdered xs ys) :=
  decidable_of_iff _ (rightlyOrdered_iff xs ys).symm

/-! What is read. -/

theorem digitsOnly?_of_isNumber {text : List Char} (h : IsNumber text) :
    digitsOnly? text = some (digitsValue text) :=
  if_pos ⟨h.1, List.all_eq_true.mpr h.2⟩

theorem digitsOnly?_eq_some_iff {text : List Char} {n : ℕ} :
    digitsOnly? text = some n ↔ IsNumber text ∧ digitsValue text = n := by
  unfold digitsOnly? IsNumber
  rw [Option.ite_none_right_eq_some, Option.some.injEq, List.all_eq_true]

theorem signed?_of_isNumber {text : List Char} (h : IsNumber text) :
    signed? text = some (digitsValue text : ℤ) := by
  unfold signed?
  split
  next tail => exact absurd (h.2 '-' (by simp)) (by decide)
  next tail => exact absurd (h.2 '+' (by simp)) (by decide)
  next => rw [digitsOnly?_of_isNumber h, Option.map_some]

/-- A bound on what is read, as a bound on the digits. -/
theorem filter_of_iff {z : ℤ} {low high : ℤ} {p : Prop} [Decidable p]
    (h : (low ≤ z ∧ z < high) ↔ p) :
    (some z).filter (fun n => low ≤ n ∧ n < high) = if p then some z else none := by
  rw [Option.filter_some]
  simp only [h, decide_eq_true_eq]

theorem toInt_of_isNumber {text : List Char} (h : IsNumber text) :
    toInt text = if digitsValue text < 2 ^ 31 then (digitsValue text : ℤ) else 0 := by
  have hiff : (-2 ^ 31 ≤ (digitsValue text : ℤ) ∧ (digitsValue text : ℤ) < 2 ^ 31) ↔
      digitsValue text < 2 ^ 31 := by omega
  rw [toInt, signed?_of_isNumber h, filter_of_iff hiff]
  split <;> rfl

theorem toLongLong?_of_isNumber {text : List Char} (h : IsNumber text) :
    toLongLong? text = if digitsValue text < 2 ^ 63 then some (digitsValue text : ℤ) else none := by
  rw [toLongLong?, signed?_of_isNumber h]
  exact filter_of_iff (by omega)

theorem toLongLong?_hyphen {tail : List Char} (h : IsNumber tail) :
    toLongLong? ('-' :: tail) =
      if digitsValue tail ≤ 2 ^ 63 then some (-(digitsValue tail : ℤ)) else none := by
  rw [toLongLong?, signed?, digitsOnly?_of_isNumber h, Option.map_some]
  exact filter_of_iff (by omega)

/-- Neither digits only nor a hyphen and digits. -/
theorem toLongLong?_of_text {text : List Char} (hchars : ∀ ch ∈ text, isIdentifierChar ch = true)
    (hdigits : digitsOnly? text = none) (hhyphen : ∀ tail, text = '-' :: tail → ¬ IsNumber tail) :
    toLongLong? text = none := by
  have hsigned : signed? text = none := by
    unfold signed?
    split
    next tail =>
      rw [digitsOnly?, if_neg, Option.map_none]
      exact fun h => hhyphen tail rfl ⟨h.1, List.all_eq_true.mp h.2⟩
    next tail => exact absurd (hchars '+' (by simp)) (by decide)
    next => rw [hdigits, Option.map_none]
  rw [toLongLong?, hsigned, Option.filter_none]

/-! Components of accepted versions. -/

def Component.WellFormed : Component → Prop
  | .number digits => IsNumber digits
  | .identifier text => ∀ ch ∈ text, isIdentifierChar ch = true
  | .release => True

theorem mem_of_mem_splitOn {sep ch : Char} {text part : List Char} (hpart : part ∈ text.splitOn sep)
    (hch : ch ∈ part) : ch ∈ text ∧ ch ≠ sep := by
  induction text generalizing part with
  | nil =>
    rw [List.splitOn_nil, List.mem_singleton] at hpart
    rw [hpart] at hch
    exact absurd hch (by simp)
  | cons first text ih =>
    rw [List.splitOn_cons_eq_if_modifyHead] at hpart
    split at hpart
    next =>
      rcases List.mem_cons.mp hpart with rfl | hpart
      · exact absurd hch (by simp)
      · exact (ih hpart hch).imp_left (List.mem_cons_of_mem _)
    next hne =>
      obtain ⟨head, tail, hsplit⟩ := List.exists_cons_of_ne_nil (List.splitOn_ne_nil sep text)
      rw [hsplit, List.modifyHead_cons] at hpart
      rw [hsplit] at ih
      rcases List.mem_cons.mp hpart with rfl | hpart
      · rcases List.mem_cons.mp hch with rfl | hch
        · exact ⟨List.mem_cons_self, by simpa using hne⟩
        · exact (ih List.mem_cons_self hch).imp_left (List.mem_cons_of_mem _)
      · exact (ih (List.mem_cons_of_mem _ hpart) hch).imp_left (List.mem_cons_of_mem _)

theorem Captured.WellFormed.identifiers {m : Captured} (hm : m.WellFormed) :
    ∀ text ∈ m.identifiers, ∀ ch ∈ text, isIdentifierChar ch = true := by
  unfold Captured.identifiers
  split
  next => simp
  next => exact fun text htext ch hch => hm.prerelease ch (mem_of_mem_splitOn htext hch).1

theorem not_dot_of_mem_identifiers {m : Captured} {text : List Char} (h : text ∈ m.identifiers) :
    '.' ∉ text := by
  unfold Captured.identifiers at h
  split at h
  next => exact absurd h (by simp)
  next => exact fun hdot => (mem_of_mem_splitOn h hdot).2 rfl

theorem prereleaseComponents_append_cons (before : List (List Char)) (text : List Char)
    (after : List (List Char)) :
    prereleaseComponents (before ++ text :: after) =
      before.map .identifier ++ .identifier text :: after.map .identifier := by
  cases before <;> simp [prereleaseComponents]

theorem Captured.forall_components {P : Component → Prop} (hrelease : P .release) (m : Captured) :
    (∀ x ∈ m.components, P x) ↔ P (.number m.major) ∧ P (.number m.minor) ∧ P (.number m.patch) ∧
      ∀ text ∈ m.identifiers, P (.identifier text) := by
  simp only [components, List.forall_mem_cons]
  cases m.identifiers with
  | nil => simp [prereleaseComponents, hrelease]
  | cons text texts => simp only [prereleaseComponents, List.forall_mem_map]

theorem Captured.WellFormed.components {m : Captured} (hm : m.WellFormed) :
    ∀ x ∈ m.components, x.WellFormed :=
  (m.forall_components trivial).mpr ⟨hm.major, hm.minor, hm.patch, hm.identifiers⟩

/-! Plain components. -/

theorem toInt_of_plain {digits : List Char} (h : IsNumber digits)
    (hplain : (Component.number digits).Plain) : toInt digits = digitsValue digits := by
  rw [toInt_of_isNumber h]
  exact if_pos hplain

theorem toLongLong?_of_plain {text : List Char}
    (hchars : ∀ ch ∈ text, isIdentifierChar ch = true)
    (hplain : (Component.identifier text).Plain) :
    toLongLong? text = (digitsOnly? text).map fun n : ℕ => (n : ℤ) := by
  obtain ⟨hsmall, hhyphen⟩ := hplain
  cases hdigits : digitsOnly? text with
  | some n =>
    obtain ⟨hnumber, rfl⟩ := digitsOnly?_eq_some_iff.mp hdigits
    rw [toLongLong?_of_isNumber hnumber, if_pos (hsmall _ hdigits), Option.map_some]
  | none =>
    rw [Option.map_none]
    by_cases hsigned : ∃ tail, text = '-' :: tail ∧ IsNumber tail
    · obtain ⟨tail, rfl, hnumber⟩ := hsigned
      have hlarge := hhyphen tail rfl _ (digitsOnly?_of_isNumber hnumber)
      rw [toLongLong?_hyphen hnumber, if_neg (by omega)]
    · exact toLongLong?_of_text hchars hdigits fun tail htail hnumber =>
        hsigned ⟨tail, htail, hnumber⟩

theorem compare_natCast (m n : ℕ) : compare (m : ℤ) (n : ℤ) = compare m n := by
  rw [← cmp_eq_compare, ← cmp_eq_compare]
  exact StrictMono.cmp_map_eq (fun _ _ => Int.ofNat_lt.mpr) m n

theorem Component.asRead_of_plain {x y : Component} (hx : x.WellFormed) (hy : y.WellFormed)
    (hxplain : x.Plain) (hyplain : y.Plain) : x.precedence y = x.asRead y := by
  cases x <;> cases y
  case number.number =>
    simp only [precedence, asRead, order, toInt_of_plain hx hxplain, toInt_of_plain hy hyplain,
      compare_natCast]
  case identifier.identifier x y =>
    simp only [precedence, asRead, order, identifierOrder, toLongLong?_of_plain hx hxplain,
      toLongLong?_of_plain hy hyplain]
    cases digitsOnly? x <;> cases digitsOnly? y
    case some.some => exact (compare_natCast _ _).symm
    all_goals rfl
  all_goals rfl

theorem compareLex_congr {α : Type} {cmp cmp' : α → α → Ordering} {xs ys : List α}
    (h : ∀ x ∈ xs, ∀ y ∈ ys, cmp x y = cmp' x y) :
    List.compareLex cmp xs ys = List.compareLex cmp' xs ys := by
  induction xs generalizing ys with
  | nil => cases ys <;> rfl
  | cons x xs ih =>
    cases ys with
    | nil => rfl
    | cons y ys =>
      rw [List.compareLex_cons_cons, List.compareLex_cons_cons,
        h x List.mem_cons_self y List.mem_cons_self,
        ih fun x hx y hy => h x (List.mem_cons_of_mem _ hx) y (List.mem_cons_of_mem _ hy)]

/-! A component that is not plain is misread against a plain one. -/

/-- `y` is a plain component against which `x` is misread. -/
structure Component.Reveals (x y : Component) : Prop where
  wellFormed : y.WellFormed
  plain : y.Plain
  strict : x.precedence y ≠ .eq
  swapped : x.asRead y = (x.precedence y).swap

theorem isNumber_singleton {ch : Char} (h : ch.isDigit = true) : IsNumber [ch] :=
  ⟨List.cons_ne_nil _ _, List.forall_mem_singleton.mpr h⟩

theorem isNumber_one : IsNumber ['1'] := isNumber_singleton rfl

theorem digitsValue_one : digitsValue ['1'] = 1 := by decide

theorem Component.plain_number_one : (Component.number ['1']).Plain := by
  show digitsValue ['1'] < 2 ^ 31
  rw [digitsValue_one]
  omega

theorem Component.plain_number_zero : (Component.number ['0']).Plain := by
  have hzero : digitsValue ['0'] = 0 := by decide
  show digitsValue ['0'] < 2 ^ 31
  rw [hzero]
  omega

theorem Component.plain_identifier_one : (Component.identifier ['1']).Plain := by
  constructor
  · rw [digitsOnly?_of_isNumber isNumber_one, digitsValue_one]
    simp
  · intro tail htail
    exact absurd htail (by simp)

theorem Component.plain_identifier_hyphen : (Component.identifier ['-']).Plain := by
  refine ⟨by simp [digitsOnly?], ?_⟩
  intro tail htail
  obtain rfl : [] = tail := by simpa using htail
  simp [digitsOnly?]

theorem Component.reveals_number {digits : List Char} (h : IsNumber digits)
    (hplain : ¬ (Component.number digits).Plain) :
    (Component.number digits).Reveals (.number ['1']) := by
  have hlarge : 2 ^ 31 ≤ digitsValue digits := not_lt.mp hplain
  have hgt : (Component.number digits).precedence (.number ['1']) = .gt := by
    simp only [precedence, order, digitsValue_one, compare_gt_iff_gt]
    omega
  refine ⟨isNumber_one, plain_number_one, by rw [hgt]; decide, ?_⟩
  rw [hgt]
  simp only [asRead, order, toInt_of_isNumber h, if_neg (not_lt.mpr hlarge)]
  rfl

theorem compare_hyphen_of_isDigit {ch : Char} (h : ch.isDigit = true) : compare ch '-' = .gt := by
  have hlow : '0'.val ≤ ch.val := by
    simp only [Char.isDigit, Bool.and_eq_true, decide_eq_true_eq] at h
    exact h.1
  have hzero : '0'.val.toNat = 48 := rfl
  have hhyphen : '-'.val.toNat = 45 := rfl
  rw [UInt32.le_iff_toNat_le] at hlow
  have hnot : ¬ ch < '-' := by
    rw [Char.lt_def, UInt32.lt_iff_toNat_lt]
    omega
  have hne : ch ≠ '-' := by
    rintro rfl
    omega
  show compareOfLessAndEq ch '-' = .gt
  rw [compareOfLessAndEq, if_neg hnot, if_neg hne]

theorem Component.reveals_digits {text : List Char} (h : IsNumber text)
    (hlarge : 2 ^ 63 ≤ digitsValue text) :
    (Component.identifier text).Reveals (.identifier ['-']) := by
  have hlt : (Component.identifier text).precedence (.identifier ['-']) = .lt := by
    simp only [precedence, order, identifierOrder, digitsOnly?_of_isNumber h]
    rfl
  refine ⟨by simp [WellFormed, isIdentifierChar], plain_identifier_hyphen, by rw [hlt]; decide, ?_⟩
  rw [hlt]
  simp only [asRead, order, identifierOrder, toLongLong?_of_isNumber h,
    if_neg (not_lt.mpr hlarge)]
  -- the text is above the hyphen, as its first digit is
  obtain ⟨ch, digits, rfl⟩ := List.exists_cons_of_ne_nil h.1
  have hgt := compare_hyphen_of_isDigit (h.2 ch List.mem_cons_self)
  have hhyphen : toLongLong? ['-'] = none := by decide
  simp only [hhyphen, List.compare_cons_cons, hgt]
  rfl

theorem Component.reveals_hyphen {tail : List Char} (h : IsNumber tail)
    (hsmall : digitsValue tail ≤ 2 ^ 63) :
    (Component.identifier ('-' :: tail)).Reveals (.identifier ['1']) := by
  have hgt : (Component.identifier ('-' :: tail)).precedence (.identifier ['1']) = .gt := by
    have hnone : digitsOnly? ('-' :: tail) = none := if_neg fun h => absurd h.2 (by simp)
    simp only [precedence, order, identifierOrder, hnone]
    rfl
  refine ⟨by simp [WellFormed, isIdentifierChar], plain_identifier_one, by rw [hgt]; decide, ?_⟩
  have hone : toLongLong? ['1'] = some 1 := by decide
  rw [hgt]
  simp only [asRead, order, identifierOrder, toLongLong?_hyphen h, if_pos hsmall, hone,
    Ordering.swap_gt, compare_lt_iff_lt]
  omega

theorem Component.exists_reveals {text : List Char} (hplain : ¬ (Component.identifier text).Plain) :
    ∃ other, other ≠ [] ∧ '.' ∉ other ∧
      (Component.identifier text).Reveals (.identifier other) := by
  have hmisread : (∃ n ∈ digitsOnly? text, 2 ^ 63 ≤ n) ∨
      ∃ tail, text = '-' :: tail ∧ ∃ n ∈ digitsOnly? tail, n ≤ 2 ^ 63 := by
    by_contra hnone
    push Not at hnone
    exact hplain hnone
  rcases hmisread with ⟨n, hn, hlarge⟩ | ⟨tail, rfl, n, hn, hsmall⟩
  · obtain ⟨hnumber, rfl⟩ := digitsOnly?_eq_some_iff.mp hn
    exact ⟨['-'], by decide, by decide, reveals_digits hnumber hlarge⟩
  · obtain ⟨hnumber, rfl⟩ := digitsOnly?_eq_some_iff.mp hn
    exact ⟨['1'], by decide, by decide, reveals_hyphen hnumber hsmall⟩

/-! A version that is not plain is misread against a plain one. -/

theorem compareLex_append {α : Type} {cmp : α → α → Ordering} [Std.ReflCmp cmp]
    (before : List α) {x y : α} {xs ys : List α} (h : cmp x y ≠ .eq) :
    List.compareLex cmp (before ++ x :: xs) (before ++ y :: ys) = cmp x y := by
  induction before with
  | nil =>
    rw [List.nil_append, List.nil_append, List.compareLex_cons_cons]
    cases hcmp : cmp x y
    · rfl
    · exact absurd hcmp h
    · rfl
  | cons first before ih =>
    rw [List.cons_append, List.cons_append, List.compareLex_cons_cons,
      @Std.ReflCmp.compare_self α cmp _ first, ih]
    rfl

/-- Two versions whose components are the same before those two. -/
theorem Component.Reveals.compareLex_ne {x y : Component} (h : x.Reveals y)
    (before : List Component) {xs ys : List Component} :
    List.compareLex precedence (before ++ x :: xs) (before ++ y :: ys) ≠
      List.compareLex asRead (before ++ x :: xs) (before ++ y :: ys) := by
  have hstrict : x.asRead y ≠ .eq := by
    rw [h.swapped]
    intro heq
    exact h.strict (Ordering.swap_eq_eq.mp heq)
  rw [compareLex_append before h.strict, compareLex_append before hstrict, h.swapped]
  cases hprecedence : x.precedence y
  · decide
  · exact absurd hprecedence h.strict
  · decide

theorem exists_first_not {α : Type} {P : α → Prop} {l : List α} (h : ¬ ∀ x ∈ l, P x) :
    ∃ before x after, l = before ++ x :: after ∧ (∀ y ∈ before, P y) ∧ ¬ P x := by
  induction l with
  | nil => exact absurd (by simp) h
  | cons first l ih =>
    by_cases hfirst : P first
    · have hrest : ¬ ∀ x ∈ l, P x := fun hall => h (List.forall_mem_cons.mpr ⟨hfirst, hall⟩)
      obtain ⟨before, x, after, rfl, hbefore, hx⟩ := ih hrest
      exact ⟨first :: before, x, after, rfl, List.forall_mem_cons.mpr ⟨hfirst, hbefore⟩, hx⟩
    · exact ⟨[], first, l, rfl, by simp, hfirst⟩

theorem mem_intercalate {sep ch : Char} {parts : List (List Char)}
    (h : ch ∈ [sep].intercalate parts) : ch = sep ∨ ∃ part ∈ parts, ch ∈ part := by
  induction parts with
  | nil => exact absurd h (by simp)
  | cons part parts ih =>
    cases parts with
    | nil =>
      rw [List.intercalate_singleton] at h
      exact .inr ⟨part, List.mem_cons_self, h⟩
    | cons next parts =>
      rw [List.intercalate_cons_cons, List.append_assoc, List.mem_append] at h
      rcases h with h | h
      · exact .inr ⟨part, List.mem_cons_self, h⟩
      · rcases List.mem_cons.mp h with h | h
        · exact .inl h
        · exact (ih h).imp_right fun ⟨part, hpart, hch⟩ => ⟨part, List.mem_cons_of_mem _ hpart, hch⟩

theorem identifiers_of_prerelease {m : Captured} {texts : List (List Char)} {last : List Char}
    (hm : m.prerelease = ['.'].intercalate (texts ++ [last])) (hlast : last ≠ [])
    (hdots : ∀ text ∈ texts ++ [last], '.' ∉ text) : m.identifiers = texts ++ [last] := by
  have hsplit := List.splitOn_intercalate '.' hdots (by simp)
  rw [← hm] at hsplit
  unfold Captured.identifiers
  rw [if_neg, hsplit]
  intro hempty
  rw [List.isEmpty_iff.mp hempty, List.splitOn_nil] at hsplit
  have hmem : last ∈ [[]] := by
    rw [hsplit]
    simp
  exact hlast (List.mem_singleton.mp hmem)

/-- `n` is a plain version against which `m` is misread. -/
structure Captured.Reveals (m n : Captured) : Prop where
  wellFormed : n.WellFormed
  plain : ∀ x ∈ n.components, x.Plain
  misread : List.compareLex Component.precedence m.components n.components ≠
    List.compareLex Component.asRead m.components n.components

theorem Captured.exists_reveals_identifiers {m : Captured} (hm : m.WellFormed)
    (hmajor : (Component.number m.major).Plain) (hminor : (Component.number m.minor).Plain)
    (hpatch : (Component.number m.patch).Plain)
    (hplain : ¬ ∀ text ∈ m.identifiers, (Component.identifier text).Plain) : ∃ n, m.Reveals n := by
  obtain ⟨before, text, after, hids, hbefore, htext⟩ := exists_first_not hplain
  obtain ⟨other, hne, hdot, hother⟩ := Component.exists_reveals htext
  have hdots : ∀ part ∈ before ++ [other], '.' ∉ part := by
    intro part hpart
    rcases List.mem_append.mp hpart with hpart | hpart
    · exact not_dot_of_mem_identifiers (hids ▸ List.mem_append_left _ hpart)
    · rw [List.mem_singleton.mp hpart]
      exact hdot
  let n : Captured := { m with prerelease := ['.'].intercalate (before ++ [other]) }
  have hn : n.identifiers = before ++ [other] := identifiers_of_prerelease rfl hne hdots
  refine ⟨n, ⟨hm.major, hm.minor, hm.patch, ?_⟩, ?_, ?_⟩
  · intro ch hch
    rcases mem_intercalate hch with rfl | ⟨part, hpart, hch⟩
    · decide
    · rcases List.mem_append.mp hpart with hpart | hpart
      · exact hm.identifiers part (hids ▸ List.mem_append_left _ hpart) ch hch
      · rw [List.mem_singleton.mp hpart] at hch
        exact hother.wellFormed ch hch
  · refine (n.forall_components trivial).mpr ⟨hmajor, hminor, hpatch, ?_⟩
    rw [hn]
    intro part hpart
    rcases List.mem_append.mp hpart with hpart | hpart
    · exact hbefore part hpart
    · rw [List.mem_singleton.mp hpart]
      exact hother.plain
  · simp only [components, hids, hn, prereleaseComponents_append_cons]
    exact hother.compareLex_ne
      (.number m.major :: .number m.minor :: .number m.patch :: before.map .identifier)

theorem Captured.exists_reveals {m : Captured} (hm : m.WellFormed)
    (hplain : ¬ ∀ x ∈ m.components, x.Plain) : ∃ n, m.Reveals n := by
  have hzero : IsNumber ['0'] := isNumber_singleton rfl
  have hnil : ∀ text ∈ ([] : List (List Char)), (Component.identifier text).Plain := by simp
  by_cases hmajor : (Component.number m.major).Plain
  swap
  · refine ⟨⟨['1'], ['0'], ['0'], []⟩, ⟨isNumber_one, hzero, hzero, by simp⟩,
      (forall_components trivial _).mpr ⟨?_, ?_, ?_, hnil⟩,
      (Component.reveals_number hm.major hmajor).compareLex_ne []⟩
    · exact Component.plain_number_one
    · exact Component.plain_number_zero
    · exact Component.plain_number_zero
  by_cases hminor : (Component.number m.minor).Plain
  swap
  · refine ⟨⟨m.major, ['1'], ['0'], []⟩, ⟨hm.major, isNumber_one, hzero, by simp⟩,
      (forall_components trivial _).mpr ⟨hmajor, ?_, ?_, hnil⟩,
      (Component.reveals_number hm.minor hminor).compareLex_ne [.number m.major]⟩
    · exact Component.plain_number_one
    · exact Component.plain_number_zero
  by_cases hpatch : (Component.number m.patch).Plain
  swap
  · refine ⟨⟨m.major, m.minor, ['1'], []⟩, ⟨hm.major, hm.minor, isNumber_one, by simp⟩,
      (forall_components trivial _).mpr ⟨hmajor, hminor, ?_, hnil⟩,
      (Component.reveals_number hm.patch hpatch).compareLex_ne [.number m.major, .number m.minor]⟩
    exact Component.plain_number_one
  apply exists_reveals_identifiers hm hmajor hminor hpatch
  exact fun hids => hplain ((m.forall_components trivial).mpr ⟨hmajor, hminor, hpatch, hids⟩)

/-! Versions as strings. -/

theorem isIdentifierChar_of_isDigit {ch : Char} (h : ch.isDigit = true) :
    isIdentifierChar ch = true := by
  simp [isIdentifierChar, Char.isAlphanum, h]

theorem not_isSpace_of_isIdentifierChar {ch : Char} (h : isIdentifierChar ch = true) :
    isSpace ch = false := by
  have hrange : 45 ≤ ch.toNat ∧ ch.toNat ≤ 122 := by
    change (((decide (ch.val ≥ 'A'.val ∧ ch.val ≤ 'Z'.val) ||
      decide (ch.val ≥ 'a'.val) && decide (ch.val ≤ 'z'.val)) ||
      decide (ch.val ≥ '0'.val) && decide (ch.val ≤ '9'.val)) || decide (ch = '.') ||
      decide (ch = '-')) = true at h
    simp only [Bool.or_eq_true, Bool.and_eq_true, decide_eq_true_eq, ge_iff_le,
      UInt32.le_iff_toNat_le] at h
    rcases h with (((⟨hlow, hhigh⟩ | ⟨hlow, hhigh⟩) | ⟨hlow, hhigh⟩) | rfl) | rfl
    · change 65 ≤ ch.toNat at hlow
      change ch.toNat ≤ 90 at hhigh
      omega
    · change 97 ≤ ch.toNat at hlow
      change ch.toNat ≤ 122 at hhigh
      omega
    · change 48 ≤ ch.toNat at hlow
      change ch.toNat ≤ 57 at hhigh
      omega
    · decide
    · decide
  simp only [isSpace, decide_eq_false_iff_not]
  omega

theorem Captured.WellFormed.text {m : Captured} (hm : m.WellFormed) :
    ∀ ch ∈ m.text, isIdentifierChar ch = true := by
  have hnumber : ∀ {digits : List Char}, IsNumber digits →
      ∀ ch ∈ digits, isIdentifierChar ch = true :=
    fun h ch hch => isIdentifierChar_of_isDigit (h.2 ch hch)
  have htail : ∀ ch ∈ prereleaseText m.prerelease, isIdentifierChar ch = true := by
    unfold prereleaseText
    split
    next => simp
    next => exact List.forall_mem_cons.mpr ⟨by decide, hm.prerelease⟩
  simp only [Captured.text, List.forall_mem_append, List.forall_mem_cons]
  exact ⟨hnumber hm.major, by decide, hnumber hm.minor, by decide, hnumber hm.patch, htail⟩

theorem trimmed_of_forall {line : Line} (h : ∀ ch ∈ line, isSpace ch = false) :
    trimmed line = line := by
  have hkept : ∀ {chars : List Char}, (∀ ch ∈ chars, isSpace ch = false) →
      chars.dropWhile isSpace = chars := by
    intro chars hchars
    cases chars with
    | nil => rfl
    | cons ch chars => exact List.dropWhile_cons_of_neg (by simp [hchars ch List.mem_cons_self])
  rw [trimmed, hkept h, hkept fun ch hch => h ch (List.mem_reverse.mp hch), List.reverse_reverse]

theorem semVer?_text {m : Captured} (hm : m.WellFormed) :
    semVer? (String.ofList m.text) = some m := by
  rw [semVer?, String.toList_ofList,
    trimmed_of_forall fun ch hch => not_isSpace_of_isIdentifierChar (hm.text ch hch),
    matchSemVer_text hm]

theorem semVer?_wellFormed {version : String} {m : Captured} (h : semVer? version = some m) :
    m.WellFormed := (matchSemVer_eq_some_iff.mp h).1

theorem agrees_iff {a b : String} {m n : Captured} (ha : semVer? a = some m)
    (hb : semVer? b = some n) :
    Agrees a b ↔ List.compareLex Component.precedence m.components n.components =
      List.compareLex Component.asRead m.components n.components := by
  rw [Agrees, sign_compareSemVer ha hb, eq_comm]
  simp only [SemVer.precedence, ha, hb, Captured.precedence_eq]

/-- Up to the first two that either way finds different, components are plain. -/
def PlainToDifference : List Component → List Component → Prop
  | x :: xs, y :: ys => x.Plain ∧ y.Plain ∧
    (x.precedence y = .eq → x.asRead y = .eq → PlainToDifference xs ys)
  | _, _ => True

/-- So far, being plain is enough. -/
theorem PlainToDifference.rightlyOrdered {xs ys : List Component} (h : PlainToDifference xs ys)
    (hxs : ∀ x ∈ xs, x.WellFormed) (hys : ∀ y ∈ ys, y.WellFormed) : RightlyOrdered xs ys := by
  induction xs generalizing ys with
  | nil => cases ys <;> exact trivial
  | cons x xs ih =>
    cases ys with
    | nil => exact trivial
    | cons y ys =>
      obtain ⟨hx, hxs⟩ := List.forall_mem_cons.mp hxs
      obtain ⟨hy, hys⟩ := List.forall_mem_cons.mp hys
      obtain ⟨hxplain, hyplain, hrest⟩ := h
      have hsame := Component.asRead_of_plain hx hy hxplain hyplain
      rw [RightlyOrdered]
      cases hmeant : x.precedence y with
      | eq =>
        have hread : x.asRead y = .eq := by rw [← hmeant]; exact hsame.symm
        rw [hread]
        exact ih (hrest hmeant hread) hxs hys
      | lt | gt =>
        rw [← hsame, hmeant]

/-- Versions are compared rightly if what comes up to their first difference is plain. -/
theorem agrees_of_plainToDifference {a b : String} (ha : isValidSemVer a = true)
    (hb : isValidSemVer b = true) (h : PlainToDifference (componentsOf a) (componentsOf b)) :
    Agrees a b := by
  obtain ⟨m, ha⟩ := (isValidSemVer_iff a).mp ha
  obtain ⟨n, hb⟩ := (isValidSemVer_iff b).mp hb
  rw [componentsOf_eq ha, componentsOf_eq hb] at h
  rw [agrees_iff ha hb, ← rightlyOrdered_iff]
  exact h.rightlyOrdered (semVer?_wellFormed ha).components (semVer?_wellFormed hb).components

/-- The comparison is precedence where the first components that differ are read as what they are,
    as those of plain versions are; and every version that is not plain is compared wrongly with
    some plain version. -/
theorem compareSemVer_agrees_iff {a b : String} (ha : isValidSemVer a = true)
    (hb : isValidSemVer b = true) :
    (Agrees a b ↔ RightlyOrdered (componentsOf a) (componentsOf b)) ∧
      (IsPlain a → IsPlain b → Agrees a b) ∧
      (¬ IsPlain a → ∃ c, isValidSemVer c = true ∧ IsPlain c ∧ ¬ Agrees a c) := by
  obtain ⟨m, ha⟩ := (isValidSemVer_iff a).mp ha
  obtain ⟨n, hb⟩ := (isValidSemVer_iff b).mp hb
  have hm := semVer?_wellFormed ha
  have hn := semVer?_wellFormed hb
  refine ⟨?_, ?_, ?_⟩
  · rw [agrees_iff ha hb, rightlyOrdered_iff, componentsOf_eq ha, componentsOf_eq hb]
  · intro haplain hbplain
    rw [IsPlain, componentsOf_eq ha] at haplain
    rw [IsPlain, componentsOf_eq hb] at hbplain
    rw [agrees_iff ha hb]
    exact compareLex_congr fun x hx y hy => Component.asRead_of_plain (hm.components x hx)
      (hn.components y hy) (haplain x hx) (hbplain y hy)
  · intro hnot
    rw [IsPlain, componentsOf_eq ha] at hnot
    obtain ⟨c, hc⟩ := Captured.exists_reveals hm hnot
    have hvalid := semVer?_text hc.wellFormed
    refine ⟨String.ofList c.text, (isValidSemVer_iff _).mpr ⟨c, hvalid⟩, ?_, ?_⟩
    · rw [IsPlain, componentsOf_eq hvalid]
      exact hc.plain
    · rw [agrees_iff ha hvalid]
      exact hc.misread

/-- Two candidates for one release. -/
theorem compareSemVer_agrees_iff_candidates : Agrees "1.1.0-rc.2" "v1.1.0-rc.10+build-7" :=
  (compareSemVer_agrees_iff (by decide) (by decide)).1.mpr (by decide)

/-- A version made of a date is ranked below 1.0.0, and an identifier with a hyphen below a
    number. -/
theorem not_agrees :
    isValidSemVer "20260101120000.0.0" = true ∧ isValidSemVer "1.0.0" = true ∧
      ¬ Agrees "20260101120000.0.0" "1.0.0" ∧
      isValidSemVer "1.0.0--5" = true ∧ isValidSemVer "1.0.0-1" = true ∧
      ¬ Agrees "1.0.0--5" "1.0.0-1" := by
  unfold Agrees
  decide

/-! The accepted texts as a format. -/

/-- Nothing, or a plus sign and build metadata. -/
def IsBuild (text : List Char) : Prop :=
  text = [] ∨ ∃ build, build ≠ [] ∧ (∀ ch ∈ build, isIdentifierChar ch = true) ∧ text = '+' :: build

theorem endsVersion_iff {text : List Char} : endsVersion text = true ↔ IsBuild text := by
  unfold endsVersion IsBuild
  split
  next rest hplus =>
    obtain rfl := literal?_eq_some_iff.mp hplus
    simp [List.all_eq_true]
  next hplus =>
    have hnot : ∀ build, text ≠ '+' :: build := by
      intro build htext
      rw [literal?_eq_some_iff.mpr htext] at hplus
      exact absurd hplus (by simp)
    simp [hnot]

theorem Captured.WellFormed.literal?_append {m : Captured} (hm : m.WellFormed) (rest : List Char) :
    literal? 'v' (m.text ++ rest) = none := by
  rw [Option.eq_none_iff_forall_ne_some]
  intro tail htail
  obtain ⟨hne, hall⟩ := hm.major
  obtain ⟨ch, digits, hmajor⟩ := List.exists_cons_of_ne_nil hne
  rw [literal?_eq_some_iff, Captured.text, hmajor, List.cons_append, List.cons_append,
    List.cons.injEq] at htail
  have hch := hall ch (by simp [hmajor])
  rw [htail.1] at hch
  exact absurd hch (by decide)

theorem literal?_getD_eq_iff {m : Captured} (hm : m.WellFormed) {text build : List Char} :
    (literal? 'v' text).getD text = m.text ++ build ↔
      text = m.text ++ build ∨ text = 'v' :: (m.text ++ build) := by
  constructor
  · intro h
    cases hv : literal? 'v' text with
    | none =>
      rw [hv, Option.getD_none] at h
      exact .inl h
    | some rest =>
      rw [hv, Option.getD_some] at h
      obtain rfl := literal?_eq_some_iff.mp hv
      exact .inr (by rw [h])
  · rintro (rfl | rfl)
    · rw [hm.literal?_append, Option.getD_none]
    · rw [literal?_eq_some_iff.mpr rfl, Option.getD_some]

/-- **The format of a version, both ways.** What is captured is well formed and is what the text
says between an optional `v` and optional build metadata, with white space around it; and a well
formed version, written down, is read back as itself. -/
theorem semVer?_eq_some_iff (version : String) (m : Captured) :
    (semVer? version = some m ↔ m.WellFormed ∧ ∃ build, IsBuild build ∧
      (trimmed version.toList = m.text ++ build ∨
        trimmed version.toList = 'v' :: (m.text ++ build))) ∧
    (m.WellFormed ↔ semVer? (String.ofList m.text) = some m) := by
  refine ⟨?_, semVer?_text, semVer?_wellFormed⟩
  rw [semVer?, matchSemVer_eq_some_iff]
  refine and_congr_right fun hm => exists_congr fun build => ?_
  rw [endsVersion_iff, literal?_getD_eq_iff hm]

/-! The order of the accepted texts. -/

/-- A version that is accepted. -/
abbrev Version := { version : String // isValidSemVer version = true }

theorem Version.sign_compareSemVer (a b : Version) :
    compare (compareSemVer a b) 0 = versionOrder a b := sign_compareSemVer_of_valid a.2 b.2

theorem Version.compareSemVer_neg_iff (a b : Version) :
    compareSemVer a b < 0 ↔ versionOrder a b = .lt := by
  rw [← a.sign_compareSemVer b, compare_lt_iff_lt]

theorem Version.compareSemVer_nonpos_iff (a b : Version) :
    compareSemVer a b ≤ 0 ↔ (versionOrder a b).isLE = true := by
  rw [← a.sign_compareSemVer b, Ordering.isLE_iff_ne_gt, compare_gt_iff_gt, not_lt]

/-- **The comparison is a total preorder of the accepted versions**, however their numbers and
identifiers are read: of two of them one is not above the other, both ways round the answers have
opposite signs, and versions that compare as equal compare alike with every other. -/
theorem compareSemVer_laws (a b c : Version) :
    compareSemVer a a = 0 ∧
      (compareSemVer a b < 0 ↔ 0 < compareSemVer b a) ∧
      (compareSemVer a b ≤ 0 → compareSemVer b c ≤ 0 → compareSemVer a c ≤ 0) ∧
      (compareSemVer a b = 0 →
        compare (compareSemVer a c) 0 = compare (compareSemVer b c) 0 ∧
        compare (compareSemVer c a) 0 = compare (compareSemVer c b) 0) := by
  refine ⟨?_, ?_, ?_, ?_⟩
  · rw [compareSemVer_eq_zero_iff a.2 a.2]
    exact Std.ReflCmp.compare_self
  · rw [a.compareSemVer_neg_iff, compareSemVer_pos_iff b.2 a.2]
    exact Std.OrientedCmp.gt_iff_lt.symm
  · simp only [Version.compareSemVer_nonpos_iff]
    exact Std.TransCmp.isLE_trans
  · intro hab
    rw [compareSemVer_eq_zero_iff a.2 b.2] at hab
    simp only [Version.sign_compareSemVer]
    exact ⟨Std.TransCmp.congr_left hab, Std.TransCmp.congr_right hab⟩

end PPB
