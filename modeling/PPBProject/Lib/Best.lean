import Mathlib.Data.List.MinMax

/- The highest element of a list, found in one pass that gives up what it has for a strictly higher
   element only. The comparison need not tell all elements apart; of several highest elements the
   pass keeps the first. -/
namespace Best

variable {α : Type}

/-- What one pass keeps. -/
def best (cmp : α → α → Ordering) (l : List α) : Option α :=
  l.foldl (List.argAux fun a b => cmp a b = .gt) none

section
variable {cmp : α → α → Ordering}

theorem best_concat (l : List α) (a : α) :
    best cmp (l ++ [a]) = List.argAux (fun a b => cmp a b = .gt) (best cmp l) a := by
  rw [best, List.foldl_append]
  rfl

theorem best_eq_none_iff {l : List α} : best cmp l = none ↔ l = [] := by
  rw [best, List.foldl_argAux_eq_none]
  simp

/-- It is higher than what comes before it, and nothing after it is higher. -/
theorem exists_split_of_best [Std.TransCmp cmp] {l : List α} {a : α} (h : best cmp l = some a) :
    ∃ before after, l = before ++ a :: after ∧ (∀ b ∈ before, cmp a b = .gt) ∧
      ∀ b ∈ after, (cmp b a).isLE := by
  induction l using List.reverseRecOn generalizing a with
  | nil => exact absurd h (by simp [best])
  | append_singleton l x ih =>
    rw [best_concat] at h
    cases hl : best cmp l with
    | none =>
      rw [hl] at h
      obtain rfl : x = a := Option.some.inj h
      rw [best_eq_none_iff.mp hl]
      exact ⟨[], [], rfl, by simp, by simp⟩
    | some b =>
      obtain ⟨before, after, rfl, hbefore, hafter⟩ := ih hl
      rw [hl] at h
      by_cases hx : cmp x b = .gt
      · obtain rfl : x = a := by simpa [List.argAux, hx] using h
        refine ⟨before ++ b :: after, [], rfl, ?_, by simp⟩
        -- `x` is above `b`, and `b` is not below any of them
        have hlow : ∀ c ∈ before ++ b :: after, (cmp c b).isLE := by
          intro c hc
          rcases List.mem_append.mp hc with hc | hc
          · have hlt := Std.OrientedCmp.gt_iff_lt.mp (hbefore c hc)
            rw [hlt]
            rfl
          · rcases List.mem_cons.mp hc with rfl | hc
            · exact Std.ReflCmp.isLE_rfl
            · exact hafter c hc
        intro c hc
        have hlt := Std.TransCmp.lt_of_isLE_of_lt (hlow c hc) (Std.OrientedCmp.gt_iff_lt.mp hx)
        exact Std.OrientedCmp.gt_iff_lt.mpr hlt
      · obtain rfl : b = a := by simpa [List.argAux, hx] using h
        refine ⟨before, after ++ [x], by simp, hbefore, ?_⟩
        intro c hc
        rcases List.mem_append.mp hc with hc | hc
        · exact hafter c hc
        · rw [List.mem_singleton.mp hc]
          cases hcmp : cmp x b
          · rfl
          · rfl
          · exact absurd hcmp hx

/-- The same of the elements that a test lets through. -/
theorem exists_split_of_best_filter [Std.TransCmp cmp] {p : α → Bool} {l : List α} {a : α}
    (h : best cmp (l.filter p) = some a) :
    p a = true ∧ ∃ before after, l = before ++ a :: after ∧
      (∀ b ∈ before, p b = true → cmp a b = .gt) ∧
      ∀ b ∈ after, p b = true → (cmp b a).isLE := by
  obtain ⟨before, after, hsplit, hbefore, hafter⟩ := exists_split_of_best h
  obtain ⟨first, rest, rfl, rfl, hrest⟩ := List.filter_eq_append_iff.mp hsplit
  obtain ⟨skipped, last, rfl, hskipped, ha, rfl⟩ := List.filter_eq_cons_iff.mp hrest
  refine ⟨ha, first ++ skipped, last, by simp, ?_, ?_⟩
  · intro b hb hpb
    rcases List.mem_append.mp hb with hb | hb
    · exact hbefore b (List.mem_filter.mpr ⟨hb, hpb⟩)
    · exact absurd hpb (hskipped b hb)
  · exact fun b hb hpb => hafter b (List.mem_filter.mpr ⟨hb, hpb⟩)

theorem mem_of_best_filter [Std.TransCmp cmp] {p : α → Bool} {l : List α} {a : α}
    (h : best cmp (l.filter p) = some a) : a ∈ l := by
  obtain ⟨-, before, after, rfl, -⟩ := exists_split_of_best_filter h
  simp

theorem best_filter_eq_none_iff {p : α → Bool} {l : List α} :
    best cmp (l.filter p) = none ↔ ∀ a ∈ l, p a = false := by
  rw [best_eq_none_iff, List.filter_eq_nil_iff]
  simp only [Bool.not_eq_true]

/-- No element is higher. -/
theorem isLE_of_best_filter [Std.TransCmp cmp] {p : α → Bool} {l : List α} {a b : α}
    (h : best cmp (l.filter p) = some a) (hb : b ∈ l) (hpb : p b = true) : (cmp b a).isLE := by
  obtain ⟨-, before, after, rfl, hbefore, hafter⟩ := exists_split_of_best_filter h
  rcases List.mem_append.mp hb with hb | hb
  · rw [Std.OrientedCmp.gt_iff_lt.mp (hbefore b hb hpb)]
    rfl
  · rcases List.mem_cons.mp hb with rfl | hb
    · exact Std.ReflCmp.isLE_rfl
    · exact hafter b hb hpb

/-- The order of the list decides between equals only. -/
theorem compare_of_perm [Std.TransCmp cmp] {p : α → Bool} {l l' : List α} (hperm : l.Perm l')
    {a b : α} (ha : best cmp (l.filter p) = some a) (hb : best cmp (l'.filter p) = some b) :
    cmp a b = .eq := by
  have hle : (cmp a b).isLE := isLE_of_best_filter hb (hperm.mem_iff.mp (mem_of_best_filter ha))
    (exists_split_of_best_filter ha).1
  have hge : (cmp b a).isLE := isLE_of_best_filter ha (hperm.mem_iff.mpr (mem_of_best_filter hb))
    (exists_split_of_best_filter hb).1
  exact Std.OrientedCmp.isLE_antisymm hle hge

/-- When the best element has a property: each element without it is below one with it, or comes
    after an equal one with it. -/
theorem forall_best_filter_iff [Std.TransCmp cmp] {p : α → Bool} {P : α → Prop} {l : List α} :
    (∀ a, best cmp (l.filter p) = some a → P a) ↔
      ∀ before b after, l = before ++ b :: after → p b = true → ¬ P b →
        (∃ a ∈ l, p a = true ∧ P a ∧ cmp a b = .gt) ∨
          ∃ a ∈ before, p a = true ∧ P a ∧ cmp a b = .eq := by
  constructor
  · intro h before b after hl hpb hb
    cases hbest : best cmp (l.filter p) with
    | none =>
      have hnot := best_filter_eq_none_iff.mp hbest b (by simp [hl])
      exact absurd hpb (by simp [hnot])
    | some a =>
      have ha := h a hbest
      obtain ⟨hpa, first, rest, hsplit, hfirst, -⟩ := exists_split_of_best_filter hbest
      have hle := isLE_of_best_filter hbest (b := b) (by simp [hl]) hpb
      cases hcmp : cmp a b
      · rw [Std.OrientedCmp.gt_of_lt hcmp] at hle
        exact absurd hle (by decide)
      · -- `a` is what the pass keeps, so it is not `b` and does not come after it
        right
        refine ⟨a, ?_, hpa, ha, hcmp⟩
        rcases List.append_eq_append_iff.mp (hsplit.symm.trans hl) with
          ⟨between, rfl, hrest⟩ | ⟨between, rfl, hrest⟩
        · cases between with
          | nil =>
            obtain rfl : a = b := (List.cons.inj hrest).1
            exact absurd ha hb
          | cons x between =>
            obtain rfl : a = x := (List.cons.inj hrest).1
            simp
        · cases between with
          | nil =>
            obtain rfl : b = a := (List.cons.inj hrest).1
            exact absurd ha hb
          | cons x between =>
            obtain rfl : b = x := (List.cons.inj hrest).1
            rw [hfirst b (by simp) hpb] at hcmp
            exact absurd hcmp (by decide)
      · exact .inl ⟨a, mem_of_best_filter hbest, hpa, ha, hcmp⟩
  · intro h a hbest
    obtain ⟨hpa, before, after, hl, hbefore, -⟩ := exists_split_of_best_filter hbest
    by_contra hnot
    rcases h before a after hl hpa hnot with ⟨b, hb, hpb, -, hgt⟩ | ⟨b, hb, hpb, -, heq⟩
    · have hle := isLE_of_best_filter hbest hb hpb
      rw [hgt] at hle
      exact absurd hle (by decide)
    · have hgt := hbefore b hb hpb
      rw [Std.OrientedCmp.eq_symm heq] at hgt
      exact absurd hgt (by decide)

end

end Best
