import Mathlib.Data.List.DropRight
import Mathlib.Data.List.TakeWhile
import Mathlib.Tactic
import WordSlot.Text.Blank

/-!
# Texts taken apart

The order of texts, and what joining and trimming do to their characters: a separator that does not occur in what follows it tells
where that begins, joined items come apart again, and trimming takes off exactly what was put around.
-/

namespace WordSlot

/-! ## Code points and their order -/

namespace Text

/-- A text is told by its code points. -/
theorem codes_inj {s t : Text} : s.codes = t.codes ↔ s = t := by
  cases s
  cases t
  exact (Text.mk.injEq _ _).symm.to_iff

/-- The empty text is before all others. -/
theorem notAfter_nil (t : Text) : notAfter ⟨[]⟩ t = true := by simp [notAfter]

/-- The first code points decide unless they are equal. -/
theorem notAfter_cons (c d : Nat) (cs ds : List Nat) :
    notAfter ⟨c :: cs⟩ ⟨d :: ds⟩ = if c = d then notAfter ⟨cs⟩ ⟨ds⟩ else decide (c < d) := by
  simp only [notAfter, List.not_lt, List.cons_le_cons_iff]
  split
  · rename_i h
    simp [h]
  · rename_i h
    simp [h]

/-- Of two texts one is not after the other. -/
theorem notAfter_total (s t : Text) : (s.notAfter t || t.notAfter s) = true := by
  simp only [notAfter, List.not_lt, Bool.or_eq_true, decide_eq_true_eq]
  exact List.le_total _ _

/-- The order of texts is transitive. -/
theorem notAfter_trans {s t u : Text} (hst : s.notAfter t = true) (htu : t.notAfter u = true) : s.notAfter u = true := by
  simp only [notAfter, List.not_lt, decide_eq_true_eq] at *
  exact List.le_trans hst htu

/-- Texts that are not after each other are equal. -/
theorem notAfter_antisymm {s t : Text} (hst : s.notAfter t = true) (hts : t.notAfter s = true) : s = t := by
  simp only [notAfter, List.not_lt, decide_eq_true_eq] at *
  exact codes_inj.mp (List.le_antisymm hst hts)

end Text

variable {α : Type}

/-! ## Joining -/

/-- The last separator of a list tells what stands before it and behind it. -/
theorem append_cons_inj_of_notMem_right {c : α} {a b x y : List α} (hx : c ∉ x) (hy : c ∉ y) :
    a ++ c :: x = b ++ c :: y ↔ a = b ∧ x = y := by
  constructor
  · intro h
    rcases List.append_eq_append_iff.mp h with ⟨as, rfl, hcons⟩ | ⟨bs, rfl, hcons⟩
    · cases as with
      | nil => exact ⟨(List.append_nil a).symm, (List.cons.inj hcons).2⟩
      | cons d as =>
        obtain ⟨-, rfl⟩ := List.cons.inj hcons
        exact absurd (List.mem_append_right as List.mem_cons_self) hx
    · cases bs with
      | nil => exact ⟨List.append_nil b, (List.cons.inj hcons).2.symm⟩
      | cons d bs =>
        obtain ⟨-, rfl⟩ := List.cons.inj hcons
        exact absurd (List.mem_append_right bs List.mem_cons_self) hy
  · rintro ⟨rfl, rfl⟩
    rfl

/-- What stands in joined items stands in the separator or in one of them. -/
theorem mem_of_mem_intercalate {sep : List α} {items : List (List α)} {c : α} (h : c ∈ sep.intercalate items) :
    c ∈ sep ∨ ∃ item ∈ items, c ∈ item := by
  induction items with
  | nil => simp at h
  | cons item items ih =>
    cases items with
    | nil =>
      rw [List.intercalate_singleton] at h
      exact .inr ⟨item, List.mem_singleton_self item, h⟩
    | cons next items =>
      rw [List.intercalate_cons_cons, List.mem_append, List.mem_append] at h
      rcases h with (h | h) | h
      · exact .inr ⟨item, List.mem_cons_self, h⟩
      · exact .inl h
      · rcases ih h with h | ⟨other, hother, h⟩
        · exact .inl h
        · exact .inr ⟨other, List.mem_cons_of_mem item hother, h⟩

/-- Items that are not empty and do not hold the separator come apart again. -/
theorem intercalate_injective [BEq α] [LawfulBEq α] {c : α} {xs ys : List (List α)} (hxs : ∀ x ∈ xs, x ≠ [] ∧ c ∉ x)
    (hys : ∀ y ∈ ys, y ≠ [] ∧ c ∉ y) (h : [c].intercalate xs = [c].intercalate ys) : xs = ys := by
  -- No items and items give different lists, since one item at least is not empty.
  have hempty : ∀ {zs : List (List α)}, (∀ z ∈ zs, z ≠ [] ∧ c ∉ z) → [c].intercalate zs = [] → zs = [] := by
    intro zs hzs hz
    by_contra hne
    have hsplit := List.splitOn_intercalate c (fun z hz => (hzs z hz).2) hne
    rw [hz, List.splitOn_nil] at hsplit
    exact (hzs [] (by rw [← hsplit]; exact List.mem_singleton_self [])).1 rfl
  by_cases hx : xs = []
  · subst hx
    exact (hempty hys (by rw [← h, List.intercalate_nil])).symm
  · have hy : ys ≠ [] := by
      rintro rfl
      exact hx (hempty hxs (by rw [h, List.intercalate_nil]))
    rw [← List.splitOn_intercalate c (fun x hx => (hxs x hx).2) hx, h,
      List.splitOn_intercalate c (fun y hy => (hys y hy).2) hy]

/-! ## Trimming -/

/-- Nothing is dropped where nothing fits. -/
theorem dropWhile_of_not {p : α → Bool} {cs : List α} (h : ∀ c ∈ cs, p c = false) : cs.dropWhile p = cs :=
  List.dropWhile_eq_self_iff.mpr fun _ => ne_true_of_eq_false (h _ (List.getElem_mem _))

/-- What is trimmed from the end was put there. -/
theorem trimEnd_append {p : α → Bool} {body back : List α} (hbody : ∀ c ∈ body, p c = false) (hback : ∀ c ∈ back, p c = true) :
    trimEnd p (body ++ back) = body := by
  rw [trimEnd, List.reverse_append, List.dropWhile_append_of_pos (fun c hc => hback c (List.mem_reverse.mp hc)),
    dropWhile_of_not (fun c hc => hbody c (List.mem_reverse.mp hc)), List.reverse_reverse]

/-- What is trimmed off the end fits. -/
theorem exists_trimEnd (p : α → Bool) (cs : List α) : ∃ back, cs = trimEnd p cs ++ back ∧ ∀ c ∈ back, p c = true := by
  refine ⟨cs.rtakeWhile p, ?_, fun c hc => List.mem_rtakeWhile_imp hc⟩
  exact (List.rdropWhile_append_rtakeWhile).symm

/-- Trimming takes off what was put around. -/
theorem trimBoth_append {p : α → Bool} {front body back : List α} (hfront : ∀ c ∈ front, p c = true)
    (hbody : ∀ c ∈ body, p c = false) (hback : ∀ c ∈ back, p c = true) : trimBoth p (front ++ body ++ back) = body := by
  cases body with
  | nil =>
    have hall : ∀ c ∈ front ++ back, p c = true := List.forall_mem_append.mpr ⟨hfront, hback⟩
    rw [trimBoth, List.append_nil, List.dropWhile_eq_nil_iff.mpr hall]
    rfl
  | cons c body =>
    have hc := hbody c List.mem_cons_self
    have hfirst : (front ++ (c :: body) ++ back).dropWhile p = (c :: body) ++ back := by
      rw [List.append_assoc, List.dropWhile_append_of_pos hfront, List.cons_append, List.dropWhile_cons, hc,
        if_neg Bool.false_ne_true]
    have hlast := trimEnd_append hbody hback
    rwa [trimEnd, ← hfirst] at hlast

/-- What is trimmed off both ends fits. -/
theorem exists_trimBoth (p : α → Bool) (cs : List α) :
    ∃ front back, cs = front ++ trimBoth p cs ++ back ∧ (∀ c ∈ front, p c = true) ∧ ∀ c ∈ back, p c = true := by
  obtain ⟨back, hback, hblank⟩ := exists_trimEnd p (cs.dropWhile p)
  refine ⟨cs.takeWhile p, back, ?_, fun c hc => List.mem_takeWhile_imp hc, hblank⟩
  have htrim : trimBoth p cs = trimEnd p (cs.dropWhile p) := rfl
  rw [List.append_assoc, htrim, ← hback, List.takeWhile_append_dropWhile]

end WordSlot
