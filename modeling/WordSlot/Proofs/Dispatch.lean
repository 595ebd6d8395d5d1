import Mathlib.Tactic
import WordSlot.Abi.Manifest
import WordSlot.Proofs.Outcome

/-!
# Manifests and dispatch tables

The two loops that build the methods and the table of a manifest keep every entry: what they give is exactly the converted
entries in their order, and they give it exactly when no name, or no selector, comes twice. So a name and a selector each lead
to one method, and to the same one.
-/

namespace WordSlot

open Outcome

/-- In a list of pairs whose first parts are distinct, looking up finds exactly the pairs. -/
theorem lookup_eq_some_iff_mem {α β : Type} [BEq α] [LawfulBEq α] {l : List (α × β)} (hnd : (l.map (·.1)).Nodup)
    {a : α} {b : β} : l.lookup a = some b ↔ (a, b) ∈ l := by
  induction l with
  | nil => simp
  | cons p l ih =>
    obtain ⟨x, y⟩ := p
    rw [List.map_cons, List.nodup_cons] at hnd
    rw [List.lookup_cons, List.mem_cons, Prod.mk.injEq]
    by_cases hax : a = x
    · subst hax
      have hnot : (a, b) ∉ l := fun h => hnd.1 (List.mem_map_of_mem (f := (·.1)) h)
      simp [hnot, eq_comm]
    · rw [beq_false_of_ne hax]
      simp [hax, ih hnd.2]

theorem lookup_eq_none_iff_not_mem {α β : Type} [BEq α] [LawfulBEq α] {l : List (α × β)} {a : α} :
    l.lookup a = none ↔ a ∉ l.map (·.1) := by
  rw [List.lookup_eq_none_iff, List.mem_map]
  constructor
  · rintro h ⟨p, hp, rfl⟩
    simpa using h p hp
  · intro h p hp
    simpa using fun hap => h ⟨p, hp, Eq.symm hap⟩

/-- Keys stay distinct exactly as long as the one that comes last is new. -/
theorem nodup_map_snoc {α β : Type} {f : α → β} {l : List α} {a : α} :
    ((l ++ [a]).map f).Nodup ↔ (l.map f).Nodup ∧ f a ∉ l.map f := by
  rw [List.map_append, List.map_singleton, ← List.concat_eq_append, List.nodup_concat, and_comm]

namespace Manifest

/-- Collecting methods succeeds exactly when every entry converts and no name comes twice; it then adds the converted entries
in their order. -/
theorem collect_eq_ok_iff {known ms : List Method} {entries : List Value} (hnd : (known.map (·.name)).Nodup) :
    collect known entries = .ok ms ↔
      ∃ new, entries.mapM Method.ofEntry = .ok new ∧ ms = known ++ new ∧ (ms.map (·.name)).Nodup := by
  induction entries generalizing known with
  | nil =>
    simp only [collect, List.mapM_nil, pure_eq_ok, Except.ok.injEq]
    constructor
    · rintro rfl
      exact ⟨[], rfl, by simp, hnd⟩
    · rintro ⟨_, rfl, rfl, -⟩
      simp
  | cons entry entries ih =>
    simp only [collect, List.mapM_cons, bind_eq_ok, pure_eq_ok, Except.ok.injEq]
    constructor
    · rintro ⟨m, hm, h⟩
      split at h
      · simp at h
      · rename_i hfresh
        have hnew : m.name ∉ known.map (·.name) := by
          simpa using hfresh
        obtain ⟨new, hconv, rfl, hall⟩ := (ih (nodup_map_snoc.mpr ⟨hnd, hnew⟩)).mp h
        exact ⟨m :: new, ⟨m, hm, new, hconv, rfl⟩, by simp, hall⟩
    · rintro ⟨_, ⟨m, hm, new, hnew, rfl⟩, rfl, hall⟩
      have hsplit : known ++ m :: new = known ++ [m] ++ new := by simp
      have hnd' : ((known ++ [m]).map (·.name)).Nodup := by
        rw [hsplit, List.map_append] at hall
        exact hall.of_append_left
      have hfresh : ¬ known.any (·.name == m.name) = true := by
        simpa using (nodup_map_snoc.mp hnd').2
      refine ⟨m, hm, ?_⟩
      rw [if_neg hfresh, ih hnd']
      exact ⟨new, hnew, hsplit, hall⟩

/-- The methods of a manifest are its converted entries in their order, if no name comes twice. -/
theorem methods_eq_ok_iff {manifest : Value} {ms : List Method} :
    methods manifest = .ok ms ↔
      ∃ es, entries manifest = .ok es ∧ es.mapM Method.ofEntry = .ok ms ∧ (ms.map (·.name)).Nodup := by
  simp only [methods, bind_eq_ok]
  constructor
  · rintro ⟨es, hes, h⟩
    obtain ⟨new, hnew, rfl, hall⟩ := (collect_eq_ok_iff (by simp)).mp h
    exact ⟨es, hes, by simpa using hnew, hall⟩
  · rintro ⟨es, hes, hms, hall⟩
    exact ⟨es, hes, (collect_eq_ok_iff (by simp)).mpr ⟨ms, hms, by simp, hall⟩⟩

end Manifest

namespace DispatchTable

/-- Adding methods to a table succeeds exactly when each has a selector and no selector comes twice; it then adds them in their
order under their selectors. -/
theorem addAll_eq_ok_iff {table all : DispatchTable} {ms : List Method} (hnd : (table.map (·.1)).Nodup) :
    addAll table ms = .ok all ↔
      ∃ sels, ms.mapM Method.selector = .ok sels ∧ all = table ++ sels.zip ms ∧ (all.map (·.1)).Nodup := by
  induction ms generalizing table with
  | nil =>
    simp only [addAll, List.mapM_nil, pure_eq_ok, Except.ok.injEq]
    constructor
    · rintro rfl
      exact ⟨[], rfl, by simp, hnd⟩
    · rintro ⟨_, rfl, rfl, -⟩
      simp
  | cons m ms ih =>
    simp only [addAll, List.mapM_cons, bind_eq_ok, pure_eq_ok, Except.ok.injEq]
    constructor
    · rintro ⟨sel, hsel, h⟩
      split at h
      · simp at h
      · rename_i hfresh
        have hnew := lookup_eq_none_iff_not_mem.mp hfresh
        obtain ⟨sels, hsels, rfl, hall⟩ := (ih (nodup_map_snoc.mpr ⟨hnd, hnew⟩)).mp h
        exact ⟨sel :: sels, ⟨sel, hsel, sels, hsels, rfl⟩, by simp, hall⟩
    · rintro ⟨_, ⟨sel, hsel, sels, hsels, rfl⟩, rfl, hall⟩
      have hsplit : table ++ (sel :: sels).zip (m :: ms) = table ++ [(sel, m)] ++ sels.zip ms := by simp
      have hnd' : ((table ++ [(sel, m)]).map (·.1)).Nodup := by
        rw [hsplit, List.map_append] at hall
        exact hall.of_append_left
      refine ⟨sel, hsel, ?_⟩
      rw [lookup_eq_none_iff_not_mem.mpr (nodup_map_snoc.mp hnd').2]
      exact (ih hnd').mpr ⟨sels, hsels, hsplit, hall⟩

/-- A method stands in a table of methods exactly under its selector. -/
theorem ofMethods_lookup_iff {ms : List Method} {table : DispatchTable} (h : ofMethods ms = .ok table) {sel : Bytes}
    {m : Method} : table.lookup sel = some m ↔ m ∈ ms ∧ m.selector = .ok sel := by
  obtain ⟨sels, hsels, rfl, hnd⟩ := (addAll_eq_ok_iff (by simp)).mp h
  rw [List.nil_append] at hnd ⊢
  rw [lookup_eq_some_iff_mem hnd]
  clear h hnd
  rw [mapM_eq_ok_iff] at hsels
  induction hsels with
  | nil => simp
  | @cons m' sel' ms sels hsel _ ih =>
    rw [List.zip_cons_cons, List.mem_cons, List.mem_cons, ih, Prod.mk.injEq]
    constructor
    · rintro (⟨rfl, rfl⟩ | ⟨hm, hs⟩)
      · exact ⟨.inl rfl, hsel⟩
      · exact ⟨.inr hm, hs⟩
    · rintro ⟨rfl | hm, hs⟩
      · exact .inl ⟨Except.ok.inj (hs.symm.trans hsel), rfl⟩
      · exact .inr ⟨hm, hs⟩

end DispatchTable

namespace Manifest

/-- The table of a manifest is its methods in their order under their selectors, if no selector comes twice. -/
theorem table_eq_ok_iff {manifest : Value} {table : DispatchTable} :
    Manifest.table manifest = .ok table ↔
      ∃ ms sels, methods manifest = .ok ms ∧ ms.mapM Method.selector = .ok sels ∧ table = sels.zip ms ∧
        (table.map (·.1)).Nodup := by
  simp only [Manifest.table, bind_eq_ok, DispatchTable.ofMethods]
  constructor
  · rintro ⟨ms, hms, h⟩
    obtain ⟨sels, hsels, rfl, hnd⟩ := (DispatchTable.addAll_eq_ok_iff (by simp)).mp h
    exact ⟨ms, sels, hms, hsels, rfl, hnd⟩
  · rintro ⟨ms, sels, hms, hsels, rfl, hnd⟩
    exact ⟨ms, hms, (DispatchTable.addAll_eq_ok_iff (by simp)).mpr ⟨sels, hsels, rfl, hnd⟩⟩

/-- A method stands in the table of a manifest exactly under its selector. -/
theorem table_lookup_iff {manifest : Value} {table : DispatchTable} (h : Manifest.table manifest = .ok table)
    {sel : Bytes} {m : Method} :
    table.lookup sel = some m ↔ ∃ ms, methods manifest = .ok ms ∧ m ∈ ms ∧ m.selector = .ok sel := by
  obtain ⟨ms, hms, htable⟩ := bind_eq_ok.mp h
  rw [DispatchTable.ofMethods_lookup_iff htable, hms]
  simp

/-- A name leads to a method exactly when it is the name of one of the manifest's methods. -/
theorem lookup_eq_ok_iff {manifest name : Value} {m : Method} :
    lookup manifest name = .ok m ↔ ∃ ms, methods manifest = .ok ms ∧ m ∈ ms ∧ name = .text m.name := by
  simp only [lookup, bind_eq_ok]
  constructor
  · rintro ⟨ms, hms, h⟩
    split at h
    · simp at h
    · split at h
      · rename_i found hfound
        simp only [pure_eq_ok, Except.ok.injEq] at h
        subst h
        unfold find? at hfound
        split at hfound
        · rename_i t
          have ht := List.find?_some hfound
          exact ⟨ms, hms, List.mem_of_find?_eq_some hfound, by rw [beq_iff_eq.mp ht]⟩
        · simp at hfound
      · obtain ⟨_, -, h⟩ := bind_eq_ok.mp h
        simp at h
  · rintro ⟨ms, hms, hm, rfl⟩
    obtain ⟨-, -, -, hnd⟩ := methods_eq_ok_iff.mp hms
    have hfind : find? ms (.text m.name) = some m := by
      obtain ⟨before, after, rfl⟩ := List.append_of_mem hm
      refine List.find?_eq_some_iff_append.mpr ⟨beq_self_eq_true _, before, after, rfl, ?_⟩
      intro k hk
      rw [List.map_append, List.nodup_append] at hnd
      simpa using hnd.2.2 _ (List.mem_map_of_mem hk) m.name (by simp)
    refine ⟨ms, hms, ?_⟩
    rw [hfind]
    rfl

/-! ## The manifest of the slot -/

/-- The method that sets the word. -/
def setter : Method := ⟨"set", [.widest], [], "nonpayable"⟩

/-- The method that gets the word. -/
def getter : Method := ⟨"get", [], [.widest], "view"⟩

theorem packaged_methods : methods packaged = .ok [setter, getter] := rfl

-- The digest is evaluated by the kernel, which needs a type with decidable equality.
theorem setter_selector : setter.selector = .ok [19, 147, 89, 250, 39, 51, 216, 165] :=
  toOption_eq_some.mp (by decide +kernel)

theorem getter_selector : getter.selector = .ok [22, 38, 115, 93, 77, 42, 146, 48] :=
  toOption_eq_some.mp (by decide +kernel)

/-- The slot's own manifest has a dispatch table: its two selectors differ. -/
theorem packaged_table :
    Manifest.table packaged =
      .ok [([19, 147, 89, 250, 39, 51, 216, 165], setter), ([22, 38, 115, 93, 77, 42, 146, 48], getter)] := by
  have hsels := mapM_eq_ok_iff.mpr (.cons setter_selector (.cons getter_selector .nil))
  exact table_eq_ok_iff.mpr ⟨_, _, packaged_methods, hsels, rfl, by decide⟩

end Manifest

end WordSlot
