import Mathlib.Data.List.Induction
import Mathlib.Logic.Relation
import WordSlot.Proofs.Files

/-!
# What a failed replacement leaves

Making the directories above a path is making one directory after another, where there was nothing and where a front part of the
path's parent leads to. If the replacement of a file fails after that, the temporary file is removed, so that all that is left of
the attempt is those directories. In a tree whose entries all stand in directories nothing comes to be at the path itself, if it
goes up only out of directories that were there.
-/

namespace WordSlot

namespace FileTree

variable {t t' : FileTree} {medium : Medium} {p : Path} {content : Bytes} {l l' : Location}

/-! ## Directories that are made -/

/-- All that happened from one tree to another is that directories of a path were made where there was nothing: each is where a
front part of the path leads to. -/
def DirectoriesMade (p : Path) (t t' : FileTree) : Prop :=
  ∀ l, t'.get? l = t.get? l ∨
    t.get? l = none ∧ t'.get? l = some .directory ∧ ∃ names, names <+: p.names ∧ t'.locate ⟨p.anchor, names⟩ = .ok l

namespace DirectoriesMade

/-- Where nothing happened, no directory was made. -/
theorem refl (p : Path) (t : FileTree) : DirectoriesMade p t t := fun _ => .inl rfl

/-- What was there is still there. -/
theorem get? (h : DirectoriesMade p t t') {e : FileEntry} (hl : t.get? l = some e) : t'.get? l = some e := by
  rcases h l with hsame | ⟨hnone, -, -⟩
  · exact hsame.trans hl
  · rw [hl] at hnone
    nomatch hnone

/-- Names lead where they led. -/
theorem walk (h : DirectoriesMade p t t') {names : List Text} (hwalk : t.walk l names = .ok l') : t'.walk l names = .ok l' :=
  walk_of_directories (fun _ hx => h.get? hx) hwalk

/-- Directories that are made later are further ones of the path. -/
theorem trans {t₁ t₂ t₃ : FileTree} (h : DirectoriesMade p t₁ t₂) (h' : DirectoriesMade p t₂ t₃) : DirectoriesMade p t₁ t₃ := by
  intro l
  rcases h' l with hsame' | ⟨hnone', hdir', hnames'⟩
  · rw [hsame']
    rcases h l with hsame | ⟨hnone, hdir, names, hnames, hlocate⟩
    · exact .inl hsame
    · exact .inr ⟨hnone, hdir, names, hnames, h'.walk hlocate⟩
  · rcases h l with hsame | ⟨-, hdir, -⟩
    · exact .inr ⟨hsame.symm.trans hnone', hdir', hnames'⟩
    · rw [hdir] at hnone'
      nomatch hnone'

/-- What a path led to it still leads to. -/
theorem find {q : Path} (h : DirectoriesMade p t t') {e : FileEntry} (hfind : t.find q = .ok e) : t'.find q = .ok e := by
  obtain ⟨l, hl, he⟩ := find_eq_ok_iff.mp hfind
  exact find_eq_ok_iff.mpr ⟨l, h.walk hl, h.get? he⟩

end DirectoriesMade

/-- A directory is made where nothing is, at the place that its path leads to. -/
theorem makeDirectory_eq_ok_iff : t.makeDirectory p = .ok t' ↔
    ∃ l, t.locate p = .ok l ∧ t.get? l = none ∧ t' = t.put l .directory := by
  unfold makeDirectory
  cases t.locate p with
  | error c => simp
  | ok l =>
    simp only [Except.ok.injEq, exists_eq_left', Option.isSome_iff_ne_none]
    split
    · rename_i hsome
      simp [hsome]
    · rename_i hnone
      rw [Except.ok.injEq, and_iff_right (not_not.mp hnone)]
      exact eq_comm

/-- One tree becomes another by making a directory where a front part of a path leads to. -/
def MakesDirectory (p : Path) (t t' : FileTree) : Prop :=
  ∃ names, names <+: p.names ∧ t.makeDirectory ⟨p.anchor, names⟩ = .ok t'

/-- A directory of the parent is a directory of the path. -/
theorem MakesDirectory.of_parent (h : MakesDirectory p.parent t t') : MakesDirectory p t t' := by
  obtain ⟨names, hnames, hmake⟩ := h
  exact ⟨names, hnames.trans (List.dropLast_prefix p.names), hmake⟩

/-- A place with nothing is neither the working directory nor the root. -/
theorem ne_anchor_of_none (h : t.get? l = none) : l ≠ [] ∧ l ≠ Location.root := by
  refine not_or.mp fun hanchor => ?_
  rw [get?, if_pos hanchor] at h
  cases h

/-- Making one directory changes no other place. -/
theorem MakesDirectory.made (h : MakesDirectory p t t') : DirectoriesMade p t t' := by
  obtain ⟨names, hnames, hmake⟩ := h
  obtain ⟨l, hlocate, hnone, rfl⟩ := makeDirectory_eq_ok_iff.mp hmake
  have hkept : ∀ x, t.get? x = some .directory → (t.put l .directory).get? x = some .directory := by
    intro x hx
    rwa [get?_put_ne t _ fun hxl => ?_]
    rw [hxl, hnone] at hx
    nomatch hx
  intro x
  by_cases hx : x = l
  · subst hx
    obtain ⟨hnil, hroot⟩ := ne_anchor_of_none hnone
    exact .inr ⟨hnone, get?_put_self t _ hnil hroot, names, hnames, walk_of_directories hkept hlocate⟩
  · exact .inl (get?_put_ne t _ hx)

/-- Making the directories of a path is making one after another, whether it succeeds or not. -/
theorem ensureDirectories_steps (above : Nat) (t : FileTree) (p : Path) :
    Relation.ReflTransGen (MakesDirectory p) t (ensureDirectories above t p).2 := by
  have hone : ∀ {t t' : FileTree}, t.ensureDirectory p = .ok t' → Relation.ReflTransGen (MakesDirectory p) t t' := by
    intro t t' h
    cases hmake : t.makeDirectory p with
    | ok t₁ =>
      rw [ensureDirectory, hmake] at h
      cases h
      exact .single ⟨p.names, List.prefix_refl _, hmake⟩
    | error c =>
      rw [ensureDirectory_of_error hmake] at h
      split at h
      · cases h
        exact .refl
      · cases h
  cases he : t.ensureDirectory p with
  | ok t₁ =>
    rw [ensureDirectories_of_ok he]
    exact hone he
  | error c =>
    by_cases hc : c = .notFound
    · subst hc
      cases above with
      | zero =>
        simp only [ensureDirectories, he]
        exact .refl
      | succ above =>
        have hup : Relation.ReflTransGen (MakesDirectory p) t (ensureDirectories above t p.parent).2 :=
          (ensureDirectories_steps above t p.parent).lift id fun _ _ h => h.of_parent
        simp only [ensureDirectories, he]
        rcases hr : ensureDirectories above t p.parent with ⟨f | ⟨⟩, t₁⟩
        · rw [hr] at hup
          exact hup
        · rw [hr] at hup
          dsimp only at hup ⊢
          cases hagain : t₁.ensureDirectory p with
          | error c => exact hup
          | ok t₂ => exact hup.trans (hone hagain)
    · rw [ensureDirectories_of_error he hc]

/-- Preparing the directory of a path makes directories of its parent, and nothing else. -/
theorem makeParents_made (t : FileTree) (p : Path) : DirectoriesMade p.parent t (t.makeParents p).2 := by
  have hsteps : Relation.ReflTransGen (MakesDirectory p.parent) t (t.makeParents p).2 := ensureDirectories_steps _ t p.parent
  generalize (t.makeParents p).2 = t' at hsteps
  induction hsteps with
  | refl => exact .refl _ t
  | tail _ hstep ih => exact ih.trans hstep.made

/-! ## Trees whose entries stand in directories -/

/-- Whatever is there stands in a directory. -/
def Rooted (t : FileTree) : Prop := ∀ l name, (t.get? (l ++ [name])).isSome = true → t.get? l = some .directory

theorem rooted_of_entries (h : ∀ e ∈ t.entries, t.get? e.1.dropLast = some .directory) : t.Rooted := by
  intro l name hl
  by_cases hanchor : l ++ [name] = [] ∨ l ++ [name] = Location.root
  · have hnil : l = [] := by
      rcases hanchor with hanchor | hanchor
      · exact (List.append_eq_nil_iff.mp hanchor).1
      · exact List.eq_nil_of_length_eq_zero (by simpa [Location.root] using congrArg List.length hanchor)
    rw [hnil, get?, if_pos (.inl rfl)]
  · obtain ⟨e, he⟩ := Option.isSome_iff_exists.mp hl
    rw [get?, if_neg hanchor] at he
    obtain ⟨before, after, hentries, -⟩ := List.lookup_eq_some_iff.mp he
    have hparent := h (l ++ [name], e) (by rw [hentries]; simp)
    rwa [List.dropLast_concat] at hparent

namespace Rooted

theorem of_shape (h : t.Rooted) (hshape : SameShape t t') : t'.Rooted := by
  intro l name hl
  rw [← hshape.isSome] at hl
  exact (hshape.directory_iff l).mp (h l name hl)

/-- Whatever is above an entry is a directory. -/
theorem above (h : t.Rooted) {more : List Text} (hmore : more ≠ []) (hl : (t.get? (l ++ more)).isSome = true) :
    t.get? l = some .directory := by
  induction more using List.reverseRecOn with
  | nil => exact absurd rfl hmore
  | append_singleton more name ih =>
    rw [← List.append_assoc] at hl
    have hdir := h _ name hl
    cases more with
    | nil => rwa [List.append_nil] at hdir
    | cons first more =>
      refine ih (List.cons_ne_nil first more) ?_
      rw [hdir]
      rfl

/-- Going up from a directory leads to a directory. -/
theorem up (h : t.Rooted) (hl : t.get? l = some .directory) :
    t.get? (if l = Location.root then l else l.dropLast) = some .directory := by
  split
  · exact hl
  · rcases List.eq_nil_or_concat l with rfl | ⟨above, name, rfl⟩
    · exact hl
    · rw [List.concat_eq_append] at hl ⊢
      rw [List.dropLast_concat]
      exact h above name (by rw [hl]; rfl)

/-- A walk that ends where nothing is ends in a name inside a directory. -/
theorem walk_none (h : t.Rooted) {names : List Text} (hwalk : t.walk l names = .ok l') (hl : (t.get? l).isSome = true)
    (hnone : t.get? l' = none) : ∃ dir name, l' = dir ++ [name] ∧ t.get? dir = some .directory := by
  induction names generalizing l with
  | nil =>
    cases hwalk
    rw [hnone] at hl
    nomatch hl
  | cons name names ih =>
    obtain ⟨next, hstep, hrest⟩ := walk_cons_eq_ok.mp hwalk
    obtain ⟨hdir, hcase⟩ := step_eq_ok_iff.mp hstep
    cases hnext : t.get? next with
    | some e => exact ih hrest (by rw [hnext]; rfl)
    | none =>
      rcases hcase with ⟨-, hup⟩ | ⟨-, -, hdown⟩
      · have hsome := h.up hdir
        rw [← hup, hnext] at hsome
        nomatch hsome
      · cases names with
        | nil =>
          cases hrest
          exact ⟨l, name, hdown, hdir⟩
        | cons second names =>
          obtain ⟨_, hsecond, -⟩ := walk_cons_eq_ok.mp hrest
          rw [step, hnext] at hsecond
          nomatch hsecond

/-- A directory that is made stands in a directory. -/
theorem makeDirectory (h : t.Rooted) (hmake : t.makeDirectory p = .ok t') : t'.Rooted := by
  obtain ⟨l, hlocate, hnone, rfl⟩ := makeDirectory_eq_ok_iff.mp hmake
  have hmade : DirectoriesMade p t (t.put l .directory) := MakesDirectory.made ⟨p.names, List.prefix_refl _, hmake⟩
  have hstart : (t.get? (start p)).isSome = true := by rw [get?_start]; rfl
  obtain ⟨dir, name, rfl, hdir⟩ := h.walk_none hlocate hstart hnone
  intro x y hxy
  rcases hmade (x ++ [y]) with hsame | ⟨hnew, hnow, -⟩
  · rw [hsame] at hxy
    exact hmade.get? (h x y hxy)
  · -- The only place that was made is `dir ++ [name]`.
    have hplace : x ++ [y] = dir ++ [name] := by
      by_contra hne
      rw [get?_put_ne t _ hne, hnew] at hnow
      nomatch hnow
    obtain rfl : x = dir := (List.append_inj' hplace rfl).1
    exact hmade.get? hdir

/-- Directories of a path that are made stand in directories. -/
theorem makeParents (h : t.Rooted) (p : Path) : (t.makeParents p).2.Rooted := by
  have hsteps : Relation.ReflTransGen (MakesDirectory p.parent) t (t.makeParents p).2 := ensureDirectories_steps _ t p.parent
  generalize (t.makeParents p).2 = t' at hsteps
  induction hsteps with
  | refl => exact h
  | tail _ hstep ih =>
    obtain ⟨q, -, hmake⟩ := hstep
    exact ih.makeDirectory hmake

end Rooted

/-! ## Paths that go up only out of directories -/

/-- Wherever a path goes up, it leaves a directory. -/
def LeavesDirectories (t : FileTree) (p : Path) : Prop :=
  ∀ front rest : List Text, p.names = front ++ Text.ofString ".." :: rest → t.isDirectory ⟨p.anchor, front⟩ = true

/-- A path leads to a directory exactly if its place is one. -/
theorem isDirectory_iff : t.isDirectory p = true ↔ ∃ l, t.locate p = .ok l ∧ t.get? l = some .directory := by
  rw [← find_eq_ok_iff, isDirectory]
  split
  · rename_i hfind
    simp [hfind]
  · rename_i hfind
    simpa using hfind

/-- Whether a path goes up out of directories alone is told by the shape of the tree. -/
theorem LeavesDirectories.of_shape (h : LeavesDirectories t p) (hshape : SameShape t t') : LeavesDirectories t' p := by
  intro front rest hnames
  rw [← hshape.isDirectory]
  exact h front rest hnames

/-- It is enough to look at each name of the path in turn. -/
theorem leavesDirectories_iff : LeavesDirectories t p ↔
    ∀ i < p.names.length, p.names[i]? = some (Text.ofString "..") → t.isDirectory ⟨p.anchor, p.names.take i⟩ = true := by
  constructor
  · intro h i _ hup
    have hsplit : p.names = p.names.take i ++ Text.ofString ".." :: p.names.drop (i + 1) := by
      obtain ⟨hlt, hname⟩ := List.getElem?_eq_some_iff.mp hup
      rw [← hname, List.getElem_cons_drop, List.take_append_drop]
    exact h _ _ hsplit
  · intro h front rest hnames
    have hup := h front.length
    simp only [hnames, List.length_append, List.length_cons, List.take_left'] at hup
    exact hup (by omega) (by simp)

instance : Decidable (LeavesDirectories t p) := decidable_of_iff _ leavesDirectories_iff.symm

/-- Names that do not go up are added to the place where they start. -/
theorem walk_eq_append {names : List Text} (hplain : ∀ name ∈ names, name ≠ "..") (h : t.walk l names = .ok l') :
    l' = l ++ names := by
  induction names generalizing l with
  | nil =>
    cases h
    rw [List.append_nil]
  | cons name names ih =>
    obtain ⟨hname, hnames⟩ := List.forall_mem_cons.mp hplain
    obtain ⟨next, hstep, hrest⟩ := walk_cons_eq_ok.mp h
    rcases (step_eq_ok_iff.mp hstep).2 with ⟨hup, -⟩ | ⟨-, -, rfl⟩
    · exact absurd hup hname
    · rw [ih hnames hrest, List.append_assoc, List.singleton_append]

/-- Names that lead to something in one tree lead there in every tree that has it, as the directories above it are there too. -/
theorem Rooted.walk_of_walk (h : t.Rooted) {names : List Text} (hplain : ∀ name ∈ names, name ≠ "..")
    (hwalk : t'.walk l names = .ok l') (hsome : (t.get? l').isSome = true) : t.walk l names = .ok l' := by
  induction names generalizing l with
  | nil => exact hwalk
  | cons name names ih =>
    obtain ⟨next, hstep, hrest⟩ := walk_cons_eq_ok.mp hwalk
    have hdir : t.get? l = some .directory := by
      rw [walk_eq_append hplain hwalk] at hsome
      exact h.above (List.cons_ne_nil name names) hsome
    have hcase := (step_eq_ok_iff.mp hstep).2
    exact walk_cons_eq_ok.mpr ⟨next, step_eq_ok_iff.mpr ⟨hdir, hcase⟩, ih (List.forall_mem_cons.mp hplain).2 hrest⟩

/-- A walk that goes on from a place has found a directory there. -/
theorem get?_of_walk_cons {name : Text} {names : List Text} (h : t.walk l (name :: names) = .ok l') :
    t.get? l = some .directory := by
  obtain ⟨next, hstep, -⟩ := walk_cons_eq_ok.mp h
  exact (step_eq_ok_iff.mp hstep).1

/-- Names are cut behind the last one that goes up. -/
theorem exists_plain_end (names : List Text) : ∃ before plain, names = before ++ plain ∧ (∀ name ∈ plain, name ≠ "..") ∧
    (before = [] ∨ ∃ front, before = front ++ [Text.ofString ".."]) := by
  induction names using List.reverseRecOn with
  | nil => exact ⟨[], [], rfl, nofun, .inl rfl⟩
  | append_singleton names name ih =>
    by_cases hname : name = ".."
    · exact ⟨names ++ [name], [], (List.append_nil _).symm, nofun, .inr ⟨names, by rw [hname]⟩⟩
    · obtain ⟨before, plain, rfl, hplain, hbefore⟩ := ih
      refine ⟨before, plain ++ [name], List.append_assoc .., ?_, hbefore⟩
      exact List.forall_mem_append.mpr ⟨hplain, List.forall_mem_singleton.mpr hname⟩

/-- A path that goes up only out of directories leads to a directory up to where it last goes up. -/
theorem LeavesDirectories.cut (h : LeavesDirectories t p) (hrooted : t.Rooted) :
    ∃ before plain base, p.names = before ++ plain ∧ (∀ name ∈ plain, name ≠ "..") ∧
      t.walk (start p) before = .ok base ∧ t.get? base = some .directory := by
  obtain ⟨before, plain, hnames, hplain, rfl | ⟨front, rfl⟩⟩ := exists_plain_end p.names
  · exact ⟨[], plain, start p, hnames, hplain, rfl, get?_start t p⟩
  · have hsplit : p.names = front ++ Text.ofString ".." :: plain := by
      rw [hnames, List.append_assoc]
      rfl
    obtain ⟨left, hlocate, hleft⟩ := isDirectory_iff.mp (h front plain hsplit)
    have hwalk : t.walk (start p) front = .ok left := hlocate
    have hup : t.walk left [Text.ofString ".."] = .ok (if left = Location.root then left else left.dropLast) :=
      walk_cons_eq_ok.mpr ⟨_, step_eq_ok_iff.mpr ⟨hleft, .inl ⟨rfl, rfl⟩⟩, rfl⟩
    refine ⟨front ++ [Text.ofString ".."], plain, _, hnames, hplain, ?_, hrooted.up hleft⟩
    rw [walk_append, hwalk]
    exact hup

/-- A front part of a path's parent never leads to the place of the path, if that is new and the path goes up only out of
directories. -/
theorem DirectoriesMade.not_target (h : DirectoriesMade p.parent t t') {before plain names : List Text} {base : Location}
    (hnames : p.names = before ++ plain) (hplain : ∀ name ∈ plain, name ≠ "..") (hbase : t.walk (start p) before = .ok base)
    (hdir : t.get? base = some .directory) (hlocate : t'.locate p = .ok l) (hnone : t.get? l = none)
    (hfront : names <+: p.parent.names) : t'.locate ⟨p.anchor, names⟩ ≠ .ok l := by
  intro hother
  have hwalk : t'.walk (start p) names = .ok l := hother
  have htarget : l = base ++ plain := by
    rw [locate, hnames, walk_append, h.walk hbase] at hlocate
    exact walk_eq_append hplain hlocate
  have hnot : t.get? l ≠ some .directory := by
    intro hsome
    rw [hnone] at hsome
    cases hsome
  obtain ⟨rest, hrest⟩ := hfront
  rcases List.eq_nil_or_concat plain with rfl | ⟨init, last, rfl⟩
  · rw [List.append_nil] at htarget
    exact hnot (htarget ▸ hdir)
  rw [List.concat_eq_append] at hnames hplain htarget
  have hparent : names ++ rest = before ++ init := by
    rw [hrest, Path.parent, hnames, ← List.append_assoc, List.dropLast_concat]
  rcases List.append_eq_append_iff.mp hparent with ⟨more, rfl, -⟩ | ⟨more, rfl, rfl⟩
  · -- The front part ends before the path last goes up, and so it led to a directory before.
    rw [walk_append, Outcome.bind_eq_ok] at hbase
    obtain ⟨place, hplace, hmore⟩ := hbase
    obtain rfl : place = l := Except.ok.inj ((h.walk hplace).symm.trans hwalk)
    cases more with
    | nil =>
      cases hmore
      exact hnot hdir
    | cons name more => exact hnot (get?_of_walk_cons hmore)
  · -- It is longer than that, but it has fewer names behind than the path.
    rw [walk_append, h.walk hbase] at hwalk
    have hshort : ∀ name ∈ more, name ≠ ".." := fun name hname => hplain name (by simp [hname])
    have hsame : more = (more ++ rest) ++ [last] :=
      List.append_cancel_left ((walk_eq_append hshort hwalk).symm.trans htarget)
    have hlength := congrArg List.length hsame
    simp at hlength

/-- Nothing comes to be at a path by making directories of its parent, if it goes up only out of directories that were there. -/
theorem DirectoriesMade.absent (h : DirectoriesMade p.parent t t') (hrooted : t.Rooted) (hpath : LeavesDirectories t p)
    (habsent : ∀ e, t.find p ≠ .ok e) (e : FileEntry) : t'.find p ≠ .ok e := by
  intro hfind
  obtain ⟨l, hlocate, he⟩ := find_eq_ok_iff.mp hfind
  obtain ⟨before, plain, base, hnames, hplain, hbase, hdir⟩ := hpath.cut hrooted
  rcases h l with hsame | ⟨hnone, -, names, hfront, hother⟩
  · have hbefore : t.get? l = some e := hsame.symm.trans he
    have hrest : t'.walk base plain = .ok l := by
      rw [locate, hnames, walk_append, h.walk hbase] at hlocate
      exact hlocate
    have hreached : t.locate p = .ok l := by
      rw [locate, hnames, walk_append, hbase]
      exact hrooted.walk_of_walk hplain hrest (by rw [hbefore]; rfl)
    exact habsent e (find_eq_ok_iff.mpr ⟨l, hreached, hbefore⟩)
  · exact h.not_target hnames hplain hbase hdir hlocate hnone hfront hother

/-! ## Replacements that fail -/

/-- The temporary file would be made under a name that nothing has there, as the letters of its name are drawn for. -/
def NewTemporary (medium : Medium) (t : FileTree) (p : Path) : Prop :=
  ∀ dir, (t.makeParents p).2.locate p.parent = .ok dir →
    (t.makeParents p).2.get? (dir ++ [temporaryName medium p]) = none

/-- Whether the name is new depends on the shape of the tree. -/
theorem NewTemporary.of_shape (h : NewTemporary medium t p) (hshape : SameShape t t') : NewTemporary medium t' p := by
  intro dir hdir
  have hmade := (makeParents_shape hshape p).2
  rw [← hmade.locate] at hdir
  have hnone := hmade (dir ++ [temporaryName medium p])
  rw [h dir hdir] at hnone
  exact Option.map_eq_none_iff.mp hnone.symm

/-- To remove what was put is to remove what was there. -/
theorem erase_put (t : FileTree) (l : Location) (e : FileEntry) : (t.put l e).erase l = t.erase l := by
  simp [put, erase, List.filter_filter]

/-- To remove what is not there changes nothing. -/
theorem get?_erase_of_none (h : t.get? l = none) (x : Location) : (t.erase l).get? x = t.get? x := by
  by_cases hx : x = l
  · subst hx
    obtain ⟨hnil, hroot⟩ := ne_anchor_of_none h
    rw [get?_erase_self t hnil hroot, h]
  · exact get?_erase_ne t hx

/-- Preparing the directory of a path changes nothing, or makes the directories above. -/
theorem prepareParents_left (medium : Medium) (t : FileTree) (p : Path) :
    (t.prepareParents medium p).2 = t ∨ (t.prepareParents medium p).2 = (t.makeParents p).2 := by
  unfold prepareParents
  cases medium.refuses .makeDirectory with
  | some c => exact .inl rfl
  | none => exact .inr rfl

/-- A step that is done is not refused, and does what it does. -/
theorem eq_ok_of_attempt {α : Type} {step : FileStep} {result : Except FileCause α} {a : α}
    (h : attempt medium step result = .ok a) : result = .ok a := by
  unfold attempt at h
  cases hrefuses : medium.refuses step with
  | some c =>
    rw [hrefuses] at h
    cases h
  | none =>
    rw [hrefuses] at h
    exact h

/-- Once the directories are there, a replacement that fails leaves them alone, or makes its temporary file and removes it. -/
theorem eq_or_erase_of_replace_error {t₁ : FileTree} {f : FileFault} (hprepared : t.prepareParents medium p = (.ok (), t₁))
    (h : t.replace medium p content = (.error f, t')) :
    t' = t₁ ∨ ∃ dir, t₁.locate p.parent = .ok dir ∧ t' = t₁.erase (dir ++ [temporaryName medium p]) := by
  rw [replace, hprepared] at h
  dsimp only at h
  cases hcreate : attempt medium .createTemporary (createTemporary medium t₁ p) with
  | error c =>
    rw [hcreate] at h
    cases h
    exact .inl rfl
  | ok made =>
    obtain ⟨l, t₂⟩ := made
    obtain ⟨dir, hlocate, -, -, rfl, rfl⟩ := createTemporary_eq_ok_iff.mp (eq_ok_of_attempt hcreate)
    refine .inr ⟨dir, hlocate, ?_⟩
    rw [hcreate] at h
    dsimp only at h
    -- From here on the temporary file is removed, whatever it held.
    cases hwrite : attempt medium .writeTemporary
        (.ok ((t₁.put (dir ++ [temporaryName medium p]) (.file [])).put (dir ++ [temporaryName medium p]) (.file content))) with
    | error c =>
      rw [hwrite] at h
      cases h
      rw [erase_put]
    | ok t₃ =>
      obtain rfl := Except.ok.inj (eq_ok_of_attempt hwrite)
      rw [hwrite] at h
      dsimp only at h
      split at h
      · cases h
        rw [erase_put, erase_put]
      · cases h

/-- A replacement that fails leaves every place as it was, or as it is once the directories above are made. -/
theorem get?_of_replace_error (hnew : NewTemporary medium t p) {f : FileFault} (h : t.replace medium p content = (.error f, t')) :
    (∀ l, t'.get? l = t.get? l) ∨ ∀ l, t'.get? l = (t.makeParents p).2.get? l := by
  have hleft := prepareParents_left medium t p
  rcases hprepared : t.prepareParents medium p with ⟨f' | ⟨⟩, t₁⟩
  · rw [hprepared] at hleft
    rw [replace, hprepared] at h
    cases h
    rcases hleft with rfl | rfl
    · exact .inl fun _ => rfl
    · exact .inr fun _ => rfl
  · have hparents := (prepareParents_eq_ok_iff.mp hprepared).2
    unfold NewTemporary at hnew
    rw [hparents] at hnew ⊢
    rcases eq_or_erase_of_replace_error hprepared h with rfl | ⟨dir, hlocate, rfl⟩
    · exact .inr fun _ => rfl
    · exact .inr (get?_erase_of_none (hnew dir hlocate))

/-- A path that leads to something leads to something in every tree of the shape. -/
theorem SameShape.found (h : SameShape t t') {e : FileEntry} (hfind : t'.find p = .ok e) : ∃ e', t.find p = .ok e' := by
  obtain ⟨l, hl, he⟩ := find_eq_ok_iff.mp hfind
  have hsome : (t.get? l).isSome = true := by rw [h.isSome, he]; rfl
  obtain ⟨e', he'⟩ := Option.isSome_iff_exists.mp hsome
  exact ⟨e', find_eq_ok_iff.mpr ⟨l, (h.locate p).trans hl, he'⟩⟩

/-- The file steps of writing content out at a path. A flawed name shows once the directory is made, and is no file step. -/
def writeOut (medium : Medium) (t : FileTree) (p : Path) (content : Bytes) : Except FileFault Unit × FileTree :=
  match p.flaw?, p.parent.flaw? with
  | none, _ => t.replace medium p content
  | some _, none => t.prepareParents medium p
  | some _, some _ => (.ok (), t)

theorem writeOut_shape (h : SameShape t t') (medium : Medium) (p : Path) (content : Bytes) :
    (t.writeOut medium p content).1 = (t'.writeOut medium p content).1 := by
  unfold writeOut
  split
  · exact replace_shape h medium p content content
  · exact (prepareParents_shape h medium p).1
  · rfl

/-- Writing out that fails leaves every place as it was, or as it is once the directories above are made. -/
theorem get?_of_writeOut_error (hnew : NewTemporary medium t p) {f : FileFault}
    (h : t.writeOut medium p content = (.error f, t')) :
    (∀ l, t'.get? l = t.get? l) ∨ ∀ l, t'.get? l = (t.makeParents p).2.get? l := by
  unfold writeOut at h
  split at h
  · exact get?_of_replace_error hnew h
  · have hleft := prepareParents_left medium t p
    rw [h] at hleft
    rcases hleft with rfl | rfl
    · exact .inl fun _ => rfl
    · exact .inr fun _ => rfl
  · nomatch h

/-- All that writing out leaves when it fails is directories of the parent. -/
theorem writeOut_error_made (hnew : NewTemporary medium t p) {f : FileFault} (h : t.writeOut medium p content = (.error f, t')) :
    DirectoriesMade p.parent t t' := by
  rcases get?_of_writeOut_error hnew h with hget | hget
  · exact fun l => .inl (hget l)
  · have hshape : SameShape (t.makeParents p).2 t' := fun l => congrArg _ (hget l).symm
    intro l
    rcases makeParents_made t p l with hsame | ⟨hnone, hdir, names, hnames, hlocate⟩
    · exact .inl ((hget l).trans hsame)
    · exact .inr ⟨hnone, (hget l).trans hdir, names, hnames, (hshape.locate _).symm.trans hlocate⟩

/-- Writing out that fails leaves entries in directories. -/
theorem writeOut_error_rooted (hnew : NewTemporary medium t p) {f : FileFault} (h : t.writeOut medium p content = (.error f, t'))
    (hrooted : t.Rooted) : t'.Rooted := by
  rcases get?_of_writeOut_error hnew h with hget | hget
  · exact hrooted.of_shape fun l => congrArg _ (hget l).symm
  · exact (hrooted.makeParents p).of_shape fun l => congrArg _ (hget l).symm

end FileTree

end WordSlot
