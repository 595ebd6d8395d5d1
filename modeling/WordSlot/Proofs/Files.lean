import WordSlot.Files.Replace
import WordSlot.Proofs.Outcome

/-!
# Replacing a file at once

Whether a replacement succeeds depends on where there are files and directories, not on what the files hold. A replacement
that succeeds leaves a tree in which the path leads to a file with the new content, and in which it can be replaced again. A
line that is added to the file at another path changes none of that.
-/

namespace WordSlot

namespace FileTree

variable {t t' : FileTree} {l l' : Location}

/-! ## Entries -/

/-- Leaving out one location does not hide the others. -/
theorem lookup_filter_ne {entries : List (Location × FileEntry)} (h : l' ≠ l) :
    (entries.filter (·.1 ≠ l)).lookup l' = entries.lookup l' := by
  induction entries with
  | nil => rfl
  | cons e entries ih =>
    obtain ⟨k, v⟩ := e
    by_cases hk : k = l
    · rw [List.filter_cons_of_neg (by simpa using hk), ih, List.lookup_cons, beq_eq_false_iff_ne.mpr (hk ▸ h)]
    · rw [List.filter_cons_of_pos (by simpa using hk), List.lookup_cons, List.lookup_cons, ih]

/-- Putting an entry leaves the other locations. -/
theorem get?_put_ne (t : FileTree) (e : FileEntry) (h : l' ≠ l) : (t.put l e).get? l' = t.get? l' := by
  unfold get? put
  simp only [List.lookup_cons, beq_eq_false_iff_ne.mpr h, lookup_filter_ne h]

/-- An entry that is put is there, except where there is always a directory. -/
theorem get?_put_self (t : FileTree) (e : FileEntry) (hl : l ≠ []) (hroot : l ≠ Location.root) :
    (t.put l e).get? l = some e := by
  simp [get?, put, hl, hroot]

/-- Removing an entry leaves the other locations. -/
theorem get?_erase_ne (t : FileTree) (h : l' ≠ l) : (t.erase l).get? l' = t.get? l' := by
  unfold get? erase
  simp only [lookup_filter_ne h]

/-- An entry that is removed is gone. -/
theorem get?_erase_self (t : FileTree) (hl : l ≠ []) (hroot : l ≠ Location.root) : (t.erase l).get? l = none := by
  have hnone : (t.entries.filter (·.1 ≠ l)).lookup l = none := by
    rw [List.lookup_eq_none_iff]
    intro e he
    have hne : e.1 ≠ l := by simpa using List.of_mem_filter he
    simpa using Ne.symm hne
  simp only [get?, hl, hroot, or_self, if_false, erase]
  exact hnone

end FileTree

/-! ## Trees of one shape -/

/-- An entry is a directory. -/
def FileEntry.isDirectory : FileEntry → Bool
  | .file _ => false
  | .directory => true

namespace FileTree

variable {t t' : FileTree}

/-- Two trees have files, and directories, in the same places. -/
def SameShape (t t' : FileTree) : Prop := ∀ l, (t.get? l).map FileEntry.isDirectory = (t'.get? l).map FileEntry.isDirectory

namespace SameShape

/-- A tree has its own shape. -/
theorem refl (t : FileTree) : SameShape t t := fun _ => rfl

/-- Having the same shape is transitive. -/
theorem trans {t₁ t₂ t₃ : FileTree} (h : SameShape t₁ t₂) (h' : SameShape t₂ t₃) : SameShape t₁ t₃ :=
  fun l => (h l).trans (h' l)

/-- At each place there is nothing in both trees, or a file in both, or a directory in both. -/
theorem cases (h : SameShape t t') (l : Location) :
    t.get? l = none ∧ t'.get? l = none ∨
      (∃ content content', t.get? l = some (.file content) ∧ t'.get? l = some (.file content')) ∨
      t.get? l = some .directory ∧ t'.get? l = some .directory := by
  have hl := h l
  cases ht : t.get? l with
  | none =>
    rw [ht] at hl
    exact .inl ⟨rfl, Option.map_eq_none_iff.mp hl.symm⟩
  | some e =>
    cases ht' : t'.get? l with
    | none =>
      rw [ht, ht'] at hl
      nomatch hl
    | some e' =>
      rw [ht, ht'] at hl
      cases e with
      | file content =>
        cases e' with
        | file content' => exact .inr (.inl ⟨content, content', rfl, rfl⟩)
        | directory => nomatch hl
      | directory =>
        cases e' with
        | file content' => nomatch hl
        | directory => exact .inr (.inr ⟨rfl, rfl⟩)

/-- Trees of one shape have the same directories. -/
theorem directory_iff (h : SameShape t t') (l : Location) : t.get? l = some .directory ↔ t'.get? l = some .directory := by
  rcases h.cases l with ⟨ht, ht'⟩ | ⟨c, c', ht, ht'⟩ | ⟨ht, ht'⟩ <;> simp [ht, ht']

/-- Where one tree has a file the other has one too. -/
theorem file (h : SameShape t t') {l : Location} {content : Bytes} (hl : t.get? l = some (.file content)) :
    ∃ content', t'.get? l = some (.file content') := by
  rcases h.cases l with ⟨ht, -⟩ | ⟨c, c', -, ht'⟩ | ⟨ht, -⟩
  · rw [hl] at ht
    nomatch ht
  · exact ⟨c', ht'⟩
  · rw [hl] at ht
    nomatch ht

/-- Trees of one shape have entries at the same locations. -/
theorem isSome (h : SameShape t t') (l : Location) : (t.get? l).isSome = (t'.get? l).isSome := by
  rcases h.cases l with ⟨ht, ht'⟩ | ⟨c, c', ht, ht'⟩ | ⟨ht, ht'⟩ <;> simp [ht, ht']

/-- Entries of one kind at one location keep the shapes alike. -/
theorem put (h : SameShape t t') (l : Location) {e e' : FileEntry} (he : e.isDirectory = e'.isDirectory) :
    SameShape (t.put l e) (t'.put l e') := by
  intro l'
  by_cases hl : l' = l
  · subst hl
    by_cases hanchor : l' = [] ∨ l' = Location.root
    · simp only [get?, if_pos hanchor]
    · obtain ⟨hnil, hroot⟩ := not_or.mp hanchor
      rw [get?_put_self t e hnil hroot, get?_put_self t' e' hnil hroot]
      exact congrArg some he
  · rw [get?_put_ne t e hl, get?_put_ne t' e' hl]
    exact h l'

/-- A step leads to the same location, or fails in the same way. -/
theorem step (h : SameShape t t') (l : Location) (name : Text) : t.step l name = t'.step l name := by
  unfold FileTree.step
  rcases h.cases l with ⟨ht, ht'⟩ | ⟨c, c', ht, ht'⟩ | ⟨ht, ht'⟩ <;> rw [ht, ht']

/-- So does a walk. -/
theorem walk (h : SameShape t t') (l : Location) (names : List Text) : t.walk l names = t'.walk l names := by
  induction names generalizing l with
  | nil => rfl
  | cons name names ih =>
    rw [FileTree.walk, FileTree.walk, h.step l name]
    cases t'.step l name with
    | error c => rfl
    | ok l' => exact ih l'

/-- Paths lead to the same places. -/
theorem locate (h : SameShape t t') (p : Path) : t.locate p = t'.locate p := h.walk _ _

/-- A path is a directory in both trees or in neither. -/
theorem isDirectory (h : SameShape t t') (p : Path) : t.isDirectory p = t'.isDirectory p := by
  unfold FileTree.isDirectory find
  rw [h.locate p]
  cases t'.locate p with
  | error c => rfl
  | ok l => rcases h.cases l with ⟨ht, ht'⟩ | ⟨c, c', ht, ht'⟩ | ⟨ht, ht'⟩ <;> simp [ht, ht']

end SameShape

/-- Two steps on trees end alike: with trees of one shape, or for the same cause. -/
def Agree {ε : Type} : Except ε FileTree → Except ε FileTree → Prop
  | .ok t, .ok t' => SameShape t t'
  | .error c, .error c' => c = c'
  | _, _ => False

/-- Outcomes that agree are both trees of one shape or both the same failure. -/
theorem Agree.cases {ε : Type} {x x' : Except ε FileTree} (h : Agree x x') :
    (∃ t t', x = .ok t ∧ x' = .ok t' ∧ SameShape t t') ∨ ∃ c, x = .error c ∧ x' = .error c := by
  cases x with
  | ok t =>
    cases x' with
    | ok t' => exact .inl ⟨t, t', rfl, rfl, h⟩
    | error c' => exact h.elim
  | error c =>
    cases x' with
    | ok t' => exact h.elim
    | error c' =>
      obtain rfl : c = c' := h
      exact .inr ⟨c, rfl, rfl⟩

/-- Making a directory agrees on trees of one shape. -/
theorem agree_makeDirectory (h : SameShape t t') (p : Path) : Agree (t.makeDirectory p) (t'.makeDirectory p) := by
  unfold makeDirectory
  rw [h.locate p]
  cases t'.locate p with
  | error c => rfl
  | ok l =>
    simp only [h.isSome l]
    split
    · rfl
    · exact h.put l rfl

/-- A directory that cannot be made is there already, or that is the fault; without a directory above it is always one. -/
theorem ensureDirectory_of_error {p : Path} {c : FileCause} (h : t.makeDirectory p = .error c) :
    t.ensureDirectory p = if c ≠ .notFound ∧ t.isDirectory p = true then .ok t else .error c := by
  rw [ensureDirectory, h]
  cases c <;> simp

/-- Making sure of a directory agrees on trees of one shape. -/
theorem agree_ensureDirectory (h : SameShape t t') (p : Path) : Agree (t.ensureDirectory p) (t'.ensureDirectory p) := by
  rcases (agree_makeDirectory h p).cases with ⟨t₁, t₁', hm, hm', hshape⟩ | ⟨c, hm, hm'⟩
  · rw [ensureDirectory, ensureDirectory, hm, hm']
    exact hshape
  · rw [ensureDirectory_of_error hm, ensureDirectory_of_error hm', h.isDirectory p]
    split
    · exact h
    · rfl

/-- Nothing is made above a directory that can be made. -/
theorem ensureDirectories_of_ok {above : Nat} {p : Path} (h : t.ensureDirectory p = .ok t') :
    ensureDirectories above t p = (.ok (), t') := by
  unfold ensureDirectories
  rw [h]

/-- Only a directory that is missing above is made up for. -/
theorem ensureDirectories_of_error {above : Nat} {p : Path} {c : FileCause} (h : t.ensureDirectory p = .error c)
    (hc : c ≠ .notFound) : ensureDirectories above t p = (.error ⟨c, p.text, none⟩, t) := by
  unfold ensureDirectories
  rw [h]
  cases c with
  | notFound => exact absurd rfl hc
  | _ => rfl

/-- Making directories from trees of one shape ends alike, and with trees of one shape. -/
theorem ensureDirectories_shape (above : Nat) (h : SameShape t t') (p : Path) :
    (ensureDirectories above t p).1 = (ensureDirectories above t' p).1 ∧
      SameShape (ensureDirectories above t p).2 (ensureDirectories above t' p).2 := by
  rcases (agree_ensureDirectory h p).cases with ⟨t₁, t₁', he, he', hshape⟩ | ⟨c, he, he'⟩
  · rw [ensureDirectories_of_ok he, ensureDirectories_of_ok he']
    exact ⟨rfl, hshape⟩
  · by_cases hc : c = .notFound
    · subst hc
      -- Only here is the directory above looked at, so the recursion is on the number of those.
      cases above with
      | zero =>
        simp only [ensureDirectories, he, he', true_and]
        exact h
      | succ above =>
        have hup := ensureDirectories_shape above h p.parent
        simp only [ensureDirectories, he, he']
        rcases hr : ensureDirectories above t p.parent with ⟨result, t₁⟩
        rcases hr' : ensureDirectories above t' p.parent with ⟨result', t₁'⟩
        rw [hr, hr'] at hup
        obtain ⟨rfl, hshape⟩ : result = result' ∧ SameShape t₁ t₁' := hup
        cases result with
        | error f => exact ⟨rfl, hshape⟩
        | ok done =>
          rcases (agree_ensureDirectory hshape p).cases with ⟨t₂, t₂', h₂, h₂', hshape₂⟩ | ⟨c, h₂, h₂'⟩
          · simp only [h₂, h₂', true_and]
            exact hshape₂
          · simp only [h₂, h₂', true_and]
            exact hshape
    · rw [ensureDirectories_of_error he hc, ensureDirectories_of_error he' hc]
      exact ⟨rfl, h⟩

/-! ## What it takes to replace a file -/

variable {medium : Medium} {p : Path} {content : Bytes} {l : Location}

/-- The directories of a path are made exactly if the medium does not refuse that and they can be made. -/
theorem prepareParents_eq_ok_iff : t.prepareParents medium p = (.ok (), t') ↔
    medium.refuses .makeDirectory = none ∧ t.makeParents p = (.ok (), t') := by
  unfold prepareParents
  cases medium.refuses .makeDirectory with
  | some c => simp
  | none => simp

/-- A replacement succeeds exactly if the medium refuses nothing, the directories above can be made, and a temporary file can
be made there and moved over the path. -/
theorem replace_eq_ok_iff : t.replace medium p content = (.ok (), t') ↔
    (∀ step, medium.refuses step = none) ∧ ∃ t₁ l t₂, t.makeParents p = (.ok (), t₁) ∧
      createTemporary medium t₁ p = .ok (l, t₂) ∧ (t₂.put l (.file content)).moveOver l p = .ok t' := by
  unfold replace attempt
  constructor
  · intro h
    rcases hprepared : t.prepareParents medium p with ⟨f | ⟨⟩, t₁⟩
    · simp [hprepared] at h
    · obtain ⟨hdir, hparents⟩ := prepareParents_eq_ok_iff.mp hprepared
      cases hcreate : medium.refuses .createTemporary with
      | some c => simp [hprepared, hcreate] at h
      | none =>
        cases htemporary : createTemporary medium t₁ p with
        | error c => simp [hprepared, hcreate, htemporary] at h
        | ok made =>
          obtain ⟨l, t₂⟩ := made
          cases hwrite : medium.refuses .writeTemporary with
          | some c => simp [hprepared, hcreate, htemporary, hwrite] at h
          | none =>
            cases hmove : medium.refuses .moveOver with
            | some c => simp [hprepared, hcreate, htemporary, hwrite, hmove] at h
            | none =>
              cases hmoved : (t₂.put l (.file content)).moveOver l p with
              | error c => simp [hprepared, hcreate, htemporary, hwrite, hmove, hmoved] at h
              | ok t₃ =>
                simp only [hprepared, hcreate, htemporary, hwrite, hmove, hmoved, Prod.mk.injEq, true_and] at h
                subst h
                refine ⟨fun step => ?_, t₁, l, t₂, hparents, htemporary, hmoved⟩
                cases step <;> assumption
  · rintro ⟨hmedium, t₁, l, t₂, hparents, htemporary, hmoved⟩
    have hprepared := prepareParents_eq_ok_iff.mpr ⟨hmedium .makeDirectory, hparents⟩
    simp only [hmedium, hprepared, htemporary, hmoved]

/-- A temporary file is made exactly in a directory, under a name that is not too long, and is empty. -/
theorem createTemporary_eq_ok_iff : createTemporary medium t p = .ok (l, t') ↔
    ∃ dir, t.locate p.parent = .ok dir ∧ t.get? dir = some .directory ∧ nameBytes p.name + temporaryBytes ≤ maxNameBytes ∧
      l = dir ++ [temporaryName medium p] ∧ t' = t.put l (.file []) := by
  unfold createTemporary
  cases t.locate p.parent with
  | error c => simp
  | ok dir =>
    simp only [Except.ok.injEq, exists_eq_left']
    cases t.get? dir with
    | none => simp
    | some e =>
      cases e with
      | file c => simp
      | directory =>
        simp only [true_and]
        split
        · rename_i hlong
          simp only [reduceCtorEq, false_iff, not_and]
          omega
        · rename_i hshort
          simp only [Except.ok.injEq, Prod.mk.injEq]
          constructor
          · rintro ⟨rfl, rfl⟩
            exact ⟨by omega, rfl, rfl⟩
          · rintro ⟨-, rfl, rfl⟩
            exact ⟨rfl, rfl⟩

/-- A file is moved exactly over a path that is no directory, and leaves its own place. -/
theorem moveOver_eq_ok_iff {source : Location} : t.moveOver source p = .ok t' ↔
    ∃ l content, t.locate p = .ok l ∧ p.name ≠ ".." ∧ t.get? source = some (.file content) ∧
      t.get? l ≠ some .directory ∧ t' = (t.erase source).put l (.file content) := by
  unfold moveOver
  constructor
  · intro h
    split at h
    · cases h
    · rename_i l hl
      split at h
      · cases h
      · rename_i hup
        split at h
        · cases h
        · rename_i content hsource hdir
          cases h
          exact ⟨l, content, hl, hup, hsource, hdir, rfl⟩
        · cases h
  · rintro ⟨l, content, hl, hup, hsource, hdir, rfl⟩
    rw [hl]
    simp only [hup, if_false, hsource]

/-- Making the directories of a path goes the same way from trees of one shape. -/
theorem makeParents_shape (h : SameShape t t') (p : Path) :
    (t.makeParents p).1 = (t'.makeParents p).1 ∧ SameShape (t.makeParents p).2 (t'.makeParents p).2 :=
  ensureDirectories_shape p.parent.names.length h p.parent

/-- Making a temporary file goes the same way from trees of one shape. -/
theorem createTemporary_shape (h : SameShape t t') (medium : Medium) (p : Path) :
    (∃ c, createTemporary medium t p = .error c ∧ createTemporary medium t' p = .error c) ∨
      ∃ l t₁ t₁', createTemporary medium t p = .ok (l, t₁) ∧ createTemporary medium t' p = .ok (l, t₁') ∧ SameShape t₁ t₁' := by
  unfold createTemporary
  rw [h.locate p.parent]
  cases t'.locate p.parent with
  | error c => exact .inl ⟨c, rfl, rfl⟩
  | ok dir =>
    dsimp only
    rcases h.cases dir with ⟨ht, ht'⟩ | ⟨c, c', ht, ht'⟩ | ⟨ht, ht'⟩ <;> rw [ht, ht']
    · exact .inl ⟨.notFound, rfl, rfl⟩
    · exact .inl ⟨.notDirectory, rfl, rfl⟩
    · dsimp only
      split
      · exact .inl ⟨.nameTooLong, rfl, rfl⟩
      · exact .inr ⟨_, _, _, rfl, rfl, h.put _ rfl⟩

/-- Moving a file over a path goes the same way in trees of one shape. -/
theorem moveOver_shape (h : SameShape t t') (source : Location) (p : Path) :
    (∃ c, t.moveOver source p = .error c ∧ t'.moveOver source p = .error c) ∨
      ∃ t₁ t₁', t.moveOver source p = .ok t₁ ∧ t'.moveOver source p = .ok t₁' := by
  unfold moveOver
  rw [h.locate p]
  cases t'.locate p with
  | error c => exact .inl ⟨c, rfl, rfl⟩
  | ok l =>
    dsimp only
    split
    · exact .inl ⟨.busy, rfl, rfl⟩
    · rcases h.cases l with ⟨ht, ht'⟩ | ⟨c, c', ht, ht'⟩ | ⟨ht, ht'⟩ <;> rw [ht, ht']
      all_goals rcases h.cases source with ⟨hs, hs'⟩ | ⟨d, d', hs, hs'⟩ | ⟨hs, hs'⟩ <;> rw [hs, hs']
      all_goals first
        | exact .inl ⟨.notFound, rfl, rfl⟩
        | exact .inl ⟨.isDirectory, rfl, rfl⟩
        | exact .inr ⟨_, _, rfl, rfl⟩

/-- Preparing the directories of a path goes the same way from trees of one shape. -/
theorem prepareParents_shape (h : SameShape t t') (medium : Medium) (p : Path) :
    (t.prepareParents medium p).1 = (t'.prepareParents medium p).1 ∧
      SameShape (t.prepareParents medium p).2 (t'.prepareParents medium p).2 := by
  unfold prepareParents
  cases medium.refuses .makeDirectory with
  | some c => exact ⟨rfl, h⟩
  | none => exact makeParents_shape h p

/-- What becomes of a replacement depends on the shape of the tree alone, and not on the content either: a tree goes through the
same steps as one of its shape. -/
theorem replace_shape (h : SameShape t t') (medium : Medium) (p : Path) (content content' : Bytes) :
    (t.replace medium p content).1 = (t'.replace medium p content').1 := by
  unfold replace attempt
  obtain ⟨hresult, hshape₁⟩ := prepareParents_shape h medium p
  rcases hprepared : t.prepareParents medium p with ⟨result, t₁⟩
  rcases hprepared' : t'.prepareParents medium p with ⟨result', t₁'⟩
  rw [hprepared, hprepared'] at hresult hshape₁
  dsimp only at hresult hshape₁ ⊢
  subst hresult
  cases result with
  | error f => rfl
  | ok done =>
    cases medium.refuses .createTemporary with
    | some c => rfl
    | none =>
      rcases createTemporary_shape hshape₁ medium p with ⟨c, hc, hc'⟩ | ⟨l, t₂, t₂', hmade, hmade', hshape₂⟩
      · simp only [hc, hc']
      · simp only [hmade, hmade']
        cases medium.refuses .writeTemporary with
        | some c => rfl
        | none =>
          cases medium.refuses .moveOver with
          | some c => rfl
          | none =>
            have hshape₃ : SameShape (t₂.put l (.file content)) (t₂'.put l (.file content')) := hshape₂.put l rfl
            rcases moveOver_shape hshape₃ l p with ⟨c, hc, hc'⟩ | ⟨t₃, t₃', hmoved, hmoved'⟩
            · simp only [hc, hc']
            · simp only [hmoved, hmoved']

/-- The file at a path can be replaced. -/
def Writable (medium : Medium) (t : FileTree) (p : Path) : Prop := (t.replace medium p []).1 = .ok ()

/-- A path that can be written can be written in every tree of that shape. -/
theorem Writable.replace_shape (h : Writable medium t p) (hshape : SameShape t t') (content : Bytes) :
    ∃ t₁, t'.replace medium p content = (.ok (), t₁) :=
  ⟨_, Prod.ext ((FileTree.replace_shape hshape medium p [] content).symm.trans h) rfl⟩

/-- Whether a path can be written depends on the shape of the tree. -/
theorem Writable.of_shape (h : Writable medium t p) (hshape : SameShape t t') : Writable medium t' p := by
  obtain ⟨t₁, ht₁⟩ := h.replace_shape hshape []
  exact congrArg Prod.fst ht₁

/-! ## What a replacement leaves -/

/-- A walk over two lists of names is one walk after the other. -/
theorem walk_append (t : FileTree) (l : Location) (names more : List Text) :
    t.walk l (names ++ more) = t.walk l names >>= fun l' => t.walk l' more := by
  induction names generalizing l with
  | nil => rfl
  | cons name names ih =>
    rw [List.cons_append, walk, walk]
    cases t.step l name with
    | error c => rfl
    | ok l' => exact ih l'

/-- A walk goes on from where its first step led. -/
theorem walk_cons_eq_ok {l' : Location} {name : Text} {names : List Text} :
    t.walk l (name :: names) = .ok l' ↔ ∃ next, t.step l name = .ok next ∧ t.walk next names = .ok l' := by
  rw [walk]
  cases t.step l name with
  | error c => simp
  | ok next => simp

/-- A step is taken exactly from a directory: up, or to a name that is not too long. -/
theorem step_eq_ok_iff {l' : Location} {name : Text} : t.step l name = .ok l' ↔
    t.get? l = some .directory ∧
      (name = ".." ∧ l' = (if l = Location.root then l else l.dropLast) ∨
        name ≠ ".." ∧ nameBytes name ≤ maxNameBytes ∧ l' = l ++ [name]) := by
  unfold step
  rcases t.get? l with - | ⟨c⟩ | ⟨⟩
  · simp
  · simp
  · by_cases hup : name = ".."
    · simp [hup, eq_comm]
    · by_cases hlong : maxNameBytes < nameBytes name
      · simp [hup, hlong, Nat.not_le.mpr hlong]
      · simp [hup, hlong, Nat.le_of_not_lt hlong, eq_comm]

/-- What is found at a path stands at its location. -/
theorem find_eq_ok_iff {e : FileEntry} : t.find p = .ok e ↔ ∃ l, t.locate p = .ok l ∧ t.get? l = some e := by
  unfold find
  cases t.locate p with
  | error c => simp
  | ok l => cases hl : t.get? l <;> simp [hl]

/-- A walk leads to the same place in a tree that has all the directories. -/
theorem walk_of_directories (h : ∀ l, t.get? l = some .directory → t'.get? l = some .directory) {l l' : Location}
    {names : List Text} (hwalk : t.walk l names = .ok l') : t'.walk l names = .ok l' := by
  induction names generalizing l with
  | nil => exact hwalk
  | cons name names ih =>
    obtain ⟨next, hstep, hrest⟩ := walk_cons_eq_ok.mp hwalk
    obtain ⟨hdir, hname⟩ := step_eq_ok_iff.mp hstep
    exact walk_cons_eq_ok.mpr ⟨next, step_eq_ok_iff.mpr ⟨h l hdir, hname⟩, ih hrest⟩

/-- A path starts at a directory. -/
theorem get?_start (t : FileTree) (p : Path) : t.get? (start p) = some .directory := by
  unfold get? start
  cases p.anchor <;> simp

/-- A path that can be replaced ends in a name, and its location is that name in the directory of its parent. -/
theorem locate_eq_ok_of_name {target : Location} (hlocate : t.locate p = .ok target) (hup : p.name ≠ "..")
    (hfree : t.get? target ≠ some .directory) :
    ∃ dir, t.locate p.parent = .ok dir ∧ t.get? dir = some .directory ∧ target = dir ++ [p.name] := by
  rcases List.eq_nil_or_concat p.names with hnil | ⟨names, name, hnames⟩
  · -- A bare anchor leads to the working directory or the root, which are directories.
    have hstart : target = start p := by
      rw [locate, hnil, walk] at hlocate
      exact (Except.ok.inj hlocate).symm
    subst hstart
    exact absurd (get?_start t p) hfree
  · rw [List.concat_eq_append] at hnames
    have hname : p.name = name := by simp [Path.name, hnames]
    have hparent : p.parent.names = names := by simp [Path.parent, hnames]
    rw [locate, hnames, walk_append, Outcome.bind_eq_ok] at hlocate
    obtain ⟨dir, hdir, hlast⟩ := hlocate
    obtain ⟨_, hstep, ⟨rfl⟩⟩ := walk_cons_eq_ok.mp hlast
    obtain ⟨hisdir, hcase⟩ := step_eq_ok_iff.mp hstep
    refine ⟨dir, ?_, hisdir, ?_⟩
    · rw [locate, hparent]
      exact hdir
    · rcases hcase with ⟨hn, -⟩ | ⟨-, -, htarget⟩
      · exact absurd (hname.trans hn) hup
      · rw [hname]
        exact htarget

/-- The name of a temporary file is longer than the path's own. -/
theorem length_temporaryName (medium : Medium) (p : Path) :
    (temporaryName medium p).codes.length = p.name.codes.length + medium.letters.codes.length + 5 := by
  have happend : ∀ a b : Text, (a ++ b).codes = a.codes ++ b.codes := fun _ _ => rfl
  have hpoint : (Text.ofString ".").codes.length = 1 := rfl
  have hending : (Text.ofString ".tmp").codes.length = 4 := rfl
  simp only [temporaryName, happend, List.length_append, hpoint, hending]
  omega

/-- A temporary file is not where a path starts. -/
theorem temporary_ne_anchor (medium : Medium) (p : Path) (dir : Location) : dir ++ [temporaryName medium p] ≠ [] ∧
    dir ++ [temporaryName medium p] ≠ Location.root := by
  refine ⟨by simp, fun h => ?_⟩
  have hlast := congrArg List.getLast? h
  simp only [List.getLast?_concat, Location.root, List.getLast?_singleton, Option.some.injEq] at hlast
  have hlength := length_temporaryName medium p
  rw [hlast] at hlength
  simp [Text.ofString, Text.ofChars] at hlength

/-- A temporary file is not where its content goes. -/
theorem temporary_ne_target (medium : Medium) (p : Path) (dir : Location) :
    dir ++ [p.name] ≠ dir ++ [temporaryName medium p] := by
  intro h
  have hname : p.name = temporaryName medium p := by simpa using h
  have hlength := length_temporaryName medium p
  rw [← hname] at hlength
  omega

/-- Where a directory is, making it and those above it changes nothing. -/
theorem makeParents_of_directory {dir : Location} (hlocate : t.locate p.parent = .ok dir)
    (hdir : t.get? dir = some .directory) : t.makeParents p = (.ok (), t) := by
  have hmake : t.makeDirectory p.parent = .error .exists := by simp [makeDirectory, hlocate, hdir]
  have his : t.isDirectory p.parent = true := by simp [isDirectory, find, hlocate, hdir]
  refine ensureDirectories_of_ok ?_
  rw [ensureDirectory_of_error hmake, if_pos ⟨by decide, his⟩]

/-- A tree in which a path leads to a file with some content, in a directory where it can be replaced. -/
structure Settled (medium : Medium) (t : FileTree) (p : Path) (content : Bytes) (dir : Location) : Prop where
  refuses : ∀ step, medium.refuses step = none
  short : nameBytes p.name + temporaryBytes ≤ maxNameBytes
  named : p.name ≠ ".."
  parent : t.locate p.parent = .ok dir
  directory : t.get? dir = some .directory
  location : t.locate p = .ok (dir ++ [p.name])
  file : t.get? (dir ++ [p.name]) = some (.file content)
  temporary : t.get? (dir ++ [temporaryName medium p]) ≠ some .directory

/-- Settled content is read. -/
theorem Settled.read {dir : Location} (h : Settled medium t p content dir) : t.read p = .ok content := by
  simp [FileTree.read, find, h.location, h.file]

/-- A settled file can be replaced: its directory is there, and the temporary file comes in nobody's way. -/
theorem Settled.writable {dir : Location} (h : Settled medium t p content dir) : Writable medium t p := by
  obtain ⟨hnil, hroot⟩ := temporary_ne_anchor medium p dir
  have htarget := temporary_ne_target medium p dir
  let tmp := dir ++ [temporaryName medium p]
  have hmade : createTemporary medium t p = .ok (tmp, t.put tmp (.file [])) :=
    createTemporary_eq_ok_iff.mpr ⟨dir, h.parent, h.directory, h.short, rfl, rfl⟩
  have hother : ∀ x, x ≠ tmp → ((t.put tmp (.file [])).put tmp (.file [])).get? x = t.get? x := by
    intro x hx
    rw [get?_put_ne _ _ hx, get?_put_ne _ _ hx]
  have hlocate : ((t.put tmp (.file [])).put tmp (.file [])).locate p = .ok (dir ++ [p.name]) := by
    refine walk_of_directories (fun x hx => ?_) h.location
    rw [hother x fun hxt => h.temporary ((congrArg t.get? hxt).symm.trans hx)]
    exact hx
  have hmoved := moveOver_eq_ok_iff.mpr ⟨_, [], hlocate, h.named, get?_put_self _ _ hnil hroot,
    by rw [hother _ htarget, h.file]; exact nofun, rfl⟩
  exact congrArg Prod.fst (replace_eq_ok_iff.mpr
    ⟨h.refuses, t, tmp, _, makeParents_of_directory h.parent h.directory, hmade, hmoved⟩)

/-- After a replacement the file is settled with its new content. -/
theorem settled_of_replace (h : t.replace medium p content = (.ok (), t')) : ∃ dir, Settled medium t' p content dir := by
  obtain ⟨hmedium, t₁, l, t₂, -, hmade, hmoved⟩ := replace_eq_ok_iff.mp h
  obtain ⟨dir, hparent₁, -, hshort, rfl, rfl⟩ := createTemporary_eq_ok_iff.mp hmade
  obtain ⟨target, found, hlocate, hup, hsource, hfree, rfl⟩ := moveOver_eq_ok_iff.mp hmoved
  obtain ⟨dir', hparent, hdir, rfl⟩ := locate_eq_ok_of_name hlocate hup hfree
  obtain ⟨hnil, hroot⟩ := temporary_ne_anchor medium p dir
  -- `t₃` is the tree with the temporary file in it; it has no directories that were not there before.
  generalize ht₃ : (t₁.put (dir ++ [temporaryName medium p]) (.file [])).put (dir ++ [temporaryName medium p])
    (.file content) = t₃ at *
  have hfound : found = content := by
    rw [← ht₃, get?_put_self _ _ hnil hroot] at hsource
    simpa using hsource.symm
  subst hfound
  have hsame : dir' = dir := by
    have hwalk : t₁.locate p.parent = .ok dir' := by
      refine walk_of_directories (fun x hx => ?_) hparent
      have hne : x ≠ dir ++ [temporaryName medium p] := by
        rintro rfl
        rw [hsource] at hx
        nomatch hx
      rwa [← ht₃, get?_put_ne _ _ hne, get?_put_ne _ _ hne] at hx
    rw [hparent₁] at hwalk
    exact (Except.ok.inj hwalk).symm
  subst hsame
  have htarget := temporary_ne_target medium p dir'
  have hanchor : dir' ++ [p.name] ≠ Location.root := by
    intro hr
    rw [hr] at hfree
    exact hfree (by simp [get?])
  have hother : ∀ x, x ≠ dir' ++ [p.name] → x ≠ dir' ++ [temporaryName medium p] →
      ((t₃.erase (dir' ++ [temporaryName medium p])).put (dir' ++ [p.name]) (.file found)).get? x = t₃.get? x := by
    intro x hx hx'
    rw [get?_put_ne _ _ hx, get?_erase_ne _ hx']
  have hdirectories : ∀ x, t₃.get? x = some .directory →
      ((t₃.erase (dir' ++ [temporaryName medium p])).put (dir' ++ [p.name]) (.file found)).get? x = some .directory := by
    intro x hx
    rw [hother x (fun hxt => hfree (hxt ▸ hx)) fun hxt => ?_]
    · exact hx
    · rw [hxt, hsource] at hx
      nomatch hx
  refine ⟨dir', hmedium, hshort, hup, walk_of_directories hdirectories hparent, hdirectories _ hdir,
    walk_of_directories hdirectories hlocate, get?_put_self _ _ (by simp) hanchor, ?_⟩
  rw [get?_put_ne _ _ htarget.symm, get?_erase_self _ hnil hroot]
  exact nofun

/-- A file that can be replaced is replaced by any content, which is then read, and can be replaced again. -/
theorem Writable.replace (h : Writable medium t p) (content : Bytes) :
    ∃ t', t.replace medium p content = (.ok (), t') ∧ t'.read p = .ok content ∧ Writable medium t' p := by
  obtain ⟨t', ht'⟩ := h.replace_shape (.refl t) content
  obtain ⟨dir, hsettled⟩ := settled_of_replace ht'
  exact ⟨t', ht', hsettled.read, hsettled.writable⟩

/-! ## Lines added to other files -/

/-- Adding to a file keeps the shape. -/
theorem sameShape_append (t : FileTree) (q : Path) (more : Bytes) : SameShape t (t.append q more) := by
  unfold append
  split
  · exact .refl t
  · rename_i l hl
    split
    · rename_i old hold
      intro x
      by_cases hx : x = l
      · subst hx
        by_cases hanchor : x = [] ∨ x = Location.root
        · simp only [get?, if_pos hanchor]
        · obtain ⟨hnil, hroot⟩ := not_or.mp hanchor
          rw [hold, get?_put_self t _ hnil hroot]
          rfl
      · rw [get?_put_ne t _ hx]
    · exact .refl t

end FileTree

/-- In no tree do two paths lead to the same place. -/
def Path.Apart (q p : Path) : Prop := ∀ (t : FileTree) (l : Location), t.locate q = .ok l → t.locate p ≠ .ok l

namespace FileTree

/-- A line that is added at one path does not change what is found at another that leads elsewhere. -/
theorem find_append {t : FileTree} {p q : Path} (h : ∀ l, t.locate q = .ok l → t.locate p ≠ .ok l) (more : Bytes) :
    (t.append q more).find p = t.find p := by
  unfold find
  rw [← (sameShape_append t q more).locate p]
  cases hp : t.locate p with
  | error c => rfl
  | ok l =>
    have hget : (t.append q more).get? l = t.get? l := by
      unfold append
      split
      · rfl
      · rename_i l' hl'
        split
        · rw [get?_put_ne]
          rintro rfl
          exact h l hl' hp
        · rfl
    simp only [hget]

end FileTree

end WordSlot
