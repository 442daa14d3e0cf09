import Mathlib
import Quilt.Files.Workspace
import Quilt.Proofs.Checks
import Quilt.Proofs.Path

namespace Quilt.Workspace
variable {w before mid after : Workspace} {place other next : Place} {entry : Entry} {path : Path}
  {part name : String} {parts init : List String}

theorem get?_put_self (h : w.get? place ≠ some .directory) :
    (w.put place entry).get? place = some entry := by
  have hhome : ¬place.isPrefixOf w.home := fun hhome => h (if_pos hhome)
  have hgone : (w.entries.filter (·.1 ≠ place)).lookup place = none := by
    rw [List.lookup_eq_none_iff]
    intro e he
    have hne : e.1 ≠ place := by simpa using (List.mem_filter.1 he).2
    simpa using hne.symm
  unfold get? put
  rw [if_neg hhome, List.lookup_append, hgone, Option.none_or]
  simp

theorem lookup_filter_of_ne (entries : List (Place × Entry)) (h : other ≠ place) :
    (entries.filter (·.1 ≠ place)).lookup other = entries.lookup other := by
  induction entries with
  | nil => rfl
  | cons e entries ih =>
    by_cases he : e.1 = place
    · have hother : (other == e.1) = false := by simpa [he] using h
      rw [List.filter_cons_of_neg (by simpa using he), ih, List.lookup_cons, hother]
    · rw [List.filter_cons_of_pos (by simpa using he), List.lookup_cons, List.lookup_cons, ih]

theorem get?_put_of_ne (h : other ≠ place) : (w.put place entry).get? other = w.get? other := by
  have hlast : [(place, entry)].lookup other = none := by simpa using h
  unfold get? put
  dsimp only
  rw [List.lookup_append, lookup_filter_of_ne _ h, hlast, Option.or_none]

theorem directory_of_enter (h : w.enter place part = .ok next) :
    w.get? place = some .directory := by
  unfold enter at h
  split at h
  · cases h
  · assumption
  · cases h

theorem enter_of_directory (h : w.get? place = some .directory) : w.enter place part =
    if Path.stays part then .ok place
    else if part = ".." then .ok place.dropLast
    else if Path.nameLimit < part.utf8ByteSize then .error .nameTooLong
    else .ok (place ++ [part]) := by
  rw [enter, h]

theorem enter_empty (h : w.enter place "" = .ok next) : next = place := by
  rw [enter_of_directory (directory_of_enter h)] at h
  exact (Except.ok.inj h).symm

theorem enter_name (hname : Path.IsName name) (h : w.enter place name = .ok next) :
    next = place ++ [name] := by
  rw [enter_of_directory (directory_of_enter h), hname.1, if_neg Bool.false_ne_true,
    if_neg hname.2] at h
  split_ifs at h
  exact (Except.ok.inj h).symm

theorem enter_up (h : w.enter place ".." = .ok next) : next = place.dropLast := by
  rw [enter_of_directory (directory_of_enter h)] at h
  exact (Except.ok.inj h).symm

theorem foldlM_of_resolve (h : w.resolve path = .ok place) :
    path.parts.foldlM w.enter (w.start path) = .ok place := by
  unfold resolve at h
  split_ifs at h
  exact h

/-- The last part of a path is entered from the directory that those before it lead to. -/
theorem foldlM_concat_eq_ok {start : Place} :
    (init ++ [part]).foldlM w.enter start = .ok place ↔
      ∃ dir, init.foldlM w.enter start = .ok dir ∧ w.enter dir part = .ok place := by
  rw [List.foldlM_append, bind_eq_ok]
  simp only [List.foldlM_cons, List.foldlM_nil, bind_pure]

theorem resolve_concat (hname : Path.IsName name) (h : w.resolve ⟨init ++ [name]⟩ = .ok place) :
    ∃ dir, init.foldlM w.enter (w.start ⟨init ++ [name]⟩) = .ok dir ∧ place = dir ++ [name] := by
  obtain ⟨dir, hdir, henter⟩ := foldlM_concat_eq_ok.1 (foldlM_of_resolve h)
  exact ⟨dir, hdir, enter_name hname henter⟩

theorem resolve_concat_ne (hname : Path.IsName name) (hpart : Path.IsName part ∨ part = "..")
    (hne : name ≠ part) (h : w.resolve ⟨init ++ [name]⟩ = .ok place)
    (h' : w.resolve ⟨init ++ [part]⟩ = .ok next) : place ≠ next := by
  have hstart : w.start ⟨init ++ [part]⟩ = w.start ⟨init ++ [name]⟩ := by
    rw [start, start, Path.isAbsolute_concat]
  have hfold := foldlM_of_resolve h'
  rw [hstart] at hfold
  obtain ⟨dir, hdir, rfl⟩ := resolve_concat hname h
  obtain ⟨dir', hdir', henter⟩ := foldlM_concat_eq_ok.1 hfold
  obtain rfl := Except.ok.inj (hdir.symm.trans hdir')
  obtain hpart | rfl := hpart
  · rw [enter_name hpart henter]
    simpa using hne
  · rw [enter_up henter]
    intro hsame
    have hlength := congrArg List.length hsame
    rw [List.length_append, List.length_dropLast, List.length_singleton] at hlength
    omega

theorem resolve_ne_of_withExtension {extension : String} (hlength : 2 ≤ extension.length)
    (hne : path.withExtension extension ≠ path) (h : w.resolve path = .ok place)
    (h' : w.resolve (path.withExtension extension) = .ok next) : place ≠ next := by
  obtain ⟨init, name, hpath, hother, hname, hpart⟩ := Path.withExtension_cases hlength hne
  rw [hother] at h' hne
  rw [hpath] at h hne
  refine resolve_concat_ne hname hpart (fun hsame => hne ?_) h h'
  rw [← hsame]

theorem resolve_join {dir : Path} {dirPlace : Place} (hdir : w.resolve dir = .ok dirPlace)
    (hname : Path.IsName name) (h : w.resolve (dir.join name) = .ok place) :
    place = dirPlace ++ [name] := by
  obtain ⟨init, hjoin, habsolute, hparts⟩ := dir.exists_join_eq name
  have hstart : w.start dir = w.start ⟨init ++ [name]⟩ := by rw [start, start, habsolute]
  have hfold := foldlM_of_resolve hdir
  rw [hjoin] at h
  obtain ⟨reached, hreached, rfl⟩ := resolve_concat hname h
  rw [hstart] at hfold
  obtain hparts | hparts := hparts
  · rw [hparts, hreached] at hfold
    rw [Except.ok.inj hfold]
  · rw [hparts] at hfold
    obtain ⟨before, hbefore, henter⟩ := foldlM_concat_eq_ok.1 hfold
    rw [hreached] at hbefore
    rw [enter_empty henter, Except.ok.inj hbefore]

theorem read_eq_ok : w.read path = .ok entry ↔
    ∃ place, w.resolve path = .ok place ∧ w.get? place = some entry ∧ entry ≠ .directory := by
  unfold read
  rw [bind_eq_ok]
  refine exists_congr fun place => and_congr_right fun _ => ?_
  cases w.get? place with
  | none => simp
  | some found => cases found <;> simp <;> rintro rfl <;> simp

/-- What is done to a tree, told by the entries that are written. -/
structure Writes (before after : Workspace) (written : List (Place × Entry)) : Prop where
  home_eq : after.home = before.home
  keeps : ∀ place, before.get? place = some .directory → after.get? place = some .directory
  holds : ∀ e ∈ written, after.get? e.1 = some e.2
  /-- Elsewhere directories may have been made. -/
  elsewhere : ∀ place ∉ written.map Prod.fst, after.get? place = before.get? place ∨
    before.get? place = none ∧ after.get? place = some .directory

namespace Writes
variable {written others : List (Place × Entry)}

theorem refl (w : Workspace) : Writes w w [] where
  home_eq := rfl
  keeps := fun _ h => h
  holds := fun _ h => nomatch h
  elsewhere := fun _ _ => .inl rfl

theorem trans (h : Writes before mid written) (h' : Writes mid after others)
    (hne : ∀ e ∈ written, e.1 ∉ others.map Prod.fst) : Writes before after (written ++ others) where
  home_eq := h'.home_eq.trans h.home_eq
  keeps := fun place hplace => h'.keeps place (h.keeps place hplace)
  holds := by
    intro e he
    obtain he | he := List.mem_append.1 he
    · obtain hsame | ⟨hnone, -⟩ := h'.elsewhere e.1 (hne e he)
      · rw [hsame, h.holds e he]
      · cases (h.holds e he).symm.trans hnone
    · exact h'.holds e he
  elsewhere := by
    intro place hplace
    rw [List.map_append, List.mem_append, not_or] at hplace
    obtain hsame | ⟨hnone, hmade⟩ := h.elsewhere place hplace.1
    · rw [← hsame]
      exact h'.elsewhere place hplace.2
    · exact .inr ⟨hnone, h'.keeps place hmade⟩

theorem enter_eq (h : Writes before after written) (henter : before.enter place part = .ok next) :
    after.enter place part = .ok next := by
  have hdirectory := directory_of_enter henter
  rw [enter_of_directory (h.keeps place hdirectory), ← enter_of_directory hdirectory, henter]

theorem foldlM_eq (h : Writes before after written)
    (hfold : parts.foldlM before.enter place = .ok next) :
    parts.foldlM after.enter place = .ok next := by
  induction parts generalizing place with
  | nil => exact hfold
  | cons part parts ih =>
    rw [List.foldlM_cons, bind_eq_ok] at hfold ⊢
    obtain ⟨reached, henter, hrest⟩ := hfold
    exact ⟨reached, h.enter_eq henter, ih hrest⟩

theorem resolve_eq (h : Writes before after written) (hpath : before.resolve path = .ok place) :
    after.resolve path = .ok place := by
  have hstart : after.start path = before.start path := by rw [start, start, h.home_eq]
  unfold resolve at hpath ⊢
  split_ifs at hpath ⊢
  rw [hstart]
  exact h.foldlM_eq hpath

theorem read_eq (h : Writes before after written) (hpath : before.resolve path = .ok place)
    (he : (place, entry) ∈ written) (hentry : entry ≠ .directory) :
    after.read path = .ok entry :=
  read_eq_ok.2 ⟨place, h.resolve_eq hpath, h.holds _ he, hentry⟩

theorem read_of_notMem (h : Writes before after written) (hread : before.read path = .ok entry)
    (hpath : before.resolve path = .ok place) (hplace : place ∉ written.map Prod.fst) :
    after.read path = .ok entry := by
  obtain ⟨place', hpath', hget, hentry⟩ := read_eq_ok.1 hread
  obtain rfl := Except.ok.inj (hpath.symm.trans hpath')
  refine read_eq_ok.2 ⟨place, h.resolve_eq hpath, ?_, hentry⟩
  obtain hsame | ⟨hnone, -⟩ := h.elsewhere place hplace
  · rw [hsame, hget]
  · cases hget.symm.trans hnone

end Writes

theorem writes_put (h : w.get? place ≠ some .directory) :
    Writes w (w.put place entry) [(place, entry)] where
  home_eq := rfl
  keeps := by
    intro other hother
    have hne : other ≠ place := by
      rintro rfl
      exact h hother
    rw [get?_put_of_ne hne, hother]
  holds := by
    intro e he
    rw [List.mem_singleton.1 he]
    exact get?_put_self h
  elsewhere := by
    intro other hother
    exact .inl (get?_put_of_ne (by simpa using hother))

theorem writes_of_write (h : w.write path entry = .ok after) :
    ∃ place, w.resolve path = .ok place ∧ Writes w after [(place, entry)] := by
  unfold write at h
  obtain ⟨place, hplace, h⟩ := bind_eq_ok.1 h
  split_ifs at h with hdirectory
  cases h
  exact ⟨place, hplace, writes_put hdirectory⟩

theorem writes_put_directory (h : w.get? place = none) :
    Writes w (w.put place .directory) [] where
  home_eq := rfl
  keeps := fun other hother => by
    have hne : other ≠ place := by
      rintro rfl
      cases h.symm.trans hother
    rw [get?_put_of_ne hne, hother]
  holds := fun _ he => nomatch he
  elsewhere := by
    intro other _
    by_cases hsame : other = place
    · subst hsame
      have hput : (w.put other .directory).get? other = some .directory :=
        get?_put_self (by simp [h])
      exact .inr ⟨h, hput⟩
    · exact .inl (get?_put_of_ne hsame)

theorem writes_of_makeAlong (h : w.makeAlong place parts = (none, after)) :
    Writes w after [] ∧ ∃ reached, parts.foldlM after.enter place = .ok reached ∧
      after.get? reached = some .directory := by
  induction parts generalizing w place with
  | nil =>
    rw [makeAlong] at h
    obtain ⟨hdirectory, rfl⟩ := Prod.mk.inj h
    have hplace : w.get? place = some .directory := by
      by_contra hne
      rw [if_neg hne] at hdirectory
      cases hdirectory
    exact ⟨.refl w, place, rfl, hplace⟩
  | cons part parts ih =>
    rw [makeAlong] at h
    split at h
    · cases h
    · rename_i next henter
      -- Whether the next directory was made or there already, the ways through the tree stay.
      have hstep : ∃ mid, Writes w mid [] ∧ mid.makeAlong next parts = (none, after) := by
        split_ifs at h with hmake
        · exact ⟨_, writes_put_directory hmake.1, h⟩
        · exact ⟨w, .refl w, h⟩
      obtain ⟨mid, hmid, hrest⟩ := hstep
      obtain ⟨hafter, reached, hreached, hdirectory⟩ := ih hrest
      have hwrites : Writes w after [] := hmid.trans hafter fun _ he => nomatch he
      refine ⟨hwrites, reached, ?_, hdirectory⟩
      rw [List.foldlM_cons, bind_eq_ok]
      exact ⟨next, hwrites.enter_eq henter, hreached⟩

theorem writes_of_makeDirs (h : w.makeDirs path = (none, after)) :
    Writes w after [] ∧ ∃ dir, after.resolve path = .ok dir ∧
      after.get? dir = some .directory := by
  unfold makeDirs at h
  split_ifs at h with hlong
  · cases h
  · obtain ⟨hwrites, dir, hdir, hdirectory⟩ := writes_of_makeAlong h
    have hstart : after.start path = w.start path := by rw [start, start, hwrites.home_eq]
    refine ⟨hwrites, dir, ?_, hdirectory⟩
    rw [resolve, if_neg hlong, hstart, hdir]

/-- A directory in which some files have been written, each with a name of its own, and no other
file anywhere. -/
structure Fills (before after : Workspace) (dir : Path) (place : Place)
    (files : List (String × Entry)) : Prop where
  resolve_eq : after.resolve dir = .ok place
  isDirectory : after.get? place = some .directory
  isName : ∀ f ∈ files, Path.IsName f.1
  nodup : (files.map Prod.fst).Nodup
  read_eq : ∀ f ∈ files, after.read (dir.join f.1) = .ok f.2
  writes : Writes before after (files.map fun f => (place ++ [f.1], f.2))

variable {dir : Path} {files : List (String × Entry)}

theorem fills_of_makeDirs (h : w.makeDirs dir = (none, after)) :
    ∃ place, Fills w after dir place [] := by
  obtain ⟨hwrites, place, hplace, hdirectory⟩ := writes_of_makeDirs h
  exact ⟨place,
    { resolve_eq := hplace
      isDirectory := hdirectory
      isName := List.forall_mem_nil _
      nodup := List.nodup_nil
      read_eq := List.forall_mem_nil _
      writes := hwrites }⟩

theorem Fills.concat (h : Fills before mid dir place files) (hname : Path.IsName name)
    (hnew : name ∉ files.map Prod.fst) (hentry : entry ≠ .directory)
    (hwrite : mid.write (dir.join name) entry = .ok after) :
    Fills before after dir place (files ++ [(name, entry)]) := by
  obtain ⟨target, htarget, hwrites⟩ := writes_of_write hwrite
  obtain rfl := resolve_join h.resolve_eq hname htarget
  -- The new file has a name of its own and replaces none of those before it.
  have hother : ∀ f ∈ files, place ++ [f.1] ∉ [(place ++ [name], entry)].map Prod.fst := by
    intro f hf hsame
    obtain rfl : f.1 = name := by simpa using hsame
    exact hnew (List.mem_map_of_mem hf)
  have hread : ∀ f ∈ files, after.read (dir.join f.1) = .ok f.2 := by
    intro f hf
    obtain ⟨found, hfound, -, -⟩ := read_eq_ok.1 (h.read_eq f hf)
    obtain rfl := resolve_join h.resolve_eq (h.isName f hf) hfound
    exact hwrites.read_of_notMem (h.read_eq f hf) hfound (hother f hf)
  have hlast := hwrites.read_eq htarget (List.mem_singleton_self _) hentry
  have hwritten : Writes before after _ := h.writes.trans hwrites (List.forall_mem_map.2 hother)
  exact
    { resolve_eq := hwrites.resolve_eq h.resolve_eq
      isDirectory := hwrites.keeps place h.isDirectory
      isName := List.forall_mem_append.2 ⟨h.isName, List.forall_mem_singleton.2 hname⟩
      nodup := by
        rw [List.map_append, List.map_singleton, List.nodup_append]
        refine ⟨h.nodup, List.nodup_singleton _, fun other hmem last hlast => ?_⟩
        rintro rfl
        obtain rfl : other = name := List.mem_singleton.1 hlast
        exact hnew hmem
      read_eq := List.forall_mem_append.2 ⟨hread, List.forall_mem_singleton.2 hlast⟩
      writes := by simpa using hwritten }

end Quilt.Workspace
