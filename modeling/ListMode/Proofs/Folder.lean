import ListMode.Folder
import ListMode.Proofs.Outcome
import Mathlib.Data.List.Basic

/-!
# Files in folders

A file that was written is read back under the same path (`Folder.read_write`).  A
path is followed through folders, and writing puts a file where no folder lies, so
it is still followed to the same place afterwards (`Folder.locateFrom_put`).

The null device does not keep what is written to it.  It lies in one place
(`Folder.Regular`), and a file that is named with a dot is never written there
(`Folder.getLast?_within_ne_null`).
-/

namespace ListMode.Folder

/-! ## What lies where -/

theorem lookup_filter_ne {p q : Place} (h : q ≠ p) (entries : List (Place × FolderEntry)) :
    (entries.filter (·.1 != p)).lookup q = entries.lookup q := by
  induction entries with
  | nil => rfl
  | cons e entries ih =>
      obtain ⟨r, lies⟩ := e
      by_cases hr : r = p
      · have hqr : (q == r) = false := beq_eq_false_iff_ne.2 (hr ▸ h)
        rw [List.filter_cons_of_neg (by simp [hr]), ih, List.lookup_cons, hqr]
      · rw [List.filter_cons_of_pos (by simp [hr]), List.lookup_cons, List.lookup_cons, ih]

variable {f f' : Folder} {place : Place}

/-- Putting something at a place leaves all other places as they are. -/
theorem find?_put_of_ne {q : Place} (h : q ≠ place) (lies : FolderEntry) :
    (f.put place lies).find? q = f.find? q := by
  have hlookup : (f.put place lies).entries.lookup q = f.entries.lookup q := by
    rw [put, List.lookup_cons, beq_eq_false_iff_ne.2 h]
    exact lookup_filter_ne h f.entries
  rw [find?, find?, hlookup]

/-- What is put where neither a folder nor the null device lies is there afterwards. -/
theorem find?_put_self (lies : FolderEntry) (apart : f.find? place ≠ some .folder)
    (kept : f.find? place ≠ some .nullDevice) : (f.put place lies).find? place = some lies := by
  have hfolder : ¬ (isAncestor place ∨ place = nullPlace.dropLast) :=
    fun h => apart (if_pos h)
  have hnull : place ≠ nullPlace := fun h => kept (by rw [find?, if_neg hfolder, if_pos h])
  rw [find?, if_neg hfolder, if_neg hnull, put, List.lookup_cons, beq_self_eq_true]

theorem enter_eq_ok_iff : f.enter place = .ok () ↔ f.find? place = some .folder := by
  unfold enter
  split
  · next h => simp [h]
  · next lies hlies h => simpa [h] using hlies
  · next h => simp [h]

/-! ## Following paths -/

/-- A step along a path, from a folder that is there. -/
theorem locateFrom_cons_eq_ok_iff {name : String} {rest : FolderPath} {start stop : Place} :
    f.locateFrom start (name :: rest) = .ok stop ↔
      f.enter start = .ok () ∧
        ∃ next, follow start name = .ok next ∧ f.locateFrom next rest = .ok stop := by
  rw [locateFrom]
  constructor
  · intro h
    obtain ⟨_, henter, h⟩ := exists_of_bind_eq_ok h
    obtain ⟨next, hnext, h⟩ := exists_of_bind_eq_ok h
    exact ⟨henter, next, hnext, h⟩
  · rintro ⟨henter, next, hnext, h⟩
    rw [henter, hnext]
    exact h

/-- A path leads where it did when something is put where no folder lies. -/
theorem locateFrom_put {lies : FolderEntry} (apart : f.find? place ≠ some .folder)
    {p : FolderPath} : ∀ {start stop : Place}, f.locateFrom start p = .ok stop →
      (f.put place lies).locateFrom start p = .ok stop := by
  induction p with
  | nil => exact fun h => h
  | cons name rest ih =>
      intro start stop h
      obtain ⟨henter, next, hnext, h⟩ := locateFrom_cons_eq_ok_iff.1 h
      have hfolder := enter_eq_ok_iff.1 henter
      have hother : start ≠ place := fun hsame => apart (hsame ▸ hfolder)
      refine locateFrom_cons_eq_ok_iff.2 ⟨?_, next, hnext, ih h⟩
      exact enter_eq_ok_iff.2 ((find?_put_of_ne hother lies).trans hfolder)

/-- A path is followed to its last name from the folder that the names before it lead to. -/
theorem locateFrom_concat {p : FolderPath} {name : String} {stop : Place} :
    ∀ {start dir : Place}, f.locateFrom start p = .ok dir → f.enter dir = .ok () →
      follow dir name = .ok stop → f.locateFrom start (p ++ [name]) = .ok stop := by
  induction p with
  | nil =>
      intro start dir hdir henter hfollow
      cases hdir
      exact locateFrom_cons_eq_ok_iff.2 ⟨henter, stop, hfollow, rfl⟩
  | cons first rest ih =>
      intro start dir hdir henter hfollow
      obtain ⟨hfirst, next, hnext, hdir⟩ := locateFrom_cons_eq_ok_iff.1 hdir
      exact locateFrom_cons_eq_ok_iff.2 ⟨hfirst, next, hnext, ih hdir henter hfollow⟩

/-! ## Writing -/

/-- The null device lies in its own place only. -/
def Regular (f : Folder) : Prop := ∀ e ∈ f.entries, e.2 ≠ .nullDevice

theorem Regular.eq_nullPlace (hf : f.Regular) (h : f.find? place = some .nullDevice) :
    place = nullPlace := by
  rw [find?] at h
  split at h
  · cases h
  · split at h
    · next hnull => exact hnull
    · obtain ⟨_, _, hentries, -⟩ := List.lookup_eq_some_iff.1 h
      exact absurd rfl (hf (place, .nullDevice) (by rw [hentries]; simp))

theorem not_isStill_iff {name : String} : ¬ isStill name = true ↔ name ≠ "" ∧ name ≠ "." := by
  simp [isStill]

/-- A path that a file is written under ends in the file's name. -/
theorem eq_concat_of_names {p : FolderPath} {names : List String}
    (hnames : p.reverse.dropWhile (· = "") = names)
    (h : ¬ (names.headD "" = ".." ∨ isStill (names.headD "") = true ∨ names.length < p.length)) :
    p = names.tail.reverse ++ [names.headD ""] := by
  simp only [not_or, not_isStill_iff, Nat.not_lt] at h
  obtain ⟨-, ⟨hempty, -⟩, hlength⟩ := h
  have hwhole : names = p.reverse := by
    rw [← hnames] at hlength ⊢
    exact (List.dropWhile_suffix _).eq_of_length_le (by rwa [List.length_reverse])
  cases names with
  | nil => exact absurd rfl hempty
  | cons name rest =>
      have hp : p = (name :: rest).reverse := by rw [hwhole, List.reverse_reverse]
      rw [hp, List.reverse_cons]
      rfl

/-- A file is written at the place that its path leads to, where no folder lies; only a device
stays as it is. -/
theorem write_eq_ok {p : FolderPath} {contents : ByteArray} (h : f.write p contents = .ok f') :
    ∃ dir name, p.getLast? = some name ∧ f.locate p = .ok (dir ++ [name]) ∧
      f.find? (dir ++ [name]) ≠ some .folder ∧
      (f.find? (dir ++ [name]) = some .nullDevice ∨
        f.find? (dir ++ [name]) ≠ some .nullDevice ∧
          f' = f.put (dir ++ [name]) (.file contents)) := by
  unfold write at h
  split at h
  · cases h
  · next husable =>
    generalize hnames : p.reverse.dropWhile (· = "") = names at h
    obtain ⟨dir, hdir, h⟩ := exists_of_bind_eq_ok h
    obtain ⟨_, henter, h⟩ := exists_of_bind_eq_ok h
    dsimp only at h
    split at h
    · cases h
    · next hname =>
      obtain ⟨place, hfollow, h⟩ := exists_of_bind_eq_ok h
      have hp := eq_concat_of_names hnames hname
      obtain ⟨hback, hstill, -⟩ := not_or.1 hname |>.imp id not_or.1
      have hplace : place = dir ++ [names.headD ""] := by
        rw [follow, if_neg hstill, if_neg hback] at hfollow
        split at hfollow
        · exact (Except.ok.inj hfollow).symm
        · cases hfollow
      have hlocate : f.locate p = .ok place := by
        rw [locate, husable, hp]
        exact locateFrom_concat hdir henter hfollow
      refine ⟨dir, names.headD "", by rw [hp, List.getLast?_concat], hplace ▸ hlocate, ?_⟩
      rw [← hplace]
      cases hlies : f.find? place with
      | none =>
          rw [hlies] at h
          exact ⟨nofun, .inr ⟨nofun, (Except.ok.inj h).symm⟩⟩
      | some lies =>
          rw [hlies] at h
          cases lies with
          | file _ => exact ⟨nofun, .inr ⟨nofun, (Except.ok.inj h).symm⟩⟩
          | folder => cases h
          | nullDevice => exact ⟨nofun, .inl rfl⟩

/-- A file that was written is read back, unless it is the null device. -/
theorem read_write {p : FolderPath} {contents : ByteArray} (hf : f.Regular)
    (h : f.write p contents = .ok f') (named : p.getLast? ≠ some "null") :
    f'.read p = .ok contents := by
  obtain ⟨dir, name, hname, hlocate, apart, hdevice | ⟨kept, rfl⟩⟩ := write_eq_ok h
  · obtain rfl : name = "null" := by
      have hlast := congrArg List.getLast? (hf.eq_nullPlace hdevice)
      rw [List.getLast?_concat] at hlast
      exact Option.some.inj hlast
    exact absurd hname named
  · have hlocate' : (f.put (dir ++ [name]) (.file contents)).locate p = .ok (dir ++ [name]) := by
      rw [locate] at hlocate ⊢
      split at hlocate
      · cases hlocate
      · exact locateFrom_put apart hlocate
    simp only [read, hlocate', bind, Except.bind, find?_put_self _ apart kept]

/-! ## Names -/

/-- What holds no separator is a part of the last piece. -/
theorem splitOn_append {α : Type} [BEq α] [LawfulBEq α] {sep : α} {suffix : List α}
    (h : sep ∉ suffix) (front : List α) :
    ∃ pieces piece, (front ++ suffix).splitOn sep = pieces ++ [piece ++ suffix] := by
  induction front with
  | nil => exact ⟨[], [], List.splitOn_eq_singleton h⟩
  | cons a front ih =>
      obtain ⟨pieces, piece, hsplit⟩ := ih
      rw [List.cons_append, List.splitOn_cons_eq_if_modifyHead, hsplit]
      split
      · exact ⟨[] :: pieces, piece, rfl⟩
      · cases pieces with
        | nil => exact ⟨[], a :: piece, rfl⟩
        | cons first pieces => exact ⟨(a :: first) :: pieces, piece, rfl⟩

/-- A path within a folder ends where its text does. -/
theorem getLast?_within (dir : FolderPath) (text : String) :
    (within dir text).getLast? = some "/" ∨
      (within dir text).getLast? = ((text.toList.splitOn '/').map String.ofList).getLast? := by
  have hne : (text.toList.splitOn '/').map String.ofList ≠ [] :=
    List.map_eq_nil_iff.not.2 (List.splitOn_ne_nil _ _)
  generalize hnames : (text.toList.splitOn '/').map String.ofList = names at hne
  unfold within
  dsimp only
  rw [hnames]
  split
  · cases names with
    | nil => exact absurd rfl hne
    | cons name rest =>
        cases rest with
        | nil => exact .inl rfl
        | cons next rest => exact .inr (by simp)
  · split
    · exact .inr (List.getLast?_append_of_ne_nil _ hne)
    · exact .inr (List.getLast?_append_of_ne_nil _ hne)

/-- A file with an extension is not named like the null device. -/
theorem getLast?_within_ne_null (dir : FolderPath) (name : String) {extension : String}
    (h : '/' ∉ extension.toList) :
    (within dir (name ++ "." ++ extension)).getLast? ≠ some "null" := by
  have hsuffix : '/' ∉ '.' :: extension.toList := by simpa using h
  obtain ⟨pieces, piece, hsplit⟩ := splitOn_append hsuffix name.toList
  have htext : (name ++ "." ++ extension).toList = name.toList ++ '.' :: extension.toList := by
    simp
  intro hnull
  rcases getLast?_within dir (name ++ "." ++ extension) with hroot | hlast
  · rw [hroot] at hnull
    exact absurd (Option.some.inj hnull) (by decide)
  · rw [hlast, htext, hsplit, List.map_append, List.map_singleton, List.getLast?_concat] at hnull
    have hchars := congrArg String.toList (Option.some.inj hnull)
    rw [String.toList_ofList] at hchars
    have hdot : '.' ∈ "null".toList := by rw [← hchars]; simp
    revert hdot
    decide

end ListMode.Folder
