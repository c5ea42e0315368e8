import Mathlib
import EmbeddedJsx.Files.Disk

/-!
# Writing one file

What stands on the way to a file that can be written is a directory already, so that a new file
brings no new directory with it.  The main statement is `Disk.onlyWrites_of_write`: after a file
has been written, the place to which its path leads holds it, and every other place is as it was.
Where a file cannot be written, `Disk.write_eq_error` says what is left behind: the same disk if the
file could not be opened, and else a file that has been cut short.
-/

namespace EmbeddedJsx

namespace FileTree

variable {t : FileTree} {names names' : List String} {name : String} {bytes : List UInt8}

/-- Names that lead to a place above the one to which the others lead. -/
def Above (names names' : List String) : Prop := names <+: names' ∧ names ≠ names'

lemma above_iff : Above names names' ↔ ∃ more, more ≠ [] ∧ names' = names ++ more := by
  constructor
  · rintro ⟨⟨more, rfl⟩, hne⟩
    exact ⟨more, by simpa using hne, rfl⟩
  · rintro ⟨more, hne, rfl⟩
    exact ⟨List.prefix_append _ _, by simpa using hne⟩

lemma Above.trans {names'' : List String} (h : Above names names') (h' : Above names' names'') :
    Above names names'' := by
  obtain ⟨more, hmore, rfl⟩ := above_iff.1 h
  obtain ⟨more', -, rfl⟩ := above_iff.1 h'
  exact above_iff.2 ⟨more ++ more', by simp [hmore], by rw [List.append_assoc]⟩

/-- Above a place stands the directory that it is in, and what is above that. -/
lemma Above.prefix_of_concat (h : Above names (names' ++ [name])) : names <+: names' :=
  (List.prefix_concat_iff.1 h.1).resolve_left h.2

lemma leads_iff : t.leads names = true ↔ ∃ e ∈ t.entries, Above names e.1 := by
  simp [leads, Above]

/-- Only a directory has something below it. -/
lemma find?_of_above (habove : Above names names') (h : t.find? names' ≠ none) :
    t.find? names = some .directory := by
  have hleads : t.leads names = true := by
    rw [leads_iff]
    unfold find? at h
    split at h
    · next hdirectory =>
      rcases hdirectory with rfl | hleads
      · exact absurd (List.prefix_nil.1 habove.1) habove.2
      · obtain ⟨e, he, habove'⟩ := leads_iff.1 hleads
        exact ⟨e, he, habove.trans habove'⟩
    · obtain ⟨e, he, heq⟩ := List.lookup_isSome_iff.1 (Option.isSome_iff_ne_none.2 h)
      exact ⟨e, he, by rwa [← beq_iff_eq.1 heq]⟩
  simp [find?, hleads]

lemma lookup_filter_ne {entries : List (List String × Entry)} (hne : names ≠ names') :
    (entries.filter (·.1 != names')).lookup names = entries.lookup names := by
  induction entries with
  | nil => rfl
  | cons e entries ih =>
    obtain ⟨key, entry⟩ := e
    by_cases hkey : key = names'
    · simp [hkey, List.lookup_cons, ih, beq_eq_false_iff_ne.2 hne]
    · simp [hkey, List.lookup_cons, ih]

/-- The names under which a file has been put stand for it, unless they stood for a directory. -/
lemma find?_put_self (h : t.find? names ≠ some .directory) :
    (t.put names bytes).find? names = some (.file bytes) := by
  have hdirectory : ¬ (names = [] ∨ t.leads names = true) := fun hdirectory => h (if_pos hdirectory)
  have hdirectory' : ¬ (names = [] ∨ (t.put names bytes).leads names = true) := by
    rw [leads_iff] at hdirectory ⊢
    rintro (hnil | ⟨e, he, habove⟩)
    · exact hdirectory (.inl hnil)
    · rcases List.mem_cons.1 he with rfl | he
      · exact habove.2 rfl
      · exact hdirectory (.inr ⟨e, (List.mem_filter.1 he).1, habove⟩)
  rw [find?, if_neg hdirectory']
  simp [put]

/-- Where directories lead to a file that is put somewhere, nothing changes under other names. -/
lemma find?_put_of_ne (hne : names' ≠ names)
    (hway : Above names' names → t.find? names' = some .directory) :
    (t.put names bytes).find? names' = t.find? names' := by
  by_cases habove : Above names' names
  · have hleads : (t.put names bytes).leads names' = true :=
      leads_iff.2 ⟨_, List.mem_cons_self, habove⟩
    rw [hway habove]
    simp [find?, hleads]
  · -- neither the new entry nor those in the place of which it is put are below these names
    have hleads : (t.put names bytes).leads names' = t.leads names' := by
      rw [Bool.eq_iff_iff, leads_iff, leads_iff]
      constructor
      · rintro ⟨e, he, hbelow⟩
        rcases List.mem_cons.1 he with rfl | he
        · exact absurd hbelow habove
        · exact ⟨e, (List.mem_filter.1 he).1, hbelow⟩
      · rintro ⟨e, he, hbelow⟩
        refine ⟨e, List.mem_cons_of_mem _ (List.mem_filter.2 ⟨he, ?_⟩), hbelow⟩
        rw [bne_iff_ne]
        rintro rfl
        exact habove hbelow
    have hlookup : (t.put names bytes).entries.lookup names' = t.entries.lookup names' := by
      simp [put, List.lookup_cons, beq_eq_false_iff_ne.2 hne, lookup_filter_ne hne]
    rw [find?, hleads, hlookup, find?]

end FileTree

namespace Disk

open FileTree (Above above_iff)

variable {d d' : Disk} {place place' : Place} {names : List String} {path : Path}
  {bytes : List UInt8}

/-! ### Places -/

lemma at?_home_append (d : Disk) (names : List String) :
    d.at? (d.home ++ names) = d.files.find? names := by
  simp [at?]

lemma at?_of_prefix_home (d : Disk) (h : place <+: d.home) : d.at? place = some .directory := by
  by_cases hhome : d.home <+: place
  · obtain rfl := h.eq_of_length_le hhome.length_le
    simpa [FileTree.find?] using d.at?_home_append []
  · simp [at?, h, hhome]

lemma at?_elsewhere (d : Disk) (h : ¬ d.home <+: place) (h' : ¬ place <+: d.home) :
    d.at? place = d.elsewhere.find? place := by
  simp [at?, h, h']

/-- Only a directory has something below it. -/
lemma at?_of_above (habove : Above place place') (h : d.at? place' ≠ none) :
    d.at? place = some .directory := by
  by_cases hroot : place <+: d.home
  · exact d.at?_of_prefix_home hroot
  by_cases hhome : d.home <+: place
  · obtain ⟨names, rfl⟩ := hhome
    obtain ⟨more, hmore, rfl⟩ := above_iff.1 habove
    rw [List.append_assoc, at?_home_append] at h
    rw [at?_home_append]
    exact FileTree.find?_of_above (above_iff.2 ⟨more, hmore, rfl⟩) h
  · -- a place apart from the current directory has only such places below it
    have hhome' : ¬ d.home <+: place' := fun hhome' =>
      (List.prefix_or_prefix_of_prefix hhome' habove.1).elim hhome hroot
    have hroot' : ¬ place' <+: d.home := fun hroot' => hroot (habove.1.trans hroot')
    rw [d.at?_elsewhere hhome' hroot'] at h
    rw [d.at?_elsewhere hhome hroot]
    exact FileTree.find?_of_above habove h

lemma at?_put_self (h : d.at? place ≠ some .directory) :
    (d.put place bytes).at? place = some (.file bytes) := by
  by_cases hhome : d.home <+: place
  · obtain ⟨names, rfl⟩ := hhome
    rw [at?_home_append] at h
    have hput : d.put (d.home ++ names) bytes = { d with files := d.files.put names bytes } := by
      simp [put]
    rw [hput, at?_home_append { d with files := d.files.put names bytes }]
    exact FileTree.find?_put_self h
  · have hroot : ¬ place <+: d.home := fun hroot => h (d.at?_of_prefix_home hroot)
    have hput : d.put place bytes = { d with elsewhere := d.elsewhere.put place bytes } := by
      simp [put, hhome]
    rw [d.at?_elsewhere hhome hroot] at h
    rw [hput, at?_elsewhere { d with elsewhere := d.elsewhere.put place bytes } hhome hroot]
    exact FileTree.find?_put_self h

/-- Where directories lead to a file that is put somewhere, nothing changes at other places. -/
lemma at?_put_of_ne (hne : place' ≠ place)
    (hway : Above place' place → d.at? place' = some .directory) :
    (d.put place bytes).at? place' = d.at? place' := by
  by_cases hhome : d.home <+: place
  · obtain ⟨names, rfl⟩ := hhome
    have hput : d.put (d.home ++ names) bytes = { d with files := d.files.put names bytes } := by
      simp [put]
    rw [hput]
    by_cases hhome' : d.home <+: place'
    · obtain ⟨names', rfl⟩ := hhome'
      rw [at?_home_append { d with files := d.files.put names bytes }, at?_home_append]
      refine FileTree.find?_put_of_ne (by simpa using hne) fun habove => ?_
      obtain ⟨more, hmore, rfl⟩ := above_iff.1 habove
      rw [← at?_home_append]
      exact hway (above_iff.2 ⟨more, hmore, by rw [List.append_assoc]⟩)
    · simp [at?, hhome']
  · have hput : d.put place bytes = { d with elsewhere := d.elsewhere.put place bytes } := by
      simp [put, hhome]
    rw [hput]
    by_cases hhome' : d.home <+: place'
    · simp [at?, hhome']
    by_cases hroot' : place' <+: d.home
    · rw [d.at?_of_prefix_home hroot']
      exact at?_of_prefix_home { d with elsewhere := d.elsewhere.put place bytes } hroot'
    · rw [d.at?_elsewhere hhome' hroot',
        at?_elsewhere { d with elsewhere := d.elsewhere.put place bytes } hhome' hroot']
      refine FileTree.find?_put_of_ne hne fun habove => ?_
      rw [← d.at?_elsewhere hhome' hroot']
      exact hway habove

/-! ### Paths -/

/-- A path that leads on from where it begins leads out of a directory. -/
lemma exists_directory_of_walk (h : d.walk place names = .ok place') :
    place' = place ∨
      ∃ parent name, d.at? parent = some .directory ∧ place' = parent.enter name := by
  induction names generalizing place with
  | nil => exact .inl (Except.ok.inj h).symm
  | cons name names ih =>
    rw [walk] at h
    split at h
    · contradiction
    · contradiction
    · next hdirectory =>
      split at h
      · contradiction
      split at h
      · contradiction
      rcases ih h with rfl | hlater
      · exact .inr ⟨place, name, hdirectory, rfl⟩
      · exact .inr hlater

/-- What a path leads to and is no directory stands in one. -/
lemma exists_parent_of_locate (h : d.locate path = .ok place)
    (hplace : d.at? place ≠ some .directory) :
    ∃ parent name, d.at? parent = some .directory ∧ place = parent ++ [name] := by
  have hwalk : d.walk (d.origin path.anchor) path.names = .ok place := by
    unfold locate at h
    split at h
    · contradiction
    split at h
    · contradiction
    · cases hwalk : d.walk (d.origin path.anchor) path.names with
      | error reason => rw [hwalk] at h; contradiction
      | ok place' => rw [hwalk] at h; exact congrArg _ (Except.ok.inj h)
  rcases exists_directory_of_walk hwalk with rfl | ⟨parent, name, hparent, rfl⟩
  · -- a path begins at a directory
    refine absurd (d.at?_of_prefix_home ?_) hplace
    cases path.anchor with
    | here => exact List.prefix_rfl
    | root | doubleRoot => exact List.nil_prefix
  · unfold Place.enter at hplace ⊢
    split at hplace
    · -- so is what a directory is in
      refine absurd ?_ hplace
      rcases List.eq_nil_or_concat parent with rfl | ⟨front, last, rfl⟩
      · exact hparent
      · rw [List.concat_eq_append] at hparent ⊢
        rw [List.dropLast_concat]
        exact at?_of_above (above_iff.2 ⟨[last], by simp, rfl⟩) (by simp [hparent])
    · next hname => exact ⟨parent, name, hparent, if_neg hname⟩

/-- The second disk is the first one after nothing but a file has been written. -/
def OnlyWrites (d : Disk) (path : Path) (bytes : List UInt8) (d' : Disk) : Prop :=
  ∃ place, d.locate path = .ok place ∧ d'.at? place = some (.file bytes) ∧
    (∀ other, other ≠ place → d'.at? other = d.at? other) ∧
    d'.home = d.home ∧ d'.refusals = d.refusals

lemma onlyWrites_put (h : d.locate path = .ok place) (hplace : d.at? place ≠ some .directory) :
    d.OnlyWrites path bytes (d.put place bytes) := by
  obtain ⟨parent, name, hparent, rfl⟩ := exists_parent_of_locate h hplace
  have hway (other : Place) (habove : Above other (parent ++ [name])) :
      d.at? other = some .directory := by
    by_cases heq : other = parent
    · rw [heq, hparent]
    · exact at?_of_above ⟨habove.prefix_of_concat, heq⟩ (by simp [hparent])
  refine ⟨_, h, at?_put_self hplace, fun other hne => at?_put_of_ne hne (hway other), ?_⟩
  unfold put
  split <;> exact ⟨rfl, rfl⟩

/-! ### Opening and filling -/

/-- A file that is opened is at the place to which its path leads, and it holds nothing. -/
lemma create_eq_ok (h : d.create path = .ok (place, d')) :
    d.locate path = .ok place ∧ d.at? place ≠ some .directory ∧ d' = d.put place [] := by
  unfold create at h
  cases hlocate : d.locate path with
  | error fault => rw [hlocate] at h; contradiction
  | ok place' =>
    rw [hlocate] at h
    simp only [bind, Except.bind] at h
    split at h
    · contradiction
    all_goals
      next hplace =>
      split at h
      · contradiction
      · obtain ⟨rfl, rfl⟩ := Prod.mk.inj (Except.ok.inj h)
        exact ⟨rfl, by simp [hplace], rfl⟩

lemma room_put (d : Disk) (place : Place) (bytes : List UInt8) :
    (d.put place bytes).room = d.room := by
  unfold put
  split <;> rfl

/-- What is put at a place takes the place of what was put there before. -/
lemma put_put (d : Disk) (place : Place) (bytes bytes' : List UInt8) :
    (d.put place bytes).put place bytes' = d.put place bytes' := by
  by_cases hhome : d.home <+: place
  · simp [put, hhome, FileTree.put]
  · simp [put, hhome, FileTree.put]

lemma write_of_create_eq_error {fault : FileFault} (h : d.create path = .error fault) :
    d.write path bytes = (.error fault, d) := by
  rw [write, h]

lemma write_of_create_eq_ok (h : d.create path = .ok (place, d')) :
    d.write path bytes =
      (if bytes.length ≤ d.room then .ok () else .error ⟨.noRoom, path⟩,
        d.put place (bytes.take d.room)) := by
  obtain ⟨-, -, rfl⟩ := create_eq_ok h
  rw [write, h]
  simp only [fill, room_put, put_put]

/-- **Writing.**  What is written is one file, at the place to which its path leads. -/
lemma onlyWrites_of_write (h : (d.write path bytes).1 = .ok ()) :
    d.OnlyWrites path bytes (d.write path bytes).2 := by
  cases hcreate : d.create path with
  | error fault =>
    rw [write_of_create_eq_error hcreate] at h
    contradiction
  | ok opened =>
    obtain ⟨place, d'⟩ := opened
    obtain ⟨hlocate, hplace, -⟩ := create_eq_ok hcreate
    rw [write_of_create_eq_ok hcreate] at h ⊢
    by_cases hroom : bytes.length ≤ d.room
    · rw [List.take_of_length_le hroom]
      exact onlyWrites_put hlocate hplace
    · simp [hroom] at h

/-- Where a file cannot be written, it has not been opened, and the disk is as it was; or it has
been opened, there is no room for all bytes, and it holds those for which there is room. -/
lemma write_eq_error {fault : FileFault} (h : (d.write path bytes).1 = .error fault) :
    (d.create path = .error fault ∧ (d.write path bytes).2 = d) ∨
      (d.room < bytes.length ∧ fault = ⟨.noRoom, path⟩ ∧
        d.OnlyWrites path (bytes.take d.room) (d.write path bytes).2) := by
  cases hcreate : d.create path with
  | error fault' =>
    rw [write_of_create_eq_error hcreate] at h ⊢
    obtain rfl : fault' = fault := Except.error.inj h
    exact .inl ⟨rfl, rfl⟩
  | ok opened =>
    obtain ⟨place, d'⟩ := opened
    obtain ⟨hlocate, hplace, -⟩ := create_eq_ok hcreate
    rw [write_of_create_eq_ok hcreate] at h ⊢
    by_cases hroom : bytes.length ≤ d.room
    · simp [hroom] at h
    · refine .inr ⟨Nat.lt_of_not_le hroom, ?_, onlyWrites_put hlocate hplace⟩
      simpa [hroom, eq_comm] using h

end Disk

end EmbeddedJsx
