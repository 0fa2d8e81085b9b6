import LayerCache.Proofs.Folders
import LayerCache.Proofs.Ownership

/-! Files are told apart by their serial numbers. An archive that stays open is read from the file it
was opened on, so as long as that file is left alone it always reads the same. -/
namespace LayerCache

namespace Zip

/-- Once a member was read its data is found where it was found then. -/
theorem Member.read_again (m : Member) (b : ByteArray) : ((m.read b).2.read b).1 = (m.read b).1 := by
  by_cases locked : m.locked = true
  · simp [Member.read, locked]
  · cases start : m.start with
    | some place => simp [Member.read, locked, Member.located, start]
    | none =>
      cases found : dataStart b m.header with
      | error fault => simp [Member.read, locked, Member.located, start, found]
      | ok place => simp [Member.read, locked, Member.located, start, found, Member.contentAt]

theorem find?_insertMember {m old : Member} {members : List Member} {name : String}
    (found : members.find? (fun other => other.name == m.name) = some old) :
    (insertMember m members).find? (fun other => other.name == name) =
      if m.name = name then some m else members.find? fun other => other.name == name := by
  induction members with
  | nil => cases found
  | cons other rest ih =>
    by_cases here : other.name = m.name
    · by_cases same : m.name = name <;> simp [insertMember, here, same]
    · have later : rest.find? (fun other => other.name == m.name) = some old := by
        simpa [List.find?_cons, here] using found
      by_cases same : other.name = name
      · subst same
        simp [insertMember, here, Ne.symm here]
      · simp [insertMember, here, same, ih later]

/-- Reading one member changes nothing for another read, of the same one or of another. -/
theorem Directory.read_again (dir : Directory) (b : ByteArray) (name other : String) :
    ((dir.read b name).2.read b other).1 = (dir.read b other).1 := by
  cases found : dir.members.find? fun m => m.name == name with
  | none => simp [Directory.read, found]
  | some m =>
    have named : m.name = name := by simpa using List.find?_some found
    have kept : (m.read b).2.name = name := (name_read m b).trans named
    have inserted := @find?_insertMember (m.read b).2 m dir.members other (by rw [kept]; exact found)
    have after : (dir.read b name).2 = ⟨insertMember (m.read b).2 dir.members⟩ := by
      simp [Directory.read, found]
    rw [after]
    by_cases same : name = other
    · subst same
      simp [Directory.read, inserted, kept, found, m.read_again b]
    · rcases asked : dir.members.find? fun m => m.name == other with _ | m'
      · simp [Directory.read, inserted, kept, same, asked]
      · simp [Directory.read, inserted, kept, same, asked]

end Zip

namespace Disk

variable {d d' : Disk} {p : Path} {place folder : Place} {name : String} {content : ByteArray}

/-- No two files have one serial number, and new files get new ones. -/
structure Numbered (d : Disk) : Prop where
  older : ∀ place serial content, d.entryAt place = some (.file serial content) → serial < d.fresh
  distinct : ∀ a b serial first second, d.entryAt a = some (.file serial first) →
    d.entryAt b = some (.file serial second) → a = b
  unrooted : ∀ pair ∈ d.entries.pairs, pair.1 ≠ []

namespace Numbered

/-- Files may go or be written over. -/
theorem congr (numbered : d.Numbered) (fresh : d.fresh ≤ d'.fresh)
    (files : ∀ place serial content, d'.entryAt place = some (.file serial content) →
      ∃ old, d.entryAt place = some (.file serial old))
    (unrooted : ∀ pair ∈ d'.entries.pairs, pair.1 ≠ []) : d'.Numbered where
  older place serial content there := by
    obtain ⟨old, was⟩ := files place serial content there
    exact (numbered.older place serial old was).trans_le fresh
  distinct a b serial first second one two := by
    obtain ⟨_, was⟩ := files a serial first one
    obtain ⟨_, also⟩ := files b serial second two
    exact numbered.distinct a b serial _ _ was also
  unrooted := unrooted

theorem unrooted_set (numbered : d.Numbered) (filled : place ≠ []) (entry : Entry) :
    ∀ pair ∈ (d.set place entry).entries.pairs, pair.1 ≠ [] := by
  intro pair member
  rcases Dict.mem_insertIn member with rfl | old
  · exact filled
  · exact numbered.unrooted pair old

theorem addFolder (numbered : d.Numbered) (filled : place ≠ []) : (d.addFolder place).Numbered := by
  have entries : (d.addFolder place).entries = (d.set place .folder).entries := entries_noteMode ..
  refine numbered.congr (by simp [Disk.addFolder, noteMode]; split <;> rfl) ?_
    (entries ▸ numbered.unrooted_set filled _)
  intro other serial content there
  have entry : (d.addFolder place).entryAt other = (d.set place .folder).entryAt other := by
    rw [entryAt, entryAt, entries]
  rw [entry, entryAt_set d filled] at there
  split at there
  · cases there
  · exact ⟨content, there⟩

theorem addFile (numbered : d.Numbered) (filled : place ≠ []) (content : ByteArray) :
    (d.addFile place content).Numbered := by
  have fresh : (d.addFile place content).fresh = d.fresh + 1 := rfl
  have entries : (d.addFile place content).entries =
      (d.set place (.file d.fresh content)).entries := entries_noteMode ..
  have entry : ∀ other, (d.addFile place content).entryAt other =
      if other = place then some (.file d.fresh content) else d.entryAt other := by
    intro other
    rw [← entryAt_set d filled, entryAt, entryAt, entries]
  refine ⟨fun other serial text there => ?_, fun a b serial first second one two => ?_,
    entries ▸ numbered.unrooted_set filled _⟩
  · rw [entry] at there
    rw [fresh]
    split at there
    · cases there
      omega
    · have := numbered.older other serial text there
      omega
  · -- the new file has a number that no older one has
    rw [entry] at one two
    split at one <;> split at two
    · rename_i here also
      exact here.trans also.symm
    · cases one
      exact absurd (numbered.older b _ second two) (lt_irrefl _)
    · cases two
      exact absurd (numbered.older a _ first one) (lt_irrefl _)
    · exact numbered.distinct a b serial first second one two

theorem drop (numbered : d.Numbered) (place : Place) : (d.drop place).Numbered := by
  refine numbered.congr le_rfl (fun other serial content there => ⟨content, ?_⟩) ?_
  · rcases other.eq_nil_or_concat with rfl | ⟨front, last, rfl⟩
    · simp at there
    · rw [List.concat_eq_append] at there ⊢
      by_cases same : place = front ++ [last]
      · rw [same, entryAt_drop_self d (by simp)] at there
        cases there
      · rwa [entryAt_drop_of_ne d same] at there
  · intro pair member
    exact numbered.unrooted pair (List.mem_of_mem_filter member)

theorem makeFolder (numbered : d.Numbered) (made : d.makeFolder p = .ok d') : d'.Numbered := by
  unfold Disk.makeFolder at made
  split at made
  · cases made
  · cases made
    exact numbered.addFolder (by simp)
  · cases made

theorem makeFoldersOf (numbered : d.Numbered) (ups : List Path) :
    (d.makeFoldersOf ups).2.Numbered := by
  induction ups generalizing d with
  | nil => exact numbered
  | cons p rest ih =>
    unfold Disk.makeFoldersOf
    split
    · exact numbered
    · split
      · rename_i made
        exact numbered.makeFolder made
      · have above := ih numbered
        split
        · rename_i made
          rw [made] at above
          exact above
        · rename_i made
          rw [made] at above
          split
          · rename_i done
            exact above.makeFolder done
          · exact above
      · exact numbered

theorem makeFolders (numbered : d.Numbered) (p : Path) : (d.makeFolders p).2.Numbered :=
  numbered.makeFoldersOf _

theorem write (numbered : d.Numbered) (sound : d.Sound) (written : d.write p content = .ok d') :
    d'.Numbered := by
  unfold Disk.write at written
  split at written
  · rename_i place serial old found
    have there : d.entryAt place = some (.file serial old) := find_fits sound found
    have filled : place ≠ [] := by
      rintro rfl
      simp at there
    cases written
    refine numbered.congr le_rfl (fun other other' text entry => ?_)
      (numbered.unrooted_set filled _)
    rw [entryAt_set d filled] at entry
    split at entry
    · rename_i here
      cases entry
      exact ⟨old, here ▸ there⟩
    · exact ⟨text, entry⟩
  · split at written
    · cases written
    · cases written
      exact numbered
  · cases written
  · cases written
  · cases written
    exact numbered.addFile (by simp) content
  · cases written

theorem remove (numbered : d.Numbered) (removed : d.remove p = .ok d') : d'.Numbered := by
  unfold Disk.remove at removed
  split at removed
  · cases removed
  · rename_i place entry _ found
    split at removed
    · cases removed
    · cases removed
      exact numbered.drop place
  · cases removed
  · cases removed

theorem provide (numbered : d.Numbered) (sound : d.Sound) (p : Path) (content : ByteArray) :
    (d.provide p content).Numbered := by
  have above : (p.parent.elim d fun folder => (d.makeFolders folder).2).Numbered ∧
      (p.parent.elim d fun folder => (d.makeFolders folder).2).Sound := by
    cases p.parent with
    | none => exact ⟨numbered, sound⟩
    | some folder => exact ⟨numbered.makeFolders folder, (changes_makeFolders sound folder).sound⟩
  simp only [Disk.provide]
  rcases written : (p.parent.elim d fun folder => (d.makeFolders folder).2).write p content with
    fault | d'
  · exact above.1
  · exact above.1.write above.2 written

theorem empty : Disk.empty.Numbered := by
  have none : ∀ place serial content, Disk.empty.entryAt place ≠ some (.file serial content) := by
    intro place serial content there
    cases place <;> cases there
  exact ⟨fun place serial content there => absurd there (none place serial content),
    fun a _ serial first _ there => absurd there (none a serial first), fun _ member => by cases member⟩

theorem ofFiles (files : List (String × String)) : (Disk.ofFiles files).Numbered := by
  suffices all : ∀ d : Disk, d.Numbered → d.Sound →
      (files.foldl (fun d file => d.provide ⟨file.1⟩ file.2.toUTF8) d).Numbered from
    all _ empty sound_empty
  induction files with
  | nil => exact fun _ numbered _ => numbered
  | cons file rest ih =>
    exact fun d numbered sound => ih _ (numbered.provide sound _ _) (changes_provide sound _ _).sound

/-- The file with a serial number is the one that is found. -/
theorem contentOf_file (numbered : d.Numbered) (sound : d.Sound) {serial : Nat}
    (there : d.entryAt place = some (.file serial content)) : d.contentOf serial = some content := by
  have filled : place ≠ [] := by
    rintro rfl
    simp at there
  have member := (sound.mem_pairs filled).mpr there
  cases found : d.contentOf serial with
  | none =>
    have missed := List.findSome?_eq_none_iff.mp found _ member
    simp at missed
  | some text =>
    obtain ⟨⟨other, entry⟩, inside, said⟩ := List.exists_of_findSome?_eq_some found
    cases entry with
    | file s held =>
      simp only [Option.ite_none_right_eq_some, Option.some.injEq] at said
      obtain ⟨rfl, rfl⟩ := said
      have standing := (sound.mem_pairs (numbered.unrooted _ inside)).mp inside
      obtain rfl := numbered.distinct other place s _ _ standing there
      rw [there] at standing
      cases standing
      rfl
    | _ => cases said

end Numbered

end Disk

/-! An archive that stays open. -/

/-- Two looks at one archive, which differ only in which headers of members were read. -/
structure Index.Alike (i j : Index) : Prop where
  serial : i.serial = j.serial
  content : i.content = j.content
  catalog : i.catalog = j.catalog
  reads : ∀ name, (i.directory.read j.content name).1 = (j.directory.read j.content name).1

namespace Index.Alike

variable {i j : Index} {d : Disk}

theorem refl (i : Index) : i.Alike i := ⟨rfl, rfl, rfl, fun _ => rfl⟩

/-- As long as its file is left alone, reading tells the same and changes nothing of that. -/
theorem read (alike : i.Alike j) (kept : (d.contentOf j.serial).getD j.content = j.content)
    (entry : String) : (i.read d entry).1 = (j.directory.read j.content entry).1 ∧
      (i.read d entry).2.Alike j := by
  have content : (d.contentOf i.serial).getD i.content = j.content := by
    rw [alike.serial, alike.content, kept]
  refine ⟨?_, alike.serial, alike.content, alike.catalog, fun name => ?_⟩
  · simp only [Index.read, content]
    exact alike.reads entry
  · simp only [Index.read, content]
    rw [Zip.Directory.read_again]
    exact alike.reads name

end Index.Alike

end LayerCache
