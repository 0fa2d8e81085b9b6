import LayerCache.Cache.Manifest
import LayerCache.Digest.Xxh3
import LayerCache.Proofs.Disk
import LayerCache.Proofs.Json

/-! A manifest that was saved is loaded as it was. -/
namespace LayerCache

theorem Text.fromUTF8?_toUTF8 (s : String) : String.fromUTF8? s.toUTF8 = some s := by
  simpa [String.fromUTF8?] using ⟨s.isValidUTF8, rfl⟩

namespace Json

/-- Each of some values is read from what is written for it. -/
theorem mapM_map {α β γ : Type} {read : γ → Option β} {write : α → γ} {value : α → β}
    (back : ∀ x, read (write x) = some (value x)) (all : List α) :
    (all.map write).mapM read = some (all.map value) := by
  induction all with
  | nil => rfl
  | cons x rest ih => simp [back, ih]

theorem fields?_ofFields (fields : List (String × Json)) :
    (ofFields fields).fields? = some fields := by
  simp only [ofFields, fields?]
  induction fields with
  | nil => rfl
  | cons field rest ih => simp [ih]

theorem record?_ofFields (keys : List String) (fields : List (String × Json)) :
    (ofFields fields).record? keys = keys.mapM (member? fields) := by
  show (do let fields ← (ofFields fields).fields?; keys.mapM (member? fields)) = _
  rw [fields?_ofFields]
  rfl

end Json

namespace Manifest

/-- Records stand in the order of their names, each name once. -/
def Sorted (m : Manifest) : Prop := m.units.keys.Pairwise (· < ·)

variable {m previous : Manifest} {keep : String → ArtifactRecord → Bool}

theorem sorted_new (version : String) (env : Environment) : (new version env).Sorted :=
  List.Pairwise.nil

theorem Sorted.record (sorted : m.Sorted) (logical : String) (r : ArtifactRecord) :
    (m.record logical r).Sorted := by
  refine Dict.sorted_insertIn (fun _ _ _ => String.lt_trans) ?_ sorted
  intro a b other above
  exact Std.lt_of_le_of_ne (String.not_lt.mp above) other.symm

/-- One name has one record. -/
theorem Sorted.find?_eq (sorted : m.Sorted) {logical : String} {r : ArtifactRecord} :
    m.units.find? logical = some r ↔ (logical, r) ∈ m.units.pairs := (Dict.Sorted.mem_pairs sorted).symm

theorem mem_record {logical : String} {r : ArtifactRecord} {pair : String × ArtifactRecord}
    (member : pair ∈ (m.record logical r).units.pairs) :
    pair = (logical, r) ∨ pair ∈ m.units.pairs := Dict.mem_insertIn member

theorem find?_record_cases {name logical : String} {r other : ArtifactRecord}
    (found : (m.record name r).units.find? logical = some other) :
    logical = name ∧ other = r ∨ name ≠ logical ∧ m.units.find? logical = some other := by
  by_cases same : name = logical
  · rw [← same, record, Dict.find?_insert_self] at found
    exact .inl ⟨same.symm, (Option.some.inj found).symm⟩
  · rw [record, Dict.find?_insert_of_ne _ same] at found
    exact .inr ⟨same, found⟩

/-- What is recorded once stays recorded. -/
theorem find?_record_of_find? {name logical : String} {r : ArtifactRecord}
    (found : ∃ old, m.units.find? logical = some old) :
    ∃ other, (m.record name r).units.find? logical = some other := by
  obtain ⟨old, found⟩ := found
  by_cases same : name = logical
  · exact ⟨r, by rw [← same, record, Dict.find?_insert_self]⟩
  · exact ⟨old, by rw [record, Dict.find?_insert_of_ne _ same, found]⟩

/-- What holds of a manifest holds of it with the records that were taken over. -/
theorem carryOver_invariant (property : Manifest → Prop) (initial : property m)
    (step : ∀ m, property m → ∀ pair ∈ previous.units.pairs, keep pair.1 pair.2 = true →
      m.units.contains pair.1 = false → property (m.record pair.1 pair.2)) :
    property (m.carryOver previous keep).2 := by
  have all : ∀ pairs : List (String × ArtifactRecord), pairs ⊆ previous.units.pairs →
      ∀ m, property m → property (pairs.foldl (carry keep) m) := by
    intro pairs
    induction pairs with
    | nil => exact fun _ _ holds => holds
    | cons pair rest ih =>
      intro known m holds
      refine ih (fun other member => known (by simp [member])) _ ?_
      simp only [carry]
      split
      · exact holds
      · rename_i taken
        simp only [Bool.or_eq_true, Bool.not_eq_true', not_or, Bool.not_eq_true,
          Bool.not_eq_false] at taken
        exact step m holds pair (known (by simp)) taken.2 taken.1
  exact all previous.units.pairs (List.Subset.refl _) m initial

/-- A record that is there stays. -/
theorem find?_carryOver {logical : String} {r : ArtifactRecord}
    (found : m.units.find? logical = some r) :
    (m.carryOver previous keep).2.units.find? logical = some r := by
  refine carryOver_invariant (fun later => later.units.find? logical = some r) found ?_
  intro later there pair _ _ missing
  have other : pair.1 ≠ logical := by
    rintro rfl
    simp [Dict.contains, there] at missing
  exact (Dict.find?_insert_of_ne _ other _).trans there

/-- What is taken over under a name depends on what is there under it and on what is to be kept. -/
theorem find?_carryOver_congr {n : Manifest} {keep' : String → ArtifactRecord → Bool} {logical : String}
    (same : n.units.find? logical = m.units.find? logical)
    (kept : ∀ r, keep' logical r = keep logical r) :
    (n.carryOver previous keep').2.units.find? logical =
      (m.carryOver previous keep).2.units.find? logical := by
  simp only [carryOver]
  generalize previous.units.pairs = pairs
  induction pairs generalizing m n with
  | nil => exact same
  | cons pair rest ih =>
    refine ih ?_
    by_cases own : pair.1 = logical
    · subst own
      have there : n.units.contains pair.1 = m.units.contains pair.1 := by simp only [Dict.contains, same]
      simp only [carry, there, kept]
      split_ifs
      · exact same
      · rw [record, record, Dict.find?_insert_self, Dict.find?_insert_self]
    · have apart : ∀ (l : Manifest) (k : String → ArtifactRecord → Bool),
          (carry k l pair).units.find? logical = l.units.find? logical := by
        intro l k
        simp only [carry]
        split
        · rfl
        · exact Dict.find?_insert_of_ne _ own _
      rw [apart, apart, same]

theorem Sorted.carryOver (sorted : m.Sorted) : (m.carryOver previous keep).2.Sorted :=
  carryOver_invariant Sorted sorted fun _ sorted pair _ _ _ => sorted.record pair.1 pair.2

/-- Of records only those are taken over that are to be kept. -/
theorem carryOver_cases {pair : String × ArtifactRecord}
    (member : pair ∈ (m.carryOver previous keep).2.units.pairs) :
    pair ∈ m.units.pairs ∨ pair ∈ previous.units.pairs ∧ keep pair.1 pair.2 = true := by
  refine carryOver_invariant (fun later => pair ∈ later.units.pairs → pair ∈ m.units.pairs ∨
    pair ∈ previous.units.pairs ∧ keep pair.1 pair.2 = true) .inl ?_ member
  intro later ih other known kept _ member
  rcases mem_record member with rfl | old
  · exact .inr ⟨known, kept⟩
  · exact ih old

/-- The written form as a value. -/
def digestJson (d : Digest) : Json := .array (d.toList.map fun b => .count b.toNat)

def recordJson (r : ArtifactRecord) : Json := .ofFields [
  ("origin", .text (some r.origin.name)), ("source", .text (some r.source)),
  ("checksum", digestJson r.checksum)]

def unitsJson (units : Dict String ArtifactRecord) : Json :=
  .ofFields (units.pairs.map fun (logical, r) => (logical, recordJson r))

def toJson (m : Manifest) : Json := .ofFields [
  ("strata_version", .text (some m.version)), ("env", .text (some m.env.name)),
  ("units", unitsJson m.units)]

theorem reads_renderDigest (depth : Nat) (d : Digest) :
    Json.Reads (digestJson d) (renderDigest depth d) := by
  refine Json.reads_array depth ?_
  rw [List.forall₂_map_left_iff, List.forall₂_map_right_iff, List.forall₂_same]
  exact fun b _ => Json.reads_byte b.toNat_lt

theorem reads_renderRecord (depth : Nat) (r : ArtifactRecord) :
    Json.Reads (recordJson r) (renderRecord depth r) :=
  Json.reads_object depth (.cons ⟨_, rfl, Json.reads_quote _⟩ (.cons ⟨_, rfl, Json.reads_quote _⟩
    (.cons ⟨_, rfl, reads_renderDigest _ _⟩ .nil)))

theorem reads_units (units : Dict String ArtifactRecord) :
    Json.Reads (unitsJson units) (Json.writeObject 1 (units.pairs.map fun (logical, r) =>
      Json.field logical (renderRecord 2 r))) := by
  refine Json.reads_object 1 ?_
  rw [List.forall₂_map_left_iff, List.forall₂_map_right_iff, List.forall₂_same]
  exact fun pair _ => ⟨_, rfl, reads_renderRecord _ _⟩

theorem parse_render_json (m : Manifest) : Json.parse m.render = some m.toJson :=
  Json.parse_of_reads (Json.reads_object 0 (.cons ⟨_, rfl, Json.reads_quote _⟩
    (.cons ⟨_, rfl, Json.reads_quote _⟩ (.cons ⟨_, rfl, reads_units _⟩ .nil))))

theorem ofJson?_digestJson (d : Digest) : Digest.ofJson? (digestJson d) = some d := by
  have back : ∀ b : UInt8, Json.byte? (.count b.toNat) = some (id b) := fun b => by
    simp [Json.byte?, b.toNat_lt]
  simp [Digest.ofJson?, digestJson, Json.items?, Json.mapM_map back, Digest.ofBytes?_toList]

theorem recordOfJson?_recordJson (r : ArtifactRecord) : recordOfJson? (recordJson r) = some r := by
  have members : (recordJson r).record? ["origin", "source", "checksum"] =
      some [.text (some r.origin.name), .text (some r.source), digestJson r.checksum] := by
    rw [recordJson, Json.record?_ofFields]
    rfl
  simp [recordOfJson?, members, Json.constant?, Json.text?, OriginKind.ofName?_name,
    ofJson?_digestJson]

theorem dict?_unitsJson {units : Dict String ArtifactRecord} (sorted : units.keys.Pairwise (· < ·)) :
    Json.dict? recordOfJson? (unitsJson units) = some units := by
  simp only [Json.dict?, unitsJson, Json.fields?_ofFields, Option.bind_eq_bind, Option.bind_some]
  rw [@Json.mapM_map _ _ _ _ _ id (fun pair => ?_), List.map_id]
  · exact congrArg some (Dict.ofList_sorted (fun _ _ => List.lt_asymm) sorted)
  · simp [recordOfJson?_recordJson]

theorem ofJson?_toJson (sorted : m.Sorted) :
    ofJson? m.toJson = some m := by
  have members : m.toJson.record? ["strata_version", "env", "units"] =
      some [.text (some m.version), .text (some m.env.name), unitsJson m.units] := by
    rw [toJson, Json.record?_ofFields]
    rfl
  simp [ofJson?, members, Json.text?, Environment.ofJson?, Json.constant?, Environment.ofName?_name,
    dict?_unitsJson sorted]

/-- What is written of a manifest tells all of it. -/
theorem parse_render (sorted : m.Sorted) :
    parse m.render = some m := by
  simp [parse, parse_render_json, ofJson?_toJson sorted]

/-! Saving and loading. -/

variable {d d' : Disk} {folder : Path}

theorem save_cases (saved : m.save d folder = (.ok (), d')) : ∃ between,
    d.makeFolders folder = (.ok (), between) ∧
      between.write (pathIn folder) m.render.toUTF8 = .ok d' := by
  rcases made : d.makeFolders folder with ⟨fault | _, between⟩
  all_goals simp only [save, made] at saved
  · cases (Prod.mk.inj saved).1
  rcases written : between.write (pathIn folder) m.render.toUTF8 with fault | after
  all_goals simp only [written] at saved
  · cases (Prod.mk.inj saved).1
  obtain ⟨_, rfl⟩ := Prod.mk.inj saved
  exact ⟨between, rfl, written⟩

theorem load_of_read (sorted : m.Sorted) (read : d.read (pathIn folder) = .ok m.render.toUTF8) :
    load d folder = .ok (some m) := by
  simp only [load, Disk.readText, read, Text.fromUTF8?_toUTF8, parse_render sorted]

theorem load_congr {loaded : Manifest}
    (same : (d.read (pathIn folder)).toOption = (d'.read (pathIn folder)).toOption)
    (first : load d folder = .ok (some loaded)) : load d' folder = .ok (some loaded) := by
  rcases read : d.read (pathIn folder) with fault | content
  · have failed : d.readText (pathIn folder) = .error fault := by simp only [Disk.readText, read]
    rw [load, failed] at first
    cases fault with
    | notFound => cases first
    | _ => cases first
  · rcases later : d'.read (pathIn folder) with fault | other
    all_goals rw [read, later] at same
    · cases same
    · cases same
      simpa only [load, Disk.readText, read, later] using first

/-- In a tree without links it is enough that no device stands where the manifest goes. -/
theorem load_of_save (sound : d.Sound) (plain : d.Plain folder) (sorted : m.Sorted)
    (stores : ∀ device, d.entryAt (d.placeOf folder ++ [fileName]) ≠ some (.device device))
    (saved : m.save d folder = (.ok (), d')) : load d' folder = .ok (some m) := by
  have proper : IsName fileName := by constructor <;> decide
  have above := Disk.changes_makeFolders sound folder
  obtain ⟨between, made, written⟩ := save_cases saved
  rw [made] at above
  have clear : between.Plain (pathIn folder) := (above.plain plain).joinName proper
  have here : between.placeOf (pathIn folder) = d.placeOf folder ++ [fileName] := by
    rw [pathIn, Disk.placeOf_joinName proper, above.placeOf]
  have free : ∀ device, between.entryAt (between.placeOf (pathIn folder)) ≠
      some (.device device) := by
    intro device there
    have kept := (above.leaves (d.placeOf folder ++ [fileName])).resolve_right id
    rw [here, ← Disk.leafAt_eq_some (by simp), kept, Disk.leafAt_eq_some (by simp)] at there
    exact stores device there
  exact load_of_read sorted (Disk.read_write above.sound clear free written)

/-- A manifest that could be saved is loaded as it was, over whatever links lead to its file, unless
they lead to a device. -/
theorem load_recalls (sound : d.Sound) (sorted : m.Sorted) (saved : m.save d folder = (.ok (), d'))
    (stores : ∀ place device, d'.stat (pathIn folder) ≠ .ok (place, .device device)) :
    load d' folder = .ok (some m) := by
  obtain ⟨between, made, written⟩ := save_cases saved
  have above := Disk.changes_makeFolders sound folder
  rw [made] at above
  exact load_of_read sorted (Disk.read_of_write above.sound stores written)

/-- A manifest with a name and a source that have to be escaped. -/
def noted : Manifest :=
  ((new "0.1.0" .prod).record "li\\b/\"Ü\"" ⟨.archive, "lib.jar!li\\b/Ü.php", .ofText "u"⟩).record
    "app/Main" ⟨.root, "src/app/Main.php", .ofText "x"⟩

/-- A disk whose cache folder is a link. -/
def linkedDisk : Disk where
  entries := ⟨[(["build"], .link ⟨"out/../store"⟩), (["out"], .folder), (["store"], .folder)]⟩
  here := []
  fresh := 0

theorem load_recalls_linked : ∃ d', linkedDisk.Sound ∧ noted.Sorted ∧
    noted.save linkedDisk ⟨"/build"⟩ = (.ok (), d') ∧ load d' ⟨"/build"⟩ = .ok (some noted) := by
  have sound : linkedDisk.Sound := Disk.sound_of_listed rfl (by decide) (by
    simp only [linkedDisk, List.forall_mem_cons, List.not_mem_nil, false_implies, implies_true,
      and_true]
    exact ⟨⟨[], "build", rfl, by constructor <;> decide, rfl⟩,
      ⟨[], "out", rfl, by constructor <;> decide, rfl⟩,
      ⟨[], "store", rfl, by constructor <;> decide, rfl⟩⟩)
  have sorted : noted.Sorted := ((sorted_new _ _).record _ _).record _ _
  have saved : (noted.save linkedDisk ⟨"/build"⟩).1 = .ok () := by decide +kernel
  have filed : (noted.save linkedDisk ⟨"/build"⟩).2.isFile (pathIn ⟨"/build"⟩) = true := by
    decide +kernel
  have whole : noted.save linkedDisk ⟨"/build"⟩ =
      (.ok (), (noted.save linkedDisk ⟨"/build"⟩).2) := by rw [← saved]
  refine ⟨_, sound, sorted, whole, load_recalls sound sorted whole fun place device found => ?_⟩
  simp [Disk.isFile, found] at filed

/-- A disk on which the file of the manifest is a link to a device that keeps nothing. -/
def sinkDisk : Disk where
  entries := ⟨[(["c"], .folder), (["c", fileName], .link ⟨"/dev/null"⟩), (["dev"], .folder),
    (["dev", "null"], .device .null)]⟩
  here := []
  fresh := 0

/-- What is saved there is lost. -/
theorem load_misses_sunk : ∃ d', sinkDisk.Sound ∧ noted.Sorted ∧
    noted.save sinkDisk ⟨"/c"⟩ = (.ok (), d') ∧ load d' ⟨"/c"⟩ = .error .badManifest := by
  have sound : sinkDisk.Sound := Disk.sound_of_listed rfl (by decide) (by
    simp only [sinkDisk, List.forall_mem_cons, List.not_mem_nil, false_implies, implies_true,
      and_true]
    exact ⟨⟨[], "c", rfl, by constructor <;> decide, rfl⟩,
      ⟨["c"], fileName, rfl, by constructor <;> decide, rfl⟩,
      ⟨[], "dev", rfl, by constructor <;> decide, rfl⟩,
      ⟨["dev"], "null", rfl, by constructor <;> decide, rfl⟩⟩)
  have saved : (noted.save sinkDisk ⟨"/c"⟩).1 = .ok () := by decide +kernel
  have lost : load (noted.save sinkDisk ⟨"/c"⟩).2 ⟨"/c"⟩ = .error .badManifest := by decide +kernel
  exact ⟨_, sound, ((sorted_new _ _).record _ _).record _ _, by rw [← saved], lost⟩

end Manifest
end LayerCache
