import LayerCache.Project.Settings
import LayerCache.Proofs.Manifest
import LayerCache.Proofs.Toml

/-! Settings in a file are kept as in memory, however often the file is opened anew. What the file
held before is told as it was until it is set, and a file that cannot be read is left alone. -/
namespace LayerCache

open Disk

/-! The file. -/

namespace SettingsFile

variable {d d' : Disk} {file : Path} {table : Dict String Toml} {key : String} {value : Bool}

/-- The way to the file: the folder it is to lie in is made. -/
def lead (d : Disk) (file : Path) : Except Fault Unit × Disk :=
  match file.parent with
  | some folder => d.makeFolders folder
  | none => (.ok (), d)

theorem changes_lead (sound : d.Sound) (file : Path) :
    Changes (fun _ => False) d (lead d file).2 := by
  rw [lead]
  split
  · exact changes_makeFolders sound _
  · exact .refl sound

theorem write_lead (d : Disk) (file : Path) (table : Dict String Toml) : write d file table =
    match (lead d file).1 with
    | .error fault => (.error (.unwritableSettings file fault), (lead d file).2)
    | .ok () => match (lead d file).2.write file (Toml.render table).toUTF8 with
      | .ok d => (.ok (), d)
      | .error fault => (.error (.unwritableSettings file fault), (lead d file).2) := rfl

theorem write_cases (written : (write d file table).1 = .ok ()) : ∃ between,
    lead d file = (.ok (), between) ∧
      between.write file (Toml.render table).toUTF8 = .ok (write d file table).2 := by
  rw [write_lead] at written ⊢
  rcases led : lead d file with ⟨fault | _, between⟩
  all_goals simp only [led] at written ⊢
  · cases written
  rcases wrote : between.write file (Toml.render table).toUTF8 with fault | after
  all_goals simp only [wrote] at written ⊢
  · cases written
  · exact ⟨between, rfl, wrote⟩

theorem lead_again {between : Disk} {content : ByteArray} (sound : d.Sound)
    (led : lead d file = (.ok (), between)) (written : between.write file content = .ok d') :
    lead d' file = (.ok (), d') := by
  rw [lead] at led ⊢
  split at led
  · exact makeFolders_again sound led written
  · rfl

/-- A place for settings: they can be written there, and no device swallows them. -/
structure Stores (d : Disk) (file : Path) : Prop where
  sound : d.Sound
  writable : ∀ table, (write d file table).1 = .ok ()
  lasting : ∀ table place device, (write d file table).2.stat file ≠ .ok (place, .device device)

/-- Where a path leads to a file or to a free name, settings can be written. -/
theorem Stores.of_find (sound : d.Sound) (led : (lead d file).1 = .ok ())
    (fits : ((lead d file).2.find .file file matches .ok (.taken _ (.file _ _)) | .ok (.free _ _)) =
      true) : Stores d file := by
  have above := changes_lead sound file
  rcases leads : lead d file with ⟨result, between⟩
  rw [leads] at led fits above
  have wrote : ∀ content, ∃ after, between.write file content = .ok after := by
    intro content
    simp only [Disk.write]
    split at fits
    · rename_i looked
      exact ⟨_, by simp only [looked]; rfl⟩
    · rename_i looked
      exact ⟨_, by simp only [looked]; rfl⟩
    · cases fits
  have free : ∀ place device, between.find .file file ≠ .ok (.taken place (.device device)) := by
    intro place device same
    simp [same] at fits
  obtain rfl : result = .ok () := led
  refine ⟨sound, fun table => ?_, fun table place device => ?_⟩
  · obtain ⟨after, wrote⟩ := wrote (Toml.render table).toUTF8
    simp only [write_lead, leads, wrote]
  · obtain ⟨after, wrote⟩ := wrote (Toml.render table).toUTF8
    obtain ⟨_, _, _, _, found⟩ := stat_of_write above.sound free wrote
    simp only [write_lead, leads, wrote]
    simp [found]

/-- Settings that are written are there, and can be written over. -/
theorem Stores.write (stores : Stores d file) (table : Dict String Toml) :
    ∃ d', write d file table = (.ok (), d') ∧ Stores d' file ∧
      d'.readText file = .ok (Toml.render table) := by
  obtain ⟨between, led, wrote⟩ := write_cases (stores.writable table)
  have above := changes_lead stores.sound file
  rw [led] at above
  obtain ⟨_, _, added⟩ := write_changes above.sound wrote
  obtain ⟨_, _, _, looked, _⟩ := stat_of_write above.sound
    (fun _ _ => free_of_write above.sound (stores.lasting table) wrote) wrote
  have read := read_of_write above.sound (stores.lasting table) wrote
  refine ⟨_, Prod.ext (stores.writable table) rfl, ?_, ?_⟩
  · have again := lead_again stores.sound led wrote
    exact .of_find added.sound (by rw [again]) (by simp [again, looked])
  · simp only [readText, read, Text.fromUTF8?_toUTF8]

/-- What is told of a key whose value is known. -/
def tell (key : String) : Option Toml → Except ConfigError (Option Bool)
  | none => .ok none
  | some (.bool b) => .ok (some b)
  | some v => .error (.notBoolean key v.kind)

theorem get_of_read (told : read d file = .ok table) : get d file key = tell key (table.find? key) := by
  unfold get
  rw [told]
  dsimp only
  rcases table.find? key with _ | v
  · rfl
  · cases v with
    | _ => rfl

theorem tell_arrange (found : Option Toml) : tell key (found.map Toml.arrange) = tell key found := by
  rcases found with _ | v
  · rfl
  · cases v with
    | _ => rfl

/-- The file holds a table, up to the order of the keys in tables within it. -/
structure Holds (d : Disk) (file : Path) (table : Dict String Toml) : Prop where
  stores : Stores d file
  read : ∃ told, read d file = .ok told ∧
    Toml.arrangeFields told.pairs = Toml.arrangeFields table.pairs

/-- Switches that are set one after the other. -/
def flip (table : Dict String Toml) (flips : List (String × Bool)) : Dict String Toml :=
  flips.foldl (fun table (key, value) => table.insert key (.bool value)) table

/-- The table is read back as it was written, whatever switches are set in it. -/
def Faithful (table : Dict String Toml) : Prop := ∀ flips, Toml.ReadsBack (flip table flips)

theorem Faithful.insert (faithful : Faithful table) (key : String) (value : Bool) :
    Faithful (table.insert key (.bool value)) := fun flips => faithful ((key, value) :: flips)

/-- Switches and plain texts are. -/
theorem faithful_onLine (sorted : table.Sorted) (onLine : ∀ field ∈ table.pairs, Toml.OnLine field.2) :
    Faithful table := by
  intro flips
  induction flips generalizing table with
  | nil => exact Toml.readsBack_onLine sorted onLine
  | cons first rest ih =>
    refine ih (sorted.insert first.1 _) fun field member => ?_
    rcases Dict.mem_insertIn member with rfl | old
    · exact Toml.onLine_bool _
    · exact onLine field old

theorem Holds.get (holds : Holds d file table) : get d file key = tell key (table.find? key) := by
  obtain ⟨told, read, alike⟩ := holds.read
  rw [get_of_read read, ← tell_arrange, Toml.find?_arrange alike, tell_arrange]

theorem Holds.set (holds : Holds d file table) (faithful : Faithful table) (key : String)
    (value : Bool) : ∃ d', set d file key value = (.ok (), d') ∧
      Holds d' file (table.insert key (.bool value)) := by
  obtain ⟨told, read, alike⟩ := holds.read
  have alike' := Toml.arrangeFields_insert alike key (.bool value)
  obtain ⟨d', wrote, stores, text⟩ := holds.stores.write (told.insert key (.bool value))
  obtain ⟨fields, parsed, same⟩ : Toml.ReadsBack (table.insert key (.bool value)) :=
    faithful [(key, value)]
  rw [Toml.render_congr alike'] at text
  exact ⟨d', by simp only [SettingsFile.set, read, wrote], stores, .ofList fields,
    by simp only [SettingsFile.read, text, parsed], same⟩

end SettingsFile

/-! Requests. -/

namespace Settings

open SettingsFile (Holds Stores Faithful)

/-- What is asked of settings. -/
inductive Request where
  | get (key : String)
  | set (key : String) (value : Bool)

inductive Answer where
  | read (told : Reading)
  | written (result : Except ConfigError Unit)

def perform (s : Settings) (d : Disk) : Request → Answer × Settings × Disk
  | .get key => let (told, s) := s.get d key; (.read told, s, d)
  | .set key value => let (result, s, d) := s.set d key value; (.written result, s, d)

/-- The answers to some requests, and what there is after the last. -/
def performAll (s : Settings) (d : Disk) : List Request → List Answer × Settings × Disk
  | [] => ([], s, d)
  | r :: rest =>
    let (answer, s, d) := s.perform d r
    let (answers, s, d) := performAll s d rest
    (answer :: answers, s, d)

/-- The same over several sessions, for each of which the file is opened anew. -/
def sessions (file : Path) (d : Disk) : List (List Request) → List Answer × Disk
  | [] => ([], d)
  | session :: rest =>
    let (answers, _, d) := (Settings.file file).performAll d session
    let (more, d) := sessions file d rest
    (answers ++ more, d)

/-- What a key was last set to. -/
def lastSet (key : String) (before : List Request) : Option Bool :=
  before.foldl (fun last r => match r with
    | .set k value => if k = key then some value else last
    | .get _ => last) none

/-- What is told of a key after some requests: what it was last set to, or else what was told of it
originally. -/
def readingAfter (original : String → Reading) (before : List Request) (key : String) : Reading :=
  match lastSet key before with
  | some value => .answer (some value)
  | none => original key

/-- The answer to a request after others. -/
def Request.answer (original : String → Reading) (before : List Request) : Request → Answer
  | .get key => .read (readingAfter original before key)
  | .set _ _ => .written (.ok ())

/-- The answer to a request where the settings cannot be read. -/
def Request.refused (e : ConfigError) : Request → Answer
  | .get _ => .read (.error e)
  | .set _ _ => .written (.error e)

variable {d : Disk} {file : Path} {table : Dict String Toml} {original : String → Reading}
  {before : List Request} {key : String} {r : Request}

theorem readingAfter_get (asked : String) :
    readingAfter original (before ++ [.get asked]) key = readingAfter original before key := by
  simp [readingAfter, lastSet]

theorem readingAfter_set (asked : String) (value : Bool) :
    readingAfter original (before ++ [.set asked value]) key =
      if asked = key then .answer (some value) else readingAfter original before key := by
  simp only [readingAfter, lastSet, List.foldl_append, List.foldl_cons, List.foldl_nil]
  by_cases same : asked = key
  · simp [same]
  · simp [same]

/-- The answers to requests after others. -/
def answersAfter (original : String → Reading) (before : List Request) : List Request → List Answer
  | [] => []
  | r :: rest => r.answer original before :: answersAfter original (before ++ [r]) rest

theorem length_answersAfter (requests : List Request) :
    (answersAfter original before requests).length = requests.length := by
  induction requests generalizing before with
  | nil => rfl
  | cons r rest ih => rw [answersAfter, List.length_cons, ih, List.length_cons]

theorem getElem?_answersAfter (front after : List Request) :
    (answersAfter original before (front ++ r :: after))[front.length]? =
      some (r.answer original (before ++ front)) := by
  induction front generalizing before with
  | nil => simp [answersAfter]
  | cons first rest ih =>
    have later := @ih (before ++ [first])
    simpa [answersAfter] using later

/-- What one request leaves to hold for the next holds after all of them. -/
theorem performAll_of_step {holds : List Request → Settings → Disk → Prop}
    (step : ∀ before s d r, holds before s d → ∃ s' d',
      s.perform d r = (r.answer original before, s', d') ∧ holds (before ++ [r]) s' d')
    (requests : List Request) {s : Settings} (initial : holds before s d) : ∃ s' d',
      s.performAll d requests = (answersAfter original before requests, s', d') ∧
        holds (before ++ requests) s' d' := by
  induction requests generalizing before s d with
  | nil => exact ⟨s, d, rfl, by simpa using initial⟩
  | cons r rest ih =>
    obtain ⟨s', d', performed, next⟩ := step before s d r initial
    obtain ⟨s'', d'', more, last⟩ := ih next
    refine ⟨s'', d'', ?_, by simpa using last⟩
    rw [performAll, performed]
    simp only [more, answersAfter]

/-- Settings in memory. -/
theorem perform_memory {s : Settings}
    (holds : ∃ values, s = .memory values ∧
      ∀ key, .answer (values.find? key) = readingAfter original before key)
    (r : Request) : ∃ s' d', s.perform d r = (r.answer original before, s', d') ∧
      ∃ values, s' = .memory values ∧
        ∀ key, .answer (values.find? key) = readingAfter original (before ++ [r]) key := by
  obtain ⟨values, rfl, known⟩ := holds
  cases r with
  | get asked =>
    refine ⟨.memory values, d, ?_, values, rfl, fun key => by rw [readingAfter_get, known]⟩
    rw [Request.answer, ← known]
    rfl
  | set asked value =>
    refine ⟨.memory (values.insert asked value), d, rfl, _, rfl, fun key => ?_⟩
    rw [readingAfter_set, Dict.find?_insert]
    split
    · rfl
    · exact known key

theorem performAll_memory (values : Dict String Bool) (requests : List Request) :
    ((Settings.memory values).performAll d requests).1 =
      answersAfter (fun key => .answer (values.find? key)) [] requests := by
  have known : ∀ key, .answer (values.find? key) =
      readingAfter (fun key => .answer (values.find? key)) [] key := fun _ => rfl
  obtain ⟨_, _, performed, _⟩ := performAll_of_step (fun _ _ _ r holds => perform_memory holds r)
    requests (d := d) ⟨values, rfl, known⟩
  rw [performed]

/-- What is read as settings of what the file tells. -/
def Reading.of : Except ConfigError (Option Bool) → Reading
  | .ok value => .answer value
  | .error e => .error e

theorem get_file : (Settings.file file).get d key =
    (.of (SettingsFile.get d file key), .file file) := by
  rw [Settings.get]
  rcases SettingsFile.get d file key with _ | _
  · rfl
  · rfl

/-- Settings in a file that holds a table. -/
structure Keeps (original : String → Reading) (file : Path) (before : List Request) (s : Settings)
    (d : Disk) : Prop where
  same : s = .file file
  table : ∃ table, Holds d file table ∧ Faithful table ∧
    ∀ key, .of (SettingsFile.tell key (table.find? key)) = readingAfter original before key

theorem Keeps.perform {s : Settings} (keeps : Keeps original file before s d) (r : Request) :
    ∃ s' d', s.perform d r = (r.answer original before, s', d') ∧
      Keeps original file (before ++ [r]) s' d' := by
  obtain ⟨rfl, table, holds, faithful, known⟩ := keeps
  cases r with
  | get asked =>
    refine ⟨.file file, d, ?_, rfl, table, holds, faithful, fun key => by rw [readingAfter_get, known]⟩
    rw [Settings.perform, get_file, holds.get, known]
    rfl
  | set asked value =>
    obtain ⟨d', done, held⟩ := holds.set faithful asked value
    refine ⟨.file file, d', ?_, rfl, _, held, faithful.insert asked value, fun key => ?_⟩
    · rw [Settings.perform, Settings.set, done]
      rfl
    · rw [readingAfter_set, Dict.find?_insert]
      split
      · rfl
      · exact known key

theorem performAll_file (stores : Stores d file) (read : SettingsFile.read d file = .ok table)
    (faithful : Faithful table) (requests : List Request) :
    ((Settings.file file).performAll d requests).1 =
      answersAfter (fun key => ((Settings.file file).get d key).1) [] requests := by
  have holds : Holds d file table := ⟨stores, table, read, rfl⟩
  have initial : Keeps (fun key => ((Settings.file file).get d key).1) file [] (.file file) d :=
    ⟨rfl, table, holds, faithful, fun key => by
      rw [← holds.get]
      exact congrArg Prod.fst get_file.symm⟩
  obtain ⟨_, _, performed, _⟩ := performAll_of_step (fun _ _ _ r keeps => keeps.perform r) requests
    initial
  rw [performed]

/-- Settings in a file that cannot be read. -/
theorem performAll_refused {e : ConfigError} (failed : SettingsFile.read d file = .error e)
    (requests : List Request) : (Settings.file file).performAll d requests =
      (requests.map (Request.refused e), .file file, d) := by
  induction requests with
  | nil => rfl
  | cons r rest ih =>
    have refused : (Settings.file file).perform d r = (r.refused e, .file file, d) := by
      cases r with
      | get key => simp only [perform, get_file, SettingsFile.get, failed, Reading.of, Request.refused]
      | set key value => simp only [perform, Settings.set, SettingsFile.set, failed, Request.refused]
    rw [performAll, refused]
    simp only [ih, List.map_cons]

/-! Sessions. -/

theorem perform_file (d : Disk) (file : Path) (r : Request) :
    ((Settings.file file).perform d r).2.1 = .file file := by
  cases r with
  | get key => rw [perform, get_file]
  | set key value => rfl

theorem performAll_file_append (d : Disk) (file : Path) (front back : List Request) :
    (Settings.file file).performAll d (front ++ back) =
      (((Settings.file file).performAll d front).1 ++
        ((Settings.file file).performAll ((Settings.file file).performAll d front).2.2 back).1,
      ((Settings.file file).performAll ((Settings.file file).performAll d front).2.2 back).2) := by
  induction front generalizing d with
  | nil => rfl
  | cons r rest ih =>
    have same := perform_file d file r
    rcases performed : (Settings.file file).perform d r with ⟨answer, s, d'⟩
    rw [performed] at same
    cases same
    simp only [List.cons_append, performAll, performed, ih]

/-- It does not matter how often the file is opened anew. -/
theorem sessions_eq (d : Disk) (file : Path) (asked : List (List Request)) : sessions file d asked =
    (((Settings.file file).performAll d asked.flatten).1,
      ((Settings.file file).performAll d asked.flatten).2.2) := by
  induction asked generalizing d with
  | nil => rfl
  | cons session rest ih =>
    rw [List.flatten_cons, performAll_file_append, sessions]
    simp only [ih]

/-- Whatever is asked of settings in a file, in however many sessions: where there was no file they
answer as settings in memory do; where there was one they tell of each key what it was last set to,
or else what they told of it originally, provided the file is read back as it is written; and where
it cannot be read nothing is told or set, and nothing changes. -/
theorem sessions_recall {d : Disk} {file : Path} (asked : List (List Request)) :
    (Stores d file → d.stat file = .error .notFound →
      (sessions file d asked).1 = (unset.performAll d asked.flatten).1) ∧
    (∀ table, Stores d file → SettingsFile.read d file = .ok table → Faithful table →
      (sessions file d asked).1.length = asked.flatten.length ∧
        ∀ before r after, asked.flatten = before ++ r :: after →
          (sessions file d asked).1[before.length]? =
            some (r.answer (fun key => ((Settings.file file).get d key).1) before)) ∧
    ∀ e, SettingsFile.read d file = .error e →
      sessions file d asked = (asked.flatten.map (Request.refused e), d) := by
  refine ⟨fun stores absent => ?_, fun table stores read faithful => ?_, fun e failed => ?_⟩
  · have read : SettingsFile.read d file = .ok .empty := by
      simp only [SettingsFile.read, readText, Disk.read, absent]
    have unknown : (fun key => ((Settings.file file).get d key).1) =
        fun key => .answer ((Dict.empty : Dict String Bool).find? key) := by
      funext key
      rw [get_file, SettingsFile.get_of_read read]
      rfl
    rw [sessions_eq, unset, performAll_memory, performAll_file stores read
      (SettingsFile.faithful_onLine .empty (by simp [Dict.empty])), unknown]
  · rw [sessions_eq, performAll_file stores read faithful]
    refine ⟨length_answersAfter _, fun before r after cut => ?_⟩
    rw [cut, getElem?_answersAfter, List.nil_append]
  · rw [sessions_eq, performAll_refused failed]

/-- Settings of which not all are switches. -/
def colours : Dict String Toml := ⟨[(compileToCache, .bool false), ("theme", .text "dark")]⟩

/-- A disk with a file of settings and one that breaks off. -/
def home : Disk := .ofFiles [("/etc/app.toml", Toml.render colours), ("/etc/torn.toml", "theme =")]

theorem sessions_recall_home : let asked : List (List Request) :=
      [[.set "a.b" true, .set compileToCache true], [.get "a.b", .get compileToCache, .get "theme"]]
    (sessions ⟨"/var/app/app.toml"⟩ home asked).1 = (unset.performAll home asked.flatten).1 ∧
      ((sessions ⟨"/etc/app.toml"⟩ home asked).1[3]? = some (.read (.answer (some true))) ∧
        (sessions ⟨"/etc/app.toml"⟩ home asked).1[4]? =
          some (.read (.error (.notBoolean "theme" "string")))) ∧
      sessions ⟨"/etc/torn.toml"⟩ home asked = (asked.flatten.map (Request.refused .malformed), home) := by
  intro asked
  have sound : home.Sound := (changes_ofFiles _).sound
  have new : Stores home ⟨"/var/app/app.toml"⟩ :=
    .of_find sound (by decide +kernel) (by decide +kernel)
  have absent : home.stat ⟨"/var/app/app.toml"⟩ = .error .notFound := by
    have missing : (home.stat ⟨"/var/app/app.toml"⟩).map (fun _ => ()) = .error .notFound := by
      decide +kernel
    rcases looked : home.stat ⟨"/var/app/app.toml"⟩ with e | found
    · rw [looked] at missing
      cases missing
      rfl
    · rw [looked] at missing
      cases missing
  have old : Stores home ⟨"/etc/app.toml"⟩ := .of_find sound (by decide +kernel) (by decide +kernel)
  have sorted : colours.Sorted := by
    rw [Dict.Sorted]
    decide
  have onLine : ∀ field ∈ colours.pairs, Toml.OnLine field.2 := by
    simp only [colours, List.forall_mem_cons, List.not_mem_nil, false_implies, implies_true, and_true]
    exact ⟨Toml.onLine_bool _, Toml.onLine_text (by decide)⟩
  have text : home.readText ⟨"/etc/app.toml"⟩ = .ok (Toml.render colours) := by decide +kernel
  have read : SettingsFile.read home ⟨"/etc/app.toml"⟩ = .ok colours := by
    simp only [SettingsFile.read, text, Toml.parse_render sorted onLine, Option.bind_some,
      Toml.revealFields_onLine onLine, Dict.ofList_sorted (fun _ _ => String.lt_asymm) sorted]
  have tornText : home.readText ⟨"/etc/torn.toml"⟩ = .ok "theme =" := by decide +kernel
  have torn : SettingsFile.read home ⟨"/etc/torn.toml"⟩ = .error .malformed := by
    have none : (Toml.parse "theme =").isNone = true := by decide +kernel
    simp only [SettingsFile.read, tornText, Option.isNone_iff_eq_none.mp none, Option.bind_none]
  have told := ((sessions_recall asked).2.1 colours old read
    (SettingsFile.faithful_onLine sorted onLine)).2
  refine ⟨(sessions_recall asked).1 new absent, ⟨?_, ?_⟩, (sessions_recall asked).2.2 _ torn⟩
  · exact told [_, _, _] (.get compileToCache) [_] rfl
  · refine (told [_, _, _, _] (.get "theme") [] rfl).trans ?_
    simp only [Request.answer, readingAfter, get_file, SettingsFile.get_of_read read]
    rfl

/-- A disk on which the file of settings is a link to a device that keeps nothing. -/
def sink : Disk where
  entries := ⟨[(["app.toml"], .link ⟨"/dev/null"⟩), (["dev"], .folder),
    (["dev", "null"], .device .null)]⟩
  here := []
  fresh := 0

/-- Settings can be written there and read, and none of them is told again. -/
theorem sessions_forget_sunk : sink.Sound ∧
    (∀ table, (SettingsFile.write sink ⟨"/app.toml"⟩ table).1 = .ok ()) ∧
    SettingsFile.read sink ⟨"/app.toml"⟩ = .ok .empty ∧ Faithful .empty ∧
    (sessions ⟨"/app.toml"⟩ sink [[.set "a" true, .get "a"]]).1 =
      [.written (.ok ()), .read (.answer none)] := by
  have sound : sink.Sound := sound_of_listed rfl (by decide) (by
    simp only [sink, List.forall_mem_cons, List.not_mem_nil, false_implies, implies_true, and_true]
    exact ⟨⟨[], "app.toml", rfl, by constructor <;> decide, rfl⟩,
      ⟨[], "dev", rfl, by constructor <;> decide, rfl⟩,
      ⟨["dev"], "null", rfl, by constructor <;> decide, rfl⟩⟩)
  have led : SettingsFile.lead sink ⟨"/app.toml"⟩ = (.ok (), sink) := by
    have up : Path.parent ⟨"/app.toml"⟩ = some ⟨"/"⟩ := by decide +kernel
    rw [SettingsFile.lead, up]
    exact makeFolders_opened (by decide +kernel)
  have swallows : ∀ content, sink.write ⟨"/app.toml"⟩ content = .ok sink := by
    have drained : sink.find .file ⟨"/app.toml"⟩ = .ok (.taken ["dev", "null"] (.device .null)) := rfl
    intro content
    simp only [Disk.write, drained]
    rfl
  have wrote : ∀ table, SettingsFile.write sink ⟨"/app.toml"⟩ table = (.ok (), sink) := fun table => by
    simp only [SettingsFile.write_lead, led, swallows]
  have text : sink.readText ⟨"/app.toml"⟩ = .ok "" := by decide +kernel
  have read : SettingsFile.read sink ⟨"/app.toml"⟩ = .ok .empty := by
    simp only [SettingsFile.read, text]
    rfl
  refine ⟨sound, fun table => by rw [wrote], read,
    SettingsFile.faithful_onLine .empty (by simp [Dict.empty]), ?_⟩
  simp only [sessions, performAll, perform, Settings.set, SettingsFile.set, read, wrote, get_file,
    SettingsFile.get_of_read read]
  rfl

end Settings

end LayerCache
