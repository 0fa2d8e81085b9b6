import LayerCache.Proofs.Build.Origin
import LayerCache.Proofs.Ownership
import LayerCache.Zip.Directory

/-! Entries under a reserved name. They are told by their own spelling, in which an empty segment or
`.` may hide the name that units are told by. -/
namespace LayerCache

open EntryName

namespace EntryName

variable {ending name : String} {segments : List String}

/-- As many segments as there are in front are spelled out. -/
def Plain (count : Nat) (name : String) : Prop :=
  ∀ segment ∈ (Text.split '/' (Text.slashes name)).take count, segment ≠ "" ∧ segment ≠ "."

instance (count : Nat) (name : String) : Decidable (Plain count name) :=
  inferInstanceAs (Decidable (∀ segment ∈ _, _))

/-- What passes a test all through in front begins as what passes it. -/
theorem append_of_filter {α : Type} {test : α → Bool} {pieces front rest : List α}
    (passed : pieces.filter test = front ++ rest) (more : rest ≠ [])
    (all : ∀ piece ∈ pieces.take front.length, test piece = true) :
    ∃ back, back ≠ [] ∧ pieces = front ++ back := by
  induction front generalizing pieces with
  | nil =>
    refine ⟨pieces, ?_, rfl⟩
    rintro rfl
    exact more passed.symm
  | cons first others ih =>
    cases pieces with
    | nil => cases passed
    | cons piece pieces =>
      rw [List.filter_cons_of_pos (all piece (by simp)), List.cons_append, List.cons.injEq] at passed
      obtain ⟨back, filled, parts⟩ := ih passed.2 fun other member => all other (by simp [member])
      exact ⟨back, filled, by rw [passed.1, parts, List.cons_append]⟩

/-- What begins with segments and a slash has them as its own. -/
theorem segmentsOf_of_startsWith (bare : ∀ segment ∈ segments, '/' ∉ segment.toList)
    (filled : segments ≠ [])
    (under : Text.startsWith (logicalName name (some ending)) (Text.join "/" segments ++ "/") = true) :
    ∃ rest, rest ≠ [] ∧ segmentsOf name = segments ++ rest := by
  obtain ⟨rest, parts⟩ := List.isPrefixOf_iff_prefix.mp under
  by_cases climbs : (segmentsOf name).contains ".." = true
  · rw [logicalName, if_pos climbs] at parts
    simp at parts
  obtain ⟨more, joined⟩ := UnitId.logicalName_prefix (some ending) (Bool.not_eq_true _ ▸ climbs)
  rw [← parts] at joined
  have listed : segmentsOf name ≠ [] := by
    intro none
    rw [none] at joined
    simp [Text.join] at joined
  have cut : Text.split '/' (Text.join "/" (segmentsOf name)) = segmentsOf name :=
    Text.split_join listed fun piece member => (mem_segmentsOf member).2.2
  have whole : Text.join "/" (segmentsOf name) =
      Text.join "/" segments ++ "/" ++ String.ofList (rest ++ more) :=
    String.toList_inj.mp (by simpa using joined)
  have front : Text.split '/' (Text.join "/" segments) = segments := Text.split_join filled bare
  rw [whole, Text.split_append, front] at cut
  exact ⟨_, by simp [Text.split, Chars.split_ne_nil], cut.symm⟩

/-- A reserved name is as it was given. -/
theorem dropSlashes_reserved {rest : List String} (filled : segments ≠ [])
    (own : segmentsOf name = segments ++ rest) :
    dropSlashes (Text.join "/" segments ++ "/") = Text.join "/" segments ++ "/" := by
  have proper : ∀ segment ∈ segments, segment ≠ "" ∧ '/' ∉ segment.toList ∧ '\\' ∉ segment.toList := by
    intro segment member
    have inside : segment ∈ segmentsOf name := own ▸ List.mem_append_left _ member
    obtain ⟨full, _, bare⟩ := mem_segmentsOf inside
    refine ⟨full, bare, fun back => Text.straight_slashes name ?_⟩
    have split := List.mem_of_mem_filter inside
    exact Text.mem_of_mem_split split back
  obtain ⟨first, others, rfl⟩ := List.exists_cons_of_ne_nil filled
  obtain ⟨full, bare, _⟩ := proper first (by simp)
  have straight : '\\' ∉ (Text.join "/" (first :: others) ++ "/").toList := by
    intro back
    rw [String.toList_append, List.mem_append] at back
    rcases back with inside | last
    · rcases Text.mem_join inside with slash | ⟨segment, known, there⟩
      · cases slash
      · exact (proper segment known).2.2 there
    · simp at last
  have start : (Text.join "/" (first :: others) ++ "/").toList.head? = first.toList.head? := by
    obtain ⟨c, cs, text⟩ := List.exists_cons_of_ne_nil fun none => full (String.toList_inj.mp none)
    cases others with
    | nil => simp [Text.join, text]
    | cons next rest => simp [Text.join, text]
  have same := Text.slashes_of_straight straight
  refine (dropSlashes_of_relative ?_).trans same
  rw [same, start]
  exact fun slash => bare (List.mem_of_head? slash)

/-- Under a reserved name no unit comes from an entry that spells its segments out. -/
theorem Admissible.off_reserved (bare : ∀ segment ∈ segments, '/' ∉ segment.toList)
    (filled : segments ≠ []) (plain : Plain segments.length name)
    (admissible : Admissible ending (Text.join "/" segments ++ "/") name) :
    Text.startsWith (UnitId.ofEntry name ending).logical (Text.join "/" segments ++ "/") = false := by
  by_contra off
  rw [Bool.not_eq_false, UnitId.ofEntry, UnitId.logical_ofLogical] at off
  obtain ⟨rest, more, own⟩ := segmentsOf_of_startsWith bare filled off
  have reserved := dropSlashes_reserved filled own
  obtain ⟨back, behind, pieces⟩ := append_of_filter own more fun piece member =>
    decide_eq_true (plain piece member)
  have text : Text.slashes name = Text.join "/" segments ++ "/" ++ Text.join "/" back := by
    rw [← Text.join_split (Text.slashes name), pieces, Text.join_append filled behind]
  refine admissible.unreserved ?_ ?_
  · rw [reserved]
    exact fun none => by simpa using congrArg String.toList none
  · rw [reserved, text]
    exact ⟨_, String.toList_append.symm⟩

end EntryName

theorem Archives.ofPaths_eq_after (paths : List Path) (ending reserved : String) (d : Disk) :
    ofPaths paths ending reserved = (new ending reserved).after (paths.map (d, .register ·)) := by
  rw [after, List.foldl_map]
  rfl

section

variable {plan : Plan} {points : List String} {reserved : String} {before : List UnitSource}
  {m next : Stage}

/-- A unit from an archive is that of an admissible entry. -/
def FromAdmissible (ending reserved : String) (u : UnitId) (origin : Origin) : Prop :=
  ∀ r, origin = .archive r → u = .ofEntry r.entry ending ∧ Admissible ending reserved r.entry

/-- All units from archives are those of admissible entries. -/
structure Screened (plan : Plan) (reserved : String) (before : List UnitSource) (m : Stage) : Prop where
  archives : ∃ requests, m.pass.archives = (Archives.new plan.roots.ending reserved).after requests
  entries : ∀ r ∈ m.entries, Admissible plan.roots.ending reserved r.entry
  jobs : ∀ t ∈ m.jobs,
    FromAdmissible plan.roots.ending reserved t.candidate.unit t.candidate.origin
  calls : ∃ calls, m.pass.called = before ++ calls ∧
    ∀ call ∈ calls, FromAdmissible plan.roots.ending reserved call.unit call.origin

namespace Screened

theorem looked (screened : Screened plan reserved before m) (move : Move plan points m next) :
    ∃ requests, next.pass.archives = (Archives.new plan.roots.ending reserved).after requests := by
  refine move.looks (fun as => ∃ requests, as = (Archives.new plan.roots.ending reserved).after requests)
    ?_ ?_ ?_ screened.archives
  · rintro u ⟨requests, same⟩
    exact ⟨requests ++ [(m.pass.disk, .find u)], by rw [same, Archives.after_append]; rfl⟩
  · rintro p ⟨requests, same⟩
    exact ⟨requests ++ [(m.pass.disk, .entries p)], by rw [same, Archives.after_append]; rfl⟩
  · rintro r ⟨requests, same⟩
    exact ⟨requests ++ [(m.pass.disk, .read r)], by rw [same, Archives.after_append]; rfl⟩

theorem offered (screened : Screened plan reserved before m) {c : Candidate} {goal : Destination}
    {archives : Archives} (offer : Offer plan points m c goal archives) :
    FromAdmissible plan.roots.ending reserved c.unit c.origin := by
  obtain ⟨requests, known⟩ := screened.archives
  cases offer with
  | @asked p _ _ _ _ _ symbol _ named _ located =>
    rcases p.locate_spec located with ⟨f, found, rfl⟩ | ⟨_, r, found, rfl, _⟩
    · exact fun _ origin => by cases origin
    · intro other origin
      cases origin
      simp only at known
      rw [known] at found
      exact ⟨rfl, Archives.admissible_of_find requests found⟩
  | source | generated => exact fun _ origin => by cases origin
  | entry listed =>
    intro r origin
    cases origin
    exact ⟨rfl, screened.entries _ listed⟩

theorem move (screened : Screened plan reserved before m) (move : Move plan points m next) :
    Screened plan reserved before next := by
  have archives := screened.looked move
  obtain ⟨calls, all, origins⟩ := screened.calls
  cases move with
  | check | search | list | pass | yield | keep | replace =>
    exact ⟨archives, screened.entries, screened.jobs, calls, all, origins⟩
  | @unpack p ss es archive known =>
    refine ⟨archives, ?_, screened.jobs, calls, all, origins⟩
    intro r member
    rcases List.mem_append.mp member with old | new
    · exact screened.entries r old
    · obtain ⟨name, listed, rfl⟩ := List.mem_map.mp new
      obtain ⟨requests, same⟩ := screened.archives
      simp only at same
      rw [same] at listed
      exact Archives.admissible_of_entries requests listed
  | begin offer fresh =>
    refine ⟨archives, screened.entries, ?_, calls, all, origins⟩
    intro t member
    rcases List.mem_cons.mp member with rfl | old
    · exact screened.offered offer
    · exact screened.jobs t old
  | unread | reject =>
    exact ⟨archives, screened.entries, fun t member => screened.jobs t (by simp [member]),
      calls, all, origins⟩
  | @call p c goal ts _ _ content _ loaded =>
    have here := screened.jobs ⟨c, goal, none⟩ (by simp)
    have added : p.called ++ [⟨c.unit, c.origin, content⟩] =
        before ++ (calls ++ [⟨c.unit, c.origin, content⟩]) := by
      rw [← List.append_assoc, ← all]
    refine ⟨archives, screened.entries, ?_, _, added, ?_⟩
    · intro t member
      rcases List.mem_cons.mp member with rfl | old
      · exact here
      · exact screened.jobs t (by simp [old])
    · intro call member
      rcases List.mem_append.mp member with old | new
      · exact origins call old
      · rw [List.mem_singleton.mp new]
        exact here
  | @deliver p c goal _ _ _ _ artifact _ =>
    rcases p.deliver_cases plan c goal artifact with ⟨_, _, _, h⟩ | ⟨_, _, h⟩
    · rw [h] at archives ⊢
      exact ⟨archives, screened.entries, fun t member => screened.jobs t (by simp [member]),
        calls, all, origins⟩
    · rw [h] at archives ⊢
      exact ⟨archives, screened.entries, fun t member => screened.jobs t (by simp [member]),
        calls, all, origins⟩

end Screened

end

namespace Builder

variable {b : Builder} {env : Environment} {heard : Bool} {cancel : Cancel} {s : Site}

theorem screened_settled (b : Builder) (env : Environment) (heard : Bool) (cancel : Cancel) (s : Site) :
    ∃ calls, (b.compile env heard cancel s).2.called = s.called ++ calls ∧ ∀ call ∈ calls,
      FromAdmissible b.layout.naming.sourceExt b.layout.naming.reserved call.unit call.origin := by
  obtain ⟨ss, es, course⟩ := b.settled_course env heard cancel s
  have start : Screened (b.plan env cancel) b.layout.naming.reserved s.called
      ⟨b.start env heard s, [], [], []⟩ :=
    ⟨⟨_, Archives.ofPaths_eq_after _ _ _ s.disk⟩, by simp, by simp, [],
      by simp [Builder.start, Builder.opening], by simp⟩
  have screened := course.invariant (Screened (b.plan env cancel) b.layout.naming.reserved s.called)
    (fun _ _ before move => before.move move) start
  rcases b.compile_called env heard cancel s with none | some
  · exact ⟨[], by simpa using none, by simp⟩
  · obtain ⟨calls, all, origins⟩ := screened.calls
    exact ⟨calls, some.trans all, origins⟩

/-- From archives no unit comes under the reserved name, as long as entries spell its segments out:
none is listed, none is found and none is compiled. -/
theorem compile_off_reserved {segments : List String} (filled : segments ≠ [])
    (bare : ∀ segment ∈ segments, '/' ∉ segment.toList) (ending : String) :
    let reserved := Text.join "/" segments ++ "/"
    (∀ requests d, let as := (Archives.new ending reserved).after requests
      (∀ p, ∀ name ∈ (as.entries d p).1, Plain segments.length name →
        Text.startsWith (UnitId.ofEntry name ending).logical reserved = false) ∧
      ∀ u r, (as.find d u).1 = some r → Plain segments.length r.entry →
        Text.startsWith (UnitId.ofEntry r.entry ending).logical reserved = false) ∧
    ∀ (b : Builder) env heard cancel s, b.layout.naming.sourceExt = ending →
      b.layout.naming.reserved = reserved →
      ∃ calls, (b.compile env heard cancel s).2.called = s.called ++ calls ∧
        ∀ call ∈ calls, ∀ r, call.origin = .archive r → Plain segments.length r.entry →
          Text.startsWith call.unit.logical reserved = false := by
  intro reserved
  refine ⟨fun requests d => ⟨?_, ?_⟩, ?_⟩
  · intro p name listed plain
    exact (Archives.admissible_of_entries requests listed).off_reserved bare filled plain
  · intro u r found plain
    exact (Archives.admissible_of_find requests found).off_reserved bare filled plain
  · intro b env heard cancel s extension naming
    obtain ⟨calls, all, origins⟩ := b.screened_settled env heard cancel s
    refine ⟨calls, all, fun call member r origin plain => ?_⟩
    obtain ⟨unit, admissible⟩ := origins call member r origin
    rw [naming] at admissible
    rw [unit]
    exact admissible.off_reserved bare filled plain

/-- An archive of one source, which is empty. -/
def jarOf (name : String) : String :=
  String.ofList ((Zip.pack [(name, .empty)]).data.toList.map fun byte => Char.ofNat byte.toNat)

/-- A project with an archive. -/
def jarBuilder : Builder :=
  ⟨.resolve ⟨"/p"⟩ ⟨"p", "", { generated := "gen" }, none, {}, none, ["l.jar"], []⟩,
    Scripted.service, .absent⟩

def jarSite (name : String) : Site := siteOf [("/p/l.jar", jarOf name)]

/-- A reserved name further below is none. -/
theorem compile_off_reserved_below :
    let reserved := Text.join "/" ["JPHP-INF"] ++ "/"
    let s := jarSite "lib/JPHP-INF/X.php"
    let as := (Archives.new "php" reserved).after [(s.disk, .register ⟨"/p/l.jar"⟩)]
    "lib/JPHP-INF/X.php" ∈ (as.entries s.disk ⟨"/p/l.jar"⟩).1 ∧
    Text.startsWith (UnitId.ofEntry "lib/JPHP-INF/X.php" "php").logical reserved = false ∧
    (jarBuilder.compile .prod true .never s).2.called.map (·.unit.logical) = ["lib/JPHP-INF/X"] ∧
    ∃ calls, (jarBuilder.compile .prod true .never s).2.called = s.called ++ calls ∧
      ∀ call ∈ calls, ∀ r, call.origin = .archive r → Plain 1 r.entry →
        Text.startsWith call.unit.logical reserved = false := by
  intro reserved s as
  obtain ⟨archives, builds⟩ := compile_off_reserved (List.cons_ne_nil "JPHP-INF" [])
    (by decide) "php"
  have seen : "lib/JPHP-INF/X.php" ∈ (as.entries s.disk ⟨"/p/l.jar"⟩).1 ∧
      (jarBuilder.compile .prod true .never s).2.called.map (·.unit.logical) =
        ["lib/JPHP-INF/X"] := by decide +kernel
  exact ⟨seen.1, (archives _ s.disk).1 _ _ seen.1 (by decide +kernel), seen.2,
    builds jarBuilder .prod true .never s rfl rfl⟩

/-- With a `.` in front the reserved name is not seen, and the entry is compiled. -/
theorem compile_under_reserved :
    let s := jarSite "./JPHP-INF/X.php"
    let as := (Archives.new "php" "JPHP-INF/").after [(s.disk, .register ⟨"/p/l.jar"⟩)]
    (as.entries s.disk ⟨"/p/l.jar"⟩).1 = ["./JPHP-INF/X.php"] ∧
    (as.find s.disk (.ofLogical "JPHP-INF/X")).1 = some ⟨⟨"/p/l.jar"⟩, "./JPHP-INF/X.php"⟩ ∧
    Text.startsWith (UnitId.ofEntry "./JPHP-INF/X.php" "php").logical "JPHP-INF/" = true ∧
    jarBuilder.layout.naming.reserved = "JPHP-INF/" ∧
    (jarBuilder.compile .prod true .never s).2.called.map (fun call => (call.unit.logical, call.origin)) =
      [("JPHP-INF/X", .archive ⟨⟨"/p/l.jar"⟩, "./JPHP-INF/X.php"⟩)] := by
  decide +kernel

end Builder
end LayerCache
