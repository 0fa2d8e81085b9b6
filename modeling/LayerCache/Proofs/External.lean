import LayerCache.Compiler.External
import LayerCache.Proofs.Lines
import LayerCache.Proofs.Manifest

/-! A program that compiles. When it has ended well it is taken at its word: the symbols it asked
for are made available in turn, whatever becomes of them, and its output is the artifact. When it
has not, nothing is asked for, and what else it said is the reason; the number of a line behind the
last colon of all is read off. -/
namespace LayerCache.External

/-! What error output says. -/

/-- Lines of error output with the symbols they ask for and the notes they leave. A line that asks
for nothing but blanks is passed over, and so is a blank one. -/
inductive Tells : List String → List String → List String → Prop
  | nil : Tells [] [] []
  | asks {symbol lines symbols notes} (filled : Text.isBlank symbol = false)
      (rest : Tells lines symbols notes) :
    Tells ((marker ++ symbol) :: lines) (Text.trim symbol :: symbols) notes
  | asksNothing {symbol lines symbols notes} (blank : Text.isBlank symbol = true)
      (rest : Tells lines symbols notes) : Tells ((marker ++ symbol) :: lines) symbols notes
  | blank {line lines symbols notes} (blank : Text.isBlank line = true)
      (rest : Tells lines symbols notes) : Tells (line :: lines) symbols notes
  | note {line lines symbols notes} (filled : Text.isBlank line = false)
      (other : Text.startsWith line marker = false) (rest : Tells lines symbols notes) :
    Tells (line :: lines) symbols (line :: notes)

variable {line : String} {lines symbols notes : List String}

theorem startsWith_marker (symbol : String) : Text.startsWith (marker ++ symbol) marker = true := by
  simp [Text.startsWith]

theorem afterStart_marker (symbol : String) :
    Text.afterStart? marker (marker ++ symbol) = some symbol := by
  simp [Text.afterStart?, startsWith_marker]

theorem eq_marker_append (starts : Text.startsWith line marker = true) :
    ∃ symbol, line = marker ++ symbol := by
  obtain ⟨rest, whole⟩ := List.isPrefixOf_iff_prefix.mp starts
  exact ⟨String.ofList rest, String.toList_inj.mp (by simp [← whole])⟩

/-- The marker is not blank. -/
theorem not_isBlank_marker (symbol : String) : Text.isBlank (marker ++ symbol) = false := by
  simp [Text.isBlank, marker, show Chars.isBlank '@' = false by decide]

theorem tells_lines (lines : List String) : Tells lines (references lines) (diagnostics lines) := by
  induction lines with
  | nil => exact .nil
  | cons line rest ih =>
    by_cases starts : Text.startsWith line marker = true
    · obtain ⟨symbol, rfl⟩ := eq_marker_append starts
      have quiet : diagnostics ((marker ++ symbol) :: rest) = diagnostics rest := by
        simp [diagnostics, startsWith_marker]
      rw [quiet]
      cases blank : Text.isBlank symbol with
      | true =>
        have none : references ((marker ++ symbol) :: rest) = references rest := by
          simp [references, afterStart_marker, blank]
        rw [none]
        exact .asksNothing blank ih
      | false =>
        have asked : references ((marker ++ symbol) :: rest) =
            Text.trim symbol :: references rest := by
          simp [references, afterStart_marker, blank]
        rw [asked]
        exact .asks blank ih
    · have none : references (line :: rest) = references rest := by
        simp [references, Text.afterStart?, starts]
      rw [none]
      cases blank : Text.isBlank line with
      | true =>
        have quiet : diagnostics (line :: rest) = diagnostics rest := by simp [diagnostics, blank]
        rw [quiet]
        exact .blank blank ih
      | false =>
        have noted : diagnostics (line :: rest) = line :: diagnostics rest := by
          simp [diagnostics, blank, starts]
        rw [noted]
        exact .note blank (by simpa using starts) ih

/-- Lines say one thing only. -/
theorem Tells.unique (told : Tells lines symbols notes) :
    symbols = references lines ∧ notes = diagnostics lines := by
  induction told with
  | nil => exact ⟨rfl, rfl⟩
  | asks filled _ ih => simp [references, diagnostics, afterStart_marker, startsWith_marker, filled, ih]
  | asksNothing blank _ ih =>
    simp [references, diagnostics, afterStart_marker, startsWith_marker, blank, ih]
  | @blank line lines symbols notes blank _ ih =>
    have other : Text.startsWith line marker = false := by
      by_contra starts
      obtain ⟨symbol, rfl⟩ := eq_marker_append (by simpa using starts)
      simp [not_isBlank_marker] at blank
    simp [references, diagnostics, Text.afterStart?, other, blank, ih]
  | note filled other _ ih => simp [references, diagnostics, Text.afterStart?, other, filled, ih]

/-! The number of a line. -/

/-- Decimal digits, perhaps behind a plus, of a number of 32 bits. -/
def IsNumber (text : String) (n : Nat) : Prop :=
  ∃ digits : List Char, digits ≠ [] ∧ (∀ c ∈ digits, c.isDigit = true) ∧
    (text.toList = digits ∨ text.toList = '+' :: digits) ∧
    n = Nat.ofDigitChars 10 digits 0 ∧ n < 0x100000000

theorem chars_number_eq_some {cs : List Char} {n : Nat} : Chars.number? cs = some n ↔
    cs ≠ [] ∧ (∀ c ∈ cs, c.isDigit = true) ∧ n = Nat.ofDigitChars 10 cs 0 := by
  simp only [Chars.number?, Nat.ofDigitChars_eq_foldl]
  split
  · rename_i refused
    simp only [reduceCtorEq, false_iff, not_and]
    intro filled digits
    simp [filled, List.all_eq_true.mpr digits] at refused
  · rename_i taken
    simp only [Bool.or_eq_true, List.isEmpty_iff, Bool.not_eq_true', not_or, Bool.not_eq_false,
      List.all_eq_true] at taken
    rw [Option.some.injEq, and_iff_right taken.1, and_iff_right taken.2, eq_comm]

theorem number?_eq_some {text : String} {n : Nat} : number? text = some n ↔ IsNumber text n := by
  have bounded : ∀ cs : List Char, (do
      let n ← Chars.number? cs
      if n < 0x100000000 then some n else none) = some n ↔ Chars.number? cs = some n ∧ n < 0x100000000 := by
    intro cs
    rcases Chars.number? cs with _ | m
    · simp
    · by_cases small : m < 0x100000000
      · simp only [Option.bind_eq_bind, Option.bind_some, small, if_true, Option.some.injEq]
        exact ⟨fun same => ⟨same, same ▸ small⟩, And.left⟩
      · simp only [Option.bind_eq_bind, Option.bind_some, small, if_false, reduceCtorEq, false_iff,
          Option.some.injEq, not_and]
        exact fun same => same ▸ small
  have plus : Char.isDigit '+' = false := by decide
  simp only [number?, bounded, IsNumber, chars_number_eq_some]
  split
  · rename_i rest signed
    rw [signed]
    constructor
    · rintro ⟨⟨filled, digits, value⟩, small⟩
      exact ⟨rest, filled, digits, .inr rfl, value, small⟩
    · rintro ⟨digits, filled, all, same | same, value, small⟩
      · subst same
        simp [plus] at all
      · obtain rfl := List.tail_eq_of_cons_eq same
        exact ⟨⟨filled, all, value⟩, small⟩
  · rename_i unsigned
    constructor
    · rintro ⟨⟨filled, digits, value⟩, small⟩
      exact ⟨_, filled, digits, .inl rfl, value, small⟩
    · rintro ⟨digits, filled, all, same | same, value, small⟩
      · subst same
        exact ⟨⟨filled, all, value⟩, small⟩
      · exact absurd same (unsigned digits)

theorem isNumber_toString {n : Nat} (small : n < 0x100000000) : IsNumber (toString n) n :=
  ⟨Nat.toDigits 10 n, Nat.toDigits_ne_nil,
    fun _ member => Nat.isDigit_of_mem_toDigits (by decide) (by decide) member,
    .inl Nat.toList_repr, Nat.ofDigitChars_ten_toDigits.symm, small⟩

theorem dark_of_isDigit {c : Char} (digit : c.isDigit = true) : Chars.isBlank c = false := by
  obtain ⟨low, high⟩ := Char.isDigit_iff_toNat.mp digit
  have least : '0'.toNat = 48 := rfl
  have most : '9'.toNat = 57 := rfl
  simp only [Chars.isBlank, Chars.blankRanges, List.any_cons, List.any_nil, Bool.or_false,
    Bool.or_eq_false_iff, Bool.and_eq_false_iff, decide_eq_false_iff_not]
  omega

theorem trim_toString (n : Nat) : Text.trim (toString n) = toString n := by
  have dark : ∀ c ∈ (toString n).toList, Chars.isBlank c = false := by
    intro c member
    rw [Nat.toString_eq_repr, Nat.toList_repr] at member
    exact dark_of_isDigit (Nat.isDigit_of_mem_toDigits (by decide) (by decide) member)
  have tight : Chars.Tight (toString n).toList :=
    ⟨fun c first => dark c (List.mem_of_head? first), fun c last => dark c (List.mem_of_getLast? last)⟩
  rw [Text.trim, Chars.trim_of_tight tight, String.ofList_toList]

/-! Why a program gave up. -/

/-- The last of some notes ends in a colon and the number of a line; the texts are the notes
without that. -/
def Locates (notes texts : List String) (n : Nat) : Prop :=
  ∃ others head tail, notes = others ++ [head ++ ":" ++ tail] ∧ ':' ∉ tail.toList ∧
    IsNumber (Text.trim tail) n ∧ texts = others ++ [head]

theorem cutNumber_eq_some {head : String} {n : Nat} : cutNumber? line = some (head, n) ↔
    ∃ tail, line = head ++ ":" ++ tail ∧ ':' ∉ tail.toList ∧ IsNumber (Text.trim tail) n := by
  simp only [cutNumber?, Option.bind_eq_bind, Option.pure_def, Option.bind_eq_some_iff,
    Option.some.injEq, Prod.mk.injEq, Prod.exists, Text.cutLast_eq_some, number?_eq_some]
  constructor
  · rintro ⟨front, tail, ⟨whole, last⟩, number, value, rfl, rfl⟩
    exact ⟨tail, String.toList_inj.mp (by simpa using whole), last, value⟩
  · rintro ⟨tail, rfl, last, value⟩
    exact ⟨head, tail, ⟨by simp, last⟩, n, value, rfl, rfl⟩

theorem rejection_of_locates {texts : List String} {n : Nat} (located : Locates notes texts n)
    (status : ExitStatus) : rejection notes status = .rejected (Text.join "; " texts) (some n) := by
  obtain ⟨others, head, tail, rfl, last, value, rfl⟩ := located
  have cut : cutNumber? (head ++ ":" ++ tail) = some (head, n) :=
    cutNumber_eq_some.mpr ⟨tail, rfl, last, value⟩
  simp [rejection, cut]

theorem rejection_of_not_locates (filled : notes ≠ []) (none : ∀ texts n, ¬ Locates notes texts n)
    (status : ExitStatus) : rejection notes status = .rejected (Text.join "; " notes) .none := by
  obtain ⟨others, last, rfl⟩ : ∃ others last, notes = others ++ [last] :=
    ⟨_, _, (List.dropLast_append_getLast filled).symm⟩
  have uncut : cutNumber? last = .none := by
    rcases cut : cutNumber? last with _ | ⟨head, n⟩
    · rfl
    · obtain ⟨tail, rfl, ends, value⟩ := cutNumber_eq_some.mp cut
      exact absurd ⟨others, head, tail, rfl, ends, value, rfl⟩ (none (others ++ [head]) n)
  simp [rejection, uncut]

/-! Notes that are read as they were printed. -/

/-- A line that asks for nothing and is read as one. -/
structure IsNote (line : String) : Prop where
  feed : '\n' ∉ line.toList
  carriage : '\r' ∉ line.toList
  filled : Text.isBlank line = false
  other : Text.startsWith line marker = false

theorem IsNote.ends (note : IsNote line) : Chars.Ends line.toList :=
  ⟨note.feed, fun last => note.carriage (List.mem_of_getLast? last)⟩

theorem diagnostics_of_notes (all : ∀ line ∈ notes, IsNote line) : diagnostics notes = notes := by
  rw [diagnostics, List.filter_eq_self]
  intro line member
  simp [(all line member).filled, (all line member).other]

theorem lines_of_notes (all : ∀ line ∈ notes, IsNote line) {closing : String}
    (closes : closing = "" ∨ closing = "\n" ∧ notes ≠ []) :
    Text.lines (Text.join "\n" notes ++ closing) = notes := by
  have ends : ∀ line ∈ notes, Chars.Ends line.toList := fun line member => (all line member).ends
  rcases closes with rfl | ⟨rfl, more⟩
  · rw [String.append_empty]
    refine Text.lines_join ends fun last => ?_
    simpa [Text.isBlank] using (all _ (List.mem_of_getLast? last)).filled
  · exact Text.lines_join_closed more ends

/-! Sessions. -/

variable {σ : Type} {answer : String → σ → Bool × σ} {disk : σ → Disk} {setDisk : Disk → σ → σ}

theorem run_ask (artifact : ByteArray) (symbols : List String) (s : σ) :
    (ask artifact symbols).run answer disk setDisk s =
      (.ok artifact, symbols.foldl (fun s symbol => (answer symbol s).2) s) := by
  induction symbols generalizing s with
  | nil => rfl
  | cons symbol rest ih => exact ih (answer symbol s).2

theorem run_service {programs : Programs} {spec : CommandSpec} {u : UnitSource} {s : σ}
    {f : Finished} {d : Disk} (calls : Nat)
    (ran : programs spec u.unit.logical u.content (disk s) = .ok (f, d)) :
    (service programs spec calls u).run answer disk setDisk s =
      (conclude f).run answer disk setDisk (setDisk d s) := by
  simp [service, Session.run, ran]

/-- A program that was started and has ended. If it ended well each symbol it asks for is asked for
once and in order, and its output is the artifact. Otherwise no symbol is asked for, and the source
is rejected: with the number behind the last colon of the last note, if there is one, and all notes
but that; else with all notes as they are. So notes printed with a number behind them are read as
these notes and that number. -/
theorem service_concludes {programs : Programs} {spec : CommandSpec} {u : UnitSource} {s : σ}
    {f : Finished} {d : Disk} (calls : Nat)
    (ran : programs spec u.unit.logical u.content (disk s) = .ok (f, d)) :
    ∃ symbols notes, Tells (Text.lines (Utf8.decodeLossy f.errors)) symbols notes ∧
      (f.status = .code 0 → (service programs spec calls u).run answer disk setDisk s =
        (.ok f.output, symbols.foldl (fun s symbol => (answer symbol s).2) (setDisk d s))) ∧
      (f.status ≠ .code 0 → ∃ message line, (service programs spec calls u).run answer disk setDisk s =
          (.error (.rejected message line), setDisk d s) ∧
        (∀ texts n, Locates notes texts n → message = Text.join "; " texts ∧ line = some n) ∧
        (notes ≠ [] → (∀ texts n, ¬ Locates notes texts n) →
          message = Text.join "; " notes ∧ line = none) ∧
        ∀ others head n closing, (∀ l ∈ others ++ [head ++ ":" ++ toString n], IsNote l) →
          n < 0x100000000 → closing = "" ∨ closing = "\n" →
          f.errors = (Text.join "\n" (others ++ [head ++ ":" ++ toString n]) ++ closing).toUTF8 →
          message = Text.join "; " (others ++ [head]) ∧ line = some n) := by
  refine ⟨_, _, tells_lines _, fun well => ?_, fun ill => ?_⟩
  · rw [run_service calls ran, conclude, if_pos well, run_ask]
  set notes := diagnostics (Text.lines (Utf8.decodeLossy f.errors)) with noted
  have failed : (service programs spec calls u).run answer disk setDisk s =
      (.error (rejection notes f.status), setDisk d s) := by
    rw [run_service calls ran, conclude, if_neg ill]
    rfl
  obtain ⟨message, line, reason⟩ : ∃ message line, rejection notes f.status =
      .rejected message line := by
    simp only [rejection]
    split
    · exact ⟨_, _, rfl⟩
    · split
      · exact ⟨_, _, rfl⟩
      · exact ⟨_, _, rfl⟩
  have located : ∀ texts n, Locates notes texts n →
      message = Text.join "; " texts ∧ line = some n := by
    intro texts n known
    rw [rejection_of_locates known] at reason
    obtain ⟨rfl, rfl⟩ := CompileError.rejected.inj reason
    exact ⟨rfl, rfl⟩
  refine ⟨message, line, reason ▸ failed, located, fun filled unknown => ?_, ?_⟩
  · rw [rejection_of_not_locates filled unknown] at reason
    obtain ⟨rfl, rfl⟩ := CompileError.rejected.inj reason
    exact ⟨rfl, rfl⟩
  · intro others head n closing all small closes printed
    have read : notes = others ++ [head ++ ":" ++ toString n] := by
      rw [noted, printed, Utf8.decodeLossy, Text.fromUTF8?_toUTF8]
      rw [lines_of_notes all (closes.imp_right fun same => ⟨same, by simp⟩),
        diagnostics_of_notes all]
    have clean : ':' ∉ (toString n).toList := by
      intro member
      rw [Nat.toString_eq_repr, Nat.toList_repr] at member
      have digit := Nat.isDigit_of_mem_toDigits (by decide) (by decide) member
      exact absurd digit (by decide)
    exact located _ n ⟨others, head, toString n, read, clean,
      (trim_toString n).symm ▸ isNumber_toString small, rfl⟩

/-- What a program that is hard to please says of any source: a symbol it needs, blanks, a line that
asks for nothing, and a fault. -/
def chatter : String := "@ref a\\B\r\nwarning: old style\n\n@ref  \nunexpected end: 12\n"

/-- It lets a source pass only if it is the main one. -/
def picky : Programs := fun _ name _ d =>
  .ok (⟨if name = "Main" then .code 0 else .code 2, "half".toUTF8, chatter.toUTF8⟩, d)

def pickyUnit (name : String) : UnitSource := ⟨.ofLogical name, .root 0 ⟨"/p/src/X.php"⟩, .empty⟩

/-- A host beside its disk keeps a list of what it was asked for. -/
def noteDown (symbol : String) (s : Disk × List String) : Bool × Disk × List String :=
  (true, s.1, s.2 ++ [symbol])

theorem service_concludes_picky :
    picky ⟨"cc", []⟩ "Main" .empty .empty = .ok (⟨.code 0, "half".toUTF8, chatter.toUTF8⟩, .empty) ∧
    (service picky ⟨"cc", []⟩ 0 (pickyUnit "Main")).run noteDown Prod.fst
        (fun d s => (d, s.2)) (.empty, []) = (.ok "half".toUTF8, .empty, ["a\\B"]) ∧
    (service picky ⟨"cc", []⟩ 1 (pickyUnit "Other")).run noteDown Prod.fst
        (fun d s => (d, s.2)) (.empty, []) =
      (.error (.rejected "warning: old style; unexpected end" (some 12)), .empty, []) := by
  have heard : Text.lines (Utf8.decodeLossy chatter.toUTF8) =
      ["@ref a\\B", "warning: old style", "", "@ref  ", "unexpected end: 12"] := by
    rw [Utf8.decodeLossy, Text.fromUTF8?_toUTF8]
    decide
  refine ⟨rfl, ?_, ?_⟩
  · obtain ⟨symbols, notes, told, well, _⟩ := @service_concludes _ noteDown Prod.fst
      (fun d s => (d, s.2)) picky ⟨"cc", []⟩ (pickyUnit "Main") (.empty, []) _ _ 0 rfl
    have asked : symbols = ["a\\B"] := by
      rw [told.unique.1, heard]
      decide
    rw [asked] at well
    exact well rfl
  · obtain ⟨symbols, notes, told, _, ill⟩ := @service_concludes _ noteDown Prod.fst
      (fun d s => (d, s.2)) picky ⟨"cc", []⟩ (pickyUnit "Other") (.empty, []) _ _ 1 rfl
    have noted : notes = ["warning: old style"] ++ ["unexpected end" ++ ":" ++ " 12"] := by
      rw [told.unique.2, heard]
      decide
    obtain ⟨message, line, failed, located, _⟩ := ill (by decide)
    have number : IsNumber (Text.trim " 12") 12 := number?_eq_some.mp (by decide)
    obtain ⟨rfl, rfl⟩ := located _ 12 ⟨_, _, _, noted, by decide, number, rfl⟩
    exact failed

end LayerCache.External
