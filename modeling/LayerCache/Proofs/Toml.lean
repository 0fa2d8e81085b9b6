import LayerCache.Proofs.Dict
import LayerCache.Toml.Reader
import LayerCache.Toml.Writer

/-! A table is read as it was written where each of its values stands on the line of its key. Every
key can stand there: it is quoted where it has to be, and escaped where quotes alone do not do. -/
namespace LayerCache.Toml

/-! Quotes. -/

namespace Quoted

theorem isPlain_eq (c : Char) : isPlain c = !Writer.isControl c := by
  rw [Bool.eq_iff_iff]
  simp only [isPlain, Writer.isControl, Bool.or_eq_true, beq_iff_eq, Bool.and_eq_true,
    decide_eq_true_eq, Bool.not_eq_true', Bool.and_eq_false_iff, bne_eq_false_iff_eq,
    Bool.or_eq_false_iff, decide_eq_false_iff_not, beq_eq_false_iff_ne]
  exact or_congr Iff.rfl (and_congr (by omega) Iff.rfl)

theorem scalar_toNat (c : Char) : scalar c.toNat = some c := by
  have valid : c.toNat.isValidChar := c.valid
  rw [scalar, dif_pos valid]
  exact congrArg some (Char.ext UInt32.ofNat_toNat)

theorem basic_short {e c : Char} (known : escaped e = some c) (rest : List Char) :
    basic ('\\' :: e :: rest) = cons c (basic rest) := by
  have short : e ≠ 'u' ∧ e ≠ 'U' := by
    constructor
    all_goals
      rintro rfl
      cases known
  rw [basic, known]
  · exact fun _ _ _ _ _ same => absurd same short.1
  · exact fun _ _ _ _ _ _ _ _ _ same => absurd same short.2

/-- A character that is escaped where it has to be is read as itself. -/
theorem basic_escape (c : Char) (rest : List Char) :
    basic (Writer.escape c ++ rest) = cons c (basic rest) := by
  have whole : Char.ofNat c.toNat = c := Char.ofNat_toNat c
  simp only [Writer.escape]
  split
  · rename_i same
    exact basic_short (by rw [← whole, same]; rfl) rest
  split
  · rename_i same
    exact basic_short (by rw [same]; rfl) rest
  split
  · rename_i same
    exact basic_short (by rw [same]; rfl) rest
  split
  · rename_i same
    exact basic_short (by rw [← whole, same]; rfl) rest
  split
  · rename_i same
    exact basic_short (by rw [same]; rfl) rest
  rename_i untabbed _ _ _
  split
  · rename_i same
    exact basic_short (by rw [same]; rfl) rest
  rename_i unquoted
  split
  · rename_i same
    exact basic_short (by rw [same]; rfl) rest
  rename_i straight
  split
  · rename_i control
    have hex : ∀ n, n < 128 →
        Json.hex4 '0' '0' (Writer.upperHex (n / 16)) (Writer.upperHex (n % 16)) = some n := by decide
    have value := hex c.toNat (by
      simp only [Bool.or_eq_true, decide_eq_true_eq, beq_iff_eq] at control
      omega)
    simp only [List.cons_append, List.nil_append, basic, consScalar, value, Option.bind_some,
      scalar_toNat]
  · rename_i shown
    have plain : isPlain c = true := by
      simp only [isPlain_eq, Writer.isControl, Bool.not_eq_true] at shown ⊢
      simp [shown]
    rw [List.singleton_append, basic.eq_def]
    split <;> simp_all

theorem basic_escaped (cs rest : List Char) :
    basic (cs.flatMap Writer.escape ++ '"' :: rest) = some (cs, rest) := by
  induction cs with
  | nil => rfl
  | cons c cs ih =>
    rw [List.flatMap_cons, List.append_assoc, basic_escape, ih]
    rfl

theorem escape_cons (c : Char) : ∃ d more, Writer.escape c = d :: more ∧ d ≠ '"' := by
  simp only [Writer.escape]
  repeat' split
  all_goals first
    | exact ⟨_, _, rfl, by decide⟩
    | exact ⟨_, _, rfl, by assumption⟩

/-- What is escaped does not begin with a quote, so the one in front is not tripled. -/
theorem read_single (cs rest : List Char) :
    read ('"' :: (cs.flatMap Writer.escape ++ '"' :: '\n' :: rest)) = some (cs, '\n' :: rest) := by
  rw [read]
  · exact basic_escaped cs _
  · intro more same
    rcases cs with _ | ⟨c, cs⟩
    · cases same
    · obtain ⟨d, after, cut, other⟩ := escape_cons c
      rw [List.flatMap_cons, cut] at same
      exact other (List.cons.inj same).1

theorem literal_plain {cs : List Char} (plain : ∀ c ∈ cs, isPlain c = true) (unquoted : '\'' ∉ cs)
    (rest : List Char) : literal (cs ++ '\'' :: rest) = some (cs, rest) := by
  induction cs with
  | nil => rfl
  | cons c cs ih =>
    have other : c ≠ '\'' := fun same => unquoted (by simp [same])
    have later := ih (fun d member => plain d (by simp [member])) fun member =>
      unquoted (by simp [member])
    rw [List.cons_append, literal, if_pos (plain c (by simp)), later]
    · rfl
    · exact fun same => absurd same other

end Quoted

/-! Keys. -/

open Writer (writeKey)

namespace Reader

theorem isBare_eq : Writer.isBare = isBare := rfl

theorem skipBlanks_cons {c : Char} (dark : c ≠ ' ' ∧ c ≠ '\t') (cs : Chars) :
    skipBlanks (c :: cs) = c :: cs := List.dropWhile_cons_of_neg (by simp [dark])

/-- What a key starts with. -/
def Opens (c : Char) : Prop := isBare c = true ∨ c = '"' ∨ c = '\''

theorem Opens.other {c other : Char} (opens : Opens c)
    (never : isBare other = false ∧ other ≠ '"' ∧ other ≠ '\'') : c ≠ other := by
  rintro rfl
  rcases opens with bare | same | same
  · exact absurd (never.1.symm.trans bare) (by simp)
  · exact never.2.1 same
  · exact never.2.2 same

theorem writeKey_cons (key : String) : ∃ c more, writeKey key = c :: more ∧ Opens c := by
  simp only [writeKey]
  split
  · rename_i bare
    rcases cut : key.toList with _ | ⟨c, more⟩
    · simp [cut] at bare
    · simp only [cut, List.all_cons, Bool.and_eq_true] at bare
      exact ⟨c, more, rfl, .inl bare.2.1⟩
  split
  · exact ⟨'"', _, rfl, .inr (.inl rfl)⟩
  split
  · exact ⟨'\'', _, rfl, .inr (.inr rfl)⟩
  · exact ⟨'"', _, rfl, .inr (.inl rfl)⟩

theorem simpleKey_bare {cs : Chars} (filled : cs ≠ []) (bare : ∀ c ∈ cs, isBare c = true)
    (rest : Chars) : simpleKey (cs ++ ' ' :: rest) = some (String.ofList cs, ' ' :: rest) := by
  have ends : isBare ' ' = false := by decide
  have taken : (cs ++ ' ' :: rest).takeWhile isBare = cs := by
    rw [List.takeWhile_append_of_pos bare, List.takeWhile_cons_of_neg (by simp [ends]),
      List.append_nil]
  have dropped : (cs ++ ' ' :: rest).dropWhile isBare = ' ' :: rest := by
    rw [List.dropWhile_append_of_pos bare, List.dropWhile_cons_of_neg (by simp [ends])]
  rcases cs with _ | ⟨c, more⟩
  · exact absurd rfl filled
  have opens := bare c (by simp)
  rw [List.cons_append] at taken dropped ⊢
  rw [simpleKey]
  · simp only [taken, dropped]
    rfl
  · rintro _ ⟨rfl, _⟩
    cases opens
  · rintro _ ⟨rfl, _⟩
    cases opens

theorem simpleKey_writeKey (key : String) (rest : Chars) :
    simpleKey (writeKey key ++ ' ' :: rest) = some (key, ' ' :: rest) := by
  have escaped : simpleKey ('"' :: key.toList.flatMap Writer.escape ++ ['"'] ++ ' ' :: rest) =
      some (key, ' ' :: rest) := by
    simp [simpleKey, Quoted.basic_escaped]
  simp only [writeKey]
  split
  · rename_i bare
    simp only [Bool.and_eq_true, Bool.not_eq_true', List.isEmpty_eq_false_iff, List.all_eq_true]
      at bare
    rw [simpleKey_bare bare.1 bare.2, String.ofList_toList]
  split
  · exact escaped
  split
  · rename_i plain
    simp only [Bool.and_eq_true, Bool.not_eq_true', List.any_eq_false, List.contains_eq_mem,
      decide_eq_false_iff_not] at plain
    have read := Quoted.literal_plain (fun c member => by
      rw [Quoted.isPlain_eq, Bool.not_eq_true']
      simpa using plain.1 c member) plain.2 (' ' :: rest)
    simp [simpleKey, read]
  · exact escaped

theorem key_writeKey (key : String) (rest : Chars) :
    Reader.key (writeKey key ++ " = ".toList ++ rest) = some ([], key, '=' :: ' ' :: rest) := by
  have dark : skipBlanks (writeKey key ++ " = ".toList ++ rest) =
      writeKey key ++ ' ' :: '=' :: ' ' :: rest := by
    obtain ⟨c, more, cut, opens⟩ := writeKey_cons key
    simp only [cut, List.append_assoc, List.cons_append]
    exact skipBlanks_cons ⟨opens.other (by decide), opens.other (by decide)⟩ _
  have blank : skipBlanks (' ' :: '=' :: ' ' :: rest) = '=' :: ' ' :: rest := rfl
  simp only [Reader.key, keys, dark, simpleKey_writeKey, Option.bind_eq_bind, Option.bind_some, blank]
  rfl

end Reader

/-! Lines. -/

/-- A value that is written on the line of its key and read from there. -/
structure OnLine (v : Toml) : Prop where
  plain : Writer.isPlain v = true
  arranged : arrange v = v
  revealed : reveal v = some v
  alone : ∀ path, Writer.sectionsOf path v = []
  read : ∀ rest, Reader.value Reader.deepest
    (Reader.skipBlanks (Writer.writeValue v ++ '\n' :: rest)) = some (v, '\n' :: rest)

theorem onLine_bool (b : Bool) : OnLine (.bool b) where
  plain := rfl
  arranged := rfl
  revealed := rfl
  alone _ := rfl
  read rest := by
    cases b with
    | false => rfl
    | true => rfl

/-- So is a text that needs nothing but quotes. -/
theorem onLine_text {s : String} (form : Writer.form (Writer.traits s.toList) = .basic) :
    OnLine (.text s) where
  plain := rfl
  arranged := rfl
  revealed := rfl
  alone _ := rfl
  read rest := by
    have written : Writer.writeValue (.text s) ++ '\n' :: rest =
        '"' :: (s.toList.flatMap Writer.escape ++ '"' :: '\n' :: rest) := by
      simp [Writer.writeValue, Writer.writeText, form]
    have single := Quoted.read_single s.toList rest
    rw [written, Reader.skipBlanks_cons (by decide)]
    simp [Reader.value, Reader.deepest, Reader.simple, single]

namespace Writer

/-- The line of a field. -/
def line (field : String × Toml) : List Char :=
  writeKey field.1 ++ " = ".toList ++ writeValue field.2 ++ ['\n']

end Writer

namespace Reader

variable {fields : Fields} {made : Items}

theorem lookup_eq_none {key : String} (absent : key ∉ made.map Prod.fst) :
    lookup key made = none := by
  induction made with
  | nil => rfl
  | cons item rest ih =>
    simp only [List.map_cons, List.mem_cons, not_or] at absent
    rw [lookup, if_neg (Ne.symm absent.1), ih absent.2]

theorem put_absent {key : String} {item : Item} (absent : key ∉ made.map Prod.fst) :
    put key item made = made ++ [(key, item)] := by
  induction made with
  | nil => rfl
  | cons first rest ih =>
    simp only [List.map_cons, List.mem_cons, not_or] at absent
    rw [put, if_neg (Ne.symm absent.1), ih absent.2]
    rfl

/-- A new key is added at the end of the table that is open. -/
theorem define_absent {key : String} {v : Toml} (absent : key ∉ made.map Prod.fst) :
    define [] key v made = some (made ++ [(key, .value v)]) := by
  simp [define, within, lookup_eq_none absent, put_absent absent]

theorem assignment_line {key : String} {v : Toml} (onLine : OnLine v) (rest : Chars) :
    assignment (value deepest)
      (writeKey key ++ " = ".toList ++ (Writer.writeValue v ++ '\n' :: rest)) =
        some ([], key, v, '\n' :: rest) := by
  have blank : ∀ cs, skipBlanks (' ' :: cs) = skipBlanks cs := fun _ => rfl
  simp only [assignment, key_writeKey, Option.bind_eq_bind, Option.bind_some, blank, onLine.read]
  rfl

/-- A line adds its field to the table that is open. -/
theorem lines_line {field : String × Toml} (onLine : OnLine field.2)
    (absent : field.1 ∉ made.map Prod.fst) (steps : Nat) (rest : Chars) :
    lines (steps + 1) [] (Writer.line field ++ rest) made =
      lines steps [] rest (made ++ [(field.1, .value field.2)]) := by
  obtain ⟨c, more, cut, opens⟩ := writeKey_cons field.1
  have whole : Writer.line field ++ rest =
      writeKey field.1 ++ " = ".toList ++ (Writer.writeValue field.2 ++ '\n' :: rest) := by
    simp [Writer.line]
  have first : ∃ tail, Writer.line field ++ rest = c :: tail := by
    rw [whole, cut]
    exact ⟨_, rfl⟩
  obtain ⟨tail, first⟩ := first
  have dark : skipBlanks (Writer.line field ++ rest) = Writer.line field ++ rest := by
    rw [first]
    exact skipBlanks_cons ⟨opens.other (by decide), opens.other (by decide)⟩ _
  have never : ∀ {d : Char} {after : Chars}, (isBare d = false ∧ d ≠ '"' ∧ d ≠ '\'') →
      Writer.line field ++ rest ≠ d :: after := by
    intro d after never same
    rw [first] at same
    exact opens.other never (List.cons.inj same).1
  rw [lines, dark]
  split
  · rename_i void
    rw [first] at void
    cases void
  · rename_i same
    exact absurd same (never (by decide))
  · rename_i same
    exact absurd same (never (by decide))
  · rename_i same
    exact absurd same (never (by decide))
  · rename_i same
    exact absurd same (never (by decide))
  · rename_i same
    exact absurd same (never (by decide))
  · rw [whole, assignment_line onLine]
    simp only [Option.bind_eq_bind, Option.bind_some, within, define_absent absent]
    rfl

theorem lines_fields (onLine : ∀ field ∈ fields, OnLine field.2)
    (distinct : (made.map Prod.fst ++ fields.map Prod.fst).Nodup) {steps : Nat}
    (enough : (fields.flatMap Writer.line).length < steps) :
    lines steps [] (fields.flatMap Writer.line) made =
      some (made ++ fields.map fun field => (field.1, .value field.2)) := by
  induction fields generalizing made steps with
  | nil =>
    obtain ⟨steps, rfl⟩ := Nat.exists_eq_add_one_of_ne_zero (n := steps) (by omega)
    simp [lines, skipBlanks]
  | cons field rest ih =>
    obtain ⟨steps, rfl⟩ := Nat.exists_eq_add_one_of_ne_zero (n := steps) (by omega)
    have absent : field.1 ∉ made.map Prod.fst := by
      rw [List.map_cons, List.nodup_append] at distinct
      exact fun member => distinct.2.2 _ member _ (by simp) rfl
    have ends : 0 < (Writer.line field).length := by
      simp only [Writer.line, List.length_append, List.length_singleton]
      omega
    rw [List.flatMap_cons, List.length_append] at enough
    rw [List.flatMap_cons, lines_line (onLine field (by simp)) absent,
      ih (fun other member => onLine other (by simp [member])) (by simpa using distinct) (by omega)]
    simp

theorem closeItems_values (fields : Fields) :
    closeItems (fields.map fun field => (field.1, .value field.2)) = fields := by
  induction fields with
  | nil => rfl
  | cons field rest ih =>
    rw [List.map_cons, closeItems, ih]
    rfl

end Reader

/-! Tables. -/

theorem arrangeFields_eq_map (fields : Fields) :
    arrangeFields fields = fields.map fun field => (field.1, arrange field.2) := by
  induction fields with
  | nil => rfl
  | cons field rest ih => rw [arrangeFields, ih, List.map_cons]

theorem revealFields_onLine {fields : Fields} (onLine : ∀ field ∈ fields, OnLine field.2) :
    revealFields fields = some fields := by
  induction fields with
  | nil => rfl
  | cons field rest ih =>
    rw [revealFields, (onLine field (by simp)).revealed, ih fun other member =>
      onLine other (by simp [member])]
    rfl

theorem render_onLine {table : Dict String Toml} (onLine : ∀ field ∈ table.pairs, OnLine field.2) :
    render table = String.ofList (table.pairs.flatMap Writer.line) := by
  have arranged : arrangeFields table.pairs = table.pairs := by
    rw [arrangeFields_eq_map]
    conv_rhs => rw [← List.map_id table.pairs]
    exact List.map_congr_left fun field member => by rw [(onLine field member).arranged]; rfl
  have plain : Writer.plainFields table.pairs = table.pairs :=
    List.filter_eq_self.mpr fun field member => (onLine field member).plain
  have alone : ∀ fields : Fields, (∀ field ∈ fields, OnLine field.2) →
      Writer.sectionsOfFields [] fields = [] := by
    intro fields onLine
    induction fields with
    | nil => rfl
    | cons field rest ih =>
      rw [Writer.sectionsOfFields, (onLine field (by simp)).alone, ih fun other member =>
        onLine other (by simp [member])]
      rfl
  simp only [render, arranged, Writer.Section.body, plain, alone _ onLine, Writer.writeSections,
    List.append_nil]
  rfl

theorem parse_unmarked {cs : List Char} (unmarked : ∀ c ∈ cs.head?, c.toNat ≠ 0xfeff) :
    parse (String.ofList cs) = (Reader.lines (cs.length + 1) [] cs []).map closeItems := by
  rw [parse, String.toList_ofList]
  cases cs with
  | nil => rfl
  | cons c rest =>
    simp only [if_neg (unmarked c rfl)]
    cases Reader.lines ((c :: rest).length + 1) [] (c :: rest) [] with
    | none => rfl
    | some _ => rfl

/-- A table whose values stand on the lines of their keys is read as it was written. -/
theorem parse_render {table : Dict String Toml} (sorted : table.Sorted)
    (onLine : ∀ field ∈ table.pairs, OnLine field.2) : parse (render table) = some table.pairs := by
  have distinct : (table.pairs.map Prod.fst).Nodup := sorted.imp String.ne_of_lt
  have unmarked : ∀ c ∈ (table.pairs.flatMap Writer.line).head?, c.toNat ≠ 0xfeff := by
    intro c first marked
    rcases fields : table.pairs with _ | ⟨field, rest⟩
    · simp [fields] at first
    · obtain ⟨d, more, cut, opens⟩ := Reader.writeKey_cons field.1
      obtain rfl : d = c := by simpa [fields, Writer.line, cut] using first
      have same : d = Char.ofNat 0xfeff := by rw [← marked, Char.ofNat_toNat]
      exact opens.other (by decide) same
  have read := @Reader.lines_fields table.pairs [] onLine (by simpa using distinct) _
    (Nat.lt_succ_self _)
  rw [render_onLine onLine, parse_unmarked unmarked, read, Option.map_some, List.nil_append,
    Reader.closeItems_values]

/-- The reader tells of a table that was written what the table holds, up to the order of the keys
in tables within it. -/
def ReadsBack (table : Dict String Toml) : Prop := ∃ fields,
  (parse (render table)).bind revealFields = some fields ∧
    arrangeFields (Dict.ofList fields).pairs = arrangeFields table.pairs

theorem readsBack_onLine {table : Dict String Toml} (sorted : table.Sorted)
    (onLine : ∀ field ∈ table.pairs, OnLine field.2) : ReadsBack table := by
  refine ⟨table.pairs, ?_, by rw [Dict.ofList_sorted (fun _ _ => String.lt_asymm) sorted]⟩
  rw [parse_render sorted onLine, Option.bind_some, revealFields_onLine onLine]

/-! What is told of a table does not depend on the order in the tables within it. -/

section

variable {table other : Dict String Toml} {key : String}
  (alike : arrangeFields table.pairs = arrangeFields other.pairs)

include alike

theorem render_congr : render table = render other := by
  simp only [render, alike]

theorem arrangeFields_insert (key : String) (v : Toml) : arrangeFields (table.insert key v).pairs =
    arrangeFields (other.insert key v).pairs := by
  have passes : ∀ fields : Fields, arrangeFields (Dict.insertIn key v fields) =
      Dict.insertIn key (arrange v) (arrangeFields fields) := by
    intro fields
    induction fields with
    | nil => rfl
    | cons field rest ih =>
      simp only [Dict.insertIn, arrangeFields]
      split
      · rfl
      split
      · rfl
      · rw [arrangeFields, ih]
  simp only [Dict.insert, passes, alike]

theorem find?_arrange : (table.find? key).map arrange = (other.find? key).map arrange := by
  have passes : ∀ fields : Fields, Dict.findIn key (arrangeFields fields) =
      (Dict.findIn key fields).map arrange := by
    intro fields
    induction fields with
    | nil => rfl
    | cons field rest ih =>
      simp only [Dict.findIn, arrangeFields]
      split
      · rfl
      · exact ih
  rw [Dict.find?, Dict.find?, ← passes, ← passes, alike]

end

end LayerCache.Toml
