import LayerCache.Json.Reader
import LayerCache.Json.Basic
import Mathlib.Data.List.Forall2

/-! What is written is read back. A written value is read up to its end, whatever follows it there,
so values are put together from values. -/
namespace LayerCache.Json

/-! White space. -/

theorem skipSpace_append {blanks cs : List Char} (blank : ∀ c ∈ blanks, isSpace c = true) :
    skipSpace (blanks ++ cs) = skipSpace cs := by
  induction blanks with
  | nil => rfl
  | cons c rest ih =>
    have here := blank c (by simp)
    rw [List.cons_append, skipSpace, List.dropWhile_cons_of_pos here]
    exact ih fun d member => blank d (by simp [member])

theorem skipSpace_newLine (depth : Nat) (cs : List Char) :
    skipSpace (newLine depth ++ cs) = skipSpace cs := by
  apply skipSpace_append
  intro c member
  simp only [newLine, List.mem_cons, List.mem_replicate] at member
  rcases member with rfl | ⟨_, rfl⟩
  · decide
  · decide

theorem skipSpace_cons {c : Char} (dark : isSpace c = false) (cs : List Char) :
    skipSpace (c :: cs) = c :: cs := List.dropWhile_cons_of_neg (by simp [dark])

/-- Space before a value does not matter. -/
theorem readValue_congr {cs ds : List Char} (same : skipSpace cs = skipSpace ds) (steps : Nat) :
    readValue steps cs = readValue steps ds := by
  cases steps with
  | zero => rfl
  | succ steps => simp only [readValue, same]

theorem readValue_newLine (steps depth : Nat) (cs : List Char) :
    readValue steps (newLine depth ++ cs) = readValue steps cs :=
  readValue_congr (skipSpace_newLine depth cs) steps

/-! Texts. -/

@[simp] theorem afterHalf_none (read : Option Quoted) : afterHalf none read = read := by
  rcases read with _ | _ <;> rfl

theorem readQuoted_escaped {c e : Char} (known : escaped e = some c) (plain : e ≠ 'u')
    (rest : List Char) : readQuoted none ('\\' :: e :: rest) = consChar c (readQuoted none rest) := by
  simp [readQuoted, plain, known]

theorem readQuoted_quotedChar (c : Char) (rest : List Char) :
    readQuoted none (quotedChar c ++ rest) = consChar c (readQuoted none rest) := by
  have whole : Char.ofNat c.toNat = c := Char.ofNat_toNat c
  simp only [quotedChar]
  split
  · rename_i same
    exact readQuoted_escaped (by rw [same]; rfl) (by decide) rest
  rename_i unquoted
  split
  · rename_i same
    exact readQuoted_escaped (by rw [same]; rfl) (by decide) rest
  rename_i straight
  split
  · rename_i same
    exact readQuoted_escaped (by rw [← whole, same]; rfl) (by decide) rest
  split
  · rename_i same
    exact readQuoted_escaped (by rw [← whole, same]; rfl) (by decide) rest
  split
  · rename_i same
    exact readQuoted_escaped (by rw [same]; rfl) (by decide) rest
  split
  · rename_i same
    exact readQuoted_escaped (by rw [same]; rfl) (by decide) rest
  split
  · rename_i same
    exact readQuoted_escaped (by rw [same]; rfl) (by decide) rest
  split
  · rename_i control
    have hex : ∀ n, n < 32 → hex4 '0' '0' (lowHex (n / 16)) (lowHex (n % 16)) = some n ∧
        isHighHalf n = false ∧ isLowHalf n = false := by decide
    obtain ⟨value, high, low⟩ := hex c.toNat control
    simp [readQuoted, value, high, low, whole]
  · rename_i shown
    simp only [List.singleton_append]
    simp [straight, shown, readQuoted]

theorem readQuoted_quoted (cs rest : List Char) :
    readQuoted none (cs.flatMap quotedChar ++ '"' :: rest) = some (some cs, rest) := by
  induction cs with
  | nil => simp [readQuoted]
  | cons c cs ih =>
    rw [List.flatMap_cons, List.append_assoc, readQuoted_quotedChar, ih]
    rfl

/-! Values. -/

/-- What may follow a value: an end of line, a comma or nothing. -/
def Stops : List Char → Prop
  | [] => True
  | c :: _ => c = ',' ∨ c = '\n'

/-- A text that is read as a value, whatever may follow it. -/
def Reads (value : Json) (cs : List Char) : Prop :=
  ∀ steps rest, 2 * cs.length ≤ steps → Stops rest →
    readValue steps (cs ++ rest) = some (value, rest)

theorem readText_quote (s : String) (rest : List Char) :
    readText (s.toList.flatMap quotedChar ++ '"' :: rest) = some (some s, rest) := by
  simp [readText, readQuoted_quoted]

theorem reads_quote (s : String) : Reads (text (some s)) (quote s) := by
  intro steps rest long _
  obtain ⟨steps, rfl⟩ := Nat.exists_eq_add_one_of_ne_zero (n := steps) (by
    simp only [quote, List.length_append, List.length_cons] at long
    omega)
  have read := readText_quote s rest
  simp only [quote, List.cons_append, List.append_assoc, List.nil_append, readValue,
    skipSpace_cons (show isSpace '"' = false by decide), read, Option.map_some]

theorem readDigits_append {ds rest : List Char} (filled : ds ≠ [])
    (digits : ∀ c ∈ ds, isDigit c = true) (lean : ds.head? = some '0' → ds = ['0'])
    (stops : Stops rest) : readDigits (ds ++ rest) = some (ds, rest) := by
  have after : ∀ c ∈ rest.head?, isDigit c = false := by
    intro c first
    rcases rest with _ | ⟨d, more⟩
    · cases first
    · cases first
      rcases stops with rfl | rfl
      · decide
      · decide
  have taken : (ds ++ rest).takeWhile isDigit = ds := by
    rw [List.takeWhile_append_of_pos digits]
    rcases rest with _ | ⟨d, more⟩
    · simp
    · rw [List.takeWhile_cons_of_neg (by simp [after d rfl]), List.append_nil]
  have dropped : (ds ++ rest).dropWhile isDigit = rest := by
    rw [List.dropWhile_append_of_pos digits]
    rcases rest with _ | ⟨d, more⟩
    · rfl
    · exact List.dropWhile_cons_of_neg (by simp [after d rfl])
  rcases ds with _ | ⟨c, tail⟩
  · exact absurd rfl filled
  by_cases zero : c = '0'
  · have alone := lean (by simp [zero])
    rw [alone]
    rcases rest with _ | ⟨d, more⟩
    · rfl
    · simp [readDigits, after d rfl]
  · have first := digits c (by simp)
    rw [List.cons_append] at taken dropped ⊢
    simp [readDigits, first, taken, dropped]

theorem dropFraction_stops {rest : List Char} (stops : Stops rest) :
    dropFraction rest = some rest := by
  rcases rest with _ | ⟨c, more⟩
  · rfl
  · rcases stops with rfl | rfl
    · rfl
    · rfl

theorem dropExponent_stops {rest : List Char} (stops : Stops rest) :
    dropExponent rest = some rest := by
  rcases rest with _ | ⟨c, more⟩
  · rfl
  · rcases stops with rfl | rfl
    · rfl
    · rfl

/-- A number that a byte may be. -/
theorem reads_byte {n : Nat} (byte : n < 256) : Reads (count n) (toString n).toList := by
  have all : ∀ n, n < 256 → ((toString n).toList.all isDigit = true ∧
      digitsValue (toString n).toList = n) ∧
      (toString n).toList ≠ [] ∧ ((toString n).toList.head? = some '0' →
        (toString n).toList = ['0']) := by decide +kernel
  obtain ⟨⟨digits, value⟩, filled, lean⟩ := all n byte
  generalize (toString n).toList = ds at digits value filled lean
  intro steps rest long stops
  obtain ⟨steps, rfl⟩ := Nat.exists_eq_add_one_of_ne_zero (n := steps) (by
    have := List.length_pos_iff.mpr filled
    omega)
  have read := readDigits_append filled (by simpa using digits) lean stops
  rcases ds with _ | ⟨c, tail⟩
  · exact absurd rfl filled
  have first : isDigit c = true := (Bool.and_eq_true_iff.mp digits).1
  have other : ∀ d, isDigit d = false → c ≠ d := by
    rintro d none rfl
    rw [first] at none
    cases none
  have dark : isSpace c = false := by
    simp [isSpace, other ' ' (by decide), other '\n' (by decide), other '\t' (by decide),
      other '\r' (by decide)]
  rw [List.cons_append] at read
  have number : readNumber (c :: (tail ++ rest)) = some (count n, rest) := by
    simp [readNumber, other '-' (by decide), read, dropFraction_stops stops,
      dropExponent_stops stops, value]
  simp [readValue, skipSpace_cons dark, other 'n' (by decide), other 't' (by decide),
    other 'f' (by decide), other '"' (by decide), other '[' (by decide), other '\x7b' (by decide),
    number]

/-! Collections. -/

/-- What stands behind the first member of a collection. -/
def behind (closing : Char) (depth : Nat) (members : List (List Char)) : List Char :=
  members.flatMap (fun m => ',' :: newLine (depth + 1) ++ m) ++ newLine depth ++ [closing]

theorem enclosed_cons (opening closing : Char) (depth : Nat) (member : List Char)
    (members : List (List Char)) : enclosed opening closing depth (member :: members) =
      opening :: (newLine (depth + 1) ++ (member ++ behind closing depth members)) := by
  simp only [enclosed, behind, List.cons_append, List.append_assoc]

theorem behind_cons (closing : Char) (depth : Nat) (member : List Char)
    (members : List (List Char)) (rest : List Char) :
    behind closing depth (member :: members) ++ rest =
      ',' :: (newLine (depth + 1) ++ (member ++ (behind closing depth members ++ rest))) := by
  simp only [behind, List.flatMap_cons, List.cons_append, List.append_assoc]

theorem behind_nil (closing : Char) (depth : Nat) (rest : List Char) :
    behind closing depth [] ++ rest = newLine depth ++ closing :: rest := by
  simp [behind]

theorem stops_behind (closing : Char) (depth : Nat) (members : List (List Char))
    (rest : List Char) : Stops (behind closing depth members ++ rest) := by
  cases members with
  | nil => exact .inr rfl
  | cons member members => exact .inl rfl

/-- No value begins with a closing bracket. -/
theorem Reads.opens {value : Json} {cs rest : List Char} (reads : Reads value cs)
    (stops : Stops rest) (more : List Char) : skipSpace (cs ++ rest) ≠ ']' :: more := by
  intro closed
  have read := reads (2 * cs.length + 1) rest (by omega) stops
  simp [readValue, closed, readNumber, readDigits, isDigit] at read

theorem readItems_written {item : Json} {member : List Char} {items : List Json}
    {members : List (List Char)} (depth : Nat) (first : Reads item member)
    (others : List.Forall₂ Reads items members) {steps : Nat} (rest : List Char)
    (long : 2 * (newLine (depth + 1) ++ (member ++ behind ']' depth members)).length ≤ steps) :
    readItems steps (newLine (depth + 1) ++ (member ++ (behind ']' depth members ++ rest))) =
      some (item :: items, rest) := by
  obtain ⟨steps, rfl⟩ := Nat.exists_eq_add_one_of_ne_zero (n := steps) (by
    simp only [newLine, List.cons_append, List.length_cons] at long
    omega)
  have short : 2 * member.length ≤ steps := by
    simp only [newLine, List.cons_append, List.length_cons, List.length_append] at long
    omega
  induction others generalizing item member steps with
  | nil =>
    rw [readItems, readValue_newLine, first steps _ short (stops_behind ..), behind_nil]
    simp only [skipSpace_newLine, skipSpace_cons (show isSpace ']' = false by decide)]
  | @cons next text items members reads more ih =>
    have less : 2 * (newLine (depth + 1) ++ (text ++ behind ']' depth members)).length ≤ steps := by
      have whole := congrArg List.length (behind_cons ']' depth text members [])
      simp only [List.append_nil, List.length_append, List.length_cons] at whole long ⊢
      omega
    obtain ⟨steps, rfl⟩ := Nat.exists_eq_add_one_of_ne_zero (n := steps) (by
      simp only [newLine, List.cons_append, List.length_cons] at less
      omega)
    have later := ih reads steps less (by
      simp only [newLine, List.cons_append, List.length_cons, List.length_append] at less
      omega)
    rw [readItems, readValue_newLine, first (steps + 1) _ short (stops_behind ..), behind_cons]
    simp only [skipSpace_cons (show isSpace ',' = false by decide), later, Option.map_some]

theorem reads_array {items : List Json} {members : List (List Char)} (depth : Nat)
    (reads : List.Forall₂ Reads items members) : Reads (array items) (writeArray depth members) := by
  intro steps rest long stops
  cases reads with
  | nil =>
    obtain ⟨steps, rfl⟩ := Nat.exists_eq_add_one_of_ne_zero (n := steps) (by
      simp only [writeArray, enclosed, List.length_cons] at long
      omega)
    simp [writeArray, enclosed, readValue, skipSpace_cons (show isSpace '[' = false by decide),
      skipSpace_cons (show isSpace ']' = false by decide)]
  | @cons item member items members first others =>
    rw [writeArray, enclosed_cons, List.length_cons] at long
    obtain ⟨steps, rfl⟩ := Nat.exists_eq_add_one_of_ne_zero (n := steps) (by omega)
    have inner := readItems_written depth first others rest (show 2 * _ ≤ steps by omega)
    have opens := first.opens (stops_behind ']' depth members rest)
    simp only [writeArray, enclosed_cons, List.cons_append, List.append_assoc, readValue,
      skipSpace_cons (show isSpace '[' = false by decide), skipSpace_newLine]
    rw [inner]
    rfl

/-- An object over keys that are texts. -/
def ofFields (fields : List (String × Json)) : Json :=
  object (fields.map fun (key, value) => (some key, value))

/-- A text that is read as a field. -/
def ReadsField (read : String × Json) (cs : List Char) : Prop :=
  ∃ value, cs = field read.1 value ∧ Reads read.2 value

/-- What a field and the rest of its object read as, once the rest of a text that a comma opens is
read as `others` and the brace ends the object. -/
theorem readFields_field {read : String × Json} {member rest : List Char}
    (reads : ReadsField read member) (stops : Stops rest) {steps : Nat}
    (long : 2 * member.length ≤ steps) (depth : Nat) :
    (∀ more, skipSpace rest = ',' :: more →
      readFields (steps + 1) (newLine depth ++ (member ++ rest)) =
        (readFields steps more).map fun others =>
          ((some read.1, read.2) :: others.1, others.2)) ∧
    (∀ more, skipSpace rest = '\x7d' :: more →
      readFields (steps + 1) (newLine depth ++ (member ++ rest)) =
        some ([(some read.1, read.2)], more)) := by
  obtain ⟨value, rfl, reads⟩ := reads
  have short : 2 * value.length ≤ steps := by
    simp only [field, List.length_append, List.length_cons] at long
    omega
  have blank : readValue steps (' ' :: (value ++ rest)) = readValue steps (value ++ rest) :=
    readValue_congr (by simp [skipSpace, isSpace]) steps
  constructor
  all_goals
    intro more follows
    simp only [field, quote, List.cons_append, List.append_assoc, List.nil_append, readFields,
      skipSpace_newLine, skipSpace_cons (show isSpace '"' = false by decide), readText_quote,
      skipSpace_cons (show isSpace ':' = false by decide), blank, reads steps rest short stops,
      follows]

theorem readFields_written {read : String × Json} {member : List Char}
    {fields : List (String × Json)} {members : List (List Char)} (depth : Nat)
    (first : ReadsField read member) (others : List.Forall₂ ReadsField fields members) {steps : Nat}
    (rest : List Char)
    (long : 2 * (newLine (depth + 1) ++ (member ++ behind '\x7d' depth members)).length ≤ steps) :
    readFields steps (newLine (depth + 1) ++ (member ++ (behind '\x7d' depth members ++ rest))) =
      some ((read :: fields).map fun (key, value) => (some key, value), rest) := by
  obtain ⟨steps, rfl⟩ := Nat.exists_eq_add_one_of_ne_zero (n := steps) (by
    simp only [newLine, List.cons_append, List.length_cons] at long
    omega)
  have short : 2 * member.length ≤ steps := by
    simp only [newLine, List.cons_append, List.length_cons, List.length_append] at long
    omega
  induction others generalizing read member steps with
  | nil =>
    have ends : skipSpace (behind '\x7d' depth [] ++ rest) = '\x7d' :: rest := by
      rw [behind_nil, skipSpace_newLine, skipSpace_cons (show isSpace '\x7d' = false by decide)]
    rw [(readFields_field first (stops_behind ..) short (depth + 1)).2 rest ends]
    rfl
  | @cons next text fields members reads more ih =>
    have less : 2 * (newLine (depth + 1) ++ (text ++ behind '\x7d' depth members)).length ≤
        steps := by
      have whole := congrArg List.length (behind_cons '\x7d' depth text members [])
      simp only [List.append_nil, List.length_append, List.length_cons] at whole long ⊢
      omega
    obtain ⟨steps, rfl⟩ := Nat.exists_eq_add_one_of_ne_zero (n := steps) (by
      simp only [newLine, List.cons_append, List.length_cons] at less
      omega)
    have later := ih reads steps less (by
      simp only [newLine, List.cons_append, List.length_cons, List.length_append] at less
      omega)
    have goes : skipSpace (behind '\x7d' depth (text :: members) ++ rest) =
        ',' :: (newLine (depth + 1) ++ (text ++ (behind '\x7d' depth members ++ rest))) := by
      rw [behind_cons, skipSpace_cons (show isSpace ',' = false by decide)]
    rw [(readFields_field first (stops_behind ..) short (depth + 1)).1 _ goes]
    simp only [later, Option.map_some, List.map_cons]

theorem reads_object {fields : List (String × Json)} {members : List (List Char)} (depth : Nat)
    (reads : List.Forall₂ ReadsField fields members) :
    Reads (ofFields fields) (writeObject depth members) := by
  intro steps rest long stops
  cases reads with
  | nil =>
    obtain ⟨steps, rfl⟩ := Nat.exists_eq_add_one_of_ne_zero (n := steps) (by
      simp only [writeObject, enclosed, List.length_cons] at long
      omega)
    simp [writeObject, enclosed, readValue, skipSpace_cons (show isSpace '\x7b' = false by decide),
      skipSpace_cons (show isSpace '\x7d' = false by decide), ofFields]
  | @cons read member fields members first others =>
    rw [writeObject, enclosed_cons, List.length_cons] at long
    obtain ⟨steps, rfl⟩ := Nat.exists_eq_add_one_of_ne_zero (n := steps) (by omega)
    have inner := readFields_written depth first others rest (show 2 * _ ≤ steps by omega)
    have opens : ∀ more, skipSpace (member ++ (behind '\x7d' depth members ++ rest)) ≠
        '\x7d' :: more := by
      obtain ⟨value, rfl, _⟩ := first
      intro more
      simp only [field, quote, List.cons_append]
      rw [skipSpace_cons (show isSpace '"' = false by decide)]
      simp
    simp only [writeObject, enclosed_cons, List.cons_append, List.append_assoc, readValue,
      skipSpace_cons (show isSpace '\x7b' = false by decide), skipSpace_newLine]
    rw [inner]
    rfl

/-- A whole text that is read as a value. -/
theorem parse_of_reads {value : Json} {cs : List Char} (reads : Reads value cs) :
    parse (String.ofList cs) = some value := by
  have read := reads (2 * cs.length + 2) [] (by omega) trivial
  rw [List.append_nil] at read
  simp [parse, read, skipSpace]

end LayerCache.Json
