import LayerCache.Shell.Program.Options
import LayerCache.Shell.Regex.Reader

/-! Programs that pass lines on as they are, with marks, or turned round. -/
namespace LayerCache.Program

/-- A character as it is shown where control characters must be seen. -/
def visible (c : Char) : List Char :=
  let high := 128 ≤ c.toNat
  let n := c.toNat % 128
  (if high then ['M', '-'] else []) ++
    if n < 32 then ['^', Char.ofNat (n + 64)] else if n = 127 then ['^', '?'] else [Char.ofNat n]

structure LineStyle where
  numbersAll : Bool
  numbersFilled : Bool
  squeezes : Bool
  showsEnds : Bool
  showsTabs : Bool
  showsControls : Bool

namespace LineStyle

/-- A line in this style. A return right before the end is seen wherever the end is. -/
def shown (s : LineStyle) : List Char → List Char
  | [] => []
  | '\r' :: '\n' :: rest =>
    (if s.showsEnds || s.showsControls then ['^', 'M'] else ['\r']) ++ shown s ('\n' :: rest)
  | c :: rest =>
    (if c = '\n' then if s.showsEnds then ['$', c] else [c]
      else if c = '\t' then if s.showsTabs then ['^', 'I'] else [c]
      else if s.showsControls then visible c
      else [c]) ++ shown s rest

/-- Lines in this style, counted from a number; `blank` tells that the last one was empty. -/
def styled (s : LineStyle) : Nat → Bool → List (List Char) → List (List Char)
  | _, _, [] => []
  | n, blank, line :: rest =>
    let isBlank := line = ['\n']
    if s.squeezes && blank && isBlank then styled s n true rest
    else if s.numbersFilled && !isBlank || s.numbersAll && !s.numbersFilled then
      (Chars.padLeft 6 (naturals n) ++ '\t' :: s.shown line) :: styled s (n + 1) isBlank rest
    else s.shown line :: styled s n isBlank rest

end LineStyle

def catUsage : Usage where
  bare := "AbeEnstTuv"
  long := [("number-nonblank", 'b'), ("number", 'n'), ("squeeze-blank", 's'),
    ("show-nonprinting", 'v'), ("show-ends", 'E'), ("show-tabs", 'T'), ("show-all", 'A')]

def cat (p : Process) : Work Unit :=
  withOptions p catUsage fun o => do
    let any (letters : String) := o.hasAny letters
    let style : LineStyle :=
      ⟨o.has 'n', o.has 'b', o.has 's', any "AeE", any "AtT", any "Aetv"⟩
    if any "AbeEnstTv" then
      let _ ← showJoined p o.operands fun text =>
        (style.styled 1 false (Chars.wholeLines text)).flatten
    else eachFile p o.operands because fun _ text => print text
    noteClosed p o.operands "closing standard input"

/-- Cuts a text before places that increase. -/
def cutAt (text : List Char) (places : List Nat) : List (List Char) :=
  let (parts, last) := places.reverse.foldl (fun (parts, rest) i =>
    (rest.drop i :: parts, rest.take i)) ([], text)
  (last :: parts).filter (!·.isEmpty)

/-- Where separators begin, looked for from the end on so that none overlap. -/
def separatorsFromEnd (separator : List Char) (text : List Char) : List Nat :=
  let size := separator.length
  let starts := (List.range text.length).filter fun i => separator.isPrefixOf (text.drop i)
  starts.reverse.foldl (fun (limit, found) i =>
    if i + size ≤ limit then (i, i :: found) else (limit, found)) (text.length, []) |>.2

/-- Where matches begin and end, looked for from the end on. -/
def matchesFromEnd (r : Regex) (text : List Char) : List (Nat × Nat) :=
  (List.range text.length).reverse.foldl (fun (limit, found) i =>
    let t : Subject := ⟨(text.take limit).toArray, false⟩
    match if i < limit then Regex.matchAt t r i else none with
    | some m => if m.stop = i then (limit, found) else (i, (i, m.stop) :: found)
    | none => (limit, found)) (text.length, []) |>.2

/-- The records of a text, each of which ends or begins with a separator. -/
def recordsOf (before : Bool) (ends : List (Nat × Nat)) (text : List Char) : List (List Char) :=
  cutAt text (ends.map fun (start, stop) => if before then start else stop)

def tacUsage : Usage where
  bare := "br"
  valued := "s"
  long := [("before", 'b'), ("regex", 'r'), ("separator=", 's')]

/-- Shows the records of each file from the last to the first. -/
def tac (p : Process) : Work Unit :=
  withOptions p tacUsage fun o => errorsFirst do
    let separator := match ((o.value? 's').getD "\n").toList with
      | [] => [Char.ofNat 0]
      | cs => cs
    let regex := if o.has 'r' then some (Regex.parse .mixed separator) else none
    let size := separator.length
    let wording (file reason : String) :=
      let shown := if file = "-" then "'standard input'" else fileName file
      if reason = Fault.isFolder.reason then shown ++ ": read error: Invalid argument"
      else if file = "-" then shown ++ ": read error: " ++ reason
      else "failed to open " ++ quotedFile file ++ " for reading: " ++ reason
    match regex with
    | some (.error flaw) => complain p flaw.message
    | some (.ok r) =>
      if o.value? 's' = some "" then complain p "separator cannot be empty"
      else
        eachFile p o.operands wording fun _ text =>
          (recordsOf (o.has 'b') (matchesFromEnd r text) text).reverse.forM print
        noteClosed p o.operands "-"
    | none =>
      eachFile p o.operands wording fun _ text =>
        if o.has 'b' || size != 1 then
          let places := (separatorsFromEnd separator text).map fun i => (i, i + size)
          (recordsOf (o.has 'b') places text).reverse.forM print
        else (Chars.wholeRecords (separator.headD '\n') text).reverse.forM print
      noteClosed p o.operands "-"

/-- Shows every line from its end to its beginning. -/
def reverseLines (p : Process) : Work Unit :=
  withOptions p { bare := "0", long := [("zero", '0')] } fun o => errorsFirst <|
    let ending := if o.has '0' then Char.ofNat 0 else '\n'
    eachFile p o.operands (fun file reason =>
        (if file = "-" then "stdin: " else "cannot open " ++ file ++ ": ") ++ reason) fun _ text =>
      (Chars.wholeRecords ending text).forM fun line =>
        print ((Chars.bareRecord ending line).reverse ++
          if line.getLast? = some ending then [ending] else [])

/-- Copies its input to its output and to files. -/
def tee (p : Process) : Work Unit :=
  withOptions p ⟨"aip", "", [("append", 'a')], true, ""⟩ fun o => do
    let text := (← takeInput p "read error").getD []
    o.operands.forM fun name => do
      let adds := o.has 'a' && (streamOf? name).isNone
      let old := ((← get).disk.read (path name)).toOption.elim [] Octets.ofBytes
      match ← saveFile name (if adds then old ++ text else text) with
      | .ok () => pure ()
      | .error fault => complain p (because name fault.reason)
    print text
    noteClosed p [] "standard input"

end LayerCache.Program
