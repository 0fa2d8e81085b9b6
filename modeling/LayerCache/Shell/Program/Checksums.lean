import LayerCache.Shell.Program.Encode
import LayerCache.Shell.Program.Sums

/-! Programs that print digests of files and check files against them. -/
namespace LayerCache.Program

namespace Checksums

inductive Method where
  | turning
  | folded
  | remainder
  | md5
  | sha1
  | sha224
  | sha256
  | sha384
  | sha512
  | blake
  deriving DecidableEq, Repr

namespace Method

/-- Methods by the names that options give them. -/
def words : List (List String × Option Method) :=
  [(["bsd"], some turning), (["sysv"], some folded), (["crc"], some remainder),
    (["md5"], some md5), (["sha1"], some sha1), (["sha224"], some sha224),
    (["sha256"], some sha256), (["sha384"], some sha384), (["sha512"], some sha512),
    (["blake2b"], some blake), (["sm3"], none)]

/-- What digests of a method are called in front of them. -/
def tag : Method → String
  | md5 => "MD5"
  | sha1 => "SHA1"
  | sha224 => "SHA224"
  | sha256 => "SHA256"
  | sha384 => "SHA384"
  | sha512 => "SHA512"
  | blake => "BLAKE2b"
  | turning | folded | remainder => ""

/-- How many bytes a digest has, unless another number is asked for. -/
def size : Method → Nat
  | md5 => 16
  | sha1 => 20
  | sha224 => 28
  | sha256 => 32
  | sha384 => 48
  | sha512 | blake => 64
  | turning | folded => 2
  | remainder => 4

def digest (m : Method) (size : Nat) (bytes : List Nat) : List Nat :=
  match m with
  | turning => Words.toBytes 2 (Sums.turning bytes)
  | folded => Words.toBytes 2 (Sums.folded bytes)
  | remainder => Words.toBytes 4 (Sums.remainder bytes)
  | md5 => Md5.digest bytes
  | sha1 => Sha.digest160 bytes
  | sha224 => Sha.digest224 bytes
  | sha256 => Sha.digest256 bytes
  | sha384 => Sha.digest384 bytes
  | sha512 => Sha.digest512 bytes
  | blake => Blake.digest size bytes

def isSum (m : Method) : Bool := m = turning || m = folded || m = remainder

end Method

def hex (bytes : List Nat) : String :=
  String.ofList (bytes.flatMap fun b => digitsIn 16 2 b)

def bytesOf (text : List Char) : List Nat := text.map Char.toNat

/-- Characters of a name that would break its line, as escapes. -/
def escapedName (name : String) : String :=
  String.ofList (name.toList.flatMap fun c =>
    if c = '\\' then ['\\', '\\'] else if c = '\n' then ['\\', 'n']
    else if c = '\r' then ['\\', 'r'] else [c])

/-- A name from its escapes. -/
def plainName? : List Char → Option (List Char)
  | [] => some []
  | '\\' :: 'n' :: rest => (plainName? rest).map ('\n' :: ·)
  | '\\' :: 'r' :: rest => (plainName? rest).map ('\r' :: ·)
  | '\\' :: '\\' :: rest => (plainName? rest).map ('\\' :: ·)
  | '\\' :: _ => none
  | c :: rest => (plainName? rest).map (c :: ·)

/-- How digests are printed. -/
structure Style where
  method : Method
  size : Nat
  tagged : Bool
  binary : Bool
  zero : Bool
  inLetters : Bool := false
  raw : Bool := false

def Style.tag (s : Style) : String :=
  if s.method = .blake && s.size != 64 then s.method.tag ++ "-" ++ toString (s.size * 8)
  else s.method.tag

def Style.shown (s : Style) (bytes : List Nat) : String :=
  if s.inLetters then String.ofList (Code.base64.encode (bytes.map Char.ofNat)) else hex bytes

/-- One line of output. A sum stands before the size of what it is of. -/
def Style.line (s : Style) (named : Bool) (name : String) (text : List Char) : List Char :=
  let digest := s.method.digest s.size (bytesOf text)
  if s.raw then digest.map Char.ofNat
  else
    let ending := if s.zero then Char.ofNat 0 else '\n'
    let behind := if named then " " ++ name else ""
    let above (n m : Nat) : Nat := (n + m - 1) / m
    let padded (width : Nat) (filler : Char) (n : Nat) : String :=
      String.ofList (Chars.padLeft width (toString n).toList filler)
    let body := match s.method with
      | .remainder => toString (Words.ofBytes digest) ++ " " ++ toString text.length ++ behind
      | .turning => padded 5 '0' (Words.ofBytes digest) ++ " " ++
          padded 5 ' ' (above text.length 1024) ++ behind
      | .folded => toString (Words.ofBytes digest) ++ " " ++ toString (above text.length 512) ++
          behind
      | _ =>
        let escapes := !s.zero && escapedName name != name
        let name := if s.zero then name else escapedName name
        (if escapes then "\\" else "") ++
          if s.tagged then s.tag ++ " (" ++ name ++ ") = " ++ s.shown digest
          else s.shown digest ++ (if s.binary then " *" else "  ") ++ name
    body.toList ++ [ending]

/-- A line to be checked: how its digest was made, the digest, and the name of the file. -/
structure Claim where
  method : Method
  size : Nat
  digest : String
  name : String

def isHex (c : Char) : Bool := c.isDigit || ('a' ≤ c.toLower && c.toLower ≤ 'f')

/-- A line that begins with the name of its method. -/
def tagged? (only : Option Method) (cs : List Char) : Option Claim := do
  let tag := cs.takeWhile (· != ' ')
  let base := tag.takeWhile (· != '-')
  let (_, method?) ← Method.words.find? fun (_, m) =>
    m.any fun m => m.tag.toList = base && !base.isEmpty
  let method ← method?
  if only.any (· != method) then none
  let size ← if base.length = tag.length then some method.size
    else (Chars.number? (tag.drop (base.length + 1))).map (· / 8)
  match cs.drop tag.length with
  | ' ' :: '(' :: rest =>
    let digest := (rest.reverse.takeWhile (· != ' ')).reverse
    let name := rest.take (rest.length - digest.length)
    if ") = ".toList.isSuffixOf name then
      let name := name.take (name.length - 4)
      return ⟨method, size, String.ofList digest, String.ofList name⟩
    none
  | _ => none

/-- A line of a digest and a name. -/
def bare? (method : Method) (cs : List Char) : Option Claim := do
  let cs := cs.dropWhile fun c => c = ' ' || c = '\t'
  let digest := cs.takeWhile isHex
  let size := digest.length / 2
  let fits := if method = .blake then digest.length % 2 = 0 && 0 < size && size ≤ 64
    else size = method.size && digest.length % 2 = 0
  if !fits then none
  match cs.drop digest.length with
  | ' ' :: mark :: name =>
    if (mark = ' ' || mark = '*') && !name.isEmpty then
      return ⟨method, size, String.ofList digest, String.ofList name⟩
    none
  | _ => none

def claim? (only : Option Method) (line : List Char) : Option Claim := do
  let (escaped, cs) := match line with
    | '\\' :: rest => (true, rest)
    | cs => (false, cs)
  let claim ← (tagged? only cs).or (only.bind fun m => bare? m cs)
  if escaped then return { claim with name := String.ofList (← plainName? claim.name.toList) }
  return claim

/-- What checking has found. -/
structure Tally where
  proper : Nat := 0
  improper : Nat := 0
  unread : Nat := 0
  different : Nat := 0
  matching : Nat := 0

def plural (n : Nat) (one many : String) : String :=
  toString n ++ " " ++ if n = 1 then one else many

/-- Says something without ending badly because of it. -/
def warn (p : Process) (text : String) : Work Unit :=
  write errors (p.name ++ ": " ++ text ++ "\n").toList

def checkLine (p : Process) (o : Options) (shown : String) (method? : Option Method) (number : Nat)
    (t : Tally) (line : List Char) : Work Tally := do
  let silent := o.last? "qSW" matches some ('S', _)
  let quiet := o.hasAny "qS"
  let line := (line.reverse.dropWhile (· = '\r')).reverse
  if line.head? = some '#' then return t
  match claim? method? line with
  | none =>
    if o.has 'w' then
      let tag := method?.elim "" Method.tag
      warn p (fileName shown ++ ": " ++ toString number ++ ": improperly formatted " ++
        (if tag = "" then "" else tag ++ " ") ++ "checksum line")
    return { t with improper := t.improper + 1 }
  | some claim =>
    let t := { t with proper := t.proper + 1 }
    let name := escapedName claim.name
    let lead := if name = claim.name then "" else "\\"
    match ← readFile claim.name with
    | .error fault =>
      if o.has 'I' && fault = .notFound then return t
      warn p (because claim.name fault.reason)
      if !silent then printLine (lead ++ name ++ ": FAILED open or read").toList
      return { t with unread := t.unread + 1 }
    | .ok text =>
      let digest := claim.method.digest claim.size (bytesOf text)
      let same := hex digest = claim.digest.toLower ||
        String.ofList (Code.base64.encode (digest.map Char.ofNat)) = claim.digest
      if same then
        if !quiet then printLine (lead ++ name ++ ": OK").toList
        return { t with matching := t.matching + 1 }
      else
        if !silent then printLine (lead ++ name ++ ": FAILED").toList
        return { t with different := t.different + 1 }

/-- Checks the lines of one file. -/
def check (p : Process) (o : Options) (method? : Option Method) (file : String) : Work Unit := do
  let shown := if file = "-" then "standard input" else file
  match ← readFile file with
  | .error fault => complain p (because file fault.reason)
  | .ok text =>
    let t ← (Chars.bareLines text).zipIdx.foldlM (fun t (line, i) =>
      checkLine p o shown method? (i + 1) t line) {}
    let silent := o.has 'S'
    if t.proper = 0 then
      complain p (fileName shown ++ ": no properly formatted checksum lines found")
    else
      if !silent then
        if t.improper != 0 then
          warn p ("WARNING: " ++ plural t.improper "line is improperly formatted"
            "lines are improperly formatted")
        if t.unread != 0 then
          warn p ("WARNING: " ++ plural t.unread "listed file could not be read"
            "listed files could not be read")
        if t.different != 0 then
          warn p ("WARNING: " ++ plural t.different "computed checksum did NOT match"
            "computed checksums did NOT match")
        if o.has 'I' && t.matching = 0 then warn p (fileName shown ++ ": no file was verified")
      let good := 0 < t.matching + t.different + t.unread && t.different = 0 && t.unread = 0 &&
        !(o.has 'i' && t.improper != 0) && (t.matching != 0 || !o.has 'I')
      if !good then finish 1

def usage : Usage where
  bare := "bctwz"
  long := [("binary", 'b'), ("check", 'c'), ("ignore-missing", 'I'), ("quiet", 'q'),
    ("status", 'S'), ("strict", 'i'), ("tag", 'T'), ("text", 't'), ("warn", 'w'), ("zero", 'z')]

/-- Options that mean something only when files are checked. -/
def checkOnly : List (Char × String) :=
  [('I', "ignore-missing"), ('S', "status"), ('w', "warn"), ('q', "quiet"), ('i', "strict")]

/-- What is wrong with options that were given together. -/
def conflict? (o : Options) : Option String :=
  let checks := o.has 'c'
  if o.has 'T' && o.has 't' then some "--tag does not support --text mode"
  else if o.has 'z' && checks then
    some "the --zero option is not supported when verifying checksums"
  else if o.has 'T' && checks then
    some "the --tag option is meaningless when verifying checksums"
  else if o.hasAny "bt" && checks then
    some "the --binary and --text options are meaningless when verifying checksums"
  else if checks then none
  else (checkOnly.find? fun (c, _) => o.has c).map fun (_, name) =>
    "the --" ++ name ++ " option is meaningful only when verifying checksums"

/-- Prints the digests of files. -/
def printAll (p : Process) (o : Options) (s : Style) : Work Unit :=
  (if o.operands.isEmpty then ["-"] else o.operands).forM fun file => do
    match ← readFile file with
    | .ok text => print (s.line (!o.operands.isEmpty) file text)
    | .error fault =>
      complain p (because file fault.reason)
      noteClosed p [file] "standard input"

/-- How many bytes a digest is to have. -/
def sizeFor (method : Method) (asked : Option String) : Except String Nat :=
  match asked with
  | none => .ok method.size
  | some text => match Sizes.ofText "" text with
    | .error _ => .error ("invalid length: " ++ quoted text)
    | .ok 0 => .ok method.size
    | .ok n =>
      if 512 < n then .error ("invalid length: " ++ quoted text ++
        "\nmaximum digest length for 'BLAKE2b' is 512 bits")
      else if n % 8 != 0 then .error ("invalid length: " ++ quoted text ++
        "\nlength is not a multiple of 8")
      else .ok (n / 8)

/-- A message of several lines, each behind the name of the program. -/
def complainLines (p : Process) (text : String) : Work Unit :=
  complain p (Text.join ("\n" ++ p.name ++ ": ") (Text.split '\n' text))

end Checksums

open Checksums in
/-- Prints or checks digests of one method. -/
def checksum (p : Process) (method : Method) : Work Unit :=
  let u := if method = .blake then
      { Checksums.usage with valued := "l", long := ("length=", 'l') :: Checksums.usage.long }
    else Checksums.usage
  withOptions p u fun o => match conflict? o, sizeFor method (o.value? 'l') with
    | some text, _ => askForHelp p text
    | none, .error text => complainLines p text
    | none, .ok size =>
      if o.has 'c' then
        (if o.operands.isEmpty then ["-"] else o.operands).forM (check p o (some method))
      else
        let binary := o.last? "bt" matches some ('b', _)
        printAll p o ⟨method, size, o.has 'T', binary, o.has 'z', false, false⟩

open Checksums in
/-- Prints or checks digests of any method. -/
def checksumAny (p : Process) : Work Unit :=
  withOptions p { Checksums.usage with
      valued := "al"
      long := [("algorithm=", 'a'), ("length=", 'l'), ("untagged", 'U'), ("base64", 'B'),
        ("raw", 'R'), ("debug", 'D')] ++ Checksums.usage.long } fun o =>
    let go (method? : Option Method) : Work Unit :=
      let method := method?.getD .remainder
      if (o.value? 'l').any (· != "0") && method != .blake then
        complain p "--length is only supported with --algorithm=blake2b"
      else if o.has 'c' && method?.any Method.isSum then
        complain p "--check is not supported with --algorithm=\x7bbsd,sysv,crc\x7d"
      else match conflict? { o with given := o.given.filter fun (c, _) => c != 'T' },
          sizeFor method (o.value? 'l') with
        | some text, _ => askForHelp p text
        | none, .error text => complainLines p text
        | none, .ok size =>
          if o.has 'c' then
            (if o.operands.isEmpty then ["-"] else o.operands).forM (check p o method?)
          else
            let untagged := o.last? "UT" matches some ('U', _)
            let binary := o.last? "bt" matches some ('b', _)
            printAll p o ⟨method, size, !untagged, binary, o.has 'z', o.has 'B', o.has 'R'⟩
    match o.value? 'a' with
    | none => go none
    | some word => withChoice p "algorithm" word Method.words fun
      | some m => go (some m)
      | none => pure ()

open Checksums in
/-- Prints short sums of files. -/
def shortSum (p : Process) : Work Unit :=
  withOptions p ⟨"rs", "", [("sysv", 's')], true, ""⟩ fun o =>
    let method := if o.last? "rs" matches some ('s', _) then Method.folded else .turning
    printAll p o ⟨method, 2, false, false, false, false, false⟩

end LayerCache.Program
