import LayerCache.Shell.Program.Dump

/-! Bytes written as letters that survive anywhere, and read from them. -/
namespace LayerCache.Program

/-- A code: letters that stand for some bits each, in groups that are filled up at the end. -/
structure Code where
  letters : List Char
  bits : Nat
  /-- How many letters make a group. -/
  group : Nat
  /-- Whether groups that are not full are filled up. -/
  filled : Bool := true
  /-- Whether the lowest bit of a byte comes first. -/
  lowestFirst : Bool := false

namespace Code

def base64 : Code :=
  ⟨"ABCDEFGHIJKLMNOPQRSTUVWXYZabcdefghijklmnopqrstuvwxyz0123456789+/".toList, 6, 4, true, false⟩

def base64url : Code :=
  { base64 with letters := base64.letters.map fun c =>
      if c = '+' then '-' else if c = '/' then '_' else c }

def base32 : Code := ⟨"ABCDEFGHIJKLMNOPQRSTUVWXYZ234567".toList, 5, 8, true, false⟩

def base32hex : Code := { base32 with letters := "0123456789ABCDEFGHIJKLMNOPQRSTUV".toList }

def base16 : Code := ⟨"0123456789ABCDEF".toList, 4, 2, false, false⟩

def base2 : Code := ⟨['0', '1'], 1, 8, false, false⟩

def bitsOf (count n : Nat) : List Bool :=
  ((List.range count).map fun i => n / Nat.pow 2 i % 2 == 1).reverse

def ofBits (bits : List Bool) : Nat := bits.foldl (fun n b => 2 * n + b.toNat) 0

def byteBits (code : Code) (c : Char) : List Bool :=
  let bits := bitsOf 8 c.toNat
  if code.lowestFirst then bits.reverse else bits

/-- Bytes that fill whole groups. -/
def groupBytes (code : Code) : Nat := code.group * code.bits / 8

def encodeGroup (code : Code) (bytes : List Char) : List Char :=
  let bits := bytes.flatMap code.byteBits
  let pieces := chunks code.bits bits.length bits
  let letters := pieces.map fun piece =>
    let whole := piece ++ List.replicate (code.bits - piece.length) false
    (code.letters[ofBits whole]?).getD '='
  letters ++ List.replicate (code.group - letters.length) '='

def encode (code : Code) (bytes : List Char) : List Char :=
  (chunks (max 1 code.groupBytes) bytes.length bytes).flatMap code.encodeGroup

/-- The bytes of a group of letters; whether it is a group of the code. -/
def decodeGroup (code : Code) (letters : List Char) : List Char × Bool :=
  let plain := letters.takeWhile fun c => code.letters.contains c
  let rest := letters.drop plain.length
  let bits := plain.flatMap fun c => bitsOf code.bits (code.letters.idxOf c)
  let bytes := (chunks 8 bits.length bits).filter (·.length = 8)
  let shown := bytes.map fun b => Char.ofNat (ofBits (if code.lowestFirst then b.reverse else b))
  let isFull := letters.length = code.group
  if rest.isEmpty then (if isFull || code.bits != 5 then shown else [], isFull)
  else
    let spare := plain.length * code.bits - 8 * bytes.length
    let good := isFull && code.filled && rest.all (· = '=') && spare < code.bits && 0 < bytes.length
    (shown, good)

/-- Bytes of groups of letters, up to the first that is no group. -/
def decode (code : Code) : Nat → List Char → List Char × Bool
  | 0, _ => ([], true)
  | _ + 1, [] => ([], true)
  | fuel + 1, cs =>
    let (bytes, good) := code.decodeGroup (cs.take code.group)
    if good then
      let (others, good) := decode code fuel (cs.drop code.group)
      (bytes ++ others, good)
    else (bytes, false)

end Code

namespace Code85

def letters : List Char :=
  ("0123456789abcdefghijklmnopqrstuvwxyzABCDEFGHIJKLMNOPQRSTUVWXYZ.-:+=^!/*?&<>()[]" ++
    "\x7b\x7d@%$#").toList

/-- Five letters for four bytes. -/
def encode : List Char → List Char
  | a :: b :: c :: d :: rest =>
    let n := ((a.toNat * 256 + b.toNat) * 256 + c.toNat) * 256 + d.toNat
    (([52200625, 614125, 7225, 85, 1] : List Nat).map fun k => (letters[n / k % 85]?).getD '0') ++
      encode rest
  | _ => []

def decode : List Char → List Char × Bool
  | a :: b :: c :: d :: e :: rest =>
    match [a, b, c, d, e].mapM letters.idxOf? with
    | some digits =>
      let n := digits.foldl (fun n d => n * 85 + d) 0
      let (others, good) := decode rest
      ([n / 16777216, n / 65536, n / 256, n].map (fun n => Char.ofNat (n % 256)) ++ others, good)
    | none => ([], false)
  | [] => ([], true)
  | _ => ([], false)

end Code85

/-- Writes letters in lines of some width. -/
def printWrapped (width : Nat) (letters : List Char) : Work Unit :=
  if width = 0 then print letters else (chunks width letters.length letters).forM printLine

/-- Encodes or decodes a file or the input. -/
def recode (p : Process) (o : Options) (code : Code) (is85 : Bool) : Work Unit := do
  let width? := (o.value? 'w').map (Sizes.ofText "")
  match width?, o.operands with
  | some (.error _), _ =>
    complain p ("invalid wrap size: " ++ quoted ((o.value? 'w').getD ""))
  | _, _ :: other :: _ => askForHelp p ("extra operand " ++ quotedFile other)
  | width?, operands =>
    let width := match width? with
      | some (.ok n) => n
      | _ => 76
    match ← readFile (operands.head?.getD "-") with
    | .error fault =>
      let name := operands.head?.getD "-"
      if name = "-" || fault = .isFolder then complain p ("read error: " ++ fault.reason)
      else complain p (because name fault.reason)
    | .ok text =>
      if o.has 'd' then
        let known := if is85 then Code85.letters else code.letters
        let text := if o.has 'i' then
            text.filter fun c => known.contains c || (c = '=' && code.filled)
          else text.filter (· != '\n')
        let (bytes, good) := if is85 then Code85.decode text
          else code.decode (text.length + 1) text
        print bytes
        if !good then complain p "invalid input"
      else if is85 && text.length % 4 != 0 then do
        printWrapped width (Code85.encode text)
        complain p "invalid input (length must be multiple of 4 characters)"
      else printWrapped width (if is85 then Code85.encode text else code.encode text)

def codeOptions : List (String × Char) :=
  [("decode", 'd'), ("ignore-garbage", 'i'), ("wrap=", 'w')]

def encodeAs (p : Process) (code : Code) : Work Unit :=
  withOptions p ⟨"di", "w", codeOptions, true, ""⟩ fun o => recode p o code false

/-- Any code, by an option. -/
def encodeAny (p : Process) : Work Unit :=
  withOptions p ⟨"di", "w", codeOptions ++ [("base64", '1'), ("base64url", '2'), ("base32", '3'),
      ("base32hex", '4'), ("base16", '5'), ("base2msbf", '6'), ("base2lsbf", '7'),
      ("z85", '8')], true, ""⟩ fun o => match o.last? "12345678" with
    | none => askForHelp p "missing encoding type"
    | some (c, _) => match c with
      | '1' => recode p o .base64 false
      | '2' => recode p o .base64url false
      | '3' => recode p o .base32 false
      | '4' => recode p o .base32hex false
      | '5' => recode p o .base16 false
      | '6' => recode p o .base2 false
      | '7' => recode p o { Code.base2 with lowestFirst := true } false
      | _ => recode p o .base2 true

end LayerCache.Program
