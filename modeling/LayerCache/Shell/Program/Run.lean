import LayerCache.Shell.Editor.Run
import LayerCache.Shell.Finding.Run
import LayerCache.Shell.Program.Access
import LayerCache.Shell.Program.Assertion
import LayerCache.Shell.Program.Basic
import LayerCache.Shell.Program.Blocks
import LayerCache.Shell.Program.Checksums
import LayerCache.Shell.Program.Columns
import LayerCache.Shell.Program.Condition
import LayerCache.Shell.Program.Count
import LayerCache.Shell.Program.Difference
import LayerCache.Shell.Program.Encode
import LayerCache.Shell.Program.Expression
import LayerCache.Shell.Program.Factors
import LayerCache.Shell.Program.Format
import LayerCache.Shell.Program.Identity
import LayerCache.Shell.Program.Items
import LayerCache.Shell.Program.Join
import LayerCache.Shell.Program.Linking
import LayerCache.Shell.Program.Listing
import LayerCache.Shell.Program.Numbering
import LayerCache.Shell.Program.Pages
import LayerCache.Shell.Program.Paragraphs
import LayerCache.Shell.Program.Parts
import LayerCache.Shell.Program.Pieces
import LayerCache.Shell.Program.Precedence
import LayerCache.Shell.Program.Resize
import LayerCache.Shell.Program.Revise
import LayerCache.Shell.Program.Search
import LayerCache.Shell.Program.Sections
import LayerCache.Shell.Program.Sequence
import LayerCache.Shell.Program.Shuffle
import LayerCache.Shell.Program.Sort
import LayerCache.Shell.Program.Transfer
import LayerCache.Shell.Program.Unique
import LayerCache.Shell.Program.Units
import LayerCache.Shell.Program.Width
import LayerCache.Shell.Rules.Start

/-! Output that is not taken: what programs say of it when they end. -/
namespace LayerCache.Program
namespace Refusal

/-- Programs whose lines are lost one by one, so that the reason is forgotten in the end. -/
def linewise : List String :=
  ["wc", "md5sum", "sha1sum", "sha224sum", "sha256sum", "sha384sum", "sha512sum", "b2sum", "cksum",
    "sum"]

/-- Programs that find their output closed even if they have nothing to write. -/
def attentive : List String := ["cat", "sed", "mawk"]

def lines (name : String) (fault : Fault) : List String :=
  let reason := fault.reason
  let isClosed := fault = .badDescriptor
  match name with
  | "sort" => ["fflush failed: 'standard output': " ++ reason, "write error"]
  | "find" => ["'standard output': " ++ reason,
      "write error" ++ if isClosed then ": " ++ reason else ""]
  | "tee" => ["'standard output': " ++ reason]
  | "diff" | "cmp" | "yes" => ["standard output: " ++ reason]
  | "sed" => [(if isClosed then "couldn't close" else "couldn't flush") ++ " stdout: " ++ reason]
  | "mawk" => ["close failed on file \"/dev/stdout\" (" ++ reason ++ ")"]
  | "which" => ["/usr/bin/which: 13: printf: printf: I/O error"]
  | "cat" => [(if isClosed then "standard output: " else "write error: ") ++ reason]
  | "rev" => if isClosed then [] else ["write error: " ++ reason]
  | name =>
    if linewise.contains name && !isClosed then ["write error"] else ["write error: " ++ reason]

def status (name : String) : Nat :=
  ([("ls", 2), ("dir", 2), ("vdir", 2), ("sort", 2), ("grep", 2), ("egrep", 2), ("fgrep", 2),
    ("diff", 2), ("cmp", 2), ("printenv", 2), ("mawk", 2), ("expr", 3), ("tty", 3), ("sed", 4),
    ("env", 125), ("nice", 125), ("nohup", 125), ("timeout", 125),
    ("stdbuf", 125)].lookup name).getD 1

/-- What a program leaves whose output cannot be written. -/
def apply (name : String) (p : Process) (o : Effects) : Effects :=
  match p.broken.lookup output with
  | none => o
  | some fault =>
    let tried := o.writes.any fun (stream, _) => stream = output
    let others := o.writes.filter fun (stream, _) => stream != output
    let said := lines name fault
    if !tried && !(fault = .badDescriptor && attentive.contains name) || said.isEmpty then
      { o with writes := others }
    else
      let called := if name = "egrep" || name = "fgrep" then "grep" else p.name
      let texts := said.map fun text =>
        if name = "which" then text ++ "\n" else called ++ ": " ++ text ++ "\n"
      { o with
        writes := (texts.map fun text => (errors, text.toList)).reverse ++ others
        ending := .code (status name) }

end Refusal
end LayerCache.Program

/-! Programs by their names. -/
namespace LayerCache.Program

/-- Programs that are also part of the shell. -/
def commonNames : List String := ["echo", "printf", "test", "[", "pwd", "true", "false"]

/-- What such programs do; within a script their dialect is another. -/
def common? (name : String) (inScript : Bool) (p : Process) : Option (Work Unit) :=
  match name with
  | "echo" => some (echo p inScript)
  | "printf" => some (printf p inScript)
  | "test" => some (if inScript then test p false else assert p false)
  | "[" => some (if inScript then test p true else assert p true)
  | "pwd" => some (printHere p)
  | "true" => some (finish 0)
  | "false" => some (finish 1)
  | _ => none

def onText? (name : String) (p : Process) : Option (Work Unit) :=
  match name with
  | "cat" => some (cat p)
  | "tac" => some (tac p)
  | "rev" => some (reverseLines p)
  | "nl" => some (numberLines p)
  | "head" => some (head p)
  | "tail" => some (tail p)
  | "wc" => some (wordCount p)
  | "cut" => some (cut p)
  | "fold" => some (fold p)
  | "pr" => some (paginate p)
  | "fmt" => some (fillParagraphs p)
  | "paste" => some (paste p)
  | "expand" => some (expand p)
  | "unexpand" => some (unexpand p)
  | "tr" => some (translate p)
  | "sort" => some (sort p)
  | "uniq" => some (unique p)
  | "cmp" => some (compareFiles p)
  | "diff" => some (revise p)
  | "comm" => some (compareLines p)
  | "join" => some (joinLines p)
  | "grep" => some (grep p)
  | "egrep" => some (grep p true)
  | "fgrep" => some (grep p false true)
  | "tee" => some (tee p)
  | "od" => some (dump p)
  | "base64" => some (encodeAs p .base64)
  | "base32" => some (encodeAs p .base32)
  | "basenc" => some (encodeAny p)
  | "md5sum" => some (checksum p .md5)
  | "sha1sum" => some (checksum p .sha1)
  | "sha224sum" => some (checksum p .sha224)
  | "sha256sum" => some (checksum p .sha256)
  | "sha384sum" => some (checksum p .sha384)
  | "sha512sum" => some (checksum p .sha512)
  | "b2sum" => some (checksum p .blake)
  | "cksum" => some (checksumAny p)
  | "sum" => some (shortSum p)
  | "dd" => some (copyBlocks p)
  | _ => none

def onFiles? (name : String) (p : Process) : Option (Work Unit) :=
  match name with
  | "rm" => some (remove p)
  | "rmdir" => some (removeFolder p)
  | "mkdir" => some (makeFolder p)
  | "ls" => some (list p .single .literal)
  | "dir" => some (list p .down .escape)
  | "vdir" => some (list p .long .escape)
  | "stat" => some (tellFacts p)
  | "touch" => some (touch p)
  | "unlink" => some (unlink p)
  | "mkfifo" => some (makePipe p)
  | "chmod" => some (changeMode p)
  | "chown" => some (changeOwner p false)
  | "chgrp" => some (changeOwner p true)
  | "cp" => some (copy p)
  | "mv" => some (move p)
  | "install" => some (install p)
  | "ln" => some (link p)
  | "link" => some (linkPlainly p)
  | "readlink" => some (readLink p)
  | "realpath" => some (realPath p)
  | "basename" => some (baseName p)
  | "dirname" => some (folderName p)
  | "pathchk" => some (checkNames p)
  | "truncate" => some (truncate p)
  | "csplit" => some (splitAtMarks p)
  | "mktemp" => some (makeTemporary p)
  | _ => none

def onSystem? (name : String) (p : Process) : Option (Work Unit) :=
  match name with
  | "id" => some (identity p)
  | "whoami" => some (tellLine p "root")
  | "groups" => some (tellGroups p)
  | "logname" => some (tellLogin p)
  | "tty" => some (tellTerminal p)
  | "uname" => some (tellSystem p)
  | "arch" => some (tellLine p "x86_64")
  | "hostid" => some (tellLine p "00000000")
  | "nproc" => some (countProcessors p)
  | "which" => some (whereIs p)
  | "yes" => some (repeatLine p)
  | "sync" => some (synchronize p)
  | "date" => some (date p)
  | "sleep" => some (sleep p)
  | _ => none

def onOthers? (launch : Launch) (name : String) (p : Process) : Option (Work Unit) :=
  match name with
  | "env" => some (environment launch p)
  | "printenv" => some (printBindings p)
  | "nice" => some (nice launch p)
  | "nohup" => some (nohup launch p)
  | "timeout" => some (timeout launch p)
  | "find" => some (find launch p)
  | "sed" => some (Editor.sed launch p)
  | "xargs" => some (forItems launch p)
  | "expr" => some (expr p)
  | "seq" => some (sequence p)
  | "factor" => some (factor p)
  | "tsort" => some (sortByPrecedence p)
  | "numfmt" => some (convertUnits p)
  | "shuf" => some (shuffle p)
  | "split" => some (splitFile launch p)
  | "stdbuf" => some (withBuffers launch p)
  | "awk" | "mawk" | "nawk" => some (Rules.applyRules launch p)
  | _ => none

/-- Runs a program; one that is unknown does nothing. -/
def perform (launch : Launch) (name : String) (p : Process) : Effects :=
  let known := [common? name false p, onText? name p, onFiles? name p, onSystem? name p,
    onOthers? launch name p]
  Refusal.apply name p (run p ((known.findSome? id).getD (pure ())))

end LayerCache.Program
