import LayerCache.Disk.Basic

/-! What every system has on its disk: folders, programs, devices. -/
namespace LayerCache.Disk

/-- The names programs are started by. -/
def programNames : List String :=
  ["[", "arch", "b2sum", "base32", "base64", "basename", "basenc", "bash", "cat", "chgrp", "chmod",
    "chown", "cksum", "cmp", "comm", "cp", "csplit", "cut", "dash", "date", "dd", "diff", "dir",
    "dirname", "echo", "egrep", "env", "expand", "expr", "factor", "false", "fgrep", "find", "fmt",
    "fold", "grep", "groups", "head", "hostid", "id", "install", "join", "link", "ln", "logname",
    "ls", "mawk", "md5sum", "mkdir", "mkfifo", "mktemp", "mv", "nice", "nl", "nohup", "nproc",
    "numfmt", "od", "paste", "pathchk", "pr", "printenv", "printf", "pwd", "readlink", "realpath",
    "rev", "rm", "rmdir", "sed", "seq", "sha1sum", "sha224sum", "sha256sum", "sha384sum",
    "sha512sum", "shuf", "sleep", "sort", "split", "stat", "stdbuf", "sum", "sync", "tac", "tail",
    "tee", "test", "timeout", "touch", "tr", "true", "truncate", "tsort", "tty", "uname",
    "unexpand", "uniq", "unlink", "vdir", "wc", "whoami", "xargs", "yes"]

def folderOfPrograms : Place := ["usr", "bin"]

/-- Where it is told which of several programs a name stands for. -/
def folderOfChoices : Place := ["etc", "alternatives"]

def systemFolders : List Place :=
  [["dev"], ["etc"], folderOfChoices, ["home"], ["proc"], ["root"], ["tmp"], ["usr"],
    folderOfPrograms, ["var"]]

/-- A name that goes by way of a choice to the file of a program. -/
def chosen (name file : String) : List (Place × Entry) :=
  [(folderOfPrograms ++ [name], .link ⟨"/etc/alternatives/" ++ name⟩),
    (folderOfChoices ++ [name], .link ⟨"/usr/bin/" ++ file⟩)]

/-- Other names of a folder of programs are links to it. -/
def systemEntries : List (Place × Entry) :=
  systemFolders.map (·, .folder) ++
    programNames.map (fun n => (folderOfPrograms ++ [n], .program n)) ++
    chosen "awk" "mawk" ++ chosen "nawk" "mawk" ++ chosen "which" "which.debianutils" ++
    [(folderOfPrograms ++ ["which.debianutils"], .program "which"),
      (folderOfPrograms ++ ["sh"], .link ⟨"dash"⟩)] ++
    [(["bin"], .link ⟨"usr/bin"⟩), (["dev", "full"], .device .full),
      (["dev", "null"], .device .null), (["dev", "random"], .device .zero),
      (["dev", "urandom"], .device .zero), (["dev", "zero"], .device .zero),
      (["etc", "passwd"], .file 0 "root:x:0:0:root:/root:/bin/sh\n".toUTF8)]

def system : Disk :=
  { entries := systemEntries.foldl (fun entries (place, entry) => entries.insert place entry) .empty
    here := []
    fresh := 1 }

end LayerCache.Disk
