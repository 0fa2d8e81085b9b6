import LayerCache.Compiler.Session
import LayerCache.Text.Ascii
import LayerCache.Text.Utf8

/-! A compiler that does what the lines of a source tell it to: ask for a symbol, reject the
source, break down. Its artifact is the source behind a mark. -/
namespace LayerCache.Scripted

def mark : ByteArray := "BC:".toUTF8

/-- Follows lines, numbered from the given one. -/
def follow (u : UnitSource) : Nat → List String → Session
  | _, [] => .finish (mark ++ u.content)
  | n, line :: rest =>
    let order := Text.trim line
    match Text.afterStart? "use " order with
    | some symbol => .resolve (Text.trim symbol) fun _ => follow u (n + 1) rest
    | none =>
      if order = "fail" then .fail (.rejected "syntax error" (some n))
      else if order = "panic" then
        .breakdown (some ("scripted compiler panic in " ++ toString u.unit))
      else follow u (n + 1) rest

def service : Service := fun _ u => follow u 1 (Text.lines (Utf8.decodeLossy u.content))

end LayerCache.Scripted
