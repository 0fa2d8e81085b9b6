import LayerCache.Disk.Basic

/-! Paths made plain: absolute, and free of dots and links. -/
namespace LayerCache.Disk

/-- How much of a path has to be there. -/
inductive Presence where
  | all
  | allButLast
  | nothing
  deriving DecidableEq, Repr

/-- Links are left alone, or taken over by what resolves them. -/
abbrev Links := Option (Place → List String → Except Fault Place)

/-- A step in place needs a folder to stay in. -/
def staysIn (d : Disk) (presence : Presence) (done : Place) : Bool :=
  presence = .nothing || match d.entryAt done with
    | some .folder => true
    | some (.link _) => d.isFolder ⟨"/" ++ Text.join "/" done⟩
    | some _ => false
    | none => presence = .allButLast

def resolveFrom (d : Disk) (presence : Presence) (links : Links) (done : Place) :
    List String → Except Fault Place
  | [] => .ok done
  | name :: rest =>
    if name = "" ∨ name = "." then
      if d.staysIn presence done then resolveFrom d presence links done rest
      else .error .notFolder
    else if name = ".." then
      if d.staysIn presence done then resolveFrom d presence links done.dropLast rest
      else .error .notFolder
    else if presence ≠ .nothing ∧ longestName < name.utf8ByteSize then .error .nameTooLong
    else
      let next := done ++ [name]
      match d.entryAt next with
      | none =>
        if presence = .nothing then resolveFrom d presence links next rest
        else if presence = .allButLast ∧ rest.all (· = "") then .ok next
        else .error .notFound
      | some (.link target) => match links with
        | none => resolveFrom d presence links next rest
        | some jump => match jump (if target.isAbsolute then [] else done) (target.steps ++ rest) with
          | .error .tooManyLinks =>
            if presence = .nothing then resolveFrom d presence links next rest
            else .error .tooManyLinks
          | result => result
      | some .folder => resolveFrom d presence links next rest
      | some _ =>
        if rest.isEmpty ∨ presence = .nothing then resolveFrom d presence links next rest
        else .error .notFolder

/-- Resolves names with at most the given number of links on the way. -/
def resolveLinks (d : Disk) (presence : Presence) : Nat → Place → List String → Except Fault Place
  | 0 => resolveFrom d presence (some fun _ _ => .error .tooManyLinks)
  | n + 1 => resolveFrom d presence (some (resolveLinks d presence n))

def resolve (d : Disk) (presence : Presence) (follows : Bool) (p : Path) : Except Fault Place :=
  let start := if p.isAbsolute then [] else d.here
  if p.text = "" then .error .notFound
  else if follows then resolveLinks d presence mostLinks start p.steps
  else resolveFrom d presence none start p.steps

/-- The names that lead from one folder to a place. -/
def wayFrom (folder place : Place) : Place :=
  let shared := ((folder.zip place).takeWhile fun (a, b) => a = b).length
  List.replicate (folder.length - shared) ".." ++ place.drop shared

end LayerCache.Disk
