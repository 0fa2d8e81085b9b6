import LayerCache.Build.Pass

/-! The order of a build: first the entry points with all they refer to, then what is left in each
root, then what is left of the generated sources, then what is left in archives. -/
namespace LayerCache.Pass

/-- Does a piece of work unless the build has been asked to stop. -/
def unlessStopped (plan : Plan) (work : Pass → Pass) (p : Pass) : Pass :=
  let (stop, p) := p.check plan
  if stop then p else work p

def enter (plan : Plan) (depth : Nat) (p : Pass) (symbol : String) : Pass :=
  p.unlessStopped plan fun p => (p.resolve plan depth symbol).2

/-- Compiles a candidate that is not tracked yet. -/
def take (plan : Plan) (depth : Nat) (c : Candidate) (goal : Destination) (p : Pass) : Pass :=
  compile plan (resolve plan depth) c goal { p with tracker := (p.tracker.mark c.unit).2 }

def alreadyResolved : String := "already resolved"

/-- A source that is shadowed by another root is left to that root. -/
def sweepSource (plan : Plan) (depth : Nat) (p : Pass) (f : SourceFile) : Pass :=
  p.unlessStopped plan fun p =>
    if p.tracker.has f.unit then p.skip f.unit alreadyResolved
    else match plan.roots.resolve p.disk f.unit with
      | some winner =>
        if winner.rank < f.rank then
          p.skip f.unit ("shadowed by root " ++ toString winner.rank)
        else p.take plan depth (.ofSource f) .cache
      | none => p.take plan depth (.ofSource f) .cache

/-- What a root holds is listed when its turn has come. -/
def sweepRoot (plan : Plan) (depth : Nat) (p : Pass) (root : SourceRoot) : Pass :=
  (plan.roots.sweep p.disk root).foldl (sweepSource plan depth) p

def sweepRoots (plan : Plan) (depth : Nat) (p : Pass) : Pass :=
  (plan.roots.roots.filter fun root => !root.generated).foldl (sweepRoot plan depth) p

def sweepGeneratedSource (plan : Plan) (depth : Nat) (p : Pass) (f : SourceFile) : Pass :=
  p.unlessStopped plan fun p =>
    if p.tracker.has f.unit then p.skip f.unit alreadyResolved
    else p.take plan depth (.ofSource f) (.beside (plan.besideSource f.path))

def sweepGenerated (plan : Plan) (depth : Nat) (p : Pass) : Pass :=
  match plan.roots.roots.find? (·.generated) with
  | some root => (plan.roots.sweep p.disk root).foldl (sweepGeneratedSource plan depth) p
  | none => p

/-- An artifact that is cached already is recorded and not made again. -/
def sweepEntry (plan : Plan) (depth : Nat) (archive : Path) (p : Pass) (entry : String) : Pass :=
  p.unlessStopped plan fun p =>
    let c := Candidate.ofEntry plan.roots.ending ⟨archive, entry⟩
    if p.tracker.has c.unit then p.skip c.unit alreadyResolved
    else match plan.cache.read p.disk c.unit with
      | some artifact => (p.skip c.unit "already cached").record c.unit c.origin artifact
      | none => p.take plan depth c .cache

def sweepArchive (plan : Plan) (depth : Nat) (p : Pass) (archive : Path) : Pass :=
  let (entries, archives) := p.archives.entries p.disk archive
  entries.foldl (sweepEntry plan depth archive) { p with archives }

def sweepArchives (plan : Plan) (depth : Nat) (p : Pass) : Pass :=
  p.archives.paths.foldl (sweepArchive plan depth) p

def sweep (plan : Plan) (depth : Nat) (entryPoints : List String) (p : Pass) : Pass :=
  let p := entryPoints.foldl (enter plan depth) p
  ((p.sweepRoots plan depth).sweepGenerated plan depth).sweepArchives plan depth

/-- Whether an earlier record still describes the cache: its unit was not taken up by this build,
and its artifact is the one recorded. -/
def stillHolds (plan : Plan) (p : Pass) (logical : String) (r : ArtifactRecord) : Bool :=
  let u := UnitId.ofSymbol logical
  !u.isEmpty && !p.tracker.has u &&
    (plan.cache.read p.disk u).any fun artifact => Digest.ofContent artifact == r.checksum

def carryOver (plan : Plan) (previous : Option Manifest) (p : Pass) : Pass :=
  match previous with
  | none => p
  | some m => { p with manifest := (p.manifest.carryOver m (p.stillHolds plan)).2 }

end LayerCache.Pass
