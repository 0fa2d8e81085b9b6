import LayerCache.Build.Log
import LayerCache.Cache.Artifacts
import LayerCache.Compiler.Session
import LayerCache.Sources.Roots
import LayerCache.UnitId

/-! The identities a build has taken up, in the order it did, each once. -/
namespace LayerCache

structure Tracker where
  units : List UnitId

namespace Tracker

def empty : Tracker := ⟨[]⟩

def has (t : Tracker) (u : UnitId) : Bool := t.units.any (· == u)

/-- Takes a unit up unless that was done before; tells which. -/
def mark (t : Tracker) (u : UnitId) : Bool × Tracker :=
  if t.has u then (false, t) else (true, ⟨t.units ++ [u]⟩)

def size (t : Tracker) : Nat := t.units.length

/-- The names in increasing order. -/
def names (t : Tracker) : List String :=
  (t.units.map UnitId.logical).mergeSort fun a b => a ≤ b

theorem has_iff {t : Tracker} {u : UnitId} :
    t.has u = true ↔ ∃ v ∈ t.units, v.digest = u.digest := by
  simp [has]

theorem has_mark_self (t : Tracker) (u : UnitId) : (t.mark u).2.has u = true := by
  unfold mark
  split
  · assumption
  · simp [has]

end Tracker
end LayerCache

/-! One unit in a running build: where its source is found, its compilation, and what becomes of
the result. A unit is tracked before it is compiled, so each is compiled at most once and a unit
that refers to itself finds itself there. -/
namespace LayerCache

/-- Whether a build has been asked to stop, by the lines heard and the checks made so far. -/
abbrev Cancel := Nat → Nat → Bool

namespace Cancel

def never : Cancel := fun _ _ => false

/-- From the beginning if the number is zero, and else from that line on. -/
def atLine (n : Nat) : Cancel := fun heard _ => decide (n ≤ heard)

def atCheck (n : Nat) : Cancel := fun _ checks => decide (n ≤ checks)

end Cancel

/-- What stays the same during a build. -/
structure Plan where
  roots : Roots
  cache : ArtifactCache
  service : Service
  cancel : Cancel

/-- What changes during a build. -/
structure Pass where
  disk : Disk
  archives : Archives
  tracker : Tracker
  log : Log
  manifest : Manifest
  /-- What was given to the compiler, over all builds. -/
  called : List UnitSource
  checks : Nat
  cancelled : Bool

/-- A unit that can be compiled, and the name its source is shown under. -/
structure Candidate where
  unit : UnitId
  origin : Origin
  name : String

inductive Destination where
  | cache
  /-- Next to a generated source, which is then removed. -/
  | beside (path : Path)
  deriving DecidableEq

namespace Candidate

def ofSource (f : SourceFile) : Candidate :=
  ⟨f.unit, .root f.rank f.path, Text.slashes f.relative.text⟩

def ofEntry (ending : String) (r : EntryRef) : Candidate :=
  ⟨.ofEntry r.entry ending, .archive r, r.entry⟩

def context (c : Candidate) (line : Option Nat) : String :=
  match line with
  | some n => "on line " ++ toString n
  | none => "in " ++ toString c.origin

end Candidate

def Origin.kind : Origin → OriginKind
  | root .. => .root
  | archive _ => .archive

namespace Plan

def besideSource (plan : Plan) (source : Path) : Path := source.withExtension plan.cache.ending

/-- A generated source is compiled beside itself, however it was reached. -/
def destination (plan : Plan) : Origin → Destination
  | .root rank path =>
    if plan.roots.roots.any fun root => root.generated && root.rank == rank then
      .beside (plan.besideSource path)
    else .cache
  | .archive _ => .cache

end Plan

namespace Pass

def setDisk (d : Disk) (p : Pass) : Pass := { p with disk := d }

/-- A build that was asked to stop stays so. -/
def check (plan : Plan) (p : Pass) : Bool × Pass :=
  let stop := p.cancelled || plan.cancel p.log.lines.length p.checks
  (stop, { p with checks := p.checks + 1, cancelled := stop })

def skip (u : UnitId) (reason : String) (p : Pass) : Pass :=
  { p with log := p.log.addSkipped u.logical reason }

def fail (c : Candidate) (message : String) (line : Option Nat) (p : Pass) : Pass :=
  { p with log := p.log.addError c.unit.logical message (c.context line) }

def record (u : UnitId) (origin : Origin) (artifact : ByteArray) (p : Pass) : Pass :=
  let entry : ArtifactRecord := ⟨origin.kind, toString origin, .ofContent artifact⟩
  { p with manifest := p.manifest.record u.logical entry }

/-- Roots come before archives. -/
def locate (plan : Plan) (u : UnitId) (p : Pass) : Option Candidate × Pass :=
  match plan.roots.resolve p.disk u with
  | some source => (some (.ofSource source), p)
  | none =>
    let (entry, archives) := p.archives.find p.disk u
    (entry.map (.ofEntry plan.roots.ending), { p with archives })

def load (origin : Origin) (p : Pass) : Except CompileError ByteArray × Pass :=
  match origin with
  | .root _ path => match p.disk.read path with
    | .ok content => (.ok content, p)
    | .error fault => (.error (.source (path.text ++ ": " ++ fault.message)), p)
  | .archive entry =>
    let (result, archives) := p.archives.read p.disk entry
    (match result with
      | .ok content => .ok content
      | .error e => .error (.source e.message), { p with archives })

def store (plan : Plan) (u : UnitId) (goal : Destination) (artifact : ByteArray) (p : Pass) :
    Except CacheError Unit × Pass :=
  let (result, disk) := match goal with
    | .cache =>
      let (result, disk) := plan.cache.store p.disk u artifact
      (result.map fun _ => (), disk)
    | .beside path => ArtifactCache.writeArtifact p.disk path artifact
  (result, p.setDisk disk)

/-- A source that cannot be removed stays. -/
def removeSource (origin : Origin) (goal : Destination) (p : Pass) : Pass :=
  match goal, origin with
  | .beside _, .root _ path => p.setDisk ((p.disk.remove path).toOption.getD p.disk)
  | _, _ => p

def deliver (plan : Plan) (c : Candidate) (goal : Destination) (artifact : ByteArray) (p : Pass) :
    Pass :=
  match p.store plan c.unit goal artifact with
  | (.error e, p) => p.fail c e.message none
  | (.ok (), p) =>
    let p := (p.removeSource c.origin goal).record c.unit c.origin artifact
    { p with log := p.log.addCompiled c.unit.logical c.name }

/-- Gives a unit to the compiler. -/
def call (plan : Plan) (answer : String → Pass → Bool × Pass) (c : Candidate)
    (content : ByteArray) (p : Pass) : Except CompileError ByteArray × Pass :=
  let source : UnitSource := ⟨c.unit, c.origin, content⟩
  (plan.service p.called.length source).run answer Pass.disk setDisk
    { p with called := p.called ++ [source] }

/-- Compiles a unit that is tracked already; every failure is an event. -/
def compile (plan : Plan) (answer : String → Pass → Bool × Pass) (c : Candidate)
    (goal : Destination) (p : Pass) : Pass :=
  match p.load c.origin with
  | (.error e, p) => p.fail c e.message none
  | (.ok content, p) => match p.call plan answer c content with
    | (.error e, p) => p.fail c e.message e.line
    | (.ok artifact, p) => p.deliver plan c goal artifact

/-- Makes the unit of a symbol available: compiles it unless that was begun before. Whether it is
there is the answer. Compilations nest at most as deep as the number says; at its end only
units already tracked are there. -/
def resolve (plan : Plan) : Nat → String → Pass → Bool × Pass
  | 0, symbol, p => (!(UnitId.ofSymbol symbol).isEmpty && p.tracker.has (.ofSymbol symbol), p)
  | depth + 1, symbol, p =>
    let wanted := UnitId.ofSymbol symbol
    if wanted.isEmpty then (false, p)
    else if p.tracker.has wanted then (true, p)
    else match p.locate plan wanted with
      | (none, p) => (false, p)
      | (some c, p) =>
        let (fresh, tracker) := p.tracker.mark c.unit
        if fresh then
          (true, compile plan (resolve plan depth) c (plan.destination c.origin)
            { p with tracker })
        else (true, p)

end Pass
end LayerCache
