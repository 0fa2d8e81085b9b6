import LayerCache.Build.Sweep
import LayerCache.Cache.Manifest
import LayerCache.Project.Layout
import LayerCache.Project.Settings

/-! Bundles: named folders of sources that join the roots of a build in some environments. -/
namespace LayerCache

structure Bundle where
  name : String
  folder : Path
  deriving DecidableEq

/-- Who tells a build its bundles: nobody, somebody who cannot answer, or the configuration. -/
inductive BundleProvider where
  | absent
  | failing
  | listed (specs : List BundleSpec)

namespace BundleProvider

/-- The bundles of an environment, in the order they are listed. -/
def fetch : BundleProvider → Environment → List Bundle
  | listed specs, env => (specs.filter (·.appliesTo env)).map fun b => ⟨b.name, ⟨b.vendor⟩⟩
  | _, _ => []

theorem mem_fetch_listed {specs : List BundleSpec} {env : Environment} {b : Bundle} :
    b ∈ (listed specs).fetch env ↔
      ∃ s ∈ specs, s.appliesTo env = true ∧ ⟨s.name, ⟨s.vendor⟩⟩ = b := by
  simp [fetch, and_assoc]

end BundleProvider
end LayerCache

/-! Why a whole build gave no result. The failure of a single unit is an event of a build that goes
on. -/
namespace LayerCache

inductive BuildError where
  | cache (e : CacheError)
  | config (e : ConfigError)
  | busy
  | stopped
  /-- Something other than the compiler of a unit broke down. -/
  | panicked (message : String)
  deriving DecidableEq

def BuildError.message : BuildError → String
  | cache e => "artifact cache error: " ++ e.message
  | config e => "configuration error: " ++ e.message
  | busy => "a build is already running"
  | stopped => "build worker is not running"
  | panicked message => "build panicked: " ++ message

end LayerCache

/-! A build of a project: first everything that will be compiled again is taken out of the cache,
then everything in reach is compiled into it. -/
namespace LayerCache

/-- What a pre-compilation did. -/
structure Preparation where
  ignored : Nat
  invalidated : Nat
  failed : Nat
  staleRemoved : Nat
  ignoreList : Path
  deriving DecidableEq

/-- What a compilation did. -/
structure Summary where
  /-- Whether there was one at all. -/
  ran : Bool := false
  compiled : Nat := 0
  skipped : Nat := 0
  errors : Nat := 0
  cancelled : Bool := false
  events : List Event := []
  resolved : List String := []
  /-- The lines a listener heard. -/
  lines : List String := []

structure Report where
  preparation : Preparation
  summary : Summary

/-- What is fixed for all builds of a project. -/
structure Builder where
  layout : Layout
  service : Service
  bundles : BundleProvider

/-- What builds of a project leave to each other. -/
structure Site where
  disk : Disk
  settings : Settings
  /-- What the compiler was called for, in order. -/
  called : List UnitSource

namespace Builder

def version : String := "0.1.0"

def cache (b : Builder) : ArtifactCache := ⟨b.layout.cache, b.layout.naming.artifactExt⟩

def clean (b : Builder) (d : Disk) : Except BuildError Nat × Disk :=
  match b.cache.clear d with
  | (.ok n, d) => (.ok n, d)
  | (.error e, d) => (.error (.cache e), d)

/-- How many artifacts could be removed, and how many could not. -/
def invalidateAll (b : Builder) (d : Disk) : List UnitId → Nat × Nat × Disk
  | [] => (0, 0, d)
  | u :: rest =>
    let (result, d) := b.cache.invalidate d u
    let (removed, failed, d) := b.invalidateAll d rest
    match result with
    | .ok there => (removed + there.toNat, failed, d)
    | .error _ => (removed, failed + 1, d)

/-- Removes the files that can be removed; says how many these are. -/
def removeAll (d : Disk) : List Path → Nat × Disk
  | [] => (0, d)
  | p :: rest => match d.remove p with
    | .ok d =>
      let (n, d) := removeAll d rest
      (n + 1, d)
    | .error _ => removeAll d rest

/-- Takes the artifacts of all primary sources out of the cache, lists these sources, and removes
stray artifacts from the staging folder. -/
def prepare (b : Builder) (d : Disk) : Except BuildError Preparation × Disk :=
  let sources := d.filesWithExtension b.layout.primary b.layout.naming.sourceExt
  let units := sources.map fun f => UnitId.ofRelative f.relative b.layout.naming.sourceExt
  let (invalidated, failed, d) := b.invalidateAll d units
  let list := sources.foldl (fun l f => l.push f.relative) IgnoreList.empty
  match b.cache.writeIgnoreList d list with
  | (.error e, d) => (.error (.cache e), d)
  | (.ok ignoreList, d) =>
    let stale := d.filesWithExtension b.layout.staging b.layout.naming.artifactExt
    let (staleRemoved, d) := removeAll d (stale.map (·.path))
    (.ok { ignored := list.size, invalidated, failed, staleRemoved, ignoreList }, d)

/-- The declared roots, then the folders of bundles. -/
def declaredRoots (b : Builder) (env : Environment) : List Path :=
  b.layout.roots ++ (b.bundles.fetch env).map (·.folder)

def roots (b : Builder) (env : Environment) : Roots :=
  .ofPaths (some b.layout.generated) (b.declaredRoots env) b.layout.naming.sourceExt

def archives (b : Builder) : Archives :=
  .ofPaths b.layout.archives b.layout.naming.sourceExt b.layout.naming.reserved

def plan (b : Builder) (env : Environment) (cancel : Cancel) : Plan :=
  ⟨b.roots env, b.cache, b.service, cancel⟩

/-- No more units are in reach, wherever the roots and archives lie and whether or not they can be
opened by now: any entry of the disk may be a source below any root, and an archive has fewer members
than bytes. -/
def reach (b : Builder) (env : Environment) (d : Disk) : Nat :=
  (b.roots env).roots.length * d.entries.size + b.archives.paths.length * d.bytes

/-- What compilers that write sources of their own may add to the nesting. With any other compiler a
build is the same for every number in its place. -/
def spareDepth : Nat := 1000

/-- Compiles every unit in reach, with a manifest of an earlier build to start from. -/
def fill (b : Builder) (env : Environment) (heard : Bool) (cancel : Cancel) (d : Disk)
    (called : List UnitSource) : Pass :=
  let previous := (Manifest.load d b.layout.cache).toOption.join
  let start : Pass :=
    { disk := d, archives := b.archives, tracker := .empty, log := .start heard,
      manifest := .new version env, called, checks := 0, cancelled := false }
  let plan := b.plan env cancel
  (start.sweep plan (b.reach env d + spareDepth) b.layout.naming.entryPoints).carryOver plan
    previous

def summarize (p : Pass) : Summary :=
  { ran := true, compiled := p.log.compiled, skipped := p.log.skipped, errors := p.log.errors,
    cancelled := p.cancelled, events := p.log.events, resolved := p.tracker.names,
    lines := p.log.lines }

/-- Whether a build in an environment fills the cache. Only production asks the settings. -/
def wanted (env : Environment) (s : Site) : Except BuildError Bool × Site :=
  if env.isProduction then
    match s.settings.get s.disk Settings.compileToCache with
    | (.answer value, settings) => (.ok (value.getD false), { s with settings })
    | (.error e, settings) => (.error (.config e), { s with settings })
    | (.breakdown failure, settings) => (.error (.panicked failure), { s with settings })
  else (.ok false, s)

/-- A manifest that cannot be written is no failure of the build. -/
def compile (b : Builder) (env : Environment) (heard : Bool) (cancel : Cancel) (s : Site) :
    Except BuildError Summary × Site :=
  match wanted env s with
  | (.error e, s) => (.error e, s)
  | (.ok false, s) => (.ok {}, s)
  | (.ok true, s) => match b.cache.ensureFolder s.disk with
    | (.error e, disk) => (.error (.cache e), { s with disk })
    | (.ok (), disk) =>
      let p := b.fill env heard cancel disk s.called
      (.ok (summarize p),
        { s with disk := (p.manifest.save p.disk b.layout.cache).2, called := p.called })

def build (b : Builder) (env : Environment) (heard : Bool) (cancel : Cancel) (s : Site) :
    Except BuildError Report × Site :=
  match b.prepare s.disk with
  | (.error e, disk) => (.error e, { s with disk })
  | (.ok preparation, disk) => match b.compile env heard cancel { s with disk } with
    | (.error e, s) => (.error e, s)
    | (.ok summary, s) => (.ok ⟨preparation, summary⟩, s)

end Builder
end LayerCache
