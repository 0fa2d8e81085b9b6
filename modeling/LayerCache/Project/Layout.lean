import LayerCache.Project.Config

/-! The folders of a project, resolved against the folder of its configuration. The order of the
roots is the configured one. -/
namespace LayerCache

structure Layout where
  project : Path
  primary : Path
  generated : Path
  staging : Path
  cache : Path
  roots : List Path
  archives : List Path
  bundles : List BundleSpec
  naming : Naming

namespace Layout

/-- Absolute paths stand as they are. -/
def resolve (project : Path) (c : Config) : Layout :=
  let place (text : String) : Path := project.join ⟨text⟩
  let primary := place c.sources.primary
  let generated := place c.sources.generated
  { project, primary, generated
    staging := (c.sources.staging.map place).getD primary
    cache := (c.cacheDir.map place).getD generated
    roots := c.sources.roots.map place
    archives := c.archives.map place
    bundles := c.bundles.map fun b => { b with vendor := (place b.vendor).text }
    naming := c.naming }

def settingsPath (l : Layout) : Path := (l.project.joinName ".strata").joinName "settings.toml"

def isSource (l : Layout) (p : Path) : Bool := p.hasExtension l.naming.sourceExt

def isArtifact (l : Layout) (p : Path) : Bool := p.hasExtension l.naming.artifactExt

end Layout
end LayerCache
