import LayerCache.Build.Log
import LayerCache.Build.Pass
import LayerCache.Build.Run
import LayerCache.Build.Sweep
import LayerCache.Build.Worker
import LayerCache.Cache.Artifacts
import LayerCache.Cache.Manifest
import LayerCache.Command.Arguments
import LayerCache.Command.Run
import LayerCache.Compiler.External
import LayerCache.Compiler.Session
import LayerCache.Decimal.Binary64
import LayerCache.Dict
import LayerCache.Digest.Basic
import LayerCache.Digest.Xxh3
import LayerCache.Disk.Basic
import LayerCache.Disk.Edit
import LayerCache.Disk.Fault
import LayerCache.Disk.System
import LayerCache.Disk.Walk
import LayerCache.Environment
import LayerCache.Json.Basic
import LayerCache.Json.Reader
import LayerCache.Main
import LayerCache.Path
import LayerCache.Project.Config
import LayerCache.Project.Scaffold
import LayerCache.Project.Settings
import LayerCache.Proofs.Archives
import LayerCache.Proofs.Build.Account
import LayerCache.Proofs.Build.Beside
import LayerCache.Proofs.Build.Calls
import LayerCache.Proofs.Build.Cancellation
import LayerCache.Proofs.Build.Confluence
import LayerCache.Proofs.Build.Course
import LayerCache.Proofs.Build.Coverage
import LayerCache.Proofs.Build.Delivery
import LayerCache.Proofs.Build.Depth
import LayerCache.Proofs.Build.Foresight
import LayerCache.Proofs.Build.Frame
import LayerCache.Proofs.Build.Hook
import LayerCache.Proofs.Build.Isolation
import LayerCache.Proofs.Build.Origin
import LayerCache.Proofs.Build.Precedence
import LayerCache.Proofs.Build.Preparation
import LayerCache.Proofs.Build.Records
import LayerCache.Proofs.Build.Registration
import LayerCache.Proofs.Build.Reserved
import LayerCache.Proofs.Build.Staleness
import LayerCache.Proofs.Build.Submission
import LayerCache.Proofs.Containment
import LayerCache.Proofs.Contents
import LayerCache.Proofs.Disk
import LayerCache.Proofs.Enumeration
import LayerCache.Proofs.External
import LayerCache.Proofs.Json
import LayerCache.Proofs.Lines
import LayerCache.Proofs.Lookup
import LayerCache.Proofs.Manifest
import LayerCache.Proofs.Openings
import LayerCache.Proofs.Ownership
import LayerCache.Proofs.Path
import LayerCache.Proofs.Requests
import LayerCache.Proofs.Serials
import LayerCache.Proofs.Settings
import LayerCache.Proofs.Snapshots
import LayerCache.Proofs.Sources
import LayerCache.Proofs.Spelling
import LayerCache.Shell.Builtin
import LayerCache.Shell.Editor.Run
import LayerCache.Shell.Editor.Script
import LayerCache.Shell.Engine
import LayerCache.Shell.Expand
import LayerCache.Shell.Field
import LayerCache.Shell.Program.Basic
import LayerCache.Shell.Program.Columns
import LayerCache.Shell.Program.Condition
import LayerCache.Shell.Program.Decimals
import LayerCache.Shell.Program.Encode
import LayerCache.Shell.Program.Expression
import LayerCache.Shell.Program.Files
import LayerCache.Shell.Program.Format
import LayerCache.Shell.Program.Lines
import LayerCache.Shell.Program.Locate
import LayerCache.Shell.Program.Options
import LayerCache.Shell.Program.Run
import LayerCache.Shell.Program.Search
import LayerCache.Shell.Program.Sort
import LayerCache.Shell.Program.Start
import LayerCache.Shell.Program.Translate
import LayerCache.Shell.Reader
import LayerCache.Shell.Redirect
import LayerCache.Shell.Regex.Basic
import LayerCache.Shell.Regex.Reader
import LayerCache.Shell.Run
import LayerCache.Shell.Signal
import LayerCache.Shell.Start
import LayerCache.Shell.State
import LayerCache.Shell.Sum
import LayerCache.Shell.Token
import LayerCache.Sources.Archives
import LayerCache.Sources.Catalog
import LayerCache.Sources.Roots
import LayerCache.Text.Ascii
import LayerCache.Text.Lines
import LayerCache.Text.Utf8
import LayerCache.Toml.Basic
import LayerCache.Toml.Decode
import LayerCache.Toml.Document
import LayerCache.Toml.Quoted
import LayerCache.Toml.Reader
import LayerCache.Toml.Scalar
import LayerCache.Toml.Writer
import LayerCache.UnitId
import LayerCache.Zip.Directory
import LayerCache.Zip.Ending
import LayerCache.Zip.Inflate
import LayerCache.Zip.Member
